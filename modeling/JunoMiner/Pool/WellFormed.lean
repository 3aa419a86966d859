import JunoMiner.Pool.Slots
import JunoMiner.Pool.Frame
import Mathlib.Data.List.GetD

/-!
# The pool's shape in every reachable state

Whatever `initialize`, `update_seed` and `set_thread_count` return, they leave the pool in a
shape the next call relies on: every handle in a slot was allocated, no handle sits in two slots,
the caches and the dataset the pool names are live, the workers' placement is the round-robin
table, and each mode keeps its VMs where `get_vm_for_thread` looks for them. Each step is shown to
keep the shape however it ends, so the loops keep it however they end, early `return false`
included.
-/

namespace JunoMiner

namespace Pool

/-- The slots' handles: all allocated, and no handle in two slots. -/
structure Handles (pool : Pool) : Prop where
  below : ∀ slot vm, pool.slot slot = some vm → vm < pool.rx.attempts
  distinct : ∀ first second vm, pool.slot first = some vm → pool.slot second = some vm →
    first = second

variable {pool before after : Pool}

/-- One slot takes the next allocation number, or null, and the counter moves past it. -/
theorem Handles.put (handles : before.Handles) (target : Slot)
    (others : ∀ slot, slot ≠ target → after.slot slot = before.slot slot)
    (fresh : ∀ vm, after.slot target = some vm → vm = before.rx.attempts)
    (grows : before.rx.attempts < after.rx.attempts) : after.Handles := by
  have old (slot : Slot) (vm : Nat) (other : slot ≠ target) (held : after.slot slot = some vm) :
      vm < before.rx.attempts := handles.below slot vm (others slot other ▸ held)
  refine ⟨fun slot vm held => ?_, fun first second vm heldFirst heldSecond => ?_⟩
  · by_cases same : slot = target
    · subst same
      exact fresh vm held ▸ grows
    · exact (old slot vm same held).trans grows
  · by_cases firstTarget : first = target <;> by_cases secondTarget : second = target
    · exact firstTarget.trans secondTarget.symm
    · subst firstTarget
      exact absurd (fresh vm heldFirst) (old second vm secondTarget heldSecond).ne
    · subst secondTarget
      exact absurd (fresh vm heldSecond) (old first vm firstTarget heldFirst).ne
    · exact handles.distinct first second vm (others first firstTarget ▸ heldFirst)
        (others second secondTarget ▸ heldSecond)

/-- Slots emptied or left alone. -/
theorem Handles.clear (handles : before.Handles)
    (cleared : ∀ slot vm, after.slot slot = some vm → before.slot slot = some vm)
    (grows : before.rx.attempts ≤ after.rx.attempts) : after.Handles :=
  ⟨fun slot vm held => (handles.below slot vm (cleared slot vm held)).trans_le grows,
    fun first second vm heldFirst heldSecond =>
      handles.distinct first second vm (cleared first vm heldFirst)
        (cleared second vm heldSecond)⟩

/-- `legacy_vms_[index] = vm`, on slots. -/
theorem slot_legacy_set (rx : RandomX) (index : Nat) (vm : Option Nat) (slot : Slot) :
    ({ pool with rx, legacyVms := pool.legacyVms.set index vm } : Pool).slot slot =
      if slot = .legacy index ∧ index < pool.legacyVms.length then vm else pool.slot slot := by
  cases slot with
  | node node position => simp [Pool.slot]
  | legacy position =>
    by_cases same : index = position
    · subst same
      by_cases inside : index < pool.legacyVms.length
      · simp [Pool.slot, inside]
      · simp [Pool.slot, inside, List.set_eq_of_length_le (Nat.le_of_not_lt inside)]
    · simp [Pool.slot, List.getElem?_set_ne same, Ne.symm same]

theorem getD_setNode (node other : Nat) (change : NumaNode → NumaNode) :
    (pool.setNode node change).numaNodes.getD other .empty =
      if node = other ∧ node < pool.numaNodes.length then change (pool.numaNodes.getD node .empty)
      else pool.numaNodes.getD other .empty := by
  by_cases same : node = other
  · subst same
    by_cases inside : node < pool.numaNodes.length
    · simp [setNode, inside, List.getElem?_eq_getElem]
    · simp [setNode, inside, List.getElem?_eq_none (Nat.le_of_not_lt inside)]
  · simp [setNode, same, List.getElem?_modify_ne _ _ same]

@[simp]
theorem setNode_length (node : Nat) (change : NumaNode → NumaNode) :
    (pool.setNode node change).numaNodes.length = pool.numaNodes.length :=
  List.length_modify _ _ _

/-- Changing `numa_nodes_[node]`, on the slots of the nodes. -/
theorem slot_setNode (rx : RandomX) (node : Nat) (change : NumaNode → NumaNode)
    (other index : Nat) :
    ({ pool.setNode node change with rx } : Pool).slot (.node other index) =
      if node = other ∧ node < pool.numaNodes.length then
        (change (pool.numaNodes.getD node .empty)).vms.getD index none
      else pool.slot (.node other index) := by
  simp only [Pool.slot, getD_setNode]
  split <;> rfl

/-- `numa_nodes_[node].vms[index] = vm`, on slots. -/
theorem slot_node_set (rx : RandomX) (node index : Nat) (vm : Option Nat) (slot : Slot) :
    ({ pool.setNode node (fun n => { n with vms := n.vms.set index vm }) with rx } : Pool).slot
        slot =
      if slot = .node node index ∧ node < pool.numaNodes.length ∧
          index < (pool.numaNodes.getD node .empty).vms.length then vm
      else pool.slot slot := by
  cases slot with
  | legacy position => simp [Pool.slot, setNode]
  | node other position =>
    rw [slot_setNode]
    by_cases sameNode : node = other
    · subst sameNode
      by_cases inside : node < pool.numaNodes.length
      · have entry : pool.numaNodes.getD node .empty = pool.numaNodes[node] := by simp [inside]
        by_cases samePosition : index = position
        · subst samePosition
          by_cases within : index < pool.numaNodes[node].vms.length
          · simp [within, inside, entry]
          · simp [within, inside, entry, Pool.slot,
              List.set_eq_of_length_le (Nat.le_of_not_lt within)]
        · simp [samePosition, Ne.symm samePosition, inside, Pool.slot,
            List.getElem?_set_ne samePosition]
      · simp [inside]
    · simp [sameNode, Ne.symm sameNode]

theorem resizeVms_getD (vms : List (Option Nat)) (size index : Nat) :
    (resizeVms vms size).getD index none = if index < size then vms.getD index none else none := by
  by_cases within : index < size
  · by_cases old : index < vms.length
    · simp [resizeVms, within, List.getElem?_append_left, List.getElem?_take_of_lt, old]
    · simp only [resizeVms, within, if_true, List.getD_eq_getElem?_getD,
        List.getElem?_eq_none (Nat.le_of_not_lt old), List.getElem?_append_right
          (show (vms.take size).length ≤ index by simp; omega),
        List.getElem?_replicate]
      split <;> rfl
  · rw [if_neg within, List.getD_eq_getElem?_getD, List.getElem?_eq_none (by simp; omega)]
    rfl

/-- What every pool `main` reaches satisfies, whatever its calls returned. -/
structure WellFormed (pool : Pool) extends pool.Handles : Prop where
  sane : pool.rx.Sane
  seed : pool.currentSeedHash.length = 32
  placed : pool.numaAvailable = true → 0 < pool.numNumaNodes ∧
    pool.numaNodes.length = pool.numNumaNodes ∧
    pool.threadToNode = (List.range pool.numThreads).map (· % pool.numNumaNodes)
  legacyCache : ∀ cache, pool.legacyCache = some cache → pool.rx.caches cache ≠ none
  dataset : ∀ dataset, pool.dataset = some dataset → pool.rx.datasets dataset ≠ none
  nodeCaches : ∀ node cache, (pool.numaNodes.getD node .empty).cache = some cache →
    pool.rx.caches cache ≠ none
  /-- In fast mode the nodes hold nothing: every worker reads its legacy slot. -/
  fastNodes : pool.fastMode = true → ∀ node,
    (pool.numaNodes.getD node .empty).vms = [] ∧ (pool.numaNodes.getD node .empty).cache = none
  /-- A node holds VMs only once it has its cache. -/
  lightNodes : ∀ node, (pool.numaNodes.getD node .empty).cache = none →
    ∀ vm ∈ (pool.numaNodes.getD node .empty).vms, vm = none
  /-- In light mode under NUMA the legacy VMs are never made. -/
  lightNuma : pool.numaAvailable = true → pool.fastMode = false → ∀ vm ∈ pool.legacyVms, vm = none
  /-- Without NUMA there are no nodes. -/
  noNuma : pool.numaAvailable = false → pool.numaNodes = []

/-- A node `initialize` has not reached: no VMs and no cache. -/
abbrev NodeFresh (node : NumaNode) : Prop := node.vms = [] ∧ node.cache = none

/-- What `initialize` starts from: a constructed pool, or one `set_thread_count` has released. -/
structure Fresh (pool : Pool) : Prop where
  placed : pool.numaAvailable = true → 0 < pool.numNumaNodes ∧
    pool.numaNodes.length = pool.numNumaNodes ∧
    pool.threadToNode = (List.range pool.numThreads).map (· % pool.numNumaNodes)
  noNuma : pool.numaAvailable = false → pool.numaNodes = []
  legacyVms : pool.legacyVms = []
  legacyCache : pool.legacyCache = none
  dataset : pool.dataset = none
  nodes : ∀ node, NodeFresh (pool.numaNodes.getD node .empty)
  sane : pool.rx.Sane

theorem createVm_handle {rx : RandomX} {cache dataset : Option Nat} {vm : Nat}
    (created : (rx.createVm cache dataset).1 = some vm) : vm = rx.attempts := by
  rw [RandomX.createVm_eq] at created
  split_ifs at created
  exact (Option.some.inj created).symm

theorem slot_node_outside {node index : Nat}
    (outside : ¬(node < pool.numaNodes.length ∧
      index < (pool.numaNodes.getD node .empty).vms.length)) :
    pool.slot (.node node index) = none := by
  by_cases inside : node < pool.numaNodes.length
  · exact List.getD_eq_default _ _ (Nat.le_of_not_lt fun within => outside ⟨inside, within⟩)
  · simp only [Pool.slot, List.getD_eq_default _ _ (Nat.le_of_not_lt inside)]
    rfl

theorem slot_legacy_outside {index : Nat} (outside : ¬index < pool.legacyVms.length) :
    pool.slot (.legacy index) = none :=
  List.getD_eq_default _ _ (Nat.le_of_not_lt outside)

/-! ## The library calls -/

theorem allocCache_live {rx after : RandomX} {cache : Nat}
    (allocated : rx.allocCache = (some cache, after)) : after.caches cache ≠ none := by
  rw [RandomX.allocCache_eq] at allocated
  split_ifs at allocated
  · cases allocated
  · simp only [Prod.mk.injEq, Option.some.injEq] at allocated
    obtain ⟨rfl, rfl⟩ := allocated
    simp

theorem allocDataset_live {rx after : RandomX} {dataset : Nat}
    (allocated : rx.allocDataset = (some dataset, after)) : after.datasets dataset ≠ none := by
  rw [RandomX.allocDataset_eq] at allocated
  split_ifs at allocated
  · cases allocated
  · simp only [Prod.mk.injEq, Option.some.injEq] at allocated
    obtain ⟨rfl, rfl⟩ := allocated
    simp

/-- A loop of library calls that each release nothing releases nothing. -/
theorem grows_foldl {α : Type} (f : RandomX → α → RandomX)
    (step : ∀ rx item, (f rx item).Grows rx) :
    ∀ (items : List α) (rx : RandomX), (items.foldl f rx).Grows rx
  | [], rx => .refl rx
  | item :: items, rx => (grows_foldl f step items (f rx item)).trans (step rx item)

theorem grows_destroyVms (rx : RandomX) (vms : List (Option Nat)) : (rx.destroyVms vms).Grows rx :=
  grows_foldl _ (fun rx vm => by cases vm <;> simp [RandomX.Grows.refl, RandomX.grows_destroyVm])
    vms rx

/-! ## Each change of the pool keeps the shape -/

/-- Calls into the library that release nothing. -/
theorem WellFormed.withRx (wf : pool.WellFormed) {rx : RandomX} (grows : rx.Grows pool.rx) :
    ({ pool with rx } : Pool).WellFormed :=
  { toHandles := wf.toHandles.clear (fun _ _ => id) grows.attempts
    sane := grows.sane wf.sane
    seed := wf.seed
    placed := wf.placed
    legacyCache := fun cache named => grows.caches cache (wf.legacyCache cache named)
    dataset := fun dataset named => grows.datasets dataset (wf.dataset dataset named)
    nodeCaches := fun node cache named => grows.caches cache (wf.nodeCaches node cache named)
    fastNodes := wf.fastNodes
    lightNodes := wf.lightNodes
    lightNuma := wf.lightNuma
    noNuma := wf.noNuma }

/-- New legacy VMs, from library calls that release nothing. -/
theorem WellFormed.setLegacy (wf : pool.WellFormed) {rx : RandomX} (grows : rx.Grows pool.rx)
    {vms : List (Option Nat)} (handles : ({ pool with rx, legacyVms := vms } : Pool).Handles)
    (lightNuma : pool.numaAvailable = true → pool.fastMode = false →
      ∀ vm ∈ vms, vm = none) :
    ({ pool with rx, legacyVms := vms } : Pool).WellFormed :=
  { wf.withRx grows with toHandles := handles, lightNuma }

/-- One node changed, with library calls that release nothing. -/
theorem WellFormed.setNode (wf : pool.WellFormed) {rx : RandomX} (grows : rx.Grows pool.rx)
    {node : Nat} {change : NumaNode → NumaNode}
    (handles : ({ pool.setNode node change with rx } : Pool).Handles)
    (cache : ∀ handle, (change (pool.numaNodes.getD node .empty)).cache = some handle →
      rx.caches handle ≠ none)
    (fast : pool.fastMode = true → (change (pool.numaNodes.getD node .empty)).vms = [] ∧
      (change (pool.numaNodes.getD node .empty)).cache = none)
    (light : (change (pool.numaNodes.getD node .empty)).cache = none →
      ∀ vm ∈ (change (pool.numaNodes.getD node .empty)).vms, vm = none) :
    ({ pool.setNode node change with rx } : Pool).WellFormed :=
  have nodes (holds : NumaNode → Prop)
      (before : ∀ other, holds (pool.numaNodes.getD other .empty))
      (changed : holds (change (pool.numaNodes.getD node .empty))) (other : Nat) :
      holds ((pool.setNode node change).numaNodes.getD other .empty) := by
    rw [getD_setNode]
    split
    exacts [changed, before other]
  { wf.withRx grows with
    toHandles := handles
    placed := fun numa => by simpa using wf.placed numa
    nodeCaches := nodes (fun n => ∀ handle, n.cache = some handle → rx.caches handle ≠ none)
      (fun other handle named => grows.caches handle (wf.nodeCaches other handle named)) cache
    fastNodes := fun isFast => nodes (fun n => n.vms = [] ∧ n.cache = none) (wf.fastNodes isFast)
      (fast isFast)
    lightNodes :=
      nodes (fun n => n.cache = none → ∀ vm ∈ n.vms, vm = none) wf.lightNodes light
    noNuma := fun off => by simp [Pool.setNode, wf.noNuma off] }

/-- Changing a node's cache moves no handle. -/
theorem handles_setNode_cache (handles : pool.Handles) (rx : RandomX)
    (grows : pool.rx.attempts ≤ rx.attempts) (node : Nat) (cache : Option Nat) :
    ({ pool.setNode node (fun n => { n with cache }) with rx } : Pool).Handles :=
  handles.clear (fun slot vm held => by
    cases slot with
    | legacy => exact held
    | node other index =>
      rw [slot_setNode] at held
      split at held
      · rename_i same
        obtain ⟨rfl, _⟩ := same
        exact held
      · exact held) grows

/-- Resizing a node's VMs keeps the handles of the first slots and drops the rest. -/
theorem handles_setNode_resize (handles : pool.Handles) (rx : RandomX)
    (grows : pool.rx.attempts ≤ rx.attempts) (node count : Nat) :
    ({ pool.setNode node (fun n => { n with vms := resizeVms n.vms count }) with rx } :
      Pool).Handles :=
  handles.clear (fun slot vm held => by
    cases slot with
    | legacy => exact held
    | node other index =>
      rw [slot_setNode] at held
      split at held
      · rename_i same
        obtain ⟨rfl, _⟩ := same
        rw [resizeVms_getD] at held
        split at held
        · exact held
        · cases held
      · exact held) grows

theorem putLegacyVm_wellFormed (wf : pool.WellFormed)
    (mode : pool.numaAvailable = true → pool.fastMode = true) (cache dataset : Option Nat)
    (index : Nat) : (finish (pool.putLegacyVm cache dataset index)).2.WellFormed := by
  rw [putLegacyVm_outcome]
  refine wf.setLegacy (RandomX.grows_createVm cache dataset)
    (wf.toHandles.put (.legacy index) (fun slot other => ?_) (fun vm held => ?_)
      (by simp [RandomX.createVm_eq]))
    fun numa light => absurd (mode numa) (by simp [light])
  · rw [slot_legacy_set, if_neg fun ⟨same, _⟩ => other same]
  · rw [slot_legacy_set] at held
    split_ifs at held with inside
    · exact createVm_handle held
    · rw [slot_legacy_outside fun within => inside ⟨rfl, within⟩] at held
      cases held

theorem putNodeVm_wellFormed (wf : pool.WellFormed) (light : pool.fastMode = false) {node : Nat}
    {cache : Nat} (cached : (pool.numaNodes.getD node .empty).cache = some cache) (index : Nat) :
    (finish (pool.putNodeVm node cache index)).2.WellFormed := by
  rw [putNodeVm_outcome]
  refine wf.setNode (RandomX.grows_createVm _ _)
    (wf.toHandles.put (.node node index) (fun slot other => ?_) (fun vm held => ?_)
      (by simp [RandomX.createVm_eq]))
    (fun handle named =>
      (RandomX.grows_createVm _ _).caches handle (wf.nodeCaches node handle named))
    (fun isFast => nomatch light.symm.trans isFast) (fun unset => nomatch cached.symm.trans unset)
  · rw [slot_node_set, if_neg fun ⟨same, _⟩ => other same]
  · rw [slot_node_set] at held
    split_ifs at held with inside
    · exact createVm_handle held
    · rw [slot_node_outside fun within => inside ⟨rfl, within⟩] at held
      cases held

theorem putNodeVm_getD_other {node other : Nat} (different : node ≠ other) (cache index : Nat) :
    (finish (pool.putNodeVm node cache index)).2.numaNodes.getD other .empty =
      pool.numaNodes.getD other .empty := by
  rw [putNodeVm_outcome]
  exact (getD_setNode _ _ _).trans (if_neg fun ⟨same, _⟩ => different same)

theorem putNodeVm_getD_cache (node cache index other : Nat) :
    ((finish (pool.putNodeVm node cache index)).2.numaNodes.getD other .empty).cache =
      (pool.numaNodes.getD other .empty).cache := by
  rw [putNodeVm_outcome]
  show ((pool.setNode node _).numaNodes.getD other .empty).cache = _
  rw [getD_setNode]
  split
  · rename_i same
    obtain ⟨rfl, _⟩ := same
    rfl
  · rfl

theorem recreateNodeVm_wellFormed (wf : pool.WellFormed) (light : pool.fastMode = false)
    {node cache : Nat} (cached : (pool.numaNodes.getD node .empty).cache = some cache)
    (index : Nat) : (finish (pool.recreateNodeVm node cache index)).2.WellFormed :=
  putNodeVm_wellFormed (wf.withRx (grows_destroyVms _ _)) light cached index

theorem recreateLegacyVm_wellFormed (wf : pool.WellFormed)
    (mode : pool.numaAvailable = true → pool.fastMode = true) (index : Nat) :
    (finish (pool.recreateLegacyVm index)).2.WellFormed :=
  putLegacyVm_wellFormed (wf.withRx (grows_destroyVms _ _)) mode _ _ index

theorem fillDataset_wellFormed (wf : pool.WellFormed) (dataset cache : Nat) :
    (pool.fillDataset dataset cache).WellFormed :=
  wf.withRx (grows_foldl _ (fun _ _ => RandomX.grows_initDataset _ _ _ _) _ _)

theorem grows_of_allocCache {rx after : RandomX} {cache : Option Nat}
    (allocated : rx.allocCache = (cache, after)) : after.Grows rx := by
  have grows := @RandomX.grows_allocCache rx
  rwa [allocated] at grows

theorem grows_of_allocDataset {rx after : RandomX} {dataset : Option Nat}
    (allocated : rx.allocDataset = (dataset, after)) : after.Grows rx := by
  have grows := @RandomX.grows_allocDataset rx
  rwa [allocated] at grows

theorem setupDataset_wellFormed (wf : pool.WellFormed) (fast : pool.fastMode = true)
    (cache : Nat) : (finish (pool.setupDataset cache)).2.WellFormed := by
  unfold setupDataset
  rcases allocated : pool.rx.allocDataset with ⟨_ | dataset, rx⟩
  · exact
      { toHandles := wf.toHandles.clear (fun _ _ => id) (grows_of_allocDataset allocated).attempts
        sane := ((grows_of_allocDataset allocated).sane wf.sane).releaseCache cache
        seed := wf.seed
        placed := wf.placed
        legacyCache := fun _ named => nomatch named
        dataset := fun _ named => nomatch named
        nodeCaches := fun node _ named => nomatch (wf.fastNodes fast node).2.symm.trans named
        fastNodes := wf.fastNodes
        lightNodes := wf.lightNodes
        lightNuma := wf.lightNuma
        noNuma := wf.noNuma }
  · have grows := grows_of_allocDataset allocated
    refine fillDataset_wellFormed ?_ dataset cache
    exact { wf.withRx grows with
      toHandles := wf.toHandles.clear (fun _ _ => id) grows.attempts
      dataset := fun _ named => Option.some.inj named ▸ allocDataset_live allocated }

/-- The node `setup_node` works on, once its cache is allocated and keyed and its VMs resized:
the pool keeps its shape, and the node has its cache. -/
theorem cachedNode_wellFormed (wf : pool.WellFormed) (light : pool.fastMode = false) {node : Nat}
    (inside : node < pool.numaNodes.length) {cache : Nat} {rx : RandomX}
    (allocated : pool.rx.allocCache = (some cache, rx)) (seedHash : Bytes) (count : Nat) :
    let cached := ({ pool.setNode node (fun n => { n with cache := some cache }) with rx } : Pool)
    let resized := ({ cached.setNode node (fun n => { n with vms := resizeVms n.vms count }) with
      rx := rx.initCache cache seedHash } : Pool)
    resized.WellFormed ∧ (resized.numaNodes.getD node .empty).cache = some cache ∧
      (resized.numaNodes.getD node .empty).vms.length = count := by
  intro cached resized
  have grows := grows_of_allocCache allocated
  have withCache : cached.WellFormed :=
    wf.setNode grows (handles_setNode_cache wf.toHandles rx grows.attempts node (some cache))
      (fun _ named => Option.some.inj named ▸ allocCache_live allocated)
      (fun isFast => nomatch light.symm.trans isFast) (fun unset => nomatch unset)
  have cachedNode : cached.numaNodes.getD node .empty =
      { pool.numaNodes.getD node .empty with cache := some cache } := by
    show (pool.setNode node _).numaNodes.getD node .empty = _
    rw [getD_setNode, if_pos ⟨rfl, inside⟩]
  have resizedNode : resized.numaNodes.getD node .empty =
      { cached.numaNodes.getD node .empty with
        vms := resizeVms (cached.numaNodes.getD node .empty).vms count } := by
    show (cached.setNode node _).numaNodes.getD node .empty = _
    rw [getD_setNode, if_pos ⟨rfl, by simpa [cached] using inside⟩]
  refine ⟨withCache.setNode (RandomX.grows_initCache cache seedHash)
      (handles_setNode_resize withCache.toHandles (rx.initCache cache seedHash) le_rfl node count)
      (fun handle named => ?_) (fun isFast => nomatch light.symm.trans isFast)
      (fun unset => nomatch (cachedNode ▸ unset)), by rw [resizedNode, cachedNode],
    by rw [resizedNode, resizeVms_length]⟩
  have named : (cached.numaNodes.getD node .empty).cache = some handle := named
  rw [cachedNode] at named
  obtain rfl := Option.some.inj named
  exact (RandomX.grows_initCache _ seedHash).caches _ (allocCache_live allocated)

theorem setupNode_wellFormed (wf : pool.WellFormed) (light : pool.fastMode = false) {node : Nat}
    (inside : node < pool.numaNodes.length) (fresh : NodeFresh (pool.numaNodes.getD node .empty))
    (seedHash : Bytes) (count : Nat) :
    (finish (pool.setupNode seedHash count node)).2.WellFormed := by
  unfold setupNode
  split
  · exact wf
  rcases allocated : pool.rx.allocCache with ⟨_ | cache, rx⟩
  · have grows := grows_of_allocCache allocated
    exact wf.setNode grows (handles_setNode_cache wf.toHandles rx grows.attempts node none)
      (fun _ named => nomatch named) (fun isFast => nomatch light.symm.trans isFast)
      (fun _ vm mem => by simp only [fresh.1, List.not_mem_nil] at mem)
  · obtain ⟨resized, cached, -⟩ :=
      cachedNode_wellFormed wf light inside allocated seedHash count
    dsimp only
    exact (foldlM_holds (fun next : Pool => next.WellFormed ∧ next.fastMode = false ∧
        (next.numaNodes.getD node .empty).cache = some cache)
      (fun _ index ⟨wf, light, cached⟩ => ⟨putNodeVm_wellFormed wf light cached index,
        (putNodeVm_keepsConfig _ _ _).fastMode.trans light,
        (putNodeVm_getD_cache _ _ _ _).trans cached⟩) _ _ ⟨resized, light, cached⟩).1

theorem setupNode_getD_other {node other : Nat} (different : node ≠ other) (seedHash : Bytes)
    (count : Nat) :
    (finish (pool.setupNode seedHash count node)).2.numaNodes.getD other .empty =
      pool.numaNodes.getD other .empty := by
  have untouched (before : Pool) (change : NumaNode → NumaNode) :
      (before.setNode node change).numaNodes.getD other .empty =
        before.numaNodes.getD other .empty :=
    (getD_setNode _ _ _).trans (if_neg fun ⟨same, _⟩ => different same)
  unfold setupNode
  split
  · rfl
  rcases allocated : pool.rx.allocCache with ⟨_ | cache, rx⟩
  · exact untouched _ _
  · dsimp only
    refine foldlM_holds (fun next : Pool =>
        next.numaNodes.getD other .empty = pool.numaNodes.getD other .empty)
      (fun _ _ same => (putNodeVm_getD_other different _ _).trans same) _ _ ?_
    exact (untouched _ _).trans (untouched _ _)

/-- The NUMA block of `initialize` on nodes it has not reached yet. -/
theorem setupNumaNodes_wellFormed (wf : pool.WellFormed) (numa : pool.numaAvailable = true)
    (light : pool.fastMode = false) (fresh : ∀ node, NodeFresh (pool.numaNodes.getD node .empty))
    (seedHash : Bytes) : (finish (pool.setupNumaNodes seedHash)).2.WellFormed := by
  unfold setupNumaNodes
  obtain ⟨_, count, _⟩ := wf.placed numa
  obtain ⟨_, _, reached, -⟩ := foldlM_range_holds (fun index (next : Pool) =>
      next.WellFormed ∧ next.KeepsConfig pool ∧
        ∀ node, index ≤ node → NodeFresh (next.numaNodes.getD node .empty))
    (fun index next inside ⟨wf, kept, fresh⟩ =>
      ⟨setupNode_wellFormed wf (kept.fastMode.trans light)
          (by rw [kept.nodeCount, count]; exact inside) (fresh index le_rfl) _ _,
        (setupNode_keepsConfig _ _ _).trans kept,
        fun node later => by
          rw [setupNode_getD_other (Nat.ne_of_lt later)]
          exact fresh node (by omega)⟩)
    ⟨wf, .refl _, fun node _ => fresh node⟩
  exact reached

theorem KeepsConfig.mode (kept : after.KeepsConfig before)
    (mode : before.numaAvailable = true → before.fastMode = true) :
    after.numaAvailable = true → after.fastMode = true :=
  fun numa => kept.fastMode.trans (mode (kept.numaAvailable.symm.trans numa))

/-- `legacy_vms_.resize(num_threads_)` at the top of the last block of `initialize`. -/
theorem resizeLegacy_wellFormed (wf : pool.WellFormed)
    (mode : pool.numaAvailable = true → pool.fastMode = true) :
    ({ pool with legacyVms := resizeVms pool.legacyVms pool.numThreads } : Pool).WellFormed := by
  refine wf.setLegacy (.refl _) (wf.toHandles.clear (fun slot vm held => ?_) le_rfl)
    fun numa light => nomatch (mode numa).symm.trans light
  cases slot with
  | node => exact held
  | legacy index =>
    change (resizeVms pool.legacyVms pool.numThreads).getD index none = some vm at held
    rw [resizeVms_getD] at held
    split at held
    · exact held
    · cases held

theorem createLegacyVms_wellFormed (wf : pool.WellFormed)
    (mode : pool.numaAvailable = true → pool.fastMode = true) :
    (finish pool.createLegacyVms).2.WellFormed := by
  unfold createLegacyVms
  refine (foldlM_holds (fun next : Pool =>
      next.WellFormed ∧ (next.numaAvailable = true → next.fastMode = true))
    (fun _ index ⟨wf, mode⟩ =>
      ⟨putLegacyVm_wellFormed wf mode _ _ index, (putLegacyVm_keepsConfig _ _ _).mode mode⟩)
    _ _ ⟨resizeLegacy_wellFormed wf mode, ?_⟩).1
  exact mode

theorem Fresh.slot_eq_none (fresh : pool.Fresh) (slot : Slot) : pool.slot slot = none := by
  cases slot with
  | node node index => simp only [Pool.slot, (fresh.nodes node).1]; rfl
  | legacy index => simp only [Pool.slot, fresh.legacyVms]; rfl

theorem Fresh.wellFormed (fresh : pool.Fresh) (size : pool.currentSeedHash.length = 32) :
    pool.WellFormed :=
  { below := fun slot _ held => nomatch (fresh.slot_eq_none slot).symm.trans held
    distinct := fun first _ _ held _ => nomatch (fresh.slot_eq_none first).symm.trans held
    sane := fresh.sane
    seed := size
    placed := fresh.placed
    legacyCache := fun _ named => nomatch fresh.legacyCache.symm.trans named
    dataset := fun _ named => nomatch fresh.dataset.symm.trans named
    nodeCaches := fun node _ named => nomatch (fresh.nodes node).2.symm.trans named
    fastNodes := fun _ => fresh.nodes
    lightNodes := fun node _ vm mem => by rw [(fresh.nodes node).1] at mem; cases mem
    lightNuma := fun _ _ vm mem => by rw [fresh.legacyVms] at mem; cases mem
    noNuma := fresh.noNuma }

/-- The last block of `initialize`, on either path. -/
theorem placeVms_wellFormed (wf : pool.WellFormed)
    (fresh : pool.numaAvailable = true → pool.fastMode = false →
      ∀ node, NodeFresh (pool.numaNodes.getD node .empty)) (seedHash : Bytes) :
    (finish (if pool.numaAvailable ∧ ¬pool.fastMode then pool.setupNumaNodes seedHash
      else pool.createLegacyVms)).2.WellFormed := by
  split
  · rename_i numaLight
    have light : pool.fastMode = false := by simpa using numaLight.2
    exact setupNumaNodes_wellFormed wf numaLight.1 light (fresh numaLight.1 light) seedHash
  · rename_i other
    exact createLegacyVms_wellFormed wf fun numa => by simpa [numa] using other

/-- `initialize` once the legacy cache is allocated and keyed with the seed. -/
theorem cachedPool_wellFormed (fresh : pool.Fresh) {seedHash : Bytes}
    (size : seedHash.length = 32) {cache : Nat} {rx : RandomX}
    (allocated : pool.rx.allocCache = (some cache, rx)) :
    ({ pool with
      currentSeedHash := seedHash, legacyCache := some cache,
      rx := rx.initCache cache seedHash } : Pool).WellFormed :=
  have seeded : ({ pool with currentSeedHash := seedHash, rx := rx.initCache cache seedHash } :
      Pool).Fresh :=
    ⟨fresh.placed, fresh.noNuma, fresh.legacyVms, fresh.legacyCache, fresh.dataset, fresh.nodes,
      (RandomX.grows_initCache cache seedHash).sane
        ((grows_of_allocCache allocated).sane fresh.sane)⟩
  { seeded.wellFormed size with
    toHandles := (seeded.wellFormed size).toHandles.clear (fun _ _ => id) le_rfl
    legacyCache := fun _ named => Option.some.inj named ▸
      (RandomX.grows_initCache cache seedHash).caches cache (allocCache_live allocated) }

/-- `initialize` with a 32-byte seed, on a constructed or released pool, however it ends. -/
theorem initializeSeed_wellFormed (fresh : pool.Fresh) {seedHash : Bytes}
    (size : seedHash.length = 32) : (pool.initializeSeed seedHash).2.WellFormed := by
  unfold initializeSeed
  simp only [size, ne_eq, not_true_eq_false, if_false, pure_bind]
  rcases allocated : pool.rx.allocCache with ⟨_ | cache, rx⟩
  · exact Fresh.wellFormed
      ⟨fresh.placed, fresh.noNuma, fresh.legacyVms, rfl, fresh.dataset, fresh.nodes,
        (grows_of_allocCache allocated).sane fresh.sane⟩ size
  · dsimp only
    have keyed := cachedPool_wellFormed fresh size allocated
    split
    · rename_i fast
      exact (finish_bind_holds (fun next : Pool => next.WellFormed ∧ next.fastMode = true)
        ⟨setupDataset_wellFormed keyed fast cache,
          (setupDataset_keepsConfig cache).fastMode.trans fast⟩
        fun _ _ ⟨wf, fast⟩ =>
          ⟨placeVms_wellFormed wf (fun _ light => nomatch fast.symm.trans light) seedHash,
            (placeVms_keepsConfig _ _).fastMode.trans fast⟩).1
    · exact placeVms_wellFormed keyed (fun _ _ => fresh.nodes) seedHash

/-! ## `update_seed` -/

theorem recreateNodeVm_getD_cache (node cache index other : Nat) :
    ((finish (pool.recreateNodeVm node cache index)).2.numaNodes.getD other .empty).cache =
      (pool.numaNodes.getD other .empty).cache :=
  putNodeVm_getD_cache node cache index other

theorem reseedNode_wellFormed (wf : pool.WellFormed) (light : pool.fastMode = false)
    (seedHash : Bytes) (node : Nat) : (finish (pool.reseedNode seedHash node)).2.WellFormed := by
  unfold reseedNode
  split
  · exact wf
  · rename_i cache cached
    exact (foldlM_holds (fun next : Pool => next.WellFormed ∧ next.fastMode = false ∧
        (next.numaNodes.getD node .empty).cache = some cache)
      (fun _ index ⟨wf, light, cached⟩ => ⟨recreateNodeVm_wellFormed wf light cached index,
        (recreateNodeVm_keepsConfig _ _ _).fastMode.trans light,
        (recreateNodeVm_getD_cache _ _ _ _).trans cached⟩) _ _
      ⟨wf.withRx (RandomX.grows_initCache cache seedHash), light, cached⟩).1

theorem updateSeedShortcut_none {seedHash : Bytes}
    (past : pool.updateSeedShortcut seedHash = none) :
    seedHash.length = 32 ∧ seedHash ≠ pool.currentSeedHash := by
  unfold updateSeedShortcut at past
  split_ifs at past with size same
  exact ⟨not_not.mp size, same⟩

/-- `update_seed` after its checks, with a 32-byte seed, however it ends. -/
theorem reseed_wellFormed (wf : pool.WellFormed) {seedHash : Bytes} (size : seedHash.length = 32) :
    (pool.reseed seedHash).2.WellFormed := by
  unfold reseed
  split
  · rename_i numaLight
    have light : pool.fastMode = false := by simpa using numaLight.2
    refine (foldlM_holds (fun next : Pool => next.WellFormed ∧ next.fastMode = false)
      (fun _ node ⟨wf, light⟩ => ⟨reseedNode_wellFormed wf light seedHash node,
        (reseedNode_keepsConfig _ _).fastMode.trans light⟩) _ _ ⟨?_, ?_⟩).1
    · exact { wf with toHandles := wf.toHandles.clear (fun _ _ => id) le_rfl, seed := size }
    · exact light
  · rename_i other
    have mode : pool.numaAvailable = true → pool.fastMode = true :=
      fun numa => by simpa [numa] using other
    split
    · rename_i cache _
      dsimp only
      have grows := @RandomX.grows_initCache pool.rx cache seedHash
      have keyed : ({ pool with
          rx := pool.rx.initCache cache seedHash, currentSeedHash := seedHash } :
          Pool).WellFormed :=
        { wf.withRx grows with
          toHandles := wf.toHandles.clear (fun _ _ => id) le_rfl
          seed := size }
      split
      · exact (fillDataset_wellFormed keyed _ _).withRx (grows_foldl _
          (fun rx vm => by cases vm <;> simp [RandomX.Grows.refl, RandomX.grows_vmSetDataset]) _ _)
      · exact (foldlM_holds (fun next : Pool =>
            next.WellFormed ∧ (next.numaAvailable = true → next.fastMode = true))
          (fun _ index ⟨wf, mode⟩ =>
            ⟨recreateLegacyVm_wellFormed wf mode index,
              (recreateLegacyVm_keepsConfig _).mode mode⟩)
          _ _ ⟨keyed, mode⟩).1
    · exact wf

/-- `update_seed`, however it ends. -/
theorem updateSeed_wellFormed (wf : pool.WellFormed) (seedHash : Bytes) :
    (pool.updateSeed seedHash).2.WellFormed := by
  unfold updateSeed
  split
  · exact wf
  · rename_i past
    exact reseed_wellFormed wf (updateSeedShortcut_none past).1

/-! ## `set_thread_count` and the constructor -/

theorem sane_foldl {α : Type} (f : RandomX → α → RandomX)
    (step : ∀ rx item, rx.Sane → (f rx item).Sane) :
    ∀ (items : List α) (rx : RandomX), rx.Sane → (items.foldl f rx).Sane
  | [], _, sane => sane
  | item :: items, rx, sane => sane_foldl f step items (f rx item) (step rx item sane)

theorem sane_releaseCacheIfSet {rx : RandomX} (sane : rx.Sane) (cache : Option Nat) :
    (rx.releaseCacheIfSet cache).Sane := by
  cases cache
  exacts [sane, sane.releaseCache _]

theorem releaseAll_sane (sane : pool.rx.Sane) : pool.releaseAll.rx.Sane := by
  have released {rx : RandomX} (sane : rx.Sane) (dataset : Option Nat) :
      (match dataset with
        | some dataset => ((rx.destroyVms pool.legacyVms).releaseCacheIfSet
            pool.legacyCache).releaseDataset dataset
        | none => (rx.destroyVms pool.legacyVms).releaseCacheIfSet pool.legacyCache).Sane := by
    have cleared := sane_releaseCacheIfSet ((grows_destroyVms _ pool.legacyVms).sane sane)
      pool.legacyCache
    cases dataset
    exacts [cleared, cleared.releaseDataset _]
  unfold releaseAll
  by_cases numa : pool.numaAvailable = true
  · rw [if_pos numa]
    exact released (sane_foldl _ (fun _ node sane =>
      sane_releaseCacheIfSet ((grows_destroyVms _ node.vms).sane sane) _) _ _ sane) _
  · rw [if_neg numa]
    exact released sane _

/-- The clean-up block of `set_thread_count` leaves a pool `initialize` can start from. -/
theorem releaseAll_fresh (wf : pool.WellFormed) : pool.releaseAll.Fresh := by
  have sane := releaseAll_sane wf.sane
  unfold releaseAll at sane ⊢
  by_cases numa : pool.numaAvailable = true
  · rw [if_pos numa] at sane ⊢
    refine ⟨fun _ => by simpa using wf.placed numa, fun off => (nomatch numa.symm.trans off), rfl,
      rfl, rfl, fun node => ?_, sane⟩
    show NodeFresh ((pool.numaNodes.map fun node => { node with vms := [], cache := none }).getD
      node .empty)
    simp only [List.getD_eq_getElem?_getD, List.getElem?_map]
    cases pool.numaNodes[node]? <;> exact ⟨rfl, rfl⟩
  · rw [if_neg numa] at sane ⊢
    have empty := wf.noNuma (by simpa using numa)
    exact ⟨fun numaOn => absurd numaOn numa, fun _ => empty, rfl, rfl, rfl,
      fun node => by simp only [empty, List.getD_eq_getElem?_getD, List.getElem?_nil,
        Option.getD_none]; exact ⟨rfl, rfl⟩, sane⟩

theorem initializeSeed_size {seedHash : Bytes}
    (succeeded : (pool.initializeSeed seedHash).1 = true) :
    seedHash.length = 32 := by
  by_contra size
  simp only [initializeSeed, ne_eq, size, not_false_eq_true, if_true] at succeeded
  cases succeeded

/-- `set_thread_count` after its checks is `initialize` with the saved seed, on the released pool
with the new workers placed. -/
theorem rebuild_initialize (wf : pool.WellFormed) {newThreadCount : Nat} {result : Bool × Pool}
    (rebuilt : pool.rebuild newThreadCount = some result) :
    ∃ placed : Pool, placed.Fresh ∧ placed.numThreads = newThreadCount ∧
      result = placed.initializeSeed pool.currentSeedHash := by
  unfold rebuild at rebuilt
  obtain ⟨placed, isPlaced, rfl⟩ := Option.map_eq_some'.mp rebuilt
  have released := releaseAll_fresh wf
  have nonempty : pool.currentSeedHash ≠ [] := fun empty => by simpa [empty] using wf.seed
  refine ⟨placed, ?_, ?_, if_pos nonempty⟩
  · split at isPlaced
    · rename_i numa
      obtain ⟨⟨toNode, toCpu⟩, assigned, rfl⟩ := Option.map_eq_some'.mp isPlaced
      obtain ⟨nodes, count, _⟩ := released.placed numa
      exact ⟨fun _ => ⟨nodes, count, assignThreads_toNode assigned⟩, released.noNuma,
        released.legacyVms, released.legacyCache, released.dataset, released.nodes, released.sane⟩
    · rename_i off
      cases isPlaced
      exact ⟨fun numa => absurd numa off, released.noNuma, released.legacyVms,
        released.legacyCache, released.dataset, released.nodes, released.sane⟩
  · split at isPlaced
    · obtain ⟨_, _, rfl⟩ := Option.map_eq_some'.mp isPlaced
      rfl
    · cases isPlaced
      rfl

/-- `set_thread_count` after its checks, however it ends. -/
theorem rebuild_wellFormed (wf : pool.WellFormed) {newThreadCount : Nat} {result : Bool × Pool}
    (rebuilt : pool.rebuild newThreadCount = some result) : result.2.WellFormed := by
  obtain ⟨placed, fresh, -, rfl⟩ := rebuild_initialize wf rebuilt
  exact initializeSeed_wellFormed fresh wf.seed

/-- `set_thread_count` outside a session, however it ends. -/
theorem setThreadCount_wellFormed (wf : pool.WellFormed) {newThreadCount : Nat}
    {result : Bool × Pool} (changed : pool.setThreadCount newThreadCount = some result) :
    result.2.WellFormed := by
  unfold setThreadCount at changed
  split at changed
  · cases changed
    exact wf
  · exact rebuild_wellFormed wf changed

theorem construct_fresh {topology : Topology} {numThreads : Nat} {fastMode : Bool}
    {hardwareConcurrency : Nat} {rx : RandomX} {pool : Pool} (sane : rx.Sane)
    (constructed : Pool.construct topology numThreads fastMode hardwareConcurrency rx = some pool) :
    pool.Fresh := by
  unfold Pool.construct Pool.detectNumaTopology at constructed
  split at constructed
  · cases constructed
    exact ⟨fun numa => (nomatch numa), fun _ => rfl, rfl, rfl, rfl, fun _ => ⟨rfl, rfl⟩,
      sane⟩
  · rename_i many
    obtain ⟨⟨toNode, toCpu⟩, assigned, rfl⟩ := Option.map_eq_some'.mp constructed
    refine ⟨fun _ => ⟨?_, by simp, assignThreads_toNode assigned⟩, fun off => (nomatch off),
      rfl, rfl, rfl, fun node => ?_, sane⟩
    · show 0 < topology.configuredNodes
      simp only [Bool.or_eq_true, Bool.not_eq_true', decide_eq_true_eq, not_or, not_le] at many
      omega
    · show NodeFresh (List.getD (List.map _ (List.range topology.configuredNodes)) node .empty)
      simp only [List.getD_eq_getElem?_getD, List.getElem?_map]
      cases (List.range topology.configuredNodes)[node]? <;> exact ⟨rfl, rfl⟩

/-! ## Every pool `main` can hold -/

/-- The pools `main` works with: constructed on a library heap with nothing allocated past its
counter, and successfully initialized (`main` exits otherwise), then changed by any sequence of
`update_seed` and `set_thread_count` calls, whatever they returned. -/
inductive Reachable : Pool → Prop
  | initialized {topology : Topology} {numThreads : Nat} {fastMode : Bool}
      {hardwareConcurrency : Nat} {rx : RandomX} {pool : Pool} {seedHash : Bytes} :
      rx.Sane → Pool.construct topology numThreads fastMode hardwareConcurrency rx = some pool →
      (pool.initializeSeed seedHash).1 = true → Reachable (pool.initializeSeed seedHash).2
  | updated {pool : Pool} (seedHash : Bytes) :
      Reachable pool → Reachable (pool.updateSeed seedHash).2
  | rethreaded {pool : Pool} {result : Bool × Pool} (newThreadCount : Nat) :
      Reachable pool → pool.setThreadCount newThreadCount = some result → Reachable result.2

theorem Reachable.wellFormed (reachable : pool.Reachable) : pool.WellFormed := by
  induction reachable with
  | initialized sane constructed succeeded =>
    exact initializeSeed_wellFormed (construct_fresh sane constructed)
      (initializeSeed_size succeeded)
  | updated seedHash _ induction => exact updateSeed_wellFormed induction seedHash
  | rethreaded _ _ changed induction => exact setThreadCount_wellFormed induction changed

end Pool

end JunoMiner
