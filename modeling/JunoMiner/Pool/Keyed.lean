import JunoMiner.Pool.WellFormed

/-!
# Every worker's VM is keyed with the pool's seed

After a successful `initialize(s)`, every worker `i < num_threads_` finds a VM through
`get_vm_for_thread`, no two workers share one, and each VM hashes with `current_seed_hash_`: from a
cache keyed with it (light mode, the shared cache or the worker's node's own), or from the dataset
filled from such a cache (fast mode). A successful `update_seed(s)` or `set_thread_count(n)` from a
pool where this holds makes it hold again, in light mode with and without NUMA and in fast mode.
The proofs follow the successful path of each loop: a step keys the slots it writes and leaves
every other slot's keyed VM alone.
-/

namespace JunoMiner

namespace Pool

/-- The slot holds a live VM that hashes with the pool's seed. -/
def SlotKeyed (pool : Pool) (slot : Slot) : Prop :=
  ∃ vm, pool.slot slot = some vm ∧
    pool.rx.KeyedTo pool.fastMode pool.dataset vm pool.currentSeedHash

/-- Every worker has a VM, no two workers share one, and each hashes with
`current_seed_hash_`. -/
structure Keyed (pool : Pool) : Prop where
  keyed : ∀ thread < pool.numThreads, ∃ vm, pool.getVmForThread thread = some vm ∧
    pool.rx.KeyedTo pool.fastMode pool.dataset vm pool.currentSeedHash
  distinct : ∀ first < pool.numThreads, ∀ second < pool.numThreads, first ≠ second →
    pool.getVmForThread first ≠ pool.getVmForThread second

variable {pool : Pool}

theorem Keyed.slotKeyed (keyed : pool.Keyed) {thread : Nat} (inside : thread < pool.numThreads) :
    pool.SlotKeyed (pool.threadSlot thread) := by
  rw [SlotKeyed, ← getVmForThread_eq_slot]
  exact keyed.keyed thread inside

/-- On a well-formed pool, workers reading keyed slots is all there is to `Keyed`: the slots are
distinct, and so are their handles. -/
theorem WellFormed.keyed (wf : pool.WellFormed)
    (slots : ∀ thread < pool.numThreads, pool.SlotKeyed (pool.threadSlot thread)) :
    pool.Keyed where
  keyed thread inside := by
    rw [getVmForThread_eq_slot]
    exact slots thread inside
  distinct first inside second _ different same := by
    obtain ⟨vm, held, _⟩ := slots first inside
    rw [getVmForThread_eq_slot, getVmForThread_eq_slot, held] at same
    exact different (pool.threadSlot_injective (wf.distinct _ _ vm held same.symm))

/-- A loop over `0 .. count - 1` that ends normally, each step of which keys the slots it writes
and leaves every other keyed slot keyed, keys every slot it wrote and keeps the others. -/
theorem keyed_foldlM {f : Pool → Nat → Except Pool Pool} {count : Nat}
    (holds : Nat → Pool → Prop) (writes : Nat → Slot → Prop)
    (disjoint : ∀ earlier later slot, earlier < later → writes earlier slot →
      ¬writes later slot)
    (step : ∀ index pool next, index < count → holds index pool → f pool index = .ok next →
      holds (index + 1) next ∧ (∀ slot, writes index slot → next.SlotKeyed slot) ∧
        ∀ slot, ¬writes index slot → pool.SlotKeyed slot → next.SlotKeyed slot)
    {start final : Pool} (ran : (List.range count).foldlM f start = .ok final)
    (started : holds 0 start) :
    holds count final ∧
      (∀ index < count, ∀ slot, writes index slot → final.SlotKeyed slot) ∧
      ∀ slot, (∀ index < count, ¬writes index slot) → start.SlotKeyed slot →
        final.SlotKeyed slot :=
  foldlM_range_ok (fun done (next : Pool) => holds done next ∧
      (∀ index < done, ∀ slot, writes index slot → next.SlotKeyed slot) ∧
      ∀ slot, (∀ index < done, ¬writes index slot) → start.SlotKeyed slot →
        next.SlotKeyed slot)
    (fun index pool next inside ⟨holding, written, kept⟩ stepped => by
      obtain ⟨holding, writing, keeping⟩ := step index pool next inside holding stepped
      refine ⟨holding, fun earlier below slot wrote => ?_, fun slot untouched keyedAtStart =>
        keeping slot (untouched index (by omega))
          (kept slot (fun earlier below => untouched earlier (by omega)) keyedAtStart)⟩
      rcases Nat.lt_succ_iff_lt_or_eq.mp below with below | rfl
      · exact keeping slot (disjoint earlier index slot below wrote)
          (written earlier below slot wrote)
      · exact writing slot wrote)
    ⟨started, fun _ below => absurd below (Nat.not_lt_zero _), fun _ _ keyed => keyed⟩ ran

/-! ## One VM, on the successful path -/

theorem putLegacyVm_ok {cache dataset : Option Nat} {index : Nat} {next : Pool}
    (put : pool.putLegacyVm cache dataset index = .ok next) :
    (∃ vm, (pool.rx.createVm cache dataset).1 = some vm) ∧
      next = { pool with
        rx := (pool.rx.createVm cache dataset).2
        legacyVms := pool.legacyVms.set index (pool.rx.createVm cache dataset).1 } := by
  have outcome := @putLegacyVm_outcome pool cache dataset index
  rw [put] at outcome
  refine ⟨?_, outcome⟩
  unfold putLegacyVm at put
  rcases created : pool.rx.createVm cache dataset with ⟨_ | vm, rx⟩
  · rw [created] at put
    cases put
  · exact ⟨vm, rfl⟩

theorem putNodeVm_ok {node cache index : Nat} {next : Pool}
    (put : pool.putNodeVm node cache index = .ok next) :
    (∃ vm, (pool.rx.createVm (some cache) none).1 = some vm) ∧
      next = { pool.setNode node (fun n =>
          { n with vms := n.vms.set index (pool.rx.createVm (some cache) none).1 }) with
        rx := (pool.rx.createVm (some cache) none).2 } := by
  have outcome := @putNodeVm_outcome pool node cache index
  rw [put] at outcome
  refine ⟨?_, outcome⟩
  unfold putNodeVm at put
  rcases created : pool.rx.createVm (some cache) none with ⟨_ | vm, rx⟩
  · rw [created] at put
    cases put
  · exact ⟨vm, rfl⟩

theorem putLegacyVm_keyed (wf : pool.WellFormed) {cache dataset : Option Nat}
    (binds : pool.rx.Binds pool.fastMode pool.dataset ⟨cache, dataset⟩ pool.currentSeedHash)
    {index : Nat} (inside : index < pool.legacyVms.length) {next : Pool}
    (put : pool.putLegacyVm cache dataset index = .ok next) :
    next.SlotKeyed (.legacy index) ∧
      ∀ slot, slot ≠ .legacy index → pool.SlotKeyed slot → next.SlotKeyed slot := by
  obtain ⟨⟨vm, created⟩, rfl⟩ := putLegacyVm_ok put
  refine ⟨⟨vm, ?_, RandomX.createVm_keyedTo binds created⟩,
    fun slot other ⟨held, holds, keyed⟩ => ⟨held, ?_, keyed.createVm wf.sane _ _⟩⟩
  · rw [slot_legacy_set, if_pos ⟨rfl, inside⟩, created]
  · rw [slot_legacy_set, if_neg fun ⟨same, _⟩ => other same, holds]

theorem putNodeVm_keyed (wf : pool.WellFormed) {node cache : Nat}
    (binds : pool.rx.Binds pool.fastMode pool.dataset ⟨some cache, none⟩ pool.currentSeedHash)
    {index : Nat}
    (inside : node < pool.numaNodes.length ∧ index < (pool.numaNodes.getD node .empty).vms.length)
    {next : Pool} (put : pool.putNodeVm node cache index = .ok next) :
    next.SlotKeyed (.node node index) ∧
      ∀ slot, slot ≠ .node node index → pool.SlotKeyed slot → next.SlotKeyed slot := by
  obtain ⟨⟨vm, created⟩, rfl⟩ := putNodeVm_ok put
  refine ⟨⟨vm, ?_, RandomX.createVm_keyedTo binds created⟩,
    fun slot other ⟨held, holds, keyed⟩ => ⟨held, ?_, keyed.createVm wf.sane _ _⟩⟩
  · rw [slot_node_set, if_pos ⟨rfl, inside⟩, created]
  · rw [slot_node_set, if_neg fun ⟨same, _⟩ => other same, holds]

section Destroy

variable {rx : RandomX} {fastMode : Bool} {dataset : Option Nat} {seed : Bytes}

theorem binds_destroyVms {bound : Vm} (binds : rx.Binds fastMode dataset bound seed) :
    ∀ handles : List (Option Nat), (rx.destroyVms handles).Binds fastMode dataset bound seed := by
  intro handles
  induction handles generalizing rx with
  | nil => exact binds
  | cons handle handles induction =>
    cases handle
    exacts [induction binds, induction binds]

theorem keyedTo_destroyVms {vm : Nat} (keyed : rx.KeyedTo fastMode dataset vm seed) :
    ∀ handles : List (Option Nat), (∀ handle, some handle ∈ handles → handle ≠ vm) →
      (rx.destroyVms handles).KeyedTo fastMode dataset vm seed := by
  intro handles
  induction handles generalizing rx with
  | nil => exact fun _ => keyed
  | cons handle handles induction =>
    intro others
    cases handle with
    | none => exact induction keyed fun other mem => others other (.tail _ mem)
    | some handle =>
      exact induction (keyed.destroyVm (others handle (.head _)))
        fun other mem => others other (.tail _ mem)

end Destroy

/-- The handle a re-creation destroys is no other slot's. -/
theorem WellFormed.destroyed_ne (wf : pool.WellFormed) {slot target : Slot} {vm : Nat}
    (held : pool.slot slot = some vm) (other : slot ≠ target) :
    ∀ handle, some handle ∈ [pool.slot target] → handle ≠ vm := by
  intro handle mem same
  subst same
  exact other (wf.distinct slot target handle held (List.mem_singleton.mp mem).symm)

theorem recreateLegacyVm_keyed (wf : pool.WellFormed)
    (binds : pool.rx.Binds pool.fastMode pool.dataset ⟨pool.legacyCache, none⟩
      pool.currentSeedHash)
    {index : Nat} (inside : index < pool.legacyVms.length) {next : Pool}
    (recreated : pool.recreateLegacyVm index = .ok next) :
    next.SlotKeyed (.legacy index) ∧
      ∀ slot, slot ≠ .legacy index → pool.SlotKeyed slot → next.SlotKeyed slot := by
  obtain ⟨keyedHere, keepsOthers⟩ := putLegacyVm_keyed (wf.withRx (grows_destroyVms _ _))
    (binds_destroyVms binds _) inside recreated
  exact ⟨keyedHere, fun slot other ⟨vm, held, keyed⟩ => keepsOthers slot other
    ⟨vm, held, keyedTo_destroyVms keyed _ (wf.destroyed_ne held other)⟩⟩

theorem recreateNodeVm_keyed (wf : pool.WellFormed) {node cache : Nat}
    (binds : pool.rx.Binds pool.fastMode pool.dataset ⟨some cache, none⟩ pool.currentSeedHash)
    {index : Nat}
    (inside : node < pool.numaNodes.length ∧ index < (pool.numaNodes.getD node .empty).vms.length)
    {next : Pool} (recreated : pool.recreateNodeVm node cache index = .ok next) :
    next.SlotKeyed (.node node index) ∧
      ∀ slot, slot ≠ .node node index → pool.SlotKeyed slot → next.SlotKeyed slot := by
  obtain ⟨keyedHere, keepsOthers⟩ := putNodeVm_keyed (wf.withRx (grows_destroyVms _ _))
    (binds_destroyVms binds _) inside recreated
  exact ⟨keyedHere, fun slot other ⟨vm, held, keyed⟩ => keepsOthers slot other
    ⟨vm, held, keyedTo_destroyVms keyed _ (wf.destroyed_ne held other)⟩⟩

/-! ## What the VM loops keep -/

/-- `after` keys a VM as `before` does: same mode, dataset, seed and legacy cache, and every
binding that hashes with a seed in `before` still does. -/
structure Steady (after before : Pool) : Prop where
  fastMode : after.fastMode = before.fastMode
  dataset : after.dataset = before.dataset
  currentSeedHash : after.currentSeedHash = before.currentSeedHash
  legacyCache : after.legacyCache = before.legacyCache
  binds : ∀ fastMode dataset bound seed, before.rx.Binds fastMode dataset bound seed →
    after.rx.Binds fastMode dataset bound seed

theorem Steady.refl (pool : Pool) : pool.Steady pool := ⟨rfl, rfl, rfl, rfl, fun _ _ _ _ => id⟩

theorem Steady.trans {middle after : Pool} (second : after.Steady middle)
    (first : middle.Steady pool) : after.Steady pool :=
  ⟨second.fastMode.trans first.fastMode, second.dataset.trans first.dataset,
    second.currentSeedHash.trans first.currentSeedHash, second.legacyCache.trans first.legacyCache,
    fun _ _ _ _ binds => second.binds _ _ _ _ (first.binds _ _ _ _ binds)⟩

/-- A step's binding, read through `Steady`. -/
theorem Steady.bindsOwn {start : Pool} (steady : pool.Steady start) {bound : Vm}
    (binds : start.rx.Binds start.fastMode start.dataset bound start.currentSeedHash) :
    pool.rx.Binds pool.fastMode pool.dataset bound pool.currentSeedHash := by
  rw [steady.fastMode, steady.dataset, steady.currentSeedHash]
  exact steady.binds _ _ _ _ binds

theorem putLegacyVm_steady (cache dataset : Option Nat) (index : Nat) :
    (finish (pool.putLegacyVm cache dataset index)).2.Steady pool := by
  rw [putLegacyVm_outcome]
  exact ⟨rfl, rfl, rfl, rfl, fun _ _ _ _ binds => binds.createVm _ _⟩

theorem recreateLegacyVm_steady (index : Nat) :
    (finish (pool.recreateLegacyVm index)).2.Steady pool :=
  (putLegacyVm_steady _ _ _).trans
    ⟨rfl, rfl, rfl, rfl, fun _ _ _ _ binds => binds_destroyVms binds _⟩

theorem finish_ok {result : Except Pool Pool} {next : Pool} (ok : result = .ok next) :
    (finish result).2 = next := by
  rw [ok]
  rfl

theorem putLegacyVm_length (cache dataset : Option Nat) (index : Nat) :
    (finish (pool.putLegacyVm cache dataset index)).2.legacyVms.length = pool.legacyVms.length := by
  rw [putLegacyVm_outcome]
  exact List.length_set _ _ _

/-- The last block of `initialize`, when every VM is created: each worker's legacy slot holds a VM
on the dataset (fast mode) or on the legacy cache. -/
theorem createLegacyVms_keyed (wf : pool.WellFormed)
    (mode : pool.numaAvailable = true → pool.fastMode = true)
    (binds : pool.rx.Binds pool.fastMode pool.dataset
      ⟨if pool.fastMode then none else pool.legacyCache,
        if pool.fastMode then pool.dataset else none⟩ pool.currentSeedHash)
    {final : Pool} (created : pool.createLegacyVms = .ok final) :
    ∀ index < pool.numThreads, final.SlotKeyed (.legacy index) := by
  unfold createLegacyVms at created
  have ran := keyed_foldlM (fun _ (next : Pool) => next.WellFormed ∧
      (next.numaAvailable = true → next.fastMode = true) ∧ next.Steady pool ∧
      next.legacyVms.length = pool.numThreads)
    (fun index slot => slot = .legacy index) (fun _ _ _ below earlier later =>
      Nat.ne_of_lt below (Slot.legacy.inj (earlier.symm.trans later)))
    (fun index next after _ ⟨wf, mode, steady, length⟩ put => by
      obtain ⟨keyedHere, keepsOthers⟩ := putLegacyVm_keyed wf (steady.bindsOwn binds)
        (length ▸ ‹index < pool.numThreads›) put
      refine ⟨⟨finish_ok put ▸ putLegacyVm_wellFormed wf mode _ _ index,
          finish_ok put ▸ (putLegacyVm_keepsConfig _ _ _).mode mode,
          finish_ok put ▸ (putLegacyVm_steady _ _ _).trans steady,
          finish_ok put ▸ (putLegacyVm_length _ _ _).trans length⟩,
        fun slot wrote => wrote ▸ keyedHere, fun slot other => keepsOthers slot other⟩)
    created ⟨resizeLegacy_wellFormed wf mode, mode, ⟨rfl, rfl, rfl, rfl, fun _ _ _ _ => id⟩,
      resizeVms_length _ _⟩
  exact fun index inside => ran.2.1 index inside _ rfl

/-! ## The NUMA block of `initialize` -/

theorem putNodeVm_vms_length (node cache index other : Nat) :
    ((finish (pool.putNodeVm node cache index)).2.numaNodes.getD other .empty).vms.length =
      (pool.numaNodes.getD other .empty).vms.length := by
  rw [putNodeVm_outcome]
  show ((pool.setNode node _).numaNodes.getD other .empty).vms.length = _
  rw [getD_setNode]
  split
  · rename_i same
    obtain ⟨rfl, _⟩ := same
    exact List.length_set _ _ _
  · rfl

/-- A slot outside the node a step changes keeps its handle. -/
theorem slot_setNode_other (rx : RandomX) {node : Nat} (change : NumaNode → NumaNode)
    {slot : Slot} (outside : ∀ index, slot ≠ .node node index) :
    ({ pool.setNode node change with rx } : Pool).slot slot = pool.slot slot := by
  cases slot with
  | legacy => rfl
  | node other index =>
    rw [slot_setNode, if_neg fun ⟨same, _⟩ => outside index (same ▸ rfl)]

theorem initCache_allocated {rx after : RandomX} {cache : Nat}
    (allocated : rx.allocCache = (some cache, after)) (seed : Bytes) :
    (after.initCache cache seed).caches cache = some ⟨some seed⟩ := by
  rw [RandomX.allocCache_eq] at allocated
  split_ifs at allocated
  · cases allocated
  · simp only [Prod.mk.injEq, Option.some.injEq] at allocated
    obtain ⟨rfl, rfl⟩ := allocated
    simp [RandomX.initCache]

/-- In light mode a VM on a cache keyed with the seed hashes with it, whatever the dataset. -/
theorem binds_light {rx : RandomX} {fastMode : Bool} (light : fastMode = false)
    {dataset : Option Nat} {cache : Nat} {seed : Bytes}
    (key : rx.caches cache = some ⟨some seed⟩) :
    rx.Binds fastMode dataset ⟨some cache, none⟩ seed := by
  subst light
  exact ⟨cache, rfl, key⟩

theorem destroyVms_caches (rx : RandomX) :
    ∀ handles : List (Option Nat), (rx.destroyVms handles).caches = rx.caches := by
  intro handles
  induction handles generalizing rx with
  | nil => rfl
  | cons handle handles induction =>
    cases handle
    exacts [induction rx, induction (rx.destroyVm _)]

/-- What the VM loop over one node keeps, in light mode: the shape, the seed, the node's cache
keyed with it, and the node's slot count. -/
structure NodeLoop (pool : Pool) (node cache count : Nat) (seedHash : Bytes) : Prop where
  wf : pool.WellFormed
  light : pool.fastMode = false
  seeded : pool.currentSeedHash = seedHash
  key : pool.rx.caches cache = some ⟨some seedHash⟩
  cached : (pool.numaNodes.getD node .empty).cache = some cache
  inside : node < pool.numaNodes.length
  length : (pool.numaNodes.getD node .empty).vms.length = count

section NodeLoop

variable {node cache count : Nat} {seedHash : Bytes}

theorem NodeLoop.binds (loop : pool.NodeLoop node cache count seedHash) :
    pool.rx.Binds pool.fastMode pool.dataset ⟨some cache, none⟩ pool.currentSeedHash := by
  rw [loop.seeded]
  exact binds_light loop.light loop.key

theorem NodeLoop.putNodeVm (loop : pool.NodeLoop node cache count seedHash) (index : Nat) :
    (finish (pool.putNodeVm node cache index)).2.NodeLoop node cache count seedHash := by
  have kept := @putNodeVm_keepsConfig pool node cache index
  refine ⟨putNodeVm_wellFormed loop.wf loop.light loop.cached index,
    kept.fastMode.trans loop.light, kept.currentSeedHash.trans loop.seeded, ?_,
    (putNodeVm_getD_cache _ _ _ _).trans loop.cached,
    kept.nodeCount ▸ loop.inside, (putNodeVm_vms_length _ _ _ _).trans loop.length⟩
  rw [putNodeVm_outcome]
  show (pool.rx.createVm _ _).2.caches cache = _
  rw [RandomX.createVm_eq]
  exact loop.key

theorem NodeLoop.recreateNodeVm (loop : pool.NodeLoop node cache count seedHash) (index : Nat) :
    (finish (pool.recreateNodeVm node cache index)).2.NodeLoop node cache count seedHash :=
  NodeLoop.putNodeVm ⟨loop.wf.withRx (grows_destroyVms _ _), loop.light, loop.seeded,
    (congrFun (destroyVms_caches _ _) cache).trans loop.key, loop.cached, loop.inside,
    loop.length⟩ index

/-- The VM loop over one node, when every VM is created: each of the node's `count` slots holds a
VM on the node's cache, and every other keyed slot keeps its VM. -/
theorem nodeLoop_keyed {step : Pool → Nat → Except Pool Pool}
    (keeps : ∀ pool index, pool.NodeLoop node cache count seedHash →
      (finish (step pool index)).2.NodeLoop node cache count seedHash)
    (keys : ∀ pool index next, pool.NodeLoop node cache count seedHash → index < count →
      step pool index = .ok next → next.SlotKeyed (.node node index) ∧
        ∀ slot, slot ≠ .node node index → pool.SlotKeyed slot → next.SlotKeyed slot)
    {start final : Pool} (ran : (List.range count).foldlM step start = .ok final)
    (started : start.NodeLoop node cache count seedHash) :
    final.NodeLoop node cache count seedHash ∧
      (∀ index < count, final.SlotKeyed (.node node index)) ∧
      ∀ slot, (∀ index, slot ≠ .node node index) → start.SlotKeyed slot →
        final.SlotKeyed slot :=
  let ⟨loop, written, kept⟩ := keyed_foldlM
    (fun _ next => next.NodeLoop node cache count seedHash)
    (fun index slot => slot = .node node index)
    (fun _ _ _ below earlier later =>
      Nat.ne_of_lt below (Slot.node.inj (earlier.symm.trans later)).2)
    (fun index before next below loop stepped =>
      let ⟨keyedHere, keepsOthers⟩ := keys before index next loop below stepped
      ⟨finish_ok stepped ▸ keeps before index loop, fun _ wrote => wrote ▸ keyedHere,
        fun slot other => keepsOthers slot other⟩)
    ran started
  ⟨loop, fun index below => written index below _ rfl,
    fun slot outside => kept slot fun index _ => outside index⟩

end NodeLoop

/-- One node of the NUMA block of `initialize`, when all its allocations succeed: its `count`
slots hold VMs on its cache keyed with the seed, and every VM keyed before still is. -/
theorem setupNode_keyed (wf : pool.WellFormed) (light : pool.fastMode = false) {node : Nat}
    (inside : node < pool.numaNodes.length) (fresh : NodeFresh (pool.numaNodes.getD node .empty))
    {seedHash : Bytes} (seeded : pool.currentSeedHash = seedHash) {count : Nat} {next : Pool}
    (setup : pool.setupNode seedHash count node = .ok next) :
    (∀ index < count, next.SlotKeyed (.node node index)) ∧
      (∀ slot, pool.SlotKeyed slot → next.SlotKeyed slot) ∧
      (next.numaNodes.getD node .empty).vms.length = count := by
  unfold setupNode at setup
  split at setup
  · rename_i zero
    cases setup
    subst zero
    exact ⟨fun _ below => absurd below (Nat.not_lt_zero _), fun _ => id, by rw [fresh.1]; rfl⟩
  rcases allocated : pool.rx.allocCache with ⟨_ | cache, rx⟩
  · rw [allocated] at setup
    cases setup
  rw [allocated] at setup
  dsimp only at setup
  obtain ⟨resized, cached, length⟩ :=
    cachedNode_wellFormed wf light inside allocated seedHash count
  obtain ⟨loop, written, kept⟩ := nodeLoop_keyed (fun _ index loop => loop.putNodeVm index)
    (fun _ _ _ loop below put =>
      putNodeVm_keyed loop.wf loop.binds ⟨loop.inside, loop.length ▸ below⟩ put)
    setup ⟨resized, light, seeded, initCache_allocated allocated seedHash, cached,
      by simpa using inside, length⟩
  refine ⟨written, fun slot ⟨vm, held, keyed⟩ => ?_, loop.length⟩
  have outside : ∀ index, slot ≠ .node node index := fun index same => by
    subst same
    simp only [Pool.slot, fresh.1] at held
    cases held
  have keyed := keyed.allocCache wf.sane
  rw [allocated] at keyed
  refine kept slot outside ⟨vm, ?_, seeded ▸ keyed.initCache cache⟩
  rw [slot_setNode_other _ _ outside, slot_setNode_other _ _ outside, held]

/-- The NUMA block of `initialize`, when all its allocations succeed: node `n` holds one VM per
worker placed on it, each on the node's cache keyed with the seed. -/
theorem setupNumaNodes_keyed (wf : pool.WellFormed) (numa : pool.numaAvailable = true)
    (light : pool.fastMode = false) (fresh : ∀ node, NodeFresh (pool.numaNodes.getD node .empty))
    {seedHash : Bytes} (seeded : pool.currentSeedHash = seedHash) {final : Pool}
    (setup : pool.setupNumaNodes seedHash = .ok final) :
    (∀ node < pool.numNumaNodes, ∀ index < pool.threadsPerNode.getD node 0,
      final.SlotKeyed (.node node index)) ∧
    ∀ node < pool.numNumaNodes,
      (final.numaNodes.getD node .empty).vms.length = pool.threadsPerNode.getD node 0 := by
  unfold setupNumaNodes at setup
  obtain ⟨_, count, _⟩ := wf.placed numa
  have ran := keyed_foldlM (fun done (next : Pool) => next.WellFormed ∧ next.KeepsConfig pool ∧
      (∀ node, done ≤ node → NodeFresh (next.numaNodes.getD node .empty)) ∧
      ∀ node < done,
        (next.numaNodes.getD node .empty).vms.length = pool.threadsPerNode.getD node 0)
    (fun node slot => ∃ index < pool.threadsPerNode.getD node 0, slot = .node node index)
    (fun _ _ _ below ⟨_, _, earlier⟩ ⟨_, _, later⟩ =>
      Nat.ne_of_lt below (Slot.node.inj (earlier.symm.trans later)).1)
    (fun node before next inside ⟨wf, kept, fresh, lengths⟩ stepped => by
      have within : node < before.numaNodes.length := by rw [kept.nodeCount, count]; exact inside
      obtain ⟨keyedHere, keepsOthers, length⟩ := setupNode_keyed wf (kept.fastMode.trans light)
        within (fresh node le_rfl) (kept.currentSeedHash.trans seeded) stepped
      obtain rfl := finish_ok stepped
      refine ⟨⟨setupNode_wellFormed wf (kept.fastMode.trans light) within
            (fresh node le_rfl) _ _,
          (setupNode_keepsConfig _ _ _).trans kept, fun other later => ?_, fun other below => ?_⟩,
        fun slot ⟨index, below, wrote⟩ => wrote ▸ keyedHere index below,
        fun slot _ keyed => keepsOthers slot keyed⟩
      · rw [setupNode_getD_other (by omega)]
        exact fresh other (by omega)
      · rcases Nat.lt_succ_iff_lt_or_eq.mp below with below | rfl
        · rw [setupNode_getD_other (by omega)]
          exact lengths other below
        · exact length)
    setup ⟨wf, .refl _, fun node _ => fresh node,
      fun _ below => absurd below (Nat.not_lt_zero _)⟩
  exact ⟨fun node inside index below => ran.2.1 node inside _ ⟨index, below, rfl⟩,
    ran.1.2.2.2⟩

/-! ## The dataset -/

/-- Filling ranges of a dataset from a cache keyed with `seed`: every item of a range takes the
seed, and the items already on it keep it. -/
theorem initDataset_foldl {dataset cache : Nat} {seed : Bytes} :
    ∀ (ranges : List (Nat × Nat)) (rx : RandomX) (contents : Dataset) (covered : Nat → Prop),
      rx.caches cache = some ⟨some seed⟩ → rx.datasets dataset = some contents →
      (∀ item, covered item → contents.items item = some seed) →
      let filled := ranges.foldl
        (fun rx range => rx.initDataset dataset cache range.1 range.2) rx
      filled.caches = rx.caches ∧ filled.vms = rx.vms ∧ filled.itemCount = rx.itemCount ∧
        ∃ contents, filled.datasets dataset = some contents ∧ ∀ item,
          (covered item ∨ ∃ range ∈ ranges, range.1 ≤ item ∧ item < range.1 + range.2) →
          contents.items item = some seed
  | [], _, contents, _, _, live, old =>
    ⟨rfl, rfl, rfl, contents, live, fun item written =>
      written.elim (old item) fun ⟨_, mem, _⟩ => nomatch mem⟩
  | range :: ranges, rx, contents, covered, key, live, old => by
    obtain ⟨caches, vms, items, filled, found, written⟩ :=
      @initDataset_foldl dataset cache seed ranges
      (rx.initDataset dataset cache range.1 range.2)
      ⟨fun item => if range.1 ≤ item ∧ item < range.1 + range.2 then some seed
        else contents.items item⟩
      (fun item => covered item ∨ (range.1 ≤ item ∧ item < range.1 + range.2)) key
      (by simp [RandomX.initDataset, live, key])
      (fun item written => by
        dsimp only
        split
        · rfl
        · rename_i outside
          exact old item (written.resolve_right outside))
    refine ⟨caches, vms, items, filled, found, fun item written' => written item ?_⟩
    rcases written' with early | ⟨other, mem, within⟩
    · exact .inl (.inl early)
    · rcases List.mem_cons.mp mem with rfl | mem
      · exact .inl (.inr within)
      · exact .inr ⟨other, mem, within⟩

/-- The dataset block: every item of the dataset computed from a cache keyed with `seed`. -/
theorem fillDataset_filled {dataset cache : Nat} {seed : Bytes}
    (key : pool.rx.caches cache = some ⟨some seed⟩) {contents : Dataset}
    (live : pool.rx.datasets dataset = some contents) :
    let filled := pool.fillDataset dataset cache
    filled.rx.caches = pool.rx.caches ∧ filled.rx.vms = pool.rx.vms ∧
      filled.rx.itemCount = pool.rx.itemCount ∧
      ∃ contents, filled.rx.datasets dataset = some contents ∧
        ∀ item < filled.rx.itemCount, contents.items item = some seed := by
  obtain ⟨caches, vms, items, filled, found, written⟩ := initDataset_foldl
    (initRanges pool.rx.itemCount pool.numThreads pool.hardwareConcurrency) pool.rx contents
    (fun _ => False) key live (fun _ => False.elim)
  exact ⟨caches, vms, items, filled, found, fun item inside =>
    written item (.inr (initRanges_cover (items ▸ inside)))⟩

/-- Rebinding every legacy VM to the dataset, as the fast path of `update_seed` does. -/
theorem vmSetDataset_foldl (dataset : Nat) :
    ∀ (handles : List (Option Nat)) (rx : RandomX),
      let bound := handles.foldl (fun rx vm => match vm with
        | some vm => rx.vmSetDataset vm dataset
        | none => rx) rx
      bound.caches = rx.caches ∧ bound.datasets = rx.datasets ∧
        bound.itemCount = rx.itemCount ∧
        ∀ vm, bound.vms vm = if some vm ∈ handles then
          (rx.vms vm).map fun old => { old with dataset := some dataset } else rx.vms vm
  | [], _ => ⟨rfl, rfl, rfl, fun _ => by simp⟩
  | handle :: handles, rx => by
    obtain ⟨caches, datasets, items, vms⟩ := vmSetDataset_foldl dataset handles
      (match handle with
        | some vm => rx.vmSetDataset vm dataset
        | none => rx)
    refine ⟨by cases handle <;> exact caches, by cases handle <;> exact datasets,
      by cases handle <;> exact items, fun vm => ?_⟩
    rw [List.foldl_cons, vms vm]
    cases handle with
    | none => simp
    | some other =>
      by_cases same : other = vm
      · subst same
        simp [RandomX.vmSetDataset, Option.map_map, Function.comp_def]
      · simp [RandomX.vmSetDataset, Function.update_noteq (Ne.symm same), Ne.symm same]

/-! ## `initialize` -/

theorem finish_holds_of_ok {holds : Pool → Prop} {result : Except Pool Pool}
    (succeeded : (finish result).1 = true) (ok : ∀ final, result = .ok final → holds final) :
    holds (finish result).2 := by
  cases result with
  | error => cases succeeded
  | ok final => exact ok final rfl

theorem except_bind_ok {first : Except Pool Pool} {next : Pool → Except Pool Pool} {final : Pool}
    (ok : (first >>= next) = .ok final) :
    ∃ middle, first = .ok middle ∧ next middle = .ok final := by
  cases first with
  | error => cases ok
  | ok middle => exact ⟨middle, rfl, ok⟩

theorem allocDataset_some {rx after : RandomX} {dataset : Nat}
    (allocated : rx.allocDataset = (some dataset, after)) :
    after.caches = rx.caches ∧ after.datasets dataset = some ⟨fun _ => none⟩ := by
  rw [RandomX.allocDataset_eq] at allocated
  split_ifs at allocated
  · cases allocated
  · simp only [Prod.mk.injEq, Option.some.injEq] at allocated
    obtain ⟨rfl, rfl⟩ := allocated
    simp

/-- The fast-mode block of `initialize`, when the dataset is allocated: the dataset computed from
the keyed cache. -/
theorem setupDataset_ok {cache : Nat} {seed : Bytes}
    (key : pool.rx.caches cache = some ⟨some seed⟩) {next : Pool}
    (setup : pool.setupDataset cache = .ok next) :
    ∃ dataset, next.dataset = some dataset ∧
      next.rx.Binds true next.dataset ⟨none, some dataset⟩ seed := by
  unfold setupDataset at setup
  rcases allocated : pool.rx.allocDataset with ⟨_ | dataset, rx⟩
  · rw [allocated] at setup
    cases setup
  · rw [allocated] at setup
    cases setup
    obtain ⟨caches, live⟩ := allocDataset_some allocated
    obtain ⟨-, -, -, contents, found, items⟩ :=
      @fillDataset_filled { pool with dataset := some dataset, rx } dataset cache seed
        (caches ▸ key) _ live
    exact ⟨dataset, rfl, dataset, contents, rfl, rfl, found, items⟩

/-- Where every worker looks when the nodes hold no VMs: its legacy slot. -/
theorem WellFormed.threadSlot_eq_legacy (wf : pool.WellFormed)
    (mode : pool.numaAvailable = true → pool.fastMode = true) (thread : Nat) :
    pool.threadSlot thread = .legacy thread :=
  pool.threadSlot_legacy (fun numa node mem => by
    obtain ⟨index, found⟩ := List.mem_iff_getElem?.mp mem
    simpa [List.getD_eq_getElem?_getD, found] using (wf.fastNodes (mode numa) index).1) thread

/-- Under the round-robin placement, the workers the placement loop counts on a node. -/
theorem threadsPerNode_placed
    (placed : pool.threadToNode = (List.range pool.numThreads).map (· % pool.numNumaNodes))
    {node : Nat} (inside : node < pool.numNumaNodes) :
    pool.threadsPerNode.getD node 0 =
      (List.range pool.numThreads).countP (· % pool.numNumaNodes = node) := by
  rw [pool.threadsPerNode_getD inside]
  exact List.countP_congr fun thread mem => by
    simp [placed, List.getElem?_range (List.mem_range.mp mem)]

/-- A successful `initialize(s)` on a constructed or released pool: every worker has its own VM,
keyed with `s`. -/
theorem initializeSeed_keyed (fresh : pool.Fresh) {seedHash : Bytes}
    (succeeded : (pool.initializeSeed seedHash).1 = true) :
    (pool.initializeSeed seedHash).2.Keyed := by
  have size := initializeSeed_size succeeded
  have kept := @initializeSeed_keepsConfig pool seedHash
  rw [if_pos size] at kept
  refine (@finish_holds_of_ok (fun final : Pool => final.WellFormed →
      final.KeepsConfig { pool with currentSeedHash := seedHash } → final.Keyed) _ succeeded
    (fun final ok wf kept => wf.keyed fun thread inside => ?_))
    (initializeSeed_wellFormed fresh size) kept
  have threads : thread < pool.numThreads := kept.numThreads ▸ inside
  simp only [ne_eq, size, not_true_eq_false, if_false, pure_bind] at ok
  rcases allocated : pool.rx.allocCache with ⟨_ | cache, rx⟩
  · rw [allocated] at ok
    cases ok
  rw [allocated] at ok
  dsimp only at ok
  have cached := cachedPool_wellFormed fresh size allocated
  have key := initCache_allocated allocated seedHash
  split at ok
  · rename_i fast
    obtain ⟨filled, setup, placed⟩ := except_bind_ok ok
    obtain ⟨dataset, named, binds⟩ := setupDataset_ok key setup
    have filledWf := finish_ok setup ▸ setupDataset_wellFormed cached fast cache
    have filledKept := finish_ok setup ▸ @setupDataset_keepsConfig _ cache
    rw [if_neg fun ⟨_, light⟩ => light (filledKept.fastMode.trans fast)] at placed
    have keyed := createLegacyVms_keyed filledWf (fun _ => filledKept.fastMode.trans fast)
      (by
        rw [filledKept.fastMode, fast, if_pos rfl, if_pos rfl, named, filledKept.currentSeedHash]
        rw [named] at binds
        exact binds) placed
    rw [wf.threadSlot_eq_legacy fun _ => kept.fastMode.trans fast]
    exact keyed thread (filledKept.numThreads ▸ threads)
  · rename_i light
    have light : pool.fastMode = false := by simpa using light
    split at ok
    · rename_i numaLight
      have numa : pool.numaAvailable = true := numaLight.1
      obtain ⟨keyed, lengths⟩ := setupNumaNodes_keyed cached numa light fresh.nodes rfl ok
      obtain ⟨nodes, count, placed⟩ := fresh.placed numa
      have slot := final.threadSlot_node (kept.numaAvailable.trans numa)
        (kept.numNumaNodes ▸ nodes)
        (by rw [kept.nodeCount, kept.numNumaNodes]; exact count)
        (by rw [kept.threadToNode, kept.numThreads, kept.numNumaNodes]; exact placed)
        (fun node below => by
          rw [kept.numThreads, kept.numNumaNodes] at *
          rw [lengths node below]
          exact threadsPerNode_placed placed below) inside
      rw [slot, kept.numNumaNodes]
      have within := Nat.mod_lt thread nodes
      exact keyed _ within _
        (lt_of_lt_of_eq (rank_lt threads) (threadsPerNode_placed placed within).symm)
    · rename_i mode
      have keyed := createLegacyVms_keyed cached
        (fun numa => absurd ⟨numa, by simp [light]⟩ mode)
        (by rw [light, if_neg Bool.false_ne_true, if_neg Bool.false_ne_true]
            exact binds_light rfl key) ok
      rw [wf.threadSlot_eq_legacy fun numa =>
        absurd ⟨kept.numaAvailable ▸ numa, by simp [light]⟩ mode]
      exact keyed thread threads

/-! ## `update_seed` -/

theorem initCache_live {rx : RandomX} {cache : Nat} (live : rx.caches cache ≠ none)
    (seed : Bytes) : (rx.initCache cache seed).caches cache = some ⟨some seed⟩ := by
  obtain ⟨_, found⟩ := Option.ne_none_iff_exists'.mp live
  simp [RandomX.initCache, found]

theorem mem_of_getD_eq_some {handles : List (Option Nat)} {index vm : Nat}
    (found : handles.getD index none = some vm) : some vm ∈ handles := by
  rw [List.getD_eq_getElem?_getD] at found
  cases entry : handles[index]? with
  | none => simp [entry] at found
  | some handle =>
    simp only [entry, Option.getD_some] at found
    exact found ▸ List.getElem?_mem entry

/-- One node of the NUMA path of `update_seed`, when every VM is re-created: a node with a cache
has all its slots keyed with the new seed, and every slot it does not write keeps its VM. -/
theorem reseedNode_keyed (wf : pool.WellFormed) (light : pool.fastMode = false)
    {seedHash : Bytes} (seeded : pool.currentSeedHash = seedHash) {node : Nat} {next : Pool}
    (reseeded : pool.reseedNode seedHash node = .ok next) :
    ((pool.numaNodes.getD node .empty).cache ≠ none →
      ∀ index < (pool.numaNodes.getD node .empty).vms.length,
        next.SlotKeyed (.node node index)) ∧
    ∀ slot, ¬((pool.numaNodes.getD node .empty).cache ≠ none ∧
        ∃ index < (pool.numaNodes.getD node .empty).vms.length, slot = .node node index) →
      pool.SlotKeyed slot → next.SlotKeyed slot := by
  unfold reseedNode at reseeded
  split at reseeded
  · rename_i unset
    cases reseeded
    exact ⟨fun set => absurd unset set, fun _ _ => id⟩
  · rename_i cache cached
    have inside : node < pool.numaNodes.length := by
      by_contra outside
      rw [List.getD_eq_default _ _ (Nat.le_of_not_lt outside)] at cached
      cases cached
    obtain ⟨_, written, kept⟩ := nodeLoop_keyed (fun _ index loop => loop.recreateNodeVm index)
      (fun _ _ _ loop below recreated => recreateNodeVm_keyed loop.wf loop.binds
        ⟨loop.inside, loop.length ▸ below⟩ recreated)
      reseeded ⟨wf.withRx (RandomX.grows_initCache cache seedHash), light, seeded,
        initCache_live (wf.nodeCaches node cache cached) seedHash, cached, inside, rfl⟩
    refine ⟨fun _ => written, fun slot untouched ⟨vm, held, keyed⟩ =>
      kept slot (fun index same => ?_) ⟨vm, held, seeded ▸ keyed.initCache cache⟩⟩
    subst same
    have outside : ¬index < (pool.numaNodes.getD node .empty).vms.length :=
      fun below => untouched ⟨fun unset => (nomatch cached.symm.trans unset), index, below, rfl⟩
    rw [slot_node_outside fun ⟨_, below⟩ => outside below] at held
    cases held

theorem recreateNodeVm_vms_length (node cache index other : Nat) :
    ((finish (pool.recreateNodeVm node cache index)).2.numaNodes.getD other .empty).vms.length =
      (pool.numaNodes.getD other .empty).vms.length :=
  putNodeVm_vms_length node cache index other

/-- `update_seed` on a node changes no node's cache and no node's slot count. -/
theorem reseedNode_frame (seedHash : Bytes) (node other : Nat) :
    ((finish (pool.reseedNode seedHash node)).2.numaNodes.getD other .empty).cache =
        (pool.numaNodes.getD other .empty).cache ∧
      ((finish (pool.reseedNode seedHash node)).2.numaNodes.getD other .empty).vms.length =
        (pool.numaNodes.getD other .empty).vms.length := by
  unfold reseedNode
  split
  · exact ⟨rfl, rfl⟩
  · exact foldlM_holds (fun next : Pool =>
        (next.numaNodes.getD other .empty).cache = (pool.numaNodes.getD other .empty).cache ∧
        (next.numaNodes.getD other .empty).vms.length =
          (pool.numaNodes.getD other .empty).vms.length)
      (fun _ _ ⟨cached, length⟩ => ⟨(recreateNodeVm_getD_cache _ _ _ _).trans cached,
        (recreateNodeVm_vms_length _ _ _ _).trans length⟩) _ _ ⟨rfl, rfl⟩

theorem node_lt_of_cache {node : Nat} (set : (pool.numaNodes.getD node .empty).cache ≠ none) :
    node < pool.numaNodes.length := by
  by_contra outside
  rw [List.getD_eq_default _ _ (Nat.le_of_not_lt outside)] at set
  exact set rfl

/-- The NUMA path of `update_seed`, when every VM is re-created: every slot of a node with a
cache holds a VM keyed with the new seed, and the nodes keep their slot counts. -/
theorem reseedNodes_keyed (wf : pool.WellFormed) (light : pool.fastMode = false)
    {seedHash : Bytes} (seeded : pool.currentSeedHash = seedHash) {final : Pool}
    (reseeded : (List.range pool.numaNodes.length).foldlM
      (fun pool node => pool.reseedNode seedHash node) pool = .ok final) :
    final.KeepsConfig pool ∧
      (∀ node, (final.numaNodes.getD node .empty).vms.length =
        (pool.numaNodes.getD node .empty).vms.length) ∧
      ∀ node, (pool.numaNodes.getD node .empty).cache ≠ none →
        ∀ index < (pool.numaNodes.getD node .empty).vms.length,
          final.SlotKeyed (.node node index) := by
  obtain ⟨⟨_, kept, same⟩, written, _⟩ := keyed_foldlM
    (fun _ (next : Pool) => next.WellFormed ∧ next.KeepsConfig pool ∧ ∀ node,
      (next.numaNodes.getD node .empty).cache = (pool.numaNodes.getD node .empty).cache ∧
      (next.numaNodes.getD node .empty).vms.length =
        (pool.numaNodes.getD node .empty).vms.length)
    (fun node slot => (pool.numaNodes.getD node .empty).cache ≠ none ∧
      ∃ index < (pool.numaNodes.getD node .empty).vms.length, slot = .node node index)
    (fun _ _ _ below ⟨_, _, _, earlier⟩ ⟨_, _, _, later⟩ =>
      Nat.ne_of_lt below (Slot.node.inj (earlier.symm.trans later)).1)
    (fun node before next _ ⟨wf, kept, same⟩ stepped => by
      obtain ⟨keyedHere, keepsOthers⟩ := reseedNode_keyed wf (kept.fastMode.trans light)
        (kept.currentSeedHash.trans seeded) stepped
      rw [(same node).1, (same node).2] at keyedHere keepsOthers
      obtain rfl := finish_ok stepped
      exact ⟨⟨reseedNode_wellFormed wf (kept.fastMode.trans light) _ _,
          (reseedNode_keepsConfig _ _).trans kept, fun other =>
            ⟨(reseedNode_frame _ _ other).1.trans (same other).1,
              (reseedNode_frame _ _ other).2.trans (same other).2⟩⟩,
        fun slot ⟨set, index, below, wrote⟩ => wrote ▸ keyedHere set index below,
        keepsOthers⟩)
    reseeded ⟨wf, .refl _, fun _ => ⟨rfl, rfl⟩⟩
  exact ⟨kept, fun node => (same node).2, fun node set index below =>
    written node (node_lt_of_cache set) _ ⟨set, index, below, rfl⟩⟩

/-- The legacy path of `update_seed`, when every VM is re-created: every legacy slot holds a VM on
the legacy cache. -/
theorem recreateLegacies_keyed (wf : pool.WellFormed)
    (mode : pool.numaAvailable = true → pool.fastMode = true)
    (binds : pool.rx.Binds pool.fastMode pool.dataset ⟨pool.legacyCache, none⟩
      pool.currentSeedHash)
    {final : Pool} (recreated : (List.range pool.legacyVms.length).foldlM
      (fun pool index => pool.recreateLegacyVm index) pool = .ok final) :
    final.KeepsConfig pool ∧
      ∀ index < pool.legacyVms.length, final.SlotKeyed (.legacy index) := by
  obtain ⟨⟨_, _, kept, _⟩, written, _⟩ := keyed_foldlM
    (fun _ (next : Pool) => next.WellFormed ∧
      (next.numaAvailable = true → next.fastMode = true) ∧ next.KeepsConfig pool ∧
      next.Steady pool ∧ next.legacyVms.length = pool.legacyVms.length)
    (fun index slot => slot = .legacy index)
    (fun _ _ _ below earlier later =>
      Nat.ne_of_lt below (Slot.legacy.inj (earlier.symm.trans later)))
    (fun index before next below ⟨wf, mode, kept, steady, length⟩ stepped => by
      obtain ⟨keyedHere, keepsOthers⟩ := recreateLegacyVm_keyed wf
        (by rw [steady.legacyCache]; exact steady.bindsOwn binds) (length ▸ below) stepped
      obtain rfl := finish_ok stepped
      exact ⟨⟨recreateLegacyVm_wellFormed wf mode index,
          (recreateLegacyVm_keepsConfig _).mode mode,
          (recreateLegacyVm_keepsConfig _).trans kept, (recreateLegacyVm_steady _).trans steady,
          (putLegacyVm_length _ _ _).trans length⟩,
        fun slot wrote => wrote ▸ keyedHere, keepsOthers⟩)
    recreated ⟨wf, mode, .refl _, .refl _, rfl⟩
  exact ⟨kept, fun index below => written index below _ rfl⟩

/-- The fast path of `update_seed`: the dataset refilled from the re-keyed legacy cache, and every
live legacy VM rebound to it. -/
theorem reseedFast_keyed (wf : pool.WellFormed) {cache : Nat}
    (named : pool.legacyCache = some cache) {dataset : Nat} (filled : pool.dataset = some dataset)
    (seedHash : Bytes) {index vm : Nat} {bound : Vm}
    (held : pool.slot (.legacy index) = some vm) (live : pool.rx.vms vm = some bound) :
    let seeded := ({ pool with
      rx := pool.rx.initCache cache seedHash, currentSeedHash := seedHash } : Pool).fillDataset
        dataset cache
    ({ seeded with rx := seeded.legacyVms.foldl (fun rx vm => match vm with
        | some vm => rx.vmSetDataset vm dataset
        | none => rx) seeded.rx } : Pool).rx.KeyedTo true (some dataset) vm seedHash := by
  intro seeded
  obtain ⟨contents, found⟩ := Option.ne_none_iff_exists'.mp (wf.dataset dataset filled)
  obtain ⟨caches, vms, items, refilled, refound, written⟩ :=
    @fillDataset_filled { pool with
        rx := pool.rx.initCache cache seedHash, currentSeedHash := seedHash }
      dataset cache seedHash
      (initCache_live (wf.legacyCache cache named) seedHash) contents found
  obtain ⟨-, datasets, counted, rebound⟩ :=
    vmSetDataset_foldl dataset seeded.legacyVms seeded.rx
  refine ⟨{ bound with dataset := some dataset }, ?_, dataset, refilled, rfl, rfl, ?_, ?_⟩
  · rw [rebound, if_pos (show some vm ∈ seeded.legacyVms from mem_of_getD_eq_some held)]
    show (seeded.rx.vms vm).map _ = _
    rw [vms]
    simp [RandomX.initCache, live]
  · rw [datasets]
    exact refound
  · rw [counted]
    exact written

theorem lt_of_getD_eq_some {handles : List (Option Nat)} {index vm : Nat}
    (found : handles.getD index none = some vm) : index < handles.length := by
  by_contra outside
  rw [List.getD_eq_default _ _ (by omega)] at found
  cases found

theorem map_vms_length_eq {after : Pool} (count : after.numaNodes.length = pool.numaNodes.length)
    (each : ∀ node, (after.numaNodes.getD node .empty).vms.length =
      (pool.numaNodes.getD node .empty).vms.length) :
    after.numaNodes.map (·.vms.length) = pool.numaNodes.map (·.vms.length) := by
  apply List.ext_getElem (by simp [count])
  intro node inside _
  have same := each node
  simp only [List.length_map] at inside
  simp only [List.getD_eq_getElem?_getD, List.getElem?_eq_getElem inside,
    List.getElem?_eq_getElem (count ▸ inside), Option.getD_some] at same
  simpa using same

/-- The NUMA path of `update_seed` from a keyed pool: every worker's slot is on a node with a
cache, which the path re-keys and whose VMs it re-creates. -/
theorem reseedNuma_keyed (wf : pool.WellFormed) (keyed : pool.Keyed)
    (numa : pool.numaAvailable = true) (light : pool.fastMode = false) {seedHash : Bytes}
    (size : seedHash.length = 32) {final : Pool}
    (reseeded : (List.range pool.numaNodes.length).foldlM
      (fun pool node => pool.reseedNode seedHash node) { pool with currentSeedHash := seedHash } =
        .ok final)
    {thread : Nat} (inside : thread < final.numThreads) :
    final.SlotKeyed (final.threadSlot thread) := by
  have renamed : ({ pool with currentSeedHash := seedHash } : Pool).WellFormed :=
    { wf with toHandles := wf.toHandles.clear (fun _ _ => id) le_rfl, seed := size }
  obtain ⟨kept, lengths, written⟩ := reseedNodes_keyed renamed light rfl reseeded
  obtain ⟨vm, held, -⟩ := keyed.slotKeyed (kept.numThreads ▸ inside)
  rw [threadSlot_congr pool kept.numaAvailable kept.threadToNode
    (map_vms_length_eq kept.nodeCount lengths)]
  cases slot : pool.threadSlot thread with
  | legacy index =>
    rw [slot] at held
    exact absurd (wf.lightNuma numa light _ (mem_of_getD_eq_some held)) (by simp)
  | node node index =>
    rw [slot] at held
    have inside : node < pool.numaNodes.length ∧
        index < (pool.numaNodes.getD node .empty).vms.length := by
      by_contra outside
      rw [slot_node_outside outside] at held
      cases held
    exact written node (fun unset => absurd (wf.lightNodes node unset _
      (mem_of_getD_eq_some held)) (by simp)) index inside.2

/-- The legacy path of `update_seed` with no dataset to refill, from a keyed pool: a keyed pool
whose workers have VMs is then in light mode, and every worker's VM is re-created on the re-keyed
legacy cache. -/
theorem reseedLegacy_keyed (wf : pool.WellFormed) (keyed : pool.Keyed)
    (mode : pool.numaAvailable = true → pool.fastMode = true) {cache : Nat}
    (named : pool.legacyCache = some cache)
    (notFilled : ∀ dataset, pool.fastMode = true → pool.dataset = some dataset → False)
    {seedHash : Bytes} (size : seedHash.length = 32) {final : Pool}
    (recreated : (List.range pool.legacyVms.length).foldlM
      (fun pool index => pool.recreateLegacyVm index)
      { pool with rx := pool.rx.initCache cache seedHash, currentSeedHash := seedHash } = .ok final)
    (wf' : final.WellFormed) {thread : Nat} (inside : thread < final.numThreads) :
    final.SlotKeyed (final.threadSlot thread) := by
  have seeded : ({ pool with
      rx := pool.rx.initCache cache seedHash, currentSeedHash := seedHash } : Pool).WellFormed :=
    { wf.withRx (RandomX.grows_initCache cache seedHash) with
      toHandles := wf.toHandles.clear (fun _ _ => id) le_rfl
      seed := size }
  have kept : final.KeepsConfig
      { pool with rx := pool.rx.initCache cache seedHash, currentSeedHash := seedHash } := by
    have kept := @foldlM_holds Nat (·.KeepsConfig _)
      (fun pool index => pool.recreateLegacyVm index)
      (fun _ index kept => (recreateLegacyVm_keepsConfig index).trans kept)
      (List.range pool.legacyVms.length) _ (KeepsConfig.refl
        { pool with rx := pool.rx.initCache cache seedHash, currentSeedHash := seedHash })
    rwa [recreated] at kept
  obtain ⟨vm, held, bound, -, binds⟩ := keyed.slotKeyed (lt_of_lt_of_eq inside kept.numThreads)
  rw [wf.threadSlot_eq_legacy mode thread] at held
  have light : pool.fastMode = false := by
    cases fast : pool.fastMode
    · rfl
    · rw [RandomX.Binds, if_pos fast] at binds
      obtain ⟨dataset, -, -, filled, -⟩ := binds
      exact absurd filled (notFilled dataset fast)
  obtain ⟨-, written⟩ := recreateLegacies_keyed seeded mode (by
    show RandomX.Binds _ _ _ ⟨pool.legacyCache, none⟩ _
    rw [named]
    exact binds_light light (initCache_live (wf.legacyCache cache named) seedHash)) recreated
  rw [wf'.threadSlot_eq_legacy (kept.mode mode) thread]
  exact written thread (lt_of_getD_eq_some held)

/-- A successful `update_seed` after its checks, from a pool where every worker's VM is keyed:
every worker's VM is keyed with the new seed. -/
theorem reseed_keyed (wf : pool.WellFormed) (keyed : pool.Keyed) {seedHash : Bytes}
    (size : seedHash.length = 32) (succeeded : (pool.reseed seedHash).1 = true) :
    (pool.reseed seedHash).2.Keyed := by
  refine (@finish_holds_of_ok (fun final : Pool => final.WellFormed → final.Keyed) _ succeeded
    (fun final ok wf' => wf'.keyed fun thread inside => ?_)) (reseed_wellFormed wf size)
  split at ok
  · rename_i numaLight
    exact reseedNuma_keyed wf keyed numaLight.1 (by simpa using numaLight.2) size ok inside
  · rename_i mode
    have mode : pool.numaAvailable = true → pool.fastMode = true := fun numa => by
      simpa [numa] using mode
    split at ok
    · rename_i cache named
      dsimp only at ok
      split at ok
      · rename_i dataset fast filled
        cases ok
        obtain ⟨vm, held, bound, live, -⟩ := keyed.slotKeyed inside
        rw [wf.threadSlot_eq_legacy mode thread] at held
        rw [wf'.threadSlot_eq_legacy mode thread]
        refine ⟨vm, held, ?_⟩
        show RandomX.KeyedTo _ pool.fastMode pool.dataset vm seedHash
        rw [fast, filled]
        exact reseedFast_keyed wf named filled seedHash held live
      · exact reseedLegacy_keyed wf keyed mode named ‹_› size ok wf' inside
    · cases ok

/-- A successful `update_seed` on a pool where every worker's VM is keyed leaves every worker's
VM keyed, with the seed it was given. -/
theorem updateSeed_keyed (wf : pool.WellFormed) (keyed : pool.Keyed) {seedHash : Bytes}
    (succeeded : (pool.updateSeed seedHash).1 = true) : (pool.updateSeed seedHash).2.Keyed := by
  cases past : pool.updateSeedShortcut seedHash with
  | some result => simpa only [updateSeed, past] using keyed
  | none =>
    simp only [updateSeed, past] at succeeded ⊢
    exact reseed_keyed wf keyed (updateSeedShortcut_none past).1 succeeded

/-- Two light workers without NUMA whose fifth RandomX allocation fails: the first `update_seed`
recreates VM 3 for worker 0, fails at worker 1's VM and returns `false` with VM 3 still live and
`current_seed_hash_` already the new seed; the same call again takes the same-seed shortcut and
returns `true` while worker 1 has no VM. -/
theorem same_seed_after_failed_update_reports_success :
    ((Pool.construct ⟨false, 1, 2, fun _ => none⟩ 2 false 2 (RandomX.fresh (· = 4) 1)).map
      fun pool =>
        let failed := (pool.initializeSeed (List.replicate 32 0)).2.updateSeed (List.replicate 32 1)
        let retried := failed.2.updateSeed (List.replicate 32 1)
        (failed.1, failed.2.currentSeedHash, (failed.2.rx.vms 3).isSome, retried.1,
          retried.2.getVmForThread 1)) =
      some (false, List.replicate 32 1, true, true, none) := by
  decide

/-! ## `set_thread_count` -/

/-- A successful `set_thread_count(n)` leaves `n` workers, each on a VM keyed with the seed the
pool had. -/
theorem setThreadCount_keyed (wf : pool.WellFormed) (keyed : pool.Keyed) {newThreadCount : Nat}
    {after : Pool} (changed : pool.setThreadCount newThreadCount = some (true, after)) :
    after.Keyed ∧ after.numThreads = newThreadCount ∧
      after.currentSeedHash = pool.currentSeedHash := by
  unfold setThreadCount at changed
  split at changed
  · rename_i shortcut
    cases changed
    unfold setThreadCountShortcut at shortcut
    split_ifs at shortcut with zero same
    · cases shortcut
    · exact ⟨keyed, same.symm, rfl⟩
  · obtain ⟨placed, fresh, count, rebuilt⟩ := rebuild_initialize wf changed
    have kept := @initializeSeed_keepsConfig placed pool.currentSeedHash
    have succeeded : (placed.initializeSeed pool.currentSeedHash).1 = true := by rw [← rebuilt]
    have initialized := initializeSeed_keyed fresh succeeded
    rw [if_pos wf.seed, ← rebuilt] at kept
    rw [← rebuilt] at initialized
    exact ⟨initialized, kept.numThreads.trans count, rebuild_seed newThreadCount changed⟩

end Pool

end JunoMiner
