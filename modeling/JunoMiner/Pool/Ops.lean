import JunoMiner.Pool.Basic

/-!
# `initialize`, `update_seed` and `set_thread_count`

The three member functions that build and rebuild the RandomX resources. Each returns `false`
early at the first null allocation, leaving whatever it had done so far; that is kept here by
writing them in `Except Pool Pool`, where `.error pool` is an early `return false` with the
fields as they were at that point. The `stop()` that `update_seed` and `set_thread_count` run
first when a session is mining belongs to the session model (`Engine`); the functions below are
their bodies after it.
-/

namespace JunoMiner

/-- The return value and fields of a member function written in `Except Pool Pool`. -/
def finish : Except Pool Pool → Bool × Pool
  | .ok pool => (true, pool)
  | .error pool => (false, pool)

/-- Destroy every non-null VM of a list. -/
def RandomX.destroyVms (rx : RandomX) (vms : List (Option Nat)) : RandomX :=
  vms.foldl (fun rx vm => match vm with
    | some vm => rx.destroyVm vm
    | none => rx) rx

/-- `if (cache) randomx_release_cache(cache)`. -/
def RandomX.releaseCacheIfSet (rx : RandomX) : Option Nat → RandomX
  | some cache => rx.releaseCache cache
  | none => rx

namespace Pool

variable (pool : Pool)

/-- Apply `change` to `numa_nodes_[node]`. -/
def setNode (node : Nat) (change : NumaNode → NumaNode) : Pool :=
  { pool with numaNodes := pool.numaNodes.modify change node }

/-- `node.vms[index] = randomx_create_vm(flags, cache, nullptr)`, returning `false` on null. -/
def putNodeVm (node cache index : Nat) : Except Pool Pool :=
  let (vm, rx) := pool.rx.createVm (some cache) none
  let pool := { pool.setNode node (fun n => { n with vms := n.vms.set index vm }) with rx }
  if vm.isNone then throw pool else pure pool

/-- `legacy_vms_[index] = randomx_create_vm(flags, cache, dataset)`, returning `false` on null. -/
def putLegacyVm (cache dataset : Option Nat) (index : Nat) : Except Pool Pool :=
  let (vm, rx) := pool.rx.createVm cache dataset
  let pool := { pool with rx, legacyVms := pool.legacyVms.set index vm }
  if vm.isNone then throw pool else pure pool

/-- The item ranges of the dataset helper threads of `initialize` and `update_seed`:
`min(num_threads_, hardware_concurrency())` of them (at least one), contiguous, the last one
taking the remainder. -/
def initRanges (itemCount numThreads hardwareConcurrency : Nat) : List (Nat × Nat) :=
  let initThreads :=
    if min numThreads hardwareConcurrency = 0 then 1 else min numThreads hardwareConcurrency
  let itemsPerThread := itemCount / initThreads
  let remainder := itemCount % initThreads
  (List.range initThreads).map fun t =>
    (t * itemsPerThread, if t = initThreads - 1 then itemsPerThread + remainder else itemsPerThread)

/-- `initRanges` unfolded: `threads` helpers, helper `t` taking `itemCount / threads` items from
`t * (itemCount / threads)`, the last one the remainder too. -/
theorem initRanges_eq_map (itemCount numThreads hardwareConcurrency : Nat) :
    ∃ threads, 0 < threads ∧
      threads = (if min numThreads hardwareConcurrency = 0 then 1
        else min numThreads hardwareConcurrency) ∧
      initRanges itemCount numThreads hardwareConcurrency = (List.range threads).map fun t =>
        (t * (itemCount / threads),
          if t = threads - 1 then itemCount / threads + itemCount % threads
          else itemCount / threads) :=
  ⟨_, by split <;> omega, rfl, rfl⟩

/-- Every range ends by the last item. -/
theorem initRanges_end_le {itemCount numThreads hardwareConcurrency : Nat} :
    ∀ range ∈ initRanges itemCount numThreads hardwareConcurrency,
      range.1 + range.2 ≤ itemCount := by
  obtain ⟨threads, positive, -, ranges⟩ :=
    initRanges_eq_map itemCount numThreads hardwareConcurrency
  rw [ranges]
  simp only [List.mem_map, List.mem_range]
  rintro _ ⟨t, inside, rfl⟩
  have divided := Nat.div_add_mod itemCount threads
  have grows := Nat.mul_le_mul_right (itemCount / threads) (show t + 1 ≤ threads by omega)
  rw [Nat.succ_mul] at grows
  split_ifs <;> omega

/-- Each range ends before the next one starts. -/
theorem initRanges_pairwise {itemCount numThreads hardwareConcurrency : Nat} :
    (initRanges itemCount numThreads hardwareConcurrency).Pairwise
      fun earlier later => earlier.1 + earlier.2 ≤ later.1 := by
  obtain ⟨threads, -, -, ranges⟩ := initRanges_eq_map itemCount numThreads hardwareConcurrency
  rw [ranges, List.pairwise_map]
  refine (List.pairwise_lt_range threads).imp_of_mem fun {t later} _ inside before => ?_
  rw [List.mem_range] at inside
  rw [if_neg (by omega)]
  have grows := Nat.mul_le_mul_right (itemCount / threads) (show t + 1 ≤ later from before)
  rwa [Nat.succ_mul] at grows

/-- The dataset helper threads' ranges cover every item: the last one takes the remainder. -/
theorem initRanges_cover {itemCount numThreads hardwareConcurrency item : Nat}
    (inside : item < itemCount) :
    ∃ range ∈ initRanges itemCount numThreads hardwareConcurrency,
      range.1 ≤ item ∧ item < range.1 + range.2 := by
  obtain ⟨threads, positive, -, ranges⟩ :=
    initRanges_eq_map itemCount numThreads hardwareConcurrency
  rw [ranges]
  have divided := Nat.div_add_mod itemCount threads
  generalize itemCount / threads = share at divided ⊢
  generalize itemCount % threads = remainder at divided ⊢
  by_cases early : item < (threads - 1) * share
  · have sharePositive : 0 < share := Nat.pos_of_ne_zero fun zero => by simp [zero] at early
    have before := (Nat.div_lt_iff_lt_mul sharePositive).mpr early
    refine ⟨(item / share * share, share), List.mem_map.mpr ⟨item / share,
      List.mem_range.mpr (by omega), by rw [if_neg (by omega)]⟩, Nat.div_mul_le_self _ _,
      Nat.lt_div_mul_add sharePositive⟩
  · have last : (threads - 1) * share + share = threads * share := by
      rw [Nat.sub_one_mul]
      have := Nat.le_mul_of_pos_left share positive
      omega
    exact ⟨((threads - 1) * share, share + remainder), List.mem_map.mpr ⟨threads - 1,
      List.mem_range.mpr (by omega), by rw [if_pos rfl]⟩, Nat.le_of_not_lt early, by omega⟩

/-- The helper threads of `initialize` and `update_seed` split the dataset's items exactly: there
are `min(num_threads_, hardware_concurrency())` of them (at least one), each range ends before
the next starts, the ranges cover exactly `[0, itemCount)`, and so, for an `unsigned long` item
count, no start or end passes `2 ^ 64`. -/
theorem initRanges_partition (itemCount numThreads hardwareConcurrency : Nat) :
    (initRanges itemCount numThreads hardwareConcurrency).length =
        (if min numThreads hardwareConcurrency = 0 then 1
          else min numThreads hardwareConcurrency) ∧
      (initRanges itemCount numThreads hardwareConcurrency).Pairwise
        (fun earlier later => earlier.1 + earlier.2 ≤ later.1) ∧
      (∀ item, item < itemCount ↔ ∃ range ∈ initRanges itemCount numThreads hardwareConcurrency,
        range.1 ≤ item ∧ item < range.1 + range.2) ∧
      (itemCount < 2 ^ 64 → ∀ range ∈ initRanges itemCount numThreads hardwareConcurrency,
        range.1 + range.2 < 2 ^ 64) := by
  obtain ⟨threads, -, counted, ranges⟩ :=
    initRanges_eq_map itemCount numThreads hardwareConcurrency
  refine ⟨by rw [ranges, List.length_map, List.length_range, counted], initRanges_pairwise,
    fun item => ⟨initRanges_cover, ?_⟩, fun small range inside =>
      Nat.lt_of_le_of_lt (initRanges_end_le range inside) small⟩
  rintro ⟨range, inside, -, below⟩
  exact Nat.lt_of_lt_of_le below (initRanges_end_le range inside)

/-- The dataset of RandomX's default configuration over eight helper threads. -/
theorem initRanges_partition_on_eight_helpers :
    34078719 < 2 ^ 64 ∧ ∀ range ∈ initRanges 34078719 8 16, range.1 + range.2 < 2 ^ 64 :=
  ⟨by decide, (initRanges_partition 34078719 8 16).2.2.2 (by decide)⟩

/-- The dataset helper threads, joined. They write disjoint ranges from one cache, so the order
they run in does not matter. -/
def fillDataset (dataset cache : Nat) : Pool :=
  { pool with
    rx := (initRanges pool.rx.itemCount pool.numThreads pool.hardwareConcurrency).foldl
      (fun rx range => rx.initDataset dataset cache range.1 range.2) pool.rx }

/-! ## `initialize` -/

/-- The fast-mode block of `initialize`: allocate the dataset and fill it from the cache; on a
null dataset, release the cache and return `false`. -/
def setupDataset (cache : Nat) : Except Pool Pool :=
  let (dataset, rx) := pool.rx.allocDataset
  let pool := { pool with dataset, rx }
  match dataset with
  | none => throw { pool with rx := pool.rx.releaseCache cache, legacyCache := none }
  | some dataset => pure (pool.fillDataset dataset cache)

/-- `threads_per_node` of `initialize`: the workers placed on each node. -/
def threadsPerNode : List Nat :=
  (List.range pool.numThreads).foldl
    (fun counts t => counts.modify (· + 1) (pool.threadToNode.getD t 0))
    (List.replicate pool.numNumaNodes 0)

/-- One node of the NUMA block of `initialize`: its own cache keyed with the seed, and one VM
per worker placed on it. -/
def setupNode (seedHash : Bytes) (count node : Nat) : Except Pool Pool :=
  if count = 0 then pure pool
  else
    let (cache, rx) := pool.rx.allocCache
    let pool := { pool.setNode node (fun n => { n with cache }) with rx }
    match cache with
    | none => throw pool
    | some cache =>
      let pool := { pool.setNode node (fun n => { n with vms := resizeVms n.vms count }) with
        rx := pool.rx.initCache cache seedHash }
      (List.range count).foldlM (fun pool index => pool.putNodeVm node cache index) pool

/-- The NUMA block of `initialize` (light mode). -/
def setupNumaNodes (seedHash : Bytes) : Except Pool Pool :=
  let counts := pool.threadsPerNode
  (List.range pool.numNumaNodes).foldlM
    (fun pool node => pool.setupNode seedHash (counts.getD node 0) node) pool

/-- The last block of `initialize`: one VM per worker, on the dataset in fast mode and on the
legacy cache otherwise. -/
def createLegacyVms : Except Pool Pool :=
  let cache := if pool.fastMode then none else pool.legacyCache
  let dataset := if pool.fastMode then pool.dataset else none
  (List.range pool.numThreads).foldlM (fun pool index => pool.putLegacyVm cache dataset index)
    { pool with legacyVms := resizeVms pool.legacyVms pool.numThreads }

/-- `Miner::initialize(seed_hash)`. -/
def initializeSeed (seedHash : Bytes) : Bool × Pool :=
  finish do
    if seedHash.length ≠ 32 then throw pool
    let pool := { pool with currentSeedHash := seedHash }
    let (cache, rx) := pool.rx.allocCache
    let pool := { pool with legacyCache := cache, rx }
    let some cache := cache | throw pool
    let pool := { pool with rx := pool.rx.initCache cache seedHash }
    let pool ← if pool.fastMode then pool.setupDataset cache else pure pool
    if pool.numaAvailable ∧ ¬pool.fastMode then pool.setupNumaNodes seedHash
    else pool.createLegacyVms

/-! ## `update_seed` -/

/-- The checks at the top of `update_seed`: a seed of the wrong size fails, the current seed
succeeds at once. -/
def updateSeedShortcut (seedHash : Bytes) : Option Bool :=
  if seedHash.length ≠ 32 then some false
  else if seedHash = pool.currentSeedHash then some true
  else none

/-- `if (node.vms[i]) randomx_destroy_vm(node.vms[i]); node.vms[i] = randomx_create_vm(…)`. -/
def recreateNodeVm (node cache index : Nat) : Except Pool Pool :=
  let pool := { pool with
    rx := pool.rx.destroyVms [(pool.numaNodes.getD node .empty).vms.getD index none] }
  pool.putNodeVm node cache index

/-- One node of the NUMA path of `update_seed`: a node with a cache has it keyed with the new
seed and all its VMs recreated on it. -/
def reseedNode (seedHash : Bytes) (node : Nat) : Except Pool Pool :=
  match (pool.numaNodes.getD node .empty).cache with
  | none => pure pool
  | some cache =>
    let pool := { pool with rx := pool.rx.initCache cache seedHash }
    (List.range (pool.numaNodes.getD node .empty).vms.length).foldlM
      (fun pool index => pool.recreateNodeVm node cache index) pool

/-- `if (legacy_vms_[i]) randomx_destroy_vm(…); legacy_vms_[i] = randomx_create_vm(flags,
legacy_cache_, nullptr)`. -/
def recreateLegacyVm (index : Nat) : Except Pool Pool :=
  let pool := { pool with rx := pool.rx.destroyVms [pool.legacyVms.getD index none] }
  pool.putLegacyVm pool.legacyCache none index

/-- `update_seed` after its checks and `stop()`. -/
def reseed (seedHash : Bytes) : Bool × Pool :=
  finish do
    if pool.numaAvailable ∧ ¬pool.fastMode then
      let pool := { pool with currentSeedHash := seedHash }
      (List.range pool.numaNodes.length).foldlM (fun pool node => pool.reseedNode seedHash node)
        pool
    else
      let some cache := pool.legacyCache | throw pool
      let pool := { pool with rx := pool.rx.initCache cache seedHash, currentSeedHash := seedHash }
      match pool.fastMode, pool.dataset with
      | true, some dataset =>
        let pool := pool.fillDataset dataset cache
        pure { pool with
          rx := pool.legacyVms.foldl (fun rx vm => match vm with
            | some vm => rx.vmSetDataset vm dataset
            | none => rx) pool.rx }
      | _, _ => (List.range pool.legacyVms.length).foldlM (fun pool index =>
          pool.recreateLegacyVm index) pool

/-- `Miner::update_seed(new_seed_hash)`, outside a mining session. -/
def updateSeed (seedHash : Bytes) : Bool × Pool :=
  match pool.updateSeedShortcut seedHash with
  | some result => (result, pool)
  | none => pool.reseed seedHash

/-! ## `set_thread_count` -/

/-- The checks at the top of `set_thread_count`: zero fails, the current count succeeds. -/
def setThreadCountShortcut (newThreadCount : Nat) : Option Bool :=
  if newThreadCount = 0 then some false
  else if newThreadCount = pool.numThreads then some true
  else none

/-- The clean-up block of `set_thread_count`: every VM destroyed, every cache and the dataset
released, every handle nulled. -/
def releaseAll : Pool :=
  let pool :=
    if pool.numaAvailable then
      { pool with
        rx := pool.numaNodes.foldl (fun rx node => (rx.destroyVms node.vms).releaseCacheIfSet
          node.cache) pool.rx
        numaNodes := pool.numaNodes.map fun node => { node with vms := [], cache := none } }
    else pool
  let pool := { pool with rx := pool.rx.destroyVms pool.legacyVms, legacyVms := [] }
  let pool := { pool with rx := pool.rx.releaseCacheIfSet pool.legacyCache, legacyCache := none }
  { pool with
    rx := match pool.dataset with
      | some dataset => pool.rx.releaseDataset dataset
      | none => pool.rx
    dataset := none }

/-- `set_thread_count` after its checks and `stop()`: release, place the new workers, and
`initialize` again with the saved seed. `none` when the placement loop divides by zero. -/
def rebuild (newThreadCount : Nat) : Option (Bool × Pool) :=
  let savedSeed := pool.currentSeedHash
  let pool := { pool.releaseAll with numThreads := newThreadCount }
  let placed :=
    if pool.numaAvailable then
      (assignThreads pool.numaNodes pool.numNumaNodes newThreadCount).map fun (toNode, toCpu) =>
        { pool with threadToNode := toNode, threadToCpu := toCpu }
    else some pool
  placed.map fun pool => if savedSeed ≠ [] then pool.initializeSeed savedSeed else (true, pool)

/-- `Miner::set_thread_count(new_thread_count)`, outside a mining session. -/
def setThreadCount (newThreadCount : Nat) : Option (Bool × Pool) :=
  match pool.setThreadCountShortcut newThreadCount with
  | some result => some (result, pool)
  | none => pool.rebuild newThreadCount

end Pool

end JunoMiner
