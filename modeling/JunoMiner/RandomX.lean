import JunoMiner.Bytes
import Mathlib.Logic.Function.Basic

/-!
# The RandomX library, abstractly

The miner uses RandomX through its C ABI: caches, datasets and VMs are handles, allocation can
return null, `randomx_init_cache` keys a cache with a seed, `randomx_init_dataset` fills a range of
dataset items from a cache, and a VM is bound to a cache or a dataset. The library's heap is
modelled by what it holds for each live handle. Allocation attempts are numbered, a successful one
gets its number as handle, and which attempts fail is a field: every theorem quantifies over it.
-/

namespace JunoMiner

/-- A `randomx_cache`: the seed of its last `randomx_init_cache`, if any. -/
structure Cache where
  /-- The seed the cache was last initialized with. -/
  key : Option Bytes

/-- A `randomx_dataset`: for each item, the seed of the cache it was last computed from. -/
structure Dataset where
  /-- The seed behind each item. -/
  items : Nat → Option Bytes

/-- A `randomx_vm`: what it was created with, or rebound to. -/
structure Vm where
  /-- The cache handle passed to `randomx_create_vm` (null in fast mode). -/
  cache : Option Nat
  /-- The dataset handle, from `randomx_create_vm` or `randomx_vm_set_dataset`. -/
  dataset : Option Nat

/-- The library's heap. -/
structure RandomX where
  /-- Allocation attempts so far. -/
  attempts : Nat
  /-- Whether the allocation attempt with a given number returns null. -/
  fails : Nat → Bool
  /-- Live caches. -/
  caches : Nat → Option Cache
  /-- Live datasets. -/
  datasets : Nat → Option Dataset
  /-- Live VMs. -/
  vms : Nat → Option Vm
  /-- `randomx_dataset_item_count()`. -/
  itemCount : Nat

namespace RandomX

variable (rx : RandomX)

/-- `randomx_alloc_cache`. -/
def allocCache : Option Nat × RandomX :=
  if rx.fails rx.attempts then (none, { rx with attempts := rx.attempts + 1 })
  else
    (some rx.attempts,
      { rx with
        attempts := rx.attempts + 1
        caches := Function.update rx.caches rx.attempts (some ⟨none⟩) })

/-- `randomx_init_cache(cache, seed)`. -/
def initCache (cache : Nat) (seed : Bytes) : RandomX :=
  { rx with
    caches := Function.update rx.caches cache ((rx.caches cache).map fun _ => ⟨some seed⟩) }

/-- `randomx_release_cache`. -/
def releaseCache (cache : Nat) : RandomX :=
  { rx with caches := Function.update rx.caches cache none }

/-- `randomx_alloc_dataset`. -/
def allocDataset : Option Nat × RandomX :=
  if rx.fails rx.attempts then (none, { rx with attempts := rx.attempts + 1 })
  else
    (some rx.attempts,
      { rx with
        attempts := rx.attempts + 1
        datasets := Function.update rx.datasets rx.attempts (some ⟨fun _ => none⟩) })

/-- `randomx_init_dataset(dataset, cache, start, count)`: items `start .. start + count - 1`
are computed from the cache, and take its seed. -/
def initDataset (dataset cache start count : Nat) : RandomX :=
  { rx with datasets := Function.update rx.datasets dataset ((rx.datasets dataset).map fun old =>
      ⟨fun item => if start ≤ item ∧ item < start + count then (rx.caches cache).bind (·.key)
        else old.items item⟩) }

/-- `randomx_release_dataset`. -/
def releaseDataset (dataset : Nat) : RandomX :=
  { rx with datasets := Function.update rx.datasets dataset none }

/-- `randomx_create_vm(flags, cache, dataset)`. -/
def createVm (cache dataset : Option Nat) : Option Nat × RandomX :=
  if rx.fails rx.attempts then (none, { rx with attempts := rx.attempts + 1 })
  else
    (some rx.attempts,
      { rx with
        attempts := rx.attempts + 1
        vms := Function.update rx.vms rx.attempts (some ⟨cache, dataset⟩) })

/-- `randomx_destroy_vm`. -/
def destroyVm (vm : Nat) : RandomX :=
  { rx with vms := Function.update rx.vms vm none }

/-- `randomx_vm_set_dataset(vm, dataset)`. -/
def vmSetDataset (vm dataset : Nat) : RandomX :=
  { rx with vms := Function.update rx.vms vm ((rx.vms vm).map fun v => { v with dataset })}

/-- A VM bound as `bound` computes hashes keyed with `seed`: from a cache last initialized with
`seed` (light mode), or from the dataset `dataset`, every item of which was last computed from
such a cache (fast mode). -/
def Binds (fastMode : Bool) (dataset : Option Nat) (bound : Vm) (seed : Bytes) : Prop :=
  if fastMode then
    ∃ handle contents, bound.dataset = some handle ∧ dataset = some handle ∧
      rx.datasets handle = some contents ∧ ∀ item < rx.itemCount, contents.items item = some seed
  else
    ∃ cache, bound.cache = some cache ∧ rx.caches cache = some ⟨some seed⟩

/-- The VM `vm` is live and computes hashes keyed with `seed`. -/
def KeyedTo (fastMode : Bool) (dataset : Option Nat) (vm : Nat) (seed : Bytes) : Prop :=
  ∃ bound, rx.vms vm = some bound ∧ rx.Binds fastMode dataset bound seed

/-- Nothing is allocated at or above the next allocation number. -/
def Sane : Prop :=
  ∀ handle, rx.attempts ≤ handle →
    rx.caches handle = none ∧ rx.datasets handle = none ∧ rx.vms handle = none

/-- The heap before any allocation, with the attempts that will fail. -/
def fresh (fails : Nat → Bool) (itemCount : Nat) : RandomX :=
  ⟨0, fails, fun _ => none, fun _ => none, fun _ => none, itemCount⟩

theorem sane_fresh (fails : Nat → Bool) (itemCount : Nat) : (fresh fails itemCount).Sane :=
  fun _ _ => ⟨rfl, rfl, rfl⟩

/-! ## What each call changes -/

variable {rx}

theorem allocCache_eq : rx.allocCache =
    (if rx.fails rx.attempts then none else some rx.attempts,
      { rx with
        attempts := rx.attempts + 1
        caches := if rx.fails rx.attempts then rx.caches
          else Function.update rx.caches rx.attempts (some ⟨none⟩) }) := by
  unfold allocCache; split <;> rfl

theorem allocDataset_eq : rx.allocDataset =
    (if rx.fails rx.attempts then none else some rx.attempts,
      { rx with
        attempts := rx.attempts + 1
        datasets := if rx.fails rx.attempts then rx.datasets
          else Function.update rx.datasets rx.attempts (some ⟨fun _ => none⟩) }) := by
  unfold allocDataset; split <;> rfl

theorem createVm_eq (cache dataset : Option Nat) : rx.createVm cache dataset =
    (if rx.fails rx.attempts then none else some rx.attempts,
      { rx with
        attempts := rx.attempts + 1
        vms := if rx.fails rx.attempts then rx.vms
          else Function.update rx.vms rx.attempts (some ⟨cache, dataset⟩) }) := by
  unfold createVm; split <;> rfl

theorem Sane.allocCache (sane : rx.Sane) : rx.allocCache.2.Sane := by
  intro handle above
  have := sane handle (by simp [allocCache_eq] at above; omega)
  simp only [allocCache_eq]
  split_ifs <;> simp_all [Function.update_noteq (show handle ≠ rx.attempts by
    simp [allocCache_eq] at above; omega)]

theorem Sane.allocDataset (sane : rx.Sane) : rx.allocDataset.2.Sane := by
  intro handle above
  have := sane handle (by simp [allocDataset_eq] at above; omega)
  simp only [allocDataset_eq]
  split_ifs <;> simp_all [Function.update_noteq (show handle ≠ rx.attempts by
    simp [allocDataset_eq] at above; omega)]

theorem Sane.createVm (sane : rx.Sane) (cache dataset : Option Nat) :
    (rx.createVm cache dataset).2.Sane := by
  intro handle above
  have := sane handle (by simp [createVm_eq] at above; omega)
  simp only [createVm_eq]
  split_ifs <;> simp_all [Function.update_noteq (show handle ≠ rx.attempts by
    simp [createVm_eq] at above; omega)]

theorem Sane.initCache (sane : rx.Sane) (cache : Nat) (seed : Bytes) :
    (rx.initCache cache seed).Sane := by
  intro handle above
  have := sane handle above
  by_cases same : handle = cache
  · subst same; simp_all [RandomX.initCache]
  · simp_all [RandomX.initCache, Function.update_noteq same]

theorem Sane.releaseCache (sane : rx.Sane) (cache : Nat) : (rx.releaseCache cache).Sane := by
  intro handle above
  have := sane handle above
  by_cases same : handle = cache
  · subst same; simp_all [RandomX.releaseCache]
  · simp_all [RandomX.releaseCache, Function.update_noteq same]

theorem Sane.initDataset (sane : rx.Sane) (dataset cache start count : Nat) :
    (rx.initDataset dataset cache start count).Sane := by
  intro handle above
  have := sane handle above
  by_cases same : handle = dataset
  · subst same; simp_all [RandomX.initDataset]
  · simp_all [RandomX.initDataset, Function.update_noteq same]

theorem Sane.releaseDataset (sane : rx.Sane) (dataset : Nat) :
    (rx.releaseDataset dataset).Sane := by
  intro handle above
  have := sane handle above
  by_cases same : handle = dataset
  · subst same; simp_all [RandomX.releaseDataset]
  · simp_all [RandomX.releaseDataset, Function.update_noteq same]

theorem Sane.destroyVm (sane : rx.Sane) (vm : Nat) : (rx.destroyVm vm).Sane := by
  intro handle above
  have := sane handle above
  by_cases same : handle = vm
  · subst same; simp_all [RandomX.destroyVm]
  · simp_all [RandomX.destroyVm, Function.update_noteq same]

theorem Sane.vmSetDataset (sane : rx.Sane) (vm dataset : Nat) :
    (rx.vmSetDataset vm dataset).Sane := by
  intro handle above
  have := sane handle above
  by_cases same : handle = vm
  · subst same; simp_all [RandomX.vmSetDataset]
  · simp_all [RandomX.vmSetDataset, Function.update_noteq same]

/-! ## Calls that release nothing -/

/-- `after` is `rx` after calls that release nothing: the counter has not gone back, every live
cache and dataset is still live, and a sane heap stays sane. -/
structure Grows (after rx : RandomX) : Prop where
  attempts : rx.attempts ≤ after.attempts
  caches : ∀ cache, rx.caches cache ≠ none → after.caches cache ≠ none
  datasets : ∀ dataset, rx.datasets dataset ≠ none → after.datasets dataset ≠ none
  sane : rx.Sane → after.Sane

theorem Grows.refl (rx : RandomX) : rx.Grows rx := ⟨le_rfl, fun _ => id, fun _ => id, id⟩

theorem Grows.trans {middle after : RandomX} (second : after.Grows middle)
    (first : middle.Grows rx) : after.Grows rx :=
  ⟨first.attempts.trans second.attempts,
    fun cache live => second.caches cache (first.caches cache live),
    fun dataset live => second.datasets dataset (first.datasets dataset live),
    fun sane => second.sane (first.sane sane)⟩

theorem grows_allocCache : rx.allocCache.2.Grows rx := by
  refine ⟨by simp [allocCache_eq], fun cache live => ?_, fun _ => by simp [allocCache_eq],
    Sane.allocCache⟩
  simp only [allocCache_eq]
  split_ifs with failed
  · exact live
  · by_cases same : cache = rx.attempts <;> simp [Function.update_apply, same, live]

theorem grows_allocDataset : rx.allocDataset.2.Grows rx := by
  refine ⟨by simp [allocDataset_eq], fun _ => by simp [allocDataset_eq], fun dataset live => ?_,
    Sane.allocDataset⟩
  simp only [allocDataset_eq]
  split_ifs with failed
  · exact live
  · by_cases same : dataset = rx.attempts <;> simp [Function.update_apply, same, live]

theorem grows_createVm (cache dataset : Option Nat) : (rx.createVm cache dataset).2.Grows rx :=
  ⟨by simp [createVm_eq], fun _ => by simp [createVm_eq], fun _ => by simp [createVm_eq],
    fun sane => sane.createVm cache dataset⟩

theorem grows_initCache (cache : Nat) (seed : Bytes) : (rx.initCache cache seed).Grows rx := by
  refine ⟨le_rfl, fun other live => ?_, fun _ => id, fun sane => sane.initCache cache seed⟩
  by_cases same : other = cache <;> simp_all [RandomX.initCache, Function.update_apply]

theorem grows_initDataset (dataset cache start count : Nat) :
    (rx.initDataset dataset cache start count).Grows rx := by
  refine ⟨le_rfl, fun _ => id, fun other live => ?_,
    fun sane => sane.initDataset dataset cache start count⟩
  by_cases same : other = dataset <;> simp_all [RandomX.initDataset, Function.update_apply]

theorem grows_destroyVm (vm : Nat) : (rx.destroyVm vm).Grows rx :=
  ⟨le_rfl, fun _ => id, fun _ => id, fun sane => sane.destroyVm vm⟩

theorem grows_vmSetDataset (vm dataset : Nat) : (rx.vmSetDataset vm dataset).Grows rx :=
  ⟨le_rfl, fun _ => id, fun _ => id, fun sane => sane.vmSetDataset vm dataset⟩

/-! ## Keyed VMs across calls -/

section Keyed

variable {fastMode : Bool} {dataset : Option Nat} {seed : Bytes}

theorem Sane.live_lt (sane : rx.Sane) {vm : Nat} {bound : Vm} (live : rx.vms vm = some bound) :
    vm < rx.attempts :=
  Nat.lt_of_not_le fun above => nomatch (sane vm above).2.2.symm.trans live

theorem Binds.createVm {bound : Vm} (binds : rx.Binds fastMode dataset bound seed)
    (cache handle : Option Nat) :
    (rx.createVm cache handle).2.Binds fastMode dataset bound seed := by
  rw [createVm_eq]
  exact binds

/-- Keying a cache with the seed a VM already hashes with keeps it keyed. -/
theorem Binds.initCache {bound : Vm} (binds : rx.Binds fastMode dataset bound seed)
    (cache : Nat) : (rx.initCache cache seed).Binds fastMode dataset bound seed := by
  unfold Binds at binds ⊢
  split
  · simpa [*, RandomX.initCache] using binds
  · rename_i light
    simp only [light, if_false] at binds
    obtain ⟨bound, named, keyed⟩ := binds
    refine ⟨bound, named, ?_⟩
    by_cases same : bound = cache
    · subst same
      simp [RandomX.initCache, keyed]
    · simp [RandomX.initCache, Function.update_noteq same, keyed]

theorem Binds.allocCache (sane : rx.Sane) {bound : Vm}
    (binds : rx.Binds fastMode dataset bound seed) :
    rx.allocCache.2.Binds fastMode dataset bound seed := by
  unfold Binds at binds ⊢
  rw [allocCache_eq]
  split
  · simpa [*] using binds
  · rename_i light
    simp only [light, if_false] at binds
    obtain ⟨cache, named, keyed⟩ := binds
    have below : cache ≠ rx.attempts := fun same =>
      nomatch (sane cache (Nat.le_of_eq same.symm)).1.symm.trans keyed
    refine ⟨cache, named, ?_⟩
    split_ifs <;> simp [Function.update_noteq below, keyed]

theorem Binds.allocDataset (sane : rx.Sane) {bound : Vm}
    (binds : rx.Binds fastMode dataset bound seed) :
    rx.allocDataset.2.Binds fastMode dataset bound seed := by
  unfold Binds at binds ⊢
  rw [allocDataset_eq]
  split
  · rename_i fast
    simp only [fast, if_true] at binds
    obtain ⟨handle, contents, bound, named, live, items⟩ := binds
    have below : handle ≠ rx.attempts := fun same =>
      nomatch (sane handle (Nat.le_of_eq same.symm)).2.1.symm.trans live
    refine ⟨handle, contents, bound, named, ?_, items⟩
    split_ifs <;> simp [Function.update_noteq below, live]
  · simpa [*] using binds

theorem KeyedTo.createVm (sane : rx.Sane) {vm : Nat}
    (keyed : rx.KeyedTo fastMode dataset vm seed) (cache handle : Option Nat) :
    (rx.createVm cache handle).2.KeyedTo fastMode dataset vm seed := by
  obtain ⟨bound, live, binds⟩ := keyed
  have other : vm ≠ rx.attempts := (sane.live_lt live).ne
  refine ⟨bound, ?_, binds.createVm cache handle⟩
  rw [createVm_eq]
  split_ifs <;> simp [Function.update_noteq other, live]

/-- The VM `randomx_create_vm` returns is bound as asked. -/
theorem createVm_keyedTo {cache handle : Option Nat} {vm : Nat}
    (binds : rx.Binds fastMode dataset ⟨cache, handle⟩ seed)
    (created : (rx.createVm cache handle).1 = some vm) :
    (rx.createVm cache handle).2.KeyedTo fastMode dataset vm seed := by
  rw [createVm_eq] at created ⊢
  split_ifs at created ⊢
  obtain rfl := Option.some.inj created
  exact ⟨⟨cache, handle⟩, by simp, binds⟩

theorem KeyedTo.destroyVm {vm : Nat} (keyed : rx.KeyedTo fastMode dataset vm seed)
    {other : Nat} (different : other ≠ vm) :
    (rx.destroyVm other).KeyedTo fastMode dataset vm seed := by
  obtain ⟨bound, live, binds⟩ := keyed
  exact ⟨bound, by simp [RandomX.destroyVm, Function.update_noteq different.symm, live], binds⟩

theorem KeyedTo.initCache {vm : Nat} (keyed : rx.KeyedTo fastMode dataset vm seed)
    (cache : Nat) : (rx.initCache cache seed).KeyedTo fastMode dataset vm seed :=
  let ⟨bound, live, binds⟩ := keyed
  ⟨bound, live, binds.initCache cache⟩

theorem KeyedTo.allocCache (sane : rx.Sane) {vm : Nat}
    (keyed : rx.KeyedTo fastMode dataset vm seed) :
    rx.allocCache.2.KeyedTo fastMode dataset vm seed := by
  obtain ⟨bound, live, binds⟩ := keyed
  refine ⟨bound, ?_, binds.allocCache sane⟩
  rw [allocCache_eq]
  exact live

end Keyed

end RandomX

end JunoMiner
