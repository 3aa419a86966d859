import JunoMiner.Pool.Ops

/-!
# What the pool's calls leave alone

The steps of `initialize`, `update_seed` and `set_thread_count` change the RandomX heap, the
caches, the dataset and the VM slots. None of them touches the configuration: the thread count,
the mode, the placement and the node list, and the seed outside the lines that set it. Each step
is stated once for both of its outcomes, and the loops inherit it.
-/

namespace JunoMiner

/-- A loop whose every step keeps `holds`, however the step ends, keeps it however the loop
ends. -/
theorem foldlM_holds {α : Type} (holds : Pool → Prop) {f : Pool → α → Except Pool Pool}
    (step : ∀ pool item, holds pool → holds (finish (f pool item)).2) :
    ∀ (items : List α) (pool : Pool), holds pool → holds (finish (items.foldlM f pool)).2
  | [], _, start => start
  | item :: rest, pool, start => by
    have stepped := step pool item start
    rw [List.foldlM_cons]
    cases result : f pool item with
    | error stopped => simpa [result, finish] using stepped
    | ok next => exact foldlM_holds holds step rest next (by simpa [result, finish] using stepped)

@[simp] theorem except_ok_bind {ε α β : Type} (value : α) (next : α → Except ε β) :
    (Except.ok value >>= next) = next value := rfl

@[simp] theorem except_error_bind {ε α β : Type} (error : ε) (next : α → Except ε β) :
    (Except.error error >>= next) = Except.error error := rfl

/-- A loop over `0 .. count - 1` that ends normally has taken every step normally, so a fact
about the steps taken so far that each normal step carries on holds at its end. -/
theorem foldlM_range_ok {f : Pool → Nat → Except Pool Pool} (holds : Nat → Pool → Prop)
    {count : Nat}
    (step : ∀ index pool next, index < count → holds index pool → f pool index = .ok next →
      holds (index + 1) next) :
    ∀ {pool final : Pool}, holds 0 pool → (List.range count).foldlM f pool = .ok final →
      holds count final := by
  induction count with
  | zero =>
    intro pool final start ran
    cases ran
    exact start
  | succ count induction =>
    intro pool final start ran
    rw [List.range_succ, List.foldlM_append] at ran
    cases first : (List.range count).foldlM f pool with
    | error stopped => simp [first] at ran
    | ok middle =>
      simp only [first, List.foldlM_cons, List.foldlM_nil, bind_pure] at ran
      exact step count middle final (by omega)
        (induction (fun index pool next inside => step index pool next (by omega)) start first) ran

/-- A loop over `0 .. count - 1`, however it ends, ends in a state that a fact about the steps
taken so far describes, if every step carries the fact on however the step ends. -/
theorem foldlM_range_holds {f : Pool → Nat → Except Pool Pool} (holds : Nat → Pool → Prop)
    {count : Nat}
    (step : ∀ index pool, index < count → holds index pool →
      holds (index + 1) (finish (f pool index)).2) :
    ∀ {pool : Pool}, holds 0 pool →
      ∃ index ≤ count, holds index (finish ((List.range count).foldlM f pool)).2 := by
  intro pool start
  have stronger : ∀ count' ≤ count, match (List.range count').foldlM f pool with
      | .ok final => holds count' final
      | .error stopped => ∃ index ≤ count', holds index stopped := by
    intro count' within
    induction count' with
    | zero => exact start
    | succ count' induction =>
      rw [List.range_succ, List.foldlM_append]
      have before := induction (by omega)
      cases first : (List.range count').foldlM f pool with
      | error stopped =>
        simp only [first] at before
        obtain ⟨index, below, holding⟩ := before
        exact ⟨index, by omega, holding⟩
      | ok middle =>
        simp only [first] at before
        have stepped := step count' middle (by omega) before
        simp only [List.foldlM_cons, List.foldlM_nil, bind_pure, except_ok_bind]
        cases result : f middle count' with
        | ok next => simpa [result, finish] using stepped
        | error stopped => exact ⟨count' + 1, le_rfl, by simpa [result, finish] using stepped⟩
  have ended := stronger count le_rfl
  cases result : (List.range count).foldlM f pool with
  | ok final => exact ⟨count, le_rfl, by simpa [result, finish] using ended⟩
  | error stopped =>
    simp only [result] at ended
    obtain ⟨index, below, holding⟩ := ended
    exact ⟨index, below, by simpa [finish] using holding⟩

namespace Pool

/-- `after` has the configuration of `before`: thread count, mode, seed, placement, hardware
concurrency and the number of nodes. -/
structure KeepsConfig (after before : Pool) : Prop where
  numThreads : after.numThreads = before.numThreads
  fastMode : after.fastMode = before.fastMode
  currentSeedHash : after.currentSeedHash = before.currentSeedHash
  threadToNode : after.threadToNode = before.threadToNode
  numaAvailable : after.numaAvailable = before.numaAvailable
  numNumaNodes : after.numNumaNodes = before.numNumaNodes
  hardwareConcurrency : after.hardwareConcurrency = before.hardwareConcurrency
  nodeCount : after.numaNodes.length = before.numaNodes.length

variable {pool : Pool}

theorem KeepsConfig.refl (pool : Pool) : pool.KeepsConfig pool :=
  ⟨rfl, rfl, rfl, rfl, rfl, rfl, rfl, rfl⟩

theorem KeepsConfig.trans {middle after : Pool} (second : after.KeepsConfig middle)
    (first : middle.KeepsConfig pool) : after.KeepsConfig pool :=
  ⟨second.1.trans first.1, second.2.trans first.2, second.3.trans first.3,
    second.4.trans first.4, second.5.trans first.5, second.6.trans first.6,
    second.7.trans first.7, second.8.trans first.8⟩

theorem finish_ite_throw (condition : Prop) [Decidable condition] (pool : Pool) :
    (finish (if condition then throw pool else pure pool)).2 = pool := by
  split <;> rfl

/-- Where `putNodeVm` leaves the pool, whether the VM is null or not. -/
theorem putNodeVm_outcome (node cache index : Nat) :
    (finish (pool.putNodeVm node cache index)).2 =
      { pool.setNode node (fun n =>
          { n with vms := n.vms.set index (pool.rx.createVm (some cache) none).1 }) with
        rx := (pool.rx.createVm (some cache) none).2 } := by
  unfold putNodeVm
  split
  simp only [finish_ite_throw, *]

/-- Where `putLegacyVm` leaves the pool, whether the VM is null or not. -/
theorem putLegacyVm_outcome (cache dataset : Option Nat) (index : Nat) :
    (finish (pool.putLegacyVm cache dataset index)).2 =
      { pool with
        rx := (pool.rx.createVm cache dataset).2
        legacyVms := pool.legacyVms.set index (pool.rx.createVm cache dataset).1 } := by
  unfold putLegacyVm
  split
  simp only [finish_ite_throw, *]

theorem putNodeVm_keepsConfig (node cache index : Nat) :
    (finish (pool.putNodeVm node cache index)).2.KeepsConfig pool := by
  rw [putNodeVm_outcome]
  exact ⟨rfl, rfl, rfl, rfl, rfl, rfl, rfl, List.length_modify _ _ _⟩

theorem putLegacyVm_keepsConfig (cache dataset : Option Nat) (index : Nat) :
    (finish (pool.putLegacyVm cache dataset index)).2.KeepsConfig pool := by
  rw [putLegacyVm_outcome]
  exact ⟨rfl, rfl, rfl, rfl, rfl, rfl, rfl, rfl⟩

theorem setupDataset_keepsConfig (cache : Nat) :
    (finish (pool.setupDataset cache)).2.KeepsConfig pool := by
  unfold setupDataset
  split
  rename_i dataset _ _
  cases dataset <;> exact ⟨rfl, rfl, rfl, rfl, rfl, rfl, rfl, rfl⟩

theorem setupNode_keepsConfig (seedHash : Bytes) (count node : Nat) :
    (finish (pool.setupNode seedHash count node)).2.KeepsConfig pool := by
  unfold setupNode
  split
  · exact KeepsConfig.refl _
  · split
    rename_i cache _ _
    cases cache
    · exact ⟨rfl, rfl, rfl, rfl, rfl, rfl, rfl, List.length_modify _ _ _⟩
    · exact foldlM_holds (·.KeepsConfig pool)
        (fun _ _ kept => (putNodeVm_keepsConfig _ _ _).trans kept) _ _
        ⟨rfl, rfl, rfl, rfl, rfl, rfl, rfl,
          (List.length_modify _ _ _).trans (List.length_modify _ _ _)⟩

theorem setupNumaNodes_keepsConfig (seedHash : Bytes) :
    (finish (pool.setupNumaNodes seedHash)).2.KeepsConfig pool := by
  unfold setupNumaNodes
  exact foldlM_holds (·.KeepsConfig pool)
    (fun _ _ kept => (setupNode_keepsConfig _ _ _).trans kept) _ _ (.refl _)

theorem createLegacyVms_keepsConfig : (finish pool.createLegacyVms).2.KeepsConfig pool := by
  unfold createLegacyVms
  exact foldlM_holds (·.KeepsConfig pool)
    (fun _ _ kept => (putLegacyVm_keepsConfig _ _ _).trans kept) _ _
    ⟨rfl, rfl, rfl, rfl, rfl, rfl, rfl, rfl⟩

theorem recreateNodeVm_keepsConfig (node cache index : Nat) :
    (finish (pool.recreateNodeVm node cache index)).2.KeepsConfig pool := by
  unfold recreateNodeVm
  exact (putNodeVm_keepsConfig _ _ _).trans ⟨rfl, rfl, rfl, rfl, rfl, rfl, rfl, rfl⟩

theorem recreateLegacyVm_keepsConfig (index : Nat) :
    (finish (pool.recreateLegacyVm index)).2.KeepsConfig pool := by
  unfold recreateLegacyVm
  exact (putLegacyVm_keepsConfig _ _ _).trans ⟨rfl, rfl, rfl, rfl, rfl, rfl, rfl, rfl⟩

theorem reseedNode_keepsConfig (seedHash : Bytes) (node : Nat) :
    (finish (pool.reseedNode seedHash node)).2.KeepsConfig pool := by
  unfold reseedNode
  split
  · exact KeepsConfig.refl _
  · exact foldlM_holds (·.KeepsConfig pool)
      (fun _ _ kept => (recreateNodeVm_keepsConfig _ _ _).trans kept) _ _
      ⟨rfl, rfl, rfl, rfl, rfl, rfl, rfl, rfl⟩

/-! ## The calls that set the seed -/

/-- A step followed by another keeps what both keep. -/
theorem finish_bind_holds {first : Except Pool Pool} {next : Pool → Except Pool Pool}
    (holds : Pool → Prop) (first_holds : holds (finish first).2)
    (next_holds : ∀ middle, first = .ok middle → holds middle →
      holds (finish (next middle)).2) :
    holds (finish (first >>= next)).2 := by
  cases result : first with
  | error stopped => simpa [result, finish] using first_holds
  | ok middle => exact next_holds middle result (by simpa [result, finish] using first_holds)

/-- The last block of `initialize`, on either path. -/
theorem placeVms_keepsConfig (seedHash : Bytes) (numa : Prop) [Decidable numa] :
    (finish (if numa then pool.setupNumaNodes seedHash
      else pool.createLegacyVms)).2.KeepsConfig pool := by
  split
  · exact setupNumaNodes_keepsConfig _
  · exact createLegacyVms_keepsConfig

/-- `initialize` keeps the configuration but the seed, which it sets when it has 32 bytes. -/
theorem initializeSeed_keepsConfig (seedHash : Bytes) :
    (pool.initializeSeed seedHash).2.KeepsConfig
      { pool with
        currentSeedHash := if seedHash.length = 32 then seedHash else pool.currentSeedHash } := by
  unfold initializeSeed
  by_cases size : seedHash.length = 32
  · simp only [size, ne_eq, not_true_eq_false, if_false, if_true, pure_bind]
    rcases pool.rx.allocCache.1 with _ | cache
    · exact ⟨rfl, rfl, rfl, rfl, rfl, rfl, rfl, rfl⟩
    · dsimp only
      split
      · exact finish_bind_holds (·.KeepsConfig _)
          ((setupDataset_keepsConfig _).trans ⟨rfl, rfl, rfl, rfl, rfl, rfl, rfl, rfl⟩)
          fun _ _ kept => (placeVms_keepsConfig _ _).trans kept
      · exact (placeVms_keepsConfig _ _).trans ⟨rfl, rfl, rfl, rfl, rfl, rfl, rfl, rfl⟩
  · simp only [size, ne_eq, not_false_eq_true, if_true, if_false]
    exact ⟨rfl, rfl, rfl, rfl, rfl, rfl, rfl, rfl⟩

theorem initializeSeed_seed (seedHash : Bytes) :
    (pool.initializeSeed seedHash).2.currentSeedHash =
      if seedHash.length = 32 then seedHash else pool.currentSeedHash :=
  (initializeSeed_keepsConfig seedHash).currentSeedHash

/-- A successful `initialize` leaves the pool on its seed. -/
theorem initializeSeed_succeeded_seed (seedHash : Bytes)
    (succeeded : (pool.initializeSeed seedHash).1 = true) :
    (pool.initializeSeed seedHash).2.currentSeedHash = seedHash := by
  by_cases size : seedHash.length = 32
  · rw [initializeSeed_seed, if_pos size]
  · simp only [initializeSeed, ne_eq, size, not_false_eq_true, if_true] at succeeded
    cases succeeded

/-- `update_seed` returns `true` at once only on the pool's own seed. -/
theorem updateSeedShortcut_true {seedHash : Bytes}
    (shortcut : pool.updateSeedShortcut seedHash = some true) :
    pool.currentSeedHash = seedHash := by
  unfold updateSeedShortcut at shortcut
  split_ifs at shortcut with size same
  · cases shortcut
  · exact same.symm

/-- A successful re-key leaves the pool on the new seed. -/
theorem reseed_seed (seedHash : Bytes) (succeeded : (pool.reseed seedHash).1 = true) :
    (pool.reseed seedHash).2.currentSeedHash = seedHash := by
  revert succeeded
  unfold reseed
  split
  · intro _
    exact (foldlM_holds (·.KeepsConfig _) (fun _ _ kept => (reseedNode_keepsConfig _ _).trans kept)
      _ _ (.refl _)).currentSeedHash
  · split
    · dsimp only
      split
      · intro _
        rfl
      · intro _
        exact (foldlM_holds (·.KeepsConfig _)
          (fun _ _ kept => (recreateLegacyVm_keepsConfig _).trans kept) _ _
          (.refl _)).currentSeedHash
    · simp [finish]

/-- A successful `update_seed` leaves the pool on the new seed, also when it had it already. -/
theorem updateSeed_seed (seedHash : Bytes) (succeeded : (pool.updateSeed seedHash).1 = true) :
    (pool.updateSeed seedHash).2.currentSeedHash = seedHash := by
  revert succeeded
  unfold updateSeed updateSeedShortcut
  by_cases size : seedHash.length = 32
  · by_cases same : seedHash = pool.currentSeedHash
    · subst same
      simp [size]
    · simpa [size, same] using reseed_seed seedHash
  · simp [size]

theorem releaseAll_seed : pool.releaseAll.currentSeedHash = pool.currentSeedHash := by
  unfold releaseAll
  split <;> rfl

/-- Re-placing the workers keeps the seed: `initialize` runs again with the saved one. -/
theorem rebuild_seed (newThreadCount : Nat) {result : Bool × Pool}
    (rebuilt : pool.rebuild newThreadCount = some result) :
    result.2.currentSeedHash = pool.currentSeedHash := by
  unfold rebuild at rebuilt
  obtain ⟨placed, isPlaced, rfl⟩ := Option.map_eq_some'.mp rebuilt
  have placedSeed : placed.currentSeedHash = pool.currentSeedHash := by
    split at isPlaced
    · obtain ⟨_, _, rfl⟩ := Option.map_eq_some'.mp isPlaced
      exact releaseAll_seed
    · cases isPlaced
      exact releaseAll_seed
  split
  · rw [initializeSeed_seed]
    split <;> simp only [placedSeed]
  · exact placedSeed

end Pool

end JunoMiner
