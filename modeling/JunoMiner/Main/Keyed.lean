import JunoMiner.Main.Seeds
import JunoMiner.Pool.Keyed

/-!
# The pool across the miner's calls

Only the rest of `update_seed` and `set_thread_count` changes the RandomX state manager, each past
the checks its call made before `stop()`, and then as `Pool.updateSeed` and `Pool.setThreadCount`
do; `start_mining`, `stop`, `get_solution` and the workers leave it alone. So every pool the
process holds is reachable (`Pool.Reachable`), hence well formed, and the VMs a successful
`initialize` keys stay keyed through every call that succeeds.
-/

namespace JunoMiner

namespace Engine

/-- The checks a call makes on the pool before its `stop()` have let it through. -/
def Passed (pool : Pool) : Call → Prop
  | .updateSeed seedHash => pool.updateSeedShortcut seedHash = none
  | .setThreadCount count => pool.setThreadCountShortcut count = none
  | _ => True

/-- The pool is one the miner's calls reach, and a call waiting in its `stop()` has passed its
checks on it. -/
structure PoolReachable (engine : Engine) : Prop where
  reachable : engine.pool.Reachable
  passed : ∀ request, engine.control = .joining request → Passed engine.pool request

variable {engine next : Engine}

theorem poolReachable_create {pool : Pool} (reachable : pool.Reachable) :
    (create pool).PoolReachable :=
  ⟨reachable, fun _ joining => nomatch joining⟩

theorem PoolReachable.transfer (reachable : engine.PoolReachable) (pool : next.pool = engine.pool)
    (control : next.control = engine.control) : next.PoolReachable :=
  ⟨pool ▸ reachable.reachable, fun request joining => pool ▸ reachable.passed request
    (control ▸ joining)⟩

/-! ## Each step -/

/-- Past its checks, `update_seed` goes on as `Pool.updateSeed`. -/
theorem updateSeed_of_passed {pool : Pool} {seedHash : Bytes}
    (passed : Passed pool (.updateSeed seedHash)) :
    pool.updateSeed seedHash = pool.reseed seedHash := by
  simp only [Pool.updateSeed, show pool.updateSeedShortcut seedHash = none from passed]

/-- Past its checks, `set_thread_count` goes on as `Pool.setThreadCount`. -/
theorem setThreadCount_of_passed {pool : Pool} {count : Nat}
    (passed : Passed pool (.setThreadCount count)) :
    pool.setThreadCount count = pool.rebuild count := by
  simp only [Pool.setThreadCount, show pool.setThreadCountShortcut count = none from passed]

/-- The rest of a call that has passed its checks leaves a reachable pool and returns. -/
theorem finishCall_poolReachable {request : Call} (finished : engine.finishCall request = some next)
    (reachable : engine.pool.Reachable) (passed : Passed engine.pool request) :
    next.PoolReachable := by
  cases request with
  | startMining template => cases finished; exact ⟨reachable, fun _ joining => nomatch joining⟩
  | stop => cases finished; exact ⟨reachable, fun _ joining => nomatch joining⟩
  | getSolution => cases finished; exact ⟨reachable, fun _ joining => nomatch joining⟩
  | updateSeed seedHash =>
    cases finished
    have reached := reachable.updated seedHash
    rw [updateSeed_of_passed passed] at reached
    exact ⟨reached, fun _ joining => nomatch joining⟩
  | setThreadCount count =>
    obtain ⟨result, rebuilt, rfl⟩ := Option.map_eq_some'.mp finished
    exact ⟨reachable.rethreaded count ((setThreadCount_of_passed passed).trans rebuilt),
      fun _ joining => nomatch joining⟩

theorem beginStop_poolReachable {request : Call} (reachable : engine.pool.Reachable)
    (passed : Passed engine.pool request) : (engine.beginStop request).PoolReachable :=
  ⟨reachable, fun _ joining => Control.joining.inj joining ▸ passed⟩

/-- A call keeps the pool reachable: it returns at its checks, starts its `stop()` past them, or
goes on at once. -/
theorem call_poolReachable {request : Call} (reachable : engine.PoolReachable)
    (called : engine.call request = some next) : next.PoolReachable := by
  cases request with
  | startMining template => cases called; exact beginStop_poolReachable reachable.reachable trivial
  | stop => cases called; exact beginStop_poolReachable reachable.reachable trivial
  | getSolution =>
    simp only [call] at called
    split at called
    · cases called; exact beginStop_poolReachable reachable.reachable trivial
    · exact finishCall_poolReachable called reachable.reachable trivial
  | updateSeed seedHash =>
    simp only [call] at called
    split at called
    · cases called; exact reachable.transfer rfl rfl
    · rename_i past
      split at called
      · cases called; exact beginStop_poolReachable reachable.reachable past
      · exact finishCall_poolReachable called reachable.reachable past
  | setThreadCount count =>
    simp only [call] at called
    split at called
    · cases called; exact reachable.transfer rfl rfl
    · rename_i past
      split at called
      · cases called; exact beginStop_poolReachable reachable.reachable past
      · exact finishCall_poolReachable called reachable.reachable past

theorem join_poolReachable (reachable : engine.PoolReachable) (joined : engine.join = some next) :
    next.PoolReachable := by
  obtain ⟨request, joining, -, finished⟩ := join_cases joined
  exact finishCall_poolReachable finished reachable.reachable (reachable.passed request joining)

theorem step_poolReachable {calculateHash : Bytes → Bytes} {action : Action}
    (reachable : engine.PoolReachable) (stepped : engine.step calculateHash action = some next) :
    next.PoolReachable := by
  cases action with
  | worker =>
    obtain ⟨pool, control, -⟩ := workerStep_frame stepped
    exact reachable.transfer pool control
  | call request =>
    simp only [step] at stepped
    split at stepped
    · exact call_poolReachable reachable stepped
    · cases stepped
  | join => exact join_poolReachable reachable stepped

/-! ## Keyed VMs across the calls -/

/-- `start_mining`, `stop` and `get_solution` leave the pool alone, from their start and after
their `stop()`. -/
theorem sessionCall_pool {request : Call} (session : request = .stop ∨ request = .getSolution ∨
      ∃ template, request = .startMining template) :
    (∀ next, engine.call request = some next → next.pool = engine.pool) ∧
      ∀ next, engine.finishCall request = some next → next.pool = engine.pool := by
  rcases session with rfl | rfl | ⟨template, rfl⟩
  · exact ⟨fun _ called => by cases called; rfl, fun _ finished => by cases finished; rfl⟩
  · refine ⟨fun _ called => ?_, fun _ finished => by cases finished; rfl⟩
    simp only [call] at called
    split at called <;> cases called <;> rfl
  · exact ⟨fun _ called => by cases called; rfl, fun _ finished => by cases finished; rfl⟩

/-- A successful `initialize(s)` keys every worker's VM: each worker has its own live VM, bound to
a cache or dataset last initialized with `s`. From a reachable pool where that holds, every call
that succeeds keeps it: `update_seed(s)`, after which the seed is `s`; `set_thread_count(n)`, after
which there are `n` workers on the same seed; and `start_mining`, `stop` and `get_solution`. -/
theorem keyed_across_successful_calls :
    (∀ {topology : Topology} {numThreads : Nat} {fastMode : Bool} {hardwareConcurrency : Nat}
        {rx : RandomX} {pool : Pool} {seedHash : Bytes}, rx.Sane →
      Pool.construct topology numThreads fastMode hardwareConcurrency rx = some pool →
      (pool.initializeSeed seedHash).1 = true →
      (pool.initializeSeed seedHash).2.Keyed ∧
        (pool.initializeSeed seedHash).2.currentSeedHash = seedHash) ∧
    (∀ {pool : Pool}, pool.Reachable → pool.Keyed →
      (∀ seedHash, (pool.updateSeed seedHash).1 = true →
        (pool.updateSeed seedHash).2.Keyed ∧
          (pool.updateSeed seedHash).2.currentSeedHash = seedHash) ∧
      ∀ newThreadCount after, pool.setThreadCount newThreadCount = some (true, after) →
        after.Keyed ∧ after.numThreads = newThreadCount ∧
          after.currentSeedHash = pool.currentSeedHash) ∧
    ∀ {engine next : Engine} {request : Call},
      (request = .stop ∨ request = .getSolution ∨ ∃ template, request = .startMining template) →
      engine.pool.Keyed → (engine.call request = some next ∨ engine.finishCall request = some next) →
      next.pool.Keyed := by
  refine ⟨fun sane constructed succeeded =>
      ⟨Pool.initializeSeed_keyed (Pool.construct_fresh sane constructed) succeeded,
        Pool.initializeSeed_succeeded_seed _ succeeded⟩,
    fun reachable keyed => ⟨fun seedHash succeeded =>
      ⟨Pool.updateSeed_keyed reachable.wellFormed keyed succeeded,
        Pool.updateSeed_seed seedHash succeeded⟩,
      fun _ _ changed => Pool.setThreadCount_keyed reachable.wellFormed keyed changed⟩,
    fun session keyed stepped => ?_⟩
  obtain ⟨called, finished⟩ := sessionCall_pool session
  rcases stepped with stepped | stepped
  · exact called _ stepped ▸ keyed
  · exact finished _ stepped ▸ keyed

/-- `sampleLightPool` after `initialize` on the zero seed. -/
def sampleKeyedPool : Pool := (sampleLightPool.initializeSeed (List.replicate 32 0)).2

theorem keyed_across_successful_calls_on_two_light_workers :
    (sampleKeyedPool.Keyed ∧ sampleKeyedPool.currentSeedHash = List.replicate 32 0) ∧
    ((sampleKeyedPool.updateSeed (List.replicate 32 1)).2.Keyed ∧
      (sampleKeyedPool.updateSeed (List.replicate 32 1)).2.currentSeedHash =
        List.replicate 32 1) ∧
    (((sampleKeyedPool.setThreadCount 3).getD (false, sampleKeyedPool)).2.Keyed ∧
      ((sampleKeyedPool.setThreadCount 3).getD (false, sampleKeyedPool)).2.numThreads = 3 ∧
      ((sampleKeyedPool.setThreadCount 3).getD (false, sampleKeyedPool)).2.currentSeedHash =
        sampleKeyedPool.currentSeedHash) ∧
    ((create sampleKeyedPool).beginStop .stop).pool.Keyed := by
  have constructed : Pool.construct ⟨false, 1, 2, fun _ => none⟩ 2 false 2
      (RandomX.fresh (fun _ => false) 1) = some sampleLightPool := rfl
  have initialized : (sampleLightPool.initializeSeed (List.replicate 32 0)).1 = true := by decide
  have keyed := keyed_across_successful_calls.1 (RandomX.sane_fresh _ _) constructed initialized
  have later := keyed_across_successful_calls.2.1
    (.initialized (RandomX.sane_fresh _ _) constructed initialized) keyed.1
  exact ⟨keyed, later.1 _ (by decide), later.2 _ _ rfl,
    keyed_across_successful_calls.2.2 (.inl rfl) keyed.1 (.inl rfl)⟩

end Engine

namespace System

variable {calculateHash : Bytes → Bytes}

/-- A step of the process keeps the miner's pool reachable. -/
theorem step_poolReachable {system next : System} {event : Event}
    (reachable : system.engine.PoolReachable)
    (stepped : system.step calculateHash event = some next) :
    next.engine.PoolReachable := by
  rcases step_engine calculateHash stepped with same | ⟨_, stepped⟩
  · exact same ▸ reachable
  · exact Engine.step_poolReachable reachable stepped

/-- Every pool the process holds is one the miner's calls reach from a successful `initialize`,
and so is well formed: at every point of every run from `boot`. -/
theorem pool_reachable {config : Config} (sane : config.rx.Sane)
    {chainInfo initialTemplate : Option Json} {start final : System} {events : List Event}
    (booted : boot config chainInfo initialTemplate = .ok start)
    (ran : start.run calculateHash events = some final) :
    final.engine.PoolReachable ∧ final.engine.pool.WellFormed := by
  obtain ⟨_, _, _, -, -, constructed, initialized, rfl⟩ := boot_ok booted
  have reached := run_invariant calculateHash (fun system => system.engine.PoolReachable)
    step_poolReachable (Engine.poolReachable_create (.initialized sane constructed initialized)) ran
  exact ⟨reached, reached.reachable.wellFormed⟩

/-- One light worker: after `boot` and the start of the first session, the pool is reachable and
well formed. -/
theorem pool_reachable_after_first_session :
    (lightConfig 1 fun _ => false).rx.Sane ∧
      ∃ final, boot (lightConfig 1 fun _ => false) (some (chainReply 4))
          (some (templateReply 5 (List.replicate 64 48))) = .ok sampleStart ∧
        sampleStart.run (fun _ => List.replicate 32 0)
          [.main ⟨some (templateReply 5 (List.replicate 64 48)), ' ', 0, false, none⟩, .join] =
          some final ∧
        final.engine.PoolReachable ∧ final.engine.pool.WellFormed :=
  have sane : (lightConfig 1 fun _ => false).rx.Sane := RandomX.sane_fresh _ _
  have booted : boot (lightConfig 1 fun _ => false) (some (chainReply 4))
      (some (templateReply 5 (List.replicate 64 48))) = .ok sampleStart := rfl
  ⟨sane, _, booted, rfl, @pool_reachable (fun _ => List.replicate 32 0) _ sane _ _ _ _
    [.main ⟨some (templateReply 5 (List.replicate 64 48)), ' ', 0, false, none⟩, .join] booted rfl⟩

end System

end JunoMiner
