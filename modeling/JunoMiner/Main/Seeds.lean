import JunoMiner.Main.Basic
import JunoMiner.Pool.Frame
import JunoMiner.Engine.Session

/-!
# `main`'s seed and the pool's

`main` keeps the pool's seed in `current_seed_hash` and compares each template's seed with it to
decide whether to call `update_seed`. The two agree at every point of every run but one: between
`update_seed` and the assignment after it, where the pool has the template's seed once
`update_seed` has returned `true`. So every `start_mining(t)` is made with `t.seed_hash` equal to
both, and no session starts on a pool keyed to another seed.
-/

namespace JunoMiner

namespace Engine

variable {engine next : Engine}

/-- A worker's step leaves the pool, the control thread and its reply alone. -/
theorem workerStep_frame {calculateHash : Bytes → Bytes} {thread : Nat} {random : Bytes}
    (stepped : engine.workerStep calculateHash thread random = some next) :
    next.pool = engine.pool ∧ next.control = engine.control ∧ next.reply = engine.reply := by
  obtain ⟨_, _, _, moved⟩ := workerStep_cases stepped
  rcases moved with ⟨_, _, _, _, rfl⟩ | ⟨_, _, rfl⟩ | ⟨_, rfl⟩ | ⟨_, rfl⟩ <;>
    exact ⟨rfl, rfl, rfl⟩

/-- The rest of any call but `update_seed` keeps the pool's seed and returns. -/
theorem finishCall_seed {request : Call} (other : ∀ seedHash, request ≠ .updateSeed seedHash)
    (finished : engine.finishCall request = some next) :
    next.pool.currentSeedHash = engine.pool.currentSeedHash ∧ next.control = .idle := by
  cases request with
  | updateSeed seedHash => exact absurd rfl (other seedHash)
  | setThreadCount count =>
    obtain ⟨⟨_, _⟩, rebuilt, rfl⟩ := Option.map_eq_some'.mp finished
    exact ⟨Pool.rebuild_seed count rebuilt, rfl⟩
  | _ => cases finished; exact ⟨rfl, rfl⟩

/-- The rest of `update_seed(s)` returns, on `s` when it returns `true`. -/
theorem finishCall_updateSeed {seedHash : Bytes}
    (finished : engine.finishCall (.updateSeed seedHash) = some next) :
    next.control = .idle ∧
      (next.reply = .flag true → next.pool.currentSeedHash = seedHash) := by
  cases finished
  exact ⟨rfl, fun replied => Pool.reseed_seed seedHash (Reply.flag.inj replied)⟩

/-- A routine call, made between calls, keeps the pool's seed and leaves no `update_seed`
waiting. -/
theorem call_seed {request : Call} (routine : request.Routine) (idle : engine.control = .idle)
    (called : engine.call request = some next) :
    next.pool.currentSeedHash = engine.pool.currentSeedHash ∧
      ∀ seedHash, next.control ≠ .joining (.updateSeed seedHash) := by
  have other : ∀ seedHash, request ≠ .updateSeed seedHash := by rintro _ rfl; exact routine
  have returned (finished : engine.finishCall request = some next) :
      next.pool.currentSeedHash = engine.pool.currentSeedHash ∧
        ∀ seedHash, next.control ≠ .joining (.updateSeed seedHash) := by
    obtain ⟨kept, idle⟩ := finishCall_seed other finished
    exact ⟨kept, fun _ => by simp [idle]⟩
  have stopping (stops : engine.beginStop request = next) :
      next.pool.currentSeedHash = engine.pool.currentSeedHash ∧
        ∀ seedHash, next.control ≠ .joining (.updateSeed seedHash) :=
    stops ▸ ⟨rfl, fun seedHash joining => other seedHash (Control.joining.inj joining)⟩
  cases request with
  | startMining _ | updateSeed _ => exact routine.elim
  | stop => exact stopping (Option.some.inj called)
  | getSolution =>
    simp only [Engine.call] at called
    split at called
    · exact stopping (Option.some.inj called)
    · exact returned called
  | setThreadCount count =>
    simp only [Engine.call] at called
    split at called
    · cases called
      exact ⟨rfl, by simp [idle]⟩
    · split at called
      · exact stopping (Option.some.inj called)
      · exact returned called

/-- `update_seed(s)`, made between calls, either waits in its `stop()` or has returned, on `s`
when it returned `true`. -/
theorem call_updateSeed {seedHash : Bytes} (idle : engine.control = .idle)
    (called : engine.call (.updateSeed seedHash) = some next) :
    next.control = .joining (.updateSeed seedHash) ∨
      next.control = .idle ∧
        (next.reply = .flag true → next.pool.currentSeedHash = seedHash) := by
  simp only [Engine.call] at called
  split at called
  · rename_i shortcut
    cases called
    refine .inr ⟨idle, fun replied => ?_⟩
    cases Reply.flag.inj replied
    exact Pool.updateSeedShortcut_true shortcut
  · split at called
    · cases called
      exact .inl rfl
    · exact .inr (finishCall_updateSeed called)

end Engine

namespace Main

variable {main : Main} {reply : Reply}

/-- `main`'s seed agrees with the pool's `poolSeed`, given the miner's `control` and `reply`. -/
structure SeedsAgree (main : Main) (poolSeed : Bytes) (control : Control) (reply : Reply) :
    Prop where
  /-- Away from an epoch change, `main`'s seed is the pool's and no `update_seed` waits. -/
  agree : main.stage.live = true → main.stage ≠ .seedUpdated →
    main.currentSeedHash = poolSeed ∧ ∀ seedHash, control ≠ .joining (.updateSeed seedHash)
  /-- During one, `update_seed` on the template's seed waits in its `stop()`, or has returned, and
  the pool has the template's seed if it returned `true`. -/
  updating : main.stage = .seedUpdated →
    control = .joining (.updateSeed main.template.seedHash) ∨
      control = .idle ∧ (reply = .flag true → poolSeed = main.template.seedHash)

theorem SeedsAgree.ended {poolSeed : Bytes} {control : Control} (ended : main.stage.live = false) :
    main.SeedsAgree poolSeed control reply :=
  ⟨fun live => absurd live (by simp [ended]),
    fun updating => by simp [updating, Stage.live] at ended⟩

/-- A session started on `main`'s seed, the pool's. -/
theorem SeedsAgree.starting {after : Main} {engine : Engine} {template : BlockTemplate}
    (starts : after.stage = .inner) (seed : after.currentSeedHash = engine.pool.currentSeedHash) :
    after.SeedsAgree engine.pool.currentSeedHash (engine.beginStop (.startMining template)).control
      (engine.beginStop (.startMining template)).reply :=
  ⟨fun _ _ => ⟨seed, fun _ joining => by simp [Engine.beginStop] at joining⟩,
    fun same => by simp [starts] at same⟩

/-- The join of a `stop()` keeps the agreement. -/
theorem SeedsAgree.finishCall {engine next : Engine} {poolSeed : Bytes} {request : Call}
    (agrees : main.SeedsAgree poolSeed (.joining request) reply)
    (finished : engine.finishCall request = some next)
    (pool : engine.pool.currentSeedHash = poolSeed) :
    main.SeedsAgree next.pool.currentSeedHash next.control next.reply := by
  by_cases updating : main.stage = .seedUpdated
  · rcases agrees.updating updating with joining | ⟨idle, -⟩
    · cases joining
      exact ⟨fun _ other => absurd updating other,
        fun _ => .inr (Engine.finishCall_updateSeed finished)⟩
    · cases idle
  · cases live : main.stage.live
    · exact .ended live
    · obtain ⟨seed, other⟩ := agrees.agree live updating
      obtain ⟨kept, idle⟩ :=
        Engine.finishCall_seed (fun seedHash same => other seedHash (same ▸ rfl)) finished
      exact ⟨fun _ _ => ⟨seed.trans (pool ▸ kept.symm), by simp [idle]⟩,
        fun same => absurd same updating⟩

end Main

namespace System

/-- The agreement in a state of the process. -/
def SeedsAgree (system : System) : Prop :=
  system.main.SeedsAgree system.engine.pool.currentSeedHash system.engine.control
    system.engine.reply

variable {calculateHash : Bytes → Bytes} {system next : System}

theorem seedsAgree_boot {config : Config} {chainInfo initialTemplate : Option Json}
    (booted : boot config chainInfo initialTemplate = .ok system) : system.SeedsAgree := by
  obtain ⟨_, template, pool, -, -, -, initialized, rfl⟩ := boot_ok booted
  exact ⟨fun _ _ => ⟨(Pool.initializeSeed_succeeded_seed _ initialized).symm, nofun⟩, nofun⟩

/-- A step of `main`, made between calls, keeps the agreement. -/
theorem SeedsAgree.main {input : Input} (agrees : system.SeedsAgree)
    (stepped : system.step calculateHash (.main input) = some next) : next.SeedsAgree := by
  simp only [step] at stepped
  split at stepped
  case isFalse => cases stepped
  rename_i ready
  obtain ⟨idle, live⟩ := ready
  have before (stage : system.main.stage ≠ .seedUpdated) :=
    (agrees.agree live stage).1
  have move := system.main.advance_move system.engine.mining system.running system.engine.reply
    input
  generalize system.main.advance _ _ _ _ = result at stepped move
  cases move with
  | retry outer stays keeps =>
    cases stepped
    exact ⟨fun _ _ => ⟨keeps.seed.trans (before (by simp [outer])), by simp [idle]⟩,
      fun same => by simp [stays] at same⟩
  | @routine after request _ stage stays keeps calls =>
    cases request with
    | none =>
      cases stepped
      exact ⟨fun _ _ => ⟨keeps.seed.trans (before stage), by simp [idle]⟩,
        fun same => absurd same stays⟩
    | some request =>
      cases stepped
      split
      · rename_i engine called
        obtain ⟨kept, other⟩ := Engine.call_seed (calls request rfl) idle called
        exact ⟨fun _ _ => ⟨keeps.seed.trans ((before stage).trans kept.symm), other⟩,
          fun same => absurd same stays⟩
      · exact .ended rfl
  | update _ updating =>
    cases stepped
    split
    · rename_i engine called
      exact ⟨fun _ other => absurd updating other, fun _ => Engine.call_updateSeed idle called⟩
    · exact .ended rfl
  | start outer starts seed =>
    cases stepped
    split
    · rename_i engine called
      cases called
      exact .starting starts (seed.trans (before (by simp [outer])))
    · exact .ended rfl
  | adopt updating replied starts keeps =>
    cases stepped
    split
    · rename_i engine called
      cases called
      rcases agrees.updating updating with joining | ⟨-, keyedPool⟩
      · simp [idle] at joining
      · exact .starting starts (keeps.seed.trans (keyedPool replied).symm)
    · exact .ended rfl
  | exit ends =>
    cases stepped
    exact .ended ends

/-- Every step keeps the agreement. -/
theorem SeedsAgree.step {event : Event} (agrees : system.SeedsAgree)
    (stepped : system.step calculateHash event = some next) : next.SeedsAgree := by
  cases event with
  | worker thread random =>
    obtain ⟨engine, workerStepped, rfl⟩ := Option.map_eq_some'.mp stepped
    obtain ⟨pool, control, reply⟩ := Engine.workerStep_frame workerStepped
    unfold SeedsAgree
    rw [pool, control, reply]
    exact agrees
  | signal =>
    cases stepped
    exact agrees
  | join =>
    simp only [System.step] at stepped
    split at stepped
    · rename_i request joining
      split at stepped
      · cases stepped
        split
        · obtain ⟨_, joining', -, finished⟩ := Engine.join_cases ‹_›
          rw [joining] at joining'
          cases joining'
          unfold SeedsAgree at agrees
          rw [joining] at agrees
          exact agrees.finishCall finished rfl
        · exact .ended rfl
      · cases stepped
    · cases stepped
  | main input => exact agrees.main stepped

/-- The process after `boot` on one light worker, at height 5 on the zero seed. -/
def sampleStart : System :=
  (boot (lightConfig 1 fun _ => false) (some (chainReply 4))
    (some (templateReply 5 (List.replicate 64 48)))).toOption.getD
      ⟨⟨.aborted, 0, [], .empty, false, 0, false⟩, .create Engine.singleVmPool, false⟩

end System

end JunoMiner
