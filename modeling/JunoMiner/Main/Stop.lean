import JunoMiner.Engine.Session
import JunoMiner.Main.Seeds

/-!
# `stop()` returns

`stop()` stores `mining_ = false` and joins every worker. Nothing sets `mining_` again before the
join: only `start_mining` does, after its own `stop()`, and the control thread makes no call while
it waits. A worker that sees `mining_` false at the head of its loop returns; one that has passed
the head finishes its hash, its count and, if the hash meets the target, the exchange, the writes
and the store, and then returns. So each worker takes at most six more steps, none is ever stuck
before it returns, and the join, which waits for all of them, always comes.
-/

namespace JunoMiner

/-- The steps a worker has left once `mining_` is false: back to the loop's head and out, or,
from the `found_` load on, through the hash, the count, the exchange, the writes and the store. -/
def Pc.toStop : Pc → Nat
  | .start => 2
  | .loadMining => 1
  | .loadFound => 6
  | .hashing => 5
  | .counting => 4
  | .claiming => 3
  | .publishing => 2
  | .signalling => 1
  | .done => 0

theorem Pc.toStop_le (pc : Pc) : pc.toStop ≤ 6 := by
  cases pc <;> decide

namespace Engine

variable {engine next : Engine} {calculateHash : Bytes → Bytes}

/-- The worker steps left before every worker has returned. -/
def toStop (engine : Engine) : Nat := (engine.threads.map fun worker => worker.pc.toStop).sum

theorem sum_map_set_lt {α : Type} {f : α → Nat} :
    ∀ {items : List α} {index : Nat} {old new : α}, items[index]? = some old →
      f new < f old → ((items.set index new).map f).sum < (items.map f).sum
  | _ :: _, 0, _, _, lookup, smaller => by
    obtain rfl := Option.some.inj (List.getElem?_cons_zero.symm.trans lookup)
    simp only [List.set_cons_zero, List.map_cons, List.sum_cons]
    omega
  | _ :: _, _ + 1, _, _, lookup, smaller => by
    simp only [List.set_cons_succ, List.map_cons, List.sum_cons]
    exact Nat.add_lt_add_left (sum_map_set_lt (by simpa using lookup) smaller) _

theorem toStop_setWorker {other : Engine} (same : other.threads = engine.threads) {thread : Nat}
    {worker changed : Worker} (lookup : engine.threads[thread]? = some worker)
    (smaller : changed.pc.toStop < worker.pc.toStop) :
    (other.setWorker thread changed).toStop < engine.toStop := by
  simp only [toStop, setWorker_threads, same]
  exact sum_map_set_lt lookup smaller

theorem sum_toStop_le : ∀ workers : List Worker,
    (workers.map fun worker => worker.pc.toStop).sum ≤ 6 * workers.length
  | [] => Nat.le_refl 0
  | worker :: workers => by
    have here := worker.pc.toStop_le
    have later := sum_toStop_le workers
    simp only [List.map_cons, List.sum_cons, List.length_cons]
    omega

theorem toStop_le (engine : Engine) : engine.toStop ≤ 6 * engine.threads.length :=
  sum_toStop_le engine.threads

/-- Once `mining_` is false, every worker step keeps it false, leaves the control thread where it
is, and brings the workers one step closer to returning. -/
theorem workerStep_toStop (stopped : engine.mining = false) {thread : Nat} {random : Bytes}
    (stepped : engine.workerStep calculateHash thread random = some next) :
    next.mining = false ∧ next.control = engine.control ∧ next.toStop < engine.toStop := by
  unfold workerStep at stepped
  split at stepped
  case h_1 => cases stepped
  rename_i worker lookup
  rcases pc : worker.pc <;>
    simp only [pc, stopped, Bool.false_eq_true, ↓reduceIte] at stepped
  all_goals repeat' split at stepped
  all_goals cases stepped
  all_goals exact ⟨by simp [stopped], rfl, toStop_setWorker rfl lookup (by simp [pc, Pc.toStop])⟩

/-- A worker that has not returned can always take its next step. -/
theorem workerStep_isSome {thread : Nat} {worker : Worker}
    (lookup : engine.threads[thread]? = some worker) (running : worker.pc ≠ .done)
    (random : Bytes) : (engine.workerStep calculateHash thread random).isSome := by
  unfold workerStep
  rw [lookup]
  dsimp only
  split
  case h_9 done => exact absurd done running
  all_goals repeat' split
  all_goals rfl

/-- Until every worker has returned, some worker can step. -/
theorem exists_workerStep (calculateHash : Bytes → Bytes) (waiting : engine.allDone = false) :
    ∃ thread, ∀ random, (engine.workerStep calculateHash thread random).isSome := by
  obtain ⟨worker, mem, running⟩ : ∃ worker ∈ engine.threads, worker.pc ≠ .done := by
    simpa [allDone] using waiting
  obtain ⟨thread, lookup⟩ := List.mem_iff_getElem?.mp mem
  exact ⟨thread, workerStep_isSome lookup running⟩

/-- `mining_` is false whenever the control thread is inside a `stop()`. -/
def Stopping (engine : Engine) : Prop := engine.control ≠ .idle → engine.mining = false

theorem Stopping.step (stopping : engine.Stopping) {action : Action}
    (stepped : engine.step calculateHash action = some next) : next.Stopping := by
  cases action with
  | worker thread random =>
    obtain ⟨_, -, -, ⟨_, _, -, -, rfl⟩ | ⟨-, -, rfl⟩ | ⟨-, rfl⟩ | ⟨-, rfl⟩⟩ :=
      workerStep_cases stepped
    all_goals intro busy
    all_goals simp only [setWorker_control, setWorker_mining] at busy ⊢
    all_goals exact stopping busy
  | join =>
    obtain ⟨request, -, -, finished⟩ := join_cases stepped
    intro busy
    cases request with
    | startMining template => cases finished; exact absurd rfl busy
    | _ => exact absurd (finishCall_keeps (by simp) finished).2.1 busy
  | call request =>
    simp only [Engine.step] at stepped
    split at stepped
    case isFalse => cases stepped
    cases request with
    | startMining template => cases stepped; exact fun _ => rfl
    | _ =>
      rcases call_cases (by simp) ‹_› stepped with rfl | ⟨-, idle, -⟩
      · exact fun _ => rfl
      · exact fun busy => absurd idle busy

end Engine

/-- The step is a worker's. -/
def Event.byWorker : Event → Bool
  | .worker _ _ => true
  | _ => false

namespace System

variable {calculateHash : Bytes → Bytes} {system next : System}

theorem stopping_boot {config : Config} {chainInfo initialTemplate : Option Json}
    (booted : boot config chainInfo initialTemplate = .ok system) : system.engine.Stopping := by
  obtain ⟨_, _, _, -, -, -, -, rfl⟩ := boot_ok booted
  exact fun busy => absurd rfl busy

theorem stopping_step (stopping : system.engine.Stopping) {event : Event}
    (stepped : system.step calculateHash event = some next) : next.engine.Stopping := by
  rcases step_engine calculateHash stepped with same | ⟨_, engineStepped⟩
  · rw [same]
    exact stopping
  · exact stopping.step engineStepped

/-- While `main` waits in a `stop()`, a step other than the join is a worker's, which keeps the
wait and brings the workers a step closer to returning, or a signal, which changes neither. -/
theorem waiting_step (stopped : system.engine.mining = false) {call : Call}
    (waiting : system.engine.control = .joining call) {event : Event} (other : event ≠ .join)
    (stepped : system.step calculateHash event = some next) :
    next.engine.mining = false ∧ next.engine.control = .joining call ∧
      next.engine.toStop + (if event.byWorker then 1 else 0) ≤ system.engine.toStop := by
  cases event with
  | worker thread random =>
    obtain ⟨engine, worked, rfl⟩ := Option.map_eq_some'.mp stepped
    obtain ⟨still, control, fewer⟩ := Engine.workerStep_toStop stopped worked
    exact ⟨still, control.trans waiting, fewer⟩
  | join => exact absurd rfl other
  | main input => simp [step, waiting] at stepped
  | signal =>
    cases stepped
    exact ⟨stopped, waiting, by simp [Event.byWorker]⟩

theorem waiting_run (stopped : system.engine.mining = false) {call : Call}
    (waiting : system.engine.control = .joining call) {steps : List Event}
    (noJoin : .join ∉ steps) {later : System}
    (continued : system.run calculateHash steps = some later) :
    later.engine.mining = false ∧ later.engine.control = .joining call ∧
      later.engine.toStop + (steps.filter Event.byWorker).length ≤ system.engine.toStop := by
  induction steps generalizing system with
  | nil =>
    cases continued
    exact ⟨stopped, waiting, by simp⟩
  | cons event rest induction =>
    obtain ⟨middle, stepped, continued⟩ := Option.bind_eq_some.mp continued
    obtain ⟨stopped, waiting, fewer⟩ :=
      waiting_step stopped waiting (fun same => noJoin (same ▸ List.mem_cons_self _ _)) stepped
    obtain ⟨still, control, fewest⟩ :=
      induction stopped waiting (fun mem => noJoin (List.mem_cons_of_mem _ mem)) continued
    refine ⟨still, control, ?_⟩
    rw [List.filter_cons]
    split <;> simp_all only [List.length_cons, ite_true, ite_false] <;> omega

/-- `stop()` returns. While `main` waits in a `stop()` on any run of the process, the workers
take at most six steps each, in any interleaving and with any signals in between; the wait lasts
until the join; and whenever no worker can step, the join can. -/
theorem stop_returns (calculateHash : Bytes → Bytes) (config : Config)
    (chainInfo initialTemplate : Option Json) (start system : System) (events : List Event)
    (booted : boot config chainInfo initialTemplate = .ok start)
    (ran : start.run calculateHash events = some system) {call : Call}
    (waiting : system.engine.control = .joining call) (steps : List Event)
    (noJoin : .join ∉ steps) {later : System}
    (continued : system.run calculateHash steps = some later) :
    (steps.filter Event.byWorker).length ≤ 6 * system.engine.threads.length ∧
      later.engine.control = .joining call ∧
      ((∀ thread random, later.step calculateHash (.worker thread random) = none) →
        (later.step calculateHash .join).isSome) := by
  have stopping : system.engine.Stopping :=
    run_invariant calculateHash _ (fun stopping stepped => stopping_step stopping stepped)
      (stopping_boot booted) ran
  obtain ⟨-, still, fewer⟩ :=
    waiting_run (stopping (by rw [waiting]; nofun)) waiting noJoin continued
  refine ⟨by have := system.engine.toStop_le; omega, still, fun stuck => ?_⟩
  cases done : later.engine.allDone
  · obtain ⟨thread, canStep⟩ := later.engine.exists_workerStep calculateHash done
    have blocked := stuck thread []
    simp only [step, Option.map_eq_none'] at blocked
    have := canStep []
    simp [blocked] at this
  · simp [step, still, done]

/-- `main` starts a session, its one worker reaches the hash, and the `'t'` key stops the
session. -/
def keyStop : List Event :=
  let input : Input := ⟨some (templateReply 5 (List.replicate 64 48)), ' ', 0, false, none⟩
  [.main input, .join, .worker 0 [], .worker 0 [], .worker 0 [], .main { input with key := 't' }]

theorem stop_returns_after_key_stop :
    ∃ system later, boot (lightConfig 1 fun _ => false) (some (chainReply 4))
        (some (templateReply 5 (List.replicate 64 48))) = .ok sampleStart ∧
      sampleStart.run (fun _ => List.replicate 32 0) keyStop = some system ∧
      system.engine.control = .joining .stop ∧ .join ∉ List.replicate 5 (Event.worker 0 []) ∧
      system.run (fun _ => List.replicate 32 0) (List.replicate 5 (.worker 0 [])) = some later ∧
      ((List.replicate 5 (Event.worker 0 [])).filter Event.byWorker).length ≤
        6 * system.engine.threads.length :=
  have booted : boot (lightConfig 1 fun _ => false) (some (chainReply 4))
      (some (templateReply 5 (List.replicate 64 48))) = .ok sampleStart := rfl
  have noJoin : .join ∉ List.replicate 5 (Event.worker 0 []) := by simp
  ⟨_, _, booted, rfl, rfl, noJoin, rfl,
    (stop_returns (fun _ => List.replicate 32 0) _ _ _ _ _ keyStop booted rfl rfl _ noJoin
      rfl).1⟩

end System

end JunoMiner
