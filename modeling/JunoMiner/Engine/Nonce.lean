import JunoMiner.Engine.Session

/-!
# The nonces a worker hashes

At the end of each pass of its loop, `worker_thread` adds one to its 32-byte nonce, read as a
little-endian number, with the carry loop over the bytes. Here that loop is shown to be the
increment modulo `2 ^ 256`, and the nonces a worker hands to `randomx_calculate_hash` along any run
of the miner are followed step by step: they are its nonce at the loop head, plus one, plus two,
and so on, so none comes twice before `2 ^ 256` hashes.
-/

namespace JunoMiner

/-! ## The carry loop -/

/-- The carry loop adds one modulo `256 ^ length`. -/
theorem leValue_incrementNonce (nonce : Bytes) :
    leValue (incrementNonce nonce) = (leValue nonce + 1) % 256 ^ nonce.length := by
  induction nonce with
  | nil => rfl
  | cons byte rest induction =>
    have rest_small := leValue_lt rest
    unfold incrementNonce
    rw [List.length_cons, Nat.pow_succ, Nat.mul_comm _ 256]
    split
    · rename_i carry
      subst carry
      rw [leValue, leValue, induction, show (255 : UInt8).toNat + 256 * leValue rest + 1 =
        256 * (leValue rest + 1) by simp; omega, Nat.mul_mod_mul_left]
      simp
    · rename_i stays
      have below : byte.toNat < 255 :=
        Nat.lt_of_le_of_ne (Nat.le_of_lt_succ byte.toNat_lt) fun top => stays (UInt8.ext top)
      have succ : (byte + 1).toNat = byte.toNat + 1 := by
        rw [UInt8.toNat_add]
        simp [UInt8.size]
        omega
      rw [leValue, leValue, succ, Nat.mod_eq_of_lt (by omega)]
      omega

/-- `k` passes of the carry loop add `k` modulo `256 ^ length`. -/
theorem leValue_iterate_incrementNonce (nonce : Bytes) (count : Nat) :
    (incrementNonce^[count] nonce).length = nonce.length ∧
      leValue (incrementNonce^[count] nonce) = (leValue nonce + count) % 256 ^ nonce.length := by
  induction count with
  | zero => simp [Nat.mod_eq_of_lt (leValue_lt nonce)]
  | succ count induction =>
    rw [Function.iterate_succ_apply', incrementNonce_length, leValue_incrementNonce,
      induction.1, induction.2, Nat.mod_add_mod, Nat.add_assoc]
    exact ⟨rfl, rfl⟩

/-! ## Along a run -/

/-- The nonce a worker hashes next, if it hashes again: the one in its buffer on the way to the
hash, the incremented one while it checks the target, none once it has left the loop (or before
it has drawn its nonce). -/
def Worker.pending (worker : Worker) : Option Bytes :=
  match worker.pc with
  | .loadMining | .loadFound | .hashing => some worker.nonce
  | .counting => some (incrementNonce worker.nonce)
  | _ => none

namespace Engine

variable {calculateHash : Bytes → Bytes} {engine next : Engine}

/-- The nonce worker `thread` hands to `randomx_calculate_hash` at `action`, if the action is that
worker's hash. -/
def hashedBy (engine : Engine) (thread : Nat) : Action → List Bytes
  | .worker index _ =>
    match engine.threads[index]? with
    | some worker => if index = thread ∧ worker.pc = .hashing then [worker.nonce] else []
    | none => []
  | _ => []

/-- The nonces worker `thread` hashes along a run, in order, up to where the run stops. -/
def hashedNonces (calculateHash : Bytes → Bytes) (thread : Nat) : Engine → List Action → List Bytes
  | _, [] => []
  | engine, action :: rest =>
    match engine.step calculateHash action with
    | none => []
    | some next => engine.hashedBy thread action ++ hashedNonces calculateHash thread next rest

theorem setWorker_getElem? {thread : Nat} {worker : Worker}
    (lookup : engine.threads[thread]? = some worker) (changed : Worker) :
    (engine.setWorker thread changed).threads[thread]? = some changed :=
  List.getElem?_set_self (List.getElem?_eq_some_iff.mp lookup).1

/-- One step of a worker that has drawn its nonce: it hashes its nonce and goes on to the
incremented one, or keeps the nonce it hashes next, or leaves the loop. -/
theorem workerStep_pending {thread : Nat} {random : Bytes} {worker : Worker}
    (lookup : engine.threads[thread]? = some worker) (started : worker.pc ≠ .start)
    (stepped : engine.workerStep calculateHash thread random = some next) :
    ∃ changed, next.threads[thread]? = some changed ∧ changed.pc ≠ .start ∧
      (worker.pc = .hashing ∧ changed.pending = some (incrementNonce worker.nonce) ∨
        worker.pc ≠ .hashing ∧ (changed.pending = worker.pending ∨ changed.pending = none)) := by
  unfold workerStep at stepped
  rw [lookup] at stepped
  dsimp only at stepped
  rcases pc : worker.pc <;> rw [pc] at stepped started <;> dsimp only at stepped
  case start => exact absurd rfl started
  case done => cases stepped
  all_goals
    (try split at stepped) <;> cases stepped <;>
    refine ⟨_, setWorker_getElem? lookup _, ?_⟩ <;> simp [Worker.pending, pc]

/-- A call of the control thread leaves the workers as they are. -/
theorem call_threads {request : Call} (idle : engine.control = .idle)
    (called : engine.call request = some next) : next.threads = engine.threads := by
  by_cases fresh : ∀ template, request ≠ .startMining template
  · rcases call_cases fresh idle called with rfl | ⟨keeps, -⟩
    · rfl
    · exact keeps.threads
  · push_neg at fresh
    obtain ⟨template, rfl⟩ := fresh
    cases called
    rfl

/-- Every step but a `join` and worker `thread`'s own leaves that worker as it is, and hashes
nothing for it. -/
theorem step_frame {thread : Nat} {action : Action}
    (stepped : engine.step calculateHash action = some next) (unjoined : action ≠ .join)
    (other : ∀ random, action ≠ .worker thread random) :
    next.threads[thread]? = engine.threads[thread]? ∧ engine.hashedBy thread action = [] := by
  cases action with
  | worker index random =>
    have apart : index ≠ thread := fun same => other random (same ▸ rfl)
    obtain ⟨worker, -, -, moved⟩ :=
      workerStep_cases (show engine.workerStep calculateHash index random = some next from stepped)
    have threads : ∃ changed, next.threads = engine.threads.set index changed := by
      rcases moved with ⟨changed, -, -, -, rfl⟩ | ⟨-, -, rfl⟩ | ⟨-, rfl⟩ | ⟨-, rfl⟩ <;>
        exact ⟨_, rfl⟩
    obtain ⟨changed, threads⟩ := threads
    refine ⟨by rw [threads, List.getElem?_set_ne apart], ?_⟩
    simp only [hashedBy]
    split <;> simp [apart]
  | call request =>
    simp only [step] at stepped
    split at stepped
    · exact ⟨by rw [call_threads ‹_› stepped], rfl⟩
    · cases stepped
  | join => exact absurd rfl unjoined

/-- Along a run without a `join`, a worker that has drawn its nonce hashes its pending nonce and
then each next one in turn, and nothing once it has left the loop. -/
theorem hashedNonces_iterate {thread : Nat} :
    ∀ (actions : List Action) (engine : Engine) (worker : Worker),
      engine.threads[thread]? = some worker → worker.pc ≠ .start → .join ∉ actions →
      ∃ count, hashedNonces calculateHash thread engine actions =
          (List.range count).map (fun k => incrementNonce^[k] (worker.pending.getD [])) ∧
        (worker.pending = none → count = 0)
  | [], _, _, _, _, _ => ⟨0, rfl, fun _ => rfl⟩
  | action :: rest, engine, worker, lookup, started, unjoined => by
    rw [List.mem_cons, not_or] at unjoined
    rw [hashedNonces]
    cases stepped : engine.step calculateHash action with
    | none => exact ⟨0, rfl, fun _ => rfl⟩
    | some next =>
      dsimp only
      by_cases own : ∃ random, action = .worker thread random
      · obtain ⟨random, rfl⟩ := own
        obtain ⟨changed, lookup', started', moved⟩ := workerStep_pending lookup started stepped
        obtain ⟨count, hashed, none_zero⟩ :=
          hashedNonces_iterate rest next changed lookup' started' unjoined.2
        have here : engine.hashedBy thread (.worker thread random) =
            if worker.pc = .hashing then [worker.nonce] else [] := by
          simp [hashedBy, lookup]
        rw [here, hashed]
        rcases moved with ⟨hashing, after⟩ | ⟨running, same | left⟩
        · have before : worker.pending = some worker.nonce := by simp [Worker.pending, hashing]
          refine ⟨count + 1, ?_, by simp [before]⟩
          rw [if_pos hashing, after, before, List.range_succ_eq_map, List.map_cons, List.map_map,
            List.singleton_append]
          exact congrArg _ (List.map_congr_left fun k _ => (Function.iterate_succ_apply _ _ _).symm)
        · exact ⟨count, by rw [if_neg running, same, List.nil_append],
            fun none => none_zero (same ▸ none)⟩
        · rw [none_zero left]
          exact ⟨0, by simp [running], fun _ => rfl⟩
      · push_neg at own
        obtain ⟨kept, nothing⟩ := step_frame stepped (Ne.symm unjoined.1) own
        obtain ⟨count, hashed, none_zero⟩ :=
          hashedNonces_iterate rest next worker (kept.trans lookup) started unjoined.2
        exact ⟨count, by rw [nothing, hashed, List.nil_append], none_zero⟩

/-- A worker's first step draws its nonce and goes to the loop head, or returns for want of a VM. -/
theorem workerStep_start {thread : Nat} {random : Bytes} {worker : Worker}
    (lookup : engine.threads[thread]? = some worker) (start : worker.pc = .start)
    (stepped : engine.workerStep calculateHash thread random = some next) :
    ∃ started, next.threads[thread]? = some started ∧
      (started.pc = .loadMining ∧ started.nonce = startNonce random ∨ started.pc = .done) := by
  unfold workerStep at stepped
  rw [lookup] at stepped
  dsimp only at stepped
  rw [start] at stepped
  dsimp only at stepped
  split at stepped <;> cases stepped
  · exact ⟨_, setWorker_getElem? lookup _, .inr rfl⟩
  · exact ⟨_, setWorker_getElem? lookup _, .inl ⟨rfl, rfl⟩⟩

/-- A template with the zero target, which a hash of all `0xff` bytes never meets. -/
def hardTemplate : BlockTemplate :=
  { BlockTemplate.empty with headerBase := List.replicate 140 0, target := List.replicate 32 0 }

/-- A session of one worker on `hardTemplate`. -/
def nonceSession : Engine := (create singleVmPool).startSession hardTemplate

/-- The session once its worker has drawn its nonce from a short read of `/dev/urandom`. -/
def nonceLoopHead : Engine :=
  (nonceSession.workerStep (fun _ => List.replicate 32 255) 0 []).getD nonceSession

end Engine

end JunoMiner
