import JunoMiner.Engine.Basic

/-!
# One session: who writes the solution, and what it holds

Within a session, `found_` is the lock on the `solution_*` fields: a worker writes them only
after its compare-and-swap took `found_` from `false` to `true`, and nothing sets `found_` back
until the next `start_mining`. So at most one worker writes; `found_` is set from the exchange
on, which comes one step before the write; and once the session is over the fields no longer
change. The written fields are the winner's header, nonce and hash, with the template the session
was started on.
-/

namespace JunoMiner

namespace Engine

variable {engine next : Engine} {calculateHash : Bytes → Bytes}

/-- The workers at `pc`. -/
def atPc (engine : Engine) (pc : Pc) : Nat := engine.threads.countP (·.pc == pc)

/-- Neither at the write of the solution nor at the store that follows it. -/
def Quiet (pc : Pc) : Prop := pc ≠ .publishing ∧ pc ≠ .signalling

theorem atPc_setWorker {thread : Nat} {worker : Worker}
    (lookup : engine.threads[thread]? = some worker)
    (other : Engine) (same : other.threads = engine.threads) (changed : Worker) (pc : Pc) :
    (other.setWorker thread changed).atPc pc =
      engine.atPc pc - (if worker.pc = pc then 1 else 0) + (if changed.pc = pc then 1 else 0) := by
  obtain ⟨inside, rfl⟩ := List.getElem?_eq_some_iff.mp lookup
  simp [atPc, setWorker, same, List.countP_set _ _ _ _ inside]

theorem atPc_pos {thread : Nat} {worker : Worker} (lookup : engine.threads[thread]? = some worker) :
    0 < engine.atPc worker.pc := by
  obtain ⟨inside, rfl⟩ := List.getElem?_eq_some_iff.mp lookup
  exact List.countP_pos_iff.mpr ⟨_, List.getElem_mem inside, by simp⟩

theorem pc_done_of_allDone {thread : Nat} {worker : Worker} (done : engine.allDone = true)
    (lookup : engine.threads[thread]? = some worker) : worker.pc = .done := by
  simp only [allDone, List.all_eq_true, decide_eq_true_eq] at done
  obtain ⟨inside, rfl⟩ := List.getElem?_eq_some_iff.mp lookup
  exact done _ (List.getElem_mem inside)

/-- What a worker's step can do: move between the quiet points of the loop (counting a hash on the
way), win the exchange, write the solution, or store `mining_ = false`. -/
theorem workerStep_cases {thread : Nat} {random : Bytes}
    (stepped : engine.workerStep calculateHash thread random = some next) :
    ∃ worker, engine.threads[thread]? = some worker ∧ worker.pc ≠ .done ∧
      ((∃ changed count, Quiet worker.pc ∧ Quiet changed.pc ∧
          next = { engine with hashCount := count }.setWorker thread changed) ∨
        (worker.pc = .claiming ∧ engine.found = false ∧
          next = { engine with found := true }.setWorker thread
            { worker with pc := .publishing }) ∨
        (worker.pc = .publishing ∧
          next = { engine with
            solutionNonce := worker.nonce
            solutionHash := worker.hash
            solutionHeader :=
              copyAt (copyAt (List.replicate 140 0) 0 worker.headerWithoutNonce) 108 worker.nonce
            solutionTemplate := worker.template }.setWorker thread
              { worker with pc := .signalling }) ∨
        (worker.pc = .signalling ∧
          next = { engine with mining := false }.setWorker thread
            { worker with pc := .done })) := by
  unfold workerStep at stepped
  rcases lookup : engine.threads[thread]? with _ | worker
  · simp [lookup] at stepped
  simp only [lookup] at stepped
  have moved {changed : Engine} (same : some changed = some next) : next = changed :=
    (Option.some.inj same).symm
  refine ⟨worker, rfl, fun done => by simp [done] at stepped, ?_⟩
  rcases pc : worker.pc <;> simp only [pc] at stepped
  case start | counting =>
    split at stepped <;> exact .inl ⟨_, _, by simp [Quiet, pc], by simp [Quiet], moved stepped⟩
  case hashing => exact .inl ⟨_, _, by simp [Quiet, pc], by simp [Quiet], moved stepped⟩
  case loadMining | loadFound =>
    refine .inl ⟨_, _, by simp [Quiet, pc], ?_, moved stepped⟩
    simp only [Quiet]
    split <;> simp
  case claiming =>
    split at stepped
    · exact .inl ⟨_, _, by simp [Quiet, pc], by simp [Quiet], moved stepped⟩
    · exact .inr (.inl ⟨rfl, Bool.eq_false_iff.mpr ‹_›, moved stepped⟩)
  case publishing => exact .inr (.inr (.inl ⟨rfl, moved stepped⟩))
  case signalling => exact .inr (.inr (.inr ⟨rfl, moved stepped⟩))
  case done => exact absurd stepped nofun

theorem atPc_eq_zero_of_allDone (done : engine.allDone = true) {pc : Pc} (running : pc ≠ .done) :
    engine.atPc pc = 0 := by
  simp only [allDone, List.all_eq_true, decide_eq_true_eq] at done
  simp only [atPc, List.countP_eq_zero, beq_iff_eq]
  exact fun worker mem at_pc => running (at_pc ▸ done worker mem)

theorem solutionHeader_ne_nil (header nonce : Bytes) :
    copyAt (copyAt (List.replicate 140 0) 0 header) 108 nonce ≠ [] := by
  apply List.ne_nil_of_length_pos
  simp only [copyAt, List.length_append, List.length_take, List.length_drop, List.length_replicate]
  omega

/-! ## Exclusion among the workers -/

/-- How `found_` guards the `solution_*` fields in a session, counted in workers: with `found_`
unset nobody has won and nothing is written; at most one worker is at the write, and it finds the
fields empty; a worker at the store after it finds them written; with `found_` set they are
written or about to be; between calls, with `mining_` unset the session is over (a solution is
written, or every worker has returned); and no `start_mining` is waiting to join. -/
structure Exclusive (engine : Engine) : Prop where
  unfound : engine.found = false →
    engine.solutionHeader = [] ∧ engine.atPc .publishing = 0 ∧ engine.atPc .signalling = 0
  single : engine.atPc .publishing ≤ 1
  pending : 0 < engine.atPc .publishing → engine.solutionHeader = []
  signalled : 0 < engine.atPc .signalling → engine.solutionHeader ≠ []
  found : engine.found = true → engine.solutionHeader ≠ [] ∨ 0 < engine.atPc .publishing
  ended : engine.control = .idle → engine.mining = false →
    (engine.found = true ∧ engine.solutionHeader ≠ []) ∨ engine.allDone = true
  restart : ∀ template, engine.control ≠ .joining (.startMining template)

theorem Exclusive.found_of_atPc (exclusive : engine.Exclusive) {pc : Pc}
    (running : 0 < engine.atPc pc) (winner : pc = .publishing ∨ pc = .signalling) :
    engine.found = true := by
  cases found : engine.found
  · have := exclusive.unfound found
    rcases winner with rfl | rfl <;> omega
  · rfl

/-- A change to the shared fields that keeps the workers, `found_` and the header. -/
theorem Exclusive.transfer (exclusive : engine.Exclusive) (threads : next.threads = engine.threads)
    (found : next.found = engine.found) (header : next.solutionHeader = engine.solutionHeader)
    (ended : next.control = .idle → next.mining = false →
      engine.control = .idle ∧ engine.mining = false)
    (restart : ∀ template, next.control ≠ .joining (.startMining template)) :
    next.Exclusive := by
  have counts : next.atPc = engine.atPc := by unfold atPc; rw [threads]
  have done : next.allDone = engine.allDone := by unfold allDone; rw [threads]
  refine ⟨?_, ?_, ?_, ?_, ?_, ?_, restart⟩ <;> simp only [counts, found, header, done]
  exacts [exclusive.unfound, exclusive.single, exclusive.pending, exclusive.signalled,
    exclusive.found,
    fun idle stopped => exclusive.ended (ended idle stopped).1 (ended idle stopped).2]

theorem Exclusive.workerStep (exclusive : engine.Exclusive) {thread : Nat} {random : Bytes}
    (stepped : engine.workerStep calculateHash thread random = some next) : next.Exclusive := by
  obtain ⟨worker, lookup, running,
      quiet | ⟨pc, unfound, rfl⟩ | ⟨pc, rfl⟩ | ⟨pc, rfl⟩⟩ :=
    workerStep_cases stepped
  · obtain ⟨changed, count, before, after, rfl⟩ := quiet
    have counts := atPc_setWorker lookup { engine with hashCount := count } rfl changed
    have ended := fun idle stopped => (exclusive.ended idle stopped).resolve_right
      fun done => running (pc_done_of_allDone done lookup)
    refine ⟨?_, ?_, ?_, ?_, ?_, fun idle stopped => .inl (ended idle stopped),
        exclusive.restart⟩ <;>
      simp only [counts, if_neg before.1, if_neg before.2, if_neg after.1, if_neg after.2,
        Nat.sub_zero, Nat.add_zero, setWorker_found, setWorker_solutionHeader]
    exacts [exclusive.unfound, exclusive.single, exclusive.pending, exclusive.signalled,
      exclusive.found]
  · have counts := atPc_setWorker lookup { engine with found := true } rfl
      { worker with pc := .publishing }
    have publishing := counts .publishing
    have signalling := counts .signalling
    simp only [pc, reduceCtorEq, eq_self_iff_true, if_true, if_false, Nat.sub_zero,
      Nat.add_zero] at publishing signalling
    obtain ⟨empty, _, _⟩ := exclusive.unfound unfound
    refine ⟨by simp, by omega, fun _ => empty, fun _ => by omega, fun _ => .inr (by omega),
      fun idle stopped => ?_, exclusive.restart⟩
    have := (exclusive.ended idle stopped).resolve_right
      fun done => running (pc_done_of_allDone done lookup)
    simp [unfound] at this
  · have counts := atPc_setWorker lookup { engine with
      solutionNonce := worker.nonce
      solutionHash := worker.hash
      solutionHeader :=
        copyAt (copyAt (List.replicate 140 0) 0 worker.headerWithoutNonce) 108 worker.nonce
      solutionTemplate := worker.template } rfl { worker with pc := .signalling }
    have publishing := counts .publishing
    have signalling := counts .signalling
    simp only [pc, reduceCtorEq, eq_self_iff_true, if_true, if_false, Nat.sub_zero,
      Nat.add_zero] at publishing signalling
    have at_publish := pc ▸ atPc_pos lookup
    have found := exclusive.found_of_atPc at_publish (.inl rfl)
    have written := solutionHeader_ne_nil worker.headerWithoutNonce worker.nonce
    have := exclusive.single
    refine ⟨by simp [found], by omega, fun _ => by omega, fun _ => written, fun _ => .inl written,
      fun _ _ => .inl ⟨found, written⟩, exclusive.restart⟩
  · have counts := atPc_setWorker lookup { engine with mining := false } rfl
      { worker with pc := .done }
    have publishing := counts .publishing
    have signalling := counts .signalling
    simp only [pc, reduceCtorEq, eq_self_iff_true, if_true, if_false, Nat.sub_zero,
      Nat.add_zero] at publishing signalling
    have at_signal := pc ▸ atPc_pos lookup
    have found := exclusive.found_of_atPc at_signal (.inr rfl)
    have written := exclusive.signalled at_signal
    refine ⟨by simp [found], publishing ▸ exclusive.single,
      fun pending => exclusive.pending (publishing ▸ pending), fun _ => written,
      fun _ => .inl written, fun _ _ => .inl ⟨found, written⟩, exclusive.restart⟩

/-! ## The control thread's steps -/

/-- `next` has the workers and session fields of `engine`: only the pool, the control thread and
its reply may differ. -/
structure KeepsSession (next engine : Engine) : Prop where
  threads : next.threads = engine.threads
  mining : next.mining = engine.mining
  found : next.found = engine.found
  solutionNonce : next.solutionNonce = engine.solutionNonce
  solutionHash : next.solutionHash = engine.solutionHash
  solutionHeader : next.solutionHeader = engine.solutionHeader
  solutionTemplate : next.solutionTemplate = engine.solutionTemplate

theorem KeepsSession.solution (keeps : next.KeepsSession engine) :
    next.solution = engine.solution := by
  simp only [Engine.solution, keeps.found, keeps.solutionHeader, keeps.solutionHash,
    keeps.solutionTemplate]

/-- A returned solution is the one in the fields. -/
def Replied (engine : Engine) : Prop :=
  ∀ result, engine.reply = .solution (some result) → engine.solution = some result

/-- The rest of any call but `start_mining` keeps the session and returns to the caller, with
`get_solution` returning the fields. -/
theorem finishCall_keeps {request : Call} (fresh : ∀ template, request ≠ .startMining template)
    (finished : engine.finishCall request = some next) :
    next.KeepsSession engine ∧ next.control = .idle ∧ next.Replied := by
  cases request with
  | startMining template => exact absurd rfl (fresh template)
  | setThreadCount count =>
    obtain ⟨_, _, rfl⟩ := Option.map_eq_some'.mp finished
    exact ⟨⟨rfl, rfl, rfl, rfl, rfl, rfl, rfl⟩, rfl, nofun⟩
  | getSolution =>
    cases finished
    exact ⟨⟨rfl, rfl, rfl, rfl, rfl, rfl, rfl⟩, rfl,
      fun _ replied => Reply.solution.inj replied⟩
  | _ => cases finished; exact ⟨⟨rfl, rfl, rfl, rfl, rfl, rfl, rfl⟩, rfl, nofun⟩

/-- A call other than `start_mining`, made between calls, either starts its `stop()` or keeps the
session and returns. -/
theorem call_cases {request : Call} (fresh : ∀ template, request ≠ .startMining template)
    (idle : engine.control = .idle) (called : engine.call request = some next) :
    next = engine.beginStop request ∨
      (next.KeepsSession engine ∧ next.control = .idle ∧ next.Replied) := by
  have shortcut : ∀ result,
      ({ engine with reply := .flag result } : Engine).KeepsSession engine ∧
      ({ engine with reply := .flag result } : Engine).control = .idle ∧
      ({ engine with reply := .flag result } : Engine).Replied :=
    fun _ => ⟨⟨rfl, rfl, rfl, rfl, rfl, rfl, rfl⟩, idle, nofun⟩
  cases request with
  | startMining template => exact absurd rfl (fresh template)
  | stop => exact .inl (Option.some.inj called).symm
  | getSolution =>
    simp only [Engine.call] at called
    split at called
    · exact .inl (Option.some.inj called).symm
    · exact .inr (finishCall_keeps (by simp) called)
  | updateSeed seedHash =>
    simp only [Engine.call] at called
    split at called
    · cases called; exact .inr (shortcut _)
    · split at called
      · exact .inl (Option.some.inj called).symm
      · exact .inr (finishCall_keeps (by simp) called)
  | setThreadCount count =>
    simp only [Engine.call] at called
    split at called
    · cases called; exact .inr (shortcut _)
    · split at called
      · exact .inl (Option.some.inj called).symm
      · exact .inr (finishCall_keeps (by simp) called)

/-- The join of a `stop()`: every worker has returned, and the call goes on without them. -/
theorem join_cases (joined : engine.join = some next) :
    ∃ request, engine.control = .joining request ∧ engine.allDone = true ∧
      { engine with threads := [] }.finishCall request = some next := by
  unfold join at joined
  split at joined
  · split at joined
    · exact ⟨_, ‹_›, ‹_›, joined⟩
    · cases joined
  · cases joined

theorem Exclusive.keeps (exclusive : engine.Exclusive) (keeps : next.KeepsSession engine)
    (control : next.control = .idle) (idle : engine.control = .idle) : next.Exclusive :=
  exclusive.transfer keeps.threads keeps.found keeps.solutionHeader
    (fun _ stopped => ⟨idle, keeps.mining ▸ stopped⟩) (by simp [control])

theorem Exclusive.beginStop (exclusive : engine.Exclusive) {request : Call}
    (fresh : ∀ template, request ≠ .startMining template) :
    (engine.beginStop request).Exclusive :=
  exclusive.transfer rfl rfl rfl (fun idle _ => nomatch idle)
    (by simpa [Engine.beginStop] using fresh)

theorem Exclusive.join (exclusive : engine.Exclusive) (joined : engine.join = some next) :
    next.Exclusive := by
  obtain ⟨request, joining, done, finished⟩ := join_cases joined
  have fresh : ∀ template, request ≠ .startMining template :=
    fun template same => exclusive.restart template (same ▸ joining)
  obtain ⟨keeps, control, -⟩ := finishCall_keeps fresh finished
  have gone : ∀ pc, next.atPc pc = 0 := fun pc => by simp [atPc, keeps.threads]
  have written (found : engine.found = true) : engine.solutionHeader ≠ [] :=
    (exclusive.found found).resolve_right
      (by simp [atPc_eq_zero_of_allDone done (show Pc.publishing ≠ .done from nofun)])
  refine ⟨fun unfound => ?_, by simp [gone], by simp [gone], by simp [gone], fun found => ?_,
    fun _ _ => .inr (by simp [allDone, keeps.threads]), by simp [control]⟩
  · rw [keeps.found] at unfound
    exact ⟨keeps.solutionHeader ▸ (exclusive.unfound unfound).1, gone _, gone _⟩
  · rw [keeps.found] at found
    exact .inl (keeps.solutionHeader ▸ written found)

theorem Exclusive.step (exclusive : engine.Exclusive) {action : Action}
    (fresh : ∀ template, action ≠ .call (.startMining template))
    (stepped : engine.step calculateHash action = some next) : next.Exclusive := by
  cases action with
  | worker thread random => exact exclusive.workerStep stepped
  | join => exact exclusive.join stepped
  | call request =>
    simp only [Engine.step] at stepped
    split at stepped
    · rcases call_cases (fun template same => fresh template (same ▸ rfl)) ‹_› stepped with
        rfl | ⟨keeps, control, -⟩
      · exact exclusive.beginStop fun template same => fresh template (same ▸ rfl)
      · exact exclusive.keeps keeps control ‹_›
    · cases stepped

/-- Anything every step but a `start_mining` call keeps holds along a run without one. -/
theorem run_invariant (holds : Engine → Prop)
    (preserved : ∀ {engine next : Engine} {action : Action}, holds engine →
      (∀ template, action ≠ .call (.startMining template)) →
      engine.step calculateHash action = some next → holds next)
    {actions : List Action} (session : ∀ template, .call (.startMining template) ∉ actions)
    (start : holds engine) (ran : engine.run calculateHash actions = some next) : holds next := by
  induction actions generalizing engine with
  | nil => cases ran; exact start
  | cons action rest induction =>
    obtain ⟨middle, stepped, ran⟩ := Option.bind_eq_some.mp ran
    exact induction (fun template mem => session template (List.mem_cons_of_mem _ mem))
      (preserved start (fun template same => session template (same ▸ List.mem_cons_self _ _))
        stepped) ran

theorem Exclusive.startSession (engine : Engine) (template : BlockTemplate) :
    (engine.startSession template).Exclusive := by
  have none_at (pc : Pc) (later : pc ≠ .start) : (engine.startSession template).atPc pc = 0 := by
    simp [atPc, Engine.startSession, Worker.spawn, Ne.symm later]
  refine ⟨fun _ => ⟨rfl, none_at _ nofun, none_at _ nofun⟩, by simp [none_at],
    by simp [none_at], by simp [none_at], fun found => ?_, fun _ mining => ?_,
    fun _ => by simp [Engine.startSession]⟩
  · simp [Engine.startSession] at found
  · simp [Engine.startSession] at mining

theorem Exclusive.run (exclusive : engine.Exclusive) {actions : List Action}
    (session : ∀ template, .call (.startMining template) ∉ actions)
    (ran : engine.run calculateHash actions = some next) : next.Exclusive :=
  run_invariant _ (fun exclusive fresh stepped => exclusive.step fresh stepped) session
    exclusive ran

/-! ## Writes of the solution -/

/-- Whether `action` is a worker's write of the `solution_*` fields. -/
def writesSolution (engine : Engine) : Action → Bool
  | .worker thread _ => engine.threads[thread]?.any (·.pc == .publishing)
  | _ => false

/-- The writes of the `solution_*` fields along a run, up to where it stops. -/
def solutionWrites (calculateHash : Bytes → Bytes) : Engine → List Action → Nat
  | _, [] => 0
  | engine, action :: rest =>
    match engine.step calculateHash action with
    | none => 0
    | some next =>
      (if engine.writesSolution action then 1 else 0) + solutionWrites calculateHash next rest

/-- One if a solution has been written in this session, else zero. -/
def written (engine : Engine) : Nat := if engine.solutionHeader = [] then 0 else 1

theorem Exclusive.written_step (exclusive : engine.Exclusive) {action : Action}
    (fresh : ∀ template, action ≠ .call (.startMining template))
    (stepped : engine.step calculateHash action = some next) :
    (if engine.writesSolution action then 1 else 0) + engine.written = next.written := by
  cases action with
  | worker thread random =>
    obtain ⟨worker, lookup, -, quiet | ⟨pc, -, rfl⟩ | ⟨pc, rfl⟩ | ⟨pc, rfl⟩⟩ :=
      workerStep_cases stepped
    · obtain ⟨changed, count, before, -, rfl⟩ := quiet
      simp [writesSolution, lookup, before.1, written]
    · simp [writesSolution, lookup, pc, written]
    · have empty := exclusive.pending (pc ▸ atPc_pos lookup)
      simp only [writesSolution, lookup, pc, written, empty, setWorker_solutionHeader]
      rw [if_neg (solutionHeader_ne_nil _ _)]
      simp [pc]
    · simp [writesSolution, lookup, pc, written]
  | join =>
    obtain ⟨request, joining, -, finished⟩ := join_cases stepped
    have keeps := (finishCall_keeps
      (fun template same => exclusive.restart template (same ▸ joining)) finished).1
    simp [writesSolution, written, keeps.solutionHeader]
  | call request =>
    simp only [Engine.step] at stepped
    split at stepped
    · rcases call_cases (fun template same => fresh template (same ▸ rfl)) ‹_› stepped with
        rfl | ⟨keeps, -, -⟩
      · simp [writesSolution, written, Engine.beginStop]
      · simp [writesSolution, written, keeps.solutionHeader]
    · cases stepped

theorem Exclusive.solutionWrites_le (exclusive : engine.Exclusive) {actions : List Action}
    (session : ∀ template, .call (.startMining template) ∉ actions) :
    solutionWrites calculateHash engine actions + engine.written ≤ 1 := by
  induction actions generalizing engine with
  | nil => simp [solutionWrites, written]; split <;> omega
  | cons action rest induction =>
    have fresh : ∀ template, action ≠ .call (.startMining template) :=
      fun template same => session template (same ▸ List.mem_cons_self _ _)
    simp only [solutionWrites]
    split
    · simp [written]; split <;> omega
    · rename_i stepped
      have := exclusive.written_step fresh stepped
      have := induction (exclusive.step fresh stepped)
        fun template mem => session template (List.mem_cons_of_mem _ mem)
      omega

theorem Exclusive.solutionWrites_eq (exclusive : engine.Exclusive) {actions : List Action}
    (session : ∀ template, .call (.startMining template) ∉ actions)
    (ran : engine.run calculateHash actions = some next) :
    solutionWrites calculateHash engine actions + engine.written = next.written := by
  induction actions generalizing engine with
  | nil => cases ran; simp [solutionWrites]
  | cons action rest induction =>
    have fresh : ∀ template, action ≠ .call (.startMining template) :=
      fun template same => session template (same ▸ List.mem_cons_self _ _)
    obtain ⟨middle, stepped, ran⟩ := Option.bind_eq_some.mp ran
    have := exclusive.written_step fresh stepped
    have := induction (exclusive.step fresh stepped)
      (fun template mem => session template (List.mem_cons_of_mem _ mem)) ran
    simp only [solutionWrites, stepped]
    omega

/-! ## After the session -/

/-- The session is over: `mining_` is unset, and a solution is written or every worker has
returned. -/
def Over (engine : Engine) : Prop :=
  engine.mining = false ∧ ((engine.found = true ∧ engine.solutionHeader ≠ []) ∨ engine.allDone = true)

theorem Over.keeps (over : engine.Over) (keeps : next.KeepsSession engine) :
    next.Over ∧ next.solution = engine.solution := by
  have done : next.allDone = engine.allDone := by simp [allDone, keeps.threads]
  exact ⟨by simpa [Over, keeps.mining, keeps.found, keeps.solutionHeader, done] using over,
    keeps.solution⟩

theorem Over.step (exclusive : engine.Exclusive) (over : engine.Over) {action : Action}
    (fresh : ∀ template, action ≠ .call (.startMining template))
    (stepped : engine.step calculateHash action = some next) :
    next.Over ∧ next.solution = engine.solution := by
  cases action with
  | worker thread random =>
    obtain ⟨worker, lookup, running,
        quiet | ⟨-, unfound, rfl⟩ | ⟨pc, rfl⟩ | ⟨-, rfl⟩⟩ :=
      workerStep_cases stepped
    all_goals
      obtain ⟨stopped, ⟨found, header⟩ | done⟩ := over
      rotate_left
      · exact absurd (pc_done_of_allDone done lookup) running
    · obtain ⟨changed, count, -, -, rfl⟩ := quiet
      exact ⟨⟨stopped, .inl ⟨found, header⟩⟩, by simp [Engine.solution]⟩
    · simp [found] at unfound
    · exact absurd (exclusive.pending (pc ▸ atPc_pos lookup)) header
    · exact ⟨⟨rfl, .inl ⟨found, header⟩⟩, by simp [Engine.solution]⟩
  | join =>
    obtain ⟨request, joining, -, finished⟩ := join_cases stepped
    obtain ⟨keeps, -, -⟩ :=
      finishCall_keeps (fun template same => exclusive.restart template (same ▸ joining)) finished
    have gone := Over.keeps (show ({ engine with threads := [] } : Engine).Over from
      ⟨over.1, over.2.imp_right fun _ => by simp [allDone]⟩) keeps
    exact ⟨gone.1, gone.2.trans (by simp [Engine.solution])⟩
  | call request =>
    simp only [Engine.step] at stepped
    split at stepped
    · rcases call_cases (fun template same => fresh template (same ▸ rfl)) ‹_› stepped with
        rfl | ⟨keeps, -, -⟩
      · exact ⟨⟨rfl, over.2⟩, by simp [Engine.solution, Engine.beginStop]⟩
      · exact over.keeps keeps
    · cases stepped

/-! ## The session's solution -/

/-- A template with a zero header and the largest target, which every hash meets. -/
def easyTemplate : BlockTemplate :=
  { BlockTemplate.empty with headerBase := List.replicate 140 0, target := List.replicate 32 255 }

/-- A pool of one worker, on legacy VM 0. -/
def singleVmPool : Pool :=
  ⟨1, false, [], none, [], [], [], false, 1, none, [some 0], 1,
    ⟨1, fun _ => false, fun _ => none, fun _ => none, fun _ => none, 1⟩⟩

end Engine

end JunoMiner
