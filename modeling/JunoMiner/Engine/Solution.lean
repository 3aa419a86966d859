import JunoMiner.Engine.Session

/-!
# What `get_solution` returns

Each worker keeps its 140-byte `hash_input` as the template's first 108 header bytes followed by
32 bytes; from the hash on, those 32 bytes are its current nonce and `hash` is the hash of the
whole buffer. The winner writes exactly that header, nonce and hash, so the pair `get_solution`
hands back is the pair the node recomputes: the hash of the header, meeting the target.
-/

namespace JunoMiner

namespace Worker

variable (calculateHash : Bytes → Bytes) (template : BlockTemplate) (worker : Worker)

/-- The header is the template's first 108 bytes, the nonce has 32 bytes, and `hash_input` is the
header followed by 32 bytes. -/
def Prepared : Prop :=
  worker.headerWithoutNonce = template.headerBase.take 108 ∧ worker.nonce.length = 32 ∧
    ∃ rest : Bytes, rest.length = 32 ∧ worker.hashInput = worker.headerWithoutNonce ++ rest

/-- `hash_input` is the header followed by the nonce, and `hash` is its hash. -/
def Hashed : Prop :=
  worker.hashInput = worker.headerWithoutNonce ++ worker.nonce ∧
    worker.hash = calculateHash worker.hashInput

/-- What a worker of a session on `template` holds at each point of its loop. -/
def Sound : Prop :=
  worker.template = template ∧
    match worker.pc with
    | .start | .done => True
    | .loadMining | .loadFound | .hashing => worker.Prepared template
    | .counting => worker.Prepared template ∧ worker.Hashed calculateHash
    | .claiming | .publishing | .signalling =>
      worker.Prepared template ∧ worker.Hashed calculateHash ∧
        hashMeetsTarget worker.hash template.target = true

end Worker

namespace Engine

variable {engine next : Engine} {calculateHash : Bytes → Bytes} {template : BlockTemplate}

/-- The written solution fields: a header of the template's first 108 bytes and the nonce, its
hash, which meets the target, and the template. -/
def Published (calculateHash : Bytes → Bytes) (template : BlockTemplate) (engine : Engine) : Prop :=
  engine.solutionTemplate = template ∧
    engine.solutionHeader = template.headerBase.take 108 ++ engine.solutionNonce ∧
    engine.solutionNonce.length = 32 ∧ engine.solutionHash = calculateHash engine.solutionHeader ∧
    hashMeetsTarget engine.solutionHash template.target = true

/-- A session on `template`: every worker sound, a written solution published, and a solution
that `get_solution` returned still the one in the fields. -/
structure Faithful (calculateHash : Bytes → Bytes) (template : BlockTemplate) (engine : Engine) :
    Prop where
  workers : ∀ worker ∈ engine.threads, worker.Sound calculateHash template
  published : engine.solutionHeader ≠ [] → engine.Published calculateHash template
  reply : ∀ result, engine.reply = .solution (some result) → engine.solution = some result

theorem Faithful.keeps (faithful : engine.Faithful calculateHash template)
    (keeps : next.KeepsSession engine) (replied : next.Replied) :
    next.Faithful calculateHash template where
  workers := keeps.threads ▸ faithful.workers
  published written := by
    obtain ⟨same, header, nonce, hash, meets⟩ :=
      faithful.published (keeps.solutionHeader ▸ written)
    simp only [Published, keeps.solutionTemplate, keeps.solutionHeader, keeps.solutionNonce,
      keeps.solutionHash]
    exact ⟨same, header, nonce, hash, meets⟩
  reply := replied

theorem Faithful.startSession (engine : Engine) :
    (engine.startSession template).Faithful calculateHash template where
  workers worker mem := by
    obtain ⟨_, -, rfl⟩ := List.mem_map.mp mem
    exact ⟨rfl, trivial⟩
  published written := absurd rfl written
  reply _ replied := nomatch replied

section HeaderSize

variable (header_size : 108 ≤ template.headerBase.length)
include header_size

theorem header_length : (template.headerBase.take 108).length = 108 := by
  simp [header_size]

/-- The worker that steps stays sound. -/
theorem workerStep_sound {thread : Nat} {random : Bytes} {worker : Worker}
    (lookup : engine.threads[thread]? = some worker)
    (sound : worker.Sound calculateHash template)
    (stepped : engine.workerStep calculateHash thread random = some next) :
    ∃ changed, next.threads = engine.threads.set thread changed ∧
      changed.Sound calculateHash template := by
  obtain ⟨same, local_state⟩ := sound
  unfold workerStep at stepped
  simp only [lookup] at stepped
  have header := header_length header_size
  rcases pc : worker.pc <;> simp only [pc] at stepped local_state
  case start =>
    split at stepped <;> cases stepped
    · exact ⟨_, rfl, same, trivial⟩
    · refine ⟨_, rfl, same, by rw [same], startNonce_length random, List.replicate 32 0,
        by simp, ?_⟩
      rw [same, copyAt_zeros_front header]
  case loadMining =>
    cases stepped
    refine ⟨_, rfl, same, ?_⟩
    cases engine.mining
    exacts [trivial, local_state]
  case loadFound =>
    cases stepped
    refine ⟨_, rfl, same, ?_⟩
    cases engine.found
    exacts [local_state, trivial]
  case hashing =>
    cases stepped
    obtain ⟨prefix_header, nonce_length, rest, rest_length, input⟩ := local_state
    have hashed : copyAt worker.hashInput 108 worker.nonce =
        worker.headerWithoutNonce ++ worker.nonce := by
      rw [input, copyAt_after_front (prefix_header ▸ header)
        (by simp [rest_length, nonce_length])]
    exact ⟨_, rfl, same, ⟨prefix_header, nonce_length, _, nonce_length, hashed⟩, hashed,
      rfl⟩
  case counting =>
    obtain ⟨⟨prefix_header, nonce_length, _⟩, input, hash⟩ := local_state
    split at stepped <;> cases stepped
    · exact ⟨_, rfl, same, ⟨prefix_header, nonce_length, _, nonce_length, input⟩,
        ⟨input, hash⟩, same ▸ ‹_›⟩
    · exact ⟨_, rfl, same, prefix_header, (incrementNonce_length _).trans nonce_length, _,
        nonce_length, input⟩
  case claiming =>
    split at stepped <;> cases stepped
    · exact ⟨_, rfl, same, trivial⟩
    · exact ⟨_, rfl, same, local_state⟩
  case publishing => cases stepped; exact ⟨_, rfl, same, local_state⟩
  case signalling => cases stepped; exact ⟨_, rfl, same, trivial⟩
  case done => cases stepped

theorem Faithful.workerStep (exclusive : engine.Exclusive)
    (faithful : engine.Faithful calculateHash template) {thread : Nat} {random : Bytes}
    (stepped : engine.workerStep calculateHash thread random = some next) :
    next.Faithful calculateHash template := by
  obtain ⟨worker, lookup, -, cases⟩ := workerStep_cases stepped
  have sound := faithful.workers worker (List.getElem?_mem lookup)
  obtain ⟨changed, threads, changed_sound⟩ := workerStep_sound header_size lookup sound stepped
  have workers : ∀ other ∈ next.threads, other.Sound calculateHash template :=
      fun other mem => by
    rw [threads] at mem
    rcases List.mem_or_eq_of_mem_set mem with mem | rfl
    exacts [faithful.workers other mem, changed_sound]
  rcases cases with ⟨_, count, -, -, rfl⟩ | ⟨-, unfound, rfl⟩ | ⟨pc, rfl⟩ | ⟨-, rfl⟩
  · exact ⟨workers, faithful.published, faithful.reply⟩
  · refine ⟨workers, faithful.published, fun result replied => ?_⟩
    have := faithful.reply result replied
    simp [Engine.solution, unfound] at this
  · obtain ⟨same, prepared, ⟨input, hash⟩, meets⟩ :
        worker.template = template ∧ worker.Prepared template ∧ worker.Hashed calculateHash ∧
          hashMeetsTarget worker.hash template.target = true := by
      simpa [Worker.Sound, pc] using sound
    have empty := exclusive.pending (pc ▸ atPc_pos lookup)
    have header :
        copyAt (copyAt (List.replicate 140 0) 0 worker.headerWithoutNonce) 108 worker.nonce =
          worker.headerWithoutNonce ++ worker.nonce :=
      copyAt_prefix_nonce (prepared.1 ▸ header_length header_size) prepared.2.1
    refine ⟨workers, fun _ => ?_, fun result replied => ?_⟩
    · refine ⟨same, ?_, prepared.2.1, ?_, meets⟩ <;>
        simp only [setWorker_solutionHeader, setWorker_solutionNonce, setWorker_solutionHash]
      · rw [header, prepared.1]
      · rw [header, ← input, hash]
    · have := faithful.reply result replied
      simp [Engine.solution, empty] at this
  · exact ⟨workers, faithful.published, faithful.reply⟩

theorem Faithful.step (exclusive : engine.Exclusive)
    (faithful : engine.Faithful calculateHash template) {action : Action}
    (fresh : ∀ template, action ≠ .call (.startMining template))
    (stepped : engine.step calculateHash action = some next) :
    next.Faithful calculateHash template := by
  cases action with
  | worker thread random => exact faithful.workerStep header_size exclusive stepped
  | join =>
    obtain ⟨request, joining, -, finished⟩ := join_cases stepped
    obtain ⟨keeps, -, replied⟩ :=
      finishCall_keeps (fun template same => exclusive.restart template (same ▸ joining)) finished
    exact Faithful.keeps
      (show Faithful calculateHash template ({ engine with threads := [] } : Engine)
        from ⟨nofun, faithful.published, faithful.reply⟩) keeps replied
  | call request =>
    simp only [Engine.step] at stepped
    split at stepped
    · rcases call_cases (fun template same => fresh template (same ▸ rfl)) ‹_› stepped with
        rfl | ⟨keeps, -, replied⟩
      · exact ⟨faithful.workers, faithful.published, nofun⟩
      · exact faithful.keeps keeps replied
    · cases stepped

/-- The states of a run of `start_mining(template)`: still in its `stop()` with nothing returned,
or in the session it started. -/
def Starting (calculateHash : Bytes → Bytes) (template : BlockTemplate) (engine : Engine) : Prop :=
  (engine.control = .joining (.startMining template) ∧ engine.reply = .none) ∨
    (engine.Exclusive ∧ engine.Faithful calculateHash template)

theorem Starting.step (starting : engine.Starting calculateHash template) {action : Action}
    (fresh : ∀ template, action ≠ .call (.startMining template))
    (stepped : engine.step calculateHash action = some next) :
    next.Starting calculateHash template := by
  rcases starting with ⟨joining, replied⟩ | ⟨exclusive, faithful⟩
  · cases action with
    | worker thread random =>
      obtain ⟨worker, -, -,
          ⟨_, _, -, -, rfl⟩ | ⟨-, -, rfl⟩ | ⟨-, rfl⟩ | ⟨-, rfl⟩⟩ :=
        workerStep_cases stepped <;> exact .inl ⟨joining, replied⟩
    | join =>
      obtain ⟨request, again, -, finished⟩ := join_cases stepped
      obtain rfl := Control.joining.inj (joining.symm.trans again)
      cases finished
      exact .inr ⟨Exclusive.startSession _ _, Faithful.startSession _⟩
    | call request => simp [Engine.step, joining] at stepped
  · exact .inr ⟨exclusive.step fresh stepped,
      faithful.step header_size exclusive fresh stepped⟩

end HeaderSize

/-- A solution that `get_solution` returns in the session `start_mining(template)` started is a
header made of the template's first 108 bytes and the 32-byte nonce the winner hashed, the hash
of that header, which meets the target, and the template itself. -/
theorem getSolution_returns_published (calculateHash : Bytes → Bytes) (template : BlockTemplate)
    (header_size : 108 ≤ template.headerBase.length) (engine final : Engine)
    (actions : List Action) (session : ∀ other, .call (.startMining other) ∉ actions)
    (ran : engine.run calculateHash (.call (.startMining template) :: actions) = some final)
    (header hash : Bytes) (returned : BlockTemplate)
    (got : final.reply = .solution (some (header, hash, returned))) :
    returned = template ∧ header = template.headerBase.take 108 ++ final.solutionNonce ∧
      final.solutionNonce.length = 32 ∧ hash = calculateHash header ∧
      hashMeetsTarget hash template.target = true := by
  obtain ⟨started, called, ran⟩ := Option.bind_eq_some.mp ran
  have starting : started.Starting calculateHash template := by
    simp only [Engine.step] at called
    split at called
    · cases called; exact .inl ⟨rfl, rfl⟩
    · cases called
  rcases run_invariant _
      (fun starting fresh stepped => Starting.step header_size starting fresh stepped)
      session starting ran with ⟨-, replied⟩ | ⟨-, faithful⟩
  · simp [replied] at got
  · have solution := faithful.reply _ got
    simp only [Engine.solution] at solution
    split at solution
    · rename_i found_written
      obtain ⟨same, header_eq, nonce, hash_eq, meets⟩ := faithful.published found_written.2
      simp only [Option.some.injEq, Prod.mk.injEq] at solution
      obtain ⟨rfl, rfl, rfl⟩ := solution
      exact ⟨same, header_eq, nonce, hash_eq, meets⟩
    · cases solution

set_option maxRecDepth 8000 in
theorem getSolution_returns_published_single_worker :
    108 ≤ easyTemplate.headerBase.length ∧
      (∀ other, .call (.startMining other) ∉
        .join :: List.replicate 8 (Action.worker 0 []) ++ [.call .getSolution]) ∧
      (create singleVmPool).run (fun _ => List.replicate 32 0)
          (.call (.startMining easyTemplate) ::
            .join :: List.replicate 8 (.worker 0 []) ++ [.call .getSolution]) =
        some (((create singleVmPool).run (fun _ => List.replicate 32 0)
          (.call (.startMining easyTemplate) ::
            .join :: List.replicate 8 (.worker 0 []) ++ [.call .getSolution])).getD
          (create singleVmPool)) ∧
      hashMeetsTarget (List.replicate 32 0) easyTemplate.target = true :=
  have header_size : 108 ≤ easyTemplate.headerBase.length := by decide
  have session : ∀ other, .call (.startMining other) ∉
      .join :: List.replicate 8 (Action.worker 0 []) ++ [.call .getSolution] := by simp
  have ran := rfl
  ⟨header_size, session, ran,
    (getSolution_returns_published _ _ header_size _ _ _ session ran (List.replicate 140 0)
      (List.replicate 32 0) easyTemplate (by decide)).2.2.2.2⟩

end Engine

end JunoMiner
