import JunoMiner.Header
import JunoMiner.Engine.Solution
import JunoMiner.Main.Seeds

/-!
# What `main` submits

`main` hands `serialize_block` and `submit_block` what `get_solution` returned. Every template
`main` holds came from `parse_block_template`, so it is well formed; the miner's session runs on
the template `main` passed to `start_mining`, and `main` keeps that template until it leaves the
session. So at the `get_solution` after the inner loop the template returned is `main`'s, the
header is its first 108 bytes and a 32-byte nonce, and the hash is the hash of that header and
meets the template's target, at the end of every run of the process, whatever the workers, the
signals and the node do. The block `serialize_block` lays out from them passes the node's own
check: the hash it carries as `nSolution` meets the target of the `nBits` in its header.
-/

namespace JunoMiner

namespace Engine

variable {engine : Engine} {calculateHash : Bytes → Bytes} {template : BlockTemplate}

theorem Exclusive.create (pool : Pool) : (create pool).Exclusive :=
  ⟨fun _ => ⟨rfl, rfl, rfl⟩, by simp [atPc, Engine.create], nofun, nofun, nofun,
    fun _ _ => .inr rfl, nofun⟩

theorem Faithful.create (pool : Pool) : (create pool).Faithful calculateHash template :=
  ⟨nofun, fun written => absurd rfl written, nofun⟩

/-- A solution `get_solution` returned in a session on `template`. -/
theorem Faithful.returned (faithful : engine.Faithful calculateHash template)
    {header hash : Bytes} {returned : BlockTemplate}
    (got : engine.reply = .solution (some (header, hash, returned))) :
    returned = template ∧ header = template.headerBase.take 108 ++ engine.solutionNonce ∧
      engine.solutionNonce.length = 32 ∧ hash = calculateHash header ∧
      hashMeetsTarget hash template.target = true := by
  have solution := faithful.reply _ got
  simp only [Engine.solution] at solution
  split at solution
  · rename_i found_written
    obtain ⟨same, header_eq, nonce, hash_eq, meets⟩ := faithful.published found_written.2
    simp only [Option.some.injEq, Prod.mk.injEq] at solution
    obtain ⟨rfl, rfl, rfl⟩ := solution
    exact ⟨same, header_eq, nonce, hash_eq, meets⟩
  · cases solution

end Engine

namespace Main

variable {main : Main}

/-- `main`'s template after a step is the one it had, or one the parser returned. -/
theorem advance_template (mining running : Bool) (reply : Reply) (input : Input) :
    (main.advance mining running reply input).1.template = main.template ∨
      ∃ data,
        parseBlockTemplate data = .ok (main.advance mining running reply input).1.template := by
  unfold advance
  split
  case h_1 =>
    split
    · exact .inl rfl
    split
    · exact .inl rfl
    split
    · exact .inl rfl
    dsimp only
    split
    · exact .inr ⟨_, ‹_›⟩
    · exact .inr ⟨_, ‹_›⟩
  -- every other step keeps the template
  all_goals left
  all_goals try simp only [leaveInner, afterStop, checkBlock, missBlockCheck, startMining]
  all_goals repeat' split
  all_goals rfl

end Main

namespace System

variable {calculateHash : Bytes → Bytes} {system next : System}

/-- What makes a collected solution one the node accepts: `main`'s template came from the parser,
and the miner runs, or is starting, a session on such a template, which is `main`'s own while
`main` is inside the session. -/
structure Submitting (calculateHash : Bytes → Bytes) (system : System) : Prop where
  parsed : system.main.template.WellFormed
  session : ∃ template : BlockTemplate, template.WellFormed ∧
    system.engine.Starting calculateHash template ∧
    (system.main.stage.live = true → system.main.stage ≠ .outer →
      system.main.stage ≠ .seedUpdated → template = system.main.template)

theorem submitting_boot {config : Config} {chainInfo initialTemplate : Option Json}
    (booted : boot config chainInfo initialTemplate = .ok system) :
    system.Submitting calculateHash := by
  obtain ⟨_, template, pool, -, parsed, -, -, rfl⟩ := boot_ok booted
  have wf := parseBlockTemplate_wellFormed parsed
  exact ⟨wf, template, wf, .inr ⟨.create _, .create _⟩, fun _ away => absurd rfl away⟩

/-- `main`'s template after a step of `main` came from the parser. -/
theorem Submitting.advanced (submitting : system.Submitting calculateHash) (mining running : Bool)
    (reply : Reply) (input : Input) :
    (system.main.advance mining running reply input).1.template.WellFormed := by
  rcases system.main.advance_template mining running reply input with same | ⟨_, parsed⟩
  · exact same ▸ submitting.parsed
  · exact parseBlockTemplate_wellFormed parsed

/-- A step of `main`, made between calls, keeps the invariant: the session changes only at
`start_mining`, on the template `main` holds. -/
theorem Submitting.main {input : Input} (submitting : system.Submitting calculateHash)
    (stepped : system.step calculateHash (.main input) = some next) :
    next.Submitting calculateHash := by
  simp only [step] at stepped
  split at stepped
  case isFalse => cases stepped
  rename_i ready
  obtain ⟨idle, live⟩ := ready
  obtain ⟨template, wf, starting, current⟩ := submitting.session
  have parsed := submitting.advanced system.engine.mining system.running system.engine.reply input
  have move := system.main.advance_move system.engine.mining system.running system.engine.reply
    input
  generalize system.main.advance _ _ _ _ = result at stepped move parsed
  -- a call other than `start_mining` keeps the session's template
  have called {request : Call} {engine : Engine} (made : system.engine.call request = some engine)
      (fresh : ∀ template, request ≠ .startMining template) :
      engine.Starting calculateHash template := by
    have stepped : system.engine.step calculateHash (.call request) = some engine := by
      rw [Engine.step, if_pos idle]
      exact made
    exact starting.step (by rw [wf.headerBase_length]; decide)
      (fun template same => fresh template (Action.call.inj same)) stepped
  cases move with
  | retry outer stays =>
    cases stepped
    exact ⟨parsed, template, wf, starting, fun _ away => absurd stays away⟩
  | @routine after request _ stage _ keeps calls =>
    cases request with
    | none =>
      cases stepped
      exact ⟨parsed, template, wf, starting,
        fun _ _ _ => (current live ‹_› stage).trans keeps.template.symm⟩
    | some request =>
      cases stepped
      split
      · exact ⟨parsed, template, wf, called ‹_› fun template same => by
          subst same; exact calls _ rfl,
          fun _ _ _ => (current live ‹_› stage).trans keeps.template.symm⟩
      · exact ⟨parsed, template, wf, starting, fun ended => by simp [Stage.live] at ended⟩
  | update _ updating =>
    cases stepped
    split
    · exact ⟨parsed, template, wf, called ‹_› (by simp), fun _ _ other => absurd updating other⟩
    · exact ⟨parsed, template, wf, starting, fun ended => by simp [Stage.live] at ended⟩
  | start outer starts =>
    cases stepped
    split
    · rename_i engine made
      cases made
      exact ⟨parsed, _, parsed, .inl ⟨rfl, rfl⟩, fun _ _ _ => rfl⟩
    · exact ⟨parsed, template, wf, starting, fun ended => by simp [Stage.live] at ended⟩
  | adopt updating replied starts keeps =>
    cases stepped
    split
    · rename_i engine made
      cases made
      exact ⟨parsed, _, submitting.parsed, .inl ⟨rfl, rfl⟩, fun _ _ _ => keeps.template.symm⟩
    · exact ⟨parsed, template, wf, starting, fun ended => by simp [Stage.live] at ended⟩
  | exit ends =>
    cases stepped
    exact ⟨parsed, template, wf, starting, fun live => absurd live (by simp [ends])⟩

/-- Every step keeps the invariant: the workers and the join are steps of the session's miner. -/
theorem Submitting.step {event : Event} (submitting : system.Submitting calculateHash)
    (stepped : system.step calculateHash event = some next) : next.Submitting calculateHash := by
  obtain ⟨template, wf, starting, current⟩ := submitting.session
  have header_size : 108 ≤ template.headerBase.length := by rw [wf.headerBase_length]; decide
  cases event with
  | worker thread random =>
    obtain ⟨engine, worked, rfl⟩ := Option.map_eq_some'.mp stepped
    exact ⟨submitting.parsed, template, wf, starting.step header_size (by simp)
      (show system.engine.step calculateHash (.worker thread random) = some engine from worked),
      current⟩
  | signal =>
    cases stepped
    exact ⟨submitting.parsed, submitting.session⟩
  | join =>
    simp only [System.step] at stepped
    split at stepped
    · split at stepped
      · cases stepped
        split
        · exact ⟨submitting.parsed, template, wf, starting.step header_size (by simp)
            (show system.engine.step calculateHash .join = some _ from ‹_›), current⟩
        · exact ⟨submitting.parsed, template, wf, starting,
            fun ended => by simp [Stage.live] at ended⟩
      · cases stepped
    · cases stepped
  | main input => exact submitting.main stepped

/-- At `.collected` the reply of `get_solution` is a solution of `main`'s own session. -/
theorem Submitting.collected (submitting : system.Submitting calculateHash)
    (collected : system.main.stage = .collected) {header hash : Bytes} {template : BlockTemplate}
    (got : system.engine.reply = .solution (some (header, hash, template))) :
    template = system.main.template ∧ template.WellFormed ∧
      (∃ nonce : Bytes, nonce.length = 32 ∧ header = template.headerBase.take 108 ++ nonce) ∧
      hash = calculateHash header ∧ hashMeetsTarget hash template.target = true := by
  obtain ⟨session, wf, starting, current⟩ := submitting.session
  have same := current (by rw [collected]; rfl) (by rw [collected]; nofun)
    (by rw [collected]; nofun)
  rcases starting with ⟨-, replied⟩ | ⟨-, faithful⟩
  · rw [replied] at got
    cases got
  · obtain ⟨rfl, header_eq, nonce, hash_eq, meets⟩ := faithful.returned got
    exact ⟨same, wf, ⟨_, nonce, header_eq⟩, hash_eq, meets⟩

/-- Every solution `main` collects is one the node accepts. When `main` has called `get_solution`
and it returned `true`, the template it hands to `serialize_block` with the header and hash is
the one `main` parsed last, the header is that template's first 108 bytes (the version, the three
hashes, the time and the bits of the node's reply) followed by a 32-byte nonce, and the hash is
the hash of that header and meets the template's target. -/
theorem collected_solution_valid (calculateHash : Bytes → Bytes) (config : Config)
    (chainInfo initialTemplate : Option Json) (start final : System) (events : List Event)
    (booted : boot config chainInfo initialTemplate = .ok start)
    (ran : start.run calculateHash events = some final) (collected : final.main.stage = .collected)
    {header hash : Bytes} {template : BlockTemplate}
    (got : final.engine.reply = .solution (some (header, hash, template))) :
    template = final.main.template ∧ template.WellFormed ∧
      (∃ nonce : Bytes, nonce.length = 32 ∧ header = template.headerBase.take 108 ++ nonce) ∧
      hash = calculateHash header ∧ hashMeetsTarget hash template.target = true :=
  (run_invariant calculateHash _ (fun submitting stepped => submitting.step stepped)
    (submitting_boot booted) ran).collected collected got

/-- `main` fetches the template and starts a session on it, the one worker finds a solution at
its first hash, and `main`, seeing `is_mining()` false, calls `get_solution`. -/
def oneSession : List Event :=
  let input : Input := ⟨some (templateReply 5 (List.replicate 64 48)), ' ', 0, false, none⟩
  .main input :: .join :: List.replicate 8 (.worker 0 []) ++ [.main input]

theorem collected_solution_valid_on_one_worker :
    ∃ final header hash template,
      boot (lightConfig 1 fun _ => false) (some (chainReply 4))
          (some (templateReply 5 (List.replicate 64 48))) = .ok sampleStart ∧
        sampleStart.run (fun _ => List.replicate 32 0) oneSession = some final ∧
        final.main.stage = .collected ∧
        final.engine.reply = .solution (some (header, hash, template)) ∧
        hashMeetsTarget hash template.target = true :=
  have booted : boot (lightConfig 1 fun _ => false) (some (chainReply 4))
      (some (templateReply 5 (List.replicate 64 48))) = .ok sampleStart := rfl
  ⟨_, _, _, _, booted, rfl, rfl, rfl,
    (collected_solution_valid (fun _ => List.replicate 32 0) _ _ _ _ _ oneSession booted rfl rfl
      rfl).2.2.2.2⟩

/-- The block `main` hands `submit_block` passes the node's proof-of-work check. Decoding the hex,
the node finds a 140-byte header and then the `nSolution` vector, whose bytes are the hash of
that header; the hash meets the target that the header's own `nBits`, at offset 104, encodes.
`randomx_calculate_hash` writes `RANDOMX_HASH_SIZE` (32) bytes, a size the node's CompactSize
reader accepts. -/
theorem submitted_block_passes_pow_check (calculateHash : Bytes → Bytes)
    (hashSize : ∀ input, (calculateHash input).length = 32) (config : Config)
    (chainInfo initialTemplate : Option Json) (start final : System) (events : List Event)
    (booted : boot config chainInfo initialTemplate = .ok start)
    (ran : start.run calculateHash events = some final) (collected : final.main.stage = .collected)
    {header hash : Bytes} {template : BlockTemplate}
    (got : final.engine.reply = .solution (some (header, hash, template))) {block : Bytes}
    (serialized : serializeBlock header hash template.coinbaseTxnHex template.txnHex = .ok block) :
    ∃ bytes rest, hexToBytes block = .ok bytes ∧ 140 ≤ bytes.length ∧
      readCompactSize (bytes.drop 140) = some (UInt64.ofNat hash.length, hash ++ rest) ∧
      hash = calculateHash (bytes.take 140) ∧
      hashMeetsTarget hash (compactToTarget (readLe32 bytes 104)) = true := by
  obtain ⟨-, wf, ⟨nonce, nonce_length, rfl⟩, hash_eq, meets⟩ :=
    (run_invariant calculateHash _ (fun submitting stepped => submitting.step stepped)
      (submitting_boot booted) ran).collected collected got
  obtain ⟨front, front_length, solved⟩ := wf.take_solved
  obtain ⟨rest, decoded⟩ := serializeBlock_ok serialized
  have header_length : (front ++ le32 template.bits ++ nonce).length = 140 := by
    simp [front_length, le32_length, nonce_length]
  rw [solved] at decoded hash_eq
  refine ⟨_, rest, decoded, by rw [List.length_append, header_length]; omega, ?_, ?_, ?_⟩
  · rw [List.drop_left' header_length, readCompactSize_encodeVarint, hash_eq, hashSize]
    rfl
  · rwa [List.take_left' header_length]
  · rwa [List.append_assoc (front ++ _), ← front_length, readLe32_le32, ← wf.target]

theorem submitted_block_passes_pow_check_on_one_worker :
    ∃ final header hash template block,
      boot (lightConfig 1 fun _ => false) (some (chainReply 4))
          (some (templateReply 5 (List.replicate 64 48))) = .ok sampleStart ∧
        sampleStart.run (fun _ => List.replicate 32 0) oneSession = some final ∧
        final.main.stage = .collected ∧
        final.engine.reply = .solution (some (header, hash, template)) ∧
        serializeBlock header hash template.coinbaseTxnHex template.txnHex = .ok block ∧
        ∃ bytes, hexToBytes block = .ok bytes ∧
          hashMeetsTarget hash (compactToTarget (readLe32 bytes 104)) = true := by
  have booted : boot (lightConfig 1 fun _ => false) (some (chainReply 4))
      (some (templateReply 5 (List.replicate 64 48))) = .ok sampleStart := rfl
  obtain ⟨bytes, -, decoded, -, -, -, meets⟩ := submitted_block_passes_pow_check
    (fun _ => List.replicate 32 0) (fun _ => rfl) _ _ _ _ _ oneSession booted rfl rfl rfl rfl
  exact ⟨_, _, _, _, _, booted, rfl, rfl, rfl, rfl, bytes, decoded, meets⟩

end System

end JunoMiner
