import JunoMiner.Engine.Basic
import JunoMiner.Serialize

/-!
# `main`'s control loop

After its startup (the node's chain info, the first template, `Miner` and `initialize`), `main`
runs two loops. The outer one fetches a template, parses it, brings the pool to the template's
seed with `update_seed`, and starts a session; the inner one polls `is_mining()`, the keyboard and
the node's tip, and leaves through a `stop()`, after which `main` collects a solution. `main` is the
control thread of the miner: a step of `main` runs its code from where it is up to its next call of
the miner or the top of a loop, and while a call waits in `stop()` the workers and the join run.

The world's answers (RPC results, keys, the typed thread count, whether the block check is due)
come in an `Input`. The status screen, the statistics and balance refresh that only feed it, the
messages, the logs and the block submission, whose result nothing reads, are left out.
-/

namespace JunoMiner

/-- Where `main` is. -/
inductive Stage where
  /-- At `while (running.load())`. -/
  | outer
  /-- `update_seed(block_template.seed_hash)` was called for an epoch change. -/
  | seedUpdated
  /-- At `while (miner.is_mining() && running.load())`. -/
  | inner
  /-- The `stop()` of the `'t'` key was called. -/
  | keyStopped
  /-- After the inner loop, at `if (!running.load()) miner.stop();`. -/
  | afterInner
  /-- That `stop()` was called. -/
  | checked
  /-- `get_solution` was called. -/
  | collected
  /-- `main` returned `code`. -/
  | exited (code : Nat)
  /-- An exception escaped `main`. -/
  | crashed (error : CppException)
  /-- An integer division by zero (`% cpu_ids.size()` with no CPUs) killed the process. -/
  | aborted
  deriving DecidableEq, Repr

/-- `main` still runs. -/
def Stage.live : Stage → Bool
  | .exited _ | .crashed _ | .aborted => false
  | _ => true

/-- `main`'s locals that its control flow reads. -/
structure Main where
  /-- Where it is. -/
  stage : Stage
  /-- `current_block_height`. -/
  currentBlockHeight : Nat
  /-- `current_seed_hash`. -/
  currentSeedHash : Bytes
  /-- `block_template`, parsed at the top of the outer loop. -/
  template : BlockTemplate
  /-- `block_changed`. -/
  blockChanged : Bool
  /-- `consecutive_rpc_failures`. -/
  consecutiveRpcFailures : Nat
  /-- `was_disconnected`. -/
  wasDisconnected : Bool
  deriving DecidableEq, Repr

/-- What the world gives one step of `main`. -/
structure Input where
  /-- The `getblocktemplate` result, `none` when `rpc.get_block_template` fails. -/
  template : Option Json
  /-- `check_key_pressed()`. -/
  key : Char
  /-- `get_thread_count_input(resources)`. -/
  threadCount : Int
  /-- `block_check_elapsed >= config.block_check_interval_seconds`. -/
  blockCheckDue : Bool
  /-- The `getblockchaininfo` result, `none` when `rpc.get_blockchain_info` fails. -/
  chainInfo : Option Json

/-- The calls that neither re-key the pool nor start a session. -/
def Call.Routine : Call → Prop
  | .stop | .getSolution | .setThreadCount _ => True
  | .startMining _ | .updateSeed _ => False

namespace Main

variable (main : Main)

/-- `miner.start_mining(block_template)`, with the inner loop's locals. -/
def startMining : Main × Option Call :=
  ({ main with stage := .inner, blockChanged := false, consecutiveRpcFailures := 0 },
    some (.startMining main.template))

/-- After the inner loop and its `stop()`: `if (block_changed) continue;`, else `get_solution`. -/
def afterStop : Main × Option Call :=
  if main.blockChanged then ({ main with stage := .outer }, none)
  else ({ main with stage := .collected }, some .getSolution)

/-- `if (!running.load()) miner.stop();` and what follows it. -/
def leaveInner (running : Bool) : Main × Option Call :=
  if running then main.afterStop else ({ main with stage := .checked }, some .stop)

/-- The block check of the inner loop, on a `getblockchaininfo` result. -/
def checkBlock (info : Json) : Main × Option Call :=
  let main := { main with consecutiveRpcFailures := 0 }
  match (do (← info.member "blocks").asUInt64 : Except CppException UInt64) with
  | .error error => ({ main with stage := .crashed error }, none)
  | .ok networkHeight =>
    if networkHeight.toNat > main.currentBlockHeight then
      ({ main with blockChanged := true, stage := .afterInner }, some .stop)
    else (main, none)

/-- A failed block check: two in a row stop the session. -/
def missBlockCheck : Main × Option Call :=
  let main := { main with consecutiveRpcFailures := main.consecutiveRpcFailures + 1 }
  if main.consecutiveRpcFailures ≥ 2 then ({ main with stage := .afterInner }, some .stop)
  else (main, none)

/-- One step of `main` from where it is, given `mining_`, `running`, what the miner's last call
returned, and the world's answers: `main`'s next locals and the call it makes, if any. -/
def advance (mining running : Bool) (reply : Reply) (input : Input) : Main × Option Call :=
  match main.stage with
  | .outer =>
    if !running then ({ main with stage := .exited 0 }, none)
    else
      match input.template with
      | none => ({ main with wasDisconnected := true }, none)
      | some templateData =>
        let main := { main with wasDisconnected := false }
        match parseBlockTemplate templateData with
        | .error error => ({ main with stage := .crashed error }, none)
        | .ok template =>
          let main := { main with template, currentBlockHeight := template.height.toNat }
          if template.seedHash ≠ main.currentSeedHash then
            ({ main with stage := .seedUpdated }, some (.updateSeed template.seedHash))
          else main.startMining
  | .seedUpdated =>
    if reply = .flag true then { main with currentSeedHash := main.template.seedHash }.startMining
    else ({ main with stage := .exited 1 }, none)
  | .inner =>
    if !(mining && running) then main.leaveInner running
    else if input.key = 't' ∨ input.key = 'T' then ({ main with stage := .keyStopped }, some .stop)
    else if !input.blockCheckDue then (main, none)
    else
      match input.chainInfo with
      | some info => main.checkBlock info
      | none => main.missBlockCheck
  | .keyStopped =>
    if input.threadCount > 0 then
      ({ main with stage := .afterInner }, some (.setThreadCount input.threadCount.toNat))
    else main.leaveInner running
  | .afterInner => main.leaveInner running
  | .checked => main.afterStop
  | .collected =>
    match reply with
    | .solution (some (header, hash, template)) =>
      match serializeBlock header hash template.coinbaseTxnHex template.txnHex with
      | .error error => ({ main with stage := .crashed error }, none)
      | .ok _ => ({ main with stage := .outer }, none)
    | _ =>
      if !running then ({ main with stage := .exited 0 }, none)
      else ({ main with stage := .outer }, none)
  | .exited _ | .crashed _ | .aborted => (main, none)

/-! ## What a step of `main` can do -/

/-- `next` has the fields the outer loop sets in `main`: the seed, the template and its height. -/
structure Keeps (next main : Main) : Prop where
  seed : next.currentSeedHash = main.currentSeedHash
  template : next.template = main.template
  height : next.currentBlockHeight = main.currentBlockHeight

/-- What one step of `main` does with the template, the seed and the calls that read them. -/
inductive Move (main : Main) (reply : Reply) : Main × Option Call → Prop
  /-- Inside a session's loops, a step that keeps the template and makes no call that reads the
  seed or starts a session. -/
  | routine {next : Main} {request : Option Call} (away : main.stage ≠ .outer)
      (stage : main.stage ≠ .seedUpdated) (stays : next.stage ≠ .seedUpdated)
      (keeps : next.Keeps main) (calls : ∀ call, request = some call → call.Routine) :
      Move main reply (next, request)
  /-- At the top of the outer loop, a failed `getblocktemplate`: `main` waits and retries. -/
  | retry {next : Main} (outer : main.stage = .outer) (stays : next.stage = .outer)
      (keeps : next.Keeps main) : Move main reply (next, none)
  /-- At the top of the outer loop, a template on another seed: `update_seed` with its seed. -/
  | update {next : Main} (outer : main.stage = .outer) (updating : next.stage = .seedUpdated)
      (height : next.currentBlockHeight = next.template.height.toNat) :
      Move main reply (next, some (.updateSeed next.template.seedHash))
  /-- At the top of the outer loop, a template on `main`'s seed: a session starts on it. -/
  | start {next : Main} (outer : main.stage = .outer) (starts : next.stage = .inner)
      (seed : next.currentSeedHash = main.currentSeedHash)
      (keyed : next.template.seedHash = next.currentSeedHash)
      (height : next.currentBlockHeight = next.template.height.toNat) :
      Move main reply (next, some (.startMining next.template))
  /-- After `update_seed` returned `true`, `main` takes the template's seed and starts a session
  on the template. -/
  | adopt {next : Main} (updating : main.stage = .seedUpdated) (replied : reply = .flag true)
      (starts : next.stage = .inner)
      (keeps : next.Keeps { main with currentSeedHash := main.template.seedHash }) :
      Move main reply (next, some (.startMining main.template))
  /-- `main` returns or throws. -/
  | exit {next : Main} (ends : next.stage.live = false) : Move main reply (next, none)

variable {main : Main} {reply : Reply}

section Inside

variable (away : main.stage ≠ .outer) (stage : main.stage ≠ .seedUpdated)
include away stage

theorem afterStop_move : Move main reply main.afterStop := by
  unfold afterStop
  split
  · exact .routine away stage nofun ⟨rfl, rfl, rfl⟩ nofun
  · exact .routine away stage nofun ⟨rfl, rfl, rfl⟩ fun _ called => by cases called; trivial

theorem leaveInner_move (running : Bool) : Move main reply (main.leaveInner running) := by
  unfold leaveInner
  split
  · exact afterStop_move away stage
  · exact .routine away stage nofun ⟨rfl, rfl, rfl⟩ fun _ called => by cases called; trivial

theorem checkBlock_move (info : Json) : Move main reply (main.checkBlock info) := by
  unfold checkBlock
  dsimp only
  split
  · exact .exit rfl
  · split
    · exact .routine away stage nofun ⟨rfl, rfl, rfl⟩ fun _ called => by cases called; trivial
    · exact .routine away stage stage ⟨rfl, rfl, rfl⟩ nofun

theorem missBlockCheck_move : Move main reply main.missBlockCheck := by
  unfold missBlockCheck
  dsimp only
  split
  · exact .routine away stage nofun ⟨rfl, rfl, rfl⟩ fun _ called => by cases called; trivial
  · exact .routine away stage stage ⟨rfl, rfl, rfl⟩ nofun

end Inside

/-- Every step of `main` is one of the six moves. -/
theorem advance_move (mining running : Bool) (reply : Reply) (input : Input) :
    Move main reply (main.advance mining running reply input) := by
  unfold advance
  split
  case h_1 outer =>
    split
    · exact .exit rfl
    split
    · exact .retry outer outer ⟨rfl, rfl, rfl⟩
    split
    · exact .exit rfl
    dsimp only
    split
    · exact .update outer rfl rfl
    · exact .start outer rfl rfl (not_not.mp ‹_›) rfl
  case h_2 updating =>
    split
    · exact .adopt updating ‹_› rfl ⟨rfl, rfl, rfl⟩
    · exact .exit rfl
  case h_3 inner =>
    have away : main.stage ≠ .outer := by simp [inner]
    have stage : main.stage ≠ .seedUpdated := by simp [inner]
    split
    · exact leaveInner_move away stage running
    split
    · exact .routine away stage nofun ⟨rfl, rfl, rfl⟩ fun _ called => by cases called; trivial
    split
    · exact .routine away stage stage ⟨rfl, rfl, rfl⟩ nofun
    split
    · exact checkBlock_move away stage _
    · exact missBlockCheck_move away stage
  case h_4 keyStopped =>
    have away : main.stage ≠ .outer := by simp [keyStopped]
    have stage : main.stage ≠ .seedUpdated := by simp [keyStopped]
    split
    · exact .routine away stage nofun ⟨rfl, rfl, rfl⟩ fun _ called => by cases called; trivial
    · exact leaveInner_move away stage running
  case h_5 afterInner =>
    exact leaveInner_move (by simp [afterInner]) (by simp [afterInner]) running
  case h_6 checked => exact afterStop_move (by simp [checked]) (by simp [checked])
  case h_7 collected =>
    have away : main.stage ≠ .outer := by simp [collected]
    have stage : main.stage ≠ .seedUpdated := by simp [collected]
    split
    · split
      · exact .exit rfl
      · exact .routine away stage nofun ⟨rfl, rfl, rfl⟩ nofun
    · split
      · exact .exit rfl
      · exact .routine away stage nofun ⟨rfl, rfl, rfl⟩ nofun
  all_goals exact .exit (by simp [*, Stage.live])

end Main

/-- What `main` is started with. -/
structure Config where
  /-- What libnuma reports. -/
  topology : Topology
  /-- The worker count, from the command line or the machine. -/
  numThreads : Nat
  /-- `--fast`. -/
  fastMode : Bool
  /-- `std::thread::hardware_concurrency()`. -/
  hardwareConcurrency : Nat
  /-- The RandomX heap at start, with the allocations that will fail. -/
  rx : RandomX

/-- The process: `main`, the miner with its workers, and the `running` flag of the signal
handler. -/
structure System where
  /-- `main`'s locals. -/
  main : Main
  /-- The miner. -/
  engine : Engine
  /-- `running`. -/
  running : Bool

/-- What `main` reads of the `getblockchaininfo` result to print it: `chain` as a string and
`blocks` as an unsigned number. -/
def readBlockchainInfo (info : Json) : Except CppException Unit := do
  let _ ← (← info.member "chain").asString
  let _ ← (← info.member "blocks").asUInt
  pure ()

/-- `main` up to its loop, from the `getblockchaininfo` and first `getblocktemplate` results:
the process at the top of the outer loop, or how `main` ended before it. -/
def boot (config : Config) (chainInfo initialTemplate : Option Json) : Except Stage System :=
  match chainInfo with
  | none => .error (.exited 1)
  | some info =>
    match readBlockchainInfo info with
    | .error error => .error (.crashed error)
    | .ok () =>
      match initialTemplate with
      | none => .error (.exited 1)
      | some templateData =>
        match parseBlockTemplate templateData with
        | .error error => .error (.crashed error)
        | .ok template =>
          match Pool.construct config.topology config.numThreads config.fastMode
              config.hardwareConcurrency config.rx with
          | none => .error .aborted
          | some pool =>
            let (initialized, pool) := pool.initializeSeed template.seedHash
            if !initialized then .error (.exited 1)
            else .ok
              { main := ⟨.outer, 0, template.seedHash, template, false, 0, false⟩
                engine := Engine.create pool
                running := true }

/-- `main` reaches its loop only through a first template the parser accepts and a successful
`initialize` on its seed, with the miner idle. -/
theorem boot_ok {config : Config} {chainInfo initialTemplate : Option Json} {start : System}
    (booted : boot config chainInfo initialTemplate = .ok start) :
    ∃ data template, ∃ pool : Pool, initialTemplate = some data ∧
      parseBlockTemplate data = .ok template ∧
      Pool.construct config.topology config.numThreads config.fastMode config.hardwareConcurrency
        config.rx = some pool ∧ (pool.initializeSeed template.seedHash).1 = true ∧
      start =
        { main := ⟨.outer, 0, template.seedHash, template, false, 0, false⟩
          engine := Engine.create (pool.initializeSeed template.seedHash).2
          running := true } := by
  unfold boot at booted
  repeat' split at booted
  all_goals cases booted
  rename_i data _ template parsed _ pool constructed _ initialized _ initializedSeed succeeded
  refine ⟨data, template, pool, rfl, parsed, constructed, ?_, by rw [initializedSeed]⟩
  simpa [initializedSeed] using succeeded

/-- A step of the process. -/
inductive Event where
  /-- A step of worker `thread`. -/
  | worker (thread : Nat) (random : Bytes)
  /-- The join that ends the `stop()` `main` waits in. -/
  | join
  /-- `main` runs to its next call or loop head. -/
  | main (input : Input)
  /-- SIGINT or SIGTERM: `running = false`. -/
  | signal

namespace System

variable (calculateHash : Bytes → Bytes)

/-- One step; `none` when the event cannot happen. -/
def step (system : System) : Event → Option System
  | .worker thread random =>
    (system.engine.workerStep calculateHash thread random).map fun engine => { system with engine }
  | .join =>
    match system.engine.control with
    | .joining _ =>
      if system.engine.allDone then
        some (match system.engine.join with
          | some engine => { system with engine }
          | none => { system with main := { system.main with stage := .aborted } })
      else none
    | .idle => none
  | .main input =>
    if system.engine.control = .idle ∧ system.main.stage.live then
      let (main, request) :=
        system.main.advance system.engine.mining system.running system.engine.reply input
      match request with
      | none => some { system with main }
      | some request =>
        some (match system.engine.call request with
          | some engine => { system with main, engine }
          | none => { system with main := { main with stage := .aborted } })
    else none
  | .signal => some { system with running := false }

/-- A run of steps. -/
def run : System → List Event → Option System
  | system, [] => some system
  | system, event :: rest => (system.step calculateHash event).bind (run · rest)

/-- A fact about `main`'s locals that every step of `main` keeps, and that holds once `main` has
ended, is kept by every step of the process: the other steps leave `main` alone or abort it. -/
theorem step_main (holds : Main → Prop)
    (ended : ∀ main : Main, main.stage.live = false → holds main)
    (advanced : ∀ (main : Main) mining running reply input, holds main →
      main.stage.live = true → holds (main.advance mining running reply input).1)
    {system next : System} {event : Event} (start : holds system.main)
    (stepped : system.step calculateHash event = some next) : holds next.main := by
  cases event with
  | worker =>
    obtain ⟨_, _, rfl⟩ := Option.map_eq_some'.mp stepped
    exact start
  | signal =>
    cases stepped
    exact start
  | join =>
    simp only [step] at stepped
    split at stepped
    · split at stepped
      · cases stepped
        split
        · exact start
        · exact ended _ rfl
      · cases stepped
    · cases stepped
  | main input =>
    simp only [step] at stepped
    split at stepped
    · rename_i ready
      have after := advanced _ system.engine.mining system.running system.engine.reply input start
        ready.2
      generalize system.main.advance _ _ _ _ = result at stepped after
      obtain ⟨main, request⟩ := result
      cases request
      · cases stepped
        exact after
      · cases stepped
        split
        · exact after
        · exact ended _ rfl
    · cases stepped

/-- Every step of the process is a step of the miner, or leaves the miner alone. -/
theorem step_engine {system next : System} {event : Event}
    (stepped : system.step calculateHash event = some next) :
    next.engine = system.engine ∨
      ∃ action, system.engine.step calculateHash action = some next.engine := by
  cases event with
  | worker thread random =>
    obtain ⟨_, worked, rfl⟩ := Option.map_eq_some'.mp stepped
    exact .inr ⟨.worker thread random, worked⟩
  | signal =>
    cases stepped
    exact .inl rfl
  | join =>
    simp only [step] at stepped
    split at stepped
    · split at stepped
      · cases stepped
        split
        · exact .inr ⟨.join, ‹_›⟩
        · exact .inl rfl
      · cases stepped
    · cases stepped
  | main input =>
    simp only [step] at stepped
    split at stepped
    · rename_i ready
      generalize system.main.advance _ _ _ _ = result at stepped
      obtain ⟨main, request⟩ := result
      cases request
      · cases stepped
        exact .inl rfl
      · cases stepped
        split
        · exact .inr ⟨.call _, by rw [Engine.step, if_pos ready.1]; assumption⟩
        · exact .inl rfl
    · cases stepped

/-- Anything every step keeps holds along every run. -/
theorem run_invariant (holds : System → Prop)
    (preserved : ∀ {system next : System} {event : Event}, holds system →
      system.step calculateHash event = some next → holds next)
    {system final : System} {events : List Event} (start : holds system)
    (ran : system.run calculateHash events = some final) : holds final := by
  induction events generalizing system with
  | nil => cases ran; exact start
  | cons event rest induction =>
    obtain ⟨middle, stepped, ran⟩ := Option.bind_eq_some.mp ran
    exact induction (preserved start stepped) ran

end System

/-! ## Sample machines and replies -/

/-- A machine without NUMA running `numThreads` light-mode workers on as many CPUs, whose RandomX
allocations fail at the attempts `fails` names. -/
def lightConfig (numThreads : Nat) (fails : Nat → Bool) : Config :=
  ⟨⟨false, 1, numThreads, fun _ => none⟩, numThreads, false, numThreads, RandomX.fresh fails 1⟩

/-- Two light workers without NUMA on a heap where no allocation fails, as constructed. -/
def sampleLightPool : Pool :=
  (Pool.construct ⟨false, 1, 2, fun _ => none⟩ 2 false 2 (RandomX.fresh (fun _ => false) 1)).getD
    ⟨0, false, [], none, [], [], [], false, 0, none, [], 0, RandomX.fresh (fun _ => false) 1⟩

/-- A `getblocktemplate` result at `height` on the seed whose hex text is `seedHex`, with zero
hashes, the easiest `bits` and a one-byte coinbase. -/
def templateReply (height : Nat) (seedHex : Bytes) : Json :=
  .object [("version", .uint 4), ("previousblockhash", .string (List.replicate 64 48)),
    ("curtime", .uint 0), ("bits", .string (ascii "2007ffff")), ("height", .uint height),
    ("randomxseedheight", .uint 0), ("randomxseedhash", .string seedHex),
    ("defaultroots", .object [("merkleroot", .string (List.replicate 64 48)),
      ("blockcommitmentshash", .string (List.replicate 64 48))]),
    ("coinbasetxn", .object [("data", .string (ascii "00"))])]

/-- A `getblockchaininfo` result at `blocks`. -/
def chainReply (blocks : Nat) : Json :=
  .object [("chain", .string (ascii "main")), ("blocks", .uint blocks)]

end JunoMiner
