import JunoMiner.Template
import JunoMiner.Pool.Ops

/-!
# Mining sessions

`start_mining` spawns one `worker_thread` per worker. A worker hashes a 140-byte input made of the
template's first 108 header bytes and its own 32-byte nonce; the first worker whose hash meets
the target wins the compare-and-swap on `found_`, writes the four `solution_*` fields and clears
`mining_`. The control thread's calls run between the workers' steps. `stop()` clears `mining_` and
then joins every thread of `threads_`: here that is a `join` step, which the control thread takes
once every worker has returned, and which goes on with the rest of the call that stopped.

A worker's steps are the loads of the two atomics, the hash (with the copy of the nonce before
it), the `fetch_add` with the target check, the compare-and-swap, the writes, and the store to
`mining_`. `randomx_calculate_hash` is a function of the input: every VM of a session is keyed with
the pool's seed (`Pool.Keyed`), so all of them compute the same one.
-/

namespace JunoMiner

/-- The nonce a worker starts from: the 32 bytes read from `/dev/urandom` (zeros where the read
comes short), with bytes 0, 1, 30 and 31 cleared. -/
def startNonce (random : Bytes) : Bytes :=
  (List.range 32).map fun index =>
    if index = 0 ∨ index = 1 ∨ index = 30 ∨ index = 31 then 0 else random.getD index 0

@[simp]
theorem startNonce_length (random : Bytes) : (startNonce random).length = 32 := by
  simp [startNonce]

/-- The 256-bit little-endian increment of the nonce, with carry. -/
def incrementNonce : Bytes → Bytes
  | [] => []
  | byte :: rest => if byte = 255 then 0 :: incrementNonce rest else (byte + 1) :: rest

@[simp]
theorem incrementNonce_length (nonce : Bytes) : (incrementNonce nonce).length = nonce.length := by
  induction nonce with
  | nil => rfl
  | cons byte rest induction => unfold incrementNonce; split <;> simp [induction]

/-- The fields of a default-constructed `BlockTemplate`. -/
def BlockTemplate.empty : BlockTemplate :=
  ⟨0, [], [], [], 0, 0, [], [], 0, 0, [], [], [], [], []⟩

/-- Where a worker is in `worker_thread`. -/
inductive Pc where
  /-- Before `get_vm_for_thread`. -/
  | start
  /-- At `mining_.load()` in the loop condition. -/
  | loadMining
  /-- At `found_.load()` in the loop condition. -/
  | loadFound
  /-- About to copy the nonce into `hash_input` and run `randomx_calculate_hash`. -/
  | hashing
  /-- About to run `hash_count_.fetch_add(1)` and check the target. -/
  | counting
  /-- About to run `found_.compare_exchange_strong(expected, true)`. -/
  | claiming
  /-- Won the exchange; about to write the `solution_*` fields. -/
  | publishing
  /-- About to store `mining_ = false`. -/
  | signalling
  /-- Returned. -/
  | done
  deriving DecidableEq, Repr

/-- A worker thread: its arguments and locals. -/
structure Worker where
  /-- `thread_id`. -/
  threadId : Nat
  /-- `block_template`. -/
  template : BlockTemplate
  /-- `vm`. -/
  vm : Option Nat
  /-- `header_without_nonce`. -/
  headerWithoutNonce : Bytes
  /-- `nonce`. -/
  nonce : Bytes
  /-- `hash_input`. -/
  hashInput : Bytes
  /-- `hash`. -/
  hash : Bytes
  /-- Where the worker is. -/
  pc : Pc
  deriving DecidableEq, Repr

/-- `std::thread(&Miner::worker_thread, this, threadId, std::cref(template))`. -/
def Worker.spawn (template : BlockTemplate) (threadId : Nat) : Worker :=
  ⟨threadId, template, none, [], [], [], [], .start⟩

/-- A call of the control thread. -/
inductive Call where
  /-- `start_mining(template)`. -/
  | startMining (template : BlockTemplate)
  /-- `stop()`. -/
  | stop
  /-- `get_solution(header, hash, template)`. -/
  | getSolution
  /-- `update_seed(seed_hash)`. -/
  | updateSeed (seedHash : Bytes)
  /-- `set_thread_count(count)`. -/
  | setThreadCount (count : Nat)
  deriving DecidableEq, Repr

/-- What the control thread is doing. -/
inductive Control where
  /-- Outside the miner's calls. -/
  | idle
  /-- In the `stop()` of a call, waiting for every worker to return; the call goes on after. -/
  | joining (call : Call)
  deriving DecidableEq, Repr

/-- What the control thread's last call returned. -/
inductive Reply where
  /-- Nothing: a `void` call, or a call still running. -/
  | none
  /-- The `bool` of `update_seed` and `set_thread_count`. -/
  | flag (value : Bool)
  /-- `get_solution`: its out-parameters when it returns `true`. -/
  | solution (result : Option (Bytes × Bytes × BlockTemplate))
  deriving DecidableEq, Repr

/-- `Miner`: the RandomX state manager, the session's atomics and fields, the worker threads, and
where the control thread is. -/
structure Engine where
  /-- The RandomX state manager. -/
  pool : Pool
  /-- `mining_`. -/
  mining : Bool
  /-- `found_`. -/
  found : Bool
  /-- `hash_count_`. -/
  hashCount : Nat
  /-- `solution_nonce_`. -/
  solutionNonce : Bytes
  /-- `solution_hash_`. -/
  solutionHash : Bytes
  /-- `solution_header_`. -/
  solutionHeader : Bytes
  /-- `solution_template_`. -/
  solutionTemplate : BlockTemplate
  /-- `threads_`: the workers, by index. -/
  threads : List Worker
  /-- The control thread. -/
  control : Control
  /-- The control thread's last return value. -/
  reply : Reply

namespace Engine

variable (engine : Engine)

/-- A miner with an initialized pool and no session. -/
def create (pool : Pool) : Engine :=
  ⟨pool, false, false, 0, [], [], [], .empty, [], .idle, .none⟩

/-- What `get_solution` returns: its out-parameters when `found_` is set and
`solution_header_` is not empty. -/
def solution : Option (Bytes × Bytes × BlockTemplate) :=
  if engine.found ∧ engine.solutionHeader ≠ [] then
    some (engine.solutionHeader, engine.solutionHash, engine.solutionTemplate)
  else none

/-- Every thread of `threads_` has returned. -/
def allDone : Bool := engine.threads.all (·.pc = .done)

/-- The first half of `stop()` inside a call: clear `mining_`, then wait. -/
def beginStop (call : Call) : Engine :=
  { engine with mining := false, control := .joining call, reply := .none }

/-- The state `start_mining` leaves once its `stop()` has joined: a fresh session of
`num_threads_` workers on `template`. -/
def startSession (template : BlockTemplate) : Engine :=
  { engine with
    mining := true
    found := false
    hashCount := 0
    solutionNonce := []
    solutionHash := []
    solutionHeader := []
    threads := (List.range engine.pool.numThreads).map (Worker.spawn template)
    control := .idle
    reply := .none }

/-- The rest of a call, after its `stop()` or when it makes none. `none` where
`set_thread_count` divides by zero. -/
def finishCall : Call → Option Engine
  | .startMining template => some (engine.startSession template)
  | .stop => some { engine with control := .idle, reply := .none }
  | .getSolution => some { engine with control := .idle, reply := .solution engine.solution }
  | .updateSeed seedHash =>
    let (result, pool) := engine.pool.reseed seedHash
    some { engine with pool, control := .idle, reply := .flag result }
  | .setThreadCount count =>
    (engine.pool.rebuild count).map fun (result, pool) =>
      { engine with pool, control := .idle, reply := .flag result }

/-- A call from its start: the checks that come before `stop()`, and the `stop()` itself when the
call makes one (always for `start_mining` and `stop`, only while mining for the others). -/
def call : Call → Option Engine
  | .startMining template => some (engine.beginStop (.startMining template))
  | .stop => some (engine.beginStop .stop)
  | .getSolution =>
    if engine.mining then some (engine.beginStop .getSolution) else engine.finishCall .getSolution
  | .updateSeed seedHash =>
    match engine.pool.updateSeedShortcut seedHash with
    | some result => some { engine with reply := .flag result }
    | none =>
      if engine.mining then some (engine.beginStop (.updateSeed seedHash))
      else engine.finishCall (.updateSeed seedHash)
  | .setThreadCount count =>
    match engine.pool.setThreadCountShortcut count with
    | some result => some { engine with reply := .flag result }
    | none =>
      if engine.mining then some (engine.beginStop (.setThreadCount count))
      else engine.finishCall (.setThreadCount count)

/-- The second half of `stop()`: once every worker has returned, join them, clear `threads_`,
and go on with the call. -/
def join : Option Engine :=
  match engine.control with
  | .joining call => if engine.allDone then { engine with threads := [] }.finishCall call else none
  | .idle => none

/-- Replace worker `thread`. -/
def setWorker (thread : Nat) (worker : Worker) : Engine :=
  { engine with threads := engine.threads.set thread worker }

@[simp] theorem setWorker_threads (thread : Nat) (worker : Worker) :
    (engine.setWorker thread worker).threads = engine.threads.set thread worker := rfl

@[simp] theorem setWorker_pool (thread : Nat) (worker : Worker) :
    (engine.setWorker thread worker).pool = engine.pool := rfl

@[simp] theorem setWorker_mining (thread : Nat) (worker : Worker) :
    (engine.setWorker thread worker).mining = engine.mining := rfl

@[simp] theorem setWorker_found (thread : Nat) (worker : Worker) :
    (engine.setWorker thread worker).found = engine.found := rfl

@[simp] theorem setWorker_solutionNonce (thread : Nat) (worker : Worker) :
    (engine.setWorker thread worker).solutionNonce = engine.solutionNonce := rfl

@[simp] theorem setWorker_solutionHash (thread : Nat) (worker : Worker) :
    (engine.setWorker thread worker).solutionHash = engine.solutionHash := rfl

@[simp] theorem setWorker_solutionHeader (thread : Nat) (worker : Worker) :
    (engine.setWorker thread worker).solutionHeader = engine.solutionHeader := rfl

@[simp] theorem setWorker_solutionTemplate (thread : Nat) (worker : Worker) :
    (engine.setWorker thread worker).solutionTemplate = engine.solutionTemplate := rfl

@[simp] theorem setWorker_control (thread : Nat) (worker : Worker) :
    (engine.setWorker thread worker).control = engine.control := rfl

@[simp] theorem setWorker_reply (thread : Nat) (worker : Worker) :
    (engine.setWorker thread worker).reply = engine.reply := rfl

/-- One step of worker `thread`, which reads `random` if it is at its start. -/
def workerStep (calculateHash : Bytes → Bytes) (thread : Nat) (random : Bytes) : Option Engine :=
  match engine.threads[thread]? with
  | none => none
  | some worker =>
    match worker.pc with
    | .start =>
      match engine.pool.getVmForThread worker.threadId with
      | none => some (engine.setWorker thread { worker with pc := .done })
      | some vm =>
        let header := worker.template.headerBase.take 108
        some (engine.setWorker thread { worker with
          vm := some vm
          headerWithoutNonce := header
          nonce := startNonce random
          hashInput := copyAt (List.replicate 140 0) 0 header
          pc := .loadMining })
    | .loadMining =>
      some (engine.setWorker thread { worker with pc := if engine.mining then .loadFound else .done })
    | .loadFound =>
      some (engine.setWorker thread { worker with pc := if engine.found then .done else .hashing })
    | .hashing =>
      let input := copyAt worker.hashInput 108 worker.nonce
      some (engine.setWorker thread
        { worker with hashInput := input, hash := calculateHash input, pc := .counting })
    | .counting =>
      let engine := { engine with hashCount := engine.hashCount + 1 }
      if hashMeetsTarget worker.hash worker.template.target then
        some (engine.setWorker thread { worker with pc := .claiming })
      else
        some (engine.setWorker thread
          { worker with nonce := incrementNonce worker.nonce, pc := .loadMining })
    | .claiming =>
      if engine.found then some (engine.setWorker thread { worker with pc := .done })
      else some ({ engine with found := true }.setWorker thread { worker with pc := .publishing })
    | .publishing =>
      some ({ engine with
          solutionNonce := worker.nonce
          solutionHash := worker.hash
          solutionHeader :=
            copyAt (copyAt (List.replicate 140 0) 0 worker.headerWithoutNonce) 108 worker.nonce
          solutionTemplate := worker.template }.setWorker thread { worker with pc := .signalling })
    | .signalling =>
      some ({ engine with mining := false }.setWorker thread { worker with pc := .done })
    | .done => none

end Engine

/-- A step of the miner: a worker's step (with the bytes `/dev/urandom` would give it at its
start), a call of the control thread, or the join that ends a `stop()`. -/
inductive Action where
  /-- A step of worker `thread`. -/
  | worker (thread : Nat) (random : Bytes)
  /-- The control thread makes a call. -/
  | call (call : Call)
  /-- The control thread's `stop()` joins the workers. -/
  | join
  deriving DecidableEq, Repr

namespace Engine

/-- One step; `none` when the action cannot be taken. -/
def step (calculateHash : Bytes → Bytes) (engine : Engine) : Action → Option Engine
  | .worker thread random => engine.workerStep calculateHash thread random
  | .call call => if engine.control = .idle then engine.call call else none
  | .join => engine.join

/-- A run of steps. -/
def run (calculateHash : Bytes → Bytes) : Engine → List Action → Option Engine
  | engine, [] => some engine
  | engine, action :: rest => (engine.step calculateHash action).bind (run calculateHash · rest)

theorem run_append (calculateHash : Bytes → Bytes) (engine : Engine)
    (first second : List Action) :
    run calculateHash engine (first ++ second) =
      (run calculateHash engine first).bind (run calculateHash · second) := by
  induction first generalizing engine with
  | nil => rfl
  | cons action rest induction =>
    simp only [List.cons_append, run]
    cases engine.step calculateHash action <;> simp [induction]

end Engine

end JunoMiner
