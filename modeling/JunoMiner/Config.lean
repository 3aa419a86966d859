import Mathlib.Data.List.Basic
import Mathlib.Data.String.Basic
import Mathlib.Algebra.Group.Int

/-!
# The command line and the worker count

`parse_config` reads the options after the program name from left to right into a
`MinerConfig` that starts from its defaults; an option that needs a value and is the last
argument, a numeric value that `std::atoi` reads as zero, and an unknown option each stop it with
an error line, and `--help` stops it with the usage; `main` then returns 1. From the accepted
configuration and what `detect_system_resources` reports, `main` picks the mode and the worker
count: fast mode only if `calculate_optimal_threads` finds room for the dataset, and the optimal
count unless `--threads` gave one.
-/

namespace JunoMiner

/-- `struct MinerConfig` (`config.h`). -/
structure MinerConfig where
  /-- `rpc_url`. -/
  rpcUrl : String
  /-- `rpc_user`. -/
  rpcUser : String
  /-- `rpc_password`. -/
  rpcPassword : String
  /-- `num_threads`. -/
  numThreads : UInt32
  /-- `auto_threads`. -/
  autoThreads : Bool
  /-- `update_interval_seconds`. -/
  updateIntervalSeconds : UInt32
  /-- `block_check_interval_seconds`. -/
  blockCheckIntervalSeconds : UInt32
  /-- `debug_mode`. -/
  debugMode : Bool
  /-- `log_file`. -/
  logFile : String
  /-- `log_to_console`. -/
  logToConsole : Bool
  /-- `fast_mode`. -/
  fastMode : Bool
  /-- `no_balance`. -/
  noBalance : Bool
  /-- `zmq_url`. -/
  zmqUrl : String
  deriving DecidableEq, Repr

/-- `MinerConfig()`. -/
def MinerConfig.default : MinerConfig :=
  ⟨"http://127.0.0.1:8232", "", "", 0, true, 5, 2, false, "", false, false, false, ""⟩

/-! ## `std::atoi` -/

/-- `isspace` in the C locale. -/
def isCSpace (c : Char) : Bool :=
  c = ' ' ∨ c = '\t' ∨ c = '\n' ∨ c = '\x0b' ∨ c = '\x0c' ∨ c = '\r'

/-- The value of a run of decimal digits. -/
def decimalValue (digits : List Char) : Nat :=
  digits.foldl (fun value digit => 10 * value + (digit.toNat - '0'.toNat)) 0

/-- The sign `strtol` takes off the front of a number. -/
def dropSign : List Char → List Char
  | '-' :: rest | '+' :: rest => rest
  | rest => rest

/-- `strtol(text, nullptr, 10)` with a 64-bit `long`: blanks, a sign, the longest run of digits,
and the value clamped to `LONG_MIN .. LONG_MAX`. -/
def strtol10 (text : String) : Int :=
  let rest := text.toList.dropWhile isCSpace
  let value := decimalValue ((dropSign rest).takeWhile Char.isDigit)
  if rest.head? = some '-' then max (-(value : Int)) (-2 ^ 63) else min (value : Int) (2 ^ 63 - 1)

/-- `std::atoi` as glibc computes it, `(int) strtol(text, nullptr, 10)`: the `long` cut to its
low 32 bits, in two's complement. -/
def atoi (text : String) : Int := Int.bmod (strtol10 text) (2 ^ 32)

/-- An `int` stored in an `unsigned int`. -/
def toUnsigned (value : Int) : UInt32 := UInt32.ofNat (value % 2 ^ 32).toNat

/-! ## `parse_config` -/

/-- Why `parse_config` returns `false`. -/
inductive ConfigError where
  /-- `--help` or `-h`: the usage is printed. -/
  | usage
  /-- The line printed on `std::cerr` after `Error: `. -/
  | invalid (message : String)
  deriving DecidableEq, Repr

/-- `parse_config`'s loop over the arguments after the program name. -/
def parseConfig : List String → MinerConfig → Except ConfigError MinerConfig
  | [], config => pure config
  | arg :: rest, config =>
    if arg = "--help" ∨ arg = "-h" then throw .usage
    else if arg = "--rpc-url" then
      match rest with
      | [] => throw (.invalid "--rpc-url requires an argument")
      | value :: rest => parseConfig rest { config with rpcUrl := value }
    else if arg = "--rpc-user" then
      match rest with
      | [] => throw (.invalid "--rpc-user requires an argument")
      | value :: rest => parseConfig rest { config with rpcUser := value }
    else if arg = "--rpc-password" then
      match rest with
      | [] => throw (.invalid "--rpc-password requires an argument")
      | value :: rest => parseConfig rest { config with rpcPassword := value }
    else if arg = "--threads" then
      match rest with
      | [] => throw (.invalid "--threads requires an argument")
      | value :: rest =>
        let config := { config with numThreads := toUnsigned (atoi value), autoThreads := false }
        if config.numThreads = 0 then throw (.invalid "invalid thread count")
        else parseConfig rest config
    else if arg = "--update-interval" then
      match rest with
      | [] => throw (.invalid "--update-interval requires an argument")
      | value :: rest =>
        let config := { config with updateIntervalSeconds := toUnsigned (atoi value) }
        if config.updateIntervalSeconds = 0 then throw (.invalid "invalid update interval")
        else parseConfig rest config
    else if arg = "--block-check" then
      match rest with
      | [] => throw (.invalid "--block-check requires an argument")
      | value :: rest =>
        let config := { config with blockCheckIntervalSeconds := toUnsigned (atoi value) }
        if config.blockCheckIntervalSeconds = 0 then throw (.invalid "invalid block check interval")
        else parseConfig rest config
    else if arg = "--zmq-url" then
      match rest with
      | [] => throw (.invalid "--zmq-url requires an argument")
      | value :: rest => parseConfig rest { config with zmqUrl := value }
    else if arg = "--fast-mode" then parseConfig rest { config with fastMode := true }
    else if arg = "--no-balance" then parseConfig rest { config with noBalance := true }
    else if arg = "--debug" then
      parseConfig rest { config with
        debugMode := true
        logFile := if config.logFile.isEmpty then "juno-miner.log" else config.logFile }
    else if arg = "--log-file" then
      match rest with
      | [] => throw (.invalid "--log-file requires an argument")
      | value :: rest => parseConfig rest { config with logFile := value }
    else if arg = "--log-console" then parseConfig rest { config with logToConsole := true }
    else throw (.invalid ("unknown option: " ++ arg))


/-- What `main` relies on in an accepted configuration: a worker count unless it is chosen
automatically, and intervals that are not zero. -/
structure MinerConfig.Valid (config : MinerConfig) : Prop where
  threads : config.autoThreads = false → config.numThreads ≠ 0
  updateInterval : config.updateIntervalSeconds ≠ 0
  blockCheck : config.blockCheckIntervalSeconds ≠ 0

theorem MinerConfig.valid_default : MinerConfig.default.Valid :=
  ⟨nofun, by decide, by decide⟩

theorem parseConfig_valid {args : List String} {config result : MinerConfig}
    (valid : config.Valid) (parsed : parseConfig args config = .ok result) : result.Valid := by
  induction args, config using parseConfig.induct
  case case1 => cases parsed; exact valid
  all_goals rw [parseConfig.eq_def] at parsed
  all_goals simp only [*, reduceCtorEq, String.reduceEq, ↓reduceIte, or_self, or_false, false_or,
    not_false_eq_true, if_false, if_true] at parsed
  all_goals first
    | (rename_i induction
       exact induction ⟨fun auto => by simp_all [valid.threads],
         by simp_all [valid.updateInterval], by simp_all [valid.blockCheck]⟩ parsed)
    | simp_all

/-- Whatever the command line, the configuration `parse_config` accepts has a worker count unless
the count is chosen automatically, and update and block-check intervals that are not zero. -/
theorem parseConfig_accepts_valid (args : List String) {config : MinerConfig}
    (parsed : parseConfig args MinerConfig.default = .ok config) : config.Valid :=
  parseConfig_valid MinerConfig.valid_default parsed

/-- Four workers and debug logging, as `--threads 4 --debug` sets them. -/
def fourThreadsDebug : MinerConfig :=
  { MinerConfig.default with
    numThreads := 4
    autoThreads := false
    debugMode := true
    logFile := "juno-miner.log" }

theorem parseConfig_accepts_valid_on_threads_and_debug :
    parseConfig ["--threads", "4", "--debug"] MinerConfig.default = .ok fourThreadsDebug ∧
      fourThreadsDebug.Valid :=
  have parsed : parseConfig ["--threads", "4", "--debug"] MinerConfig.default =
      .ok fourThreadsDebug := rfl
  ⟨parsed, parseConfig_accepts_valid _ parsed⟩

/-! ## The machine and the worker count -/

/-- `utils::SystemResources`. -/
structure SystemResources where
  /-- `cpu_cores`. -/
  cpuCores : Nat
  /-- `total_ram_mb`. -/
  totalRamMb : Nat
  /-- `available_ram_mb`. -/
  availableRamMb : Nat
  /-- `optimal_threads`. -/
  optimalThreads : Nat
  deriving DecidableEq, Repr

/-- `utils::detect_system_resources`, from `std::thread::hardware_concurrency()`, the `MemTotal`
and `MemAvailable` values of `/proc/meminfo` in kB (0 when absent), and the total and free RAM in
bytes that `sysinfo` gives (none when it fails), read only when `MemTotal` gave no megabyte. -/
def detectSystemResources (hardwareConcurrency memTotalKb memAvailableKb : Nat)
    (sysinfo : Option (Nat × Nat)) : SystemResources :=
  let cpuCores := if hardwareConcurrency = 0 then 1 else hardwareConcurrency
  let (totalRamMb, availableRamMb) :=
    match memTotalKb / 1024, sysinfo with
    | 0, some (total, free) => (total / (1024 * 1024), free / (1024 * 1024))
    | totalRamMb, _ => (totalRamMb, memAvailableKb / 1024)
  ⟨cpuCores, totalRamMb, availableRamMb, if cpuCores = 0 then 1 else cpuCores⟩

/-- The end of `calculate_optimal_threads`: the workers `remainingRam` MB hold at `perThread` MB
each, kept in an `unsigned int`, at most one per core and at least one. -/
def threadsFor (cpuCores remainingRam perThread : Nat) : Nat :=
  let maxThreads := remainingRam / perThread % 2 ^ 32
  let maxThreads := if maxThreads > cpuCores then cpuCores else maxThreads
  if maxThreads = 0 then 1 else maxThreads

/-- `utils::calculate_optimal_threads`: 2.5 GB for the dataset and cache in fast mode (0 when they
do not fit), 300 MB for the cache in light mode (1 when it does not fit), then 4 MB per worker. -/
def calculateOptimalThreads (resources : SystemResources) (fastMode : Bool) : Nat :=
  if fastMode then
    if resources.availableRamMb < 2560 then 0
    else threadsFor resources.cpuCores (resources.availableRamMb - 2560) 4
  else
    if resources.availableRamMb < 300 then 1
    else threadsFor resources.cpuCores (resources.availableRamMb - 300) 4

theorem threadsFor_pos (cpuCores remainingRam perThread : Nat) :
    0 < threadsFor cpuCores remainingRam perThread := by
  unfold threadsFor
  dsimp only
  split <;> split <;> omega

theorem threadsFor_le {cpuCores : Nat} (cores : 0 < cpuCores) (remainingRam perThread : Nat) :
    threadsFor cpuCores remainingRam perThread ≤ cpuCores := by
  unfold threadsFor
  dsimp only
  split <;> split <;> omega

/-- `main`'s mode and worker count: fast mode if asked for and `calculate_optimal_threads` finds
room for it, and the optimal count for that mode unless `--threads` gave one. -/
def chooseThreads (config : MinerConfig) (resources : SystemResources) : Bool × Nat :=
  let fastMode := config.fastMode && calculateOptimalThreads resources true ≠ 0
  let optimalThreads := calculateOptimalThreads resources fastMode
  (fastMode, if config.autoThreads then optimalThreads else config.numThreads.toNat)

/-- `calculate_optimal_threads` returns 0 only in fast mode, and only when fast mode has no room for
its dataset; otherwise at least one worker, and at most one per core when there is RAM to spare. -/
theorem calculateOptimalThreads_eq_zero {resources : SystemResources} {fastMode : Bool} :
    calculateOptimalThreads resources fastMode = 0 ↔
      fastMode = true ∧ resources.availableRamMb < 2560 := by
  unfold calculateOptimalThreads
  have := threadsFor_pos resources.cpuCores
  cases fastMode <;> simp only [Bool.false_eq_true, ↓reduceIte, false_and, true_and] <;>
    split <;> simp_all [Nat.pos_iff_ne_zero]

theorem calculateOptimalThreads_le {resources : SystemResources} (cores : 0 < resources.cpuCores)
    (fastMode : Bool) : calculateOptimalThreads resources fastMode ≤ resources.cpuCores := by
  have fits := threadsFor_le cores
  unfold calculateOptimalThreads
  split <;> split
  all_goals first | omega | exact fits _ _

theorem detectSystemResources_cores (hardwareConcurrency memTotalKb memAvailableKb : Nat)
    (sysinfo : Option (Nat × Nat)) :
    0 < (detectSystemResources hardwareConcurrency memTotalKb memAvailableKb sysinfo).cpuCores := by
  unfold detectSystemResources
  dsimp only
  split <;> omega

/-- For every command line `parse_config` accepts and every machine, `main` builds the miner with
at least one worker, and with at most one per core when it chose the count itself; it runs in fast
mode only when asked to and with the 2.5 GB the dataset needs. -/
theorem chooseThreads_pos (args : List String) {config : MinerConfig}
    (parsed : parseConfig args MinerConfig.default = .ok config)
    (hardwareConcurrency memTotalKb memAvailableKb : Nat) (sysinfo : Option (Nat × Nat)) :
    let resources := detectSystemResources hardwareConcurrency memTotalKb memAvailableKb sysinfo
    0 < (chooseThreads config resources).2 ∧
      (config.autoThreads = true → (chooseThreads config resources).2 ≤ resources.cpuCores) ∧
      ((chooseThreads config resources).1 = true →
        config.fastMode = true ∧ 2560 ≤ resources.availableRamMb) := by
  intro resources
  have valid := parseConfig_valid MinerConfig.valid_default parsed
  have cores := detectSystemResources_cores hardwareConcurrency memTotalKb memAvailableKb sysinfo
  -- fast mode stays on only where its own count is not zero, so the count is never zero
  have fast : (chooseThreads config resources).1 = true →
      config.fastMode = true ∧ 2560 ≤ resources.availableRamMb := fun fast => by
    simp only [chooseThreads, Bool.and_eq_true, decide_eq_true_eq] at fast
    exact ⟨fast.1, by simpa [calculateOptimalThreads_eq_zero] using fast.2⟩
  have counted : calculateOptimalThreads resources (chooseThreads config resources).1 ≠ 0 :=
    fun zero => by
      obtain ⟨fastOn, short⟩ := calculateOptimalThreads_eq_zero.mp zero
      exact absurd (fast fastOn).2 (by omega)
  refine ⟨?_, fun auto => ?_, fast⟩
  · cases auto : config.autoThreads
    · simp only [chooseThreads, auto, Bool.false_eq_true, ↓reduceIte]
      exact Nat.pos_of_ne_zero fun zero => valid.threads auto (UInt32.toNat.inj zero)
    · simpa [chooseThreads, auto, Nat.pos_iff_ne_zero] using counted
  · simpa [chooseThreads, auto] using calculateOptimalThreads_le cores _

theorem chooseThreads_pos_on_fast_mode :
    parseConfig ["--fast-mode"] MinerConfig.default =
        .ok { MinerConfig.default with fastMode := true } ∧
      0 < (chooseThreads { MinerConfig.default with fastMode := true }
        (detectSystemResources 8 (4096 * 1024) (3072 * 1024) none)).2 :=
  have parsed : parseConfig ["--fast-mode"] MinerConfig.default =
      .ok { MinerConfig.default with fastMode := true } := rfl
  ⟨parsed, (chooseThreads_pos _ parsed 8 (4096 * 1024) (3072 * 1024) none).1⟩


end JunoMiner
