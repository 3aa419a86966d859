import JunoMiner.Main.Seeds

/-!
# `main`'s loop: the block check and the node's templates

The inner loop asks the node for its tip every `block_check_interval_seconds` and stops the session
when the tip is above `current_block_height`, the height of the template being mined. A template's
height is the height of the block it builds, one above the tip it was made on, so the check lets
the block that takes the template's own height go by. The outer loop parses every template without
a `try`: a template the parser rejects ends `main`, where a failed RPC is waited out and retried.
-/

namespace JunoMiner

namespace Main

/-- Inside a session's loops, `current_block_height` is the height of the template. -/
def HeightTracked (main : Main) : Prop :=
  main.stage ≠ .outer → main.stage.live = true →
    main.currentBlockHeight = main.template.height.toNat

theorem HeightTracked.ended {main : Main} (ended : main.stage.live = false) :
    main.HeightTracked :=
  fun _ live => absurd live (by simp [ended])

theorem HeightTracked.advance {main : Main} (tracked : main.HeightTracked)
    (live : main.stage.live = true) (mining running : Bool) (reply : Reply) (input : Input) :
    (main.advance mining running reply input).1.HeightTracked := by
  have move := main.advance_move mining running reply input
  generalize main.advance mining running reply input = result at move
  cases move with
  | routine away _ _ keeps =>
    intro _ _
    rw [keeps.height, keeps.template]
    exact tracked away live
  | retry _ stays => exact fun away => absurd stays away
  | update _ _ height => exact fun _ _ => height
  | start _ _ _ _ height => exact fun _ _ => height
  | adopt updating _ _ keeps =>
    intro _ _
    rw [keeps.height, keeps.template]
    exact tracked (by simp [updating]) live
  | exit ends => exact .ended ends

/-- A block check that reads the node's tip stops the session exactly when the tip is above
`current_block_height`, and otherwise only resets the failure count. -/
theorem checkBlock_of_read (main : Main) (info : Json) {networkHeight : UInt64}
    (read : (info.member "blocks" >>= Json.asUInt64) = .ok networkHeight) :
    main.checkBlock info =
      if networkHeight.toNat > main.currentBlockHeight then
        ({ main with consecutiveRpcFailures := 0, blockChanged := true, stage := .afterInner },
          some .stop)
      else ({ main with consecutiveRpcFailures := 0 }, none) := by
  simp only [checkBlock, read]

end Main

namespace System

variable {calculateHash : Bytes → Bytes}

theorem heightTracked_run {config : Config} {chainInfo initialTemplate : Option Json}
    {start final : System} {events : List Event}
    (booted : boot config chainInfo initialTemplate = .ok start)
    (ran : start.run calculateHash events = some final) : final.main.HeightTracked := by
  obtain ⟨_, _, _, -, -, -, -, rfl⟩ := boot_ok booted
  exact run_invariant calculateHash (·.main.HeightTracked)
    (fun tracked stepped => step_main calculateHash _ (fun _ => .ended)
      (fun _ _ _ _ _ tracked live => tracked.advance live _ _ _ _) tracked stepped)
    (fun away => absurd rfl away) ran

/-- A block at the template's own height: the session on the template goes on mining. -/
theorem block_at_template_height_missed :
    ((boot (lightConfig 1 fun _ => false) (some (chainReply 4))
        (some (templateReply 5 (List.replicate 64 48)))).toOption.bind fun start =>
      start.run (fun _ => List.replicate 32 0)
        [.main ⟨some (templateReply 5 (List.replicate 64 48)), ' ', 0, false, none⟩, .join,
          .main ⟨none, ' ', 0, true, some (chainReply 5)⟩]).map
      (fun system => (system.main.stage, system.main.template.height, system.engine.mining,
        system.engine.control)) =
      some (.inner, 5, true, .idle) := by
  decide

/-- A template the parser rejects ends `main` with the parser's exception: at startup, once the
`getblockchaininfo` result has been read, and in the loop; only a failed `getblocktemplate` is
waited out and retried. -/
theorem rejected_template_ends_main (calculateHash : Bytes → Bytes) (data : Json)
    (error : CppException) (rejected : parseBlockTemplate data = .error error) :
    (∀ config info, readBlockchainInfo info = .ok () →
      boot config (some info) (some data) = .error (.crashed error)) ∧
    (∀ config chainInfo start, boot config chainInfo (some data) ≠ .ok start) ∧
    (∀ (system next : System) (input : Input), system.main.stage = .outer →
      system.running = true → input.template = some data →
      system.step calculateHash (.main input) = some next →
      next.main.stage = .crashed error ∧ next.engine = system.engine ∧
        ∀ later, next.step calculateHash (.main later) = none) ∧
    ∀ (system next : System) (input : Input), system.main.stage = .outer →
      system.running = true → input.template = none →
      system.step calculateHash (.main input) = some next →
      next.main.stage = .outer ∧ next.main.wasDisconnected = true ∧ next.engine = system.engine := by
  refine ⟨fun config info connected => ?_, fun config chainInfo start booted => ?_,
    fun system next input outer running fetched stepped => ?_,
    fun system next input outer running failed stepped => ?_⟩
  · simp only [boot, connected, rejected]
  · obtain ⟨_, _, _, fetched, parsed, -⟩ := boot_ok booted
    cases fetched
    rw [rejected] at parsed
    cases parsed
  · simp only [step, outer, Stage.live, Main.advance, running, fetched, rejected, Bool.not_true,
      Bool.false_eq_true, if_false] at stepped
    split at stepped
    · cases stepped
      exact ⟨rfl, rfl, fun _ => by simp [step, Stage.live]⟩
    · cases stepped
  · simp only [step, outer, Stage.live, Main.advance, running, failed, Bool.not_true,
      Bool.false_eq_true, if_false] at stepped
    split at stepped
    · cases stepped
      exact ⟨rfl, rfl, rfl⟩
    · cases stepped

theorem rejected_template_ends_main_without_version :
    parseBlockTemplate (.object []) = .error (.runtimeError "Missing version in block template") ∧
      ∀ config chainInfo start, boot config chainInfo (some (.object [])) ≠ .ok start :=
  have rejected : parseBlockTemplate (.object []) =
      .error (.runtimeError "Missing version in block template") := rfl
  ⟨rejected, (rejected_template_ends_main (fun _ => []) _ _ rejected).2.1⟩

/-- A template without `version` ends `main`'s loop with the parser's exception. -/
theorem missing_version_ends_main :
    (sampleStart.step (fun _ => []) (.main ⟨some (.object []), ' ', 0, false, none⟩)).map
      (·.main.stage) = some (.crashed (.runtimeError "Missing version in block template")) := by
  decide

end System

end JunoMiner
