import JunoMiner.Main.Loop

/-!
# `main`'s calls and the session's workers

`update_seed` and `set_thread_count` call `stop()`, which joins the workers, only while `mining_` is
set. The worker that wins a block clears `mining_` itself and joins no one, so after a found block
the other workers may still be in their loop, each on its VM, when `main` goes on to
`get_solution` and to the next template, and an epoch change then re-keys the pool under them. A
worker whose thread has no VM returns at once and leaves `mining_` set, so a session on a pool that
has lost its VMs reports itself mining with no worker left.
-/

namespace JunoMiner

namespace Engine

variable {engine : Engine}

/-- The session after its first `returned` workers have found no VM and returned. -/
def vmlessSession (template : BlockTemplate) (returned : Nat) : Engine :=
  { engine.startSession template with
    threads := (List.range engine.pool.numThreads).map fun thread =>
      if thread < returned then { Worker.spawn template thread with pc := .done }
      else Worker.spawn template thread }

theorem vmlessSession_zero (template : BlockTemplate) :
    engine.vmlessSession template 0 = engine.startSession template := by
  simp [vmlessSession, startSession]

section Vmless

variable (calculateHash : Bytes → Bytes) (template : BlockTemplate)
  (noVm : ∀ thread < engine.pool.numThreads, engine.pool.getVmForThread thread = none)
include noVm

/-- The next worker finds no VM and returns. -/
theorem vmlessSession_step {returned : Nat} (more : returned < engine.pool.numThreads) :
    (engine.vmlessSession template returned).workerStep calculateHash returned [] =
      some (engine.vmlessSession template (returned + 1)) := by
  have lookup : (engine.vmlessSession template returned).threads[returned]? =
      some (Worker.spawn template returned) := by
    simp [vmlessSession, List.getElem?_range more]
  simp only [workerStep, lookup, Worker.spawn]
  simp only [vmlessSession, startSession, noVm returned more, setWorker, Option.some.injEq,
    Engine.mk.injEq, and_true, true_and]
  apply List.ext_getElem (by simp)
  intro thread _ _
  rw [List.getElem_set]
  simp only [List.getElem_map, List.getElem_range]
  split
  · subst thread
    simp [Worker.spawn]
  · have earlier : thread < returned ↔ thread < returned + 1 := by omega
    simp only [earlier]

/-- Every session on a pool where no worker has a VM can reach a state where every worker has
returned and `mining_` is still set. -/
theorem vmless_session_stays_mining :
    (engine.startSession template).run calculateHash
        ((List.range engine.pool.numThreads).map fun thread => .worker thread []) =
      some (engine.vmlessSession template engine.pool.numThreads) ∧
    (engine.vmlessSession template engine.pool.numThreads).allDone = true ∧
    (engine.vmlessSession template engine.pool.numThreads).mining = true := by
  have ran : ∀ returned ≤ engine.pool.numThreads,
      (engine.startSession template).run calculateHash
          ((List.range returned).map fun thread => .worker thread []) =
        some (engine.vmlessSession template returned) := by
    intro returned
    induction returned with
    | zero => exact fun _ => (vmlessSession_zero template).symm ▸ rfl
    | succ returned induction =>
      intro within
      rw [List.range_succ, List.map_append, run_append, induction (by omega)]
      simp [run, step, vmlessSession_step calculateHash template noVm (show returned < _ by omega)]
  refine ⟨ran _ le_rfl, ?_, rfl⟩
  simp only [allDone, List.all_eq_true, decide_eq_true_eq]
  intro worker spawned
  obtain ⟨thread, inside, rfl⟩ := List.mem_map.mp spawned
  rw [if_pos (List.mem_range.mp inside)]

end Vmless

/-- Two light workers on a pool that `initialize` has not keyed: both return, and the miner still
reports mining. -/
theorem vmless_session_stays_mining_before_initialize :
    (∀ thread < 2, sampleLightPool.getVmForThread thread = none) ∧
      (((create sampleLightPool).startSession .empty).run (fun _ => [])
          [.worker 0 [], .worker 1 []] =
        some ((create sampleLightPool).vmlessSession .empty 2)) ∧
      ((create sampleLightPool).vmlessSession .empty 2).allDone = true ∧
      ((create sampleLightPool).vmlessSession .empty 2).mining = true :=
  have noVm : ∀ thread < 2, sampleLightPool.getVmForThread thread = none := by decide
  ⟨noVm, @vmless_session_stays_mining (create sampleLightPool) (fun _ => []) .empty noVm⟩

end Engine

namespace System

/-- Two light workers: worker 1 reaches its hash while worker 0 wins and clears `mining_`; `main`
collects the block, and the next template's epoch change re-keys the pool at once. Worker 1 is
still about to hash, on a VM that `update_seed` has destroyed. -/
theorem update_seed_destroys_running_worker_vm :
    ((boot (lightConfig 2 fun _ => false) (some (chainReply 4))
        (some (templateReply 5 (List.replicate 64 48)))).toOption.bind fun start =>
      start.run (fun _ => List.replicate 32 0)
        ([.main ⟨some (templateReply 5 (List.replicate 64 48)), ' ', 0, false, none⟩, .join,
          .worker 1 [], .worker 1 [], .worker 1 []] ++ List.replicate 8 (.worker 0 []) ++
          [.main ⟨none, ' ', 0, false, none⟩, .main ⟨none, ' ', 0, false, none⟩,
            .main ⟨some (templateReply 6 (List.replicate 64 49)), ' ', 0, false, none⟩])).map
      (fun system => (system.main.stage, system.engine.threads[1]?.map (·.pc),
        system.engine.threads[1]?.bind (·.vm), (system.engine.pool.rx.vms 2).isSome,
        (system.step (fun _ => List.replicate 32 0) (.worker 1 [])).isSome)) =
      some (.seedUpdated, some .hashing, some 2, false, true) := by
  decide

/-- One light worker: `t` stops the session, `set_thread_count(2)` fails in `initialize` at its
first VM, and the next template starts a session whose two workers find no VM and return; the
miner still reports mining. -/
theorem failed_thread_change_leaves_empty_session :
    ((boot (lightConfig 1 (· = 3)) (some (chainReply 4))
        (some (templateReply 5 (List.replicate 64 48)))).toOption.bind fun start =>
      start.run (fun _ => List.replicate 32 0)
        [.main ⟨some (templateReply 5 (List.replicate 64 48)), ' ', 0, false, none⟩, .join,
          .main ⟨none, 't', 0, false, none⟩, .worker 0 [], .worker 0 [], .join,
          .main ⟨none, ' ', 2, false, none⟩, .main ⟨none, ' ', 0, false, none⟩,
          .main ⟨none, ' ', 0, false, none⟩,
          .main ⟨some (templateReply 5 (List.replicate 64 48)), ' ', 0, false, none⟩, .join,
          .worker 0 [], .worker 1 []]).map
      (fun system => (system.main.stage, system.engine.pool.numThreads,
        system.engine.threads.length, system.engine.allDone, system.engine.mining)) =
      some (.inner, 2, 2, true, true) := by
  decide

end System

end JunoMiner
