import DecentDb.Library.Evaluation
import DecentDb.Wal.BarrierProgress

/-! The durability barrier of the asynchronous commit mode. A call that returns leaves every
commit noted before it durable. It takes a bounded number of its own steps, provided that no
checkpoint sets the watermarks back between the load of its target and its return; otherwise
the caller may go around its loop without end.
-/

namespace DecentDb.Wal.AsyncCommit

-- The barrier

/-- Every commit that was noted before a call that has returned is in the synced log or in the
synced main file.
-/
def ReturnsDurable (state : State) : Prop :=
  ∀ call ∈ state.calls, ∀ flushed, call.phase = .returned flushed
    → ∀ commit < call.before, state.shared.Covers commit

/-- A call that can only wait for another thread to release the flush lock. -/
def WaitsForLock (state : State) (call : Call) : Prop :=
  ∃ target, call.phase = .flushing target .locking ∧ state.shared.flushLock ≠ none

/-- In a run, no call takes more than eleven steps of its own, and one that has not finished
can take its next step unless it waits for the lock.
-/
def FinitelyMany (actions : List Action) (state : State) : Prop :=
  ∀ index call, state.calls[index]? = some call
    → ownSteps index actions + call.phase.remaining ≤ 11
      ∧ (call.phase.finished = false → WaitsForLock state call
        ∨ ∃ following, system.next state (.stepCall index true) = some following)

/-- A flush can go on unless it waits for the lock. -/
theorem flushStep_isSome {holder : Holder} {shared : Shared} {phase : FlushPhase}
    : (phase = .locking ∧ shared.flushLock ≠ none)
      ∨ ∃ following, flushStep holder true shared phase = some following := by
  cases phase with
  | locking =>
    rw [flushStep]
    split
    · exact .inr ⟨_, rfl⟩
    next taken => exact .inl ⟨rfl, taken⟩
  | loaded target =>
    rw [flushStep]
    split <;> exact .inr ⟨_, rfl⟩
  | locked | syncing _ _ | synced _ | notifying => exact .inr ⟨_, rfl⟩

/-- A call that has not returned can go on unless it waits for the lock. -/
theorem stepCall_enabled {state : State} {index : Nat} {call : Call}
    (found : state.calls[index]? = some call) (running : call.phase.finished = false)
    : WaitsForLock state call
      ∨ ∃ following, system.next state (.stepCall index true) = some following := by
  suffices step : WaitsForLock state call
    ∨ ∃ after, callStep index true state.shutdown state.shared call.phase = some after by
    refine step.imp_right ?_
    rintro ⟨⟨shared, phase⟩, taken⟩
    refine ⟨_, Option.bind_eq_some_iff.mpr ⟨call, found, Option.bind_eq_some_iff.mpr
      ⟨(shared, phase), taken, rfl⟩⟩⟩
  obtain ⟨before, phase⟩ := call
  cases phase with
  | called => exact .inr ⟨_, rfl⟩
  | captured _ | looping _ _ | entered _ _ =>
    rw [callStep]
    split <;> exact .inr ⟨_, rfl⟩
  | flushing target flush =>
    rcases @flushStep_isSome (.call index) state.shared flush with ⟨rfl, taken⟩ | ⟨after, taken⟩
    · exact .inl ⟨target, rfl, taken⟩
    · exact .inr ⟨_, by rw [callStep, taken]; rfl⟩
  | returned _ | failed => cases running

/-- In every interleaving of commits, background flushes, checkpoints and calls, a call that
returns leaves what was noted before it durable; and if no checkpoint sets the watermarks back
while a call has captured a target, every call returns after at most eleven steps of its own.
-/
theorem flush_to_durable_barrier {initialLsn : Nat} {actions : List Action} {final : State}
    (ran : system.run (new initialLsn) actions = some final)
    : ReturnsDurable final
      ∧ (system.Meets Undisturbed (new initialLsn) actions → FinitelyMany actions final) := by
  refine ⟨?_, fun undisturbed index call found => ⟨?_, stepCall_enabled found⟩⟩
  · intro call isCall flushed returned commit early
    have covered := ((run_tracked ran).calls call isCall).returned flushed returned
    exact Shared.covers_iff.mpr (lt_of_lt_of_le early covered)
  · have budget := run_budget (new_tracked initialLsn) nofun undisturbed ran index
    rwa [State.budget, State.budget, found] at budget

/-- A commit, a call that syncs the log and returns, and a checkpoint after it. -/
def quietRun : List Action :=
  [.writeFrames 100, .noteWrite, .publish, .startCall] ++ List.replicate 11 (.stepCall 0 true)
    ++ [.startCheckpoint, .stepCall 1 true, .stepCall 1 true, .copyBack true, .lockRebase,
      .storeDirty, .storeDurable, .persistHeader true]

/-- Two calls, of which one waits for the flush of the other. -/
theorem flush_to_durable_barrier_of_quietRun : ∃ final, system.run (new 0) quietRun = some final
      ∧ final.calls = [⟨1, .returned true⟩, ⟨1, .returned false⟩] ∧ ReturnsDurable final
      ∧ FinitelyMany quietRun final := by
  refine Evaluation.exists_of_checked (fun final =>
    final.calls = [⟨1, .returned true⟩, ⟨1, .returned false⟩]) (by decide +kernel) ?_
  intro final ran calls
  obtain ⟨durable, finite⟩ := flush_to_durable_barrier ran
  exact ⟨calls, durable, finite (by decide +kernel)⟩

/-- A caller loads its target, and before it looks at the durable watermark a checkpoint
flushes, copies the pages and sets the watermarks back.
-/
def disturbedRun : List Action :=
  [.writeFrames 100, .noteWrite, .publish, .startCall, .stepCall 0 true, .stepCall 0 true,
    .startCheckpoint] ++ List.replicate 11 (.stepCall 1 true)
    ++ [.copyBack true, .lockRebase, .storeDirty, .storeDurable, .persistHeader true]

/-- The way once around the loop: the flush finds nothing to do. -/
def loopOnce : List Action := List.replicate 5 (.stepCall 0 true)

/-- The caller is then in its loop with the target 132 and both watermarks zero: after five more
steps of its own everything is as before, with no sync in between.
-/
theorem flush_to_durable_goes_around : ∃ looping, system.run (new 0) disturbedRun = some looping
      ∧ looping.calls.head? = some ⟨1, .looping 132 false⟩
      ∧ ∃ again, system.run looping loopOnce = some again
        ∧ again.calls.head? = some ⟨1, .looping 132 true⟩
        ∧ system.run again loopOnce = some again := by
  decide +kernel

-- The watermarks

/-- In every interleaving, also between the two stores that set the watermarks back, the commits
up to the durable watermark are durable, and all are where the dirty one is not above it.
-/
theorem durable_watermark_honest {initialLsn : Nat} {actions : List Action} {final : State}
    (ran : system.run (new initialLsn) actions = some final) {commit endLsn : Nat}
    (noted : final.shared.noted[commit]? = some endLsn)
    (below : endLsn ≤ final.shared.durableLsn ∨ final.shared.dirtyLsn ≤ final.shared.durableLsn)
    : final.shared.Covers commit := by
  have sound := (run_tracked ran).watermarks
  rw [Shared.covers_iff]
  rcases Nat.lt_or_ge commit final.shared.rebasedAt with earlier | later
  · exact lt_of_lt_of_le earlier sound.rebased
  · exact sound.durable commit endLsn later noted
      (below.elim id (sound.dirty commit endLsn later noted).trans)

/-- The same run never reports more than was synced. -/
theorem durable_watermark_honest_of_quietRun
    : ∃ final, system.run (new 0) quietRun = some final ∧ final.shared.Covers 0 :=
  Evaluation.exists_of_checked (fun final => final.shared.noted = [132]
    ∧ final.shared.dirtyLsn ≤ final.shared.durableLsn) (by decide +kernel) fun _ ran checked =>
    durable_watermark_honest ran (by rw [checked.1]; rfl) (.inr checked.2)

end DecentDb.Wal.AsyncCommit
