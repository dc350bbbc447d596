import DecentDb.Library.Evaluation
import DecentDb.Wal.System

/-! First committer wins: what the conflict check of `commit_pages_if_latest` decides after
any interleaving of commits and checkpoints.
-/

namespace DecentDb.Wal

open WalHandle WriterPhase

open TransitionSystem (System)

/-- The WAL has been cut, but the checkpoint epoch does not say so yet. -/
def WriterPhase.owesEpoch : WriterPhase → Bool
  | .checkpointTruncated | .checkpointIndexCleared | .checkpointCleared => true
  | _ => false

/-- A commit in progress writes at or past the end, and past it once its marker is there. -/
def WalState.WritesAhead (state : WalState) : Prop :=
  ∀ pages progress, state.writer = .committing pages progress
    → state.handle.walEndLsn ≤ progress.offset
      ∧ (progress.logicalEndWritten → state.handle.walEndLsn < progress.offset)

/-- What a run from `base` has done to the pair that the check compares: the epoch moved on,
or the end did exactly with the commits, unless the WAL was just cut.
-/
def WalState.Advanced (base : WalState) (committed : Prop) (state : WalState) : Prop :=
  base.handle.checkpointEpoch < state.handle.checkpointEpoch
  ∨ base.handle.checkpointEpoch = state.handle.checkpointEpoch
    ∧ (state.writer.owesEpoch
      ∨ base.handle.walEndLsn ≤ state.handle.walEndLsn
        ∧ (committed → base.handle.walEndLsn < state.handle.walEndLsn))

variable {handle after : WalHandle} {committed fewer : Prop} {config : WalConfig}
  {state following base : WalState} {action : WalAction}

section Steps

/-- Writing a chunk moves the offset on, and the end of a commit moves it past the start. -/
theorem writeBatch_offset (handle : WalHandle) (storage : Storage)
    (progress : CommitProgress) (pageBatch : List UInt8) (last : Bool)
    : progress.offset ≤ (handle.writeBatch storage progress pageBatch last).2.2.offset
      ∧ (last
        → progress.offset < (handle.writeBatch storage progress pageBatch last).2.2.offset)
      ∧ (handle.writeBatch storage progress pageBatch last).2.2.logicalEndWritten = last := by
  refine ⟨Nat.le_add_right _ _, ?_, rfl⟩
  rintro rfl
  have marker : 0 < (pageBatch ++ commitFrame.bytes).length := by simp [WalFrame.bytes]
  exact Nat.lt_add_of_pos_right marker

/-- A chunk only moves the offset forward, and strictly if it writes the marker. -/
theorem writeChunk_offset {storage written : Storage} {progress next : CommitProgress}
    (wrote : handle.writeChunk config storage progress = (after, written, .ok next))
    : progress.offset ≤ next.offset
      ∧ (next.logicalEndWritten → progress.offset < next.offset) := by
  obtain ⟨consulted, staged, pageBatch, last, offset, written⟩ := writeChunk_eq_ok wrote
  have moved := writeBatch_offset consulted storage staged pageBatch last
  rw [written, offset] at moved
  exact ⟨moved.1, fun marked => moved.2.1 (moved.2.2.symm.trans marked)⟩

/-- Only publication and truncation move the end, and no commit is in progress after
either.
-/
theorem WalStep.writesAhead (step : WalStep config state action following)
    (ahead : state.WritesAhead) : following.WritesAhead := by
  intro pages progress committing
  cases step with
  | beginCommit | beginCommitIfLatest =>
    cases committing
    refine ⟨?_, fun marked => nomatch marked⟩
    by_cases fresh : state.handle.walEndLsn = 0
    · simp [fresh]
    · simp [WalHandle.beginCommit, WalHandle.latestSnapshot, fresh]
  | @writeChunk given before written handle storage current unfinished wrote =>
    cases committing
    have control := state.handle.writeChunk_sameControl config state.storage before
    rw [wrote] at control
    have moved := writeChunk_offset wrote
    have start := (ahead _ _ current).1
    dsimp only
    rw [control.walEndLsn]
    exact ⟨by omega, fun marked => by have := moved.2 marked; omega⟩
  | demote =>
    dsimp only
    rw [(state.handle.demoteColdVersions_cacheOnly config).walEndLsn]
    exact ahead pages progress committing
  | readPage readerId pageId registered =>
    have same := state.handle.readPageAtSnapshot_cacheOnly config state.storage pageId
    dsimp only
    rw [(same _).walEndLsn]
    exact ahead pages progress committing
  | conflict | demoteResident | checkDemotion | checkResidentDemotion | beginReader | dropReader
  | setRetainedSnapshot => exact ahead pages progress committing
  | _ => cases committing

/-- Steps that leave the pair and the lock holder's debt alone keep what the run did. -/
theorem WalState.Advanced.of_same (advanced : base.Advanced committed state)
    (walEnd : following.handle.walEndLsn = state.handle.walEndLsn)
    (epoch : following.handle.checkpointEpoch = state.handle.checkpointEpoch)
    (debt : state.writer.owesEpoch → following.writer.owesEpoch)
    : base.Advanced committed following := by
  unfold Advanced at *
  rw [walEnd, epoch]
  rcases advanced with newer | ⟨same, owes | moved⟩
  · exact .inl newer
  · exact .inr ⟨same, .inl (debt owes)⟩
  · exact .inr ⟨same, .inr moved⟩

/-- Less may be claimed of what a run has done. -/
theorem WalState.Advanced.weaken (advanced : base.Advanced committed state)
    (implied : fewer → committed) : base.Advanced fewer state := by
  rcases advanced with newer | ⟨same, owes | ⟨reached, moved⟩⟩
  · exact .inl newer
  · exact .inr ⟨same, .inl owes⟩
  · exact .inr ⟨same, .inr ⟨reached, fun commits => moved (implied commits)⟩⟩

/-- A published commit moves the end of the log. -/
theorem WalStep.advanced_of_publish (step : WalStep config state .publish following)
    (ahead : state.WritesAhead) (advanced : base.Advanced committed state)
    : base.Advanced True following := by
  cases step with
  | publish owed committing finished =>
    have moved := (ahead _ _ committing).2 finished
    rcases advanced with newer | ⟨same, owes | ⟨reached, _⟩⟩
    · exact .inl newer
    · rw [committing] at owes
      cases owes
    refine .inr ⟨same, .inr ⟨?_, fun _ => ?_⟩⟩
    all_goals
      dsimp only [publishCommit]
      omega

/-- Truncation owes an epoch and finishing pays it; nothing else but publication touches
the pair.
-/
theorem WalStep.advanced_of_not_publish (step : WalStep config state action following)
    (other : action ≠ .publish) (advanced : base.Advanced committed state)
    : base.Advanced committed following := by
  cases step with
  | publish => exact absurd rfl other
  | conflict => exact advanced
  | @writeChunk _ progress _ _ _ committing _ wrote
  | @abandonCommit _ progress _ _ _ committing _ wrote =>
    have control := state.handle.writeChunk_sameControl config state.storage progress
    rw [wrote] at control
    exact advanced.of_same control.walEndLsn control.checkpointEpoch
      (by simp [committing, owesEpoch])
  | demote =>
    have control := state.handle.demoteColdVersions_cacheOnly config
    exact advanced.of_same control.walEndLsn control.checkpointEpoch id
  | @readPage _ pageId reader =>
    have control := state.handle.readPageAtSnapshot_cacheOnly config state.storage pageId
      reader.snapshotLsn
    exact advanced.of_same control.walEndLsn control.checkpointEpoch id
  | truncate copied =>
    rcases advanced with newer | ⟨same, _⟩
    · exact .inl newer
    · exact .inr ⟨same, .inl rfl⟩
  | finishCheckpoint cleared =>
    refine .inl ?_
    rcases advanced with newer | ⟨same, _⟩
    · exact Nat.lt_succ_of_lt newer
    · exact same ▸ Nat.lt_succ_self _
  | clearIndex | clearSidecar => exact advanced.of_same rfl rfl fun _ => rfl
  | checkDemotion | checkResidentDemotion | demoteResident | beginReader | dropReader
  | setRetainedSnapshot => exact advanced.of_same rfl rfl id
  | beginCommit _ writer | beginCommitIfLatest _ _ _ writer | beginCheckpoint writer
  | skipCheckpoint writer | decideCheckpoint writer | collectIndex writer | collectSidecar writer
  | copyPage writer | abandonCheckpoint writer | maintainPager _ _ writer =>
    exact advanced.of_same rfl rfl (by simp [writer, owesEpoch])

/-- A whole run, by induction on its actions. -/
theorem walSystem_run_advanced {actions : List WalAction}
    (ran : (walSystem config).run state actions = some following) (ahead : state.WritesAhead)
    (advanced : base.Advanced committed state)
    : base.Advanced (committed ∨ .publish ∈ actions) following := by
  induction actions generalizing state committed with
  | nil =>
    cases ran
    exact advanced.weaken (by simp)
  | cons action rest ih =>
    obtain ⟨middle, taken, later⟩ := (walSystem config).run_cons.mp ran
    have step := walSystem_step taken
    by_cases published : action = .publish
    · subst published
      exact (ih later (step.writesAhead ahead) (step.advanced_of_publish ahead advanced)).weaken
        (by simp)
    have onward := ih later (step.writesAhead ahead)
      (step.advanced_of_not_publish published advanced)
    refine onward.weaken ?_
    simp [Ne.symm published]

end Steps

-- The whole call

/-- The call returns an LSN exactly if the check passes and the commit itself succeeds. -/
theorem checkLatest_eq_ok_iff {lsn epoch : Nat} : handle.checkLatest lsn epoch = .ok ()
      ↔ handle.walEndLsn = lsn ∨ handle.checkpointEpoch ≠ epoch := by
  unfold checkLatest latestSnapshot
  dsimp only
  split
  · next conflict => simpa using conflict
  · next free => simpa [or_iff_not_imp_left] using free

/-- After any run since the capture, a successful call proves that nothing was committed in
between exactly if the checkpoint epoch is still the captured one, or nothing was.
-/
theorem commitPagesIfLatest_firstCommitter_iff (config : WalConfig) {main : PageId → Page}
    {before between : List WalAction} {captured current : WalState}
    (reached : (walSystem config).run (.opened config main) before = some captured)
    (ran : (walSystem config).run captured between = some current)
    (lockFree : current.writer = .idle)
    : (∀ pages, (current.handle.commitPagesIfLatest config current.storage pages
      captured.handle.latestSnapshot captured.handle.checkpointEpoch).2.2.isOk → .publish ∉ between)
      ↔ current.handle.checkpointEpoch = captured.handle.checkpointEpoch ∨ .publish ∉ between := by
  have ahead : captured.WritesAhead := (walSystem config).run_invariant _
    (fun _ _ _ holds taken => (walSystem_step taken).writesAhead holds)
    (by rintro _ _ ⟨⟩) reached
  have start : captured.Advanced False captured := .inr ⟨rfl, .inr ⟨le_rfl, False.elim⟩⟩
  have advanced := walSystem_run_advanced ran ahead start
  constructor
  · intro firstCommitter
    by_cases sameEpoch : current.handle.checkpointEpoch = captured.handle.checkpointEpoch
    · exact .inl sameEpoch
    refine .inr (firstCommitter [] ?_)
    rw [commitPagesIfLatest, checkLatest_eq_ok_iff.mpr (.inr sameEpoch)]
    -- An empty commit writes its marker and succeeds.
    rfl
  rintro (sameEpoch | quiet) pages succeeded
  · -- With the captured epoch the end has moved on if anything was committed.
    intro published
    rcases advanced with newer | ⟨_, owes | ⟨_, moved⟩⟩
    · omega
    · rw [lockFree] at owes
      cases owes
    have past := moved (.inr published)
    have rejected : ¬current.handle.checkLatest captured.handle.latestSnapshot
      captured.handle.checkpointEpoch = .ok () := by
      rw [checkLatest_eq_ok_iff, latestSnapshot]
      omega
    unfold commitPagesIfLatest at succeeded
    split at succeeded
    next => cases succeeded
    next accepted => exact rejected accepted
  · exact quiet

/-- Without a checkpoint in between, the foreign commit is noticed. -/
theorem commitPagesIfLatest_firstCommitter_of_foreign_commit
    : ∃ current, (walSystem .default).run (.opened .default fun _ => markedPage 0)
      (commitActions [(2, markedPage 1)]) = some current
      ∧ ∀ pages, (current.handle.commitPagesIfLatest .default current.storage pages 0 0).2.2.isOk
        → .publish ∉ commitActions [(2, markedPage 1)] := by
  refine Evaluation.exists_of_checked (fun current =>
    current.writer = .idle ∧ current.handle.checkpointEpoch = 0) (by decide +kernel) ?_
  rintro current ran ⟨idle, epoch⟩
  have reached : (walSystem .default).run (.opened .default fun _ => markedPage 0) []
    = some (.opened .default fun _ => markedPage 0) := rfl
  exact (commitPagesIfLatest_firstCommitter_iff .default reached ran idle).mpr (.inl epoch)

/-- A foreign commit followed by a checkpoint is not: the second writer of page 2 gets an
LSN although the page was committed after its capture.
-/
theorem commitPagesIfLatest_accepts_after_foreign_commit_and_checkpoint
    : ∃ captured current, (walSystem .default).run (.opened .default fun _ => markedPage 0)
        (commitActions [(2, markedPage 1)]) = some captured
      ∧ (walSystem .default).run captured
        (commitActions [(2, markedPage 2)] ++ checkpointActions 1 (markedPage 0)) = some current
      ∧ current.writer = .idle
      ∧ (current.handle.commitPagesIfLatest .default current.storage [(2, markedPage 3)]
        captured.handle.latestSnapshot captured.handle.checkpointEpoch).2.2.isOk := by
  simp only [exists_and_left]
  decide +kernel

/-- A commit never leaves the pair of the checkpoint epoch and the end of the log as it was, and
no later step brings it back: only between the cut of the log and the end of a checkpoint may it
be an old one.
-/
theorem commit_stamp_not_reused (config : WalConfig) {main : PageId → Page}
    {before between : List WalAction} {captured current : WalState}
    (reached : (walSystem config).run (.opened config main) before = some captured)
    (ran : (walSystem config).run captured between = some current)
    (published : .publish ∈ between) (uncut : current.writer.owesEpoch = false)
    : (captured.handle.checkpointEpoch, captured.handle.walEndLsn)
      ≠ (current.handle.checkpointEpoch, current.handle.walEndLsn) := by
  have ahead : captured.WritesAhead := (walSystem config).run_invariant _
    (fun _ _ _ holds taken => (walSystem_step taken).writesAhead holds)
    (by rintro _ _ ⟨⟩) reached
  have start : captured.Advanced False captured := .inr ⟨rfl, .inr ⟨le_rfl, False.elim⟩⟩
  intro same
  obtain ⟨epoch, walEnd⟩ := Prod.mk.inj same
  rcases walSystem_run_advanced ran ahead start with newer | ⟨_, owes | ⟨_, moved⟩⟩
  · exact absurd epoch newer.ne
  · exact absurd owes (by simp [uncut])
  · exact absurd walEnd (moved (.inr published)).ne

/-- One commit changes the stamp of an opened log. -/
theorem commit_stamp_not_reused_of_commit
    : ∃ current, (walSystem .default).run (.opened .default fun _ => markedPage 0)
      (commitActions [(2, markedPage 1)]) = some current
      ∧ (0, 0) ≠ (current.handle.checkpointEpoch, current.handle.walEndLsn) :=
  Evaluation.exists_of_checked (fun current => current.writer.owesEpoch = false)
    (by decide +kernel) fun _ ran uncut =>
    commit_stamp_not_reused .default (show (walSystem .default).run _ [] = some _ from rfl) ran
      (by decide) uncut

end DecentDb.Wal
