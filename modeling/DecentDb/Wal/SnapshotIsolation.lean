import DecentDb.Library.Evaluation
import DecentDb.Wal.Publication
import DecentDb.Wal.WriterPhases

/-! Snapshot isolation inside one process: every guarded step keeps the invariant, and every
registered reader therefore reads its snapshot.
-/

namespace DecentDb.Wal

open List WalHandle
open VersionedStore (lastWritten lastWritten_append lastWritten_congr valueAt_eq_lastWritten)

/-- The progress of the commit that holds the write lock. -/
def WriterPhase.commitProgress : WriterPhase → Option WalHandle.CommitProgress
  | .committing _ progress => some progress
  | _ => none

instance (config : WalConfig) : Decidable config.Chained :=
  inferInstanceAs (Decidable (_ = true))

/-- The condition under which a step keeps the snapshots apart. Versions may be demoted with
chained deltas only if no reader is behind; a chunk's promotions have to stay in the index;
and no page is published whose sidecar record would become stale.
-/
def SnapshotGuard (config : WalConfig) (state : WalState) : WalAction → Prop
  | .demote => config.Chained → ∀ reader ∈ state.handle.readerRegistry.readers,
    reader.snapshotLsn = state.handle.walEndLsn
  | .writeChunk => ∀ progress ∈ state.writer.commitProgress,
    state.handle.PromotionsStay config
      (progress.inputPages.take (walPrepareBatchPageLimit config.pageSize))
  | .publish => ∀ progress ∈ state.writer.commitProgress, ∀ page ∈ progress.preparedPages,
    state.handle.sidecarRecord page.pageId = none
  | _ => True

instance (config : WalConfig) (state : WalState) (action : WalAction)
    : Decidable (SnapshotGuard config state action) := by
  cases action <;> unfold SnapshotGuard <;> infer_instance

-- What the commits of a run wrote

/-- The pages of the commit that an action publishes. -/
def WalState.published (state : WalState) : WalAction → List (PageId × Page)
  | .publish => match state.writer with
    | .committing pages _ => pages
    | _ => []
  | _ => []

/-- The writes of all commits that a run publishes, oldest first. -/
def publishedWrites (config : WalConfig) : WalState → List WalAction → List (PageId × Page)
  | _, [] => []
  | state, action :: rest => ((walSystem config).next state action).elim [] fun following =>
    state.published action ++ publishedWrites config following rest

/-- The page is not one that the pager rewrites or cuts off at the end of a checkpoint. -/
def WalAction.Leaves (pageId : PageId) : WalAction → Prop
  | .maintainPager rewritten pageCount =>
    rewritten.lookup pageId = none ∧ ¬pageCount.any (· < pageId)
  | _ => True

-- Steps

variable {reader : ReaderInfo} {pages : List (PageId × Page)} {progress : CommitProgress}
  {handle : WalHandle} {config : WalConfig} {action : WalAction} {actions : List WalAction}
  {before after : ReaderRegistry} {state following : WalState}

namespace WalState

section

variable (sound : state.Sound config)
include sound

/-- What the invariant says in the phase that the writer is in. -/
theorem Sound.phase {phase : WriterPhase}
    (reached : state.writer = phase) : state.PhaseSound config phase :=
  reached ▸ sound

/-- A commit that begins keeps the invariant. -/
theorem Sound.beginCommit (pages : List (PageId × Page)) (idle : state.writer = .idle)
    : ({ state with writer := .committing pages (state.handle.beginCommit pages) }).Sound
      config := by
  cases sound.phase idle with
  | idle serving =>
    exact .committing ⟨{ serving.tracks with }, serving.main⟩
      ((beginCommit_committing serving.tracks pages).congr rfl rfl rfl)

/-- A chunk that is written or fails, with what the commit has become. -/
theorem Sound.writeChunk (guard : SnapshotGuard config state .writeChunk)
    (committing : state.writer = .committing pages progress)
    (unfinished : progress.logicalEndWritten = false) {storage : Storage}
    {result : DbResult CommitProgress}
    (wrote : state.handle.writeChunk config state.storage progress = (handle, storage, result))
    : ∃ entries, ({ state with handle, storage }).Serving config entries
      ∧ ∀ next, result = .ok next → ∃ written frames,
        ({ state with handle, storage }).Committing config entries pages next written frames := by
  have stay := guard progress (by rw [committing]; rfl)
  cases sound.phase committing with
  | committing serving inProgress =>
    obtain ⟨tracks, main, continued⟩ :=
      inProgress.writeChunk serving.tracks serving.main unfinished stay wrote
    exact ⟨_, ⟨tracks, fun pageId => by dsimp only; rw [main, serving.main]⟩, continued⟩

/-- Publishing a finished commit keeps the invariant if no page of it has a sidecar record. -/
theorem Sound.publish (guard : SnapshotGuard config state .publish) (owedDemotions : Nat)
    (committing : state.writer = .committing pages progress) (finished : progress.logicalEndWritten)
    : ({ state with
      handle := state.handle.publishCommit config progress
      writer := .idle
      owedDemotions
      spec := state.spec.commit progress.offset pages
      }).Sound config := by
  have unspilled := guard progress (by rw [committing]; rfl)
  cases sound.phase committing with
  | committing serving inProgress =>
    obtain ⟨new, tracks⟩ := serving.tracks.publish inProgress finished unspilled
    exact .idle ⟨{ tracks with }, serving.main⟩

end

/-- A checkpoint goes on only without readers. -/
theorem readers_eq_nil_of_not_blocked (free : handle.checkpointBlocked = false)
    : handle.readerRegistry.readers = [] := by
  have none := (Bool.or_eq_false_iff.mp free).1
  rw [Option.isSome_eq_false_iff, Option.isNone_iff_eq_none, ReaderRegistry.minSnapshotLsn,
    min?_eq_none_iff, map_eq_nil_iff] at none
  exact none

/-- Every guarded step keeps the invariant. -/
theorem Sound.step (sound : state.Sound config) (guard : SnapshotGuard config state action)
    (step : WalStep config state action following) : following.Sound config := by
  cases step with
  | beginCommit pages idle => exact sound.beginCommit pages idle
  | beginCommitIfLatest pages _ _ idle _ => exact sound.beginCommit pages idle
  | conflict => exact sound
  | writeChunk committing unfinished wrote =>
    obtain ⟨entries, serving, continued⟩ := sound.writeChunk guard committing unfinished wrote
    obtain ⟨written, frames, inProgress⟩ := continued _ rfl
    exact .committing ⟨{ serving.tracks with }, serving.main⟩ (inProgress.congr rfl rfl rfl)
  | abandonCommit committing unfinished failed =>
    obtain ⟨entries, serving, _⟩ := sound.writeChunk guard committing unfinished failed
    exact .idle ⟨{ serving.tracks with }, serving.main⟩
  | publish owed committing finished => exact sound.publish guard owed committing finished
  | checkDemotion owed => exact (background_checks _ _ _).sound sound
  | demote checked => exact (background_demote checked guard).sound sound
  | checkResidentDemotion targetBytes checked => exact (background_checks _ _ _).sound sound
  | demoteResident targetBytes checked =>
    exact (background_demoteResident targetBytes checked).sound sound
  | beginReader unpended => exact (background_beginReader unpended).sound sound
  | dropReader readerId => exact (background_dropReader readerId).sound sound
  | readPage readerId pageId registered => exact (background_readPage pageId registered).sound sound
  | setRetainedSnapshot snapshotLsn =>
    refine Background.sound ?_ sound
    exact ⟨rfl, rfl, rfl, rfl, rfl, fun _ tracks => { tracks with },
      fun quiet => ⟨quiet.readers, fun _ => id, fun empty => ⟨empty, rfl⟩⟩⟩
  | beginCheckpoint idle =>
    cases sound.phase idle with
    | idle serving => exact .checkpointStarted ⟨{ serving.tracks with }, serving.main⟩ rfl
  | skipCheckpoint started =>
    cases sound.phase started with
    | checkpointStarted serving pending => exact .idle ⟨{ serving.tracks with }, serving.main⟩
  | decideCheckpoint started free =>
    cases sound.phase started with
    | checkpointStarted serving pending =>
      exact .checkpointCollecting ⟨{ serving.tracks with }, serving.main⟩
        ⟨pending, readers_eq_nil_of_not_blocked free⟩ rfl
  | collectIndex collecting =>
    cases sound.phase collecting with
    | checkpointCollecting serving quiet safe =>
      subst safe
      exact .checkpointSpilled ⟨{ serving.tracks with }, serving.main⟩
        ⟨quiet.pending, quiet.readers⟩ rfl serving.tracks.listed_collectIndex
        serving.tracks.covered_collectIndex
  | collectSidecar spilled =>
    cases sound.phase spilled with
    | checkpointSpilled serving quiet safe listed covered =>
      subst safe
      exact .checkpointCopying { serving.tracks with } ⟨quiet.pending, quiet.readers⟩
        { serving.tracks.copying_collectSidecar serving.main listed covered with }
  | copyPage copying copied =>
    cases sound.phase copying with
    | checkpointCopying tracks quiet progress =>
      rw [progress.copyback tracks] at copied
      cases copied
      exact .checkpointCopying { tracks with } ⟨quiet.pending, quiet.readers⟩ { progress.next with }
  | abandonCheckpoint copying failed =>
    cases sound.phase copying with
    | checkpointCopying tracks quiet progress =>
      rw [progress.copyback tracks] at failed
      cases failed
  | maintainPager rewritten pageCount copying lengths =>
    cases sound.phase copying with
    | checkpointCopying tracks quiet progress =>
      have restarted := progress.restarted tracks quiet lengths pageCount
      exact .checkpointCopied
        { restarted with quiet := { restarted.quiet with } }
  | truncate copied =>
    cases sound.phase copied with
    | checkpointCopied restarted =>
      exact .checkpointTruncated
        { restarted with quiet := { restarted.quiet with } } rfl
  | clearIndex truncated =>
    cases sound.phase truncated with
    | checkpointTruncated restarted walEnd =>
      exact .checkpointIndexCleared
        { restarted with quiet := { restarted.quiet with } }
        walEnd rfl
  | clearSidecar cleared =>
    cases sound.phase cleared with
    | checkpointIndexCleared restarted walEnd index =>
      refine .checkpointCleared
        { restarted with quiet := { restarted.quiet with } }
        walEnd index fun pageId => ?_
      simp only [sidecarRecord, clearSidecar]
      cases state.handle.indexSidecar with
      | none => rfl
      | some sidecar => simp [WalIndexSidecar.empty]
  | finishCheckpoint cleared =>
    cases sound.phase cleared with
    | checkpointCleared restarted walEnd index records =>
      exact .idle ⟨tracks_nil index records walEnd restarted.quiet.readers restarted.commits
        restarted.settledPages, restarted.main⟩

/-- A new log satisfies the invariant. -/
theorem opened_sound (config : WalConfig) {main : PageId → Page}
    (pages : ∀ pageId, (main pageId).length = config.pageSize)
    : (opened config main).Sound config := by
  refine .idle ⟨tracks_nil rfl (fun pageId => ?_) rfl rfl rfl pages, fun _ => rfl⟩
  simp only [opened, sidecarRecord]
  split
  · rfl
  · simp [WalIndexSidecar.empty]

-- Readers

variable (sound : state.Sound config)
include sound

section

variable (registered : reader ∈ state.handle.readerRegistry.readers)
include registered

/-- A registered reader is served: a checkpoint past its decision has none. -/
theorem Sound.serving : ∃ entries, state.Serving config entries := by
  have noisy : ¬state.Quiet := by
    intro quiet
    rw [quiet.readers] at registered
    cases registered
  unfold Sound at sound
  generalize state.writer = phase at sound
  cases sound with
  | idle serving | committing serving | checkpointStarted serving => exact ⟨_, serving⟩
  | checkpointCollecting _ quiet | checkpointSpilled _ quiet => exact absurd quiet noisy
  | checkpointCopying _ quiet => exact absurd quiet noisy
  | checkpointCopied restarted | checkpointCleared restarted => exact absurd restarted.quiet noisy
  | checkpointTruncated restarted => exact absurd restarted.quiet noisy
  | checkpointIndexCleared restarted => exact absurd restarted.quiet noisy

/-- Under the invariant a registered reader reads the value of its snapshot. -/
theorem Sound.readPage {pageId : PageId} (nonzero : pageId ≠ 0)
    : state.handle.readPage config state.storage pageId reader.snapshotLsn
      = .ok (state.spec.valueAt pageId reader.snapshotLsn) := by
  obtain ⟨entries, serving⟩ := sound.serving registered
  exact serving.tracks.readPage serving.main registered nonzero

end

/-- What a reader's snapshot sees stays the same: only publications and the end of a
checkpoint change the commits, and they are past the snapshot or find no reader.
-/
theorem Sound.valueAt_step (step : WalStep config state action following)
    (registered : reader ∈ state.handle.readerRegistry.readers) (pageId : PageId)
    : following.spec.valueAt pageId reader.snapshotLsn
      = state.spec.valueAt pageId reader.snapshotLsn := by
  cases step
  case publish pages progress owed committing finished =>
    cases sound.phase committing with
    | @committing entries _ _ _ frames serving inProgress =>
      apply VersionedStore.valueAt_commit_of_lt
      have below := serving.tracks.below reader.snapshotLsn
        (mem_cons_of_mem _ (mem_map_of_mem registered))
      have afterEnd := inProgress.afterEnd
      have offset := inProgress.offset
      rw [finished, if_pos rfl] at offset
      have marker : 0 < commitFrame.bytes.length := by decide
      omega
  case maintainPager rewritten pageCount copying lengths =>
    cases sound.phase copying with
    | checkpointCopying _ quiet _ =>
      rw [quiet.readers] at registered
      cases registered
  all_goals rfl

/-- At the end of the log a page changes with a publication only, unless the pager rewrites it or
cuts it off.
-/
theorem Sound.valueAt_walEnd_step (step : WalStep config state action following)
    {pageId : PageId} (leaves : action.Leaves pageId)
    : following.spec.valueAt pageId following.handle.walEndLsn
      = lastWritten (state.spec.valueAt · state.handle.walEndLsn) (state.published action)
        pageId := by
  cases step
  case publish pages progress owed committing finished =>
    cases sound.phase committing with
    | @committing entries _ _ _ frames serving inProgress =>
      -- every commit of the log lies below its old end, so that both ends see the same ones
      have older : state.spec.writesUpTo progress.offset
          = state.spec.writesUpTo state.handle.walEndLsn := by
        rw [serving.tracks.describes, serving.tracks.describes]
        refine congrArg _ (filter_congr fun entry member => ?_)
        have within := (serving.tracks.within entry member).2
        have afterEnd := inProgress.afterEnd
        have offset := inProgress.offset
        simp only [decide_eq_decide]
        omega
      have writes : (state.spec.commit progress.offset pages).writesUpTo progress.offset
          = state.spec.writesUpTo state.handle.walEndLsn ++ pages := by
        rw [← older]
        simp [VersionedStore.writesUpTo, VersionedStore.commit]
      have wrote : state.published .publish = pages := by
        rw [published, committing]
      rw [wrote, publishCommit, valueAt_eq_lastWritten, writes, lastWritten_append]
      exact lastWritten_congr (valueAt_eq_lastWritten state.spec _).symm pages
  case maintainPager rewritten pageCount copying lengths =>
    simp only [published, lastWritten, reverse_nil, find?_nil, Option.map_none, Option.getD_none]
    rw [VersionedStore.valueAt_of_empty _ rfl, VersionedStore.restart]
    simp only [Wal.maintainPager, leaves.1]
    exact if_neg leaves.2
  case truncate copied =>
    cases sound.phase copied with
    | checkpointCopied restarted =>
      simp only [published, lastWritten, reverse_nil, find?_nil, Option.map_none, Option.getD_none]
      rw [VersionedStore.valueAt_of_empty _ restarted.commits,
        VersionedStore.valueAt_of_empty _ restarted.commits]
  case writeChunk pages progress written handle storage committing unfinished wrote =>
    have control := state.handle.writeChunk_sameControl config state.storage progress
    rw [wrote] at control
    exact congrArg (state.spec.valueAt pageId) control.walEndLsn
  case abandonCommit pages progress handle storage error committing unfinished failed =>
    have control := state.handle.writeChunk_sameControl config state.storage progress
    rw [failed] at control
    exact congrArg (state.spec.valueAt pageId) control.walEndLsn
  case demote =>
    exact congrArg (state.spec.valueAt pageId)
      (state.handle.demoteColdVersions_cacheOnly config).walEndLsn
  case readPage readPageId reader registered =>
    exact congrArg (state.spec.valueAt pageId) (state.handle.readPageAtSnapshot_cacheOnly config
      state.storage readPageId reader.snapshotLsn).walEndLsn
  all_goals rfl

end WalState

/-- Readers are kept, dropped, or registered under the next id. -/
inductive RegistryStep (before : ReaderRegistry) : ReaderRegistry → Prop where
  | same : RegistryStep before before
  | register (snapshotLsn : Nat) : RegistryStep before (before.register snapshotLsn)
  | drop (readerId : Nat) : RegistryStep before (before.drop readerId)

/-- Most steps leave the readers alone. -/
theorem RegistryStep.of_eq {before after : ReaderRegistry} (same : after = before)
    : RegistryStep before after :=
  same ▸ .same

/-- Every step leaves the readers alone, adds one under a new id or drops one. -/
theorem WalStep.registryStep {state following : WalState}
    (step : WalStep config state action following)
    : RegistryStep state.handle.readerRegistry following.handle.readerRegistry := by
  cases step
  case beginReader => exact .register _
  case dropReader readerId => exact .drop readerId
  case writeChunk pages progress written handle storage committing unfinished wrote =>
    have control := state.handle.writeChunk_sameControl config state.storage progress
    rw [wrote] at control
    exact .of_eq control.readerRegistry
  case abandonCommit pages progress handle storage error committing unfinished failed =>
    have control := state.handle.writeChunk_sameControl config state.storage progress
    rw [failed] at control
    exact .of_eq control.readerRegistry
  case demote => exact .of_eq (state.handle.demoteColdVersions_cacheOnly config).readerRegistry
  case readPage pageId reader registered =>
    exact .of_eq (state.handle.readPageAtSnapshot_cacheOnly config state.storage pageId
      reader.snapshotLsn).readerRegistry
  all_goals exact .same

/-- Ids are handed out once. -/
def ReaderRegistry.IdsUsed (registry : ReaderRegistry) : Prop :=
  ∀ reader ∈ registry.readers, reader.readerId ≤ registry.nextId

namespace RegistryStep

section

variable (step : RegistryStep before after)
include step

/-- Reader ids only grow. -/
theorem nextId_le : before.nextId ≤ after.nextId := by
  cases step with
  | same | drop => exact le_rfl
  | register => exact Nat.le_succ _

/-- A reader with a used id was registered before. -/
theorem mem_of_used (registered : reader ∈ after.readers) (used : reader.readerId ≤ before.nextId)
    : reader ∈ before.readers := by
  cases step with
  | same => exact registered
  | register snapshotLsn =>
    rcases mem_append.mp registered with old | new
    · exact old
    · rw [mem_singleton.mp new] at used
      exact absurd used (Nat.not_succ_le_self _)
  | drop readerId => exact (mem_filter.mp registered).1

/-- All ids of readers have been given out. -/
theorem idsUsed (used : before.IdsUsed) : after.IdsUsed := by
  intro reader registered
  cases step with
  | same => exact used reader registered
  | register snapshotLsn =>
    rcases mem_append.mp registered with old | new
    · exact Nat.le_succ_of_le (used reader old)
    · rw [mem_singleton.mp new]
      exact le_rfl
  | drop readerId => exact used reader (mem_filter.mp registered).1

end

end RegistryStep

-- Snapshot isolation

section Runs

/-- A guarded run keeps the invariant. -/
theorem run_sound {state last : WalState} (sound : state.Sound config)
    (guarded : (walSystem config).Meets (SnapshotGuard config) state actions)
    (ran : (walSystem config).run state actions = some last)
    : last.Sound config :=
  (walSystem config).run_preserves (WalState.Sound config)
    (fun _ _ _ sound guard taken => sound.step guard (walSystem_step taken)) sound guarded ran

/-- Along a run, a reader that is still registered sees what it saw. -/
theorem run_valueAt {first last : WalState} (sound : first.Sound config)
    (guarded : (walSystem config).Meets (SnapshotGuard config) first actions)
    (ran : (walSystem config).run first actions = some last)
    (used : reader.readerId ≤ first.handle.readerRegistry.nextId)
    (still : reader ∈ last.handle.readerRegistry.readers) (pageId : PageId)
    : last.spec.valueAt pageId reader.snapshotLsn
      = first.spec.valueAt pageId reader.snapshotLsn := by
  have kept := (walSystem config).run_preserves
    (fun state => state.Sound config ∧ reader.readerId ≤ state.handle.readerRegistry.nextId
      ∧ (reader ∈ state.handle.readerRegistry.readers → state.spec.valueAt pageId reader.snapshotLsn
          = first.spec.valueAt pageId reader.snapshotLsn))
    (by
      rintro state action following ⟨sound, used, same⟩ guard taken
      have step := walSystem_step taken
      refine ⟨sound.step guard step, le_trans used step.registryStep.nextId_le, ?_⟩
      intro registered
      have before := step.registryStep.mem_of_used registered used
      exact (sound.valueAt_step step before pageId).trans (same before))
    ⟨sound, used, fun _ => rfl⟩ guarded ran
  exact kept.2.2 still

/-- After a guarded run every page that no checkpoint rewrote or cut off has, at the end of the
log, the image of the last commit that the run published, by induction on the actions.
-/
theorem run_valueAt_walEnd {first last : WalState} {pageId : PageId}
    (sound : first.Sound config)
    (guarded : (walSystem config).Meets (SnapshotGuard config) first actions)
    (ran : (walSystem config).run first actions = some last)
    (leaves : ∀ action ∈ actions, action.Leaves pageId)
    : last.spec.valueAt pageId last.handle.walEndLsn
      = lastWritten (first.spec.valueAt · first.handle.walEndLsn)
        (publishedWrites config first actions) pageId := by
  induction actions generalizing first with
  | nil =>
    cases ran
    rfl
  | cons action rest ih =>
    obtain ⟨following, taken, later⟩ := (walSystem config).run_cons.mp ran
    obtain ⟨left, others⟩ := forall_mem_cons.mp leaves
    have step := walSystem_step taken
    rw [ih (sound.step guarded.1 step) (guarded.2 following taken) later others, publishedWrites,
      taken, Option.elim_some, lastWritten_append]
    exact lastWritten_congr (sound.valueAt_walEnd_step step left) _

/-- A reader that begins after a guarded run reads of every page that no checkpoint of the run
rewrote or cut off what the last published commit wrote, and goes on to do so in every state of
a guarded run until it is dropped.
-/
theorem readPage_snapshotIsolation {main : PageId → Page}
    (pages : ∀ pageId, (main pageId).length = config.pageSize)
    {before after : List WalAction} {state first last : WalState}
    (reached : (walSystem config).run (.opened config main) before = some state)
    (guarded : (walSystem config).Meets (SnapshotGuard config) (.opened config main) before)
    (began : (walSystem config).next state .beginReader = some first)
    (ran : (walSystem config).run first after = some last)
    (guardedLater : (walSystem config).Meets (SnapshotGuard config) first after)
    {reader : ReaderInfo} (registered : reader ∈ first.handle.readerRegistry.readers)
    (new : reader ∉ state.handle.readerRegistry.readers)
    (still : reader ∈ last.handle.readerRegistry.readers) {pageId : PageId} (nonzero : pageId ≠ 0)
    (leaves : ∀ action ∈ before, action.Leaves pageId)
    : last.handle.readPage config last.storage pageId reader.snapshotLsn
      = .ok (lastWritten main (publishedWrites config (.opened config main) before) pageId) := by
  have sound := run_sound (WalState.opened_sound config pages) guarded reached
  have step := walSystem_step began
  have firstSound := sound.step (show SnapshotGuard config state .beginReader from trivial) step
  have idsUsed : first.handle.readerRegistry.IdsUsed :=
    step.registryStep.idsUsed ((walSystem config).run_invariant
      (fun state => state.handle.readerRegistry.IdsUsed)
      (fun _ _ _ used taken => (walSystem_step taken).registryStep.idsUsed used)
      (fun _ registered => absurd registered not_mem_nil) reached)
  rw [(run_sound firstSound guardedLater ran).readPage still nonzero,
    run_valueAt firstSound guardedLater ran (idsUsed reader registered) still pageId]
  cases step with
  | beginReader unpended =>
    -- the new reader's snapshot is the end of the log
    have snapshot : reader.snapshotLsn = state.handle.walEndLsn := by
      rcases mem_append.mp registered with old | added
      · exact absurd old new
      · exact congrArg ReaderInfo.snapshotLsn (mem_singleton.mp added)
    rw [snapshot]
    have latest := run_valueAt_walEnd (WalState.opened_sound config pages) guarded reached leaves
    exact congrArg Except.ok latest

end Runs

/-- A reader that began after the first commit of page 2 goes on reading it after the
second.
-/
theorem readPage_snapshotIsolation_of_second_commit
    : ∃ state first last, (walSystem .default).run (.opened .default fun _ => markedPage 0)
        (commitActions [(2, markedPage 1)]) = some state
      ∧ (walSystem .default).next state .beginReader = some first
      ∧ (walSystem .default).run first (commitActions [(2, markedPage 2)]) = some last
      ∧ last.handle.readPage .default last.storage 2 570 = .ok (lastWritten (fun _ => markedPage 0)
        (publishedWrites .default (.opened .default fun _ => markedPage 0)
          (commitActions [(2, markedPage 1)])) 2) := by
  simp only [exists_and_left]
  refine Evaluation.exists_of_checked (fun state =>
    ((walSystem .default).next state .beginReader).any fun first =>
      ⟨1, 570⟩ ∈ first.handle.readerRegistry.readers
      ∧ ⟨1, 570⟩ ∉ state.handle.readerRegistry.readers
      ∧ (walSystem .default).Meets (SnapshotGuard .default) first (commitActions [(2, markedPage 2)])
      ∧ ((walSystem .default).run first (commitActions [(2, markedPage 2)])).any fun last =>
        decide (⟨1, 570⟩ ∈ last.handle.readerRegistry.readers)) (by decide +kernel) ?_
  intro state reached checked
  obtain ⟨first, began, checked⟩ := Evaluation.any_iff.mp checked
  obtain ⟨registered, new, guarded, ending⟩ := checked
  obtain ⟨last, ran, still⟩ := Evaluation.any_iff.mp ending
  refine ⟨first, began, last, ran, ?_⟩
  exact readPage_snapshotIsolation (fun _ => length_markedPage 0) reached (by decide +kernel) began
    ran guarded registered new still (by decide)
    (forall_mem_cons.mpr ⟨trivial, forall_mem_cons.mpr ⟨trivial, forall_mem_singleton.mpr trivial⟩⟩)

/-- A hot set of one page. -/
def oneHotPage : WalConfig :=
  {
    pageSize := 4096
    supported := WalConfig.default.supported
    walIndexHotSetPages := 1
    residentVersionsPerPage := 16
  }

/-- Two commits of pages 2 and 3 with a demotion in between, and a checkpoint by another thread
before the second commit demotes: page 2 has a stale sidecar record, which the checkpoint copies
last, and a reader that begins afterwards reads the image of the first commit.
-/
theorem readPage_stale_after_spill_and_checkpoint
    : let actions := commitActions [(2, markedPage 1), (3, markedPage 1)]
        ++ [.checkDemotion, .demote] ++ commitActions [(2, markedPage 2), (3, markedPage 2)]
        ++ checkpointActions 3 (markedPage 0)
      ∃ state, (walSystem oneHotPage).run (.opened oneHotPage fun _ => markedPage 0)
          (actions ++ [.beginReader]) = some state
        ∧ ⟨1, 0⟩ ∈ state.handle.readerRegistry.readers
        ∧ state.handle.readPage oneHotPage state.storage 2 0 ≠ .ok (lastWritten (fun _ => markedPage 0)
          (publishedWrites oneHotPage (.opened oneHotPage fun _ => markedPage 0) actions) 2) := by
  decide +kernel

-- Checkpoints

/-- The log is cut only over a complete main file: where its end is zero, and where a checkpoint
is about to cut it, the main file holds every page that no checkpoint of the run rewrote or cut
off exactly as the last commit left it.
-/
theorem cut_log_main_complete {main : PageId → Page}
    (pages : ∀ pageId, (main pageId).length = config.pageSize)
    (reached : (walSystem config).run (.opened config main) actions = some state)
    (guarded : (walSystem config).Meets (SnapshotGuard config) (.opened config main) actions)
    (cut : state.handle.walEndLsn = 0 ∨ state.writer = .checkpointCopied) {pageId : PageId}
    (leaves : ∀ action ∈ actions, action.Leaves pageId)
    : state.storage.main pageId
      = lastWritten main (publishedWrites config (.opened config main) actions) pageId := by
  have latest := run_valueAt_walEnd (WalState.opened_sound config pages) guarded reached leaves
  refine Eq.trans ?_ latest
  have sound : state.PhaseSound config state.writer :=
    run_sound (WalState.opened_sound config pages) guarded reached
  have settled {entries} (tracks : state.Tracks config entries) (empty : state.handle.walEndLsn = 0)
      : state.spec.valueAt pageId state.handle.walEndLsn = state.spec.settled pageId := by
    rw [tracks.valueAt_walEnd]
    cases last : lastEntry entries pageId state.handle.walEndLsn with
    | none => rfl
    | some entry =>
      have within := tracks.within entry (lastEntry_spec last).1
      omega
  generalize state.writer = phase at sound cut
  cases sound with
  | idle serving | committing serving | checkpointStarted serving | checkpointCollecting serving
  | checkpointSpilled serving =>
    exact (serving.main pageId).trans (settled serving.tracks (cut.resolve_right nofun)).symm
  | checkpointCopying tracks _ copying =>
    refine (copying.main pageId).elim (fun old => old.trans ?_) id
    exact (settled tracks (cut.resolve_right nofun)).symm
  | checkpointCopied restarted | checkpointTruncated restarted | checkpointIndexCleared restarted
  | checkpointCleared restarted =>
    rw [restarted.main]
    simp [VersionedStore.valueAt, VersionedStore.writesUpTo, restarted.commits]

/-- A commit and a checkpoint: page 2 is in the main file as it was committed. -/
theorem cut_log_main_complete_of_checkpoint
    : let actions := commitActions [(2, markedPage 1)] ++ checkpointActions 1 (markedPage 0)
      ∃ state, (walSystem .default).run (.opened .default fun _ => markedPage 0) actions = some state
        ∧ state.storage.main 2 = lastWritten (fun _ => markedPage 0)
          (publishedWrites .default (.opened .default fun _ => markedPage 0) actions) 2 :=
  Evaluation.exists_of_checked (fun state => state.handle.walEndLsn = 0) (by decide +kernel)
    fun _ reached empty => cut_log_main_complete (fun _ => length_markedPage 0) reached
      (by decide +kernel) (.inl empty)
      (by simp [commitActions, checkpointActions, WalAction.Leaves, headerPageId])

end DecentDb.Wal
