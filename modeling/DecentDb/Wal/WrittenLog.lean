import DecentDb.Wal.WrittenCommit

/-! What the WAL file holds in a run without checkpoints: the frames of the published commits
up to the end, as edits whose bases follow a rule.
-/

namespace DecentDb.Wal

open List

open Overlays (BaseRule History)

-- The index

/-- A condition on the handle that every step keeps, and under which the bases that a chunk
looks up follow the rule.
-/
structure IndexRule (config : WalConfig) (main : PageId → Page) (rule : BaseRule UInt8)
    (guard : WalHandle → List (PageId × Page) → Prop)
    (condition : List PageEdit → WalHandle → Prop) : Prop where
  same : ∀ {edits handle other}, condition edits handle → other.index = handle.index
    → other.indexSidecar = handle.indexSidecar → other.walEndLsn = handle.walEndLsn
    → condition edits other
  read : ∀ {edits handle}, condition edits handle → ∀ storage pageId snapshotLsn,
    condition edits (handle.readPageAtSnapshot config storage pageId snapshotLsn).1
  demote : ∀ {edits handle}, condition edits handle
    → condition edits (handle.demoteColdVersions config)
  demoteResident : ∀ {edits handle}, condition edits handle → ∀ targetBytes,
    condition edits (handle.demoteResidentVersions targetBytes)
  lookup : ∀ {edits handle storage pages after result}, condition edits handle
    → (∀ edit ∈ edits, edit.2.Sized config.pageSize) → storage.main = main → guard handle pages
    → WalHandle.lookupBasePages config storage handle.walEndLsn handle pages = (after, result)
    → condition edits after ∧ ∀ bases, result = .ok bases → bases.length = pages.length
      ∧ ∀ pair ∈ pages.zip bases, BaseOffered config
        (fun pageId => rule (main pageId) (editsOf pageId edits)) pair.1.1 pair.2
  publish : ∀ {edits handle more frames} {progress : WalHandle.CommitProgress}
    {offers : PageId → Page → Prop}, condition edits handle
    → PreparedEdits config.pageSize offers more frames progress.preparedPages
    → handle.walEndLsn ≤ progress.commitStartLsn
    → progress.commitStartLsn + framesLen config.pageSize frames ≤ progress.offset
    → condition (edits ++ more) (handle.publishCommit config progress)

variable {config recovery : WalConfig} {condition : List PageEdit → WalHandle → Prop}
  {guard : WalHandle → List (PageId × Page) → Prop} {main : PageId → Page} {rule : BaseRule UInt8}
  {writer : WriterPhase} {next progress : WalHandle.CommitProgress} {log : List (List PageEdit)}
  {storage : Storage} {state following final : WalState} {frames : List WalFrame}
  {actions : List WalAction} {pages : List (PageId × Page)} {handle : WalHandle}

/-- The rule, once the edits that are committed are fixed. -/
theorem IndexRule.basesOffered (indexRule : IndexRule config main rule guard condition)
    {edits : List PageEdit} (sized : ∀ edit ∈ edits, edit.2.Sized config.pageSize)
    : BasesOffered config main (fun pageId => rule (main pageId) (editsOf pageId edits)) guard
      (condition edits) where
  same := indexRule.same
  lookup index mainFile guarded looked := indexRule.lookup index sized mainFile guarded looked

-- The log

/-- The logical end of a WAL with these frames; an unused WAL has end 0. -/
def logEnd (pageSize : Nat) (frames : List WalFrame) : Nat :=
  if frames.isEmpty then 0 else walHeaderSize + framesLen pageSize frames

/-- What holds while no checkpoint runs: the writer is idle, or has written part of a commit. -/
inductive LogPhase (config : WalConfig) (offers : PageId → Page → Prop) (start : Nat)
    (state : WalState) : WriterPhase → Prop where
  | idle (header : HeaderAt state.storage.wal config.pageSize state.handle.walEndLsn)
    : LogPhase config offers start state .idle
  | committing {pages : List (PageId × Page)} {progress : WalHandle.CommitProgress}
    {edits : List PageEdit} {frames : List WalFrame}
    (logged : state.CommitLogged config offers start pages progress edits frames)
    : LogPhase config offers start state (.committing pages progress)

/-- The file holds the published commits as a log of edits over the main file. -/
structure WalState.Logged (config : WalConfig) (main : PageId → Page) (rule : BaseRule UInt8)
    (condition : List PageEdit → WalHandle → Prop) (state : WalState)
    (log : List (List PageEdit)) (frames : List WalFrame) : Prop where
  mainFile : state.storage.main = main
  logFrames : LogFrames config.pageSize log frames
  stored : FramesAt state.storage.wal config.pageSize walHeaderSize frames
  walEnd : state.handle.walEndLsn = logEnd config.pageSize frames
  history : ∀ pageId, History rule (main pageId) (editsOf pageId log.flatten)
  index : condition log.flatten state.handle
  settled : state.spec.settled = main
  commits : state.spec.commits.map Prod.snd = log.map writesOf
  commitLsns : ∀ commit ∈ state.spec.commits, commit.1 ≤ state.handle.walEndLsn
  phase : LogPhase config (fun pageId => rule (main pageId) (editsOf pageId log.flatten))
    (walHeaderSize + framesLen config.pageSize frames) state state.writer

namespace WalState.Logged

section

variable (logged : state.Logged config main rule condition log frames)
include logged

/-- A step of another thread leaves the file and the end alone. -/
theorem background (handle : WalHandle) (index : condition log.flatten handle)
    (walEnd : handle.walEndLsn = state.handle.walEndLsn) (owed checked : Nat) (residents : List Nat)
    : ({ state with
      handle
      owedDemotions := owed
      checkedDemotions := checked
      checkedResidentDemotions := residents
      }).Logged config main rule condition log frames := by
  refine { logged with
    walEnd := walEnd.trans logged.walEnd
    index
    commitLsns := fun commit member => walEnd ▸ logged.commitLsns commit member
    phase := ?_ }
  have phase := logged.phase
  generalize state.writer = writer at phase
  cases phase with
  | idle header => exact .idle (walEnd ▸ header)
  | committing commit => exact .committing (commit.congr walEnd rfl)

/-- What is logged in the phase that the writer is in. -/
theorem phase_of (reached : state.writer = writer)
    : LogPhase config (fun pageId => rule (main pageId) (editsOf pageId log.flatten))
      (walHeaderSize + framesLen config.pageSize frames) state writer :=
  reached ▸ logged.phase

/-- While no commit is written, the header has the end of the log. -/
theorem idle_header (idle : state.writer = .idle)
    : HeaderAt state.storage.wal config.pageSize state.handle.walEndLsn := by
  cases logged.phase_of idle with
  | idle header => exact header

/-- A commit under way has written a part of its edits. -/
theorem committing_logged (committing : state.writer = .committing pages progress)
    : ∃ edits more, state.CommitLogged config
      (fun pageId => rule (main pageId) (editsOf pageId log.flatten))
      (walHeaderSize + framesLen config.pageSize frames) pages progress edits more := by
  cases logged.phase_of committing with
  | committing commit => exact ⟨_, _, commit⟩

/-- What the commits mean is the last image of each page. -/
theorem valueAt (pageId : PageId) : state.spec.valueAt pageId state.handle.walEndLsn
      = Overlays.lastImage (main pageId) (editsOf pageId log.flatten) := by
  have writes : state.spec.writesUpTo state.handle.walEndLsn = writesOf log.flatten := by
    have all : state.spec.commits.filter (·.1 ≤ state.handle.walEndLsn) = state.spec.commits :=
      filter_eq_self.mpr fun commit member => by simpa using logged.commitLsns commit member
    rw [VersionedStore.writesUpTo, all, flatMap_def, logged.commits, writesOf, map_flatten]
    rfl
  rw [VersionedStore.valueAt, writes, find?_reverse_writesOf, logged.settled, Overlays.lastImage]
  cases (editsOf pageId log.flatten).getLast? <;> rfl

/-- A commit that begins has written nothing. -/
theorem beginCommit (idle : state.writer = .idle) (pages : List (PageId × Page))
    : ({ state with writer := .committing pages (state.handle.beginCommit pages) }).Logged config
      main rule condition log frames := by
  have header := logged.idle_header idle
  have first : (state.handle.beginCommit pages).offset
    = walHeaderSize + framesLen config.pageSize frames := by
    have walEnd := logged.walEnd
    unfold WalHandle.beginCommit WalHandle.latestSnapshot
    dsimp only
    rw [walEnd, logEnd]
    cases frames with
    | nil => rfl
    | cons frame rest =>
      have room : walHeaderSize = 32 := rfl
      rw [isEmpty_cons, if_neg Bool.false_ne_true, if_neg (by omega)]
  refine { logged with phase := @LogPhase.committing _ _ _ _ _ _ [] [] ?_ }
  rw [← first]
  exact (CommitLogged.beginCommit header pages).congr rfl rfl

/-- A change past the log that keeps the end, with what the writer does next. -/
theorem of_file (mainFile : storage.main = state.storage.main)
    (walEnd : handle.walEndLsn = state.handle.walEndLsn)
    (kept : ∀ offset frame, walHeaderSize ≤ offset → offset + frame.encodedLen config.pageSize
      ≤ walHeaderSize + framesLen config.pageSize frames
      → FrameAt state.storage.wal offset config.pageSize frame
      → FrameAt storage.wal offset config.pageSize frame) (index : condition log.flatten handle)
    (phase : LogPhase config (fun pageId => rule (main pageId) (editsOf pageId log.flatten))
      (walHeaderSize + framesLen config.pageSize frames) { state with handle, storage } writer)
    : ({ state with handle, storage, writer }).Logged config main rule condition log frames := by
  refine { logged with
    mainFile := mainFile.trans logged.mainFile
    stored := logged.stored.imp le_rfl kept
    walEnd := walEnd.trans logged.walEnd
    index
    commitLsns := fun commit member => walEnd ▸ logged.commitLsns commit member
    phase := ?_ }
  cases phase with
  | idle header => exact .idle header
  | committing commit => exact .committing (commit.congr rfl rfl)

end

variable (indexRule : IndexRule config main rule guard condition)
include indexRule

section

variable (logged : state.Logged config main rule condition log frames)
  (committing : state.writer = .committing pages progress)
  (unfinished : progress.logicalEndWritten = false)
  (guarded : guard state.handle (progress.inputPages.take (walPrepareBatchPageLimit config.pageSize)))
include logged committing unfinished guarded

/-- Writing a chunk goes on with the commit. -/
theorem writeChunk
    (wrote : state.handle.writeChunk config state.storage progress = (handle, storage, .ok next))
    : ({ state with handle, storage, writer := .committing pages next }).Logged config main rule
      condition log frames := by
  obtain ⟨edits, written, commit⟩ := logged.committing_logged committing
  have chunk := commit.writeChunk (indexRule.basesOffered logged.logFrames.sized) unfinished
    logged.index logged.mainFile guarded wrote
  obtain ⟨_, _, continued⟩ := chunk.logged
  exact logged.of_file chunk.mainFile chunk.walEnd chunk.kept chunk.index (.committing continued)

/-- A commit that fails while a chunk is prepared is given up; only base lookups have taken
place.
-/
theorem abandonPrepared {result : DbResult ChunkBatch}
    (prepares : state.handle.prepareNext config state.storage progress = (handle, result))
    : ({ state with handle, writer := .idle }).Logged config main rule condition log frames := by
  obtain ⟨edits, written, commit⟩ := logged.committing_logged committing
  have header := commit.header
  rw [unfinished] at header
  have cache := state.handle.prepareNext_cacheOnly config state.storage progress
  rw [prepares] at cache
  have index := (commit.prepareNext (indexRule.basesOffered logged.logFrames.sized) logged.index
    logged.mainFile guarded prepares).1
  refine logged.of_file rfl cache.walEndLsn (fun _ _ _ _ stored => stored) index (.idle ?_)
  rw [cache.walEndLsn]
  exact header

/-- A commit that fails leaves the log as it was. -/
theorem abandonCommit {error : DbError}
    (failed : state.handle.writeChunk config state.storage progress
      = (handle, storage, .error error))
    : ({ state with handle, storage, writer := .idle }).Logged config main rule condition log
      frames := by
  unfold WalHandle.writeChunk at failed
  split at failed
  next => cases failed
  split at failed <;> cases failed
  next prepares => exact logged.abandonPrepared indexRule committing unfinished guarded prepares

end

/-- Publishing makes the commit the last transaction of the log. -/
theorem publish (mainPages : ∀ pageId, (main pageId).length = config.pageSize)
    (logged : state.Logged config main rule condition log frames)
    (committing : state.writer = .committing pages progress)
    (finished : progress.logicalEndWritten) (owed : Nat)
    : ∃ edits more, ({ state with
        handle := state.handle.publishCommit config progress
        writer := .idle
        owedDemotions := owed
        spec := state.spec.commit progress.offset pages
      }).Logged config main rule condition (log ++ [edits]) more := by
  obtain ⟨edits, written, commit⟩ := logged.committing_logged committing
  have stored := commit.stored
  have offset := commit.offset
  have header := commit.header
  rw [finished] at stored offset header
  have grown : framesLen config.pageSize written
      ≤ framesLen config.pageSize (markedFrames true written) := by
    rw [markedFrames, if_pos rfl, FramesAt.framesLen_append]
    omega
  have flat : (log ++ [edits]).flatten = log.flatten ++ edits := by simp
  have start := commit.commitStart
  have afterEnd := commit.afterEnd
  refine ⟨edits, frames ++ (written ++ [commitFrame]), {
    mainFile := logged.mainFile
    logFrames := .snoc logged.logFrames commit.run.records
    stored := FramesAt.append.mpr ⟨logged.stored, stored⟩
    walEnd := ?_
    history := ?_
    index := ?_
    settled := logged.settled
    commits := ?_
    commitLsns := ?_
    phase := .idle header
  }⟩
  · rw [logEnd, if_neg (by simp), FramesAt.framesLen_append, ← add_assoc]
    exact offset
  · rw [flat]
    exact commit.run.history mainPages logged.history
  · rw [flat]
    exact indexRule.publish logged.index commit.run (by omega) (by omega)
  · have whole : pages = writesOf edits := by
      rw [commit.pages, commit.finished finished, append_nil]
    simp [VersionedStore.commit, logged.commits, whole]
  intro commit member
  rcases mem_append.mp member with old | new
  · have below := logged.commitLsns commit old
    refine le_trans below ?_
    show state.handle.walEndLsn ≤ progress.offset
    omega
  · rw [mem_singleton.mp new]
    exact le_rfl

end WalState.Logged

/-- Recovery of a file that reads as frames up to its logical end replays their list. -/
theorem initializeOrRecover_reads {endLsn : Nat}
    (header : HeaderAt storage.wal config.pageSize endLsn)
    (reads : ReadsAs storage.wal config.pageSize endLsn walHeaderSize frames)
    (ended : endLsn ≤ walHeaderSize + framesLen config.pageSize frames) (fits : endLsn < 2 ^ 64)
    (path : String) (sidecar : Option WalIndexSidecar)
    : initializeOrRecover config path storage sidecar
      = (Replay.replayList storage config.pageSize walHeaderSize .start frames).bind
        fun replayed => (spillRecoveredLatestVersions config replayed.index sidecar).bind
          fun (index, indexSidecar) => .ok { storage, index, indexSidecar, endLsn } := by
  have room := header.room
  have nonempty : storage.wal.size ≠ 0 := by
    have : walHeaderSize = 32 := rfl
    omega
  unfold Wal.initializeOrRecover
  rw [if_neg nonempty, header.readHeader path fits]
  simp only [ok_bind, Replay.replayFrames_whole reads ended]
  rfl

/-- Frames that are stored up to the end of their log are read as such. -/
theorem FramesAt.reads_logEnd {file : ByteFile} {pageSize : Nat}
    (stored : FramesAt file pageSize walHeaderSize frames)
    : ReadsAs file pageSize (logEnd pageSize frames) walHeaderSize frames
      ∧ logEnd pageSize frames ≤ walHeaderSize + framesLen pageSize frames := by
  cases frames with
  | nil => exact ⟨trivial, Nat.zero_le _⟩
  | cons frame rest => exact ⟨stored.readsAs le_rfl, le_rfl⟩

/-- Recovery of the file that an idle writer leaves replays the frames of the log. -/
theorem WalState.Logged.initializeOrRecover
    (logged : state.Logged config main rule condition log frames) (idle : state.writer = .idle)
    (fits : state.handle.walEndLsn < 2 ^ 64) (pageSize : recovery.pageSize = config.pageSize)
    (path : String) (file : storage.wal = state.storage.wal) (sidecar : Option WalIndexSidecar)
    : initializeOrRecover recovery path storage sidecar
      = (Replay.replayList storage config.pageSize walHeaderSize .start frames).bind
        fun replayed => (spillRecoveredLatestVersions recovery replayed.index sidecar).bind
          fun (index, indexSidecar) =>
            .ok { storage, index, indexSidecar, endLsn := state.handle.walEndLsn } := by
  have header := logged.idle_header idle
  have stored := logged.stored
  rw [logged.walEnd] at header fits ⊢
  rw [← file, ← pageSize] at header stored
  rw [← pageSize] at fits ⊢
  obtain ⟨reads, ended⟩ := stored.reads_logEnd
  exact initializeOrRecover_reads header reads ended fits path sidecar

-- Runs

/-- The pages that the next turn of the preparation loop encodes. -/
def WriterPhase.nextChunk (config : WalConfig) : WriterPhase → List (PageId × Page)
  | .committing _ progress =>
    progress.inputPages.take (walPrepareBatchPageLimit config.pageSize)
  | _ => []

/-- No checkpoint begins, and every chunk that is about to be prepared meets the guard. -/
def ChunkGuard (config : WalConfig) (guard : WalHandle → List (PageId × Page) → Prop)
    (state : WalState) : WalAction → Prop
  | .writeChunk => guard state.handle (state.writer.nextChunk config)
  | .beginCheckpoint => False
  | _ => True

instance (config : WalConfig) (guard : WalHandle → List (PageId × Page) → Prop)
    [∀ handle pages, Decidable (guard handle pages)] (state : WalState) (action : WalAction)
    : Decidable (ChunkGuard config guard state action) :=
  match action with
  | .writeChunk => inferInstanceAs (Decidable (guard _ _))
  | .beginCheckpoint => inferInstanceAs (Decidable False)
  | .beginCommit _ | .beginCommitIfLatest _ _ _ | .publish | .checkDemotion | .demote
  | .checkResidentDemotion _ | .demoteResident _ | .beginReader | .dropReader _ | .readPage _ _
  | .setRetainedSnapshot _ | .decideCheckpoint | .collectIndex | .collectSidecar | .copyPage
  | .maintainPager _ _ | .truncate | .clearIndex | .clearSidecar | .finishCheckpoint =>
    inferInstanceAs (Decidable True)

section Runs

/-- Every step but the start of a checkpoint keeps the log; only publication extends it. -/
theorem WalState.Logged.step (indexRule : IndexRule config main rule guard condition)
    (mainPages : ∀ pageId, (main pageId).length = config.pageSize)
    {action : WalAction} (logged : state.Logged config main rule condition log frames)
    (guarded : ChunkGuard config guard state action) (step : WalStep config state action following)
    : ∃ newLog newFrames, following.Logged config main rule condition newLog newFrames
      ∧ (action ≠ .publish → newLog = log ∧ newFrames = frames) := by
  have same : log = log ∧ frames = frames := ⟨rfl, rfl⟩
  cases step
  case beginCommit pages idle => exact ⟨_, _, logged.beginCommit idle pages, fun _ => same⟩
  case beginCommitIfLatest pages _ _ idle _ => exact ⟨_, _, logged.beginCommit idle pages, fun _ => same⟩
  case conflict => exact ⟨_, _, logged, fun _ => same⟩
  case writeChunk committing unfinished wrote =>
    unfold ChunkGuard at guarded
    rw [committing] at guarded
    exact ⟨_, _, logged.writeChunk indexRule committing unfinished guarded wrote, fun _ => same⟩
  case abandonCommit committing unfinished failed =>
    unfold ChunkGuard at guarded
    rw [committing] at guarded
    exact ⟨_, _, logged.abandonCommit indexRule committing unfinished guarded failed, fun _ => same⟩
  case publish owed committing finished =>
    obtain ⟨edits, more, published⟩ := logged.publish indexRule mainPages committing finished owed
    exact ⟨_, _, published, fun other => absurd rfl other⟩
  case checkDemotion owed => exact ⟨_, _, logged.background _ logged.index rfl _ _ _, fun _ => same⟩
  case demote checked =>
    exact ⟨_, _, logged.background _ (indexRule.demote logged.index)
      (state.handle.demoteColdVersions_cacheOnly config).walEndLsn _ _ _, fun _ => same⟩
  case checkResidentDemotion => exact ⟨_, _, logged.background _ logged.index rfl _ _ _, fun _ => same⟩
  case demoteResident targetBytes checked =>
    exact ⟨_, _, logged.background _ (indexRule.demoteResident logged.index targetBytes) rfl _ _ _,
      fun _ => same⟩
  case beginReader | dropReader | setRetainedSnapshot =>
    refine ⟨log, frames, logged.background _ ?_ (by rfl) _ _ _, fun _ => same⟩
    exact indexRule.same logged.index rfl rfl rfl
  case readPage pageId reader registered =>
    exact ⟨_, _, logged.background _ (indexRule.read logged.index _ _ _)
      (state.handle.readPageAtSnapshot_cacheOnly config _ _ _).walEndLsn _ _ _, fun _ => same⟩
  case beginCheckpoint => exact guarded.elim
  -- No checkpoint has begun, so none is under way.
  case skipCheckpoint writer | decideCheckpoint writer _ | collectIndex writer
    | collectSidecar writer | copyPage writer _ | abandonCheckpoint writer _
    | maintainPager writer _ | truncate writer | clearIndex writer | clearSidecar writer
    | finishCheckpoint writer => cases logged.phase_of writer

/-- Without a condition on the chunks, only checkpoints are excluded. -/
theorem meets_chunkGuard (noCheckpoint : .beginCheckpoint ∉ actions) (state : WalState)
    : (walSystem config).Meets (ChunkGuard config fun _ _ => True) state actions := by
  induction actions generalizing state with
  | nil => trivial
  | cons action rest ih =>
    rw [mem_cons, not_or] at noCheckpoint
    refine ⟨?_, fun following _ => ih noCheckpoint.2 following⟩
    cases action with
    | beginCheckpoint => exact noCheckpoint.1 rfl
    | _ => trivial

/-- A new log has no commits. -/
theorem opened_logged (config : WalConfig) (main : PageId → Page)
    (index : condition [] (WalState.opened config main).handle)
    : (WalState.opened config main).Logged config main rule condition [] [] where
  mainFile := rfl
  logFrames := .nil
  stored := trivial
  walEnd := rfl
  history _ := .nil
  index := index
  settled := rfl
  commits := rfl
  commitLsns := nofun
  phase := .idle (HeaderAt.of_encode { stored := [], size := 0 } config.pageSize)

/-- After every run without a checkpoint the file holds the log of the published commits. -/
theorem run_logged (indexRule : IndexRule config main rule guard condition)
    (mainPages : ∀ pageId, (main pageId).length = config.pageSize)
    (index : condition [] (WalState.opened config main).handle)
    (guarded : (walSystem config).Meets (ChunkGuard config guard) (.opened config main) actions)
    (ran : (walSystem config).run (.opened config main) actions = some final)
    : ∃ log frames, final.Logged config main rule condition log frames := by
  refine (walSystem config).run_preserves
    (fun state => ∃ log frames, state.Logged config main rule condition log frames)
    ?_ ⟨[], [], opened_logged config main index⟩ guarded ran
  rintro state action following ⟨log, frames, logged⟩ meets taken
  obtain ⟨newLog, newFrames, kept, -⟩ :=
    logged.step indexRule mainPages meets (walSystem_step taken)
  exact ⟨newLog, newFrames, kept⟩

end Runs

end DecentDb.Wal
