import DecentDb.Library.TransitionSystem
import DecentDb.Library.VersionedStore
import DecentDb.Wal.Checkpoint

/-! One process's WAL as a transition system. The write lock is held from the start of a
commit or checkpoint to its end, each use of the index lock is one step, and everything
else interleaves. `spec` is what the commits mean; no step reads it.
-/

namespace DecentDb.Wal

open TransitionSystem (System)

/-- Who holds the write lock, and how far they are. -/
inductive WriterPhase where
  | idle
  | committing (pages : List (PageId × Page)) (progress : WalHandle.CommitProgress)
  | checkpointStarted
  | checkpointCollecting (safeLsn : Nat)
  | checkpointSpilled (safeLsn : Nat) (latestVersions : List (PageId × WalVersion))
  | checkpointCopying (latestVersions : List (PageId × WalVersion))
  | checkpointCopied
  | checkpointTruncated
  | checkpointIndexCleared
  | checkpointCleared
  deriving DecidableEq

structure WalState where
  handle : WalHandle
  storage : Storage
  writer : WriterPhase
  /-- Commits that still have to make the reader check of `demote_cold_versions`. -/
  owedDemotions : Nat
  /-- Calls of `demote_cold_versions` that have made it and found no reader. -/
  checkedDemotions : Nat
  /-- Target sizes of the calls of `demote_resident_versions_if_reader_free` that have. -/
  checkedResidentDemotions : List Nat
  spec : VersionedStore PageId Page

inductive WalAction where
  | beginCommit (pages : List (PageId × Page))
  | beginCommitIfLatest (pages : List (PageId × Page)) (expectedLatestLsn expectedEpoch : Nat)
  | writeChunk
  | publish
  | checkDemotion
  | demote
  | checkResidentDemotion (targetBytes : Nat)
  | demoteResident (targetBytes : Nat)
  | beginReader
  | dropReader (readerId : Nat)
  | readPage (readerId : Nat) (pageId : PageId)
  | setRetainedSnapshot (snapshotLsn : Option Nat)
  | beginCheckpoint
  | decideCheckpoint
  | collectIndex
  | collectSidecar
  | copyPage
  | maintainPager (rewritten : List (PageId × Page)) (pageCount : Option PageId)
  | truncate
  | clearIndex
  | clearSidecar
  | finishCheckpoint
  deriving DecidableEq

namespace WalState

variable (config : WalConfig)

/-- A WAL opened on an empty file over the given main file. -/
def opened (main : PageId → Page) : WalState :=
  {
    handle := {
      index := .empty
      indexSidecar := if config.walIndexHotSetPages = 0 then none else some .empty
      walEndLsn := 0
      allocatedLen := walHeaderSize
      readerRegistry := .empty
      retainedSnapshotLsn := none
      checkpointPending := false
      checkpointEpoch := 0
    }
    storage := {
      wal := {
        stored := WalHeader.encode { pageSize := config.pageSize, walEndOffset := 0 }
        size := walHeaderSize
      }
      main
    }
    writer := .idle
    owedDemotions := 0
    checkedDemotions := 0
    checkedResidentDemotions := []
    spec := .restart main
  }

/-- The steps of the thread that holds the write lock, or takes it. -/
def nextWriter (state : WalState) : WalAction → Option WalState
  | .beginCommit pages =>
    match state.writer with
    | .idle => some { state with writer := .committing pages (state.handle.beginCommit pages) }
    | _ => none
  | .beginCommitIfLatest pages expectedLatestLsn expectedEpoch =>
    match state.writer with
    | .idle =>
      match state.handle.checkLatest expectedLatestLsn expectedEpoch with
      | .ok () =>
        some { state with writer := .committing pages (state.handle.beginCommit pages) }
      | .error _ => some state
    | _ => none
  | .writeChunk =>
    match state.writer with
    | .committing pages progress =>
      if progress.logicalEndWritten then none
      else
        match state.handle.writeChunk config state.storage progress with
        | (handle, storage, .ok written) =>
          some { state with handle, storage, writer := .committing pages written }
        -- The prepared pages are discarded; the frames stay past the logical end.
        | (handle, storage, .error _) => some { state with handle, storage, writer := .idle }
    | _ => none
  | .publish =>
    match state.writer with
    | .committing pages progress =>
      if progress.logicalEndWritten then
        let handle := state.handle.publishCommit config progress
        some { state with
          handle
          writer := .idle
          owedDemotions := state.owedDemotions
            + if handle.shouldDemoteColdVersions config then 1 else 0
          spec := state.spec.commit progress.offset pages }
      else none
    | _ => none
  | .beginCheckpoint =>
    match state.writer with
    | .idle =>
      some { state with
        handle := { state.handle with checkpointPending := true }
        writer := .checkpointStarted }
    | _ => none
  | .decideCheckpoint =>
    match state.writer with
    | .checkpointStarted =>
      if state.handle.checkpointBlocked then
        some { state with
          handle := { state.handle with checkpointPending := false }
          writer := .idle }
      else some { state with writer := .checkpointCollecting state.handle.latestSnapshot }
    | _ => none
  | .collectIndex =>
    match state.writer with
    | .checkpointCollecting safeLsn =>
      some { state with
        writer := .checkpointSpilled safeLsn (state.handle.collectIndex safeLsn) }
    | _ => none
  | .collectSidecar =>
    match state.writer with
    | .checkpointSpilled safeLsn latestVersions =>
      some { state with
        writer := .checkpointCopying (state.handle.collectSidecar safeLsn latestVersions) }
    | _ => none
  | .copyPage =>
    match state.writer with
    | .checkpointCopying ((pageId, version) :: rest) =>
      match state.handle.copyback config state.storage pageId version with
      | .ok storage => some { state with storage, writer := .checkpointCopying rest }
      | .error _ =>
        some { state with
          handle := { state.handle with checkpointPending := false }
          writer := .idle }
    | _ => none
  | .maintainPager rewritten pageCount =>
    match state.writer with
    | .checkpointCopying [] =>
      if ∀ page ∈ rewritten, page.2.length = config.pageSize then
        some { state with
          storage := { state.storage with
            main := Wal.maintainPager config rewritten pageCount state.storage.main }
          writer := .checkpointCopied
          spec := .restart (Wal.maintainPager config rewritten pageCount
            fun pageId => state.spec.valueAt pageId state.handle.latestSnapshot) }
      else none
    | _ => none
  | .truncate =>
    match state.writer with
    | .checkpointCopied =>
      let (handle, storage) := state.handle.truncateToHeader config state.storage
      some { state with handle, storage, writer := .checkpointTruncated }
    | _ => none
  | .clearIndex =>
    match state.writer with
    | .checkpointTruncated =>
      some { state with handle := state.handle.clearIndex, writer := .checkpointIndexCleared }
    | _ => none
  | .clearSidecar =>
    match state.writer with
    | .checkpointIndexCleared =>
      some { state with handle := state.handle.clearSidecar, writer := .checkpointCleared }
    | _ => none
  | .finishCheckpoint =>
    match state.writer with
    | .checkpointCleared =>
      some { state with
        handle := { state.handle with
          checkpointEpoch := state.handle.checkpointEpoch + 1
          checkpointPending := false }
        writer := .idle }
    | _ => none
  | _ => none

/-- The steps of all other threads. -/
def nextOther (state : WalState) : WalAction → Option WalState
  | .checkDemotion =>
    if state.owedDemotions = 0 then none
    else
      some { state with
        owedDemotions := state.owedDemotions - 1
        checkedDemotions := state.checkedDemotions
          + if state.handle.readerFree then 1 else 0 }
  | .demote =>
    if state.checkedDemotions = 0 then none
    else
      some { state with
        handle := state.handle.demoteColdVersions config
        checkedDemotions := state.checkedDemotions - 1 }
  | .checkResidentDemotion targetBytes =>
    if state.handle.readerFree then
      some { state with
        checkedResidentDemotions := targetBytes :: state.checkedResidentDemotions }
    else some state
  | .demoteResident targetBytes =>
    if targetBytes ∈ state.checkedResidentDemotions then
      some { state with
        handle := state.handle.demoteResidentVersions targetBytes
        checkedResidentDemotions := state.checkedResidentDemotions.erase targetBytes }
    else none
  | .beginReader =>
    if state.handle.checkpointPending then none
    else
      some { state with
        handle := { state.handle with
          readerRegistry := state.handle.readerRegistry.register state.handle.latestSnapshot } }
  | .dropReader readerId =>
    some { state with
      handle := { state.handle with
        readerRegistry := state.handle.readerRegistry.drop readerId } }
  | .readPage readerId pageId =>
    match state.handle.readerRegistry.readers.find? (·.readerId = readerId) with
    | none => none
    | some reader =>
      some { state with
        handle := (state.handle.readPageAtSnapshot config state.storage pageId
          reader.snapshotLsn).1 }
  | .setRetainedSnapshot snapshotLsn =>
    some { state with handle := { state.handle with retainedSnapshotLsn := snapshotLsn } }
  | _ => none

end WalState

/-- All handles of a process on one WAL. -/
def walSystem (config : WalConfig) : System WalState WalAction where
  next state action := (state.nextWriter config action).or (state.nextOther config action)

/-- A page of the default size that is zero but for its first byte. -/
def markedPage (mark : UInt8) : Page := mark :: List.replicate 4095 0

/-- A marked page is a whole page. -/
theorem length_markedPage (mark : UInt8) : (markedPage mark).length = 4096 := by
  rw [markedPage, List.length_cons, List.length_replicate]

/-- A commit of at most one chunk, run without interruption. -/
def commitActions (pages : List (PageId × Page)) : List WalAction :=
  [.beginCommit pages, .writeChunk, .publish]

/-- A checkpoint that copies the given number of versions, run without interruption. -/
def checkpointActions (copies : Nat) (header : Page) : List WalAction :=
  [.beginCheckpoint, .decideCheckpoint, .collectIndex, .collectSidecar]
    ++ List.replicate copies .copyPage
    ++ [.maintainPager [(headerPageId, header)] none, .truncate, .clearIndex, .clearSidecar,
      .finishCheckpoint]

-- What a step can do

/-- The steps of the system, one constructor for each way an action can go. -/
inductive WalStep (config : WalConfig) (state : WalState) : WalAction → WalState → Prop where
  | beginCommit (pages : List (PageId × Page)) (idle : state.writer = .idle)
    : WalStep config state (.beginCommit pages)
      { state with writer := .committing pages (state.handle.beginCommit pages) }
  | beginCommitIfLatest (pages : List (PageId × Page)) (lsn epoch : Nat)
    (idle : state.writer = .idle) (latest : state.handle.checkLatest lsn epoch = .ok ())
    : WalStep config state (.beginCommitIfLatest pages lsn epoch)
      { state with writer := .committing pages (state.handle.beginCommit pages) }
  | conflict (pages : List (PageId × Page)) (lsn epoch : Nat) (idle : state.writer = .idle)
    : WalStep config state (.beginCommitIfLatest pages lsn epoch) state
  | writeChunk {pages : List (PageId × Page)} {progress written : WalHandle.CommitProgress}
    {handle : WalHandle} {storage : Storage}
    (committing : state.writer = .committing pages progress)
    (unfinished : progress.logicalEndWritten = false)
    (wrote : state.handle.writeChunk config state.storage progress
      = (handle, storage, .ok written))
    : WalStep config state .writeChunk
      { state with handle, storage, writer := .committing pages written }
  | abandonCommit {pages : List (PageId × Page)} {progress : WalHandle.CommitProgress}
    {handle : WalHandle} {storage : Storage} {error : DbError}
    (committing : state.writer = .committing pages progress)
    (unfinished : progress.logicalEndWritten = false)
    (failed : state.handle.writeChunk config state.storage progress
      = (handle, storage, .error error))
    : WalStep config state .writeChunk { state with handle, storage, writer := .idle }
  | publish {pages : List (PageId × Page)} {progress : WalHandle.CommitProgress} (owed : Nat)
    (committing : state.writer = .committing pages progress)
    (finished : progress.logicalEndWritten)
    : WalStep config state .publish
      { state with
        handle := state.handle.publishCommit config progress
        writer := .idle
        owedDemotions := owed
        spec := state.spec.commit progress.offset pages }
  | checkDemotion (owed : Nat)
    : WalStep config state .checkDemotion
      { state with
        owedDemotions := owed
        checkedDemotions := state.checkedDemotions
          + if state.handle.readerFree then 1 else 0 }
  | demote (checked : Nat)
    : WalStep config state .demote
      { state with
        handle := state.handle.demoteColdVersions config
        checkedDemotions := checked }
  | checkResidentDemotion (targetBytes : Nat) (checked : List Nat)
    : WalStep config state (.checkResidentDemotion targetBytes)
      { state with checkedResidentDemotions := checked }
  | demoteResident (targetBytes : Nat) (checked : List Nat)
    : WalStep config state (.demoteResident targetBytes)
      { state with
        handle := state.handle.demoteResidentVersions targetBytes
        checkedResidentDemotions := checked }
  | beginReader (open_ : state.handle.checkpointPending = false)
    : WalStep config state .beginReader
      { state with
        handle := { state.handle with
          readerRegistry := state.handle.readerRegistry.register state.handle.latestSnapshot } }
  | dropReader (readerId : Nat)
    : WalStep config state (.dropReader readerId)
      { state with
        handle := { state.handle with
          readerRegistry := state.handle.readerRegistry.drop readerId } }
  | readPage (readerId : Nat) (pageId : PageId) {reader : ReaderInfo}
    (registered : reader ∈ state.handle.readerRegistry.readers)
    : WalStep config state (.readPage readerId pageId)
      { state with
        handle := (state.handle.readPageAtSnapshot config state.storage pageId
          reader.snapshotLsn).1 }
  | setRetainedSnapshot (snapshotLsn : Option Nat)
    : WalStep config state (.setRetainedSnapshot snapshotLsn)
      { state with handle := { state.handle with retainedSnapshotLsn := snapshotLsn } }
  | beginCheckpoint (idle : state.writer = .idle)
    : WalStep config state .beginCheckpoint
      { state with
        handle := { state.handle with checkpointPending := true }
        writer := .checkpointStarted }
  | skipCheckpoint (started : state.writer = .checkpointStarted)
    : WalStep config state .decideCheckpoint
      { state with
        handle := { state.handle with checkpointPending := false }
        writer := .idle }
  | decideCheckpoint (started : state.writer = .checkpointStarted)
    (free : state.handle.checkpointBlocked = false)
    : WalStep config state .decideCheckpoint
      { state with writer := .checkpointCollecting state.handle.latestSnapshot }
  | collectIndex {safeLsn : Nat} (collecting : state.writer = .checkpointCollecting safeLsn)
    : WalStep config state .collectIndex
      { state with writer := .checkpointSpilled safeLsn (state.handle.collectIndex safeLsn) }
  | collectSidecar {safeLsn : Nat} {latestVersions : List (PageId × WalVersion)}
    (spilled : state.writer = .checkpointSpilled safeLsn latestVersions)
    : WalStep config state .collectSidecar
      { state with
        writer := .checkpointCopying (state.handle.collectSidecar safeLsn latestVersions) }
  | copyPage {pageId : PageId} {version : WalVersion} {rest : List (PageId × WalVersion)}
    {storage : Storage} (copying : state.writer = .checkpointCopying ((pageId, version) :: rest))
    (copied : state.handle.copyback config state.storage pageId version = .ok storage)
    : WalStep config state .copyPage { state with storage, writer := .checkpointCopying rest }
  | abandonCheckpoint {pageId : PageId} {version : WalVersion} {rest : List (PageId × WalVersion)}
    {error : DbError}
    (copying : state.writer = .checkpointCopying ((pageId, version) :: rest))
    (failed : state.handle.copyback config state.storage pageId version = .error error)
    : WalStep config state .copyPage
      { state with
        handle := { state.handle with checkpointPending := false }
        writer := .idle }
  | maintainPager (rewritten : List (PageId × Page)) (pageCount : Option PageId)
    (copying : state.writer = .checkpointCopying [])
    (lengths : ∀ page ∈ rewritten, page.2.length = config.pageSize)
    : WalStep config state (.maintainPager rewritten pageCount)
      { state with
        storage := { state.storage with
          main := Wal.maintainPager config rewritten pageCount state.storage.main }
        writer := .checkpointCopied
        spec := .restart (Wal.maintainPager config rewritten pageCount
          fun pageId => state.spec.valueAt pageId state.handle.latestSnapshot) }
  | truncate (copied : state.writer = .checkpointCopied)
    : WalStep config state .truncate
      { state with
        handle := (state.handle.truncateToHeader config state.storage).1
        storage := (state.handle.truncateToHeader config state.storage).2
        writer := .checkpointTruncated }
  | clearIndex (truncated : state.writer = .checkpointTruncated)
    : WalStep config state .clearIndex
      { state with handle := state.handle.clearIndex, writer := .checkpointIndexCleared }
  | clearSidecar (cleared : state.writer = .checkpointIndexCleared)
    : WalStep config state .clearSidecar
      { state with handle := state.handle.clearSidecar, writer := .checkpointCleared }
  | finishCheckpoint (cleared : state.writer = .checkpointCleared)
    : WalStep config state .finishCheckpoint
      { state with
        handle := { state.handle with
          checkpointEpoch := state.handle.checkpointEpoch + 1
          checkpointPending := false }
        writer := .idle }

section Inversion

open WalState

variable {config : WalConfig} {state following : WalState} {action : WalAction}

/-- A step of the writer is one of the steps. -/
theorem nextWriter_step (taken : state.nextWriter config action = some following)
    : WalStep config state action following := by
  cases action <;> simp only [nextWriter, reduceCtorEq] at taken
  -- One goal is left for each branch that goes on, in the order of the definition.
  all_goals repeat' split at taken
  all_goals cases taken
  next idle => exact .beginCommit _ idle
  next idle _ latest => exact .beginCommitIfLatest _ _ _ idle latest
  next idle _ _ _ => exact .conflict _ _ _ idle
  next committing unfinished _ _ _ _ wrote =>
    exact .writeChunk committing (by simpa using unfinished) wrote
  next committing unfinished _ _ _ _ failed =>
    exact .abandonCommit committing (by simpa using unfinished) failed
  iterate 2 next committing finished _ => exact .publish _ committing finished
  next idle => exact .beginCheckpoint idle
  next started _ => exact .skipCheckpoint started
  next started free => exact .decideCheckpoint started (by simpa using free)
  next collecting => exact .collectIndex collecting
  next spilled => exact .collectSidecar spilled
  next copying _ _ copied => exact .copyPage copying copied
  next copying _ _ failed => exact .abandonCheckpoint copying failed
  next copying lengths => exact .maintainPager _ _ copying lengths
  next copied => exact .truncate copied
  next truncated => exact .clearIndex truncated
  next cleared => exact .clearSidecar cleared
  next cleared => exact .finishCheckpoint cleared

/-- A step that does not need the write lock is one of the steps. -/
theorem nextOther_step (taken : state.nextOther config action = some following)
    : WalStep config state action following := by
  cases action <;> simp only [nextOther, reduceCtorEq] at taken
  all_goals try split at taken
  all_goals cases taken
  next => exact .checkDemotion _
  next => exact .demote _
  iterate 2 next => exact .checkResidentDemotion _ _
  next => exact .demoteResident _ _
  next unpended => exact .beginReader (by simpa using unpended)
  next => exact .dropReader _
  next found => exact .readPage _ _ (List.mem_of_find?_eq_some found)
  next => exact .setRetainedSnapshot _

/-- Every enabled action is one of the steps. -/
theorem walSystem_step (taken : (walSystem config).next state action = some following)
    : WalStep config state action following := by
  rcases Option.or_eq_some_iff.mp taken with writer | ⟨_, other⟩
  · exact nextWriter_step writer
  · exact nextOther_step other

end Inversion

end DecentDb.Wal
