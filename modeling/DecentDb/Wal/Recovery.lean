import DecentDb.Wal.Writer

/-! Recovery: replaying the committed frames of the WAL file into an index, and the handle
that is opened on the result.
-/

namespace DecentDb.Wal

open LittleEndian (leBytes leNat)

def maxPendingRecoveryFrames : Nat := 1000000

def recoveryPendingOverflowMessage : String :=
  "WAL recovery aborted: more than 1,000,000 uncommitted page frames before commit"

/-- A page of a commit whose marker has not been seen yet. -/
structure PendingRecoveryPage where
  data : Page
  lsn : Nat
  walOffset : Nat
  frameLen : Nat
  encoding : FrameEncoding

def PendingRecoveryPage.version (pending : PendingRecoveryPage) : WalVersion :=
  {
    lsn := pending.lsn
    payload := .resident pending.data pending.walOffset pending.frameLen pending.encoding
  }

/-- The variables of the replay loop; of the pending frames only their number is read. -/
structure Replay where
  index : WalIndex
  pendingFrames : Nat
  pendingPages : Std.ExtTreeMap PageId PendingRecoveryPage

namespace Replay

def start : Replay := { index := .empty, pendingFrames := 0, pendingPages := ∅ }

variable (replay : Replay)

def pushPendingFrame : DbResult Replay :=
  if maxPendingRecoveryFrames ≤ replay.pendingFrames then
    .error (.corruption recoveryPendingOverflowMessage)
  else .ok { replay with pendingFrames := replay.pendingFrames + 1 }

def storePendingPage (pageId : PageId) (pending : PendingRecoveryPage) : DbResult Replay :=
  if ¬replay.pendingPages.contains pageId ∧ maxPendingRecoveryFrames ≤ replay.pendingPages.size then
    .error (.corruption recoveryPendingOverflowMessage)
  else .ok { replay with pendingPages := replay.pendingPages.insert pageId pending }

/-- The page that a delta frame is applied to: the pending page, else the newest recovered
version, else the main file's page.
-/
def deltaBase (storage : Storage) (pageId : PageId) : DbResult Page :=
  match replay.pendingPages[pageId]? with
  | some pending => .ok pending.data
  | none =>
    match (replay.index.versions pageId).getLast? with
    | some { payload := .resident data .., .. } => .ok data
    | some { payload := .onDisk .., .. } =>
      .error (.internal "demoted WAL payload must be materialized first")
    | none => storage.readPageFromDisk pageId

/-- Only the latest version of a page is kept: no reader can hold an older snapshot yet. -/
def commitPending : Replay :=
  {
    index := replay.pendingPages.toList.foldl
      (fun index (pageId, pending) => index.addVersion pageId pending.version false)
      replay.index
    pendingFrames := 0
    pendingPages := ∅
  }

/-- One turn of the replay loop, for the frame at the offset. -/
def replayFrame (storage : Storage) (pageSize offset : Nat) (replay : Replay)
    (frame : WalFrame) : DbResult Replay :=
  let frameLen := frame.encodedLen pageSize
  let pending (data : Page) (encoding : FrameEncoding) : PendingRecoveryPage :=
    { data, lsn := offset + frameLen, walOffset := offset, frameLen, encoding }
  match frame.frameType with
  | .page => do
    let pushed ← replay.pushPendingFrame
    pushed.storePendingPage frame.pageId (pending frame.payload .page)
  | .pageDelta => do
    let pushed ← replay.pushPendingFrame
    let base ← pushed.deltaBase storage frame.pageId
    let data ← applyPageDelta base frame.payload
    pushed.storePendingPage frame.pageId (pending data .pageDelta)
  | .commit => .ok replay.commitPending
  | .checkpoint => .ok { replay with pendingFrames := 0, pendingPages := ∅ }

/-- The replay loop. Every turn moves the offset forward, so the end bounds the turns. -/
def replayFrames (storage : Storage) (pageSize logicalEnd : Nat)
    : Nat → Nat → Replay → DbResult Replay
  | 0, _, replay => .ok replay
  | turns + 1, offset, replay =>
    if offset < logicalEnd then do
      match ← WalFrame.decodeFromFile storage.wal offset pageSize logicalEnd with
      | none => return replay
      | some frame =>
        let next ← replay.replayFrame storage pageSize offset frame
        replayFrames storage pageSize logicalEnd turns (offset + frame.encodedLen pageSize) next
    else return replay

end Replay

-- Opening

section Open

variable (config : WalConfig) (path : String)

/-- What recovery hands to the opened handle. -/
structure Recovered where
  storage : Storage
  index : WalIndex
  indexSidecar : Option WalIndexSidecar
  endLsn : Nat

def spillRecoveredLatestVersions (index : WalIndex) (indexSidecar : Option WalIndexSidecar)
    : DbResult (WalIndex × Option WalIndexSidecar) :=
  match indexSidecar with
  | none => .ok (index, none)
  | some sidecar =>
    match WalHandle.spillExcess config.walIndexHotSetPages index.pages.size index sidecar with
    | (left, written, .ok ()) => .ok (left, some written)
    | (_, _, .error error) => .error error

/-- The header of a file that is not empty, with recovery's checks. -/
def readHeader (file : ByteFile) : DbResult WalHeader := do
  if file.size < walHeaderSize then
    .error (.corruption s!"WAL file {path} is shorter than the fixed header")
  else
    let bytes ← WalFrame.readExact file 0 walHeaderSize
    let header ← WalHeader.decode bytes
    if header.pageSize ≠ config.pageSize then
      .error (.corruption (s!"WAL page size {header.pageSize} does not match database page size "
        ++ s!"{config.pageSize}"))
    else if file.size < header.walEndOffset then
      .error (.corruption (s!"WAL logical end offset {header.walEndOffset} exceeds file size "
        ++ s!"{file.size}"))
    else return header

def initializeOrRecover (storage : Storage) (indexSidecar : Option WalIndexSidecar)
    : DbResult Recovered :=
  if storage.wal.size = 0 then
    let header : WalHeader := { pageSize := config.pageSize, walEndOffset := 0 }
    .ok {
      storage := { storage with
        wal := (storage.wal.writeAllAt 0 header.encode).setLen walHeaderSize }
      index := .empty
      indexSidecar
      endLsn := 0
    }
  else do
    let header ← readHeader config path storage.wal
    let replayed ← Replay.replayFrames storage config.pageSize header.walEndOffset
      header.walEndOffset walHeaderSize .start
    let (index, indexSidecar) ← spillRecoveredLatestVersions config replayed.index indexSidecar
    return { storage, index, indexSidecar, endLsn := header.walEndOffset }

/-- A process that coordinates with others keeps the whole index in memory. -/
def freshSidecar (coordinated : Bool) : Option WalIndexSidecar :=
  if config.walIndexHotSetPages = 0 ∨ coordinated then none else some .empty

def buildHandleFromFile (coordinated : Bool) (storage : Storage)
    : DbResult (WalHandle × Storage) := do
  let recovered ← initializeOrRecover config path storage (freshSidecar config coordinated)
  let opened (index : WalIndex) (indexSidecar : Option WalIndexSidecar) : WalHandle :=
    {
      index
      indexSidecar
      walEndLsn := recovered.endLsn
      allocatedLen := recovered.storage.wal.size
      readerRegistry := .empty
      retainedSnapshotLsn := none
      checkpointPending := false
      checkpointEpoch := 0
    }
  match recovered.indexSidecar with
  | none => return (opened recovered.index none, recovered.storage)
  | some sidecar =>
    match WalHandle.spillExcessHotPagesLocked config recovered.index sidecar with
    | (index, spilled, .ok ()) => return (opened index (some spilled), recovered.storage)
    | (_, _, .error error) => .error error

end Open

end DecentDb.Wal
