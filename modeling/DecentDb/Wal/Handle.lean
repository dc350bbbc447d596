import DecentDb.Wal.Delta
import DecentDb.Wal.Index

/-! The state that all handles of one process share for a WAL, and the read path: spilling
to and promotion from the sidecar, and materialization of versions.
-/

namespace DecentDb.Wal

/-- The settings that a WAL is opened with. -/
structure WalConfig where
  pageSize : Nat
  supported : isSupportedPageSize pageSize
  walIndexHotSetPages : Nat
  residentVersionsPerPage : Nat

/-- Page sizes lie between 4096 and 16384 bytes. -/
theorem WalConfig.pageSize_bounds (config : WalConfig)
    : 4096 ≤ config.pageSize ∧ config.pageSize ≤ 16384 := by
  have supported := config.supported
  simp [isSupportedPageSize, supportedPageSizes] at supported
  omega

/-- The default settings. -/
def WalConfig.default : WalConfig :=
  {
    pageSize := 4096
    supported := by decide
    walIndexHotSetPages := 0
    residentVersionsPerPage := 16
  }

-- The sidecar

structure SidecarRecord where
  lsn : Nat
  walOffset : Nat
  frameLen : Nat
  encoding : FrameEncoding
  deriving DecidableEq, Repr

def SidecarRecord.version (record : SidecarRecord) : WalVersion :=
  {
    lsn := record.lsn
    payload := .onDisk record.walOffset record.frameLen record.encoding
  }

/-- A record has the LSN of its version. -/
@[simp]
theorem SidecarRecord.lsn_version (record : SidecarRecord) : record.version.lsn = record.lsn := rfl

def WalVersion.record (version : WalVersion) : SidecarRecord :=
  let (walOffset, frameLen, encoding) := version.payload.walMetadata
  { lsn := version.lsn, walOffset, frameLen, encoding }

/-- The records that are present in the sidecar file, by page. -/
structure WalIndexSidecar where
  records : Std.ExtTreeMap PageId SidecarRecord

namespace WalIndexSidecar

def empty : WalIndexSidecar := { records := ∅ }

variable (sidecar : WalIndexSidecar) (pageId : PageId)

def readLatest : Option WalVersion :=
  if pageId = 0 then none else sidecar.records[pageId]?.map SidecarRecord.version

def writeLatest (version : WalVersion) : DbResult WalIndexSidecar :=
  if pageId = 0 then .error (.corruption "WAL index sidecar cannot store page id 0")
  else .ok { records := sidecar.records.insert pageId version.record }

def clearLatest : WalIndexSidecar :=
  if pageId = 0 then sidecar else { records := sidecar.records.erase pageId }

def populateLatestVersionsAtOrBefore (safeLsn : Nat) : List (PageId × WalVersion) :=
  (sidecar.records.toList.filter (·.2.lsn ≤ safeLsn)).map fun (pageId, record) =>
    (pageId, record.version)

end WalIndexSidecar

-- Readers

structure ReaderInfo where
  readerId : Nat
  snapshotLsn : Nat
  deriving DecidableEq, Repr

/-- The registered readers; ids are handed out once. -/
structure ReaderRegistry where
  nextId : Nat
  readers : List ReaderInfo
  deriving DecidableEq, Repr

namespace ReaderRegistry

def empty : ReaderRegistry := { nextId := 0, readers := [] }

variable (registry : ReaderRegistry)

def register (snapshotLsn : Nat) : ReaderRegistry :=
  {
    nextId := registry.nextId + 1
    readers := registry.readers ++ [{ readerId := registry.nextId + 1, snapshotLsn }]
  }

def drop (readerId : Nat) : ReaderRegistry :=
  { registry with readers := registry.readers.filter (·.readerId ≠ readerId) }

def activeReaderCount : Nat := registry.readers.length

def minSnapshotLsn : Option Nat :=
  (registry.readers.map ReaderInfo.snapshotLsn).min?

end ReaderRegistry

-- The shared handle

/-- The two files. A page past the end of the main file reads as zeros, so the main file is
the function from page ids to images.
-/
structure Storage where
  wal : ByteFile
  main : PageId → Page

structure WalHandle where
  index : WalIndex
  indexSidecar : Option WalIndexSidecar
  walEndLsn : Nat
  allocatedLen : Nat
  readerRegistry : ReaderRegistry
  retainedSnapshotLsn : Option Nat
  checkpointPending : Bool
  checkpointEpoch : Nat

namespace Storage

def readPageFromDisk (storage : Storage) (pageId : PageId) : DbResult Page :=
  if pageId = 0 then .error (.corruption "page id 0 is invalid")
  else .ok (storage.main pageId)

def writePage (storage : Storage) (pageId : PageId) (image : Page) : Storage :=
  { storage with main := Function.update storage.main pageId image }

end Storage

namespace WalHandle

variable (config : WalConfig) {first second third : WalHandle}

section

variable (handle : WalHandle)

def latestSnapshot : Nat := handle.walEndLsn

/-- Some reader or named snapshot may need older versions. -/
def historyNeeded : Bool :=
  0 < handle.readerRegistry.activeReaderCount || handle.retainedSnapshotLsn.isSome

-- Spilling and promotion

/-- The loop of `spill_excess_hot_pages_locked`; every turn takes one page out of the index,
so the number of its pages bounds the turns.
-/
def spillExcess (hotSetPages : Nat)
    : Nat → WalIndex → WalIndexSidecar → WalIndex × WalIndexSidecar × DbResult Unit
  | 0, index, sidecar => (index, sidecar, .ok ())
  | turns + 1, index, sidecar =>
    match index.spillOneColdLatest hotSetPages with
    | (left, none) => (left, sidecar, .ok ())
    | (left, some (pageId, version)) =>
      match sidecar.writeLatest pageId version with
      | .ok written => spillExcess hotSetPages turns left written
      | .error error => (left.seedLatest pageId version, sidecar, .error error)

def spillExcessHotPagesLocked (index : WalIndex) (sidecar : WalIndexSidecar)
    : WalIndex × WalIndexSidecar × DbResult Unit :=
  if config.walIndexHotSetPages = 0 then (index, sidecar, .ok ())
  else spillExcess config.walIndexHotSetPages index.pages.size index sidecar

def promoteSpilledLatestLocked (pageId : PageId) (snapshotLsn : Nat) : WalHandle × DbResult Unit :=
  match handle.indexSidecar with
  | none => (handle, .ok ())
  | some sidecar =>
    if handle.index.containsPage pageId then (handle, .ok ())
    else
      match sidecar.readLatest pageId with
      | none => (handle, .ok ())
      | some version =>
        if snapshotLsn < version.lsn then (handle, .ok ())
        else
          let cleared := sidecar.clearLatest pageId
          let seeded := handle.index.seedLatest pageId version
          if handle.readerRegistry.activeReaderCount = 0 then
            let (index, spilled, result) := spillExcessHotPagesLocked config seeded cleared
            ({ handle with index, indexSidecar := some spilled }, result)
          else ({ handle with index := seeded, indexSidecar := some cleared }, .ok ())

-- Materialization

/-- The page that a version stands for. A delta is applied to the newest older version in
the index, else to the main file; older versions have smaller LSNs, which bounds `fuel`.
-/
def materialize (handle : WalHandle) (storage : Storage) (pageId : PageId)
    : Nat → WalVersion → DbResult Page
  | _, { payload := .resident data .., .. } => .ok data
  | 0, _ => .error (.internal "WAL delta chain does not end")
  | fuel + 1, { lsn, payload := .onDisk walOffset frameLen encoding } => do
    let some frame ← WalFrame.decodeFromFileWithLen storage.wal walOffset frameLen
      config.pageSize handle.latestSnapshot
      | .error (.corruption
        s!"WAL frame at offset {walOffset} for page {pageId} is truncated")
    if frame.pageId ≠ pageId then
      .error (.corruption (s!"WAL frame at offset {walOffset} belongs to page {frame.pageId}, "
        ++ s!"expected {pageId}"))
    else if frame.frameType ≠ encoding.frameType then
      .error (.corruption s!"WAL frame encoding mismatch at offset {walOffset}")
    else
      match encoding with
      | .page => .ok frame.payload
      | .pageDelta =>
        let base ←
          match handle.index.latestVisible pageId (lsn - 1) with
          | some previous => materialize handle storage pageId fuel previous
          | none => storage.readPageFromDisk pageId
        applyPageDelta base frame.payload

variable (storage : Storage) (pageId : PageId)

def materializeVersionLocked (version : WalVersion) : DbResult Page :=
  materialize config handle storage pageId (version.lsn + 1) version

def materializeLatestVisibleLocked (snapshotLsn : Nat) : DbResult (Option Page) :=
  match handle.index.latestVisible pageId snapshotLsn with
  | none => .ok none
  | some version => do
    let page ← materializeVersionLocked config handle storage pageId version
    return some page

/-- The read path looks for a spilled version only if no indexed one is visible. -/
def promoteIfNotVisible (snapshotLsn : Nat) : WalHandle × DbResult Unit :=
  if (handle.index.latestVisible pageId snapshotLsn).isNone then
    promoteSpilledLatestLocked config handle pageId snapshotLsn
  else (handle, .ok ())

def touchIfVisible (snapshotLsn : Nat) : WalHandle :=
  if (handle.index.latestVisible pageId snapshotLsn).isSome then
    { handle with index := handle.index.touch pageId }
  else handle

def readPageAtSnapshot (snapshotLsn : Nat) : WalHandle × DbResult (Option Page) :=
  match promoteIfNotVisible config handle pageId snapshotLsn with
  | (promoted, .error error) => (promoted, .error error)
  | (promoted, .ok ()) =>
    let touched := promoted.touchIfVisible pageId snapshotLsn
    (touched, materializeLatestVisibleLocked config touched storage pageId snapshotLsn)

/-- What the snapshot page store returns: the WAL's version, else the main file's page. -/
def readPage (snapshotLsn : Nat) : DbResult Page :=
  match (readPageAtSnapshot config handle storage pageId snapshotLsn).2 with
  | .error error => .error error
  | .ok (some page) => .ok page
  | .ok none => storage.readPageFromDisk pageId

end

-- What holds across a promotion holds across a read

section Rules

variable {config} {motive : WalHandle → Prop} {handle : WalHandle} {pageId : PageId}
  {snapshotLsn : Nat}

/-- What holds before and after a promotion holds after a look for one. -/
theorem promoteIfNotVisible_rule (unchanged : motive handle)
    (promoted : motive (handle.promoteSpilledLatestLocked config pageId snapshotLsn).1)
    : motive (handle.promoteIfNotVisible config pageId snapshotLsn).1 := by
  unfold promoteIfNotVisible
  split
  · exact promoted
  · exact unchanged

/-- What holds before, after a promotion and after a touch holds after a read. -/
theorem readPageAtSnapshot_rule (storage : Storage) (unchanged : motive handle)
    (promoted : motive (handle.promoteSpilledLatestLocked config pageId snapshotLsn).1)
    (touched : ∀ {promoted}, motive promoted → motive (promoted.touchIfVisible pageId snapshotLsn))
    : motive (handle.readPageAtSnapshot config storage pageId snapshotLsn).1 := by
  have promotes := promoteIfNotVisible_rule unchanged promoted
  unfold readPageAtSnapshot
  split
  next outcome => rwa [outcome] at promotes
  next outcome =>
    rw [outcome] at promotes
    exact touched promotes

end Rules

-- What the cached part leaves alone

/-- The end, the readers, the retained snapshot and the checkpoint words are the same. -/
structure SameControl (before after : WalHandle) : Prop where
  walEndLsn : after.walEndLsn = before.walEndLsn
  readerRegistry : after.readerRegistry = before.readerRegistry
  retainedSnapshotLsn : after.retainedSnapshotLsn = before.retainedSnapshotLsn
  checkpointPending : after.checkpointPending = before.checkpointPending
  checkpointEpoch : after.checkpointEpoch = before.checkpointEpoch

/-- The two handles differ at most in the index and its sidecar. -/
structure CacheOnly (before after : WalHandle) : Prop extends SameControl before after where
  allocatedLen : after.allocatedLen = before.allocatedLen

/-- A handle has its own control data. -/
theorem SameControl.refl (handle : WalHandle) : SameControl handle handle :=
  ⟨rfl, rfl, rfl, rfl, rfl⟩

/-- Doing nothing changes only the cache. -/
theorem CacheOnly.refl (handle : WalHandle) : CacheOnly handle handle := ⟨.refl handle, rfl⟩

/-- Control data that is kept twice is kept. -/
theorem SameControl.trans (left : SameControl first second) (right : SameControl second third)
    : SameControl first third :=
  ⟨right.walEndLsn.trans left.walEndLsn, right.readerRegistry.trans left.readerRegistry,
    right.retainedSnapshotLsn.trans left.retainedSnapshotLsn,
    right.checkpointPending.trans left.checkpointPending,
    right.checkpointEpoch.trans left.checkpointEpoch⟩

/-- Two changes of the cache are one. -/
theorem CacheOnly.trans (left : CacheOnly first second) (right : CacheOnly second third)
    : CacheOnly first third :=
  ⟨left.toSameControl.trans right.toSameControl, right.allocatedLen.trans left.allocatedLen⟩

variable (handle : WalHandle)
include handle

/-- New contents of the index and the sidecar are all that changes. -/
theorem cacheOnly_with (index : WalIndex) (indexSidecar : Option WalIndexSidecar)
    : CacheOnly handle { handle with index, indexSidecar } :=
  ⟨⟨rfl, rfl, rfl, rfl, rfl⟩, rfl⟩

variable (pageId) (snapshotLsn)

/-- A promotion changes only the cache. -/
theorem promoteSpilledLatestLocked_cacheOnly
    : CacheOnly handle (handle.promoteSpilledLatestLocked config pageId snapshotLsn).1 := by
  unfold promoteSpilledLatestLocked
  repeat' split
  all_goals exact handle.cacheOnly_with _ _

/-- A look for a promotion changes only the cache. -/
theorem promoteIfNotVisible_cacheOnly
    : CacheOnly handle (handle.promoteIfNotVisible config pageId snapshotLsn).1 :=
  promoteIfNotVisible_rule (.refl handle)
    (handle.promoteSpilledLatestLocked_cacheOnly config pageId snapshotLsn)

/-- A touch changes only the cache. -/
theorem touchIfVisible_cacheOnly : CacheOnly handle (handle.touchIfVisible pageId snapshotLsn) := by
  unfold touchIfVisible
  split <;> exact handle.cacheOnly_with _ _

/-- A read changes only the cache. -/
theorem readPageAtSnapshot_cacheOnly (storage : Storage) (pageId : PageId) (snapshotLsn : Nat)
    : CacheOnly handle (handle.readPageAtSnapshot config storage pageId snapshotLsn).1 :=
  readPageAtSnapshot_rule storage (.refl handle)
    (handle.promoteSpilledLatestLocked_cacheOnly config pageId snapshotLsn)
    fun cache => cache.trans (touchIfVisible_cacheOnly _ pageId snapshotLsn)

end WalHandle

end DecentDb.Wal
