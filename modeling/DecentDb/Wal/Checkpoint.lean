import DecentDb.Wal.Writer
import Mathlib.Data.List.Sort

/-! Checkpoint: copying the latest versions back into the main file and restarting the WAL.
-/

namespace DecentDb.Wal

/-- What `truncate_freelist_tail` and `set_last_checkpoint_lsn` do to the main file: the header
page and the free pages that are linked anew, and free pages cut off its end.
-/
def maintainPager (config : WalConfig) (rewritten : List (PageId × Page))
    (pageCount : Option PageId) (main : PageId → Page) : PageId → Page := fun pageId =>
  match rewritten.lookup pageId with
  | some page => page
  | none =>
    if pageCount.any (· < pageId) then List.replicate config.pageSize 0 else main pageId

namespace WalHandle

variable (config : WalConfig) (handle : WalHandle)

/-- A reader, or a named snapshot below the end, keeps the WAL as it is. -/
def checkpointBlocked : Bool :=
  handle.readerRegistry.minSnapshotLsn.isSome
    || handle.retainedSnapshotLsn.any (· < handle.latestSnapshot)

def collectIndex (safeLsn : Nat) : List (PageId × WalVersion) :=
  handle.index.populateLatestVersionsAtOrBefore safeLsn

/-- Appends the spilled versions and sorts by page id, keeping the order of equal ids. -/
def collectSidecar (safeLsn : Nat)
    (latestVersions : List (PageId × WalVersion)) : List (PageId × WalVersion) :=
  let spilled := match handle.indexSidecar with
    | none => []
    | some sidecar => sidecar.populateLatestVersionsAtOrBefore safeLsn
  (latestVersions ++ spilled).insertionSort (·.1 ≤ ·.1)

variable (storage : Storage)

/-- Copies one version back into the main file. -/
def copyback (pageId : PageId) (version : WalVersion) : DbResult Storage := do
  let page ← materializeVersionLocked config handle storage pageId version
  if page.length ≠ config.pageSize then
    .error (.corruption (s!"checkpoint page {pageId} has {page.length} bytes; "
      ++ s!"expected {config.pageSize}"))
  else return storage.writePage pageId page

def truncateToHeader : WalHandle × Storage :=
  let header : WalHeader := { pageSize := config.pageSize, walEndOffset := 0 }
  ({ handle with walEndLsn := 0, allocatedLen := walHeaderSize },
    { storage with wal := (storage.wal.writeAllAt 0 header.encode).setLen walHeaderSize })

def clearIndex : WalHandle := { handle with index := .empty }

def clearSidecar : WalHandle :=
  { handle with indexSidecar := handle.indexSidecar.map fun _ => .empty }

-- Whole calls

/-- Copies the versions back in order; what was written before an error stays written. -/
def copybackLatestVersions (handle : WalHandle)
    : Storage → List (PageId × WalVersion) → Storage × DbResult Unit
  | storage, [] => (storage, .ok ())
  | storage, (pageId, version) :: rest =>
    match copyback config handle storage pageId version with
    | .error error => (storage, .error error)
    | .ok written => copybackLatestVersions handle written rest

/-- What the pager will find to maintain: the pages that it writes, its header among them, and
the new page count if it cuts free pages off.
-/
structure PagerMaintenance where
  rewritten : List (PageId × Page)
  pageCount : Option PageId

/-- The handle after the WAL file was cut down to its header. -/
def restarted : WalHandle :=
  { handle.clearIndex.clearSidecar with
    checkpointEpoch := handle.checkpointEpoch + 1
    checkpointPending := false }

/-- A checkpoint from taking the write lock to its end, with nothing in between. -/
def checkpoint (maintenance : PagerMaintenance)
    : WalHandle × Storage × DbResult Unit :=
  if handle.checkpointBlocked then ({ handle with checkpointPending := false }, storage, .ok ())
  else
    let safeLsn := handle.latestSnapshot
    let latestVersions := handle.collectSidecar safeLsn (handle.collectIndex safeLsn)
    match copybackLatestVersions config handle storage latestVersions with
    | (copied, .error error) => ({ handle with checkpointPending := false }, copied, .error error)
    | (copied, .ok ()) =>
      let maintained := { copied with
        main := maintainPager config maintenance.rewritten maintenance.pageCount copied.main }
      let (truncated, restartedStorage) := handle.truncateToHeader config maintained
      (truncated.restarted, restartedStorage, .ok ())

end WalHandle

end DecentDb.Wal
