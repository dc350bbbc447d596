import DecentDb.Wal.Format

/-! The in-memory WAL page-version hot set. -/

namespace DecentDb.Wal

open Std.ExtTreeMap

/-- What backs one version: its page bytes, or only where its frame is in the WAL file. -/
inductive WalVersionPayload where
  | resident (data : Page) (walOffset frameLen : Nat) (encoding : FrameEncoding)
  | onDisk (walOffset frameLen : Nat) (encoding : FrameEncoding)
  deriving DecidableEq, Repr

namespace WalVersionPayload

def walMetadata : WalVersionPayload → Nat × Nat × FrameEncoding
  | .resident _ walOffset frameLen encoding => (walOffset, frameLen, encoding)
  | .onDisk walOffset frameLen encoding => (walOffset, frameLen, encoding)

def isResident : WalVersionPayload → Bool
  | .resident .. => true
  | .onDisk .. => false

/-- Forgets the page bytes and keeps where the frame is. -/
def demoted : WalVersionPayload → WalVersionPayload
  | .resident _ walOffset frameLen encoding => .onDisk walOffset frameLen encoding
  | .onDisk walOffset frameLen encoding => .onDisk walOffset frameLen encoding

/-- A demoted payload still knows its frame. -/
@[simp]
theorem walMetadata_demoted (payload : WalVersionPayload)
    : payload.demoted.walMetadata = payload.walMetadata := by
  cases payload <;> rfl

end WalVersionPayload

structure WalVersion where
  lsn : Nat
  payload : WalVersionPayload
  deriving DecidableEq, Repr

def WalVersion.demoted (version : WalVersion) : WalVersion :=
  { version with payload := version.payload.demoted }

/-- `dirty_since_demote_set` mirrors the list, so membership in the list stands for it. -/
structure WalIndex where
  pages : Std.ExtTreeMap PageId (List WalVersion)
  accessOrder : List (PageId × Nat)
  pageTouchEpochs : Std.ExtTreeMap PageId Nat
  dirtySinceDemote : List PageId
  nextTouchEpoch : Nat

namespace WalIndex

def empty : WalIndex :=
  {
    pages := ∅
    accessOrder := []
    pageTouchEpochs := ∅
    dirtySinceDemote := []
    nextTouchEpoch := 0
  }

variable (index : WalIndex) (pageId : PageId)

/-- The versions of a page, oldest first. -/
def versions : List WalVersion :=
  index.pages[pageId]?.getD []

def containsPage : Bool := index.pages.contains pageId

def touch : WalIndex :=
  let epoch := index.nextTouchEpoch + 1
  { index with
    nextTouchEpoch := epoch
    pageTouchEpochs := index.pageTouchEpochs.insert pageId epoch
    accessOrder := index.accessOrder ++ [(pageId, epoch)] }

def markDirtySinceDemote : WalIndex :=
  if pageId ∈ index.dirtySinceDemote then index
  else { index with dirtySinceDemote := index.dirtySinceDemote ++ [pageId] }

def unmarkDirtySinceDemote : WalIndex :=
  { index with dirtySinceDemote := index.dirtySinceDemote.filter (· ≠ pageId) }

def hasDirtySinceDemote : Bool := !index.dirtySinceDemote.isEmpty

/-- Replaces the versions of a page, touches it and marks it dirty. -/
def store (versions : List WalVersion) : WalIndex :=
  ({ index with pages := index.pages.insert pageId versions }.touch pageId).markDirtySinceDemote
    pageId

def addVersion (version : WalVersion) (retainHistory : Bool) : WalIndex :=
  index.store pageId
    (if retainHistory then index.versions pageId ++ [version] else [version])

def seedLatest (version : WalVersion) : WalIndex :=
  index.store pageId [version]

/-- The newest version at or below a snapshot. -/
def newestAtOrBefore (versions : List WalVersion) (snapshotLsn : Nat) : Option WalVersion :=
  versions.reverse.find? (·.lsn ≤ snapshotLsn)

def latestVisible (snapshotLsn : Nat) : Option WalVersion :=
  newestAtOrBefore (index.versions pageId) snapshotLsn

def populateLatestVersionsAtOrBefore (safeLsn : Nat) : List (PageId × WalVersion) :=
  index.pages.toList.filterMap fun (pageId, entries) =>
    (newestAtOrBefore entries safeLsn).map (pageId, ·)

-- Demotion

variable (minReaderSnapshot : Option Nat)

/-- A version that a reader may need is kept as it is. -/
def heldByReader (version : WalVersion) : Bool :=
  minReaderSnapshot.any (version.lsn ≤ ·)

variable (retainRecentPerPage : Nat)

/-- The versions of one page after a demotion pass: all but the most recent ones lose
their bytes.
-/
def demoteVersions (versions : List WalVersion) : List WalVersion :=
  let demotableLen := versions.length - retainRecentPerPage
  (versions.take demotableLen).map (fun version =>
    if heldByReader minReaderSnapshot version then version else version.demoted)
    ++ versions.drop demotableLen

def demoteColdPage (index : WalIndex) (pageId : PageId) : WalIndex :=
  match index.pages[pageId]? with
  | none => index
  | some versions =>
    let demotableLen := versions.length - retainRecentPerPage
    let retryAfterReader := (versions.take demotableLen).any fun version =>
      heldByReader minReaderSnapshot version && version.payload.isResident
    let demoted := { index with
      pages := index.pages.insert pageId
        (demoteVersions minReaderSnapshot retainRecentPerPage versions) }
    if retryAfterReader then demoted.markDirtySinceDemote pageId else demoted

def demoteCold (minReaderSnapshot : Option Nat) (retainRecentPerPage : Nat) : WalIndex :=
  index.dirtySinceDemote.foldl (demoteColdPage minReaderSnapshot retainRecentPerPage)
    { index with dirtySinceDemote := [] }

/-- Demotes the full-page versions of one page until enough bytes are freed; a resident
delta may be the only complete image left and stays.
-/
def demoteFullVersions (targetBytes : Nat) : Nat → List WalVersion → List WalVersion × Nat
  | freed, [] => ([], freed)
  | freed, version :: rest =>
    if targetBytes ≤ freed then (version :: rest, freed)
    else
      match version.payload with
      | .resident data _ _ .page =>
        let (later, total) := demoteFullVersions targetBytes (freed + data.length) rest
        (version.demoted :: later, total)
      | _ =>
        let (later, total) := demoteFullVersions targetBytes freed rest
        (version :: later, total)

/-- The loop over the page ids, highest first. -/
def demoteHighPages (targetBytes : Nat) : Nat → List PageId → WalIndex → WalIndex
  | _, [], index => index
  | freed, pageId :: rest, index =>
    match index.pages[pageId]? with
    | none => demoteHighPages targetBytes freed rest index
    | some versions =>
      let (demoted, total) := demoteFullVersions targetBytes freed versions
      demoteHighPages targetBytes total rest
        { index with pages := index.pages.insert pageId demoted }

def demoteHighPageIdsResidentBytes (targetBytes : Nat) : WalIndex :=
  if targetBytes = 0 then index
  else { demoteHighPages targetBytes 0 index.pages.keys.reverse index with dirtySinceDemote := [] }

-- Spilling

/-- The loop of `spill_one_cold_latest` over the access queue. -/
def spillFrom (hotSetPages : Nat) (index : WalIndex)
    : List (PageId × Nat) → WalIndex × Option (PageId × WalVersion)
  | [] => ({ index with accessOrder := [] }, none)
  | (pageId, epoch) :: rest =>
    if index.pages.size ≤ hotSetPages then
      ({ index with accessOrder := (pageId, epoch) :: rest }, none)
    else if index.pageTouchEpochs[pageId]? ≠ some epoch then spillFrom hotSetPages index rest
    else
      match index.pages[pageId]? with
      | some [version] =>
        ({ index with
          accessOrder := rest
          pageTouchEpochs := index.pageTouchEpochs.erase pageId
          pages := index.pages.erase pageId },
          some (pageId, version))
      | _ => spillFrom hotSetPages index rest

def spillOneColdLatest (hotSetPages : Nat) : WalIndex × Option (PageId × WalVersion) :=
  spillFrom hotSetPages index index.accessOrder

-- The versions after each operation

section Versions

variable (index : WalIndex) (pageId other : PageId) {left : WalIndex}

/-- The versions depend on the pages only. -/
theorem versions_eq_of_pages {index : WalIndex} (same : left.pages = index.pages)
    (pageId : PageId) : left.versions pageId = index.versions pageId := by
  rw [versions, versions, same]

variable (versions)

/-- An erased page has no versions; the others keep theirs. -/
theorem versions_of_erase (erased : left.pages = index.pages.erase pageId)
    : left.versions other = if pageId = other then [] else index.versions other := by
  by_cases same : pageId = other
  · simp [WalIndex.versions, erased, same]
  · simp [WalIndex.versions, erased, same, getElem?_erase]

/-- Marking a page leaves the pages alone. -/
@[simp]
theorem pages_markDirtySinceDemote : (index.markDirtySinceDemote pageId).pages = index.pages := by
  unfold markDirtySinceDemote
  split <;> rfl

/-- Marking a page leaves the queue alone. -/
@[simp]
theorem accessOrder_markDirtySinceDemote
    : (index.markDirtySinceDemote pageId).accessOrder = index.accessOrder := by
  unfold markDirtySinceDemote
  split <;> rfl

/-- Marking a page leaves the epochs alone. -/
@[simp]
theorem pageTouchEpochs_markDirtySinceDemote
    : (index.markDirtySinceDemote pageId).pageTouchEpochs = index.pageTouchEpochs := by
  unfold markDirtySinceDemote
  split <;> rfl

/-- Storing versions sets the entry of the page. -/
theorem pages_store : (index.store pageId versions).pages = index.pages.insert pageId versions := by
  rw [store, pages_markDirtySinceDemote]
  rfl

/-- Stored versions are those of the page; the others keep theirs. -/
@[simp]
theorem versions_store : (index.store pageId versions).versions other
      = if pageId = other then versions else index.versions other := by
  rw [WalIndex.versions, pages_store]
  by_cases same : pageId = other
  · simp [same]
  · simp [WalIndex.versions, same, getElem?_insert]

/-- An empty index has no versions. -/
@[simp]
theorem versions_empty : empty.versions pageId = [] := by simp [versions, empty]

end Versions

end WalIndex

end DecentDb.Wal
