import DecentDb.Wal.Handle

/-! WAL append: preparing a commit in bounded chunks, publishing it in the index, and the
demotion that follows it.
-/

namespace DecentDb.Wal

open List

open LittleEndian (leBytes)

def walPreallocChunkBytes : Nat := 16 * 2 ^ 20
def walPrepareBatchBytes : Nat := 4 * 2 ^ 20

def walPrepareBatchPageLimit (pageSize : Nat) : Nat :=
  max (walPrepareBatchBytes / (frameHeaderSize + pageSize + frameTrailerSize)) 1

/-- Where the writer found the page that a delta is encoded against. -/
inductive WalBaseSource where
  | mainDatabase
  | residentWal
  | onDiskWal
  deriving DecidableEq, Repr

abbrev WalBasePage := Option (Page × WalBaseSource)

inductive PreparedWalPayload where
  | onDiskFullPage
  | resident (data : Page) (encoding : FrameEncoding)
  deriving DecidableEq, Repr

structure PreparedWalPage where
  pageId : PageId
  encodedLen : Nat
  frameOffset : Nat
  payload : PreparedWalPayload
  deriving DecidableEq, Repr

/-- The version that a prepared page is published as, and whether it is resident. -/
def preparedPageVersion (prepared : PreparedWalPage) (versionLsn : Nat) : WalVersion × Bool :=
  match prepared.payload with
  | .onDiskFullPage =>
    ({ lsn := versionLsn, payload := .onDisk prepared.frameOffset prepared.encodedLen .page },
      false)
  | .resident data encoding =>
    ({ lsn := versionLsn
       payload := .resident data prepared.frameOffset prepared.encodedLen encoding },
      true)

def commitFrame : WalFrame := { frameType := .commit, pageId := 0, payload := [] }

section Frames

variable (config : WalConfig) (pageId : PageId)

def appendPageFrame (payload : Page) : DbResult WalFrame :=
  if pageId = 0 then .error (.corruption "page WAL frames must have a non-zero page id")
  else if payload.length ≠ config.pageSize then
    .error (.internal (s!"WAL frame payload length {payload.length} does not match expected "
      ++ s!"payload length {config.pageSize}"))
  else .ok { frameType := .page, pageId, payload }

def appendPageDeltaFrame (payload : List UInt8) : DbResult WalFrame :=
  if pageId = 0 then .error (.corruption "page WAL frames must have a non-zero page id")
  else .ok { frameType := .pageDelta, pageId, payload }

def canEncodeAgainstResidentWalBase : Bool :=
  0 < config.residentVersionsPerPage && config.walIndexHotSetPages = 0

/-- A resident WAL version is a base only if nothing moves versions out of the index. -/
def usableBase : WalBasePage → Option Page
  | some (base, .mainDatabase) => some base
  | some (base, .residentWal) => if canEncodeAgainstResidentWalBase config then some base else none
  | some (_, .onDiskWal) => none
  | none => none

/-- The header page is also written directly, so its frames stay self-contained. -/
def appendBestPageFrameWithBase (payload : Page) (basePage : WalBasePage)
    : DbResult (WalFrame × FrameEncoding) :=
  if pageId = headerPageId then (appendPageFrame config pageId payload).map (·, .page)
  else
    match (usableBase config basePage).bind (encodePageDelta · payload) with
    | some delta => (appendPageDeltaFrame pageId delta).map (·, .pageDelta)
    | none => (appendPageFrame config pageId payload).map (·, .page)

/-- What one preparation chunk has produced so far. -/
structure ChunkBatch where
  pageBatch : List UInt8
  seenPageIds : List PageId
  preparedPages : List PreparedWalPage

/-- Encodes one page of a chunk. Recovery replays deltas over the state before the commit,
so a page that occurs again in a commit gets a full frame.
-/
def preparePage (offset : Nat) (retainHistoryHint : Bool) (batch : ChunkBatch)
    (page : PageId × Page) (base : WalBasePage) : DbResult ChunkBatch := do
  let (frame, encoding) ←
    if page.1 ∈ batch.seenPageIds then (appendPageFrame config page.1 page.2).map (·, .page)
    else appendBestPageFrameWithBase config page.1 page.2 base
  let payload :=
    if encoding = .page ∧ ¬retainHistoryHint then .onDiskFullPage
    else .resident page.2 encoding
  return {
    pageBatch := batch.pageBatch ++ frame.bytes
    seenPageIds := page.1 :: batch.seenPageIds
    preparedPages := batch.preparedPages ++ [{
      pageId := page.1
      encodedLen := frame.bytes.length
      frameOffset := offset + batch.pageBatch.length
      payload
    }]
  }

def prepareChunk (offset : Nat) (retainHistoryHint : Bool)
    : ChunkBatch → List ((PageId × Page) × WalBasePage) → DbResult ChunkBatch
  | batch, [] => .ok batch
  | batch, (page, base) :: rest => do
    let next ← preparePage config offset retainHistoryHint batch page base
    prepareChunk offset retainHistoryHint next rest

end Frames

-- Base lookup

namespace WalHandle

variable (config : WalConfig)

section

variable (handle : WalHandle)

/-- Takes the page out of the sidecar: promoted if no indexed version is visible, else
cleared as a duplicate.
-/
def consultSidecar (snapshotLsn : Nat) (pageId : PageId) : WalHandle × DbResult Unit :=
  if (handle.index.latestVisible pageId snapshotLsn).isNone then
    promoteSpilledLatestLocked config handle pageId snapshotLsn
  else ({ handle with indexSidecar := handle.indexSidecar.map (·.clearLatest pageId) }, .ok ())

variable (storage : Storage)

/-- The newest version of the page, else its main-file image. The source asks the pager of the
committing handle, whose cache is taken to have the page as the main file has it.
-/
def basePage (snapshotLsn : Nat) (pageId : PageId) : DbResult WalBasePage :=
  match handle.index.latestVisible pageId snapshotLsn with
  | some version => do
    let page ← materializeVersionLocked config handle storage pageId version
    return some (page, if version.payload.isResident then .residentWal else .onDiskWal)
  | none =>
    match storage.readPageFromDisk pageId with
    | .ok page => .ok (some (page, .mainDatabase))
    | .error _ => .ok none

/-- One turn of `lookup_base_pages_batch`. -/
def lookupBasePage (snapshotLsn : Nat) (pageId : PageId) : WalHandle × DbResult WalBasePage :=
  match consultSidecar config handle snapshotLsn pageId with
  | (consulted, .error error) => (consulted, .error error)
  | (consulted, .ok ()) => (consulted, basePage config consulted storage snapshotLsn pageId)

def lookupBasePages (storage : Storage) (snapshotLsn : Nat)
    : WalHandle → List (PageId × Page) → WalHandle × DbResult (List WalBasePage)
  | handle, [] => (handle, .ok [])
  | handle, page :: rest =>
    match lookupBasePage config handle storage snapshotLsn page.1 with
    | (consulted, .error error) => (consulted, .error error)
    | (consulted, .ok base) =>
      match lookupBasePages storage snapshotLsn consulted rest with
      | (last, .error error) => (last, .error error)
      | (last, .ok bases) => (last, .ok (base :: bases))

-- Writing

/-- The required length, rounded up to whole preallocation chunks. -/
def preallocatedLen (requiredLen : Nat) : Nat :=
  (requiredLen + (walPreallocChunkBytes - 1)) / walPreallocChunkBytes * walPreallocChunkBytes

def ensureCapacity (requiredLen : Nat) : WalHandle × Storage :=
  if requiredLen ≤ handle.allocatedLen then (handle, storage)
  else
    ({ handle with allocatedLen := preallocatedLen requiredLen },
      { storage with wal := storage.wal.setLen (preallocatedLen requiredLen) })

/-- A commit between taking the write lock and publishing. -/
structure CommitProgress where
  commitStartLsn : Nat
  snapshotLsn : Nat
  offset : Nat
  inputPages : List (PageId × Page)
  seenPageIds : List PageId
  retainHistoryHint : Bool
  preparedPages : List PreparedWalPage
  logicalEndWritten : Bool
  deriving DecidableEq

variable (pages : List (PageId × Page))

def beginCommit : CommitProgress :=
  let latest := handle.latestSnapshot
  let offset := if latest = 0 then walHeaderSize else latest
  {
    commitStartLsn := offset
    snapshotLsn := latest
    offset
    inputPages := pages
    seenPageIds := []
    retainHistoryHint := false
    preparedPages := []
    logicalEndWritten := false
  }

/-- The conflict check of `commit_pages_if_latest`. -/
def checkLatest (expectedLatestLsn expectedCheckpointEpoch : Nat) : DbResult Unit :=
  let latest := handle.latestSnapshot
  if latest ≠ expectedLatestLsn ∧ handle.checkpointEpoch = expectedCheckpointEpoch then
    .error (.transaction
      s!"transaction conflict: WAL advanced from {expectedLatestLsn} to {latest}")
  else .ok ()

variable (progress : CommitProgress)

/-- Writes the batch, followed by the commit marker and the header's new end if this is the
last one.
-/
def writeBatch (pageBatch : List UInt8) (last : Bool) : WalHandle × Storage × CommitProgress :=
  let bytes := if last then pageBatch ++ commitFrame.bytes else pageBatch
  let endLsn := progress.offset + bytes.length
  let (handle, storage) := ensureCapacity handle storage endLsn
  let written := storage.wal.writeAllAt progress.offset bytes
  (handle,
    { storage with wal := if last then written.writeAllAt 16 (leBytes 8 endLsn) else written },
    { progress with offset := endLsn, logicalEndWritten := last })

/-- Looks up the bases of a chunk and encodes its frames. -/
def prepareNext : WalHandle × DbResult ChunkBatch :=
  let pageChunk := progress.inputPages.take (walPrepareBatchPageLimit config.pageSize)
  match lookupBasePages config storage progress.snapshotLsn handle pageChunk with
  | (consulted, .error error) => (consulted, .error error)
  | (consulted, .ok bases) =>
    (consulted, prepareChunk config progress.offset
      (progress.retainHistoryHint || handle.historyNeeded)
      {
        pageBatch := []
        seenPageIds := progress.seenPageIds
        preparedPages := progress.preparedPages
      }
      (pageChunk.zip bases))

/-- One turn of the preparation loop; for an empty commit, the marker that follows it. -/
def writeChunk : WalHandle × Storage × DbResult CommitProgress :=
  if progress.inputPages.isEmpty then
    let (handle, storage, progress) := writeBatch handle storage progress [] true
    (handle, storage, .ok progress)
  else
    match prepareNext config handle storage progress with
    | (consulted, .error error) => (consulted, storage, .error error)
    | (consulted, .ok batch) =>
      let inputPages := progress.inputPages.drop (walPrepareBatchPageLimit config.pageSize)
      let (handle, storage, progress) := writeBatch consulted storage
        { progress with
          inputPages
          retainHistoryHint := progress.retainHistoryHint || handle.historyNeeded
          seenPageIds := batch.seenPageIds
          preparedPages := batch.preparedPages }
        batch.pageBatch inputPages.isEmpty
      (handle, storage, .ok progress)

-- Publication

/-- Adds the version of one prepared page. Without history there is nothing to demote in it
if it is on disk or may stay resident.
-/
def publishPage (retainHistory : Bool) (index : WalIndex) (prepared : PreparedWalPage)
    (versionLsn : Nat) : WalIndex :=
  let (version, isResident) := preparedPageVersion prepared versionLsn
  let added := index.addVersion prepared.pageId version retainHistory
  if ¬retainHistory ∧ (¬isResident ∨ 0 < config.residentVersionsPerPage) then
    added.unmarkDirtySinceDemote prepared.pageId
  else added

/-- Adds the versions of the prepared pages; each one's LSN is where its frame ends. -/
def publishPages (retainHistory : Bool) : Nat → WalIndex → List PreparedWalPage → WalIndex
  | _, index, [] => index
  | startLsn, index, prepared :: rest =>
    let versionLsn := startLsn + prepared.encodedLen
    publishPages retainHistory versionLsn
      (publishPage config retainHistory index prepared versionLsn) rest

/-- The publication of a written commit, under the index lock. -/
def publishCommit : WalHandle :=
  let retainHistory := progress.retainHistoryHint || handle.historyNeeded
  { handle with
    index := publishPages config retainHistory progress.commitStartLsn handle.index
      progress.preparedPages
    walEndLsn := progress.offset }

/-- Whether the commit goes on to `demote_cold_versions` once it is published. -/
def shouldDemoteColdVersions : Bool :=
  config.walIndexHotSetPages ≠ 0 || handle.index.hasDirtySinceDemote

-- Demotion

/-- The check of `demote_cold_versions` and `demote_resident_versions_if_reader_free`, made
without the index lock.
-/
def readerFree : Bool :=
  handle.readerRegistry.minSnapshotLsn.isNone && handle.retainedSnapshotLsn.isNone

/-- The index update of `demote_cold_versions` after its check found no reader. -/
def demoteColdVersions : WalHandle :=
  let demoted := handle.index.demoteCold none config.residentVersionsPerPage
  match handle.indexSidecar with
  | none => { handle with index := demoted }
  | some sidecar =>
    let (index, spilled, _) := spillExcessHotPagesLocked config demoted sidecar
    { handle with index, indexSidecar := some spilled }

/-- The index update of `demote_resident_versions_if_reader_free`. -/
def demoteResidentVersions (targetBytes : Nat) : WalHandle :=
  { handle with index := handle.index.demoteHighPageIdsResidentBytes targetBytes }

-- Whole calls

/-- The preparation loop run to its end; every turn but the last takes at least one page. -/
def prepareAndWrite : Nat → WalHandle → Storage → CommitProgress
    → WalHandle × Storage × DbResult CommitProgress
  | 0, handle, storage, progress => (handle, storage, .ok progress)
  | turns + 1, handle, storage, progress =>
    match writeChunk config handle storage progress with
    | (handle, storage, .error error) => (handle, storage, .error error)
    | (handle, storage, .ok progress) =>
      if progress.logicalEndWritten then (handle, storage, .ok progress)
      else prepareAndWrite turns handle storage progress

/-- A commit from taking the write lock to its publication, with nothing in between. -/
def commitPages : WalHandle × Storage × DbResult Nat :=
  match prepareAndWrite config (pages.length + 1) handle storage (handle.beginCommit pages) with
  | (handle, storage, .error error) => (handle, storage, .error error)
  | (handle, storage, .ok progress) =>
    (publishCommit config handle progress, storage, .ok progress.offset)

def commitPagesIfLatest
    (expectedLatestLsn expectedCheckpointEpoch : Nat) : WalHandle × Storage × DbResult Nat :=
  match handle.checkLatest expectedLatestLsn expectedCheckpointEpoch with
  | .error error => (handle, storage, .error error)
  | .ok () => commitPages config handle storage pages

end

-- What the base lookups of a batch leave is what they consulted

section Lookups

variable (handle : WalHandle) (storage : Storage) {snapshotLsn : Nat}

/-- Only the sidecar's part of a look-up changes the handle. -/
theorem lookupBasePage_fst (snapshotLsn : Nat) (pageId : PageId)
    : (handle.lookupBasePage config storage snapshotLsn pageId).1
      = (handle.consultSidecar config snapshotLsn pageId).1 := by
  unfold lookupBasePage
  split
  next outcome => rw [outcome]
  next outcome => rw [outcome]

variable {config handle storage} in
/-- The base is read after the sidecar was consulted. -/
theorem basePage_of_lookupBasePage {pageId : PageId} {base : WalBasePage}
    (found : (handle.lookupBasePage config storage snapshotLsn pageId).2 = .ok base)
    : basePage config (handle.consultSidecar config snapshotLsn pageId).1 storage snapshotLsn
      pageId = .ok base := by
  unfold lookupBasePage at found
  split at found
  next => cases found
  next outcome => rwa [outcome]

variable {config handle storage} in
/-- What the lookups of a chunk keep and find, by induction along its pages. -/
theorem lookupBasePages_rule {motive : WalHandle → Prop}
    (sound : PageId × Page → WalBasePage → Prop) {chunk : List (PageId × Page)}
    (kept : ∀ handle, motive handle → ∀ page ∈ chunk,
      motive (lookupBasePage config handle storage snapshotLsn page.1).1)
    (found : ∀ handle, motive handle → ∀ page ∈ chunk, ∀ base,
      (lookupBasePage config handle storage snapshotLsn page.1).2 = .ok base → sound page base)
    (holds : motive handle) {after : WalHandle} {result : DbResult (List WalBasePage)}
    (looked : lookupBasePages config storage snapshotLsn handle chunk = (after, result))
    : motive after ∧ ∀ bases, result = .ok bases → bases.length = chunk.length
      ∧ ∀ pair ∈ chunk.zip bases, sound pair.1 pair.2 := by
  induction chunk generalizing handle after result with
  | nil =>
    cases looked
    exact ⟨holds, fun bases same => by cases same; simp⟩
  | cons page rest ih =>
    have first := kept handle holds page mem_cons_self
    have read := found handle holds page mem_cons_self
    replace ih := fun handle => @ih handle
      (fun handle holds => (forall_mem_cons.mp (kept handle holds)).2)
      (fun handle holds => (forall_mem_cons.mp (found handle holds)).2)
    unfold lookupBasePages at looked
    split at looked
    next consulted error outcome =>
      cases looked
      rw [outcome] at first
      exact ⟨first, by simp⟩
    next consulted base outcome =>
      rw [outcome] at first read
      split at looked <;> cases looked
      next last error remaining => exact ⟨(ih consulted first remaining).1, by simp⟩
      next last bases remaining =>
        obtain ⟨lastHolds, found⟩ := ih consulted first remaining
        obtain ⟨length, sounds⟩ := found bases rfl
        refine ⟨lastHolds, fun all same => ?_⟩
        cases same
        refine ⟨by simp [length], ?_⟩
        rw [zip_cons_cons]
        exact forall_mem_cons.mpr ⟨read base rfl, sounds⟩

/-- Only the look-ups of a chunk change the handle. -/
theorem prepareNext_fst (progress : CommitProgress) : (handle.prepareNext config storage progress).1
      = (lookupBasePages config storage progress.snapshotLsn handle
        (progress.inputPages.take (walPrepareBatchPageLimit config.pageSize))).1 := by
  unfold prepareNext
  dsimp only
  split
  next outcome => rw [outcome]
  next outcome => rw [outcome]

variable {config handle storage} in
/-- A turn that succeeds wrote a batch at the offset it started at. -/
theorem writeChunk_eq_ok {after : WalHandle} {filed : Storage} {progress next : CommitProgress}
    (wrote : handle.writeChunk config storage progress = (after, filed, .ok next))
    : ∃ consulted staged pageBatch last, staged.offset = progress.offset
      ∧ writeBatch consulted storage staged pageBatch last = (after, filed, next) := by
  unfold writeChunk at wrote
  split at wrote
  · cases wrote
    exact ⟨handle, progress, [], true, rfl, rfl⟩
  split at wrote <;> cases wrote
  next consulted batch _ => exact ⟨consulted, _, batch.pageBatch, _, by rfl, rfl⟩

end Lookups

-- What a commit leaves alone before it is published

variable (handle : WalHandle)
include handle

/-- Consulting the sidecar changes only the cache. -/
theorem consultSidecar_cacheOnly (snapshotLsn : Nat) (pageId : PageId)
    : CacheOnly handle (handle.consultSidecar config snapshotLsn pageId).1 := by
  unfold consultSidecar
  split
  · exact handle.promoteSpilledLatestLocked_cacheOnly config pageId snapshotLsn
  · exact handle.cacheOnly_with _ _

variable (storage) (progress)

/-- Preparing a chunk changes only the cache. -/
theorem prepareNext_cacheOnly
    : CacheOnly handle (handle.prepareNext config storage progress).1 := by
  rw [prepareNext_fst]
  refine (lookupBasePages_rule (fun _ _ => True) ?_ (by simp) (.refl handle) rfl).1
  intro consulted cache page _
  rw [lookupBasePage_fst]
  exact cache.trans (consulted.consultSidecar_cacheOnly config progress.snapshotLsn page.1)

/-- Growing the log keeps the control data. -/
theorem ensureCapacity_sameControl (requiredLen : Nat)
    : SameControl handle (handle.ensureCapacity storage requiredLen).1 := by
  unfold ensureCapacity
  by_cases fits : requiredLen ≤ handle.allocatedLen
  · simpa only [fits, if_true] using SameControl.refl handle
  · simpa only [fits, if_false] using ⟨rfl, rfl, rfl, rfl, rfl⟩

/-- Writing a chunk keeps the control data. -/
theorem writeBatch_sameControl (pageBatch : List UInt8) (last : Bool)
    : SameControl handle (handle.writeBatch storage progress pageBatch last).1 :=
  handle.ensureCapacity_sameControl storage _

/-- Preparing and writing a chunk keeps the control data. -/
theorem writeChunk_sameControl
    : SameControl handle (handle.writeChunk config storage progress).1 := by
  have prepares := handle.prepareNext_cacheOnly config storage progress
  unfold writeChunk
  split
  · exact handle.writeBatch_sameControl storage progress [] true
  split
  next outcome => exact (by rwa [outcome] at prepares : CacheOnly handle _).toSameControl
  next consulted batch outcome =>
    rw [outcome] at prepares
    exact prepares.toSameControl.trans (consulted.writeBatch_sameControl _ _ _ _)

/-- A demotion changes only the cache. -/
theorem demoteColdVersions_cacheOnly : CacheOnly handle (handle.demoteColdVersions config) := by
  unfold demoteColdVersions
  split <;> exact handle.cacheOnly_with _ _

end WalHandle

end DecentDb.Wal
