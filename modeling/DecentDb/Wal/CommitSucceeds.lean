import DecentDb.Wal.LogHeader

/-! A commit of writable pages succeeds if every version is in memory.
-/

namespace DecentDb.Wal

open List

/-- Every version is in memory, and there is no sidecar. -/
structure WalHandle.AllResident (handle : WalHandle) : Prop where
  noSidecar : handle.indexSidecar = none
  resident : ∀ pageId, ∀ version ∈ handle.index.versions pageId,
    version.payload.isResident

/-- A page that a frame can hold. -/
structure WritablePage (config : WalConfig) (page : PageId × Page) : Prop where
  nonzero : page.1 ≠ 0
  length : page.2.length = config.pageSize

variable {config : WalConfig} {handle : WalHandle} {page : PageId × Page}

section Encoding

section

variable (writable : WritablePage config page)
include writable

/-- A writable page has a full frame. -/
theorem WritablePage.appendPageFrame : appendPageFrame config page.1 page.2
      = .ok { frameType := .page, pageId := page.1, payload := page.2 } := by
  rw [Wal.appendPageFrame, if_neg writable.nonzero, if_neg (by simpa using writable.length)]

/-- A writable page has a frame, whatever its base. -/
theorem WritablePage.appendBest (base : WalBasePage)
    : ∃ frame, appendBestPageFrameWithBase config page.1 page.2 base = .ok frame := by
  unfold appendBestPageFrameWithBase
  rw [writable.appendPageFrame]
  split
  · exact ⟨_, rfl⟩
  split
  · rw [appendPageDeltaFrame, if_neg writable.nonzero]
    exact ⟨_, rfl⟩
  · exact ⟨_, rfl⟩

/-- A writable page can be prepared. -/
theorem WritablePage.preparePage (offset : Nat)
    (retainHistoryHint : Bool) (batch : ChunkBatch) (base : WalBasePage)
    : ∃ next, preparePage config offset retainHistoryHint batch page base = .ok next := by
  obtain ⟨frame, best⟩ := writable.appendBest base
  unfold Wal.preparePage
  rw [writable.appendPageFrame, best]
  split
  · exact ⟨_, rfl⟩
  · exact ⟨_, rfl⟩

end

/-- By induction along the chunk. -/
theorem prepareChunk_ok {found : List ((PageId × Page) × WalBasePage)}
    (writable : ∀ pair ∈ found, WritablePage config pair.1) (offset : Nat)
    (retainHistoryHint : Bool) (batch : ChunkBatch)
    : ∃ next, prepareChunk config offset retainHistoryHint batch found = .ok next := by
  induction found generalizing batch with
  | nil => exact ⟨batch, rfl⟩
  | cons pair rest ih =>
    obtain ⟨first, others⟩ := forall_mem_cons.mp writable
    obtain ⟨middle, made⟩ := first.preparePage offset retainHistoryHint batch pair.2
    obtain ⟨next, later⟩ := ih others middle
    refine ⟨next, ?_⟩
    rw [prepareChunk, made]
    exact later

end Encoding

namespace WalHandle.AllResident

variable (memory : handle.AllResident)
include memory

/-- Without a sidecar nothing is promoted. -/
theorem consultSidecar (snapshotLsn : Nat) (pageId : PageId)
    : handle.consultSidecar config snapshotLsn pageId = (handle, .ok ()) := by
  unfold WalHandle.consultSidecar promoteSpilledLatestLocked
  rw [memory.noSidecar]
  split
  · rfl
  · rw [Option.map_none, ← memory.noSidecar]

variable (storage : Storage) (snapshotLsn) {progress : CommitProgress}

/-- The base of a page can be read while all versions are resident. -/
theorem basePage (pageId : PageId)
    : ∃ base, handle.basePage config storage snapshotLsn pageId = .ok base := by
  unfold WalHandle.basePage
  cases newest : handle.index.latestVisible pageId snapshotLsn with
  | none =>
    dsimp only
    split
    · exact ⟨_, rfl⟩
    · exact ⟨_, rfl⟩
  | some version =>
    have member := mem_reverse.mp (mem_of_find?_eq_some newest)
    have resident := memory.resident pageId version member
    obtain ⟨lsn, payload⟩ := version
    cases payload with
    | resident data walOffset frameLen encoding => exact ⟨_, rfl⟩
    | onDisk walOffset frameLen encoding => cases resident

/-- Looking up a base succeeds and moves nothing. -/
theorem lookupBasePage (pageId : PageId)
    : ∃ base, handle.lookupBasePage config storage snapshotLsn pageId = (handle, .ok base) := by
  obtain ⟨base, found⟩ := memory.basePage storage snapshotLsn pageId
  refine ⟨base, ?_⟩
  rw [WalHandle.lookupBasePage, memory.consultSidecar]
  dsimp only
  rw [found]

/-- By induction along the pages. -/
theorem lookupBasePages (pages : List (PageId × Page))
    : ∃ bases, WalHandle.lookupBasePages config storage snapshotLsn handle pages
      = (handle, .ok bases) := by
  induction pages with
  | nil => exact ⟨[], rfl⟩
  | cons page rest ih =>
    obtain ⟨base, found⟩ := memory.lookupBasePage storage snapshotLsn page.1
    obtain ⟨bases, others⟩ := ih
    refine ⟨base :: bases, ?_⟩
    rw [WalHandle.lookupBasePages, found]
    dsimp only
    rw [others]

/-- The next chunk of a commit can be prepared. -/
theorem prepareNext (writable : ∀ page ∈ progress.inputPages, WritablePage config page)
    : ∃ batch, handle.prepareNext config storage progress = (handle, .ok batch) := by
  obtain ⟨bases, looked⟩ :
    ∃ bases, WalHandle.lookupBasePages config storage progress.snapshotLsn handle
      (progress.inputPages.take (walPrepareBatchPageLimit config.pageSize))
      = (handle, .ok bases) := memory.lookupBasePages storage _ _
  have pairs : ∀ pair ∈ (progress.inputPages.take
    (walPrepareBatchPageLimit config.pageSize)).zip bases, WritablePage config pair.1 :=
    fun pair member => writable pair.1 (mem_of_mem_take (of_mem_zip member).1)
  unfold WalHandle.prepareNext
  dsimp only
  rw [looked]
  dsimp only
  obtain ⟨batch, prepared⟩ := prepareChunk_ok pairs progress.offset
    (progress.retainHistoryHint || handle.historyNeeded)
    {
      pageBatch := []
      seenPageIds := progress.seenPageIds
      preparedPages := progress.preparedPages
    }
  rw [prepared]
  exact ⟨batch, rfl⟩

/-- Writing a chunk leaves the versions in memory. -/
theorem writeBatch (progress : CommitProgress) (pageBatch : List UInt8) (last : Bool)
    : (handle.writeBatch storage progress pageBatch last).1.AllResident := by
  have index : (handle.writeBatch storage progress pageBatch last).1.index = handle.index :=
    (ensureCapacity_index _).1
  exact ⟨(ensureCapacity_index _).2.trans memory.noSidecar, by rw [index]; exact memory.resident⟩

/-- A chunk of writable pages is written. -/
theorem writeChunk (writable : ∀ page ∈ progress.inputPages, WritablePage config page)
    : ∃ after filed next, handle.writeChunk config storage progress = (after, filed, .ok next)
      ∧ after.AllResident ∧ ∀ page ∈ next.inputPages, WritablePage config page := by
  unfold WalHandle.writeChunk
  split
  · exact ⟨_, _, _, rfl, memory.writeBatch storage progress [] true, writable⟩
  obtain ⟨batch, prepared⟩ := memory.prepareNext storage writable
  rw [prepared]
  refine ⟨_, _, _, rfl, memory.writeBatch storage _ _ _, fun page member => ?_⟩
  exact writable page (mem_of_mem_drop member)

/-- By induction on the turns. -/
theorem prepareAndWrite (turns : Nat) (storage : Storage)
    (writable : ∀ page ∈ progress.inputPages, WritablePage config page)
    : ∃ after filed last, handle.prepareAndWrite config turns storage progress
      = (after, filed, .ok last) := by
  induction turns generalizing handle storage progress with
  | zero => exact ⟨_, _, _, rfl⟩
  | succ turns ih =>
    obtain ⟨after, filed, next, wrote, resident, others⟩ := memory.writeChunk storage writable
    unfold WalHandle.prepareAndWrite
    rw [wrote]
    dsimp only
    split
    · exact ⟨_, _, _, rfl⟩
    · exact ih resident filed others

/-- A commit of writable pages succeeds. -/
theorem commitPages {pages : List (PageId × Page)}
    (writable : ∀ page ∈ pages, WritablePage config page)
    : ∃ after filed lsn, handle.commitPages config storage pages = (after, filed, .ok lsn) := by
  have input : ∀ page ∈ (handle.beginCommit pages).inputPages, WritablePage config page := writable
  obtain ⟨after, filed, last, wrote⟩ := memory.prepareAndWrite (pages.length + 1) storage input
  unfold WalHandle.commitPages
  rw [wrote]
  exact ⟨_, _, _, rfl⟩

end WalHandle.AllResident

end DecentDb.Wal
