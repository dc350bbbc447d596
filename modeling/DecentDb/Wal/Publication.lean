import DecentDb.Wal.CommitWriting

/-! Publishing a commit: its pages become entries of the ledger, and their versions stand
for them in the index.
-/

namespace DecentDb.Wal

open FramesAt List WalHandle

variable {index : WalIndex} {offset start commitLsn newEnd : Nat} {page : PageId × Page}
  {frame : WalFrame} {new entries : List LedgerEntry} {prepared : List PreparedWalPage}
  {record : PageId → Option SidecarRecord} {retainHistory : Bool} {frames : List WalFrame}
  {config : WalConfig} {state : WalState} {pages written : List (PageId × Page)}
  {progress : CommitProgress} {ledger : Ledger}

namespace WalHandle

variable (config : WalConfig)

/-- The last page is published last. -/
theorem publishPages_append (retainHistory : Bool) (startLsn : Nat) (index : WalIndex)
    (prepared : List PreparedWalPage) (next : PreparedWalPage)
    : publishPages config retainHistory startLsn index (prepared ++ [next])
      = publishPage config retainHistory
        (publishPages config retainHistory startLsn index prepared) next
        (startLsn + (prepared.map PreparedWalPage.encodedLen).sum + next.encodedLen) := by
  induction prepared generalizing startLsn index with
  | nil => rfl
  | cons first rest ih =>
    rw [cons_append, publishPages, publishPages, ih, map_cons, sum_cons]
    simp [add_assoc]

/-- A published page gets its version; the others keep theirs. -/
theorem versions_publishPage (retainHistory : Bool) (index : WalIndex)
    (prepared : PreparedWalPage) (versionLsn : Nat) (pageId : PageId)
    : (publishPage config retainHistory index prepared versionLsn).versions pageId
      = if prepared.pageId = pageId then
        if retainHistory then
          index.versions pageId ++ [(preparedPageVersion prepared versionLsn).1]
        else [(preparedPageVersion prepared versionLsn).1]
        else index.versions pageId := by
  have added : (publishPage config retainHistory index prepared versionLsn).versions pageId
      = (index.addVersion prepared.pageId (preparedPageVersion prepared versionLsn).1
        retainHistory).versions pageId := by
    unfold publishPage
    dsimp only
    split <;> rfl
  rw [added, WalIndex.addVersion, WalIndex.versions_store]
  by_cases same : prepared.pageId = pageId
  · subst same
    rfl
  · rw [if_neg same, if_neg same]

/-- A published page is queued. -/
theorem publishPage_wellQueued (queued : index.WellQueued) (retainHistory : Bool)
    (prepared : PreparedWalPage) (versionLsn : Nat)
    : (publishPage config retainHistory index prepared versionLsn).WellQueued := by
  have added := queued.addVersion prepared.pageId (preparedPageVersion prepared versionLsn).1
    retainHistory
  unfold publishPage
  dsimp only
  split
  · exact { added with }
  · exact added

end WalHandle

-- The entries of a commit

namespace Ledger

/-- A prepared page is published under its LSN. -/
@[simp]
theorem lsn_preparedPageVersion (prepared : PreparedWalPage) (versionLsn : Nat)
    : (preparedPageVersion prepared versionLsn).1.lsn = versionLsn := by
  unfold preparedPageVersion
  split <;> rfl

/-- The ledger once the first pages of a commit are published. -/
def addEntries (ledger : Ledger) (new : List LedgerEntry) : Ledger :=
  { ledger with entries := ledger.entries ++ new }

/-- One more entry is added at the end. -/
theorem addEntry_addEntries (new : List LedgerEntry) (entry : LedgerEntry)
    : (ledger.addEntries new).addEntry entry = ledger.addEntries (new ++ [entry]) := by
  simp [addEntries, addEntry]

/-- A prepared page and its frame back the version that it is published as. -/
theorem PreparedBy.backed {prepared : PreparedWalPage}
    (made : ledger.PreparedBy (new.map LedgerEntry.pageId) offset page frame prepared)
    (stored : FrameAt ledger.file offset ledger.config.pageSize frame)
    (afterHeader : walHeaderSize ≤ offset) {entry : LedgerEntry}
    (lsn : entry.lsn = offset + prepared.encodedLen) (pageId : entry.pageId = page.1)
    (image : entry.image = page.2)
    : (ledger.addEntries (new ++ [entry])).Backed entry.pageId
      (preparedPageVersion prepared entry.lsn).1 := by
  have metadata : (preparedPageVersion prepared entry.lsn).1.lsn = entry.lsn
    ∧ (preparedPageVersion prepared entry.lsn).1.walOffset = prepared.frameOffset
    ∧ (preparedPageVersion prepared entry.lsn).1.frameLen = prepared.encodedLen := by
    unfold preparedPageVersion
    split <;> exact ⟨rfl, rfl, rfl⟩
  obtain ⟨versionLsn, walOffset, frameLen⟩ := metadata
  have frameType : frame.frameType
    = (preparedPageVersion prepared entry.lsn).1.encoding.frameType := by
    unfold preparedPageVersion
    rcases made.payload with ⟨onDisk, full⟩ | ⟨encoding, resident, type⟩
    · rw [onDisk]
      exact full
    · rw [resident]
      exact type
  refine ⟨entry, frame, rfl, {
    member := by simp [addEntries]
    lsn := versionLsn.symm
    stored := by
      rw [walOffset, made.frameOffset]
      exact stored
    pageId := by rw [made.framePage, pageId]
    frameType
    frameLen := by rw [frameLen, made.encodedLen]; rfl
    ends := by rw [walOffset, frameLen, versionLsn, lsn, made.frameOffset]
    afterHeader := by rwa [walOffset, made.frameOffset]
    resident := ?_
    full := fun full => by rw [image, made.full (by rw [frameType, full]; rfl)]
    delta := fun delta => ?_ }⟩
  · intro data offset length encoding resident
    unfold preparedPageVersion at resident
    rcases made.payload with ⟨onDisk, _⟩ | ⟨_, carries, _⟩
    · rw [onDisk] at resident
      cases resident
    · rw [carries] at resident
      cases resident
      exact image.symm
  refine (made.delta (by rw [frameType, delta]; rfl)).imp id ?_
  rintro ⟨fresh, unwritten, applies, idempotent⟩
  refine ⟨?_, by rwa [pageId, image], by rwa [image]⟩
  intro other member same
  rw [pageId] at same
  rcases mem_append.mp member with old | added
  · exact absurd same (unwritten other old)
  · rcases mem_append.mp added with earlier | last
    · exact absurd (same ▸ mem_map_of_mem earlier) fresh
    · rw [mem_singleton.mp last]

/-- The prepared pages know the lengths of their frames. -/
theorem PreparedRun.sum_encodedLen (run : ledger.PreparedRun start pages frames prepared)
    : (prepared.map PreparedWalPage.encodedLen).sum = framesLen ledger.config.pageSize frames := by
  induction run with
  | nil => rfl
  | snoc _ last ih => simp [ih, last.encodedLen]

/-- The entries that a commit adds for its first pages, with the index after them. -/
structure Published (ledger : Ledger) (start commitLsn : Nat) (pages : List (PageId × Page))
    (frames : List WalFrame) (index : WalIndex) (record : PageId → Option SidecarRecord)
    (new : List LedgerEntry) : Prop where
  written : new.map (fun entry => (entry.pageId, entry.image)) = pages
  commits : ∀ entry ∈ new, entry.commitLsn = commitLsn
  after : ∀ entry ∈ new, start < entry.lsn
  upTo : ∀ entry ∈ new, entry.lsn ≤ start + framesLen ledger.config.pageSize frames
  ascending : new.Pairwise (·.lsn < ·.lsn)
  images : ∀ entry ∈ new, entry.image.length = ledger.config.pageSize
  slots : ∀ pageId, (ledger.addEntries new).SlotSound pageId
    ⟨index.versions pageId, record pageId⟩
  queued : index.WellQueued

/-- One more page, with its entry. -/
theorem Published.publishPage
    (published : ledger.Published start commitLsn pages frames index record new)
    {next : PreparedWalPage} (position : offset = start + framesLen ledger.config.pageSize frames)
    (last : ledger.PreparedBy (pages.map Prod.fst) offset page frame next)
    (stored : FrameAt ledger.file offset ledger.config.pageSize frame)
    (afterHeader : walHeaderSize ≤ start) (older : ∀ entry ∈ ledger.entries, entry.lsn ≤ start)
    (unspilled : record page.1 = none)
    (retained : retainHistory ∨ ∀ snapshot ∈ ledger.snapshots, offset + next.encodedLen ≤ snapshot)
    : ∃ entry, ledger.Published start commitLsn (pages ++ [page]) (frames ++ [frame])
      (publishPage ledger.config retainHistory index next (offset + next.encodedLen))
      record (new ++ [entry]) := by
  have pageIds : new.map LedgerEntry.pageId = pages.map Prod.fst := by
    rw [← published.written, map_map]
    rfl
  have positive : 0 < next.encodedLen := by
    rw [last.encodedLen]
    exact frame.encodedLen_pos _
  have upTo : ∀ other ∈ new, other.lsn < offset + next.encodedLen := by
    intro other member
    have := published.upTo other member
    omega
  have ends : offset + next.encodedLen
    = start + framesLen ledger.config.pageSize (frames ++ [frame]) := by
    simp only [framesLen_append, framesLen_cons, framesLen_nil, last.encodedLen]
    omega
  let entry : LedgerEntry :=
    { lsn := offset + next.encodedLen, commitLsn, pageId := page.1, image := page.2 }
  have backed : (ledger.addEntries (new ++ [entry])).Backed page.1
    (preparedPageVersion next (offset + next.encodedLen)).1 :=
    PreparedBy.backed (pageIds.symm ▸ last) stored (by omega) (rfl : entry.lsn = _) rfl rfl
  have newer : ∀ other ∈ (ledger.addEntries new).entries, other.lsn < entry.lsn := by
    refine forall_mem_append.mpr ⟨fun other old => ?_, upTo⟩
    exact lt_of_le_of_lt (older other old) (by dsimp only [entry]; omega)
  refine ⟨entry, {
    written := by simp [published.written, entry]
    commits := forall_mem_append.mpr ⟨published.commits, forall_mem_singleton.mpr rfl⟩
    after := forall_mem_append.mpr ⟨published.after, forall_mem_singleton.mpr ?_⟩
    upTo := ?_
    ascending := ?_
    images := forall_mem_append.mpr ⟨published.images, forall_mem_singleton.mpr last.image⟩
    slots := ?_
    queued := publishPage_wellQueued _ published.queued _ _ _ }⟩
  · dsimp only [entry]
    omega
  · rw [← ends]
    exact forall_mem_append.mpr ⟨fun other old => le_of_lt (upTo other old),
      forall_mem_singleton.mpr le_rfl⟩
  · exact pairwise_append.mpr ⟨published.ascending, pairwise_singleton _ _,
    fun other old added member => mem_singleton.mp member ▸ upTo other old⟩
  intro pageId
  rw [versions_publishPage, last.pageId, ← addEntry_addEntries]
  have sound := published.slots pageId
  split
  next same =>
    subst same
    exact sound.addVersion unspilled rfl newer (addEntry_addEntries new entry ▸ backed)
      (lsn_preparedPageVersion next _) (by unfold preparedPageVersion; split; exacts [.inr rfl, .inl rfl]) retained
  next different => exact sound.addOther newer different

/-- Publishing along a prepared run, by induction from its first page on. -/
theorem PreparedRun.publish
    (run : ledger.PreparedRun start pages frames prepared)
    (stored : FramesAt ledger.file ledger.config.pageSize start frames)
    (afterHeader : walHeaderSize ≤ start) (older : ∀ entry ∈ ledger.entries, entry.lsn ≤ start)
    (slots : ∀ pageId, ledger.SlotSound pageId ⟨index.versions pageId, record pageId⟩)
    (queued : index.WellQueued) (unspilled : ∀ page ∈ prepared, record page.pageId = none)
    (retained : retainHistory ∨ ∀ snapshot ∈ ledger.snapshots,
      start + framesLen ledger.config.pageSize frames ≤ snapshot) (commitLsn : Nat)
    : ∃ new, ledger.Published start commitLsn pages frames
      (publishPages ledger.config retainHistory start index prepared) record new := by
  induction run with
  | nil => exact ⟨[], rfl, by simp, by simp, by simp, .nil, by simp, by simpa [addEntries], queued⟩
  | @snoc pages frames prepared page frame next run last ih =>
    rw [append] at stored
    simp only [framesLen_append, framesLen_cons, framesLen_nil] at retained
    obtain ⟨new, published⟩ := ih stored.1
      (fun page member => unspilled page (mem_append_left _ member))
      (retained.imp_right fun seen snapshot used => by have := seen snapshot used; omega)
    have unspilledPage : record page.1 = none := by
      rw [← last.pageId]
      exact unspilled next (mem_append_right _ (mem_singleton.mpr rfl))
    obtain ⟨entry, grown⟩ := published.publishPage rfl last stored.2.1 afterHeader older
      unspilledPage (retained.imp_right fun seen snapshot used => by
        have := seen snapshot used
        have := last.encodedLen
        omega)
    rw [publishPages_append, run.sum_encodedLen]
    exact ⟨new ++ [entry], grown⟩

end Ledger

-- The publishing step

namespace WalState

variable (tracks : state.Tracks config entries)
include tracks

/-- The slots before publication, seen from the end that the commit will publish. -/
theorem Tracks.slots_of_end (grows : state.handle.walEndLsn ≤ newEnd) (pageId : PageId)
    : ({ state.ledger config entries with
      snapshots := newEnd :: state.handle.readerRegistry.readers.map ReaderInfo.snapshotLsn
      }).SlotSound pageId (state.handle.slot pageId) := by
  refine (tracks.slots pageId).of_snapshots fun snapshot used => ?_
  rcases mem_cons.mp used with rfl | reader
  · refine ⟨state.handle.walEndLsn, mem_cons_self, fun entry member => ?_⟩
    have below : entry.lsn ≤ state.handle.walEndLsn := tracks.lsn_le_walEnd member
    exact ⟨fun _ => below, fun _ => le_trans below grows⟩
  · exact ⟨snapshot, mem_cons_of_mem _ reader, fun _ _ => .rfl⟩

/-- Publishing a finished commit keeps the versions on track with its entries. -/
theorem Tracks.publish (committing : state.Committing config entries pages progress written frames)
    (finished : progress.logicalEndWritten)
    (unspilled : ∀ page ∈ progress.preparedPages, state.handle.sidecarRecord page.pageId = none)
    : ∃ new, ({ state with
      handle := state.handle.publishCommit config progress
      spec := state.spec.commit progress.offset pages
      }).Tracks config (entries ++ new) := by
  have afterHeader := committing.afterHeader
  have afterEnd := committing.afterEnd
  have offset : progress.commitStartLsn + framesLen config.pageSize frames < progress.offset := by
    rw [committing.offset, finished, if_pos rfl]
    exact Nat.lt_add_of_pos_right (by decide)
  have pagesWritten : pages = written := by
    rw [committing.pages, committing.finished finished, append_nil]
  have run : ({ state.ledger config entries with
    snapshots := progress.offset
      :: state.handle.readerRegistry.readers.map ReaderInfo.snapshotLsn } : Ledger).PreparedRun
    progress.commitStartLsn written frames progress.preparedPages :=
    committing.run.of_ledger (by rfl) (by rfl) (by rfl)
  have older : ∀ entry ∈ entries, entry.lsn ≤ progress.commitStartLsn := fun entry member =>
    le_trans (tracks.lsn_le_walEnd member) afterEnd
  have retained : (progress.retainHistoryHint || state.handle.historyNeeded)
    ∨ ∀ snapshot ∈ progress.offset
      :: state.handle.readerRegistry.readers.map ReaderInfo.snapshotLsn,
      progress.commitStartLsn + framesLen config.pageSize frames ≤ snapshot := by
    cases needed : state.handle.historyNeeded with
    | true => exact .inl (by simp)
    | false =>
      right
      have none := of_decide_eq_false (Bool.or_eq_false_iff.mp needed).1
      rw [eq_nil_of_length_eq_zero (Nat.eq_zero_of_not_pos none)]
      intro snapshot used
      rw [mem_singleton.mp used]
      exact le_of_lt offset
  obtain ⟨new, published⟩ := run.publish committing.stored afterHeader older
    (tracks.slots_of_end (by omega)) tracks.queued unspilled retained progress.offset
  have upTo : ∀ entry ∈ new, entry.lsn < progress.offset := fun entry member =>
    lt_of_le_of_lt (published.upTo entry member) offset
  have below : ∀ reader ∈ state.handle.readerRegistry.readers,
    reader.snapshotLsn ≤ state.handle.walEndLsn := fun reader member =>
    tracks.below _ (mem_cons_of_mem _ (mem_map_of_mem member))
  refine ⟨new, {
    slots := published.slots
    queued := published.queued
    describes := tracks.describes.commit (pagesWritten ▸ published.written) published.commits
    ascending := ?_
    within := ?_
    aligned := ?_
    below := ?_
    started := .inr (by dsimp only [publishCommit]; omega)
    images := ?_
    settledPages := tracks.settledPages }⟩
  · refine pairwise_append.mpr ⟨tracks.ascending, published.ascending, ?_⟩
    intro old listed added member
    exact lt_of_le_of_lt (older old listed) (published.after added member)
  · intro entry member
    dsimp only [publishCommit]
    rcases mem_append.mp member with old | added
    · have := tracks.within entry old
      omega
    · rw [published.commits entry added]
      exact ⟨upTo entry added, le_rfl⟩
  · intro snapshot used entry member
    rcases mem_cons.mp used with rfl | reader
    · -- The new end sees everything.
      rcases mem_append.mp member with old | added
      · have := tracks.within entry old
        dsimp only [publishCommit]
        omega
      have := upTo entry added
      rw [published.commits entry added]
      dsimp only [publishCommit]
      omega
    obtain ⟨info, registered, rfl⟩ := mem_map.mp reader
    rcases mem_append.mp member with old | added
    · exact tracks.aligned _ (mem_cons_of_mem _ reader) entry old
    have := below info registered
    have := published.after entry added
    rw [published.commits entry added]
    omega
  · intro snapshot used
    rcases mem_cons.mp used with rfl | reader
    · exact le_rfl
    obtain ⟨info, registered, rfl⟩ := mem_map.mp reader
    have := below info registered
    dsimp only [publishCommit]
    omega
  exact forall_mem_append.mpr ⟨tracks.images, published.images⟩

end WalState

end DecentDb.Wal
