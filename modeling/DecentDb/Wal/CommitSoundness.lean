import DecentDb.Wal.SnapshotReads

/-! A commit in progress: the frames it has prepared will be sound versions once they are
published.
-/

namespace DecentDb.Wal

open List WalHandle

variable {pageId other : PageId} {frame : WalFrame} {base : WalBasePage} {page : PageId × Page}
  {config : WalConfig} {encoding : FrameEncoding} {retainHistoryHint : Bool}
  {pages : List (PageId × Page)} {handle after : WalHandle} {state : WalState}
  {entries : List LedgerEntry} {seenPageIds : List PageId}

-- Prepared pages

/-- The frame of a prepared page: the whole page, or a delta against a usable base if the
page is new to the commit.
-/
inductive PageFrame (config : WalConfig) (seenPageIds : List PageId) (page : PageId × Page)
    (base : WalBasePage) : WalFrame → FrameEncoding → Prop where
  | full (nonzero : page.1 ≠ 0) (length : page.2.length = config.pageSize)
    : PageFrame config seenPageIds page base
      { frameType := .page, pageId := page.1, payload := page.2 } .page
  | delta {source : Page} {payload : List UInt8} (unseen : page.1 ∉ seenPageIds)
    (ordinary : page.1 ≠ headerPageId) (nonzero : page.1 ≠ 0)
    (usable : usableBase config base = some source)
    (encoded : encodePageDelta source page.2 = some payload)
    : PageFrame config seenPageIds page base
      { frameType := .pageDelta, pageId := page.1, payload } .pageDelta

section PageFrames

/-- A full frame carries its page. -/
theorem PageFrame.of_full
    (appended : (appendPageFrame config page.1 page.2).map (·, .page) = .ok (frame, encoding))
    : PageFrame config seenPageIds page base frame encoding := by
  obtain ⟨made, appendedFrame, pair⟩ := map_eq_ok.mp appended
  obtain ⟨rfl, rfl⟩ := Prod.mk.inj pair
  unfold appendPageFrame at appendedFrame
  split at appendedFrame
  · cases appendedFrame
  next nonzero =>
    split at appendedFrame <;> cases appendedFrame
    next length => exact .full nonzero (of_not_not length)

/-- A page that is new in the chunk gets a delta or a full frame. -/
theorem PageFrame.of_best (unseen : page.1 ∉ seenPageIds)
    (appended : appendBestPageFrameWithBase config page.1 page.2 base = .ok (frame, encoding))
    : PageFrame config seenPageIds page base frame encoding := by
  unfold appendBestPageFrameWithBase at appended
  split at appended
  · exact .of_full appended
  next ordinary =>
    split at appended
    next delta encodes =>
      obtain ⟨source, usable, encoded⟩ := Option.bind_eq_some_iff.mp encodes
      obtain ⟨made, appendedDelta, pair⟩ := map_eq_ok.mp appended
      obtain ⟨rfl, rfl⟩ := Prod.mk.inj pair
      unfold appendPageDeltaFrame at appendedDelta
      split at appendedDelta <;> cases appendedDelta
      next nonzero => exact .delta unseen ordinary nonzero usable encoded
    next => exact .of_full appended

/-- What preparing a page adds to the batch. -/
theorem preparePage_eq_ok {offset : Nat} {batch next : ChunkBatch}
    (made : preparePage config offset retainHistoryHint batch page base = .ok next)
    : ∃ frame encoding, PageFrame config batch.seenPageIds page base frame encoding ∧ next = {
      pageBatch := batch.pageBatch ++ frame.bytes
      seenPageIds := page.1 :: batch.seenPageIds
      preparedPages := batch.preparedPages ++ [{
        pageId := page.1
        encodedLen := frame.bytes.length
        frameOffset := offset + batch.pageBatch.length
        payload := if encoding = .page ∧ ¬retainHistoryHint then .onDiskFullPage
          else .resident page.2 encoding
      }]
      } := by
  unfold preparePage at made
  split at made
  next =>
    obtain ⟨⟨frame, encoding⟩, appended, finished⟩ := bind_eq_ok.mp made
    exact ⟨frame, encoding, .of_full appended, (Except.ok.inj finished).symm⟩
  next unseen =>
    obtain ⟨⟨frame, encoding⟩, appended, finished⟩ := bind_eq_ok.mp made
    exact ⟨frame, encoding, .of_best unseen appended, (Except.ok.inj finished).symm⟩

end PageFrames

namespace Ledger

variable (ledger : Ledger)

/-- A frame from which a page can be rebuilt. A delta over the main file is the first frame
of its page in the commit and in the generation.
-/
structure EncodesPage (earlier : List PageId) (page : PageId × Page) (frame : WalFrame)
    : Prop where
  framePage : frame.pageId = page.1
  wellFormed : frame.WellFormed ledger.config.pageSize
  image : page.2.length = ledger.config.pageSize
  full : frame.frameType = .page → frame.payload = page.2
  delta : frame.frameType = .pageDelta → ledger.config.Chained
    ∨ page.1 ∉ earlier ∧ (∀ entry ∈ ledger.entries, entry.pageId ≠ page.1)
      ∧ applyPageDelta (ledger.settled page.1) frame.payload = .ok page.2
      ∧ applyPageDelta page.2 frame.payload = .ok page.2

/-- One prepared page with its frame at an offset. -/
structure PreparedBy (earlier : List PageId) (offset : Nat) (page : PageId × Page)
    (frame : WalFrame) (prepared : PreparedWalPage) : Prop
    extends ledger.EncodesPage earlier page frame where
  pageId : prepared.pageId = page.1
  frameOffset : prepared.frameOffset = offset
  encodedLen : prepared.encodedLen = frame.encodedLen ledger.config.pageSize
  payload : (prepared.payload = .onDiskFullPage ∧ frame.frameType = .page)
    ∨ ∃ encoding, prepared.payload = .resident page.2 encoding
      ∧ frame.frameType = encoding.frameType

/-- The pages that a commit starting at `start` has prepared, with their frames. -/
inductive PreparedRun (start : Nat)
    : List (PageId × Page) → List WalFrame → List PreparedWalPage → Prop where
  | nil : PreparedRun start [] [] []
  | snoc {pages : List (PageId × Page)} {frames : List WalFrame}
    {prepared : List PreparedWalPage} {page : PageId × Page} {frame : WalFrame}
    {next : PreparedWalPage} (run : PreparedRun start pages frames prepared)
    (last : ledger.PreparedBy (pages.map Prod.fst)
      (start + framesLen ledger.config.pageSize frames) page frame next)
    : PreparedRun start (pages ++ [page]) (frames ++ [frame]) (prepared ++ [next])

/-- A base page that a delta may be encoded against. -/
structure BaseSound (pageId : PageId) (base : WalBasePage) : Prop where
  length : ∀ image source, base = some (image, source) → image.length = ledger.config.pageSize
  main : ∀ image, base = some (image, .mainDatabase)
    → image = ledger.settled pageId ∧ ∀ entry ∈ ledger.entries, entry.pageId ≠ pageId

variable {ledger} {prepared : List PreparedWalPage} {frames before batched : List WalFrame}
  {start offset : Nat} {batch next : ChunkBatch}

/-- All prepared frames are well formed. -/
theorem PreparedRun.wellFormed (run : ledger.PreparedRun start pages frames prepared)
    : ∀ frame ∈ frames, frame.WellFormed ledger.config.pageSize := by
  induction run with
  | nil => simp
  | snoc _ last ih => exact forall_mem_append.mpr ⟨ih, forall_mem_singleton.mpr last.wellFormed⟩

/-- Only the current generation's entries and the settled pages matter to a run. -/
theorem PreparedRun.of_ledger {other : Ledger} (config : other.config = ledger.config)
    (settled : other.settled = ledger.settled) (entries : other.entries = ledger.entries)
    (run : ledger.PreparedRun start pages frames prepared)
    : other.PreparedRun start pages frames prepared := by
  induction run with
  | nil => exact .nil
  | snoc _ last ih =>
    refine .snoc ih ?_
    obtain ⟨⟨framePage, wellFormed, image, full, delta⟩, pageId, frameOffset, encodedLen,
      payload⟩ := last
    rw [← config] at wellFormed image frameOffset encodedLen delta
    rw [← settled, ← entries] at delta
    exact ⟨⟨framePage, wellFormed, image, full, delta⟩, pageId, frameOffset, encodedLen, payload⟩

-- Encoding

/-- A usable base is a WAL version of a chained configuration, or the settled page of a page
without entries.
-/
theorem BaseSound.usable {image : Page} (sound : ledger.BaseSound pageId base)
    (usable : usableBase ledger.config base = some image)
    : image.length = ledger.config.pageSize ∧ (ledger.config.Chained
        ∨ image = ledger.settled pageId ∧ ∀ entry ∈ ledger.entries, entry.pageId ≠ pageId) := by
  unfold usableBase at usable
  split at usable
  next =>
    cases usable
    exact ⟨sound.length _ _ rfl, .inr (sound.main _ rfl)⟩
  next =>
    split at usable <;> cases usable
    next chained => exact ⟨sound.length _ _ rfl, .inl chained⟩
  next => cases usable
  next => cases usable

/-- A page can be rebuilt from the frame that is prepared for it. -/
theorem encodesPage_of_pageFrame {earlier seenPageIds : List PageId}
    (seen : ∀ pageId, pageId ∈ seenPageIds ↔ pageId ∈ earlier)
    (sound : ledger.BaseSound page.1 base)
    (made : PageFrame ledger.config seenPageIds page base frame encoding)
    : ledger.EncodesPage earlier page frame ∧ frame.frameType = encoding.frameType := by
  cases made with
  | full nonzero length =>
    exact ⟨⟨rfl, ⟨length, by simp [FrameType.carriesPage, nonzero]⟩, length, fun _ => rfl,
      by simp⟩, rfl⟩
  | delta unseen _ nonzero usable encoded =>
    obtain ⟨length, origin⟩ := sound.usable usable
    have sameLength := length_eq_of_encodePageDelta encoded
    refine ⟨⟨rfl, ⟨length_encodePageDelta encoded, by simp [FrameType.carriesPage, nonzero]⟩,
      sameLength ▸ length, by simp, fun _ => ?_⟩, rfl⟩
    rcases origin with chained | ⟨rfl, noEntry⟩
    · exact .inl chained
    · exact .inr ⟨by rwa [← seen], noEntry,
        applyPageDelta_encodePageDelta encoded sameLength fun _ same => same,
        applyPageDelta_encodePageDelta encoded rfl fun _ _ => rfl⟩

/-- A chunk being encoded: the frames before it are in the file, its own in the batch. -/
structure ChunkRun (ledger : Ledger) (start offset : Nat) (pages : List (PageId × Page))
    (before batched : List WalFrame) (batch : ChunkBatch) : Prop where
  run : ledger.PreparedRun start pages (before ++ batched) batch.preparedPages
  bytes : batch.pageBatch = batched.flatMap WalFrame.bytes
  offset : offset = start + framesLen ledger.config.pageSize before
  seen : ∀ pageId, pageId ∈ batch.seenPageIds ↔ pageId ∈ pages.map Prod.fst

section

variable (chunk : ledger.ChunkRun start offset pages before batched batch)
include chunk

/-- Another prepared page goes on with the chunk. -/
theorem ChunkRun.preparePage (sound : ledger.BaseSound page.1 base)
    (made : preparePage ledger.config offset retainHistoryHint batch page base = .ok next)
    : ∃ frame, ledger.ChunkRun start offset (pages ++ [page]) before (batched ++ [frame]) next := by
  obtain ⟨frame, encoding, framed, rfl⟩ := preparePage_eq_ok made
  have encodes := encodesPage_of_pageFrame chunk.seen sound framed
  have position : offset + batch.pageBatch.length
    = start + framesLen ledger.config.pageSize (before ++ batched) := by
    rw [chunk.bytes, FramesAt.length_flatMap_bytes fun frame member =>
      chunk.run.wellFormed frame (mem_append_right _ member), FramesAt.framesLen_append,
      chunk.offset, add_assoc]
  refine ⟨frame, ?_, ?_, chunk.offset, ?_⟩
  · rw [← append_assoc]
    refine .snoc chunk.run ⟨encodes.1, rfl, position, encodes.1.wellFormed.length_bytes, ?_⟩
    dsimp only
    split
    next onDisk =>
      refine .inl ⟨rfl, ?_⟩
      rw [encodes.2, onDisk.1]
      rfl
    next => exact .inr ⟨encoding, rfl, encodes.2⟩
  · rw [chunk.bytes, flatMap_append]
    simp
  · intro pageId
    simp [chunk.seen pageId, or_comm]

/-- A whole chunk, by induction along its pages. -/
theorem ChunkRun.prepareChunk {found : List ((PageId × Page) × WalBasePage)}
    (sound : ∀ pair ∈ found, ledger.BaseSound pair.1.1 pair.2)
    (made : prepareChunk ledger.config offset retainHistoryHint batch found = .ok next)
    : ∃ frames, ledger.ChunkRun start offset (pages ++ found.map Prod.fst) before
      (batched ++ frames) next := by
  induction found generalizing pages batched batch with
  | nil =>
    cases made
    exact ⟨[], by simpa using chunk⟩
  | cons pair rest ih =>
    obtain ⟨page, base⟩ := pair
    unfold Wal.prepareChunk at made
    obtain ⟨middle, first, later⟩ := bind_eq_ok.mp made
    obtain ⟨frame, grown⟩ := chunk.preparePage (sound (page, base) mem_cons_self) first
    obtain ⟨frames, whole⟩ := ih grown
      (fun pair member => sound pair (mem_cons_of_mem _ member)) later
    refine ⟨frame :: frames, ?_⟩
    simpa [append_assoc] using whole

end

end Ledger

-- Base lookup

namespace WalHandle

/-- A page that a base lookup promotes is still in the index when its base is read: no
spilling follows, or the hot set has room for it.
-/
def PromotionsStay (config : WalConfig) (handle : WalHandle) (pages : List (PageId × Page))
    : Prop :=
  0 < handle.readerRegistry.activeReaderCount
    ∨ handle.index.multiVersionPages.card < config.walIndexHotSetPages
    ∨ ∀ page ∈ pages, handle.sidecarRecord page.1 = none

instance (config : WalConfig) (handle : WalHandle) (pages : List (PageId × Page))
    : Decidable (handle.PromotionsStay config pages) :=
  inferInstanceAs (Decidable (_ ∨ _ ∨ _))

/-- A lookup of a page without a record moves no page. -/
theorem consultSidecar_record_eq_none {snapshotLsn : Nat}
    (unspilled : handle.sidecarRecord pageId = none)
    (otherUnspilled : handle.sidecarRecord other = none)
    : (handle.consultSidecar config snapshotLsn pageId).1.sidecarRecord other = none := by
  unfold consultSidecar
  split
  · rwa [promoteSpilledLatestLocked_of_no_record (by simp [unspilled])]
  unfold sidecarRecord at *
  cases present : handle.indexSidecar with
  | none => rfl
  | some sidecar =>
    rw [present, Option.bind_some] at otherUnspilled
    dsimp only [Option.map_some, Option.bind_some]
    by_cases zero : pageId = 0
    · rwa [WalIndexSidecar.clearLatest, if_pos zero]
    · rw [records_clearLatest zero, otherUnspilled, ite_self]

/-- Moving versions does not change which pages have several. -/
theorem Moved.multiVersionPages (moved : Moved config handle after)
    : after.index.multiVersionPages = handle.index.multiVersionPages := by
  apply WalIndex.multiVersionPages_congr
  intro pageId
  have keeps := (moved pageId).versions_of_multiple
  dsimp only [slot] at keeps
  constructor
  · intro several
    rwa [← keeps (.inr several)]
  · intro several
    rwa [keeps (.inl several)]

/-- A look-up leaves room for the promotions that follow. -/
theorem PromotionsStay.consultSidecar (stay : handle.PromotionsStay config pages)
    (member : page ∈ pages) (snapshotLsn : Nat)
    : (handle.consultSidecar config snapshotLsn page.1).1.PromotionsStay config pages := by
  rcases stay with readers | room | unspilled
  · left
    rwa [(handle.consultSidecar_cacheOnly config snapshotLsn page.1).readerRegistry]
  · right; left
    rwa [(handle.consultSidecar_moved config snapshotLsn page.1).multiVersionPages]
  · right; right
    exact fun other listed =>
      consultSidecar_record_eq_none (unspilled page member) (unspilled other listed)

end WalHandle

namespace WalState.Tracks

variable (tracks : state.Tracks config entries)
include tracks

/-- Consulting the sidecar keeps the handle on track. -/
theorem consultSidecar (snapshotLsn : Nat) (pageId : PageId) : ({ state with
      handle := (state.handle.consultSidecar config snapshotLsn pageId).1
      }).Tracks config entries :=
  tracks.of_cache (state.handle.consultSidecar_moved config snapshotLsn pageId)
    (state.handle.consultSidecar_cacheOnly config snapshotLsn pageId)
    (consultSidecar_wellQueued config snapshotLsn pageId tracks.queued)

/-- The page is shown once the sidecar has been consulted for it. -/
theorem shown_consultSidecar (stay : state.handle.PromotionsStay config pages)
    (member : page ∈ pages) (nonzero : page.1 ≠ 0) (snapshotLsn : Nat)
    : (state.handle.consultSidecar config snapshotLsn page.1).1.Shown page.1 snapshotLsn := by
  have sound := (tracks.consultSidecar snapshotLsn page.1).slots page.1
  unfold WalHandle.consultSidecar at *
  split
  next hidden =>
    exact Ledger.shown_of_promote tracks.slots tracks.queued nonzero
      (stay.imp_right (Or.imp_right fun unspilled => unspilled page member))
      (by simpa using hidden)
  next visible =>
    rw [if_neg visible] at sound
    apply sound.shown
    intro none
    rw [WalIndex.latestVisible, none] at visible
    exact visible rfl

/-- The base that is read for a shown page. -/
theorem basePage (shown : pageId ≠ 0 → state.handle.Shown pageId state.handle.walEndLsn)
    (main : state.storage.main pageId = state.spec.settled pageId)
    (read : state.handle.basePage config state.storage state.handle.walEndLsn pageId = .ok base)
    : (state.ledger config entries).BaseSound pageId base := by
  have used : state.handle.walEndLsn ∈ state.snapshots := mem_cons_self
  have sound := tracks.slots pageId
  unfold WalHandle.basePage at read
  by_cases zero : pageId = 0
  · subst zero
    simp only [WalIndex.latestVisible, tracks.noZero, WalIndex.newestAtOrBefore,
      Storage.readPageFromDisk, reverse_nil, find?_nil, if_true] at read
    cases read
    exact ⟨by simp, by simp⟩
  have seen := shown zero
  cases newest : state.handle.index.latestVisible pageId state.handle.walEndLsn with
  | some version =>
    obtain ⟨entry, frame, _, page, backed⟩ :=
      sound.lastEntry_eq tracks.ascending used (seen ▸ newest)
    have materialized := tracks.materialize sound rfl page backed
      (fun chained => sound.direct chained _ used version newest) (.inl main)
    simp only [newest, materialized, ok_bind] at read
    cases read
    refine ⟨?_, ?_⟩
    · intro image source same
      cases same
      exact tracks.images entry backed.member
    intro image same
    injection same with same
    have source := congrArg Prod.snd same
    split at source <;> cases source
  | none =>
    have nothing := sound.lastEntry_eq_none used (seen ▸ newest)
    simp only [newest, Storage.readPageFromDisk, zero, if_false] at read
    cases read
    refine ⟨?_, ?_⟩
    · intro image source same
      cases same
      rw [main]
      exact tracks.settledPages pageId
    intro image same
    cases same
    refine ⟨main, fun entry member page => ?_⟩
    have absent := find?_eq_none.mp nothing entry (mem_reverse.mpr member)
    exact absent (by simpa [page] using tracks.lsn_le_walEnd member)

/-- The bases that are looked up for a chunk are the last images of its pages. -/
theorem lookupBasePages (main : ∀ pageId, state.storage.main pageId = state.spec.settled pageId)
    {chunk : List (PageId × Page)} (stay : state.handle.PromotionsStay config pages)
    (within : ∀ page ∈ chunk, page ∈ pages) {result : DbResult (List WalBasePage)}
    (looked : lookupBasePages config state.storage state.handle.walEndLsn state.handle chunk
      = (handle, result))
    : ({ state with handle }).Tracks config entries
      ∧ ∀ bases, result = .ok bases → bases.length = chunk.length
        ∧ ∀ pair ∈ chunk.zip bases, (state.ledger config entries).BaseSound pair.1.1 pair.2 := by
  have rule := lookupBasePages_rule (fun page => (state.ledger config entries).BaseSound page.1)
    (?_ : ∀ before, before.PromotionsStay config pages ∧ before.walEndLsn = state.handle.walEndLsn
      ∧ ({ state with handle := before }).Tracks config entries → _) ?_ ⟨stay, rfl, tracks⟩ looked
  · exact ⟨rule.1.2.2, rule.2⟩
  · rintro before ⟨stay, walEnd, tracks⟩ page listed
    rw [lookupBasePage_fst]
    have cache := before.consultSidecar_cacheOnly config state.handle.walEndLsn page.1
    exact ⟨stay.consultSidecar (within page listed) _, cache.walEndLsn.trans walEnd,
      tracks.consultSidecar _ page.1⟩
  rintro before ⟨stay, walEnd, tracks⟩ page listed base found
  have read := basePage_of_lookupBasePage found
  have consulted := tracks.consultSidecar state.handle.walEndLsn page.1
  have cache := before.consultSidecar_cacheOnly config state.handle.walEndLsn page.1
  have shown := fun nonzero => tracks.shown_consultSidecar stay (within page listed) nonzero
    state.handle.walEndLsn
  generalize (before.consultSidecar config state.handle.walEndLsn page.1).1 = after at *
  rw [← walEnd, ← cache.walEndLsn] at read shown
  have sound := consulted.basePage shown (main page.1) read
  exact ⟨sound.length, sound.main⟩

end WalState.Tracks

end DecentDb.Wal
