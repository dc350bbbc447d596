import DecentDb.Wal.Demotion
import DecentDb.Wal.PreparedEdits

/-! What the WAL file holds of a commit in progress: the frames of its first edits, whose bases
are those that the lookups of its chunks find.
-/

namespace DecentDb.Wal

open FramesAt List WalFrame WalHandle

/-- The frames of a commit, with its marker once that is written. -/
def markedFrames (marked : Bool) (frames : List WalFrame) : List WalFrame :=
  if marked then frames ++ [commitFrame] else frames

variable {config : WalConfig} {frames batched written : List WalFrame}
  {staged next progress : CommitProgress} {chunk pages : List (PageId × Page)} {batch : ChunkBatch}
  {more edits : List PageEdit} {offers : PageId → Page → Prop} {handle consulted : WalHandle}
  {storage : Storage} {state other : WalState} {main : PageId → Page}
  {guard : WalHandle → List (PageId × Page) → Prop} {condition : WalHandle → Prop} {start : Nat}

/-- A batch stores its frames, and the marker if it is the last one. -/
theorem writeBatch_stores (handle : WalHandle) (storage : Storage) (progress : CommitProgress)
    {pageBatch : List UInt8} (wellFormed : ∀ frame ∈ frames, frame.WellFormed config.pageSize)
    (bytes : pageBatch = frames.flatMap bytes) (last : Bool)
    (afterHeader : walHeaderSize ≤ progress.offset)
    : FramesAt (handle.writeBatch storage progress pageBatch last).2.1.wal config.pageSize
        progress.offset (markedFrames last frames)
      ∧ (handle.writeBatch storage progress pageBatch last).2.2.offset
        = progress.offset + framesLen config.pageSize (markedFrames last frames) := by
  subst bytes
  cases last with
  | false =>
    refine ⟨?_, ?_⟩
    · exact (writeBatch_spec config rfl).stored wellFormed rfl afterHeader
    · rw [markedFrames, if_neg (by decide), ← length_flatMap_bytes wellFormed]
      rfl
  | true =>
    have marked : ∀ frame ∈ frames ++ [commitFrame], frame.WellFormed config.pageSize :=
      forall_mem_append.mpr ⟨wellFormed, forall_mem_singleton.mpr
        ⟨rfl, by simp [commitFrame, FrameType.carriesPage]⟩⟩
    have whole : frames.flatMap bytes ++ commitFrame.bytes
        = (frames ++ [commitFrame]).flatMap bytes ++ [] := by simp
    refine ⟨?_, ?_⟩
    · have stored := (of_writeAllAt (handle.ensureCapacity storage
        (progress.offset + (frames.flatMap bytes ++ commitFrame.bytes).length)).2.wal
        progress.offset marked []).writeEnd afterHeader
        (progress.offset + (frames.flatMap bytes ++ commitFrame.bytes).length)
      rw [← whole] at stored
      exact stored
    rw [markedFrames, if_pos rfl, ← length_flatMap_bytes marked]
    rw [append_nil] at whole
    rw [← whole]
    rfl

-- A commit in progress

/-- A commit that has written the frames of its first edits from `start` on. -/
structure WalState.CommitLogged (config : WalConfig) (offers : PageId → Page → Prop)
    (start : Nat) (state : WalState) (pages : List (PageId × Page))
    (progress : WalHandle.CommitProgress) (edits : List PageEdit) (frames : List WalFrame)
    : Prop where
  pages : pages = writesOf edits ++ progress.inputPages
  afterHeader : walHeaderSize ≤ start
  afterEnd : state.handle.walEndLsn ≤ start
  commitStart : progress.commitStartLsn = start
  snapshot : progress.snapshotLsn = state.handle.walEndLsn
  run : PreparedEdits config.pageSize offers edits frames progress.preparedPages
  stored : FramesAt state.storage.wal config.pageSize start
    (markedFrames progress.logicalEndWritten frames)
  seen : ∀ pageId, pageId ∈ progress.seenPageIds ↔ pageId ∈ edits.map Prod.fst
  offset : progress.offset
    = start + framesLen config.pageSize (markedFrames progress.logicalEndWritten frames)
  finished : progress.logicalEndWritten → progress.inputPages = []
  header : HeaderAt state.storage.wal config.pageSize
    (if progress.logicalEndWritten then progress.offset else state.handle.walEndLsn)

namespace WalState.CommitLogged

/-- A commit in the log depends on the end of the log and the file only. -/
theorem congr (logged : state.CommitLogged config offers start pages progress edits frames)
    (walEnd : other.handle.walEndLsn = state.handle.walEndLsn)
    (file : other.storage.wal = state.storage.wal)
    : other.CommitLogged config offers start pages progress edits frames :=
  { logged with
    afterEnd := walEnd ▸ logged.afterEnd
    snapshot := walEnd ▸ logged.snapshot
    stored := file ▸ logged.stored
    header := by
      rw [walEnd, file]
      exact logged.header }

/-- A commit that has written nothing yet. -/
theorem beginCommit (header : HeaderAt state.storage.wal config.pageSize state.handle.walEndLsn)
    (pages : List (PageId × Page))
    : state.CommitLogged config offers (state.handle.beginCommit pages).offset pages
      (state.handle.beginCommit pages) [] [] where
  pages := rfl
  afterHeader := (beginCommit_offset header pages).1
  afterEnd := (beginCommit_offset header pages).2
  commitStart := rfl
  snapshot := rfl
  run := .nil
  stored := trivial
  seen := by simp [WalHandle.beginCommit]
  offset := rfl
  finished := nofun
  header := header

section

variable (logged : state.CommitLogged config offers start pages progress edits frames)
include logged

/-- The next chunk before any of its pages is encoded. -/
theorem chunkEdits : ChunkEdits config offers edits frames [] {
      pageBatch := []
      seenPageIds := progress.seenPageIds
      preparedPages := progress.preparedPages
      } :=
  ⟨by simpa using logged.run, rfl, logged.seen⟩

/-- A batch that is written continues the commit and keeps the frames below it. -/
theorem writeBatch
    (unfinished : progress.logicalEndWritten = false) (stages : Staged progress staged chunk batch)
    (writes : writesOf more = chunk)
    (prepared : ChunkEdits config offers (edits ++ more) frames batched batch)
    (wrote : state.handle.writeBatch state.storage staged batch.pageBatch
      staged.inputPages.isEmpty = (handle, storage, next))
    : ({ state with handle, storage }).CommitLogged config offers start pages next (edits ++ more)
      (frames ++ batched) ∧ ∀ offset frame, walHeaderSize ≤ offset
        → offset + frame.encodedLen config.pageSize ≤ start
        → FrameAt state.storage.wal offset config.pageSize frame
        → FrameAt storage.wal offset config.pageSize frame := by
  have afterHeader := logged.afterHeader
  have afterEnd := logged.afterEnd
  have offset : progress.offset = start + framesLen config.pageSize frames := by
    simpa [unfinished, markedFrames] using logged.offset
  have here := stages.offset
  have wellFormed : ∀ frame ∈ batched, frame.WellFormed config.pageSize := fun frame member =>
    prepared.run.wellFormed frame (mem_append_right _ member)
  have before := logged.header
  rw [unfinished] at before
  have header : HeaderAt (state.handle.writeBatch state.storage staged batch.pageBatch
    staged.inputPages.isEmpty).2.1.wal _ _ :=
    before.writeBatch (by omega) (by rw [if_neg (by decide)]; omega) batch.pageBatch _
  have stores := writeBatch_stores state.handle state.storage staged wellFormed prepared.bytes
    staged.inputPages.isEmpty (by omega)
  rw [wrote] at header stores
  have done := writeBatch_spec config wrote
  have progressed := done.progress
  have marked : next.logicalEndWritten = staged.inputPages.isEmpty := by rw [progressed]
  have whole : markedFrames next.logicalEndWritten (frames ++ batched)
    = frames ++ markedFrames staged.inputPages.isEmpty batched := by
    rw [marked]
    unfold markedFrames
    split <;> simp
  refine ⟨?_, fun start frame low below => done.kept start frame low (by omega)⟩
  refine {
    pages := ?_
    afterHeader := afterHeader
    afterEnd := by
      dsimp only
      rwa [done.control.walEndLsn]
    commitStart := by rw [progressed, ← logged.commitStart, ← stages.commitStartLsn]
    snapshot := by
      dsimp only
      rw [done.control.walEndLsn, progressed, ← logged.snapshot, ← stages.snapshotLsn]
    run := by
      rw [progressed]
      dsimp only
      rw [stages.preparedPages]
      exact prepared.run
    stored := ?_
    seen := by
      rw [progressed]
      dsimp only
      rw [stages.seenPageIds]
      exact prepared.seen
    offset := ?_
    finished := by
      rw [progressed]
      simp
    header := ?_
  }
  · rw [logged.pages, stages.inputPages, writesOf_append, writes, progressed, append_assoc]
  · rw [whole]
    refine append.mpr ⟨?_, ?_⟩
    · have old := logged.stored
      rw [unfinished] at old
      refine old.imp le_rfl fun start frame low below => ?_
      have bound : start + frame.encodedLen config.pageSize ≤ progress.offset := by
        rw [offset]
        simpa [markedFrames] using below
      exact done.kept start frame (by omega) (by omega)
    · rw [← offset, ← here]
      exact stores.1
  · rw [whole, framesLen_append, ← add_assoc, ← offset, ← here]
    exact stores.2
  rw [marked]
  dsimp only
  rw [done.control.walEndLsn]
  exact header

end

end WalState.CommitLogged

-- Chunks

/-- A condition on the handle that lookups and writes keep, and under which the lookups of a
guarded chunk find offered bases.
-/
structure BasesOffered (config : WalConfig) (main : PageId → Page)
    (offers : PageId → Page → Prop) (guard : WalHandle → List (PageId × Page) → Prop)
    (condition : WalHandle → Prop) : Prop where
  same : ∀ {handle other : WalHandle}, condition handle → other.index = handle.index
    → other.indexSidecar = handle.indexSidecar → other.walEndLsn = handle.walEndLsn
    → condition other
  lookup : ∀ {handle storage pages after result}, condition handle → storage.main = main
    → guard handle pages
    → WalHandle.lookupBasePages config storage handle.walEndLsn handle pages = (after, result)
    → condition after ∧ ∀ bases, result = .ok bases → bases.length = pages.length
      ∧ ∀ pair ∈ pages.zip bases, BaseOffered config offers pair.1.1 pair.2

/-- What a written chunk leaves: the commit goes on, and the file below it is kept. -/
structure WalState.ChunkWritten (config : WalConfig) (offers : PageId → Page → Prop)
    (condition : WalHandle → Prop) (start : Nat) (state : WalState) (handle : WalHandle)
    (storage : Storage) (pages : List (PageId × Page)) (next : WalHandle.CommitProgress)
    : Prop where
  logged : ∃ edits frames,
    ({ state with handle, storage }).CommitLogged config offers start pages next edits frames
  index : condition handle
  mainFile : storage.main = state.storage.main
  walEnd : handle.walEndLsn = state.handle.walEndLsn
  kept : ∀ offset frame, walHeaderSize ≤ offset
    → offset + frame.encodedLen config.pageSize ≤ start
    → FrameAt state.storage.wal offset config.pageSize frame
    → FrameAt storage.wal offset config.pageSize frame

namespace WalState.CommitLogged

section

variable (offered : BasesOffered config main offers guard condition)
  (commit : state.CommitLogged config offers start pages progress edits written)
include offered commit

/-- The frames of the next chunk, once its bases are looked up. -/
theorem prepareNext (index : condition state.handle) (mainFile : state.storage.main = main)
    (guarded : guard state.handle
      (progress.inputPages.take (walPrepareBatchPageLimit config.pageSize)))
    {result : DbResult ChunkBatch}
    (prepares : state.handle.prepareNext config state.storage progress = (handle, result))
    : condition handle ∧ ∀ batch, result = .ok batch → ∃ more batched,
      writesOf more = progress.inputPages.take (walPrepareBatchPageLimit config.pageSize)
      ∧ ChunkEdits config offers (edits ++ more) written batched batch := by
  unfold WalHandle.prepareNext at prepares
  rw [commit.snapshot] at prepares
  dsimp only at prepares
  split at prepares
  next looked =>
    cases prepares
    exact ⟨(offered.lookup index mainFile guarded looked).1, nofun⟩
  next bases looked =>
    obtain ⟨kept, found⟩ := offered.lookup index mainFile guarded looked
    obtain ⟨length, sound⟩ := found bases rfl
    cases prepares
    refine ⟨kept, fun batch prepared => ?_⟩
    obtain ⟨more, batched, writes, whole⟩ := commit.chunkEdits.prepareChunk sound prepared
    rw [map_fst_zip (by omega)] at writes
    exact ⟨more, batched, writes, by simpa using whole⟩

/-- A prepared batch that is written continues the commit. -/
theorem chunkWritten (unfinished : progress.logicalEndWritten = false)
    (index : condition consulted) (walEnd : consulted.walEndLsn = state.handle.walEndLsn)
    (stages : Staged progress staged chunk batch) (writes : writesOf more = chunk)
    (prepared : ChunkEdits config offers (edits ++ more) written batched batch)
    (wrote : consulted.writeBatch state.storage staged batch.pageBatch
      staged.inputPages.isEmpty = (handle, storage, next))
    : state.ChunkWritten config offers condition start handle storage pages next := by
  have looked : ({ state with handle := consulted } : WalState).CommitLogged config offers start
    pages progress edits written := commit.congr walEnd rfl
  obtain ⟨continued, kept⟩ := looked.writeBatch unfinished stages writes prepared wrote
  have done := writeBatch_spec config wrote
  exact {
    logged := ⟨_, _, continued⟩
    index := offered.same index done.index done.indexSidecar done.control.walEndLsn
    mainFile := done.main
    walEnd := done.control.walEndLsn.trans walEnd
    kept
  }

end

/-- A chunk that is written continues the commit. -/
theorem writeChunk (offered : BasesOffered config main offers guard condition)
    (commit : state.CommitLogged config offers start pages progress edits written)
    (unfinished : progress.logicalEndWritten = false) (index : condition state.handle)
    (mainFile : state.storage.main = main) (guarded : guard state.handle
      (progress.inputPages.take (walPrepareBatchPageLimit config.pageSize)))
    (wrote : state.handle.writeChunk config state.storage progress = (handle, storage, .ok next))
    : state.ChunkWritten config offers condition start handle storage pages next := by
  unfold WalHandle.writeChunk at wrote
  split at wrote
  next empty =>
    have chunk := commit.chunkEdits
    rw [← append_nil edits] at chunk
    cases wrote
    exact commit.chunkWritten offered unfinished index rfl (staged_empty progress)
      (rfl : writesOf [] = []) chunk (by rw [empty]; rfl)
  next =>
    split at wrote
    next => cases wrote
    next consulted batch prepares =>
      have cache := state.handle.prepareNext_cacheOnly config state.storage progress
      rw [prepares] at cache
      obtain ⟨kept, found⟩ := commit.prepareNext offered index mainFile guarded prepares
      obtain ⟨more, batched, writes, chunk⟩ := found batch rfl
      cases wrote
      exact commit.chunkWritten offered unfinished kept cache.walEndLsn
        (staged_chunk progress _ _ batch) writes chunk rfl

end WalState.CommitLogged

end DecentDb.Wal
