import DecentDb.Wal.CommitSoundness

/-! A commit writes its frames past the end of the WAL: stored frames survive, and the new
ones are stored where the prepared pages say.
-/

namespace DecentDb.Wal

open FramesAt List WalHandle

-- The file

variable {offset start : Nat} {frame : WalFrame} {progress : CommitProgress}
  {frames more : List WalFrame} {next staged : CommitProgress} {config : WalConfig}
  {handle after : WalHandle} {storage filed : Storage}

section Files

variable (requiredLen : Nat)

/-- The file is made long enough. -/
theorem le_preallocatedLen : requiredLen ≤ preallocatedLen requiredLen := by
  unfold preallocatedLen walPreallocChunkBytes
  omega

/-- Growing the file keeps every frame below the new length. -/
theorem FrameAt.ensureCapacity {requiredLen : Nat}
    (stored : FrameAt storage.wal offset config.pageSize frame)
    (below : offset + frame.encodedLen config.pageSize ≤ requiredLen)
    : FrameAt (handle.ensureCapacity storage requiredLen).2.wal offset config.pageSize frame := by
  unfold WalHandle.ensureCapacity
  by_cases fits : requiredLen ≤ handle.allocatedLen
  · simpa only [fits, if_true] using stored
  · simpa only [fits, if_false] using
    stored.setLen (Nat.le_trans below (le_preallocatedLen requiredLen))

/-- Growing the log does not touch the main file. -/
theorem ensureCapacity_main
    : (handle.ensureCapacity storage requiredLen).2.main = storage.main := by
  unfold ensureCapacity
  by_cases fits : requiredLen ≤ handle.allocatedLen
  · simp [fits]
  · simp [fits]

/-- Growing the log does not touch the versions. -/
theorem ensureCapacity_index : (handle.ensureCapacity storage requiredLen).1.index = handle.index
      ∧ (handle.ensureCapacity storage requiredLen).1.indexSidecar = handle.indexSidecar := by
  unfold ensureCapacity
  by_cases fits : requiredLen ≤ handle.allocatedLen
  · simp [fits]
  · simp [fits]

/-- Appending bytes leaves the frames below them alone. -/
theorem FrameAt.append (stored : FrameAt storage.wal offset config.pageSize frame)
    (below : offset + frame.encodedLen config.pageSize ≤ start) (bytes : List UInt8)
    : FrameAt ((handle.ensureCapacity storage (start + bytes.length)).2.wal.writeAllAt start bytes)
      offset config.pageSize frame := by
  have grown : FrameAt (handle.ensureCapacity storage (start + bytes.length)).2.wal offset
    config.pageSize frame := stored.ensureCapacity (by omega)
  exact grown.writeAllAt (.inl below)

variable {file : ByteFile}

/-- The header's end field lies before every frame. -/
theorem FrameAt.writeEnd (stored : FrameAt file offset config.pageSize frame)
    (afterHeader : walHeaderSize ≤ offset) (endLsn : Nat)
    : FrameAt (file.writeAllAt 16 (LittleEndian.leBytes 8 endLsn)) offset config.pageSize
      frame := by
  refine stored.writeAllAt (.inr ?_)
  simp only [LittleEndian.length_leBytes]
  exact Nat.le_trans (by decide) afterHeader

/-- Writing the end into the header leaves the frames alone. -/
theorem FramesAt.writeEnd (stored : FramesAt file config.pageSize offset frames)
    (afterHeader : walHeaderSize ≤ offset) (endLsn : Nat)
    : FramesAt (file.writeAllAt 16 (LittleEndian.leBytes 8 endLsn)) config.pageSize offset
      frames :=
  stored.imp (Nat.le_refl _) fun _ _ low _ frameStored =>
    frameStored.writeEnd (Nat.le_trans afterHeader low) endLsn

variable {pageBatch : List UInt8} {last : Bool}

/-- All that a batch does to the handle, the storage and the progress. -/
structure BatchWritten (config : WalConfig) (handle after : WalHandle) (storage filed : Storage)
    (progress next : WalHandle.CommitProgress) (pageBatch : List UInt8) (last : Bool)
    : Prop where
  control : WalHandle.SameControl handle after
  index : after.index = handle.index
  indexSidecar : after.indexSidecar = handle.indexSidecar
  main : filed.main = storage.main
  kept : ∀ offset frame, walHeaderSize ≤ offset
    → offset + frame.encodedLen config.pageSize ≤ progress.offset
    → FrameAt storage.wal offset config.pageSize frame
    → FrameAt filed.wal offset config.pageSize frame
  stored : ∀ {frames : List WalFrame}, (∀ frame ∈ frames, frame.WellFormed config.pageSize)
    → pageBatch = frames.flatMap WalFrame.bytes → walHeaderSize ≤ progress.offset
    → FramesAt filed.wal config.pageSize progress.offset frames
  progress : next = { progress with
    offset := progress.offset
      + (if last then pageBatch ++ commitFrame.bytes else pageBatch).length
    logicalEndWritten := last }

/-- What writing a chunk does to the handle, the file and the progress. -/
theorem writeBatch_spec (config : WalConfig)
    (wrote : handle.writeBatch storage progress pageBatch last = (after, filed, next))
    : BatchWritten config handle after storage filed progress next pageBatch last := by
  obtain rfl : _ = after := congrArg (·.1) wrote
  obtain rfl : _ = filed := congrArg (·.2.1) wrote
  obtain rfl : _ = next := congrArg (·.2.2) wrote
  refine {
    control := handle.writeBatch_sameControl storage progress pageBatch last
    index := (ensureCapacity_index _).1
    indexSidecar := (ensureCapacity_index _).2
    main := ensureCapacity_main _
    kept := ?_
    stored := ?_
    progress := rfl
  }
  · intro offset frame afterHeader below stored
    cases last with
    | false => exact stored.append below pageBatch
    | true => exact (stored.append below (pageBatch ++ commitFrame.bytes)).writeEnd afterHeader _
  intro frames wellFormed batch afterHeader
  subst batch
  cases last with
  | false =>
    have written := of_writeAllAt (handle.ensureCapacity storage
      (progress.offset + (frames.flatMap WalFrame.bytes).length)).2.wal progress.offset
      wellFormed []
    rwa [append_nil] at written
  | true => exact (of_writeAllAt _ _ wellFormed commitFrame.bytes).writeEnd afterHeader _

end Files

-- A commit in progress

/-- A commit that has written the frames of its first pages past the end of the WAL. -/
structure WalState.Committing (config : WalConfig) (state : WalState)
    (entries : List LedgerEntry) (pages : List (PageId × Page))
    (progress : WalHandle.CommitProgress) (written : List (PageId × Page))
    (frames : List WalFrame) : Prop where
  pages : pages = written ++ progress.inputPages
  afterHeader : walHeaderSize ≤ progress.commitStartLsn
  afterEnd : state.handle.walEndLsn ≤ progress.commitStartLsn
  snapshot : progress.snapshotLsn = state.handle.walEndLsn
  run : (state.ledger config entries).PreparedRun progress.commitStartLsn written frames
    progress.preparedPages
  stored : FramesAt state.storage.wal config.pageSize progress.commitStartLsn frames
  seen : ∀ pageId, pageId ∈ progress.seenPageIds ↔ pageId ∈ written.map Prod.fst
  offset : progress.offset = progress.commitStartLsn + framesLen config.pageSize frames
    + if progress.logicalEndWritten then commitFrame.bytes.length else 0
  finished : progress.logicalEndWritten = true → progress.inputPages = []

namespace WalState

variable {state other : WalState} {entries : List LedgerEntry}
  {pages written chunk : List (PageId × Page)}

/-- A commit under way depends on the end of the log, the file and the commits only. -/
theorem Committing.congr
    (committing : state.Committing config entries pages progress written frames)
    (walEnd : other.handle.walEndLsn = state.handle.walEndLsn)
    (file : other.storage.wal = state.storage.wal) (spec : other.spec = state.spec)
    : other.Committing config entries pages progress written frames :=
  { committing with
    afterEnd := walEnd ▸ committing.afterEnd
    snapshot := walEnd ▸ committing.snapshot
    run := by apply committing.run.of_ledger <;> simp [ledger, spec]
    stored := file ▸ committing.stored }

/-- A commit that begins has written nothing. -/
theorem beginCommit_committing (tracks : state.Tracks config entries) (pages : List (PageId × Page))
    : state.Committing config entries pages (state.handle.beginCommit pages) [] [] := by
  have started := tracks.started
  have offset : (state.handle.beginCommit pages).commitStartLsn
    = if state.handle.walEndLsn = 0 then walHeaderSize else state.handle.walEndLsn := rfl
  refine ⟨rfl, ?_, ?_, rfl, .nil, trivial, by simp [beginCommit], rfl, nofun⟩
  · rw [offset]
    split <;> omega
  · rw [offset]
    split <;> omega

section

variable (committing : state.Committing config entries pages progress written frames)
  (unfinished : progress.logicalEndWritten = false)
include committing unfinished

/-- An unfinished commit stands behind the frames that it has written. -/
theorem Committing.offset_of_unfinished
    : progress.offset = progress.commitStartLsn + framesLen config.pageSize frames := by
  simpa [unfinished] using committing.offset

/-- The next chunk before any of its pages is encoded. -/
theorem Committing.chunkRun
    : (state.ledger config entries).ChunkRun progress.commitStartLsn progress.offset written
      frames [] {
        pageBatch := []
        seenPageIds := progress.seenPageIds
        preparedPages := progress.preparedPages
      } :=
  ⟨by simpa using committing.run, rfl, committing.offset_of_unfinished unfinished, committing.seen⟩

end

/-- The progress once a chunk is prepared and before its frames are written. -/
structure Staged (progress staged : WalHandle.CommitProgress) (chunk : List (PageId × Page))
    (batch : ChunkBatch) : Prop where
  commitStartLsn : staged.commitStartLsn = progress.commitStartLsn
  snapshotLsn : staged.snapshotLsn = progress.snapshotLsn
  offset : staged.offset = progress.offset
  inputPages : progress.inputPages = chunk ++ staged.inputPages
  seenPageIds : staged.seenPageIds = batch.seenPageIds
  preparedPages : staged.preparedPages = batch.preparedPages

/-- A chunk without pages only adds the marker. -/
theorem staged_empty (progress : CommitProgress) : Staged progress progress [] {
      pageBatch := []
      seenPageIds := progress.seenPageIds
      preparedPages := progress.preparedPages
      } :=
  ⟨rfl, rfl, rfl, rfl, rfl, rfl⟩

/-- The progress that a prepared chunk is written with. -/
theorem staged_chunk (progress : CommitProgress) (limit : Nat) (hint : Bool) (batch : ChunkBatch)
    : Staged progress
      { progress with
        inputPages := progress.inputPages.drop limit
        retainHistoryHint := hint
        seenPageIds := batch.seenPageIds
        preparedPages := batch.preparedPages }
      (progress.inputPages.take limit) batch :=
  ⟨rfl, rfl, rfl, (take_append_drop _ _).symm, rfl, rfl⟩

variable (tracks : state.Tracks config entries)
include tracks

/-- Writing a chunk appends its frames to the commit. -/
theorem Committing.writeBatch
    (committing : state.Committing config entries pages progress written frames)
    (unfinished : progress.logicalEndWritten = false) {batch : ChunkBatch}
    (stages : Staged progress staged chunk batch)
    (prepared : (state.ledger config entries).ChunkRun progress.commitStartLsn progress.offset
      (written ++ chunk) frames more batch)
    (wrote : state.handle.writeBatch state.storage staged batch.pageBatch
      staged.inputPages.isEmpty = (handle, storage, next))
    : ({ state with handle, storage }).Tracks config entries ∧ storage.main = state.storage.main
      ∧ ({ state with handle, storage }).Committing config entries pages next (written ++ chunk)
        (frames ++ more) := by
  have afterHeader := committing.afterHeader
  have afterEnd := committing.afterEnd
  have offset := committing.offset_of_unfinished unfinished
  have wellFormed : ∀ frame ∈ more, frame.WellFormed config.pageSize := fun frame member =>
    prepared.run.wellFormed frame (mem_append_right _ member)
  have done := writeBatch_spec config wrote
  have start := stages.offset
  have stored := done.stored wellFormed prepared.bytes (by omega)
  have length : batch.pageBatch.length = framesLen config.pageSize more := by
    rw [prepared.bytes, length_flatMap_bytes wellFormed]
  have progressed := done.progress
  subst progressed
  refine ⟨?_, done.main, ?_⟩
  · refine tracks.of_file done.control done.index done.indexSidecar ?_
    intro start frame low below
    exact done.kept start frame low (by omega)
  have run : ({ state with handle, storage } : WalState).ledger config entries
  |>.PreparedRun progress.commitStartLsn (written ++ chunk) (frames ++ more)
    batch.preparedPages :=
  prepared.run.of_ledger (by rfl) (by rfl) (by rfl)
  have frameStored : FramesAt storage.wal config.pageSize progress.commitStartLsn
    (frames ++ more) := by
    refine append.mpr ⟨?_, ?_⟩
    · refine committing.stored.imp (Nat.le_refl _) fun start frame low below => ?_
      exact done.kept start frame (Nat.le_trans afterHeader low) (by omega)
    · rwa [start, offset] at stored
  refine {
    pages := by rw [committing.pages, stages.inputPages, append_assoc]
    afterHeader := stages.commitStartLsn ▸ afterHeader
    afterEnd := by
      dsimp only
      rwa [done.control.walEndLsn, stages.commitStartLsn]
    snapshot := by
      dsimp only
      rw [done.control.walEndLsn, stages.snapshotLsn, committing.snapshot]
    run := by
      dsimp only
      rwa [stages.commitStartLsn, stages.preparedPages]
    stored := by
      dsimp only
      rwa [stages.commitStartLsn]
    seen := by
      dsimp only
      rw [stages.seenPageIds]
      exact prepared.seen
    offset := ?_
    finished := by simp
  }
  rw [framesLen_append]
  dsimp only
  rw [start, stages.commitStartLsn, offset]
  split
  · rw [length_append]
    omega
  · omega

variable (main : ∀ pageId, state.storage.main pageId = state.spec.settled pageId)
  (committing : state.Committing config entries pages progress written frames)
  (unfinished : progress.logicalEndWritten = false)
  (stay : state.handle.PromotionsStay config
    (progress.inputPages.take (walPrepareBatchPageLimit config.pageSize)))
include main committing unfinished stay

/-- The frames of the next chunk, once its bases are looked up. -/
theorem Committing.prepareNext {result : DbResult ChunkBatch}
    (prepares : state.handle.prepareNext config state.storage progress = (handle, result))
    : ({ state with handle }).Tracks config entries
      ∧ ({ state with handle }).Committing config entries pages progress written frames
      ∧ ∀ batch, result = .ok batch → ∃ more,
        (({ state with handle } : WalState).ledger config entries).ChunkRun
          progress.commitStartLsn progress.offset
          (written ++ progress.inputPages.take (walPrepareBatchPageLimit config.pageSize))
          frames more batch := by
  have cache := state.handle.prepareNext_cacheOnly config state.storage progress
  rw [prepares] at cache
  dsimp only at cache
  have sameLedger : ({ state with handle } : WalState).ledger config entries
    = state.ledger config entries := by
    simp [ledger, snapshots, cache.walEndLsn, cache.readerRegistry]
  have continued : ({ state with handle } : WalState).Committing config entries pages progress
    written frames := committing.congr cache.walEndLsn rfl rfl
  rw [sameLedger]
  unfold WalHandle.prepareNext at prepares
  rw [committing.snapshot] at prepares
  dsimp only at prepares
  split at prepares
  next looked =>
    cases prepares
    exact ⟨(tracks.lookupBasePages main stay (fun _ listed => listed) looked).1, continued, by simp⟩
  next bases looked =>
    obtain ⟨tracked, found⟩ := tracks.lookupBasePages main stay (fun _ listed => listed) looked
    obtain ⟨length, sounds⟩ := found bases rfl
    cases prepares
    refine ⟨tracked, continued, fun batch prepared => ?_⟩
    obtain ⟨more, whole⟩ := (committing.chunkRun unfinished).prepareChunk sounds prepared
    rw [map_fst_zip (by omega)] at whole
    exact ⟨more, by simpa using whole⟩

/-- What is left of a commit that wrote a chunk, or failed to. -/
theorem Committing.writeChunk {result : DbResult WalHandle.CommitProgress}
    (wrote : state.handle.writeChunk config state.storage progress = (handle, storage, result))
    : ({ state with handle, storage }).Tracks config entries ∧ storage.main = state.storage.main
      ∧ ∀ next, result = .ok next → ∃ written frames,
        ({ state with handle, storage }).Committing config entries pages next written frames := by
  unfold WalHandle.writeChunk at wrote
  split at wrote
  next empty =>
    cases wrote
    obtain ⟨tracked, main, continued⟩ := committing.writeBatch tracks unfinished
      (staged_empty progress) (by simpa using committing.chunkRun unfinished) (by rw [empty])
    refine ⟨tracked, main, fun next same => ?_⟩
    cases same
    exact ⟨_, _, continued⟩
  next =>
    split at wrote
    next consulted error prepares =>
      cases wrote
      exact ⟨(committing.prepareNext tracks main unfinished stay prepares).1, rfl, nofun⟩
    next consulted batch prepares =>
      obtain ⟨tracked, continued, found⟩ :=
        committing.prepareNext tracks main unfinished stay prepares
      obtain ⟨more, chunk⟩ := found batch rfl
      cases wrote
      obtain ⟨rewritten, same, wrote⟩ := continued.writeBatch tracked unfinished
        (staged_chunk progress _ _ batch) chunk rfl
      refine ⟨rewritten, same, fun next result => ?_⟩
      cases result
      exact ⟨_, _, wrote⟩

end WalState

end DecentDb.Wal
