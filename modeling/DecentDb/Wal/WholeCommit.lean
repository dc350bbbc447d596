import DecentDb.Wal.WrittenCommit

/-! A whole commit as one call: what it leaves in the file behind the old end, and that it keeps
the bytes before that end.
-/

namespace DecentDb.Wal

open WalHandle

-- Bytes that a commit keeps

variable {position requiredLen start lsn : Nat} {handle after : WalHandle} {storage filed : Storage}
  {progress last next : CommitProgress} {config : WalConfig} {main : PageId → Page}
  {offers : PageId → Page → Prop} {condition : WalHandle → Prop} {state : WalState}
  {pages : List (PageId × Page)}

section Bytes

/-- Growing the log keeps its bytes. -/
theorem ensureCapacity_byteAt (handle : WalHandle) (storage : Storage)
    (below : position < requiredLen)
    : (handle.ensureCapacity storage requiredLen).2.wal.byteAt position
      = storage.wal.byteAt position := by
  unfold ensureCapacity
  by_cases fits : requiredLen ≤ handle.allocatedLen
  · simp [fits]
  · simp only [fits, if_false]
    exact storage.wal.byteAt_setLen (lt_of_lt_of_le below (le_preallocatedLen requiredLen))

/-- Writing a chunk keeps the bytes between the header and the offset. -/
theorem writeBatch_byteAt (handle : WalHandle) (storage : Storage)
    (progress : CommitProgress) (pageBatch : List UInt8) (last : Bool)
    (afterHeader : walHeaderSize ≤ position) (below : position < progress.offset)
    : (handle.writeBatch storage progress pageBatch last).2.1.wal.byteAt position
      = storage.wal.byteAt position := by
  have header : walHeaderSize = 32 := rfl
  cases last with
  | false =>
    simp only [writeBatch, Bool.false_eq_true, if_false]
    rw [ByteFile.byteAt_writeAllAt, if_neg (by omega),
      ensureCapacity_byteAt handle storage (by omega)]
  | true =>
    simp only [writeBatch, if_true]
    rw [ByteFile.byteAt_writeAllAt, if_neg (by rw [LittleEndian.length_leBytes]; omega),
      ByteFile.byteAt_writeAllAt, if_neg (by omega),
      ensureCapacity_byteAt handle storage (by omega)]

/-- One turn of the preparation loop keeps the bytes below it and moves on. -/
theorem writeChunk_byteAt
    (wrote : handle.writeChunk config storage progress = (after, filed, .ok next))
    : progress.offset ≤ next.offset
      ∧ ∀ position, walHeaderSize ≤ position → position < progress.offset
        → filed.wal.byteAt position = storage.wal.byteAt position := by
  obtain ⟨consulted, staged, pageBatch, last, offset, written⟩ := writeChunk_eq_ok wrote
  have moved := writeBatch_offset consulted storage staged pageBatch last
  rw [written, offset] at moved
  refine ⟨moved.1, fun position afterHeader below => ?_⟩
  have kept := writeBatch_byteAt consulted storage staged pageBatch last afterHeader
    (offset ▸ below)
  rwa [written] at kept

/-- By induction on the turns. -/
theorem prepareAndWrite_byteAt (turns : Nat)
    (wrote : handle.prepareAndWrite config turns storage progress = (after, filed, .ok last))
    (afterHeader : walHeaderSize ≤ position) (below : position < progress.offset)
    : filed.wal.byteAt position = storage.wal.byteAt position := by
  induction turns generalizing handle storage progress with
  | zero =>
    cases wrote
    rfl
  | succ turns ih =>
    unfold prepareAndWrite at wrote
    split at wrote
    · cases wrote
    next chunked written next outcome =>
      obtain ⟨forward, kept⟩ := writeChunk_byteAt outcome
      split at wrote
      · cases wrote
        exact kept position afterHeader below
      · rw [ih wrote (by omega), kept position afterHeader below]

end Bytes

-- What a commit stores

/-- The file after a whole commit of the pages from `start` on. -/
structure CommitStored (config : WalConfig) (offers : PageId → Page → Prop) (start : Nat)
    (storage filed : Storage) (pages : List (PageId × Page)) (endLsn : Nat)
    (edits : List PageEdit) (frames : List WalFrame) : Prop where
  writes : writesOf edits = pages
  run : ∃ prepared, PreparedEdits config.pageSize offers edits frames prepared
  stored : FramesAt filed.wal config.pageSize start (frames ++ [commitFrame])
  ends : endLsn = start + framesLen config.pageSize (frames ++ [commitFrame])
  header : HeaderAt filed.wal config.pageSize endLsn
  main : filed.main = storage.main
  kept : ∀ position, walHeaderSize ≤ position → position < start
    → filed.wal.byteAt position = storage.wal.byteAt position

section Whole

/-- The preparation loop, by induction on its turns. -/
theorem WalState.CommitLogged.prepareAndWrite
    (offered : BasesOffered config main offers (fun _ _ => True) condition) (turns : Nat)
    {edits : List PageEdit} {written : List WalFrame}
    (commit : state.CommitLogged config offers start pages progress edits written)
    (unfinished : progress.logicalEndWritten = false) (index : condition state.handle)
    (mainFile : state.storage.main = main) (enough : progress.inputPages.length < turns)
    (wrote : state.handle.prepareAndWrite config turns state.storage progress
      = (handle, storage, .ok last))
    : last.logicalEndWritten ∧ storage.main = main
      ∧ ∃ edits frames, ({ state with handle, storage } : WalState).CommitLogged config offers start
        pages last edits frames := by
  induction turns generalizing state progress edits written with
  | zero => omega
  | succ turns ih =>
    unfold prepareAndWrite at wrote
    split at wrote
    · cases wrote
    next chunked filed next outcome =>
      have chunk := commit.writeChunk offered unfinished index mainFile trivial outcome
      obtain ⟨edits, frames, continued⟩ := chunk.logged
      have sameMain := chunk.mainFile.trans mainFile
      split at wrote
      next ended =>
        cases wrote
        exact ⟨ended, sameMain, edits, frames, continued⟩
      next open_ =>
        have more : next.logicalEndWritten = false := by simpa using open_
        have fewer := (writeChunk_inputPages outcome).resolve_left open_
        have rest := ih continued more chunk.index sameMain (by omega) wrote
        exact rest

/-- A commit that succeeds has stored its frames behind the log. -/
theorem commitPages_stored
    (offered : BasesOffered config storage.main offers (fun _ _ => True) condition)
    (index : condition handle) (header : HeaderAt storage.wal config.pageSize handle.walEndLsn)
    (committed : handle.commitPages config storage pages = (after, filed, .ok lsn))
    : ∃ edits frames, CommitStored config offers (handle.beginCommit pages).offset storage filed
      pages lsn edits frames := by
  -- The phase and the other fields of the state play no part in a commit.
  let state : WalState := { WalState.opened config storage.main with handle, storage }
  have begun : state.CommitLogged config offers _ pages _ [] [] := .beginCommit header pages
  unfold commitPages at committed
  split at committed <;> cases committed
  next written filed progress outcome =>
    obtain ⟨ended, sameMain, edits, frames, commit⟩ :=
      begun.prepareAndWrite offered _ rfl index rfl (by simp [beginCommit]) outcome
    have stored := commit.stored
    have offset := commit.offset
    have named := commit.header
    rw [ended] at stored offset named
    refine ⟨edits, frames, ?_, ⟨_, commit.run⟩, stored, offset, named, sameMain,
      fun position afterHeader below => prepareAndWrite_byteAt _ outcome afterHeader below⟩
    rw [commit.pages, commit.finished ended, List.append_nil]

end Whole

end DecentDb.Wal
