import DecentDb.Wal.CommitWriting
import DecentDb.Wal.FirstCommitter
import DecentDb.Wal.Recovery

/-! The header of the WAL file holds the end of the last published commit, after every whole
commit and checkpoint, so recovery starts with the end that the closed handle had.
-/

namespace DecentDb.Wal

open List LittleEndian WalHandle WalHeader

open LittleEndian (leBytes leNat)
open ByteFile (readExactAt slice_append slice_setLen slice_writeAllAt_disjoint)

/-- The file starts with a header that names the page size and the logical end. -/
structure HeaderAt (file : ByteFile) (pageSize endOffset : Nat) : Prop where
  room : walHeaderSize ≤ file.size
  valid : endOffset = 0 ∨ walHeaderSize ≤ endOffset
  inside : endOffset ≤ file.size
  fixed : ∃ version, (version = 1 ∨ version = walHeaderVersion)
    ∧ file.slice 0 16 = walMagic ++ leBytes 4 version ++ leBytes 4 pageSize
  endField : file.slice 16 8 = leBytes 8 endOffset

variable {config : WalConfig} {progress staged next : CommitProgress}
  {start after handle consulted : WalHandle} {main : PageId → Page} {filed storage : Storage}
  {endOffset requiredLen : Nat}

namespace HeaderAt

variable {file : ByteFile} {pageSize endOffset length start newEnd : Nat}

/-- A file that is cut down to a fresh header. -/
theorem of_encode (file : ByteFile) (pageSize : Nat) : HeaderAt ((file.writeAllAt 0
      (encode { pageSize, walEndOffset := 0 })).setLen walHeaderSize) pageSize 0 := by
  have length : (encode { pageSize, walEndOffset := 0 }).length = walHeaderSize := by
    simp [encode, walMagic, walHeaderSize]
  have written := file.slice_writeAllAt_self 0 (encode { pageSize, walEndOffset := 0 })
  rw [length, show walHeaderSize = 16 + (8 + 8) from rfl, slice_append,
    slice_append, encode, append_assoc] at written
  obtain ⟨fixed, rest⟩ := append_inj written (by simp [walMagic])
  refine ⟨Nat.le_refl _, .inl rfl, Nat.zero_le _, ?_, ?_⟩
  · refine ⟨walHeaderVersion, .inr rfl, ?_⟩
    rw [slice_setLen _ (by decide)]
    exact fixed
  · rw [slice_setLen _ (by decide)]
    exact (append_inj rest (by simp)).1

section

variable (header : HeaderAt file pageSize endOffset)
include header

/-- Growing the file, or cutting it above the end, keeps the header. -/
theorem setLen (room : walHeaderSize ≤ length) (inside : endOffset ≤ length)
    : HeaderAt (file.setLen length) pageSize endOffset := by
  have wide : 32 ≤ length := room
  obtain ⟨version, accepted, fixed⟩ := header.fixed
  refine ⟨room, header.valid, inside, ⟨version, accepted, ?_⟩, ?_⟩
  · rwa [slice_setLen _ (by omega)]
  · rw [slice_setLen _ (by omega)]
    exact header.endField

/-- A write past the header keeps it. -/
theorem writeAllAt (after : walHeaderSize ≤ start) (bytes : List UInt8)
    : HeaderAt (file.writeAllAt start bytes) pageSize endOffset := by
  have wide : 32 ≤ start := after
  obtain ⟨version, accepted, fixed⟩ := header.fixed
  refine ⟨le_trans header.room (le_max_left _ _), header.valid,
    le_trans header.inside (le_max_left _ _), ⟨version, accepted, ?_⟩, ?_⟩
  · rwa [slice_writeAllAt_disjoint _ _ (.inl (by omega))]
  · rw [slice_writeAllAt_disjoint _ _ (.inl (by omega))]
    exact header.endField

/-- Writing the end field replaces the end. -/
theorem writeEnd (valid : walHeaderSize ≤ newEnd) (inside : newEnd ≤ file.size)
    : HeaderAt (file.writeAllAt 16 (leBytes 8 newEnd)) pageSize newEnd := by
  obtain ⟨version, accepted, fixed⟩ := header.fixed
  refine ⟨le_trans header.room (le_max_left _ _), .inr valid,
    le_trans inside (le_max_left _ _), ⟨version, accepted, ?_⟩, ?_⟩
  · rwa [slice_writeAllAt_disjoint _ _ (.inl (by omega))]
  · have written := file.slice_writeAllAt_self 16 (leBytes 8 newEnd)
    rwa [length_leBytes] at written

end

/-- Recovery accepts the header and reads the end that was written. -/
theorem readHeader (header : HeaderAt file config.pageSize endOffset)
    (path : String) (fits : endOffset < 2 ^ 64)
    : readHeader config path file
      = .ok { pageSize := config.pageSize, walEndOffset := endOffset } := by
  have room := header.room
  have inside := header.inside
  obtain ⟨version, accepted, fixed⟩ := header.fixed
  have small : config.pageSize < 256 ^ 4 := by
    have bounds := config.pageSize_bounds
    omega
  have read : WalFrame.readExact file 0 walHeaderSize = .ok (walMagic ++ (leBytes 4 version
      ++ (leBytes 4 config.pageSize ++ (leBytes 8 endOffset ++ file.slice 24 8)))) := by
    rw [WalFrame.readExact, readExactAt, if_pos (by omega)]
    rw [show walHeaderSize = 16 + (8 + 8) from rfl, slice_append, slice_append,
      fixed, header.endField, append_assoc, append_assoc]
  have decoded : decode (walMagic ++ (leBytes 4 version
    ++ (leBytes 4 config.pageSize ++ (leBytes 8 endOffset ++ file.slice 24 8))))
    = .ok { pageSize := config.pageSize, walEndOffset := endOffset } := by
    have versionRead : leNat (leBytes 4 version) = version := by
      rcases accepted with rfl | rfl <;> decide
    have pages : leNat (leBytes 4 config.pageSize) = config.pageSize := leNat_leBytes_of_lt small
    have logicalEnd : leNat (leBytes 8 endOffset) = endOffset :=
      leNat_leBytes_of_lt (by simpa using fits)
    have valid := header.valid
    have magicPart : ∀ rest : List UInt8, (walMagic ++ rest).drop 8 = rest := fun rest => rfl
    have versionPart : ∀ rest : List UInt8,
      (walMagic ++ (leBytes 4 version ++ rest)).drop 12 = rest := fun rest => rfl
    have sizePart : ∀ rest : List UInt8,
      (walMagic ++ (leBytes 4 version ++ (leBytes 4 config.pageSize ++ rest))).drop 16
        = rest := fun rest => rfl
    unfold decode
    rw [if_neg (by simp [walMagic]), magicPart, take_left' (by simp), versionRead,
      versionPart, take_left' (by simp), pages, sizePart, take_left' (by simp),
      logicalEnd]
    dsimp only
    rw [if_neg fun both => accepted.elim both.1 both.2, if_neg (by omega)]
  unfold Wal.readHeader
  rw [if_neg (by omega), read]
  simp only [ok_bind, decoded]
  rw [if_neg (by simp), if_neg (by simpa using inside)]
  rfl

/-- Every header that recovery accepts is one, by reading its fields back. -/
theorem of_readHeader {path : String} {header : WalHeader}
    (read : Wal.readHeader config path file = .ok header)
    : HeaderAt file config.pageSize header.walEndOffset
      ∧ leNat (file.slice 16 8) = header.walEndOffset := by
  unfold Wal.readHeader at read
  split at read
  · cases read
  next room =>
    obtain ⟨bytes, bytesRead, read⟩ := bind_eq_ok.mp read
    obtain ⟨decoded, decodes, read⟩ := bind_eq_ok.mp read
    have whole : bytes = file.slice 0 32 := by
      rw [WalFrame.readExact, readExactAt, if_pos (by omega)] at bytesRead
      exact (Except.ok.inj bytesRead).symm
    have part (start length : Nat) (inside : start + length ≤ 32)
      : (bytes.drop start).take length = file.slice start length := by
      rw [whole, file.take_drop_slice 0 inside, zero_add]
    have back (start length : Nat)
      : leBytes length (leNat (file.slice start length)) = file.slice start length := by
      have same := leBytes_leNat (file.slice start length)
      rwa [ByteFile.length_slice] at same
    have magic := part 0 8 (by decide)
    rw [drop_zero] at magic
    unfold decode at decodes
    rw [magic, part 8 4 (by decide), part 12 4 (by decide), part 16 8 (by decide)] at decodes
    split at decodes
    · cases decodes
    next named =>
      dsimp only at decodes
      split at decodes
      · cases decodes
      next version =>
        split at decodes <;> cases decodes
        next valid =>
          dsimp only at read
          split at read
          · cases read
          next samePageSize =>
            split at read <;> cases read
            next inside =>
              dsimp only
              refine ⟨⟨by omega, by omega, by omega,
                ⟨leNat (file.slice 8 4), by omega, ?_⟩, (back 16 8).symm⟩, rfl⟩
              rw [not_not] at named samePageSize
              rw [← samePageSize, back, back, ← named, show 16 = 8 + (4 + 4) from rfl, slice_append,
                slice_append, append_assoc]

end HeaderAt

-- Batches and chunks

section Chunks

section

variable (header : HeaderAt storage.wal config.pageSize endOffset)
include header

/-- Growing the log keeps its header. -/
theorem HeaderAt.ensureCapacity
    (room : walHeaderSize ≤ requiredLen) (above : endOffset ≤ requiredLen)
    : HeaderAt (handle.ensureCapacity storage requiredLen).2.wal config.pageSize endOffset := by
  have grown := le_preallocatedLen requiredLen
  unfold WalHandle.ensureCapacity
  by_cases fits : requiredLen ≤ handle.allocatedLen
  · simpa only [fits, if_true] using header
  · simpa only [fits, if_false] using
    header.setLen (le_trans room grown) (le_trans above grown)

/-- A batch moves the end in the header exactly if it is the last one. -/
theorem HeaderAt.writeBatch (room : walHeaderSize ≤ progress.offset)
    (above : endOffset ≤ progress.offset) (pageBatch : List UInt8) (last : Bool)
    : HeaderAt (handle.writeBatch storage progress pageBatch last).2.1.wal config.pageSize
      (if last then (handle.writeBatch storage progress pageBatch last).2.2.offset
       else endOffset) := by
  cases last with
  | false =>
    have grown : HeaderAt (handle.ensureCapacity storage
      (progress.offset + pageBatch.length)).2.wal config.pageSize endOffset :=
      header.ensureCapacity (by omega) (by omega)
    exact grown.writeAllAt room pageBatch
  | true =>
    have grown : HeaderAt (handle.ensureCapacity storage
      (progress.offset + (pageBatch ++ commitFrame.bytes).length)).2.wal config.pageSize
      endOffset := header.ensureCapacity (by omega) (by omega)
    exact (grown.writeAllAt room (pageBatch ++ commitFrame.bytes)).writeEnd (by omega)
      (le_max_right _ _)

end

/-- What the preparation loop has done to a handle and its files so far. -/
structure Writing (config : WalConfig) (start : WalHandle) (main : PageId → Page)
    (handle : WalHandle) (storage : Storage) (progress : WalHandle.CommitProgress)
    : Prop where
  control : WalHandle.SameControl start handle
  moved : WalHandle.Moved config start handle
  main : storage.main = main
  room : walHeaderSize ≤ progress.offset
  ahead : start.walEndLsn ≤ progress.offset
  header : HeaderAt storage.wal config.pageSize
    (if progress.logicalEndWritten then progress.offset else start.walEndLsn)
  started : walHeaderSize ≤ progress.commitStartLsn

section

variable (header : HeaderAt storage.wal config.pageSize handle.walEndLsn)
include header

variable (pages)

/-- A commit starts after the header and after the end of the last one. -/
theorem beginCommit_offset : walHeaderSize ≤ (handle.beginCommit pages).offset
      ∧ handle.walEndLsn ≤ (handle.beginCommit pages).offset := by
  unfold beginCommit latestSnapshot
  rcases header.valid with fresh | used
  · simp [fresh]
  dsimp only
  split
  · exact ⟨le_rfl, by omega⟩
  · exact ⟨used, le_rfl⟩

/-- A commit that begins has changed nothing. -/
theorem beginCommit_writing
    : Writing config handle storage.main handle storage (handle.beginCommit pages) where
  control := .refl handle
  moved := .refl config handle
  main := rfl
  room := (beginCommit_offset header pages).1
  ahead := (beginCommit_offset header pages).2
  header := header
  started := (beginCommit_offset header pages).1

end

variable (writing : Writing config start main handle storage progress)
  (unfinished : progress.logicalEndWritten = false)
include writing unfinished

/-- Writing a batch after consulting the index keeps the account of the loop. -/
theorem Writing.writeBatch
    {pageBatch : List UInt8} {last : Bool} (control : SameControl handle consulted)
    (moved : Moved config handle consulted) (offset : staged.offset = progress.offset)
    (commitStart : staged.commitStartLsn = progress.commitStartLsn)
    (wrote : consulted.writeBatch storage staged pageBatch last = (after, filed, next))
    : Writing config start main after filed next := by
  have before := writing.header
  rw [unfinished] at before
  have header : HeaderAt (consulted.writeBatch storage staged pageBatch last).2.1.wal _ _ :=
    before.writeBatch (offset ▸ writing.room) (offset ▸ writing.ahead) pageBatch last
  have forward := writeBatch_offset consulted storage staged pageBatch last
  rw [wrote] at header forward
  obtain ⟨forward, -, ended⟩ := forward
  rw [offset] at forward
  have written := writeBatch_spec config wrote
  refine {
    control := writing.control.trans (control.trans written.control)
    moved := writing.moved.trans (moved.trans ?_)
    main := written.main.trans writing.main
    room := le_trans writing.room forward
    ahead := le_trans writing.ahead forward
    header := ?_
    started := ?_
  }
  · intro pageId
    rw [slot, slot, sidecarRecord, sidecarRecord, written.index, written.indexSidecar]
  · rw [show next.logicalEndWritten = last from ended]
    exact header
  · rw [written.progress]
    exact commitStart ▸ writing.started

/-- One turn of the preparation loop, whether it succeeds or not. -/
theorem Writing.writeChunk {result : DbResult WalHandle.CommitProgress}
    (wrote : handle.writeChunk config storage progress = (after, filed, result))
    : (∀ next, result = .ok next → Writing config start main after filed next)
      ∧ (∀ error, result = .error error → Writing config start main after filed progress) := by
  have prepares := handle.prepareNext_cacheOnly config storage progress
  have moves := handle.prepareNext_moved config storage progress
  unfold WalHandle.writeChunk at wrote
  split at wrote
  · cases wrote
    refine ⟨?_, nofun⟩
    rintro next same
    cases same
    exact writing.writeBatch unfinished (.refl handle) (.refl config handle) (by rfl) (by rfl) rfl
  split at wrote
  next consulted error outcome =>
    cases wrote
    rw [outcome] at prepares moves
    refine ⟨nofun, fun _ _ => ?_⟩
    exact { writing with
      control := writing.control.trans prepares.toSameControl
      moved := writing.moved.trans moves }
  next consulted batch outcome =>
    rw [outcome] at prepares moves
    cases wrote
    refine ⟨?_, nofun⟩
    rintro next same
    cases same
    exact writing.writeBatch unfinished prepares.toSameControl moves (by rfl) (by rfl) rfl

end Chunks

-- Whole commits

section Commits

/-- A turn takes at least one page off the input unless it writes the marker. -/
theorem writeChunk_inputPages
    (wrote : handle.writeChunk config storage progress = (after, filed, .ok next))
    : next.logicalEndWritten ∨ next.inputPages.length < progress.inputPages.length := by
  unfold writeChunk at wrote
  split at wrote
  · cases wrote
    exact .inl rfl
  next nonempty =>
    split at wrote <;> cases wrote
    refine .inr ?_
    have some : 0 < progress.inputPages.length := by simpa [length_pos_iff] using nonempty
    have limit : 1 ≤ walPrepareBatchPageLimit config.pageSize := le_max_right _ _
    simp only [length_drop]
    omega

/-- With a turn for every page and one more, the loop ends with the marker written. -/
theorem Writing.prepareAndWrite {result : DbResult CommitProgress} (turns : Nat)
    (writing : Writing config start main handle storage progress)
    (unfinished : progress.logicalEndWritten = false) (enough : progress.inputPages.length < turns)
    (wrote : handle.prepareAndWrite config turns storage progress = (after, filed, result))
    : (∀ last, result = .ok last
      → Writing config start main after filed last ∧ last.logicalEndWritten)
      ∧ (∀ error, result = .error error → ∃ last, last.logicalEndWritten = false
        ∧ Writing config start main after filed last) := by
  induction turns generalizing handle storage progress with
  | zero => omega
  | succ turns ih =>
    unfold prepareAndWrite at wrote
    split at wrote
    next failed error outcome =>
      cases wrote
      refine ⟨nofun, fun _ same => ⟨progress, unfinished, ?_⟩⟩
      exact (writing.writeChunk unfinished outcome).2 _ rfl
    next chunked written next outcome =>
      have chunk := (writing.writeChunk unfinished outcome).1 next rfl
      split at wrote
      next ended =>
        cases wrote
        refine ⟨?_, nofun⟩
        rintro last same
        cases same
        exact ⟨chunk, ended⟩
      next open_ =>
        have more : next.logicalEndWritten = false := by simpa using open_
        have fewer := (writeChunk_inputPages outcome).resolve_left open_
        exact ih chunk more (by omega) wrote

/-- All that a whole commit does besides adding versions. -/
structure CommitEffect (config : WalConfig) (handle after : WalHandle) (storage filed : Storage)
    (result : DbResult Nat) : Prop where
  readerRegistry : after.readerRegistry = handle.readerRegistry
  retainedSnapshotLsn : after.retainedSnapshotLsn = handle.retainedSnapshotLsn
  main : filed.main = storage.main
  header : HeaderAt filed.wal config.pageSize after.walEndLsn
  grows : handle.walEndLsn ≤ after.walEndLsn
  committed : ∀ lsn, result = .ok lsn → walHeaderSize ≤ after.walEndLsn

/-- A commit moves the end in the header with that of the handle, or moves neither. -/
theorem commitPages_effect {result : DbResult Nat}
    (header : HeaderAt storage.wal config.pageSize handle.walEndLsn) {pages : List (PageId × Page)}
    (committed : handle.commitPages config storage pages = (after, filed, result))
    : CommitEffect config handle after storage filed result := by
  have writing := beginCommit_writing header pages
  unfold commitPages at committed
  split at committed
  next failed written error outcome =>
    cases committed
    obtain ⟨last, unfinished, wrote⟩ :=
      (writing.prepareAndWrite _ rfl (by simp [beginCommit]) outcome).2 _ rfl
    have sameEnd := wrote.control.walEndLsn
    have ended := wrote.header
    rw [unfinished] at ended
    exact {
      readerRegistry := wrote.control.readerRegistry
      retainedSnapshotLsn := wrote.control.retainedSnapshotLsn
      main := wrote.main
      header := by rw [sameEnd]; exact ended
      grows := le_of_eq sameEnd.symm
      committed := by simp
    }
  next wrote written progress outcome =>
    cases committed
    obtain ⟨wrote, ended⟩ := (writing.prepareAndWrite _ rfl (by simp [beginCommit]) outcome).1 _ rfl
    have marked := wrote.header
    rw [ended] at marked
    exact {
      readerRegistry := wrote.control.readerRegistry
      retainedSnapshotLsn := wrote.control.retainedSnapshotLsn
      main := wrote.main
      header := marked
      grows := wrote.ahead
      committed := fun _ _ => wrote.room
    }

end Commits

end DecentDb.Wal
