import DecentDb.Wal.OpenContent
import Mathlib.Tactic.IntervalCases

/-! Bytes before the end that are no whole frame: with the bytes of the next commit they are read
as a frame, and the commit is read at the wrong places from there on.
-/

namespace DecentDb.Wal

open FrameType FramesAt List Replay WalFrame

-- Frames that are read at the wrong place

/-- The first frame of the commit: the header page, filled with one byte. -/
def filledFrame (pageSize : Nat) (value : UInt8) : WalFrame :=
  { frameType := .page, pageId := headerPageId, payload := replicate pageSize value }

/-- The bytes of a frame of page 1 with equal cells. -/
theorem bytes_filledFrame (pageSize : Nat) (value : UInt8) : (filledFrame pageSize value).bytes
      = [0, 1, 0, 0, 0] ++ (replicate pageSize value ++ replicate 8 0) := by
  have pageId : LittleEndian.leBytes 4 (filledFrame pageSize value).pageId.toNat = [1, 0, 0, 0] :=
    (by decide : LittleEndian.leBytes 4 headerPageId.toNat = [1, 0, 0, 0])
  rw [bytes, append_assoc, pageId]
  rfl

/-- Its length is that of a page frame. -/
theorem encodedLen_filledFrame (pageSize : Nat) (value : UInt8)
    : (filledFrame pageSize value).encodedLen pageSize = pageSize + 13 := by
  simp only [filledFrame, encodedLen, payloadSize, frameHeaderSize, frameTrailerSize]
  omega

variable {file changed : ByteFile} {frame : WalFrame}
  {pageSize offset logicalEnd newEnd start lsn : Nat} {config : WalConfig} {value : UInt8}
  {storage : Storage} {replay next : Replay}

/-- The bytes of a stored frame. -/
theorem FrameAt.byteAt (stored : FrameAt file offset pageSize frame)
    {index : Nat} (inside : index < frame.encodedLen pageSize)
    : file.byteAt (offset + index) = frame.bytes.getD index 0 := by
  rw [← stored.bytes, getD_eq_getElem?_getD, ByteFile.getElem?_slice _ inside]
  rfl

/-- No frame type. -/
def FillByte (value : UInt8) : Prop := value = 255 ∨ value = 254 ∨ value = 253

section Misread

variable {index : Nat}
  (stored : FramesAt file config.pageSize start [filledFrame config.pageSize value, commitFrame])
include stored

/-- The bytes that a commit of the filled page writes. -/
theorem byteAt_filledCommit (inside : index < config.pageSize + 26)
    (notMarker : index ≠ config.pageSize + 13)
    : file.byteAt (start + index) = if index = 1 then 1
        else if 5 ≤ index ∧ index < config.pageSize + 5 then value else 0 := by
  obtain ⟨pageStored, markerStored, -⟩ := stored
  have length := encodedLen_filledFrame config.pageSize value
  by_cases page : index < config.pageSize + 13
  · rw [pageStored.byteAt (by omega)]
    rw [bytes_filledFrame]
    by_cases head : index < 5
    · interval_cases index <;> rfl
    have five : ([0, 1, 0, 0, 0] : List UInt8).length = 5 := rfl
    rw [getD_append_right _ _ _ _ (by omega), five, if_neg (by omega)]
    by_cases payload : index < config.pageSize + 5
    · rw [getD_append _ _ _ _ (by rw [length_replicate]; omega),
      getD_replicate _ (by omega), if_pos (by omega)]
    · rw [getD_append_right _ _ _ _ (by rw [length_replicate]; omega),
      length_replicate, getD_replicate _ (by omega), if_neg (by omega)]
  obtain ⟨rest, rfl⟩ := Nat.exists_eq_add_of_le (not_lt.mp page)
  have markerLength : commitFrame.encodedLen config.pageSize = 13 := rfl
  have short : rest < commitFrame.encodedLen config.pageSize := by omega
  have marker := markerStored.byteAt short
  rw [length, add_assoc] at marker
  rw [marker, if_neg (by omega), if_neg (by omega)]
  have late : 1 ≤ rest := by omega
  have early : rest < 13 := by omega
  interval_cases rest <;> rfl

/-- Within the commit, but not at one of its frames, nothing but a page frame can be read, and
that only within the first page id.
-/
theorem misread (fill : FillByte value) (ends : lsn = start + (config.pageSize + 26))
    (positive : 1 ≤ index) (inside : index < config.pageSize + 26)
    (notMarker : index ≠ config.pageSize + 13)
    (decoded : decodeFromFile file (start + index) config.pageSize lsn = .ok (some frame))
    : frame.frameType = .page ∧ index ≤ 4 := by
  have spec := decodeFromFile_spec decoded
  have bounds := config.pageSize_bounds
  have typed := spec.frameType
  have firstByte : (file.slice (start + index) frameHeaderSize).getD 0 0
    = file.byteAt (start + index) := by
    rw [getD_eq_getElem?_getD, ByteFile.getElem?_slice _ (by decide), add_zero]
    rfl
  rw [firstByte, byteAt_filledCommit stored inside notMarker] at typed
  by_cases one : index = 1
  · -- The low byte of the page id stands for a marker, which must not name a page.
    subst one
    rw [if_pos rfl] at typed
    have marker : commit = frame.frameType := Except.ok.inj typed
    have rule := spec.wellFormed.pageId
    rw [← marker] at rule
    have named := spec.pageId
    have header : file.slice (start + 1) frameHeaderSize = [1, 0, 0, 0, value] := by
      have sizes : frameHeaderSize = 5 := rfl
      have whole := stored.1.bytes
      rw [encodedLen_filledFrame, bytes_filledFrame] at whole
      rw [← file.take_drop_slice start (by omega : 1 + frameHeaderSize ≤ config.pageSize + 13),
        whole]
      obtain ⟨less, size⟩ : ∃ less, config.pageSize = less + 1 := ⟨config.pageSize - 1, by omega⟩
      rw [size]
      rfl
    rw [header] at named
    exfalso
    refine absurd (rule.mpr ?_) (by decide)
    rw [named]
    rcases fill with rfl | rfl | rfl <;> decide
  rw [if_neg one] at typed
  by_cases payload : 5 ≤ index ∧ index < config.pageSize + 5
  · rw [if_pos payload] at typed
    rcases fill with rfl | rfl | rfl <;> cases typed
  rw [if_neg payload] at typed
  have page : page = frame.frameType := Except.ok.inj typed
  have room := spec.inside
  simp only [encodedLen, ← page, payloadSize, frameHeaderSize, frameTrailerSize] at room
  exact ⟨page.symm, by omega⟩

end Misread

-- Bytes that are no whole frame

/-- Two readings of one file from one offset agree as far as they go. -/
theorem ReadsAs.extends
    {frames all : List WalFrame} (reads : ReadsAs file pageSize logicalEnd offset frames)
    (further : ReadsAs file pageSize logicalEnd offset all)
    (stopped : decodeFromFile file (offset + framesLen pageSize all) pageSize logicalEnd = .ok none)
    : ∃ rest, all = frames ++ rest := by
  induction frames generalizing offset all with
  | nil => exact ⟨all, rfl⟩
  | cons frame more ih =>
    cases all with
    | nil =>
      rw [framesLen_nil, add_zero, reads.1] at stopped
      cases stopped
    | cons other others =>
      have same := reads.1.symm.trans further.1
      cases same
      rw [framesLen_cons, ← add_assoc] at stopped
      obtain ⟨rest, rfl⟩ := ih reads.2 further.2 stopped
      exact ⟨rest, rfl⟩

/-- A frame can be complete only with bytes past an end that cut it off. -/
theorem end_lt_of_cut (cut : decodeFromFile file offset pageSize logicalEnd = .ok none)
    (decoded : decodeFromFile changed offset pageSize newEnd = .ok (some frame))
    (fileSize : logicalEnd ≤ file.size)
    (same : ∀ position, offset ≤ position → position < logicalEnd
      → changed.byteAt position = file.byteAt position)
    : logicalEnd < offset + frame.encodedLen pageSize := by
  by_contra inside
  have whole : decodeFromFile file offset pageSize logicalEnd = .ok (some frame) :=
    (decodeFromFile_spec decoded).decodeFromFile (by omega) fileSize
      fun position low high => (same position low (by omega)).symm
  rw [cut] at whole
  cases whole

namespace Replay

/-- A frame commits the pending pages or leaves the index. -/
theorem Replayed.index (replayed : Replayed storage pageSize offset replay frame next)
    : (next.index = replay.index ∨ next.index = replay.commitPending.index)
      ∧ (frame.frameType = .page → next.index = replay.index) := by
  cases replayed with
  | page | delta | checkpoint => exact ⟨.inl rfl, fun _ => rfl⟩
  | commit type => exact ⟨.inr rfl, fun page => by rw [type] at page; cases page⟩

end Replay

/-- One of the filled pages is neither of two given pages. -/
theorem exists_fillByte (positive : 0 < pageSize) (left right : Option Page)
    : ∃ value, FillByte value ∧ left ≠ some (replicate pageSize value)
      ∧ right ≠ some (replicate pageSize value) := by
  have different {first second : UInt8} (other : first ≠ second)
    : replicate pageSize first ≠ replicate pageSize second := by
    intro same
    rw [replicate_right_inj (by omega)] at same
    exact other same
  by_contra none
  have each (value : UInt8) (fill : FillByte value) : left = some (replicate pageSize value)
      ∨ right = some (replicate pageSize value) := by
    by_contra neither
    rw [not_or] at neither
    exact none ⟨value, fill, neither⟩
  have first := each 255 (.inl rfl)
  have second := each 254 (.inr (.inl rfl))
  have third := each 253 (.inr (.inr rfl))
  have one := different (by decide : (255 : UInt8) ≠ 254)
  have two := different (by decide : (255 : UInt8) ≠ 253)
  have three := different (by decide : (254 : UInt8) ≠ 253)
  grind

/-- What the frames after the cut can do: commit what was pending, but not the page of the
commit behind it.
-/
theorem index_after_cut
    (stored : FramesAt file config.pageSize start [filledFrame config.pageSize value, commitFrame])
    (fill : FillByte value) (ends : lsn = start + (config.pageSize + 26)) (before : offset < start)
    {rest : List WalFrame} (reads : ReadsAs file config.pageSize lsn offset rest)
    (cut : ∀ frame ∈ rest.head?, start < offset + frame.encodedLen config.pageSize)
    {replay final : Replay}
    (ran : replayList storage config.pageSize offset replay rest = .ok final)
    : final.index = replay.index ∨ final.index = replay.commitPending.index := by
  have bounds := config.pageSize_bounds
  have sizes : frameHeaderSize = 5 ∧ frameTrailerSize = 8 ∧ deltaFramePayloadSize = 512 :=
    ⟨rfl, rfl, rfl⟩
  cases rest with
  | nil =>
    cases ran
    exact .inl rfl
  | cons frame later =>
    have past := cut frame rfl
    have length := frame.encodedLen_bounds config.pageSize
    obtain ⟨index, position⟩ := Nat.exists_eq_add_of_lt past
    rw [add_assoc] at position
    obtain ⟨middle, first, ran⟩ := bind_eq_ok.mp ran
    obtain ⟨-, reads⟩ := reads
    rw [position] at ran reads
    have commits := (replayed_of_replayFrame first).index.1
    cases later with
    | nil =>
      cases ran
      exact commits
    | cons other more =>
      obtain ⟨decoded, reads⟩ := reads
      obtain ⟨page, low⟩ := misread stored fill ends (by omega) (by omega) (by omega) decoded
      obtain ⟨next, second, ran⟩ := bind_eq_ok.mp ran
      have kept := (replayed_of_replayFrame second).index.2 page
      have otherLength : other.encodedLen config.pageSize = config.pageSize + 13 := by
        rw [encodedLen, page]
        simp only [payloadSize]
        omega
      cases more with
      | nil =>
        cases ran
        rwa [kept]
      | cons third others =>
        obtain ⟨decoded, -⟩ := reads
        rw [otherLength, add_assoc] at decoded
        have impossible := misread stored fill ends (by omega) (by omega) (by omega) decoded
        omega

/-- The images that are shown if at most the pending pages were committed. -/
theorem pageImage_after_cut {first second : Recovered} {last final : Replay}
    (firstIndex : first.index = last.index) (secondIndex : second.index = final.index)
    (main : second.storage.main = first.storage.main)
    (settled : final.index = last.index ∨ final.index = last.commitPending.index) (pageId : PageId)
    : first.pageImage pageId = second.pageImage pageId
      ∨ last.pendingPages[pageId]?.map PendingRecoveryPage.data = second.pageImage pageId := by
  have unchanged (same : second.index.versions pageId = first.index.versions pageId)
      : first.pageImage pageId = second.pageImage pageId := by
    unfold Recovered.pageImage
    rw [same, main]
  rcases settled with same | committed
  · exact .inl (unchanged (by rw [secondIndex, same, firstIndex]))
  have versions : second.index.versions pageId
      = (last.commitPending.index.pages[pageId]?).getD [] := by
    rw [secondIndex, committed]
    rfl
  rw [pages_commitPending] at versions
  cases found : last.pendingPages[pageId]? with
  | none =>
    rw [found] at versions
    exact .inl (unchanged (by rw [versions, firstIndex]; rfl))
  | some page =>
    rw [found] at versions
    right
    unfold Recovered.pageImage
    rw [versions]
    rfl

/-- Behind bytes that are no whole frame, a commit of the header page is lost. -/
theorem Accepted.hides_after_tail {path : String} {first : Recovered} {frames : List WalFrame}
    {last : Replay} (accepted : Accepted config first.storage first.endLsn frames last)
    (mainPages : ∀ pageId, (first.storage.main pageId).length = config.pageSize)
    (index : first.index = last.index) (small : first.endLsn < 2 ^ 63)
    (tail : walHeaderSize + framesLen config.pageSize frames < first.endLsn)
    : HidesCommit config path first := by
  have bounds := config.pageSize_bounds
  obtain ⟨value, fill, notFirst, notPending⟩ := exists_fillByte (by omega : 0 < config.pageSize)
    (first.pageImage headerPageId) (last.pendingPages[headerPageId]?.map PendingRecoveryPage.data)
  have whole : ∀ image ∈ [replicate config.pageSize value], image.length = config.pageSize := by
    simp
  obtain ⟨after, filed, lsn, offers, edits, committed, stored⟩ :=
    accepted.commits_header mainPages index whole
  have fits := stored.fits small (by simp [maxPendingRecoveryFrames])
  refine ⟨_, after, filed, lsn, committed, fits, by simp [maxPendingRecoveryFrames], ?_⟩
  rintro ⟨second, ran, images⟩
  have start : commitStart first.endLsn = first.endLsn := if_neg (by omega)
  have frameStored : FramesAt filed.wal config.pageSize first.endLsn
    [filledFrame config.pageSize value, commitFrame] := start ▸ stored.stored
  have ends : lsn = first.endLsn + (config.pageSize + 26) := by
    rw [stored.ends, start, map_singleton, framesLen_append,
      framesLen_cons, framesLen_cons, framesLen_nil]
    have page := encodedLen_filledFrame config.pageSize value
    have marker : commitFrame.encodedLen config.pageSize = 13 := rfl
    rw [filledFrame] at page
    omega
  obtain ⟨sameStorage, sameEnd, -⟩ := initializeOrRecover_eq_ok stored.header fits ran
  obtain ⟨-, -, -, all, final, again, secondIndex, -⟩ := initializeOrRecover_accepted ran
  rw [sameStorage, sameEnd] at again
  have kept : ∀ position, walHeaderSize ≤ position → position < first.endLsn
    → filed.wal.byteAt position = first.storage.wal.byteAt position :=
    fun position low high => stored.kept position low (by rwa [start])
  have readsAgain : ReadsAs filed.wal config.pageSize lsn walHeaderSize frames :=
    accepted.reads.again (by omega) stored.header.inside
      fun position low high => kept position low (by omega)
  obtain ⟨rest, rfl⟩ := readsAgain.extends again.reads again.stopped
  have tailReads := (ReadsAs.append.mp again.reads).2
  have replayed := again.replayed
  rw [replayList_congr stored.main, replayList_append, accepted.replayed] at replayed
  have cut : ∀ frame ∈ rest.head?, first.endLsn
    < walHeaderSize + framesLen config.pageSize frames + frame.encodedLen config.pageSize := by
    intro frame head
    cases rest with
    | nil => cases head
    | cons other more =>
      cases head
      exact end_lt_of_cut accepted.stopped tailReads.1 accepted.header.inside
        fun position low high => kept position (by omega) high
  have settled := index_after_cut frameStored fill ends tail tailReads cut replayed
  have shown : second.pageImage headerPageId = some (replicate config.pageSize value) := by
    rw [images]
    simp
  have sameMain : second.storage.main = first.storage.main := by rw [sameStorage, stored.main]
  rcases pageImage_after_cut index secondIndex sameMain settled headerPageId with same | same
  · exact notFirst (same.trans shown)
  · exact notPending (same.trans shown)

end DecentDb.Wal
