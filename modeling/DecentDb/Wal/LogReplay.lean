import DecentDb.Library.Lists
import DecentDb.Wal.Recovery

/-! The replay loop over frames that can be read from the file, and the pages that it rebuilds
from a log of page edits.
-/

namespace DecentDb.Wal

open ByteFile FramesAt List Replay Std.ExtTreeMap WalFrame WalIndex

open Overlays (Edit)
open LittleEndian (leBytes leBytes_leNat leNat leNat_lt)

-- Frames that can be read

/-- What a decoded frame says about the file. -/
structure DecodedAt (file : ByteFile) (offset pageSize logicalEnd : Nat) (frame : WalFrame)
    : Prop where
  wellFormed : frame.WellFormed pageSize
  inside : offset + frame.encodedLen pageSize ≤ logicalEnd
  fileSize : offset + frame.encodedLen pageSize ≤ file.size
  frameType : FrameType.tryFrom ((file.slice offset frameHeaderSize).getD 0 0) = .ok frame.frameType
  pageId : frame.pageId = UInt32.ofNat (leNat ((file.slice offset frameHeaderSize).drop 1))
  payload : frame.payload = (file.slice (offset + frameHeaderSize)
    (frame.frameType.payloadSize pageSize + frameTrailerSize)).take
      (frame.frameType.payloadSize pageSize)

variable {file changed : ByteFile} {offset length logicalEnd pageSize newEnd turns : Nat}
  {frame checked : WalFrame} {frames : List WalFrame} {storage : Storage} {replay last : Replay}
  {edit : PageEdit}

/-- A read that succeeds lies inside of the file. -/
theorem readExact_eq_ok {bytes : List UInt8} (read : readExact file offset length = .ok bytes)
    : offset + length ≤ file.size ∧ bytes = file.slice offset length := by
  unfold readExact readExactAt at read
  by_cases inside : offset + length ≤ file.size
  · rw [if_pos inside] at read
    exact ⟨inside, (Except.ok.inj read).symm⟩
  · rw [if_neg inside] at read
    cases read

/-- Frames that carry a page name one, and others name none. -/
theorem checkPageId_eq_ok (accepted : frame.checkPageId = .ok checked)
    : checked = frame ∧ (frame.frameType.carriesPage ↔ frame.pageId ≠ 0) := by
  unfold checkPageId at accepted
  split at accepted
  · cases accepted
  split at accepted
  · cases accepted
  · refine ⟨(Except.ok.inj accepted).symm, ?_⟩
    tauto

/-- What a frame that is read says about the file. -/
theorem decodeFromFile_spec
    (decoded : decodeFromFile file offset pageSize logicalEnd = .ok (some frame))
    : DecodedAt file offset pageSize logicalEnd frame := by
  unfold decodeFromFile at decoded
  split at decoded
  · cases decoded
  split at decoded
  · cases decoded
  obtain ⟨header, headerRead, decoded⟩ := bind_eq_ok.mp decoded
  obtain ⟨frameType, typed, decoded⟩ := bind_eq_ok.mp decoded
  obtain ⟨headerInside, rfl⟩ := readExact_eq_ok headerRead
  dsimp only at decoded
  split at decoded
  · cases decoded
  next fits =>
    obtain ⟨body, bodyRead, decoded⟩ := bind_eq_ok.mp decoded
    obtain ⟨bodyInside, rfl⟩ := readExact_eq_ok bodyRead
    obtain ⟨checked, accepted, made⟩ := bind_eq_ok.mp decoded
    obtain ⟨rfl, rule⟩ := checkPageId_eq_ok accepted
    cases made
    refine ⟨⟨?_, rule⟩, ?_, ?_, typed, rfl, rfl⟩
    · rw [length_take, length_slice, Nat.min_eq_left (Nat.le_add_right _ _)]
    · exact not_lt.mp fits
    · dsimp only [encodedLen]
      omega

namespace DecodedAt

variable (decoded : DecodedAt file offset pageSize logicalEnd frame)
include decoded

/-- A stored frame begins with its type and its page id. -/
theorem header : file.slice offset frameHeaderSize
    = frame.frameType.toByte :: leBytes 4 frame.pageId.toNat := by
  obtain ⟨-, -, -, typed, named, -⟩ := decoded
  have header := length_slice file offset frameHeaderSize
  obtain ⟨byte, rest, whole⟩ := exists_cons_of_length_eq_add_one header
  rw [whole] at header typed named ⊢
  have four : rest.length = 4 := Nat.succ.inj header
  have small := leNat_lt rest
  rw [four] at small
  rw [named, drop_one, tail_cons, UInt32.toNat_ofNat_of_lt' small, ← four, leBytes_leNat]
  congr
  unfold FrameType.tryFrom at typed
  grind [FrameType.toByte]

/-- Its payload follows. -/
theorem body : file.slice (offset + frameHeaderSize) (frame.frameType.payloadSize pageSize)
    = frame.payload := by
  rw [decoded.payload, slice_append, take_left' (length_slice ..)]

/-- A decoded frame is decoded again from every file with the same bytes there. -/
theorem decodeFromFile
    (inside : offset + frame.encodedLen pageSize ≤ newEnd) (fileSize : newEnd ≤ changed.size)
    (same : ∀ position, offset ≤ position → position < offset + frame.encodedLen pageSize
      → changed.byteAt position = file.byteAt position)
    : WalFrame.decodeFromFile changed offset pageSize newEnd = .ok (some frame) := by
  obtain ⟨total, positive⟩ := frame.encodedLen_parts pageSize
  refine decoded.wellFormed.decodeFromFile (le_min inside (inside.trans fileSize)) ?_ ?_
  · rw [← decoded.header]
    exact slice_congr fun _ low _ => same _ low (by omega)
  · rw [← decoded.body]
    exact slice_congr fun _ _ _ => same _ (by omega) (by omega)

end DecodedAt

/-- A frame is decoded from exactly the bytes that are written for it, up to the trailer, if they
lie in the file before the logical end.
-/
theorem decoded_frame_iff : decodeFromFile file offset pageSize logicalEnd = .ok (some frame)
    ↔ frame.WellFormed pageSize ∧ offset + frame.encodedLen pageSize ≤ min logicalEnd file.size
      ∧ frame.bytes = file.slice offset (frameHeaderSize + frame.frameType.payloadSize pageSize)
        ++ replicate frameTrailerSize 0 := by
  rw [slice_append, WalFrame.bytes, append_left_inj]
  constructor
  · intro decoded
    have found := decodeFromFile_spec decoded
    exact ⟨found.wellFormed, le_min found.inside found.fileSize, by rw [found.header, found.body]⟩
  · rintro ⟨wellFormed, inside, bytes⟩
    obtain ⟨header, payload⟩ := append_inj bytes (by simp [frameHeaderSize])
    exact wellFormed.decodeFromFile inside header.symm payload.symm

/-- Decoding from the offset on gives the frames, one after the other. -/
def ReadsAs (file : ByteFile) (pageSize logicalEnd : Nat) : Nat → List WalFrame → Prop
  | _, [] => True
  | offset, frame :: rest =>
    WalFrame.decodeFromFile file offset pageSize logicalEnd = .ok (some frame)
    ∧ ReadsAs file pageSize logicalEnd (offset + frame.encodedLen pageSize) rest

/-- Stored frames are read one after the other. -/
theorem FramesAt.readsAs (stored : FramesAt file pageSize offset frames)
    (inside : offset + framesLen pageSize frames ≤ logicalEnd)
    : ReadsAs file pageSize logicalEnd offset frames := by
  induction frames generalizing offset with
  | nil => trivial
  | cons frame rest ih =>
    rw [framesLen_cons] at inside
    exact ⟨stored.1.decodeFromFile (by omega), ih stored.2 (by omega)⟩

/-- Frames that are read end at the logical end or before it. -/
theorem ReadsAs.inside (reads : ReadsAs file pageSize logicalEnd offset frames)
    : frames = [] ∨ offset + framesLen pageSize frames ≤ logicalEnd := by
  induction frames generalizing offset with
  | nil => exact .inl rfl
  | cons frame rest ih =>
    right
    have inside := (decodeFromFile_spec reads.1).inside
    rw [framesLen_cons, ← add_assoc]
    rcases ih reads.2 with rfl | rest
    · rwa [framesLen_nil, add_zero]
    · exact rest

-- The loop

namespace Replay

/-- The replay loop over frames that are read already. -/
def replayList (storage : Storage) (pageSize : Nat) : Nat → Replay → List WalFrame → DbResult Replay
  | _, replay, [] => .ok replay
  | offset, replay, frame :: rest => do
    let next ← replay.replayFrame storage pageSize offset frame
    replayList storage pageSize (offset + frame.encodedLen pageSize) next rest

/-- By induction on the first frames. -/
theorem replayList_append (first second : List WalFrame) (offset : Nat) (replay : Replay)
    : replayList storage pageSize offset replay (first ++ second)
      = (replayList storage pageSize offset replay first).bind fun middle =>
        replayList storage pageSize (offset + framesLen pageSize first) middle second := by
  induction first generalizing offset replay with
  | nil => rfl
  | cons frame rest ih =>
    simp only [cons_append, replayList]
    cases replay.replayFrame storage pageSize offset frame with
    | error error => rfl
    | ok next => simp only [ok_bind, ih, framesLen_cons, add_assoc]

/-- The loop reads the frames of the file, one in each turn. -/
theorem replayFrames_reads (reads : ReadsAs storage.wal pageSize logicalEnd offset frames)
    (turns : Nat) (replay : Replay)
    : replayFrames storage pageSize logicalEnd (frames.length + turns) offset replay
      = (replayList storage pageSize offset replay frames).bind fun middle =>
        replayFrames storage pageSize logicalEnd turns (offset + framesLen pageSize frames)
          middle := by
  induction frames generalizing offset replay with
  | nil =>
    rw [length_nil, zero_add]
    rfl
  | cons frame rest ih =>
    obtain ⟨decoded, others⟩ := reads
    have open_ := (decodeFromFile_spec decoded).inside
    have positive := frame.encodedLen_pos pageSize
    rw [length_cons, add_right_comm, replayFrames, if_pos (by omega), decoded]
    simp only [ok_bind, replayList]
    cases replay.replayFrame storage pageSize offset frame with
    | error error => rfl
    | ok next =>
      simp only [ok_bind, framesLen_cons, ← add_assoc]
      exact ih others next

/-- A loop that ends well has read frames until there was no whole one left. -/
theorem replayFrames_eq_ok (enough : logicalEnd ≤ offset + turns)
    (ran : replayFrames storage pageSize logicalEnd turns offset replay = .ok last)
    : ∃ frames, ReadsAs storage.wal pageSize logicalEnd offset frames
      ∧ replayList storage pageSize offset replay frames = .ok last
      ∧ decodeFromFile storage.wal (offset + framesLen pageSize frames) pageSize logicalEnd
        = .ok none := by
  have atEnd {offset : Nat} (ended : logicalEnd ≤ offset)
    : decodeFromFile storage.wal offset pageSize logicalEnd = .ok none := by
    rw [decodeFromFile, if_pos ended]
  induction turns generalizing offset replay with
  | zero =>
    cases ran
    exact ⟨[], trivial, rfl, atEnd enough⟩
  | succ turns ih =>
    rw [replayFrames] at ran
    split at ran
    next more =>
      obtain ⟨found, decoded, later⟩ := bind_eq_ok.mp ran
      cases found with
      | none =>
        cases later
        exact ⟨[], trivial, rfl, decoded⟩
      | some frame =>
        obtain ⟨next, replayed, rest⟩ := bind_eq_ok.mp later
        have positive := frame.encodedLen_pos pageSize
        obtain ⟨frames, reads, list, stopped⟩ := ih (by omega) rest
        refine ⟨frame :: frames, ⟨decoded, reads⟩, ?_, ?_⟩
        · rw [replayList, replayed]
          exact list
        · rw [framesLen_cons, ← add_assoc]
          exact stopped
    next ended =>
      cases ran
      exact ⟨[], trivial, rfl, atEnd (by omega)⟩

end Replay

/-- Every frame takes bytes. -/
theorem length_le_framesLen (pageSize : Nat) (frames : List WalFrame)
    : frames.length ≤ framesLen pageSize frames := by
  induction frames with
  | nil => exact Nat.le_refl 0
  | cons frame rest ih =>
    have positive := frame.encodedLen_pos pageSize
    rw [length_cons, framesLen_cons]
    omega

/-- A file that reads as the frames up to its logical end is replayed as their list. -/
theorem Replay.replayFrames_whole
    (reads : ReadsAs storage.wal pageSize logicalEnd walHeaderSize frames)
    (ended : logicalEnd ≤ walHeaderSize + framesLen pageSize frames) (replay : Replay)
    : replayFrames storage pageSize logicalEnd logicalEnd walHeaderSize replay
      = replayList storage pageSize walHeaderSize replay frames := by
  have enough := length_le_framesLen pageSize frames
  have turns : logicalEnd = frames.length + (logicalEnd - frames.length) := by
    rcases reads.inside with rfl | inside
    · simp
    · omega
  have whole := replayFrames_reads reads (logicalEnd - frames.length) replay
  rw [← turns] at whole
  rw [whole]
  cases replayList storage pageSize walHeaderSize replay frames with
  | error error => rfl
  | ok last =>
    -- Nothing is left, with or without turns.
    cases logicalEnd - frames.length with
    | zero => rfl
    | succ turns =>
      rw [Except.bind, replayFrames, if_neg (by omega)]
      rfl

/-- The image of a page after recovery: that of its newest indexed version, else the main
file's. A version without bytes has none.
-/
def Recovered.pageImage (recovered : Recovered) (pageId : PageId) : Option Page :=
  match (recovered.index.versions pageId).getLast? with
  | some { payload := .resident data .., .. } => some data
  | some { payload := .onDisk .., .. } => none
  | none => some (recovered.storage.main pageId)

-- Edits and their frames

abbrev PageEdit := PageId × Edit UInt8

/-- A frame that writes an edit down: the image, or the delta against its base. -/
inductive Records (pageSize : Nat) : PageEdit → WalFrame → Prop where
  | page {pageId : PageId} {image : Page} (nonzero : pageId ≠ 0)
    (length : image.length = pageSize)
    : Records pageSize (pageId, .whole image)
      { frameType := .page, pageId, payload := image }
  | delta {pageId : PageId} {base image : Page} {payload : List UInt8} (nonzero : pageId ≠ 0)
    (length : image.length = pageSize) (encoded : encodePageDelta base image = some payload)
    : Records pageSize (pageId, .patch base image)
      { frameType := .pageDelta, pageId, payload }

namespace Records

/-- A recorded edit fits the page. -/
theorem sized (records : Records pageSize edit frame) : edit.2.Sized pageSize := by
  cases records with
  | page _ length => exact length
  | delta _ length encoded => exact ⟨(length_eq_of_encodePageDelta encoded).trans length, length⟩

/-- A frame that records an edit is well formed. -/
theorem wellFormed (records : Records pageSize edit frame) : frame.WellFormed pageSize := by
  cases records with
  | page nonzero length => exact ⟨length, by simp [FrameType.carriesPage, nonzero]⟩
  | delta nonzero _ encoded =>
    exact ⟨length_encodePageDelta encoded, by simp [FrameType.carriesPage, nonzero]⟩

end Records

/-- The edits of one page, in order. -/
def editsOf (pageId : PageId) (edits : List PageEdit) : List (Edit UInt8) :=
  (edits.filter (·.1 = pageId)).map Prod.snd

variable (pageId)

/-- No edits are those of no page. -/
@[simp]
theorem editsOf_nil : editsOf pageId [] = [] := rfl

/-- The edits of a page, in order. -/
@[simp]
theorem editsOf_append (edits more : List PageEdit)
    : editsOf pageId (edits ++ more) = editsOf pageId edits ++ editsOf pageId more := by
  simp [editsOf]

/-- One edit is that of its page. -/
@[simp]
theorem editsOf_single (edit : PageEdit)
    : editsOf pageId [edit] = if edit.1 = pageId then [edit.2] else [] := by
  by_cases same : edit.1 = pageId <;> simp [editsOf, same]

variable {pageId : PageId} {edits committed pending : List PageEdit} {log : List (List PageEdit)}
  {main : PageId → Page} {pages : List (PageId × PendingRecoveryPage)}

/-- The edits of a page are those that name it. -/
theorem mem_editsOf {edit : Edit UInt8} : edit ∈ editsOf pageId edits ↔ (pageId, edit) ∈ edits := by
  simp [editsOf]

/-- The frames of committed transactions, each followed by its marker. -/
inductive LogFrames (pageSize : Nat) : List (List PageEdit) → List WalFrame → Prop where
  | nil : LogFrames pageSize [] []
  | snoc {log : List (List PageEdit)} {frames more : List WalFrame} {edits : List PageEdit}
    (earlier : LogFrames pageSize log frames)
    (records : List.Forall₂ (Records pageSize) edits more)
    : LogFrames pageSize (log ++ [edits]) (frames ++ (more ++ [commitFrame]))

/-- All edits of a log fit the page. -/
theorem LogFrames.sized (logged : LogFrames pageSize log frames)
    : ∀ edit ∈ log.flatten, edit.2.Sized pageSize := by
  induction logged with
  | nil => exact nofun
  | snoc earlier records ih =>
    rw [flatten_append, flatten_singleton]
    exact forall_mem_append.mpr ⟨ih, fun edit member =>
      (records.exists_of_mem member).elim fun _ frame => frame.2.sized⟩

-- The rebuilt pages

/-- The page that the edits leave of its main-file image. -/
def rebuilt (main : PageId → Page) (edits : List PageEdit) (pageId : PageId) : Page :=
  Overlays.replay (editsOf pageId edits) (main pageId)

/-- A page that no edit names keeps its image. -/
theorem rebuilt_of_unedited (unedited : editsOf pageId edits = [])
    : rebuilt main edits pageId = main pageId := by
  rw [rebuilt, unedited]
  rfl

/-- The last edit is applied to its page. -/
theorem rebuilt_snoc (main : PageId → Page) (edits : List PageEdit) (edit : PageEdit)
    (pageId : PageId)
    : rebuilt main (edits ++ [edit]) pageId
      = if edit.1 = pageId then edit.2.apply (rebuilt main edits pageId)
        else rebuilt main edits pageId := by
  rw [rebuilt, editsOf_append, editsOf_single, Overlays.replay_append]
  by_cases same : edit.1 = pageId
  · rw [if_pos same, if_pos same]
    rfl
  · rw [if_neg same, if_neg same]
    rfl

/-- A rebuilt page is a whole page. -/
theorem length_rebuilt (mainPage : (main pageId).length = pageSize)
    (sized : ∀ edit ∈ edits, edit.2.Sized pageSize)
    : (rebuilt main edits pageId).length = pageSize := by
  rw [rebuilt, Overlays.length_replay, mainPage]
  intro edit member
  rw [mainPage]
  exact sized (pageId, edit) (mem_editsOf.mp member)

namespace Replay

/-- The replay has seen the committed edits and, after the last marker, the pending ones. -/
structure Holds (pageSize : Nat) (main : PageId → Page) (committed pending : List PageEdit)
    (replay : Replay) : Prop where
  sized : ∀ edit ∈ committed ++ pending, edit.2.Sized pageSize
  pendingFrames : replay.pendingFrames = pending.length
  pendingSize : replay.pendingPages.size ≤ pending.length
  unindexed : ∀ pageId, editsOf pageId committed = [] → replay.index.pages[pageId]? = none
  indexed : ∀ pageId, editsOf pageId committed ≠ [] → ∃ lsn walOffset frameLen encoding,
    replay.index.pages[pageId]? = some [{
      lsn, payload := .resident (rebuilt main committed pageId) walOffset frameLen encoding }]
  unheld : ∀ pageId, editsOf pageId pending = [] → replay.pendingPages[pageId]? = none
  held : ∀ pageId, editsOf pageId pending ≠ [] → ∃ page, replay.pendingPages[pageId]? = some page
    ∧ page.data = rebuilt main (committed ++ pending) pageId

/-- A replay that starts holds nothing. -/
theorem holds_start (pageSize : Nat) (main : PageId → Page) : start.Holds pageSize main [] [] where
  sized := nofun
  pendingFrames := rfl
  pendingSize := Nat.le_refl 0
  unindexed := by simp [start, WalIndex.empty]
  indexed := by simp
  unheld := by simp [start]
  held := by simp

/-- The page that the frame at the offset leaves pending. -/
def pendingPage (pageSize offset : Nat) (frame : WalFrame) (data : Page) : PendingRecoveryPage :=
  {
    data
    lsn := offset + frame.encodedLen pageSize
    walOffset := offset
    frameLen := frame.encodedLen pageSize
    encoding := if frame.frameType = .page then .page else .pageDelta
  }

/-- The replay with one more pending page. -/
def stored (replay : Replay) (pageId : PageId) (page : PendingRecoveryPage) : Replay :=
  { replay with
    pendingFrames := replay.pendingFrames + 1
    pendingPages := replay.pendingPages.insert pageId page }

namespace Holds

variable (holds : replay.Holds pageSize storage.main committed pending)
include holds

/-- A delta is applied to the page that the edits so far have left. -/
theorem deltaBase (nonzero : pageId ≠ 0) : replay.deltaBase storage pageId
      = .ok (rebuilt storage.main (committed ++ pending) pageId) := by
  unfold Replay.deltaBase
  by_cases untouched : editsOf pageId pending = []
  · have same : rebuilt storage.main (committed ++ pending) pageId
        = rebuilt storage.main committed pageId := by
      rw [rebuilt, editsOf_append, untouched, append_nil]
      rfl
    rw [holds.unheld pageId untouched, same]
    by_cases unedited : editsOf pageId committed = []
    · simp only [WalIndex.versions, holds.unindexed pageId unedited, Option.getD_none,
        getLast?_nil, Storage.readPageFromDisk, nonzero, if_false]
      rw [rebuilt_of_unedited unedited]
    · obtain ⟨lsn, walOffset, frameLen, encoding, found⟩ := holds.indexed pageId unedited
      simp only [WalIndex.versions, found, Option.getD_some, getLast?_singleton]
  · obtain ⟨page, found, data⟩ := holds.held pageId untouched
    simp only [found, data]

/-- There is room for another pending frame. -/
theorem push (room : pending.length < maxPendingRecoveryFrames)
    : replay.pushPendingFrame = .ok { replay with pendingFrames := replay.pendingFrames + 1 } := by
  have count := holds.pendingFrames
  rw [pushPendingFrame, if_neg (by omega)]

/-- A pending page is stored while there is room. -/
theorem storePendingPage (room : pending.length < maxPendingRecoveryFrames) (pageId : PageId)
    (page : PendingRecoveryPage)
    : ({ replay with pendingFrames := replay.pendingFrames + 1 }).storePendingPage pageId page
      = .ok (replay.stored pageId page) := by
  have size := holds.pendingSize
  rw [Replay.storePendingPage, if_neg (by dsimp only; omega)]
  rfl

/-- The frame of an edit stores the page that the edit makes. -/
theorem replayFrame (mainPages : ∀ pageId, (storage.main pageId).length = pageSize)
    (room : pending.length < maxPendingRecoveryFrames)
    (records : Records pageSize edit frame) (offset : Nat)
    : replay.replayFrame storage pageSize offset frame
      = .ok (replay.stored edit.1 (pendingPage pageSize offset frame
        (rebuilt storage.main (committed ++ (pending ++ [edit])) edit.1))) := by
  have image : rebuilt storage.main (committed ++ (pending ++ [edit])) edit.1
    = edit.2.apply (rebuilt storage.main (committed ++ pending) edit.1) := by
    rw [← append_assoc, rebuilt_snoc, if_pos rfl]
  rw [image]
  cases records with
  | page nonzero length =>
    simp only [Replay.replayFrame, holds.push room, ok_bind, holds.storePendingPage room]
    rfl
  | @delta pageId base image payload nonzero length encoded =>
    have current := length_rebuilt (mainPages pageId) holds.sized
    have applied := applyPageDelta_overlay encoded (current.trans length.symm)
    have pushed : ({ replay with pendingFrames := replay.pendingFrames + 1 }).deltaBase storage
      pageId = replay.deltaBase storage pageId := rfl
    simp only [Replay.replayFrame, holds.push room, ok_bind, pushed, holds.deltaBase nonzero,
      applied, holds.storePendingPage room]
    rfl

/-- A stored page is the rebuilt one, with one more pending edit. -/
theorem stored (sized : edit.2.Sized pageSize) (page : PendingRecoveryPage)
    (data : page.data = rebuilt storage.main (committed ++ (pending ++ [edit])) edit.1)
    : (replay.stored edit.1 page).Holds pageSize storage.main committed (pending ++ [edit]) := by
  have pendingSize := holds.pendingSize
  refine {
    sized := ?_
    pendingFrames := by simp [Replay.stored, holds.pendingFrames]
    pendingSize := ?_
    unindexed := holds.unindexed
    indexed := holds.indexed
    unheld := ?_
    held := ?_
  }
  · rw [← append_assoc]
    exact forall_mem_append.mpr ⟨holds.sized, by simpa using sized⟩
  · have grows := Std.ExtTreeMap.size_insert_le (t := replay.pendingPages) (k := edit.1) (v := page)
    rw [length_append, length_singleton]
    exact le_trans grows (by omega)
  · intro pageId untouched
    rw [editsOf_append, editsOf_single, append_eq_nil_iff] at untouched
    have other : edit.1 ≠ pageId := fun same => by simp [same] at untouched
    simp only [Replay.stored, Std.ExtTreeMap.getElem?_insert, Std.compare_eq_iff_eq, other,
      if_false]
    exact holds.unheld pageId untouched.1
  intro pageId touched
  by_cases same : edit.1 = pageId
  · subst same
    exact ⟨page, by simp [Replay.stored], data⟩
  rw [editsOf_append, editsOf_single, if_neg same, append_nil] at touched
  obtain ⟨old, found, image⟩ := holds.held pageId touched
  refine ⟨old, ?_, ?_⟩
  · simpa only [Replay.stored, Std.ExtTreeMap.getElem?_insert, Std.compare_eq_iff_eq, same,
      if_false] using found
  · rw [image, ← append_assoc, rebuilt_snoc, if_neg same]

end Holds

-- Commit markers

/-- Without history a page has its newest version only. -/
theorem pages_addVersion (index : WalIndex) (pageId : PageId) (version : WalVersion)
    : (index.addVersion pageId version false).pages = index.pages.insert pageId [version] := by
  rw [addVersion, pages_store, if_neg (by decide)]

/-- By induction on the pages that are added. -/
theorem foldl_addVersion_of_not_mem (absent : ∀ page, (pageId, page) ∉ pages) (index : WalIndex)
    : (pages.foldl (fun index (pageId, pending) =>
      index.addVersion pageId pending.version false) index).pages[pageId]?
      = index.pages[pageId]? := by
  induction pages generalizing index with
  | nil => rfl
  | cons first rest ih =>
    have other : first.1 ≠ pageId := by
      rintro rfl
      exact absent first.2 mem_cons_self
    rw [foldl_cons, ih fun page member => absent page (mem_cons_of_mem _ member)]
    simp only [pages_addVersion, Std.ExtTreeMap.getElem?_insert, Std.compare_eq_iff_eq, other,
      if_false]

/-- By induction on the pages that are added; no page is added twice. -/
theorem foldl_addVersion_of_mem (distinct : pages.Pairwise fun left right => left.1 ≠ right.1)
    {page : PendingRecoveryPage} (member : (pageId, page) ∈ pages) (index : WalIndex)
    : (pages.foldl (fun index (pageId, pending) =>
      index.addVersion pageId pending.version false) index).pages[pageId]?
      = some [page.version] := by
  induction pages generalizing index with
  | nil => cases member
  | cons first rest ih =>
    obtain ⟨fresh, others⟩ := pairwise_cons.mp distinct
    rw [foldl_cons]
    rcases mem_cons.mp member with rfl | later
    · rw [foldl_addVersion_of_not_mem fun page listed => fresh _ listed rfl]
      simp [pages_addVersion]
    · exact ih others later _

/-- A marker makes the pending pages the only versions of their pages. -/
theorem pages_commitPending (replay : Replay) (pageId : PageId)
    : replay.commitPending.index.pages[pageId]? = match replay.pendingPages[pageId]? with
        | some page => some [page.version]
        | none => replay.index.pages[pageId]? := by
  cases found : replay.pendingPages[pageId]? with
  | none =>
    refine foldl_addVersion_of_not_mem (fun page listed => ?_) replay.index
    rw [mem_toList_iff_getElem?_eq_some, found] at listed
    cases listed
  | some page =>
    refine foldl_addVersion_of_mem ?_ (mem_toList_iff_getElem?_eq_some.mpr found) replay.index
    exact distinct_keys_toList.imp fun different same => different (Std.compare_eq_iff_eq.mpr same)

/-- A commit frame makes the pending edits committed. -/
theorem Holds.commitPending (holds : replay.Holds pageSize main committed pending)
    : replay.commitPending.Holds pageSize main (committed ++ pending) [] where
  sized := by simpa using holds.sized
  pendingFrames := rfl
  pendingSize := Nat.le_refl 0
  unindexed pageId unedited := by
    rw [editsOf_append, append_eq_nil_iff] at unedited
    rw [pages_commitPending, holds.unheld pageId unedited.2]
    exact holds.unindexed pageId unedited.1
  indexed pageId edited := by
    rw [pages_commitPending]
    by_cases untouched : editsOf pageId pending = []
    · rw [editsOf_append, untouched, append_nil] at edited
      obtain ⟨lsn, walOffset, frameLen, encoding, found⟩ := holds.indexed pageId edited
      refine ⟨lsn, walOffset, frameLen, encoding, ?_⟩
      rw [holds.unheld pageId untouched, rebuilt, editsOf_append, untouched, append_nil]
      exact found
    obtain ⟨page, found, data⟩ := holds.held pageId untouched
    refine ⟨page.lsn, page.walOffset, page.frameLen, page.encoding, ?_⟩
    rw [found, ← data]
    rfl
  unheld pageId _ := by simp [Replay.commitPending]
  held pageId touched := absurd rfl touched

end Replay

-- Whole logs

namespace Replay.Holds

/-- The frames of a transaction that does not exceed the limit, by induction on them. -/
theorem replayList_records (mainPages : ∀ pageId, (storage.main pageId).length = pageSize)
    (records : Forall₂ (Records pageSize) edits frames)
    (holds : replay.Holds pageSize storage.main committed pending)
    (room : pending.length + edits.length ≤ maxPendingRecoveryFrames) (offset : Nat)
    : ∃ next, replayList storage pageSize offset replay frames = .ok next
      ∧ next.Holds pageSize storage.main committed (pending ++ edits) := by
  induction records generalizing replay pending offset with
  | nil => exact ⟨replay, rfl, by simpa using holds⟩
  | @cons edit frame edits frames first others ih =>
    rw [length_cons] at room
    have ran := holds.replayFrame mainPages (by omega) first offset
    obtain ⟨last, rest, whole⟩ := ih
      (holds.stored first.sized (pendingPage pageSize offset frame _) rfl)
      (by rw [length_append, length_singleton]; omega)
      (offset + frame.encodedLen pageSize)
    refine ⟨last, ?_, by simpa using whole⟩
    rw [replayList, ran]
    exact rest

end Replay.Holds

/-- A log whose transactions do not exceed the limit is replayed to its end. -/
theorem LogFrames.replayList (mainPages : ∀ pageId, (storage.main pageId).length = pageSize)
    (logged : LogFrames pageSize log frames)
    (small : ∀ edits ∈ log, edits.length ≤ maxPendingRecoveryFrames)
    : ∃ last, replayList storage pageSize walHeaderSize .start frames = .ok last
      ∧ last.Holds pageSize storage.main log.flatten [] := by
  induction logged with
  | nil => exact ⟨.start, rfl, holds_start pageSize storage.main⟩
  | @snoc log frames more edits earlier records ih =>
    obtain ⟨middle, before, holds⟩ := ih fun edits member => small edits (by simp [member])
    obtain ⟨last, ran, pending⟩ := holds.replayList_records mainPages records
      (by simpa using small edits (by simp)) (walHeaderSize + framesLen pageSize frames)
    refine ⟨last.commitPending, ?_, ?_⟩
    · rw [replayList_append, before]
      simp only [Except.bind, replayList_append, ran]
      rfl
    · have committed := pending.commitPending
      simpa using committed

end DecentDb.Wal
