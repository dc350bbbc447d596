import DecentDb.Error
import DecentDb.Library.ByteFile
import DecentDb.Library.LittleEndian

/-! WAL header and frame encoding: frames without checksum, LSN or length, delimited by
their type and by the logical end offset kept in the header.
-/

namespace DecentDb.Wal

open ByteFile List

open LittleEndian (leBytes leNat)

abbrev PageId := UInt32

/-- A page image. -/
abbrev Page := List UInt8

def walHeaderSize : Nat := 32
def frameHeaderSize : Nat := 5
def frameTrailerSize : Nat := 8
def deltaFramePayloadSize : Nat := 512
def supportedPageSizes : List Nat := [4096, 8192, 16384]
def headerPageId : PageId := 1

def isSupportedPageSize (pageSize : Nat) : Bool := supportedPageSizes.contains pageSize

inductive FrameType where
  | page
  | commit
  | checkpoint
  | pageDelta
  deriving DecidableEq, Repr

inductive FrameEncoding where
  | page
  | pageDelta
  deriving DecidableEq, Repr

def FrameEncoding.frameType : FrameEncoding → FrameType
  | .page => .page
  | .pageDelta => .pageDelta

namespace FrameType

def payloadSize (frameType : FrameType) (pageSize : Nat) : Nat :=
  match frameType with
  | .page => pageSize
  | .commit => 0
  | .checkpoint => 8
  | .pageDelta => deltaFramePayloadSize

/-- The discriminant that is written to the file. -/
def toByte : FrameType → UInt8
  | .page => 0
  | .commit => 1
  | .checkpoint => 2
  | .pageDelta => 3

def tryFrom (value : UInt8) : DbResult FrameType :=
  if value = 0 then .ok .page
  else if value = 1 then .ok .commit
  else if value = 2 then .ok .checkpoint
  else if value = 3 then .ok .pageDelta
  else .error (.corruption s!"unknown WAL frame type {value}")

/-- Frames that carry a page name it; the others use page id 0. -/
def carriesPage : FrameType → Bool
  | .page | .pageDelta => true
  | .commit | .checkpoint => false

/-- The type of a frame is read back from its byte. -/
@[simp]
theorem tryFrom_toByte (frameType : FrameType) : tryFrom frameType.toByte = .ok frameType := by
  cases frameType <;> rfl

end FrameType

def walHeaderVersion : Nat := 2

/-- The bytes of `DDBWAL01`. -/
def walMagic : List UInt8 := [68, 68, 66, 87, 65, 76, 48, 49]

structure WalHeader where
  pageSize : Nat
  walEndOffset : Nat
  deriving DecidableEq, Repr

namespace WalHeader

def encode (header : WalHeader) : List UInt8 :=
  walMagic ++ leBytes 4 walHeaderVersion ++ leBytes 4 header.pageSize
    ++ leBytes 8 header.walEndOffset ++ replicate 8 0

def decode (bytes : List UInt8) : DbResult WalHeader :=
  if bytes.take 8 ≠ walMagic then .error (.corruption "invalid WAL header magic")
  else
    let headerVersion := leNat ((bytes.drop 8).take 4)
    if headerVersion ≠ 1 ∧ headerVersion ≠ walHeaderVersion then
      .error (.corruption (s!"unsupported WAL header version {headerVersion}; "
        ++ s!"expected 1 or {walHeaderVersion}"))
    else
      let pageSize := leNat ((bytes.drop 12).take 4)
      let walEndOffset := leNat ((bytes.drop 16).take 8)
      if walEndOffset ≠ 0 ∧ walEndOffset < walHeaderSize then
        .error (.corruption s!"invalid WAL logical end offset {walEndOffset}")
      else .ok { pageSize, walEndOffset }

end WalHeader

structure WalFrame where
  frameType : FrameType
  pageId : PageId
  payload : List UInt8
  deriving DecidableEq, Repr

variable {frame : WalFrame} {pageSize offset length bound logicalEnd start : Nat}
  {file changed : ByteFile} {frames more : List WalFrame}

namespace WalFrame

variable (frame : WalFrame)

/-- The bytes that `append_page_frame`, `append_page_delta_frame` and the commit marker
put into the file.
-/
def bytes : List UInt8 :=
  frame.frameType.toByte :: leBytes 4 frame.pageId.toNat ++ frame.payload
    ++ replicate frameTrailerSize 0

def encodedLen (pageSize : Nat) : Nat :=
  frameHeaderSize + frame.frameType.payloadSize pageSize + frameTrailerSize

/-- Page frames name a page, the others do not, and the payload has the type's size. -/
structure WellFormed (frame : WalFrame) (pageSize : Nat) : Prop where
  payloadLength : frame.payload.length = frame.frameType.payloadSize pageSize
  pageId : frame.frameType.carriesPage ↔ frame.pageId ≠ 0

/-- The page-id rules that both decoders check last. -/
def checkPageId : DbResult WalFrame :=
  if frame.frameType.carriesPage ∧ frame.pageId = 0 then
    .error (.corruption "page WAL frame used page id 0")
  else if ¬frame.frameType.carriesPage ∧ frame.pageId ≠ 0 then
    .error (.corruption "non-page WAL frame used a non-zero page id")
  else .ok frame

variable (file : ByteFile)

/-- A short read of the file is an I/O error. -/
def readExact (offset length : Nat) : DbResult (List UInt8) :=
  match file.readExactAt offset length with
  | some bytes => .ok bytes
  | none => .error (.io s!"short read at offset {offset}: expected {length} bytes")

/-- A read inside of the file succeeds with the slice. -/
theorem readExact_of_slice {file : ByteFile} {bytes : List UInt8}
    (inside : offset + length ≤ file.size) (slice : file.slice offset length = bytes)
    : readExact file offset length = .ok bytes := by
  rw [readExact, ByteFile.readExactAt, if_pos inside, slice]

def decodeFromFile (offset pageSize logicalEnd : Nat) : DbResult (Option WalFrame) :=
  if logicalEnd ≤ offset then .ok none
  else if logicalEnd < offset + frameHeaderSize then .ok none
  else do
    let header ← readExact file offset frameHeaderSize
    let frameType ← FrameType.tryFrom (header.getD 0 0)
    let pageId := UInt32.ofNat (leNat (header.drop 1))
    let payloadLen := frameType.payloadSize pageSize
    let totalLen := frameHeaderSize + payloadLen + frameTrailerSize
    if logicalEnd < offset + totalLen then return none
    else
      let body ← readExact file (offset + frameHeaderSize) (payloadLen + frameTrailerSize)
      let frame ← checkPageId { frameType, pageId, payload := body.take payloadLen }
      return some frame

def decodeFromFileWithLen (offset frameLen pageSize logicalEnd : Nat)
    : DbResult (Option WalFrame) :=
  if logicalEnd ≤ offset then .ok none
  else
    let minimumLen := frameHeaderSize + frameTrailerSize
    let maximumLen := frameHeaderSize + max (max pageSize deltaFramePayloadSize) 8
      + frameTrailerSize
    if frameLen < minimumLen then
      .error (.corruption s!"WAL frame length {frameLen} too small at offset {offset}")
    else if ¬isSupportedPageSize pageSize then
      .error (.corruption s!"unsupported WAL page size {pageSize}")
    else if maximumLen < frameLen then
      .error (.corruption
        s!"WAL frame length {frameLen} exceeds maximum {maximumLen} at offset {offset}")
    else if logicalEnd < offset + frameLen then .ok none
    else do
      let bytes ← readExact file offset frameLen
      let frameType ← FrameType.tryFrom (bytes.getD 0 0)
      let pageId := UInt32.ofNat (leNat ((bytes.drop 1).take 4))
      let payloadLen := frameType.payloadSize pageSize
      let expectedTotal := frameHeaderSize + payloadLen + frameTrailerSize
      if expectedTotal ≠ frameLen then
        .error (.corruption (s!"WAL frame length mismatch at offset {offset}: "
          ++ s!"caller said {frameLen}, frame type needs {expectedTotal}"))
      else
        let frame ← checkPageId
          { frameType, pageId, payload := (bytes.drop frameHeaderSize).take payloadLen }
        return some frame

/-- A well-formed frame has the length of its type. -/
theorem WellFormed.length_bytes (wellFormed : frame.WellFormed pageSize)
    : frame.bytes.length = frame.encodedLen pageSize := by
  simp only [bytes, encodedLen, length_append, length_cons, LittleEndian.length_leBytes,
    length_replicate, wellFormed.payloadLength, frameHeaderSize]

/-- The decoders' page-id rules accept every well-formed frame. -/
theorem WellFormed.checkPageId (wellFormed : frame.WellFormed pageSize)
    : checkPageId frame = .ok frame := by
  have rule := wellFormed.pageId
  unfold WalFrame.checkPageId
  rw [if_neg (by tauto), if_neg (by tauto)]

/-- A page id is read back from its four bytes. -/
@[simp]
theorem ofNat_leNat_pageId (pageId : PageId)
    : UInt32.ofNat (leNat (leBytes 4 pageId.toNat)) = pageId := by
  rw [LittleEndian.leNat_leBytes_of_lt (by simpa using pageId.toNat_lt), UInt32.ofNat_toNat]

/-- The smallest and the largest frame. -/
theorem encodedLen_bounds (frame : WalFrame) (pageSize : Nat)
    : frameHeaderSize + frameTrailerSize ≤ frame.encodedLen pageSize ∧ frame.encodedLen pageSize
        ≤ frameHeaderSize + max (max pageSize deltaFramePayloadSize) 8 + frameTrailerSize := by
  unfold encodedLen FrameType.payloadSize
  cases frame.frameType <;> dsimp only <;> omega

/-- A frame is its header, its payload and its trailer. -/
theorem encodedLen_parts (frame : WalFrame) (pageSize : Nat) : frame.encodedLen pageSize
    = frameHeaderSize + frame.frameType.payloadSize pageSize + frameTrailerSize
      ∧ 0 < frameHeaderSize :=
  ⟨rfl, by decide⟩

/-- No frame is empty. -/
theorem encodedLen_pos (frame : WalFrame) (pageSize : Nat) : 0 < frame.encodedLen pageSize :=
  lt_of_lt_of_le (by decide) (frame.encodedLen_bounds pageSize).1

end WalFrame

-- Frames in the file

/-- A frame is decoded where its header and payload are; the trailer is not looked at. -/
theorem WalFrame.WellFormed.decodeFromFile (wellFormed : frame.WellFormed pageSize)
    (inside : offset + frame.encodedLen pageSize ≤ min logicalEnd file.size)
    (header : file.slice offset frameHeaderSize
      = frame.frameType.toByte :: leBytes 4 frame.pageId.toNat)
    (payload : file.slice (offset + frameHeaderSize) (frame.frameType.payloadSize pageSize)
      = frame.payload)
    : WalFrame.decodeFromFile file offset pageSize logicalEnd = .ok (some frame) := by
  obtain ⟨total, positive⟩ := frame.encodedLen_parts pageSize
  have headerRead := WalFrame.readExact_of_slice (by omega) header
  have bodyRead : WalFrame.readExact file (offset + frameHeaderSize)
      (frame.frameType.payloadSize pageSize + frameTrailerSize) = _ :=
    WalFrame.readExact_of_slice (by omega) (slice_append ..)
  rw [payload] at bodyRead
  rw [WalFrame.decodeFromFile, if_neg (by omega), if_neg (by omega), headerRead]
  simp only [ok_bind, getD_cons_zero, FrameType.tryFrom_toByte, drop_one, tail_cons,
    WalFrame.ofNat_leNat_pageId]
  rw [if_neg (by omega), bodyRead]
  simp only [ok_bind, take_left' wellFormed.payloadLength, wellFormed.checkPageId]
  rfl

/-- The file holds the frame's bytes at the offset. -/
structure FrameAt (file : ByteFile) (offset pageSize : Nat) (frame : WalFrame) : Prop where
  wellFormed : frame.WellFormed pageSize
  inside : offset + frame.encodedLen pageSize ≤ file.size
  bytes : file.slice offset (frame.encodedLen pageSize) = frame.bytes

namespace FrameAt

variable (stored : FrameAt file offset pageSize frame)
include stored

/-- The header, the payload and the trailer of a stored frame, read separately. -/
theorem parts
    : file.slice offset frameHeaderSize = frame.frameType.toByte :: leBytes 4 frame.pageId.toNat
      ∧ file.slice (offset + frameHeaderSize)
        (frame.frameType.payloadSize pageSize + frameTrailerSize)
        = frame.payload ++ replicate frameTrailerSize 0 := by
  have whole := stored.bytes
  rw [WalFrame.encodedLen, add_assoc, slice_append, WalFrame.bytes, append_assoc] at whole
  exact append_inj whole (by simp [frameHeaderSize])

/-- A stored frame is read back. -/
theorem decodeFromFile (committed : offset + frame.encodedLen pageSize ≤ logicalEnd)
    : WalFrame.decodeFromFile file offset pageSize logicalEnd = .ok (some frame) := by
  obtain ⟨header, body⟩ := stored.parts
  rw [slice_append] at body
  obtain ⟨payload, -⟩ := append_inj body (by simp [stored.wellFormed.payloadLength])
  exact stored.wellFormed.decodeFromFile (le_min committed stored.inside) header payload

/-- A stored frame is read back by its known length. -/
theorem decodeFromFileWithLen (supported : isSupportedPageSize pageSize)
    (committed : offset + frame.encodedLen pageSize ≤ logicalEnd)
    : WalFrame.decodeFromFileWithLen file offset (frame.encodedLen pageSize) pageSize logicalEnd
      = .ok (some frame) := by
  have bounds := frame.encodedLen_bounds pageSize
  have inside := stored.inside
  obtain ⟨total, positive⟩ := frame.encodedLen_parts pageSize
  have wholeRead := WalFrame.readExact_of_slice inside stored.bytes
  have pageIdBytes : (frame.bytes.drop 1).take 4 = leBytes 4 frame.pageId.toNat := by
    rw [WalFrame.bytes, append_assoc]
    exact take_left' (by simp)
  have payload : (frame.bytes.drop frameHeaderSize).take (frame.frameType.payloadSize pageSize)
    = frame.payload := by
    rw [WalFrame.bytes, append_assoc, drop_left' (by simp [frameHeaderSize]),
      take_left' stored.wellFormed.payloadLength]
  rw [WalFrame.decodeFromFileWithLen, if_neg (by omega)]
  dsimp only
  rw [if_neg (by omega), if_neg (by simpa using supported), if_neg (by omega),
    if_neg (by omega), wholeRead]
  simp only [ok_bind, pageIdBytes, WalFrame.ofNat_leNat_pageId]
  rw [show frame.bytes.getD 0 0 = frame.frameType.toByte from rfl, FrameType.tryFrom_toByte,
    ok_bind, if_neg (by omega), payload, stored.wellFormed.checkPageId]
  rfl

/-- A stored frame survives every write elsewhere. -/
theorem writeAllAt {bytes : List UInt8}
    (disjoint : offset + frame.encodedLen pageSize ≤ start ∨ start + bytes.length ≤ offset)
    : FrameAt (file.writeAllAt start bytes) offset pageSize frame where
  wellFormed := stored.wellFormed
  inside := le_trans stored.inside (le_max_left _ _)
  bytes := by rw [slice_writeAllAt_disjoint _ _ disjoint, stored.bytes]

/-- A stored frame survives a change of the file's length that does not cut it. -/
theorem setLen (kept : offset + frame.encodedLen pageSize ≤ length)
    : FrameAt (file.setLen length) offset pageSize frame where
  wellFormed := stored.wellFormed
  inside := kept
  bytes := by rw [slice_setLen _ kept, stored.bytes]

end FrameAt

/-- Encoded length of consecutive frames. -/
def framesLen (pageSize : Nat) (frames : List WalFrame) : Nat :=
  (frames.map (·.encodedLen pageSize)).sum

/-- The file holds the frames one after the other from the offset on. -/
def FramesAt (file : ByteFile) (pageSize : Nat) : Nat → List WalFrame → Prop
  | _, [] => True
  | offset, frame :: rest =>
    FrameAt file offset pageSize frame
    ∧ FramesAt file pageSize (offset + frame.encodedLen pageSize) rest

namespace FramesAt

/-- No frames take no bytes. -/
@[simp]
theorem framesLen_nil : framesLen pageSize [] = 0 := rfl

/-- The first frame comes before the others. -/
@[simp]
theorem framesLen_cons (frame : WalFrame) : framesLen pageSize (frame :: frames)
      = frame.encodedLen pageSize + framesLen pageSize frames := by
  simp [framesLen]

/-- Frames after frames take the bytes of both. -/
@[simp]
theorem framesLen_append
    : framesLen pageSize (frames ++ more) = framesLen pageSize frames + framesLen pageSize more := by
  simp [framesLen]

/-- Frames after frames are stored one after the other. -/
theorem append
    : FramesAt file pageSize offset (frames ++ more) ↔ FramesAt file pageSize offset frames
        ∧ FramesAt file pageSize (offset + framesLen pageSize frames) more := by
  induction frames generalizing offset with
  | nil => simp [FramesAt]
  | cons frame rest ih =>
    rw [cons_append, FramesAt, ih, FramesAt, framesLen_cons, and_assoc, add_assoc]

/-- A change of the file that keeps each frame below a bound keeps the frames below it. -/
theorem imp (stored : FramesAt file pageSize offset frames)
    (bounded : offset + framesLen pageSize frames ≤ bound)
    (kept : ∀ start frame, offset ≤ start → start + frame.encodedLen pageSize ≤ bound
      → FrameAt file start pageSize frame → FrameAt changed start pageSize frame)
    : FramesAt changed pageSize offset frames := by
  induction frames generalizing offset with
  | nil => trivial
  | cons frame rest ih =>
    rw [framesLen_cons] at bounded
    refine ⟨kept offset frame le_rfl (by omega) stored.1, ?_⟩
    exact ih stored.2 (by omega) fun start frame low => kept start frame (by omega)

section

variable (wellFormed : ∀ frame ∈ frames, frame.WellFormed pageSize)
include wellFormed

/-- The bytes of all frames have their total length. -/
theorem length_flatMap_bytes
    : (frames.flatMap WalFrame.bytes).length = framesLen pageSize frames := by
  induction frames with
  | nil => rfl
  | cons frame rest ih =>
    rw [flatMap_cons, length_append, framesLen_cons, (wellFormed frame mem_cons_self).length_bytes,
      ih fun other member => wellFormed other (mem_cons_of_mem _ member)]

/-- Frames are stored where the file's bytes are theirs, by splitting off the first. -/
theorem of_slice (inside : offset + framesLen pageSize frames ≤ file.size)
    (bytes : file.slice offset (framesLen pageSize frames) = frames.flatMap WalFrame.bytes)
    : FramesAt file pageSize offset frames := by
  induction frames generalizing offset with
  | nil => trivial
  | cons frame rest ih =>
    have first := wellFormed frame mem_cons_self
    rw [framesLen_cons] at inside bytes
    rw [slice_append, flatMap_cons] at bytes
    obtain ⟨head, tail⟩ := append_inj bytes (by simp [first.length_bytes])
    exact ⟨⟨first, by omega, head⟩,
      ih (fun other member => wellFormed other (mem_cons_of_mem _ member)) (by omega) tail⟩

end

/-- Writing the bytes of frames stores them. -/
theorem of_writeAllAt (file : ByteFile) (offset : Nat)
    (wellFormed : ∀ frame ∈ frames, frame.WellFormed pageSize) (tail : List UInt8)
    : FramesAt (file.writeAllAt offset (frames.flatMap WalFrame.bytes ++ tail)) pageSize offset
      frames := by
  have length := length_flatMap_bytes wellFormed
  have whole := file.slice_writeAllAt_self offset (frames.flatMap WalFrame.bytes ++ tail)
  rw [length_append, length, slice_append] at whole
  refine of_slice wellFormed ?_ (append_inj whole (by simp [length])).1
  simp only [writeAllAt, length_append, length]
  omega

end FramesAt

end DecentDb.Wal
