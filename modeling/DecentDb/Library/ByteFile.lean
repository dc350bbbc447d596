import Mathlib.Data.List.GetD

/-! Random-access byte files: positional reads and writes, truncation and extension.
Bytes between the stored ones and the file's size read as zero.
-/

/-- A file of `size` bytes of which `stored` are held explicitly. -/
structure ByteFile where
  stored : List UInt8
  size : Nat
  deriving DecidableEq

namespace ByteFile

open List

def empty : ByteFile := { stored := [], size := 0 }

variable (file : ByteFile)

/-- The byte at a position; zero past the stored ones. -/
def byteAt (position : Nat) : UInt8 := file.stored.getD position 0

/-- `length` bytes from `offset` on, with zeros where nothing is stored. -/
def slice (offset length : Nat) : List UInt8 :=
  let available := (file.stored.drop offset).take length
  available ++ replicate (length - available.length) 0

/-- Positional read of exactly `length` bytes; `none` if the file is too short. -/
def readExactAt (offset length : Nat) : Option (List UInt8) :=
  if offset + length ≤ file.size then some (file.slice offset length) else none

/-- Positional write; it extends the file when it passes the end. -/
def writeAllAt (offset : Nat) (bytes : List UInt8) : ByteFile :=
  let before := file.stored.take offset
  {
    stored := before ++ replicate (offset - before.length) 0 ++ bytes
      ++ file.stored.drop (offset + bytes.length)
    size := max file.size (offset + bytes.length)
  }

/-- Truncates the file or extends it with zeros. -/
def setLen (length : Nat) : ByteFile :=
  { stored := file.stored.take length, size := length }

variable (file : ByteFile)

/-- A slice has the length that was asked for, also past the end of the file. -/
@[simp]
theorem length_slice (offset length : Nat)
    : (file.slice offset length).length = length := by
  simp only [slice, length_append, length_replicate, length_take, length_drop]
  omega

variable {offset length : Nat} {position : Nat}

/-- A slice lists the bytes at its positions. -/
theorem getElem?_slice {index : Nat} (inside : index < length)
    : (file.slice offset length)[index]? = some (file.byteAt (offset + index)) := by
  simp only [slice, byteAt, getElem?_append, length_take, length_drop,
    getElem?_take, getElem?_drop, getElem?_replicate, getD]
  by_cases held : offset + index < file.stored.length
  · have first : index < min length (file.stored.length - offset) := by omega
    simp [first, inside, held]
  have second : ¬index < min length (file.stored.length - offset) := by omega
  have room : index - min length (file.stored.length - offset)
    < length - min length (file.stored.length - offset) := by omega
  simp [second, room, held]

/-- Two slices agree if their bytes do. -/
theorem slice_congr {left right : ByteFile}
    (same : ∀ position, offset ≤ position → position < offset + length
      → left.byteAt position = right.byteAt position)
    : left.slice offset length = right.slice offset length := by
  apply ext_getElem?
  intro index
  by_cases inside : index < length
  · rw [getElem?_slice _ inside, getElem?_slice _ inside]
    rw [same (offset + index) (by omega) (by omega)]
  · rw [getElem?_eq_none (by simpa using inside), getElem?_eq_none (by simpa using inside)]

/-- What a write keeps of the bytes before its offset, padded up to the offset. -/
theorem getD_paddedTake (stored : List UInt8) (before : position < offset)
    : (stored.take offset ++ replicate (offset - (stored.take offset).length) 0).getD
      position 0 = stored.getD position 0 := by
  simp only [getD, getElem?_append, length_take, getElem?_take, getElem?_replicate]
  by_cases held : position < stored.length
  · have first : position < min offset stored.length := by omega
    simp [first, before]
  · have second : ¬position < min offset stored.length := by omega
    have room : position - min offset stored.length < offset - min offset stored.length := by omega
    simp [second, room, held]

/-- A write changes exactly the bytes it covers. -/
theorem byteAt_writeAllAt (offset position : Nat) (bytes : List UInt8)
    : (file.writeAllAt offset bytes).byteAt position
      = if offset ≤ position ∧ position < offset + bytes.length then
        bytes.getD (position - offset) 0
        else file.byteAt position := by
  have padded : (file.stored.take offset
    ++ replicate (offset - (file.stored.take offset).length) (0 : UInt8)).length = offset := by
    simp only [length_append, length_take, length_replicate]
    omega
  unfold byteAt writeAllAt
  dsimp only
  rw [append_assoc]
  by_cases before : position < offset
  · rw [getD_append _ _ _ _ (by omega), getD_paddedTake _ before, if_neg (by omega)]
  rw [getD_append_right _ _ _ _ (by omega), padded]
  by_cases inside : position < offset + bytes.length
  · rw [getD_append _ _ _ _ (by omega), if_pos ⟨by omega, inside⟩]
  rw [getD_append_right _ _ _ _ (by omega), if_neg (by omega)]
  simp only [getD, getElem?_drop]
  congr 2
  omega

/-- Bytes below a new length keep their values. -/
theorem byteAt_setLen (kept : position < length)
    : (file.setLen length).byteAt position = file.byteAt position := by
  simp only [setLen, byteAt, getD, getElem?_take, kept, if_true]

variable (offset)

/-- Reading back the whole of what was written. -/
theorem slice_writeAllAt_self (bytes : List UInt8)
    : (file.writeAllAt offset bytes).slice offset bytes.length = bytes := by
  apply ext_getElem?
  intro index
  by_cases inside : index < bytes.length
  · rw [getElem?_slice _ inside, byteAt_writeAllAt, if_pos ⟨by omega, by omega⟩,
    Nat.add_sub_cancel_left, getD_eq_getElem?_getD, getElem?_eq_getElem inside,
    Option.getD_some]
  · rw [getElem?_eq_none (by simpa using inside), getElem?_eq_none (by simpa using inside)]

variable {start : Nat}

/-- A write leaves every slice alone that it does not overlap. -/
theorem slice_writeAllAt_disjoint {offset : Nat} (bytes : List UInt8)
    (disjoint : start + length ≤ offset ∨ offset + bytes.length ≤ start)
    : (file.writeAllAt offset bytes).slice start length = file.slice start length := by
  apply slice_congr
  intro position low high
  rw [byteAt_writeAllAt, if_neg (by omega)]

/-- A write can be made in two parts. -/
theorem writeAllAt_append (first second : List UInt8)
    : file.writeAllAt offset (first ++ second)
      = (file.writeAllAt offset first).writeAllAt (offset + first.length) second := by
  have padded : (file.stored.take offset
    ++ replicate (offset - (file.stored.take offset).length) (0 : UInt8) ++ first).length
      = offset + first.length := by
    simp only [length_append, length_take, length_replicate]
    omega
  unfold writeAllAt
  dsimp only
  have beyond (rest : List UInt8) : (file.stored.take offset
    ++ replicate (offset - (file.stored.take offset).length) (0 : UInt8) ++ first
    ++ rest).drop (offset + first.length + second.length) = rest.drop second.length := by
    rw [← drop_drop, drop_left' padded]
  rw [take_left' padded, padded, Nat.sub_self, beyond, drop_drop]
  simp only [replicate_zero, append_nil, append_assoc, length_append, ← Nat.add_assoc]
  congr 1
  omega

/-- Slices below the new length survive `setLen`. -/
theorem slice_setLen {limit : Nat} (kept : start + length ≤ limit)
    : (file.setLen limit).slice start length = file.slice start length :=
  slice_congr fun _ _ high => file.byteAt_setLen (by omega)

/-- A slice of a slice is a slice of the file. -/
theorem slice_append (offset first second : Nat)
    : file.slice offset (first + second)
      = file.slice offset first ++ file.slice (offset + first) second := by
  apply ext_getElem?
  intro index
  by_cases inside : index < first + second
  · rw [getElem?_slice _ inside, getElem?_append, length_slice]
    split
    · rename_i head
      rw [getElem?_slice _ head]
    · rw [getElem?_slice _ (by omega), show offset + first + (index - first) = offset + index by
      omega]
  · rw [getElem?_eq_none (by simpa using inside), getElem?_eq_none (by simpa using inside)]

/-- A part of a slice is a slice. -/
theorem take_drop_slice {total : Nat} (inside : start + length ≤ total)
    : ((file.slice offset total).drop start).take length = file.slice (offset + start) length := by
  obtain ⟨rest, rfl⟩ := Nat.exists_eq_add_of_le inside
  rw [Nat.add_assoc, slice_append, slice_append, drop_left' (file.length_slice _ _),
    take_left' (file.length_slice _ _)]

end ByteFile
