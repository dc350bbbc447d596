import DecentDb.Library.Results
import DecentDb.Vfs.EncryptedFile

/-! An encrypted file answers like a plain one as long as no call leaves a gap behind the
end of the file: the bytes of a gap are zero underneath and so read as the keystream.
-/

namespace DecentDb.Vfs

open MemFile

open Masking (mask mask_append mask_take mask_drop mask_mask length_mask)

-- Files underneath

variable {length offset : Nat} {writes : List (UInt64 × List UInt8)}

namespace MemFile

/-- A read stops at the end of the data. -/
theorem readAt_eq (data : List UInt8) (offset length : Nat)
    : readAt data offset length = (data.drop offset).take length := by
  unfold readAt
  split
  · rename_i past
    simp [List.drop_of_length_le past]
  · rfl

/-- Shrinking cuts the end off. -/
theorem resize_of_le {data : List UInt8} (shrinks : length ≤ data.length)
    : resize data length = data.take length := by
  simp [resize, Nat.sub_eq_zero_of_le shrinks]

/-- A write that starts inside the file or at its end replaces what it covers. -/
theorem writeAt_of_le {data bytes : List UInt8} (starts : offset ≤ data.length)
    : writeAt data offset bytes
      = data.take offset ++ bytes ++ data.drop (offset + bytes.length) := by
  unfold writeAt
  dsimp only
  split
  · rename_i grows
    have whole : data.take (offset + bytes.length) = data := List.take_of_length_le (by omega)
    have past : data.drop (offset + bytes.length) = [] := List.drop_of_length_le (by omega)
    have filled : (resize data (offset + bytes.length)).drop (offset + bytes.length) = [] := by
      refine List.drop_of_length_le ?_
      simp only [resize, List.length_append, List.length_take, List.length_replicate]
      omega
    have kept : (resize data (offset + bytes.length)).take offset = data.take offset := by
      rw [resize, whole, List.take_append_of_le_length starts]
    rw [filled, kept, past]
  · rfl

end MemFile

section Encrypted

variable [TdePrimitives] {key data bytes : List UInt8} {salt : Vector UInt8 32}
  {file : EncryptedVfsFile}

-- The prefix

/-- The header has its fixed size. -/
theorem length_encodePrefix (kind : FileKind) (key : List UInt8) (salt : Vector UInt8 32)
    : (encodePrefix kind key salt).length = tdePrefixSize := by
  simp [encodePrefix, tdeMagic, tdePrefixSize]

/-- The header byte by byte: the magic, the version, the kind, the salt, the verifier and zeros. -/
theorem encodePrefix_eq (kind : FileKind) (key : List UInt8) (salt : Vector UInt8 32)
    : encodePrefix kind key salt
      = [68, 68, 66, 84, 68, 69, 49, 0, 1, 0, 0, 0, kind.id, 1, 0, 0] ++ (salt.toList
        ++ ((deriveVerifier key salt.toList).toList ++ List.replicate 48 0)) := rfl

/-- What was encoded is read back, with whatever bytes behind it. -/
theorem readPrefix_encodePrefix (path : String) (kind : FileKind) (key rest : List UInt8)
    (salt : Vector UInt8 32)
    : readPrefix path (encodePrefix kind key salt ++ rest) kind key = .ok salt.toList := by
  have salted : ((encodePrefix kind key salt).drop 16).take 32 = salt.toList := by
    rw [encodePrefix_eq, List.drop_left' (by rfl), List.take_left' (by simp)]
  have verified : ((encodePrefix kind key salt).drop 48).take 32
    = (deriveVerifier key salt.toList).toList := by
    rw [encodePrefix_eq, ← List.append_assoc, List.drop_left' (by simp), List.take_left' (by simp)]
  have short : ¬(encodePrefix kind key salt ++ rest).length < tdePrefixSize := by
    rw [List.length_append, length_encodePrefix]
    omega
  rw [readPrefix, if_neg short, List.take_left' (length_encodePrefix kind key salt), decodePrefix,
    if_neg (by simp [encodePrefix_eq, tdeMagic]),
    if_neg (by simp [encodePrefix_eq, tdeVersion, LittleEndian.leNat]),
    if_neg (by simp [encodePrefix_eq]), if_neg (by simp [encodePrefix_eq, tdeAlgorithm])]
  simp [salted, verified]

-- The relation between the two files

/-- Behind the prefix stand the plain file's bytes, combined with the keystream. -/
structure Represents (key : List UInt8) (salt : Vector UInt8 32) (file : EncryptedVfsFile)
    (data : List UInt8) : Prop where
  inner : file.inner = encodePrefix file.kind key salt ++ applyKeystream file.crypto 0 data
  crypto : file.crypto = deriveFileCrypto key file.kind salt.toList

/-- A new file represents the empty one. -/
theorem Represents.create {path : String} {mode : OpenMode} {kind : FileKind}
    (opened : EncryptedVfs.open path key mode kind salt [] = .ok file)
    : Represents key salt file [] := by
  have created : file = {
    inner := initializePrefix [] kind key salt
    path
    kind
    crypto := deriveFileCrypto key kind salt.toList
    } := by
    cases mode with
    | createNew | openOrCreate => exact (Except.ok.inj opened).symm
    | openExisting => cases opened
  subst created
  refine ⟨?_, rfl⟩
  have size := length_encodePrefix kind key salt
  have written : writeAt [] 0 (encodePrefix kind key salt) = encodePrefix kind key salt := by
    rw [writeAt_of_le (Nat.zero_le _)]
    simp
  simp [initializePrefix, written, resize, ← size, applyKeystream, mask]

namespace Represents

variable (represents : Represents key salt file data)
include represents

/-- The file on disk is longer by the header. -/
theorem length_inner : file.inner.length = tdePrefixSize + data.length := by
  rw [represents.inner, List.length_append, length_encodePrefix, applyKeystream, length_mask]

/-- Behind an offset the file has the encrypted data behind it. -/
theorem drop_inner (offset : Nat) : file.inner.drop (offset + tdePrefixSize)
      = applyKeystream file.crypto offset (data.drop offset) := by
  have size := length_encodePrefix file.kind key salt
  have masked := mask_drop (TdePrimitives.keystream file.crypto.streamKey file.crypto.nonce) 0
    offset data
  rw [zero_add] at masked
  rw [represents.inner, add_comm, ← size, List.drop_length_add_append, applyKeystream,
    applyKeystream, masked]

/-- Up to an offset the file has the header and the encrypted data before it. -/
theorem take_inner (offset : Nat) : file.inner.take (offset + tdePrefixSize)
      = encodePrefix file.kind key salt ++ applyKeystream file.crypto 0 (data.take offset) := by
  have size := length_encodePrefix file.kind key salt
  rw [represents.inner, add_comm, ← size, List.take_length_add_append, applyKeystream,
    applyKeystream, mask_take]

/-- A read of the encrypted file is a read of the data. -/
theorem readAt (offset : UInt64) (length : Nat) (fits : offset.toNat + tdePrefixSize < 2 ^ 64)
    : file.readAt offset length = .ok (readAt data offset.toNat length) := by
  rw [EncryptedVfsFile.readAt, physicalOffset, if_pos fits, ok_bind, readAt_eq,
    readAt_eq, represents.drop_inner, applyKeystream, applyKeystream, ← mask_take,
    mask_mask]

/-- A write underneath of the masked bytes. -/
theorem writeAt_inner (starts : offset ≤ data.length) : Represents key salt
      { file with
        inner := writeAt file.inner (offset + tdePrefixSize)
          (applyKeystream file.crypto offset bytes)
      }
      (writeAt data offset bytes) := by
  refine ⟨?_, represents.crypto⟩
  have inside : offset + tdePrefixSize ≤ file.inner.length := by
    rw [represents.length_inner]
    omega
  have before : (data.take offset).length = offset := List.length_take_of_le starts
  have behind := represents.drop_inner (offset + bytes.length)
  rw [add_right_comm] at behind
  rw [writeAt_of_le inside, writeAt_of_le starts]
  unfold applyKeystream at behind ⊢
  rw [length_mask, behind, mask_append, mask_append, before]
  have front := represents.take_inner offset
  unfold applyKeystream at front
  simp [front, before]

/-- Shrinking the file on disk shrinks the data. -/
theorem setLen_inner (shrinks : length ≤ data.length) : Represents key salt
      { file with inner := resize file.inner (length + tdePrefixSize) }
      (resize data length) := by
  refine ⟨?_, represents.crypto⟩
  have inside : length + tdePrefixSize ≤ file.inner.length := by
    rw [represents.length_inner]
    omega
  rw [resize_of_le inside, resize_of_le shrinks]
  exact represents.take_inner length

end Represents

-- Calls

/-- Every buffer starts inside the file as the buffers before it leave it, or at its end. -/
def WritesContiguous (data : List UInt8) : List (UInt64 × List UInt8) → Prop
  | [] => True
  | (offset, bytes) :: rest =>
    offset.toNat + tdePrefixSize < 2 ^ 64
      ∧ (bytes ≠ [] → offset.toNat ≤ data.length)
      ∧ WritesContiguous
        (if bytes.isEmpty then data else writeAt data offset.toNat bytes) rest

/-- A call that leaves no gap behind the end of the file, at an offset that the prefix can
be added to.
-/
def LeavesNoGap (data : List UInt8) : FileCall → Prop
  | .readAt offset _ => offset.toNat + tdePrefixSize < 2 ^ 64
  | .writeAt offset _ => offset.toNat + tdePrefixSize < 2 ^ 64 ∧ offset.toNat ≤ data.length
  | .writeAllAtMany writes => WritesContiguous data writes
  | .setLen length => length.toNat + tdePrefixSize < 2 ^ 64 ∧ length.toNat ≤ data.length
  | .fileSize | .reopen => True

omit [TdePrimitives] in
instance WritesContiguous.decidable
    : ∀ data writes, Decidable (WritesContiguous data writes)
  | _, [] => isTrue trivial
  | data, (offset, bytes) :: rest =>
    have := WritesContiguous.decidable
      (if bytes.isEmpty then data else writeAt data offset.toNat bytes) rest
    inferInstanceAs (Decidable (_ ∧ _ ∧ _))

instance (data : List UInt8) (call : FileCall) : Decidable (LeavesNoGap data call) := by
  cases call <;> unfold LeavesNoGap <;> infer_instance

omit [TdePrimitives] in
/-- The offsets of contiguous writes leave room for the header. -/
theorem WritesContiguous.fits (contiguous : WritesContiguous data writes)
    : ∀ write ∈ writes, write.1.toNat + tdePrefixSize < 2 ^ 64 := by
  induction writes generalizing data with
  | nil => exact nofun
  | cons write rest ih => exact List.forall_mem_cons.mpr ⟨contiguous.1, ih contiguous.2.2⟩

section

variable (represents : Represents key salt file data)
include represents

/-- Writing several buffers underneath, by induction on them. -/
theorem Represents.writeAllAtMany_inner (contiguous : WritesContiguous data writes)
    : Represents key salt
      { file with
        inner := writeAllAtMany file.inner (writes.map fun (offset, bytes) =>
          (offset.toNat + tdePrefixSize, applyKeystream file.crypto offset.toNat bytes))
      }
      (writeAllAtMany data (writes.map fun (offset, bytes) => (offset.toNat, bytes))) := by
  induction writes generalizing file data with
  | nil => exact represents
  | cons write rest ih =>
    obtain ⟨offset, bytes⟩ := write
    obtain ⟨-, starts, later⟩ := contiguous
    have masked : (applyKeystream file.crypto offset.toNat bytes).isEmpty = bytes.isEmpty := by
      cases bytes <;> rfl
    simp only [List.map_cons, writeAllAtMany, masked]
    cases empty : bytes.isEmpty with
    | true =>
      rw [empty] at later
      exact ih represents later
    | false =>
      rw [empty] at later
      have nonempty : bytes ≠ [] := by
        rintro rfl
        cases empty
      exact ih (represents.writeAt_inner (starts nonempty)) later

/-- Contiguous writes to the encrypted file are those to the data. -/
theorem Represents.writeAllAtMany (contiguous : WritesContiguous data writes)
    : ∃ changed, file.writeAllAtMany writes = .ok changed ∧ Represents key salt changed
        (writeAllAtMany data
          (writes.map fun (offset, bytes) => (offset.toNat, bytes))) := by
  refine ⟨_, ?_, represents.writeAllAtMany_inner contiguous⟩
  rw [EncryptedVfsFile.writeAllAtMany, Results.mapM_eq_map, ok_bind]
  rintro ⟨offset, bytes⟩ member
  have fits := contiguous.fits _ member
  simp only [physicalOffset, if_pos fits, ok_bind]

/-- A guarded call is answered alike and leaves files that represent each other. -/
theorem Represents.step {call : FileCall} (gapless : LeavesNoGap data call)
    : ((encryptedFile key).step file call).2 = (plainFile.step data call).2
      ∧ Represents key salt ((encryptedFile key).step file call).1
        (plainFile.step data call).1 := by
  cases call with
  | readAt offset length =>
    refine ⟨?_, represents⟩
    simp [encryptedFile, encryptedStep, plainFile, plainStep, represents.readAt _ _ gapless,
      Except.map]
  | writeAt offset bytes =>
    have written : file.writeAt offset bytes = .ok { file with
      inner := writeAt file.inner (offset.toNat + tdePrefixSize)
        (applyKeystream file.crypto offset.toNat bytes) } := by
      rw [EncryptedVfsFile.writeAt, physicalOffset, if_pos gapless.1, ok_bind]
    simp only [encryptedFile, encryptedStep, written, orUnchanged]
    exact ⟨rfl, represents.writeAt_inner gapless.2⟩
  | writeAllAtMany writes =>
    obtain ⟨changed, written, after⟩ := represents.writeAllAtMany gapless
    simp only [encryptedFile, encryptedStep, written, orUnchanged]
    exact ⟨rfl, after⟩
  | setLen length =>
    have resized : file.setLen length = .ok { file with
      inner := resize file.inner (length.toNat + tdePrefixSize) } := by
      rw [EncryptedVfsFile.setLen, physicalOffset, if_pos gapless.1, ok_bind]
    simp only [encryptedFile, encryptedStep, resized, orUnchanged]
    exact ⟨rfl, represents.setLen_inner gapless.2⟩
  | fileSize =>
    refine ⟨?_, represents⟩
    simp [encryptedFile, encryptedStep, plainFile, plainStep, EncryptedVfsFile.fileSize,
      represents.length_inner]
  | reopen =>
    have opened : EncryptedVfs.open file.path key .openExisting file.kind (Vector.replicate 32 0)
      file.inner = .ok file := by
      have found : readPrefix file.path file.inner file.kind key = .ok salt.toList := by
        rw [represents.inner]
        exact readPrefix_encodePrefix file.path file.kind key _ salt
      simp [EncryptedVfs.open, found, ← represents.crypto]
    simp only [encryptedFile, encryptedStep, opened, orUnchanged]
    exact ⟨rfl, represents⟩

end

/-- Every sequence of calls that leaves no gap is answered as by a plain file. -/
theorem encryptedFile_answers {path : String} {mode : OpenMode} {kind : FileKind}
    {calls : List FileCall} (opened : EncryptedVfs.open path key mode kind salt [] = .ok file)
    (gapless : plainFile.Meets LeavesNoGap [] calls)
    : (encryptedFile key).answers file calls = plainFile.answers [] calls :=
  CallSequences.Component.answers_eq (Represents key salt)
    (fun _ _ _ represents guard => represents.step guard) (.create opened) gapless

end Encrypted

/-- A keystream without zeros among its first bytes. -/
@[reducible]
def countingPrimitives : TdePrimitives where
  sha256 := fun _ => Vector.replicate 32 0
  keystream := fun _ _ position => UInt8.ofNat (position + 1)

/-- Overlapping writes, a truncation and a reopening. -/
theorem encryptedFile_answers_overlapping : letI := countingPrimitives
      ∃ file, EncryptedVfs.open "a.db" [7] .createNew .database (Vector.replicate 32 9) [] = .ok file
        ∧ (encryptedFile [7]).answers file
          [.writeAt 0 [1, 2, 3], .writeAllAtMany [(1, [8, 9]), (3, [4])], .setLen 3, .reopen,
            .readAt 1 5]
          = [.ok (.written 3), .ok .done, .ok .done, .ok .done, .ok (.read [8, 9])] := by
  let _ := countingPrimitives
  have opened : EncryptedVfs.open "a.db" [7] .createNew .database (Vector.replicate 32 9) []
    = .ok _ := rfl
  exact ⟨_, opened, encryptedFile_answers opened (by decide)⟩

/-- Bytes that were never written read as the keystream. -/
theorem encryptedFile_extension_counterexample : letI := countingPrimitives
      ∃ file, EncryptedVfs.open "a.db" [7] .createNew .database (Vector.replicate 32 9) [] = .ok file
        ∧ (encryptedFile [7]).answers file [.setLen 2, .readAt 0 2]
          = [.ok .done, .ok (.read [1, 2])]
        ∧ plainFile.answers [] [.setLen 2, .readAt 0 2] = [.ok .done, .ok (.read [0, 0])] := by
  let _ := countingPrimitives
  exact ⟨_, rfl, by decide +kernel, by decide⟩

end DecentDb.Vfs
