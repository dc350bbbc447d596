import Mathlib.Data.UInt

/-! Byte strings masked by a position-dependent stream, as a seekable stream cipher masks
them.
-/

namespace Masking

/-- The bytes combined with the stream's bytes from a position on. -/
def mask (stream : Nat → UInt8) : Nat → List UInt8 → List UInt8
  | _, [] => []
  | position, byte :: rest => (byte ^^^ stream position) :: mask stream (position + 1) rest

variable (stream : Nat → UInt8) (position)

/-- Masking keeps the length. -/
@[simp]
theorem length_mask (bytes : List UInt8)
    : (mask stream position bytes).length = bytes.length := by
  induction bytes generalizing position with
  | nil => rfl
  | cons byte rest ih => simp [mask, ih]

/-- Masking twice gives the bytes back. -/
@[simp]
theorem mask_mask (bytes : List UInt8)
    : mask stream position (mask stream position bytes) = bytes := by
  induction bytes generalizing position with
  | nil => rfl
  | cons byte rest ih => rw [mask, mask, ih, UInt8.xor_assoc, UInt8.xor_self, UInt8.xor_zero]

/-- Masking goes on in the stream where the first part ended. -/
theorem mask_append (first second : List UInt8)
    : mask stream position (first ++ second)
      = mask stream position first ++ mask stream (position + first.length) second := by
  induction first generalizing position with
  | nil => simp [mask]
  | cons byte rest ih => simp [mask, ih, add_assoc, add_comm 1]

/-- The first masked bytes are the mask of the first bytes. -/
theorem mask_take (position count : Nat) (bytes : List UInt8)
    : mask stream position (bytes.take count) = (mask stream position bytes).take count := by
  induction bytes generalizing position count with
  | nil => simp
  | cons byte rest ih =>
    cases count with
    | zero => simp [mask]
    | succ count => simp [mask, ih]

/-- The later masked bytes are the mask of the later bytes, further on in the stream. -/
theorem mask_drop (position count : Nat) (bytes : List UInt8)
    : mask stream (position + count) (bytes.drop count)
      = (mask stream position bytes).drop count := by
  induction bytes generalizing position count with
  | nil => simp [mask]
  | cons byte rest ih =>
    cases count with
    | zero => simp
    | succ count =>
      rw [List.drop_succ_cons, mask, List.drop_succ_cons, ← ih]
      congr 1
      omega

end Masking
