import DecentDb.Error
import Mathlib.Data.Nat.Digits.Lemmas

/-! Base-128 numerals, as lengths and numbers are written in records. The decoder accumulates in
64 bits, and of the tenth byte of a numeral only the lowest bit fits into them.
-/

namespace DecentDb.Record

open List

-- The decoder

/-- The loop of `decode_varint_u64` over the remaining bytes. -/
def decodeVarintFrom (index shift : Nat) (value : UInt64) : List UInt8 → DbResult (UInt64 × Nat)
  | [] => .error (.corruption "truncated varint")
  | byte :: rest =>
    let payload := (byte &&& 0x7F).toUInt64
    let value := value ||| payload <<< UInt64.ofNat shift
    if byte &&& 0x80 = 0 then .ok (value, index + 1)
    else if 64 ≤ shift + 7 then .error (.corruption "varint exceeds 64-bit range")
    else decodeVarintFrom (index + 1) (shift + 7) value rest

variable (input : List UInt8) {last : UInt8}

def decodeVarintU64 : DbResult (UInt64 × Nat) := decodeVarintFrom 0 0 0 input

-- Numerals

/-- The number that the low seven bits of the bytes stand for, least significant first. -/
def numeralValue (bytes : List UInt8) : Nat :=
  Nat.ofDigits 128 (bytes.map fun byte => byte.toNat % 128)

/-- The continuation bit is set on exactly the bytes before the last one. -/
def IsNumeral (bytes : List UInt8) : Prop :=
  ∃ initial last, bytes = initial ++ [last] ∧ (∀ byte ∈ initial, 128 ≤ byte.toNat)
    ∧ last.toNat < 128

/-- The last byte counts by its position. -/
theorem numeralValue_concat (initial : List UInt8) (ends : last.toNat < 128)
    : numeralValue (initial ++ [last])
      = numeralValue initial + 128 ^ initial.length * last.toNat := by
  rw [numeralValue, map_append, Nat.ofDigits_append, length_map, map_singleton,
    Nat.ofDigits_singleton, Nat.mod_eq_of_lt ends, numeralValue]

/-- The value of a numeral is bounded by its length. -/
theorem numeralValue_lt (bytes : List UInt8) : numeralValue bytes < 128 ^ bytes.length := by
  have bound := Nat.ofDigits_lt_base_pow_length (b := 128)
    (l := bytes.map fun byte => byte.toNat % 128) (by decide) fun digit member => by
      obtain ⟨byte, -, rfl⟩ := mem_map.mp member
      exact Nat.mod_lt _ (by decide)
  rwa [length_map] at bound

-- The loop

/-- The low seven bits are the digit of a byte. -/
theorem toNat_payload (byte : UInt8) : (byte &&& 0x7F).toUInt64.toNat = byte.toNat % 128 := by
  rw [UInt8.toNat_toUInt64, UInt8.toNat_and]
  exact Nat.and_two_pow_sub_one_eq_mod byte.toNat 7

/-- The highest bit tells whether a byte is below 128. -/
theorem and_high_bit_eq_zero (byte : UInt8) : byte &&& 0x80 = 0 ↔ byte.toNat < 128 := by
  have all : ∀ number : Fin 256, UInt8.ofNat number &&& 0x80 = 0 ↔ number.val < 128 := by
    decide +kernel
  have this := all ⟨byte.toNat, byte.toNat_lt⟩
  rwa [UInt8.ofNat_toNat] at this

/-- A payload is put above the bits that are there, as far as it fits. -/
theorem toNat_or_shiftLeft {shift : Nat} (small : shift < 64) {value : UInt64}
    (below : value.toNat < 2 ^ shift) (payload : UInt64)
    : (value ||| payload <<< UInt64.ofNat shift).toNat
      = (value.toNat + 2 ^ shift * payload.toNat) % 2 ^ 64 := by
  have amount : (UInt64.ofNat shift).toNat % 64 = shift := by
    rw [UInt64.toNat_ofNat']
    omega
  have power : 2 ^ 64 = 2 ^ shift * 2 ^ (64 - shift) := by
    rw [← pow_add, Nat.add_sub_cancel' (le_of_lt small)]
  rw [UInt64.toNat_or, UInt64.toNat_shiftLeft, amount, Nat.shiftLeft_eq,
    mul_comm payload.toNat, power, Nat.mul_mod_mul_left, Nat.or_comm,
    ← Nat.two_pow_add_eq_or_of_lt below, Nat.mod_mul, Nat.add_mul_mod_self_left,
    Nat.mod_eq_of_lt below, Nat.add_mul_div_left _ _ (Nat.two_pow_pos shift),
    Nat.div_eq_of_lt below, zero_add, add_comm]

/-- The loop over a numeral of at most ten bytes, by induction on those before the last. -/
theorem decodeVarintFrom_numeral {initial : List UInt8} {index : Nat}
    {value : UInt64} (continued : ∀ byte ∈ initial, 128 ≤ byte.toNat) (ends : last.toNat < 128)
    (short : index + initial.length ≤ 9) (below : value.toNat < 2 ^ (7 * index)) (rest : List UInt8)
    : decodeVarintFrom index (7 * index) value (initial ++ last :: rest)
      = .ok (UInt64.ofNat (value.toNat + 2 ^ (7 * index) * numeralValue (initial ++ [last])),
        index + initial.length + 1) := by
  induction initial generalizing index value with
  | nil =>
    have merged := toNat_or_shiftLeft (show 7 * index < 64 by simp at short; omega) below
      (last &&& 0x7F).toUInt64
    rw [toNat_payload, Nat.mod_eq_of_lt ends] at merged
    rw [nil_append, decodeVarintFrom, if_pos ((and_high_bit_eq_zero last).mpr ends),
      numeralValue_concat [] ends]
    refine congrArg Except.ok (Prod.ext (UInt64.toNat_inj.mp ?_) rfl)
    rw [merged, UInt64.toNat_ofNat']
    simp [numeralValue]
  | cons byte others ih =>
    obtain ⟨high, later⟩ := forall_mem_cons.mp continued
    rw [length_cons] at short
    have merged := toNat_or_shiftLeft (show 7 * index < 64 by omega) below (byte &&& 0x7F).toUInt64
    have digit : byte.toNat % 128 < 128 := Nat.mod_lt _ (by decide)
    have shifted : 2 ^ (7 * (index + 1)) = 2 ^ (7 * index) * 128 := by rw [Nat.mul_add, Nat.pow_add]
    have room : 2 ^ (7 * (index + 1)) ≤ 2 ^ 63 := Nat.pow_le_pow_right (by decide) (by omega)
    have fits : value.toNat + 2 ^ (7 * index) * (byte.toNat % 128) < 2 ^ (7 * (index + 1)) := by
      have atMost := Nat.mul_le_mul_left (2 ^ (7 * index)) (Nat.le_of_lt_succ digit)
      omega
    rw [toNat_payload, Nat.mod_eq_of_lt (by omega)] at merged
    rw [cons_append, decodeVarintFrom,
      if_neg fun zero => absurd ((and_high_bit_eq_zero byte).mp zero) (by omega), if_neg (by omega)]
    have loop := ih later (by omega) (merged ▸ fits)
    rw [mul_add] at loop
    rw [loop, merged, length_cons, pow_add]
    refine congrArg Except.ok (Prod.ext (congrArg UInt64.ofNat ?_) (by omega))
    simp only [numeralValue, cons_append, map_cons, Nat.ofDigits_cons]
    ring

/-- What is accepted starts with a numeral of at most ten bytes, by induction on the input. -/
theorem exists_numeral_of_decodeVarintFrom {input : List UInt8} {index length : Nat}
    {value decoded : UInt64} (short : index ≤ 9)
    (accepted : decodeVarintFrom index (7 * index) value input = .ok (decoded, length))
    : ∃ initial last rest, input = initial ++ last :: rest
      ∧ (∀ byte ∈ initial, 128 ≤ byte.toNat) ∧ last.toNat < 128 ∧ index + initial.length ≤ 9 := by
  induction input generalizing index value with
  | nil => cases accepted
  | cons byte rest ih =>
    rw [decodeVarintFrom] at accepted
    split at accepted
    next ended => exact ⟨[], byte, rest, rfl, by simp, (and_high_bit_eq_zero byte).mp ended, short⟩
    next continues =>
      split at accepted
      next => cases accepted
      next room =>
        obtain ⟨initial, last, tail, rfl, continued, ends, bound⟩ :=
          ih (show index + 1 ≤ 9 by omega) accepted
        have high : 128 ≤ byte.toNat :=
          le_of_not_gt fun low => continues ((and_high_bit_eq_zero byte).mpr low)
        refine ⟨byte :: initial, last, tail, rfl, ?_, ends, by rw [length_cons]; omega⟩
        exact forall_mem_cons.mpr ⟨high, continued⟩

-- Soundness

/-- What is decoded is the value of the numeral at the start of the input. -/
def DecodesSoundly : Prop :=
  ∀ value length, decodeVarintU64 input = .ok (value, length)
    → length ≤ input.length ∧ IsNumeral (input.take length)
      ∧ numeralValue (input.take length) = value.toNat

/-- The tenth byte of a numeral is at most one. -/
def TenthByteFits : Prop :=
  (∀ byte ∈ input.take 9, 128 ≤ byte.toNat)
    → ∀ tenth, input[9]? = some tenth → tenth.toNat < 128 → tenth.toNat ≤ 1

/-- Decoding is sound exactly for the inputs that do not start with a numeral of ten bytes whose
last byte is above one.
-/
theorem decode_varint_sound_iff (input : List UInt8)
    : DecodesSoundly input ↔ TenthByteFits input := by
  constructor
  · intro sound continued tenth found ends
    obtain ⟨inside, isTenth⟩ := List.getElem?_eq_some_iff.mp found
    have nine : (input.take 9).length = 9 := by rw [length_take]; omega
    have parts : input = input.take 9 ++ tenth :: input.drop 10 := by
      rw [← isTenth, getElem_cons_drop, take_append_drop]
    have decoded := @decodeVarintFrom_numeral _ _ 0 0 continued ends
      (by omega) (by decide) (input.drop 10)
    rw [← parts, nine] at decoded
    obtain ⟨-, -, same⟩ := sound _ _ decoded
    have ten : input.take 10 = input.take 9 ++ [tenth] := by
      rw [take_add_one, found, Option.toList_some]
    have fits := lt_of_le_of_lt (le_of_eq same) (UInt64.toNat_lt _)
    rw [show 0 + 9 + 1 = 10 from rfl, ten, numeralValue_concat _ ends, nine] at fits
    omega
  intro fits value length accepted
  obtain ⟨initial, last, rest, rfl, continued, ends, short⟩ :=
    exists_numeral_of_decodeVarintFrom (Nat.zero_le 9) accepted
  have decoded := @decodeVarintFrom_numeral _ _ 0 0 continued ends short (by decide) rest
  rw [decodeVarintU64] at accepted
  cases decoded.symm.trans accepted
  have taken : (initial ++ last :: rest).take (0 + initial.length + 1) = initial ++ [last] := by
    simp [take_append]
  have value_eq := numeralValue_concat initial ends
  have below := numeralValue_lt initial
  have bound : numeralValue (initial ++ [last]) < 2 ^ 64 := by
    rcases Nat.lt_or_eq_of_le (show initial.length ≤ 9 by omega) with shorter | nine
    · have total := numeralValue_lt (initial ++ [last])
      have power : 128 ^ (initial ++ [last]).length ≤ 128 ^ 9 :=
        Nat.pow_le_pow_right (by decide) (by simp; omega)
      omega
    have one := fits (by simpa [take_append, nine] using continued) last (by simp [nine]) ends
    rw [nine] at value_eq below
    omega
  refine ⟨by simp, taken ▸ ⟨initial, last, rfl, continued, ends⟩, ?_⟩
  rw [taken, UInt64.toNat_ofNat']
  simpa using (Nat.mod_eq_of_lt bound).symm

/-- Ten bytes with the value `2 ^ 64` are decoded as zero. -/
theorem decode_varint_truncates : decodeVarintU64 (replicate 9 0x80 ++ [2]) = .ok (0, 10)
      ∧ IsNumeral (replicate 9 0x80 ++ [2])
      ∧ numeralValue (replicate 9 0x80 ++ [2]) = 2 ^ 64 :=
  ⟨by decide +kernel, ⟨_, 2, rfl, by decide +kernel, by decide⟩, by decide +kernel⟩

-- Reading a number back

/-- The digits of a number, of seven bits each. -/
def encodeVarintFrom : Nat → UInt64 → List UInt8
  | 0, _ => []
  | digits + 1, value =>
    let byte := (value &&& 0x7F).toUInt8
    if value >>> 7 = 0 then [byte] else (byte ||| 0x80) :: encodeVarintFrom digits (value >>> 7)

/-- Ten digits are enough for 64 bits. -/
def encodeVarintU64 (value : UInt64) : List UInt8 := encodeVarintFrom 10 value

/-- Setting the highest bit adds 128. -/
theorem toNat_continued (byte : UInt8) (small : byte.toNat < 128)
    : (byte ||| 0x80).toNat = byte.toNat + 128 := by
  have all : ∀ number : Fin 128, (UInt8.ofNat number ||| 0x80).toNat = number.val + 128 := by
    decide +kernel
  have this := all ⟨byte.toNat, small⟩
  rwa [UInt8.ofNat_toNat] at this

/-- What is written for a number is a numeral for it, by induction on the digits. -/
theorem encodeVarintFrom_numeral {digits : Nat} {value : UInt64}
    (fits : value.toNat < 128 ^ digits) (positive : digits ≠ 0)
    : ∃ initial last, encodeVarintFrom digits value = initial ++ [last]
      ∧ (∀ byte ∈ initial, 128 ≤ byte.toNat) ∧ last.toNat < 128 ∧ initial.length < digits
      ∧ numeralValue (initial ++ [last]) = value.toNat := by
  induction digits generalizing value with
  | zero => exact absurd rfl positive
  | succ digits ih =>
    have digit : ((value &&& 0x7F).toUInt8).toNat = value.toNat % 128 := by
      have masked := Nat.and_two_pow_sub_one_eq_mod value.toNat 7
      rw [UInt64.toNat_toUInt8, UInt64.toNat_and, show (0x7F : UInt64).toNat = 2 ^ 7 - 1 from rfl,
        masked]
      omega
    have above : (value >>> 7).toNat = value.toNat / 128 := by
      rw [UInt64.toNat_shiftRight]
      exact Nat.shiftRight_eq_div_pow ..
    have small : ((value &&& 0x7F).toUInt8).toNat < 128 := digit ▸ Nat.mod_lt _ (by decide)
    rw [encodeVarintFrom]
    split
    next last =>
      have zero : value.toNat / 128 = 0 := by rw [← above, last]; rfl
      refine ⟨[], _, rfl, nofun, small, Nat.succ_pos _, ?_⟩
      rw [nil_append, numeralValue, map_singleton, Nat.ofDigits_singleton, Nat.mod_eq_of_lt small,
        digit]
      omega
    next more =>
      have nonzero : value.toNat / 128 ≠ 0 := fun zero =>
        more (UInt64.toNat_inj.mp (above.trans zero))
      rw [Nat.pow_succ] at fits
      have rest : (value >>> 7).toNat < 128 ^ digits := above ▸ Nat.div_lt_of_lt_mul (by omega)
      have others : digits ≠ 0 := by
        rintro rfl
        omega
      obtain ⟨initial, last, written, continued, ends, short, denotes⟩ := ih rest others
      have high := toNat_continued _ small
      refine ⟨_ :: initial, last, by rw [written, cons_append], ?_, ends, ?_, ?_⟩
      · exact forall_mem_cons.mpr ⟨by omega, continued⟩
      · exact Nat.succ_lt_succ short
      rw [numeralValue] at denotes
      rw [numeralValue, cons_append, map_cons, Nat.ofDigits_cons, denotes, above, high]
      omega

/-- The bytes of a numeral go on until the first one below 128. -/
theorem takeWhile_numeral {initial rest : List UInt8}
    (continued : ∀ byte ∈ initial, 128 ≤ byte.toNat) (ends : last.toNat < 128)
    : (initial ++ last :: rest).takeWhile (128 ≤ ·.toNat) = initial := by
  rw [takeWhile_append_of_pos fun byte member => decide_eq_true (continued byte member),
    takeWhile_cons_of_neg (by simp [ends]), append_nil]

/-- What is written tells where it ends: the last byte is the first one below 128. -/
theorem encodeVarintU64_append_inj {left right : UInt64} {leftRest rightRest : List UInt8}
    (same : encodeVarintU64 left ++ leftRest = encodeVarintU64 right ++ rightRest)
    : left = right ∧ leftRest = rightRest := by
  have fits (value : UInt64) : value.toNat < 128 ^ 10 := lt_trans value.toNat_lt (by decide)
  obtain ⟨initial, last, written, continued, ends, -, denotes⟩ :=
    encodeVarintFrom_numeral (fits left) (by decide)
  obtain ⟨others, final, writtenRight, continuedRight, endsRight, -, denotesRight⟩ :=
    encodeVarintFrom_numeral (fits right) (by decide)
  rw [encodeVarintU64, encodeVarintU64, written, writtenRight, append_assoc, append_assoc,
    singleton_append, singleton_append] at same
  have starts := congrArg (takeWhile (128 ≤ ·.toNat)) same
  rw [takeWhile_numeral continued ends, takeWhile_numeral continuedRight endsRight] at starts
  rw [starts] at same denotes
  obtain ⟨sameLast, sameRest⟩ := cons.inj (append_cancel_left same)
  rw [sameLast, denotesRight] at denotes
  exact ⟨UInt64.toNat_inj.mp denotes.symm, sameRest⟩

/-- The decoder reads every number back from what is written for it, whatever bytes follow, and
takes exactly the bytes that were written.
-/
theorem decode_encode_varint (value : UInt64) (rest : List UInt8)
    : decodeVarintU64 (encodeVarintU64 value ++ rest)
      = .ok (value, (encodeVarintU64 value).length) := by
  obtain ⟨initial, last, written, continued, ends, short, denotes⟩ :=
    encodeVarintFrom_numeral (lt_trans value.toNat_lt (by decide : 2 ^ 64 < 128 ^ 10)) (by decide)
  have read := @decodeVarintFrom_numeral last initial 0 0 continued ends (by omega) (by simp) rest
  rw [Nat.mul_zero] at read
  rw [encodeVarintU64, written, append_assoc, singleton_append, decodeVarintU64, read, denotes]
  simp

end DecentDb.Record
