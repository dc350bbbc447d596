import DecentDb.Record.DecimalKeyOrder

/-! The order of index keys against the order of the values. The keys of one type sort like
its values, except for some negative decimals, for some pairs of a short and a long hardware
address, and for networks that fail their validation.
-/

namespace DecentDb.Record

open Lexicographic Std.OrientedOrd

-- The functions

def encodeIndexKey (value : Value) : DbResult (List UInt8) := encodeRuntimeIndexKey value

def compareIndexValues : Value → Value → DbResult Ordering
  | .null, .null => .ok .eq
  | .bool left, .bool right => .ok (compare left right)
  | .int64 left, .int64 right => .ok (compare left right)
  | .float64 left, .float64 right => .ok (totalCmp left right)
  | .decimal left leftScale, .decimal right rightScale =>
    .ok (compareDecimal left.toInt leftScale.toNat right.toInt rightScale.toNat)
  | .timestampMicros left, .timestampMicros right => .ok (compare left right)
  | .uuid left, .uuid right => .ok (compare left.toList right.toList)
  | .text left, .text right => .ok (compare left.toUTF8.toList right.toUTF8.toList)
  | .blob left, .blob right => .ok (compare left right)
  | .enum leftType leftLabel, .enum rightType rightLabel =>
    .ok ((compare leftType rightType).then (compare leftLabel rightLabel))
  | .ipAddr leftFamily leftAddr, .ipAddr rightFamily rightAddr =>
    compareIpAddr leftFamily leftAddr rightFamily rightAddr
  | .cidr leftFamily leftPrefix leftNetwork, .cidr rightFamily rightPrefix rightNetwork =>
    compareCidr leftFamily leftPrefix leftNetwork rightFamily rightPrefix rightNetwork
  | .macAddr leftLen leftBytes, .macAddr rightLen rightBytes =>
    compareMacAddr leftLen leftBytes rightLen rightBytes
  | .dateDays left, .dateDays right => .ok (compare left right)
  | .timeMicros left, .timeMicros right => .ok (compare left right)
  | .timestampTzMicros left, .timestampTzMicros right => .ok (compare left right)
  | .interval leftMonths leftDays leftMicros, .interval rightMonths rightDays rightMicros =>
    .ok (compareInterval leftMonths leftDays leftMicros rightMonths rightDays rightMicros)
  | .geometry _, .geometry _ | .geography _, .geography _ =>
    .error (.constraint "spatial values cannot use generic index-key comparison")
  | _, _ => .error (.constraint "index-key comparison requires values of the same indexed type")

-- Addresses

/-- An address takes sixteen bytes of its key. -/
theorem length_ipAddrOrderBytes (family : UInt8) (addr : Vector UInt8 16)
    : (ipAddrOrderBytes family addr).length = 16 := by
  rw [ipAddrOrderBytes]
  split <;> simp

/-- An address with a key belongs to one of the two families. -/
theorem validateIpFamilyPayload_of_key {family : UInt8} {addr : Vector UInt8 16}
    {bytes : List UInt8} (encoded : sortableBytes (.ipAddr family addr) = .ok bytes)
    : validateIpFamilyPayload family = .ok ()
      ∧ bytes = ipAddrOrderBytes family addr ++ [family] := by
  obtain ⟨ordered, sortable, isKey⟩ := bind_eq_ok.mp encoded
  cases isKey
  rw [ipAddrSortableBytes] at sortable
  split at sortable <;> cases sortable
  next known => exact ⟨if_pos known, rfl⟩

variable {leftBytes rightBytes key leftKey rightKey : List UInt8} {left right : Value}

/-- Addresses are ordered like their keys. -/
theorem compareIpAddr_keys {leftFamily rightFamily : UInt8} {leftAddr rightAddr : Vector UInt8 16}
    (leftKey : sortableBytes (.ipAddr leftFamily leftAddr) = .ok leftBytes)
    (rightKey : sortableBytes (.ipAddr rightFamily rightAddr) = .ok rightBytes)
    : compareIpAddr leftFamily leftAddr rightFamily rightAddr
      = .ok (compare leftBytes rightBytes) := by
  obtain ⟨leftValid, rfl⟩ := validateIpFamilyPayload_of_key leftKey
  obtain ⟨rightValid, rfl⟩ := validateIpFamilyPayload_of_key rightKey
  rw [compareIpAddr, leftValid, ok_bind, rightValid, ok_bind, compare_append
    (by rw [length_ipAddrOrderBytes, length_ipAddrOrderBytes]), compare_singleton]

/-- Networks compare like their keys once both are found valid. -/
theorem compareCidr_keys_iff {leftFamily leftPrefix rightFamily rightPrefix : UInt8}
    {leftNetwork rightNetwork : Vector UInt8 16}
    : compareCidr leftFamily leftPrefix leftNetwork rightFamily rightPrefix rightNetwork
      = .ok (compare (leftFamily :: leftPrefix :: networkBytes leftFamily leftNetwork)
        (rightFamily :: rightPrefix :: networkBytes rightFamily rightNetwork))
      ↔ validateCidrPayload leftFamily leftPrefix leftNetwork = .ok ()
        ∧ validateCidrPayload rightFamily rightPrefix rightNetwork = .ok () := by
  constructor
  · intro compared
    obtain ⟨⟨⟩, leftValid, compared⟩ := bind_eq_ok.mp compared
    obtain ⟨⟨⟩, rightValid, -⟩ := bind_eq_ok.mp compared
    exact ⟨leftValid, rightValid⟩
  rintro ⟨leftValid, rightValid⟩
  rw [compareCidr, leftValid, ok_bind, rightValid, ok_bind, List.compare_cons_cons,
    List.compare_cons_cons, Ordering.then_assoc]
  by_cases family : leftFamily = rightFamily
  · rw [family]
  · have decided : compare leftFamily rightFamily ≠ .eq :=
    fun same => family (Std.compare_eq_iff_eq.mp same)
    rw [then_of_ne decided, then_of_ne decided]

/-- A short hardware address that is the start of a long one, whose next byte is below the
length byte that ends the short one's key.
-/
def MacShadowed (shortLen : UInt8) (short : Vector UInt8 8) (longLen : UInt8)
    (long : Vector UInt8 8) : Prop :=
  shortLen = 6 ∧ longLen = 8 ∧ short.toList.take 6 = long.toList.take 6 ∧ long[6] < 6

instance (shortLen : UInt8) (short : Vector UInt8 8) (longLen : UInt8) (long : Vector UInt8 8)
    : Decidable (MacShadowed shortLen short longLen long) :=
  inferInstanceAs (Decidable (_ ∧ _ ∧ _ ∧ _))

/-- A hardware address with a key has six or eight bytes, which the key ends with the number of. -/
theorem macAddr_of_key {len : UInt8} {bytes : Vector UInt8 8}
    (encoded : sortableBytes (.macAddr len bytes) = .ok key)
    : validateMacAddrPayload len bytes = .ok () ∧ (len = 6 ∨ len = 8)
      ∧ key = bytes.toList.take len.toNat ++ [len] := by
  obtain ⟨ordering, compared, isKey⟩ := bind_eq_ok.mp encoded
  cases isKey
  obtain ⟨⟨⟩, valid, -⟩ := bind_eq_ok.mp compared
  refine ⟨valid, ?_, rfl⟩
  rw [validateMacAddrPayload] at valid
  split at valid
  · cases valid
  next known => simpa [or_iff_not_imp_left] using known

/-- The first six bytes of a long address and the other two. -/
theorem macAddr_parts (bytes : Vector UInt8 8)
    : bytes.toList.take 8 = bytes.toList.take 6 ++ [bytes[6], bytes[7]] := by
  have parts : bytes.toList.drop 6 = [bytes[6], bytes[7]] := by
    rw [List.drop_eq_getElem_cons (by simp), List.drop_eq_getElem_cons (by simp),
      List.drop_of_length_le (by simp)]
    simp
  rw [← parts, List.take_append_drop, List.take_of_length_le (by simp)]

/-- A short and a long address: the length byte of the short one's key meets the seventh byte
of the long one.
-/
theorem compare_macKeys_iff (short long : Vector UInt8 8)
    : compare (short.toList.take 6 ++ [6]) (long.toList.take 8 ++ [8])
      = (compare (short.toList.take 6) (long.toList.take 8)).then (compare (6 : UInt8) 8)
      ↔ ¬ MacShadowed 6 short 8 long := by
  have length : (short.toList.take 6).length = (long.toList.take 6).length := by simp
  have values := compare_append length [] [long[6], long[7]]
  rw [List.append_nil, List.compare_nil_cons] at values
  rw [macAddr_parts, values, List.append_assoc, compare_append length, MacShadowed]
  by_cases same : short.toList.take 6 = long.toList.take 6
  · have meets : compare [(6 : UInt8)] ([long[6], long[7]] ++ [8])
    = (compare (6 : UInt8) long[6]).then .lt := List.compare_cons_cons
    rw [same, Std.ReflOrd.compare_self, Ordering.eq_then, Ordering.eq_then, meets,
      UInt8.compare_eq_toNat_compare_toNat, UInt8.lt_iff_toNat_lt]
    have six : (6 : UInt8).toNat = 6 := rfl
    rw [six]
    rcases lt_trichotomy 6 long[6].toNat with below | equal | above
    · rw [Nat.compare_eq_lt.mpr below]
      simp only [true_and, Ordering.then, true_iff]
      omega
    · rw [Nat.compare_eq_eq.mpr equal]
      simp only [true_and, Ordering.then, true_iff]
      omega
    · rw [Nat.compare_eq_gt.mpr above]
      simp [above]
  have decided : compare (short.toList.take 6) (long.toList.take 6) ≠ .eq :=
  fun equal => same (Std.compare_eq_iff_eq.mp equal)
  rw [then_of_ne decided, then_of_ne decided, then_of_ne decided]
  simp [same]

/-- Hardware addresses compare like their keys, but for a short one that is the start of a
long one with a small next byte.
-/
theorem compareMacAddr_keys_iff {leftLen rightLen : UInt8} {leftBytes rightBytes : Vector UInt8 8}
    (leftEncoded : sortableBytes (.macAddr leftLen leftBytes) = .ok leftKey)
    (rightEncoded : sortableBytes (.macAddr rightLen rightBytes) = .ok rightKey)
    : compareMacAddr leftLen leftBytes rightLen rightBytes = .ok (compare leftKey rightKey)
      ↔ ¬ MacShadowed leftLen leftBytes rightLen rightBytes
        ∧ ¬ MacShadowed rightLen rightBytes leftLen leftBytes := by
  obtain ⟨leftValid, leftKnown, rfl⟩ := macAddr_of_key leftEncoded
  obtain ⟨rightValid, rightKnown, rfl⟩ := macAddr_of_key rightEncoded
  rw [compareMacAddr, leftValid, ok_bind, rightValid, ok_bind, Except.ok.injEq, eq_comm]
  have sameLength (len : UInt8) (left right : Vector UInt8 8)
    : compare (left.toList.take len.toNat ++ [len]) (right.toList.take len.toNat ++ [len])
      = (compare (left.toList.take len.toNat) (right.toList.take len.toNat)).then
        (compare len len) := by
    rw [compare_append (by simp), compare_singleton]
  have apart (len : UInt8) (left right : Vector UInt8 8) : ¬ MacShadowed len left len right :=
    fun shadowed => absurd (shadowed.1.symm.trans shadowed.2.1) (by decide)
  have longFirst (left right : Vector UInt8 8) : ¬ MacShadowed 8 left 6 right :=
    fun shadowed => absurd shadowed.1 (by decide)
  rcases leftKnown with rfl | rfl <;> rcases rightKnown with rfl | rfl
  · exact iff_of_true (sameLength 6 _ _) ⟨apart 6 _ _, apart 6 _ _⟩
  · rw [and_iff_left (longFirst _ _)]
    exact compare_macKeys_iff leftBytes rightBytes
  · rw [and_iff_right (longFirst _ _), ← compare_macKeys_iff rightBytes leftBytes,
    eq_swap (a := leftBytes.toList.take (8 : UInt8).toNat ++ [8])]
    have turned : ((compare (rightBytes.toList.take 6) (leftBytes.toList.take 8)).then
      (compare (6 : UInt8) 8)).swap
      = (compare (leftBytes.toList.take 8) (rightBytes.toList.take 6)).then
        (compare (8 : UInt8) 6) := by
      rw [Ordering.swap_then, ← eq_swap, ← eq_swap]
    exact (Eq.congr_right turned.symm).trans Ordering.swap_inj
  · exact iff_of_true (sameLength 8 _ _) ⟨apart 8 _ _, apart 8 _ _⟩

-- All types

/-- The keys of two values sort like the values, and are the same exactly for equal ones. -/
def SortsLike (left right : Value) (leftKey rightKey : List UInt8) : Prop :=
  compareIndexValues left right = .ok (compare leftKey rightKey)
    ∧ (leftKey = rightKey ↔ compareIndexValues left right = .ok .eq)

/-- The values of one type whose keys sort like them. -/
def OrderKept : Value → Value → Prop
  | .decimal left leftScale, .decimal right rightScale =>
    ¬ NegativeContinued (normalizeDecimal left.toInt leftScale.toNat)
      (normalizeDecimal right.toInt rightScale.toNat)
  | .macAddr leftLen left, .macAddr rightLen right =>
    ¬ MacShadowed leftLen left rightLen right ∧ ¬ MacShadowed rightLen right leftLen left
  | .cidr leftFamily leftPrefix left, .cidr rightFamily rightPrefix right =>
    validateCidrPayload leftFamily leftPrefix left = .ok ()
      ∧ validateCidrPayload rightFamily rightPrefix right = .ok ()
  | _, _ => True

/-- Keys with the order of the values are the same exactly for equal values. -/
theorem sortsLike_iff : SortsLike left right leftKey rightKey
      ↔ compareIndexValues left right = .ok (compare leftKey rightKey) := by
  refine ⟨And.left, fun sorted => ⟨sorted, ?_⟩⟩
  rw [sorted, Except.ok.injEq, Std.compare_eq_iff_eq]

/-- The first byte of two keys of one type does not tell them apart. -/
theorem compare_keys (kind : valueKind left = valueKind right)
    (leftEncoded : encodeIndexKey left = .ok leftKey)
    (rightEncoded : encodeIndexKey right = .ok rightKey)
    : ∃ leftBytes rightBytes, sortableBytes left = .ok leftBytes
      ∧ sortableBytes right = .ok rightBytes
      ∧ compare leftKey rightKey = compare leftBytes rightBytes := by
  obtain ⟨leftBytes, leftSorted, isLeft⟩ := bind_eq_ok.mp leftEncoded
  obtain ⟨rightBytes, rightSorted, isRight⟩ := bind_eq_ok.mp rightEncoded
  cases isLeft
  cases isRight
  refine ⟨leftBytes, rightBytes, leftSorted, rightSorted, ?_⟩
  rw [List.compare_cons_cons, kind, Std.ReflOrd.compare_self, Ordering.eq_then]

/-- The bytes of two values of one type compare like the values exactly if the order is
kept, by cases on the type.
-/
theorem compare_sortableBytes_iff (kind : valueKind left = valueKind right)
    (leftSorted : sortableBytes left = .ok leftBytes)
    (rightSorted : sortableBytes right = .ok rightBytes)
    : compareIndexValues left right = .ok (compare leftBytes rightBytes)
      ↔ OrderKept left right := by
  -- Two values of one type are built by the same constructor.
  cases left <;> cases right <;> cases kind
  case geometry.geometry.refl | geography.geography.refl => cases leftSorted
  case ipAddr.ipAddr.refl => exact iff_of_true (compareIpAddr_keys leftSorted rightSorted) trivial
  case macAddr.macAddr.refl => exact compareMacAddr_keys_iff leftSorted rightSorted
  all_goals
    cases leftSorted
    cases rightSorted
  case cidr.cidr.refl.refl.refl => exact compareCidr_keys_iff
  case decimal.decimal.refl.refl.refl =>
    rw [compareIndexValues, Except.ok.injEq, eq_comm]
    exact compare_decimalKey_iff (normalizeDecimal_fits _ _) (normalizeDecimal_fits _ _)
  all_goals refine iff_of_true (congrArg Except.ok ?_) trivial
  case null.null.refl.refl.refl | text.text.refl.refl.refl | blob.blob.refl.refl.refl
    | uuid.uuid.refl.refl.refl => rfl
  case bool.bool.refl.refl.refl left right => cases left <;> cases right <;> rfl
  case float64.float64.refl.refl.refl => exact (compare_sortableFloatBytes _ _).symm
  case int64.int64.refl.refl.refl | timestampMicros.timestampMicros.refl.refl.refl
    | timeMicros.timeMicros.refl.refl.refl | timestampTzMicros.timestampTzMicros.refl.refl.refl =>
    exact (compare_sortableSignedBytes _ _).symm
  case dateDays.dateDays.refl.refl.refl => exact (compare_sortableI32Bytes _ _).symm
  case enum.enum.refl.refl.refl =>
    rw [compare_append (by simp [sortableUnsignedBytes]), compare_sortableUnsignedBytes,
      compare_sortableUnsignedBytes]
  case interval.interval.refl.refl.refl =>
    rw [compare_append (by simp [sortableI32Bytes]), compare_append (by simp [sortableI32Bytes]),
      compare_sortableI32Bytes, compare_sortableI32Bytes, compare_sortableSignedBytes]
    rfl

/-- Two values of one type that have keys: the keys sort like the values, and are the same
exactly for equal values, if and only if the values are not two negative decimals where the
digits of one go on after those of the other, not a short hardware address at the start of a
long one with a next byte below six, and no networks that fail their validation.
-/
theorem index_keys_sort_like_values_iff {left right : Value}
    (kind : valueKind left = valueKind right) {leftKey rightKey : List UInt8}
    (leftEncoded : encodeIndexKey left = .ok leftKey)
    (rightEncoded : encodeIndexKey right = .ok rightKey)
    : SortsLike left right leftKey rightKey ↔ OrderKept left right := by
  obtain ⟨leftBytes, rightBytes, leftSorted, rightSorted, keys⟩ :=
    compare_keys kind leftEncoded rightEncoded
  rw [sortsLike_iff, keys]
  exact compare_sortableBytes_iff kind leftSorted rightSorted

/-- The keys of −1.2 and −1.3 sort like them. -/
theorem index_keys_sort_like_values_of_negatives
    : encodeIndexKey (.decimal (-12) 1) = .ok [4, 0, 251, 254, 206, 205]
      ∧ encodeIndexKey (.decimal (-13) 1) = .ok [4, 0, 251, 254, 206, 204]
      ∧ SortsLike (.decimal (-12) 1) (.decimal (-13) 1) [4, 0, 251, 254, 206, 205]
        [4, 0, 251, 254, 206, 204] := by
  have left : encodeIndexKey (.decimal (-12) 1) = .ok [4, 0, 251, 254, 206, 205] := by
    decide +kernel
  have right : encodeIndexKey (.decimal (-13) 1) = .ok [4, 0, 251, 254, 206, 204] := by
    decide +kernel
  have kept : ¬ NegativeContinued (normalizeDecimal (-12 : Int64).toInt (1 : UInt8).toNat)
    (normalizeDecimal (-13 : Int64).toInt (1 : UInt8).toNat) := by
    decide +kernel
  have kind : valueKind (.decimal (-12) 1) = valueKind (.decimal (-13) 1) := rfl
  exact ⟨left, right, (index_keys_sort_like_values_iff kind left right).mpr kept⟩

/-- Of −1 and −1.5 the first one is the greater, but its key is a start of the other's and
comes first; and the address 02:00:00:00:00:01 comes before 02:00:00:00:00:01:00:00, but its key
comes after it.
-/
theorem index_keys_out_of_order : encodeIndexKey (.decimal (-1) 0) = .ok [4, 0, 251, 254, 206]
      ∧ encodeIndexKey (.decimal (-15) 1) = .ok [4, 0, 251, 254, 206, 202]
      ∧ compareIndexValues (.decimal (-1) 0) (.decimal (-15) 1) = .ok .gt
      ∧ compare [4, 0, 251, 254, 206] [4, 0, 251, 254, 206, (202 : UInt8)] = .lt
      ∧ encodeIndexKey (.macAddr 6 #v[2, 0, 0, 0, 0, 1, 0, 0]) = .ok [16, 2, 0, 0, 0, 0, 1, 6]
      ∧ encodeIndexKey (.macAddr 8 #v[2, 0, 0, 0, 0, 1, 0, 0]) = .ok [16, 2, 0, 0, 0, 0, 1, 0, 0, 8]
      ∧ compareIndexValues (.macAddr 6 #v[2, 0, 0, 0, 0, 1, 0, 0])
        (.macAddr 8 #v[2, 0, 0, 0, 0, 1, 0, 0]) = .ok .lt
      ∧ compare [16, 2, 0, 0, 0, 0, 1, 6] [16, 2, 0, 0, 0, 0, 1, 0, 0, (8 : UInt8)] = .gt := by
  decide +kernel

end DecentDb.Record
