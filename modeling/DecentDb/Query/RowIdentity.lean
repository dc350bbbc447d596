import DecentDb.Library.LittleEndian
import DecentDb.Query.LookupAgreement
import DecentDb.Record.Varint

/-! The identity of a row: the bytes of an encoding that has the type of every value. Rows have
the same identity exactly if they agree in every column, up to what the encoding forgets.
-/

namespace DecentDb.Query

open Record

-- The encoding

def zigzagEncodeI64 (value : Int64) : UInt64 := ((value <<< 1) ^^^ (value >>> 63)).toUInt64

def encodeZigzag (value : Int64) : List UInt8 := encodeVarintU64 (zigzagEncodeI64 value)

/-- The tag and the payload of a value. -/
def encodeField : Value → DbResult (UInt8 × List UInt8)
  | .null => .ok (0, [])
  | .int64 value => .ok (1, encodeZigzag value)
  | .float64 value => .ok (2, LittleEndian.leBytes 8 value.bits.toNat)
  | .bool value => .ok (3, [if value then 1 else 0])
  | .text value => .ok (4, value.toUTF8.data.toList)
  | .blob value => .ok (5, value)
  | .decimal scaled scale => .ok (6, scale :: encodeZigzag scaled)
  | .uuid value => .ok (7, value.toList)
  | .timestampMicros value => .ok (8, encodeZigzag value)
  | .geometry value => .ok (11, value)
  | .geography value => .ok (12, value)
  | .enum enumTypeId labelId => .ok (13, encodeVarintU64 enumTypeId ++ encodeVarintU64 labelId)
  | .ipAddr family addr => do
    validateIpFamilyPayload family
    .ok (14, family :: networkBytes family addr)
  | .cidr family prefixLen network =>
    if family = 4 ∨ family = 6 then do
      validateCidrPayload family prefixLen network
      .ok (15, family :: prefixLen :: networkBytes family network)
    else .error (.corruption s!"invalid CIDR family {family}")
  | .dateDays value => .ok (16, encodeZigzag value.toInt64)
  | .timeMicros value => .ok (17, encodeZigzag value)
  | .timestampTzMicros value => .ok (18, encodeZigzag value)
  | .interval months days micros =>
    .ok (19, encodeZigzag months.toInt64 ++ encodeZigzag days.toInt64 ++ encodeZigzag micros)
  | .macAddr len bytes => do
    validateMacAddrPayload len bytes
    .ok (20, len :: bytes.toList.take len.toNat)

def encodeValues (values : List Value) : DbResult (List UInt8) := do
  let fields ← values.mapM encodeField
  .ok (encodeVarintU64 (.ofNat values.length) ++ fields.flatMap fun field =>
    field.1 :: (encodeVarintU64 (.ofNat field.2.length) ++ field.2))

def equalityKeyValue : Value → Value
  | .timestampTzMicros micros => .timestampMicros micros
  | .decimal scaled scale =>
    let normal := normalizeDecimal scaled.toInt scale.toNat
    .decimal (.ofInt normal.1) (.ofNat normal.2)
  | other => other

def rowIdentity (row : List Value) : DbResult (List UInt8) :=
  encodeValues (row.map equalityKeyValue)

-- What the encoding forgets

/-- Values that are told apart by nothing: the same value, up to the scale of a decimal and the
unused bytes of an address, or the same time with and without a zone.
-/
inductive SameIdentity : Value → Value → Prop where
  | value {left right : Value} (same : SameValue left right) : SameIdentity left right
  | withoutZone (micros : Int64)
    : SameIdentity (.timestampMicros micros) (.timestampTzMicros micros)
  | withZone (micros : Int64)
    : SameIdentity (.timestampTzMicros micros) (.timestampMicros micros)

/-- The length of what is written for a value of varying length. -/
def payloadSize : Value → Nat
  | .text value => value.toUTF8.data.toList.length
  | .blob value | .geometry value | .geography value => value.length
  | _ => 0

-- Numbers

/-- The lowest bit of the code is the sign, and the others are the number or its complement. -/
theorem zigzagEncodeI64_injective : Function.Injective zigzagEncodeI64 := by
  intro left right same
  have bits : (left.toBitVec <<< 1) ^^^ left.toBitVec.sshiftRight 63
      = (right.toBitVec <<< 1) ^^^ right.toBitVec.sshiftRight 63 :=
    congrArg UInt64.toBitVec same
  have code (number : BitVec 64) (index : Nat) (inside : index < 63)
      : ((number <<< 1) ^^^ number.sshiftRight 63).getLsbD (index + 1)
        = (number.getLsbD index ^^ number.getLsbD 63) := by
    simp [BitVec.getLsbD_sshiftRight]
    grind
  have sign (number : BitVec 64)
      : ((number <<< 1) ^^^ number.sshiftRight 63).getLsbD 0 = number.getLsbD 63 := by
    rw [BitVec.getLsbD_xor, BitVec.getLsbD_shiftLeft, BitVec.getLsbD_sshiftRight]
    simp
  have top : left.toBitVec.getLsbD 63 = right.toBitVec.getLsbD 63 := by
    rw [← sign, bits, sign]
  refine Int64.toBitVec_inj.mp (BitVec.eq_of_getLsbD_eq fun index inside => ?_)
  rcases Nat.lt_or_eq_of_le (Nat.le_of_lt_succ inside) with lower | rfl
  · have here := code left.toBitVec index lower
    rw [bits, code _ index lower, top] at here
    simpa using here.symm
  · exact top

/-- A signed number, too, tells where its code ends. -/
theorem encodeZigzag_append_inj {left right : Int64} {leftRest rightRest : List UInt8}
    (same : encodeZigzag left ++ leftRest = encodeZigzag right ++ rightRest)
    : left = right ∧ leftRest = rightRest := by
  obtain ⟨number, rest⟩ := encodeVarintU64_append_inj same
  exact ⟨zigzagEncodeI64_injective number, rest⟩

/-- Different numbers have different codes. -/
theorem encodeZigzag_injective : Function.Injective encodeZigzag := fun _ _ same =>
  (encodeZigzag_append_inj (congrArg (· ++ []) same)).1

/-- Widening keeps numbers apart. -/
theorem toInt64_injective {left right : Int32} (same : left.toInt64 = right.toInt64)
    : left = right := by
  have number := congrArg Int64.toInt same
  rw [Int32.toInt_toInt64, Int32.toInt_toInt64] at number
  exact Int32.toInt_inj.mp number

/-- The normal form of a decimal fits into the types of a decimal. -/
theorem equalityKeyValue_decimal_inj {left right : Int64} {leftScale rightScale : UInt8}
    (scaled : Int64.ofInt (normalizeDecimal left.toInt leftScale.toNat).1
      = Int64.ofInt (normalizeDecimal right.toInt rightScale.toNat).1)
    (scale : UInt8.ofNat (normalizeDecimal left.toInt leftScale.toNat).2
      = UInt8.ofNat (normalizeDecimal right.toInt rightScale.toNat).2)
    : normalizeDecimal left.toInt leftScale.toNat
      = normalizeDecimal right.toInt rightScale.toNat := by
  have fits (number : Int64) (digits : UInt8) :=
    normalizeDecimal_bounds digits.toNat ⟨number.le_toInt, number.toInt_lt⟩
  have left' := fits left leftScale
  have right' := fits right rightScale
  have small := leftScale.toNat_lt
  have smallRight := rightScale.toNat_lt
  have numbers := congrArg Int64.toInt scaled
  rw [Int64.toInt_ofInt_of_le left'.1 left'.2.1, Int64.toInt_ofInt_of_le right'.1 right'.2.1]
    at numbers
  have digits := congrArg UInt8.toNat scale
  rw [UInt8.toNat_ofNat', UInt8.toNat_ofNat'] at digits
  exact Prod.ext numbers (by omega)

-- Fields

/-- The tag of a type, where both types of a timestamp have the same. -/
def identityTag : ValueKind → UInt8
  | .null => 0
  | .int64 => 1
  | .float64 => 2
  | .bool => 3
  | .text => 4
  | .blob => 5
  | .decimal => 6
  | .uuid => 7
  | .timestamp | .timestampTz => 8
  | .geometry => 11
  | .geography => 12
  | .enum => 13
  | .ipAddr => 14
  | .cidr => 15
  | .date => 16
  | .time => 17
  | .interval => 19
  | .macAddr => 20

/-- Only the two types of a timestamp share a tag. -/
theorem identityTag_eq {left right : ValueKind} (same : identityTag left = identityTag right)
    : left = right ∨ left = .timestamp ∧ right = .timestampTz
      ∨ left = .timestampTz ∧ right = .timestamp := by
  revert same
  cases left <;> cases right <;> decide

section

variable {value left right : Value} {field : UInt8 × List UInt8}

/-- The tag of a field is that of the type of its value, by cases on the type. -/
theorem encodeField_tag (encoded : encodeField (equalityKeyValue value) = .ok field)
    : field.1 = identityTag (valueKind value) := by
  cases value
  case ipAddr | macAddr =>
    obtain ⟨-, -, encoded⟩ := bind_eq_ok.mp encoded
    cases encoded
    rfl
  case cidr family prefixLen network =>
    change encodeField (.cidr family prefixLen network) = .ok field at encoded
    rw [encodeField] at encoded
    split at encoded
    · obtain ⟨-, -, encoded⟩ := bind_eq_ok.mp encoded
      cases encoded
      rfl
    · cases encoded
  all_goals
    cases encoded
    rfl

/-- A network that is valid is written with its family, its length and the bytes in use. -/
theorem encodeField_cidr {family prefixLen : UInt8} {network : Vector UInt8 16}
    (encoded : encodeField (.cidr family prefixLen network) = .ok field)
    : field.2 = family :: prefixLen :: networkBytes family network := by
  rw [encodeField] at encoded
  split at encoded
  · obtain ⟨-, -, encoded⟩ := bind_eq_ok.mp encoded
    cases encoded
    rfl
  · cases encoded

/-- Addresses of a family are ordered by the bytes that are written. -/
theorem ipAddrOrderBytes_eq_iff {family : UInt8} {left right : Vector UInt8 16}
    : ipAddrOrderBytes family left = ipAddrOrderBytes family right
      ↔ networkBytes family left = networkBytes family right := by
  unfold ipAddrOrderBytes networkBytes
  split <;> simp

/-- The field of a value tells the value among those of its type. -/
theorem sameValue_of_encodeField (kind : valueKind left = valueKind right)
    (encodedLeft : encodeField (equalityKeyValue left) = .ok field)
    (encodedRight : encodeField (equalityKeyValue right) = .ok field)
    : SameValue left right := by
  have payload := congrArg (Except.map Prod.snd) (encodedLeft.trans encodedRight.symm)
  cases left <;> cases right <;> cases kind
  case null.null => exact .refl _
  case int64.int64 => exact encodeZigzag_injective (Except.ok.inj payload) ▸ .refl _
  case timestampMicros.timestampMicros =>
    exact encodeZigzag_injective (Except.ok.inj payload) ▸ .refl _
  case timestampTzMicros.timestampTzMicros =>
    exact encodeZigzag_injective (Except.ok.inj payload) ▸ .refl _
  case timeMicros.timeMicros => exact encodeZigzag_injective (Except.ok.inj payload) ▸ .refl _
  case dateDays.dateDays =>
    exact toInt64_injective (encodeZigzag_injective (Except.ok.inj payload)) ▸ .refl _
  case float64.float64 left right =>
    obtain ⟨left⟩ := left
    obtain ⟨right⟩ := right
    have bits := congrArg LittleEndian.leNat (Except.ok.inj payload)
    rw [LittleEndian.leNat_leBytes_of_lt (UInt64.toNat_lt _),
      LittleEndian.leNat_leBytes_of_lt (UInt64.toNat_lt _)] at bits
    obtain rfl : left = right := UInt64.toNat_inj.mp bits
    exact .refl _
  case bool.bool left right =>
    cases left <;> cases right <;> first | exact .refl _ | cases payload
  case text.text left right =>
    have bytes := ByteArray.ext (Array.toList_inj.mp (Except.ok.inj payload))
    exact String.toByteArray_inj.mp bytes ▸ .refl _
  case blob.blob | geometry.geometry | geography.geography =>
    cases payload
    exact .refl _
  case decimal.decimal =>
    obtain ⟨scale, scaled⟩ := List.cons.inj (Except.ok.inj payload)
    exact .decimal (equalityKeyValue_decimal_inj (encodeZigzag_injective scaled) scale)
  case uuid.uuid => exact Vector.toList_inj.mp (Except.ok.inj payload) ▸ .refl _
  case enum.enum =>
    obtain ⟨type, label⟩ := encodeVarintU64_append_inj (Except.ok.inj payload)
    have label := (encodeVarintU64_append_inj (congrArg (· ++ []) label)).1
    exact type ▸ label ▸ .refl _
  case interval.interval =>
    have payload := Except.ok.inj payload
    rw [List.append_assoc, List.append_assoc] at payload
    obtain ⟨months, rest⟩ := encodeZigzag_append_inj payload
    obtain ⟨days, rest⟩ := encodeZigzag_append_inj rest
    exact toInt64_injective months ▸ toInt64_injective days ▸ encodeZigzag_injective rest ▸ .refl _
  case ipAddr.ipAddr =>
    obtain ⟨-, -, encodedLeft⟩ := bind_eq_ok.mp encodedLeft
    obtain ⟨-, -, encodedRight⟩ := bind_eq_ok.mp encodedRight
    have payload := congrArg Prod.snd (Except.ok.inj (encodedLeft.trans encodedRight.symm))
    obtain ⟨rfl, bytes⟩ := List.cons.inj payload
    exact .ipAddr (ipAddrOrderBytes_eq_iff.mpr bytes)
  case cidr.cidr =>
    have payload := (encodeField_cidr encodedLeft).symm.trans (encodeField_cidr encodedRight)
    obtain ⟨rfl, rest⟩ := List.cons.inj payload
    obtain ⟨rfl, bytes⟩ := List.cons.inj rest
    exact .cidr bytes
  case macAddr.macAddr =>
    obtain ⟨⟨⟩, leftValid, encodedLeft⟩ := bind_eq_ok.mp encodedLeft
    obtain ⟨⟨⟩, rightValid, encodedRight⟩ := bind_eq_ok.mp encodedRight
    have payload := congrArg Prod.snd (Except.ok.inj (encodedLeft.trans encodedRight.symm))
    obtain ⟨rfl, bytes⟩ := List.cons.inj payload
    exact sameMacAddr_of_take leftValid rightValid bytes

/-- The field of a value tells the value, of which it has the type by its tag. -/
theorem sameIdentity_of_encodeField
    (encodedLeft : encodeField (equalityKeyValue left) = .ok field)
    (encodedRight : encodeField (equalityKeyValue right) = .ok field)
    : SameIdentity left right := by
  have tags := (encodeField_tag encodedLeft).symm.trans (encodeField_tag encodedRight)
  rcases identityTag_eq tags with kind | ⟨isLeft, isRight⟩ | ⟨isLeft, isRight⟩
  · exact .value (sameValue_of_encodeField kind encodedLeft encodedRight)
  · cases left <;> cases isLeft
    cases right <;> cases isRight
    obtain rfl := encodeZigzag_injective
      (congrArg Prod.snd (Except.ok.inj (encodedLeft.trans encodedRight.symm)))
    exact .withoutZone _
  · cases left <;> cases isLeft
    cases right <;> cases isRight
    obtain rfl := encodeZigzag_injective
      (congrArg Prod.snd (Except.ok.inj (encodedLeft.trans encodedRight.symm)))
    exact .withZone _

/-- Values that nothing tells apart have the same field, if they have one. -/
theorem SameIdentity.encodeField {other : UInt8 × List UInt8} (same : SameIdentity left right)
    (encodedLeft : encodeField (equalityKeyValue left) = .ok field)
    (encodedRight : Query.encodeField (equalityKeyValue right) = .ok other)
    : field = other := by
  cases same with
  | value same =>
    cases same with
    | refl value => exact Except.ok.inj (encodedLeft.symm.trans encodedRight)
    | decimal normal =>
      rw [equalityKeyValue, normal] at encodedLeft
      exact Except.ok.inj (encodedLeft.symm.trans encodedRight)
    | ipAddr bytes =>
      obtain ⟨-, -, encodedLeft⟩ := bind_eq_ok.mp encodedLeft
      obtain ⟨-, -, encodedRight⟩ := bind_eq_ok.mp encodedRight
      rw [ipAddrOrderBytes_eq_iff.mp bytes] at encodedLeft
      exact Except.ok.inj (encodedLeft.symm.trans encodedRight)
    | cidr bytes =>
      have payload := encodeField_cidr encodedLeft
      rw [bytes, ← encodeField_cidr encodedRight] at payload
      exact Prod.ext ((encodeField_tag encodedLeft).trans (encodeField_tag encodedRight).symm) payload
  | withoutZone | withZone => exact Except.ok.inj (encodedLeft.symm.trans encodedRight)

end

-- Rows

/-- The field of a value that has one. -/
def identityField (value : Value) : UInt8 × List UInt8 :=
  (encodeField (equalityKeyValue value)).toOption.getD (0, [])

def Encodes (value : Value) : Prop := ∃ field, encodeField (equalityKeyValue value) = .ok field

section

variable {value left right : Value}

/-- The field of a value that can be written. -/
theorem Encodes.identityField (encodes : Encodes value)
    : encodeField (equalityKeyValue value) = .ok (identityField value) := by
  obtain ⟨field, encoded⟩ := encodes
  rw [Query.identityField, encoded]
  rfl

/-- Two values have the same field exactly if nothing tells them apart. -/
theorem identityField_eq_iff (leftEncodes : Encodes left) (rightEncodes : Encodes right)
    : identityField left = identityField right ↔ SameIdentity left right := by
  constructor
  · intro same
    exact sameIdentity_of_encodeField leftEncodes.identityField (same ▸ rightEncodes.identityField)
  · intro same
    exact same.encodeField leftEncodes.identityField rightEncodes.identityField

/-- Ten digits at most, which all values of a fixed length stay below. -/
theorem length_encodeVarintU64 (number : UInt64) : (encodeVarintU64 number).length ≤ 10 := by
  obtain ⟨initial, last, written, -, -, short, -⟩ :=
    encodeVarintFrom_numeral (lt_trans number.toNat_lt (by decide : 2 ^ 64 < 128 ^ 10)) (by decide)
  rw [encodeVarintU64, written, List.length_append, List.length_singleton]
  omega

/-- A network is written with at most sixteen bytes. -/
theorem length_networkBytes (family : UInt8) (network : Vector UInt8 16)
    : (networkBytes family network).length ≤ 16 := by
  rw [networkBytes]
  split <;> simp

/-- A number is written with at most ten bytes. -/
theorem length_encodeZigzag (number : Int64) : (encodeZigzag number).length ≤ 10 :=
  length_encodeVarintU64 _

/-- Only texts and blobs are long, by cases on the type. -/
theorem length_identityField (encodes : Encodes value) (short : payloadSize value < 2 ^ 64)
    : (identityField value).2.length < 2 ^ 64 := by
  have encoded := encodes.identityField
  generalize identityField value = field at encoded ⊢
  refine lt_of_le_of_lt (?_ : _ ≤ max 32 (payloadSize value)) (by omega)
  cases value
  case ipAddr family addr =>
    obtain ⟨-, -, encoded⟩ := bind_eq_ok.mp encoded
    cases encoded
    have bytes := length_networkBytes family addr
    rw [List.length_cons]
    omega
  case macAddr len bytes =>
    obtain ⟨-, -, encoded⟩ := bind_eq_ok.mp encoded
    cases encoded
    rw [List.length_cons, List.length_take, Vector.length_toList]
    omega
  case cidr family prefixLen network =>
    have bytes := length_networkBytes family network
    rw [encodeField_cidr encoded, List.length_cons, List.length_cons]
    omega
  case interval months days micros =>
    cases encoded
    have first := length_encodeZigzag months.toInt64
    have second := length_encodeZigzag days.toInt64
    have third := length_encodeZigzag micros
    rw [List.length_append, List.length_append]
    omega
  case enum enumTypeId labelId =>
    cases encoded
    have first := length_encodeVarintU64 enumTypeId
    have second := length_encodeVarintU64 labelId
    rw [List.length_append]
    omega
  case decimal =>
    cases encoded
    rw [List.length_cons]
    exact le_max_of_le_left (Nat.succ_le_succ ((length_encodeZigzag _).trans (by decide)))
  case text | blob | geometry | geography =>
    cases encoded
    exact le_max_right _ _
  case int64 | dateDays | timeMicros | timestampMicros | timestampTzMicros =>
    cases encoded
    exact le_max_of_le_left ((length_encodeZigzag _).trans (by decide))
  case uuid | float64 =>
    cases encoded
    simp [LittleEndian.length_leBytes]
  case null | bool =>
    cases encoded
    simp

end

/-- The tag, the length and the payload of every field. -/
def frames (fields : List (UInt8 × List UInt8)) : List UInt8 :=
  fields.flatMap fun field => field.1 :: (encodeVarintU64 (.ofNat field.2.length) ++ field.2)

/-- The frames tell the fields, by induction on them: each length tells where its field ends. -/
theorem frames_inj {left right : List (UInt8 × List UInt8)} (count : left.length = right.length)
    (leftShort : ∀ field ∈ left, field.2.length < 2 ^ 64)
    (rightShort : ∀ field ∈ right, field.2.length < 2 ^ 64) (same : frames left = frames right)
    : left = right := by
  induction left generalizing right with
  | nil => exact (List.eq_nil_of_length_eq_zero count.symm).symm
  | cons field rest ih =>
    cases right with
    | nil => cases count
    | cons other others =>
      obtain ⟨fieldShort, restShort⟩ := List.forall_mem_cons.mp leftShort
      obtain ⟨otherShort, othersShort⟩ := List.forall_mem_cons.mp rightShort
      simp only [frames, List.flatMap_cons, List.cons_append, List.append_assoc] at same
      obtain ⟨tag, same⟩ := List.cons.inj same
      obtain ⟨size, same⟩ := encodeVarintU64_append_inj same
      have size := congrArg UInt64.toNat size
      rw [UInt64.toNat_ofNat_of_lt' fieldShort, UInt64.toNat_ofNat_of_lt' otherShort] at size
      obtain ⟨payload, same⟩ := List.append_inj same size
      rw [ih (Nat.succ.inj count) restShort othersShort same, Prod.ext tag payload]

section

variable {row left right : List Value}

/-- The identity of a row is its width with the frames of its values. -/
theorem rowIdentity_eq (encodes : ∀ value ∈ row, Encodes value)
    : rowIdentity row
      = .ok (encodeVarintU64 (.ofNat row.length) ++ frames (row.map identityField)) := by
  have fields : (row.map equalityKeyValue).mapM encodeField = .ok (row.map identityField) := by
    rw [List.mapM_map]
    exact Results.mapM_eq_map fun value member => (encodes value member).identityField
  rw [rowIdentity, encodeValues, fields, ok_bind, List.length_map]
  rfl

/-- Rows have the same fields exactly if nothing tells their values apart, by induction. -/
theorem map_identityField_eq_iff (leftEncodes : ∀ value ∈ left, Encodes value)
    (rightEncodes : ∀ value ∈ right, Encodes value)
    : left.map identityField = right.map identityField ↔ List.Forall₂ SameIdentity left right := by
  induction left generalizing right with
  | nil => cases right <;> simp
  | cons value rest ih =>
    cases right with
    | nil => simp
    | cons other others =>
      obtain ⟨first, restEncodes⟩ := List.forall_mem_cons.mp leftEncodes
      obtain ⟨second, othersEncode⟩ := List.forall_mem_cons.mp rightEncodes
      rw [List.map_cons, List.map_cons, List.cons.injEq, List.forall₂_cons,
        identityField_eq_iff first second, ih restEncodes othersEncode]

/-- Rows of the same width have the same identity exactly if nothing tells their values apart. -/
theorem rowIdentity_eq_iff (width : left.length = right.length)
    (leftEncodes : ∀ value ∈ left, Encodes value) (rightEncodes : ∀ value ∈ right, Encodes value)
    (leftShort : ∀ value ∈ left, payloadSize value < 2 ^ 64)
    (rightShort : ∀ value ∈ right, payloadSize value < 2 ^ 64)
    : rowIdentity left = rowIdentity right ↔ List.Forall₂ SameIdentity left right := by
  rw [rowIdentity_eq leftEncodes, rowIdentity_eq rightEncodes, width,
    ← map_identityField_eq_iff leftEncodes rightEncodes]
  constructor
  · intro same
    refine frames_inj (by simp [width]) ?_ ?_ (List.append_cancel_left (Except.ok.inj same))
    · intro field listed
      obtain ⟨value, member, rfl⟩ := List.mem_map.mp listed
      exact length_identityField (leftEncodes value member) (leftShort value member)
    · intro field listed
      obtain ⟨value, member, rfl⟩ := List.mem_map.mp listed
      exact length_identityField (rightEncodes value member) (rightShort value member)
  · intro same
    rw [same]

end

end DecentDb.Query
