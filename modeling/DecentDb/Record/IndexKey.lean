import DecentDb.Record.Comparison

/-! The key under which a B-tree index files a value: a byte for the type of the value, and
bytes that sort like the values of that type. Values of one type that compare equal have the
same key; values of two types never have.
-/

namespace DecentDb.Record

open LittleEndian (leBytes)

-- The encoding

/-- The first byte of a key. Spatial values have no key. -/
def ValueKind.tag : ValueKind → UInt8
  | .null => 0
  | .bool => 1
  | .int64 => 2
  | .float64 => 3
  | .decimal => 4
  | .timestamp => 5
  | .uuid => 6
  | .text => 7
  | .blob => 8
  | .enum => 9
  | .ipAddr => 10
  | .cidr => 11
  | .date => 12
  | .time => 13
  | .timestampTz => 14
  | .interval => 15
  | .macAddr => 16
  | .geometry => 17
  | .geography => 18

def beBytes (width number : Nat) : List UInt8 := (leBytes width number).reverse

def sortableSignedBytes (value : Int64) : List UInt8 :=
  beBytes 8 (value.toUInt64 ^^^ 0x8000000000000000).toNat

def sortableUnsignedBytes (value : UInt64) : List UInt8 := beBytes 8 value.toNat

def sortableI32Bytes (value : Int32) : List UInt8 :=
  beBytes 4 (value.toUInt32 ^^^ 0x80000000).toNat

def ipAddrSortableBytes (family : UInt8) (addr : Vector UInt8 16) : DbResult (List UInt8) :=
  if family = 4 ∨ family = 6 then .ok (ipAddrOrderBytes family addr)
  else .error (.constraint s!"invalid IPADDR family for generic key encoding: {family}")

/-- A negative number has all its bits inverted. -/
def sortableFloatBytes (value : Float64) : List UInt8 :=
  if value.bits &&& 0x8000000000000000 ≠ 0 then beBytes 8 (~~~ value.bits).toNat
  else beBytes 8 (value.bits ^^^ 0x8000000000000000).toNat

/-- The sign, the position of the decimal point and the digits of a decimal in normal form. -/
def decimalKey (normal : Int × Nat) : List UInt8 :=
  let digits := digitBytes normal.1.natAbs
  let biasedExp := digits.length + 1024 - normal.2
  if normal.1 = 0 then [1]
  else if normal.1 < 0 then
    0 :: (beBytes 2 (0xffff - biasedExp) ++ digits.map fun byte => 255 - byte)
  else 2 :: (beBytes 2 biasedExp ++ digits)

/-- The sign, the position of the decimal point and the digits. -/
def sortableDecimalBytes (scaled : Int) (scale : Nat) : List UInt8 :=
  decimalKey (normalizeDecimal scaled scale)

/-- The bytes after the first one. -/
def sortableBytes : Value → DbResult (List UInt8)
  | .null => .ok []
  | .bool value => .ok [if value then 1 else 0]
  | .int64 value | .timestampMicros value | .timeMicros value | .timestampTzMicros value =>
    .ok (sortableSignedBytes value)
  | .float64 value => .ok (sortableFloatBytes value)
  | .decimal scaled scale => .ok (sortableDecimalBytes scaled.toInt scale.toNat)
  | .uuid value => .ok value.toList
  | .text value => .ok value.toUTF8.toList
  | .blob value => .ok value
  | .enum enumTypeId labelId =>
    .ok (sortableUnsignedBytes enumTypeId ++ sortableUnsignedBytes labelId)
  | .ipAddr family addr => do
    let bytes ← ipAddrSortableBytes family addr
    .ok (bytes ++ [family])
  | .cidr family prefixLen network => .ok (family :: prefixLen :: networkBytes family network)
  | .macAddr len bytes => do
    let _ ← compareMacAddr len bytes len bytes
    .ok (bytes.toList.take len.toNat ++ [len])
  | .dateDays value => .ok (sortableI32Bytes value)
  | .interval months days micros =>
    .ok (sortableI32Bytes months ++ sortableI32Bytes days ++ sortableSignedBytes micros)
  | .geometry _ | .geography _ =>
    .error (.constraint "spatial values cannot be encoded as generic BTREE index keys")

def encodeRuntimeIndexKey (value : Value) : DbResult (List UInt8) := do
  let bytes ← sortableBytes value
  .ok ((valueKind value).tag :: bytes)

-- Keys of different types

/-- Every type has a byte of its own. -/
theorem ValueKind.tag_inj {left right : ValueKind} (same : left.tag = right.tag)
    : left = right := by
  cases left <;> cases right <;> first | rfl | exact absurd same (by decide)

variable {left right : Value}

/-- Values with the same key are of the same type. -/
theorem kind_eq_of_encode {key : List UInt8} (leftKey : encodeRuntimeIndexKey left = .ok key)
    (rightKey : encodeRuntimeIndexKey right = .ok key)
    : valueKind left = valueKind right := by
  obtain ⟨leftBytes, -, isLeft⟩ := bind_eq_ok.mp leftKey
  obtain ⟨rightBytes, -, isRight⟩ := bind_eq_ok.mp rightKey
  cases isLeft
  exact ValueKind.tag_inj (List.cons.inj (Except.ok.inj isRight)).1.symm

-- Keys of one type

/-- What makes no difference to a value makes none to its key. -/
theorem encodeRuntimeIndexKey_same (same : SameValue left right)
    : encodeRuntimeIndexKey left = encodeRuntimeIndexKey right := by
  cases same with
  | refl => rfl
  | decimal normal =>
    rw [encodeRuntimeIndexKey, encodeRuntimeIndexKey, sortableBytes, sortableBytes,
      sortableDecimalBytes, sortableDecimalBytes, normal]
    rfl
  | ipAddr bytes =>
    rw [encodeRuntimeIndexKey, encodeRuntimeIndexKey, sortableBytes, sortableBytes,
      ipAddrSortableBytes, ipAddrSortableBytes, bytes]
    rfl
  | cidr bytes =>
    rw [encodeRuntimeIndexKey, encodeRuntimeIndexKey, sortableBytes, sortableBytes, bytes]
    rfl

end DecentDb.Record
