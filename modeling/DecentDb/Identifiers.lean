import Mathlib.Data.List.Basic

/-! Names of tables, columns and indexes, which are the same up to the case of ASCII letters,
and texts without the white space around them.
-/

namespace DecentDb

def identifiersEqual (left right : String) : Bool :=
  left.toList.map Char.toLower = right.toList.map Char.toLower

/-- The characters that `str::trim` removes. -/
def isWhitespace (char : Char) : Bool :=
  (9 ≤ char.val ∧ char.val ≤ 13) || (0x2000 ≤ char.val ∧ char.val ≤ 0x200A)
    || char.val ∈ [0x20, 0x85, 0xA0, 0x1680, 0x2028, 0x2029, 0x202F, 0x205F, 0x3000]

def trim (text : String) : List Char :=
  ((text.toList.dropWhile isWhitespace).reverse.dropWhile isWhitespace).reverse

end DecentDb
