/-!
# Kinds of characters

What the format asks about single characters: whether one is blank, whether it is a decimal digit of
some script, and whether it may stand in a name. Keywords (metadata keys, expectation kinds,
encoding labels, header names) are compared without regard to the case of the letters `A` to `Z`,
and to no other case distinction.
-/

namespace RequestFile.Text

/-! ## Blanks -/

/-- Whether a character has the Unicode property `White_Space`. -/
def isBlank (c : Char) : Bool :=
  let n := c.toNat
  (0x09 ≤ n && n ≤ 0x0D) || n == 0x20 || n == 0x85 || n == 0xA0 || n == 0x1680 ||
    (0x2000 ≤ n && n ≤ 0x200A) || n == 0x2028 || n == 0x2029 || n == 0x202F || n == 0x205F ||
    n == 0x3000

/-! ## Decimal digits

The Unicode category `Nd`. Every script has its digits from zero to nine in ten consecutive code
points, so the code points of the zeros describe the whole category.
-/

/-- The code points of the zeros of all scripts. -/
def zeroDigits : List Nat :=
  [0x30, 0x660, 0x6F0, 0x7C0, 0x966, 0x9E6, 0xA66, 0xAE6, 0xB66, 0xBE6, 0xC66, 0xCE6, 0xD66,
    0xDE6, 0xE50, 0xED0, 0xF20, 0x1040, 0x1090, 0x17E0, 0x1810, 0x1946, 0x19D0, 0x1A80, 0x1A90,
    0x1B50, 0x1BB0, 0x1C40, 0x1C50, 0xA620, 0xA8D0, 0xA900, 0xA9D0, 0xA9F0, 0xAA50, 0xABF0,
    0xFF10, 0x104A0, 0x10D30, 0x10D40, 0x11066, 0x110F0, 0x11136, 0x111D0, 0x112F0, 0x11450,
    0x114D0, 0x11650, 0x116C0, 0x116D0, 0x116DA, 0x11730, 0x118E0, 0x11950, 0x11BF0, 0x11C50,
    0x11D50, 0x11DA0, 0x11DE0, 0x11F50, 0x16130, 0x16A60, 0x16AC0, 0x16B50, 0x16D70, 0x1CCF0,
    0x1D7CE, 0x1D7D8, 0x1D7E2, 0x1D7EC, 0x1D7F6, 0x1E140, 0x1E2F0, 0x1E4F0, 0x1E5F1, 0x1E950,
    0x1FBF0]

/-- Whether a character has the Unicode category `Nd`. -/
def isDecimalDigit (c : Char) : Bool :=
  zeroDigits.any fun first => first ≤ c.toNat && c.toNat < first + 10

/-! ## Letters and names -/

/-- The capital letters `A` to `Z` as small letters, every other character unchanged. -/
def lower (cs : List Char) : List Char :=
  cs.map Char.toLower

/-- Whether two texts are equal up to the case of the letters `A` to `Z`. -/
def sameLetters (s t : String) : Bool :=
  lower s.toList == lower t.toList

/-- The letters, the digits, `_` and `-`: what request names and keys are made of. -/
def isNameChar (c : Char) : Bool :=
  c.isAlphanum || c == '_' || c == '-'

end RequestFile.Text
