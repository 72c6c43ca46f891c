/-!
# Reading decimals

Integers are written with the digits `0` to `9` and, where the reader admits one, a single sign in
front. A reader refuses a number beyond its bounds. A decimal with or without a point and an
exponent is read as the double nearest to it, a tie going to the even mantissa.
-/

namespace RequestFile.Decimal

/-! ## Integers -/

/-- The number that a digit stands for. -/
def digitValue (c : Char) : Nat :=
  c.toNat - '0'.toNat

/-- The number that a list of digits stands for. -/
def ofDigits (cs : List Char) : Nat :=
  cs.foldl (fun n c => n * 10 + digitValue c) 0

/-- The digits of a number. -/
def digits (n : Nat) : List Char :=
  Nat.toDigits 10 n

/-- Reads one or more digits, and nothing else. -/
def natural? (cs : List Char) : Option Nat :=
  if !cs.isEmpty && cs.all Char.isDigit then some (ofDigits cs) else none

/-- Reads a number that may have the sign `+`, up to a bound. -/
def naturalUpTo? (bound : Nat) (cs : List Char) : Option Nat :=
  let unsigned := match cs with
    | '+' :: rest => rest
    | _ => cs
  (natural? unsigned).filter (· ≤ bound)

/-- Reads a number that may have one sign, `+` or `-`, of any size. -/
def integer? (cs : List Char) : Option Int :=
  match cs with
  | '+' :: rest => (natural? rest).map Int.ofNat
  | '-' :: rest => (natural? rest).map fun n => -Int.ofNat n
  | _ => (natural? cs).map Int.ofNat

/-- The largest integer of 64 bits with sign, `2 ^ 63 - 1`. -/
def maxInt64 : Nat :=
  9223372036854775807

/-- Whether an integer has 64 bits with sign. -/
def fitsInt64 (n : Int) : Bool :=
  -maxInt64 - 1 ≤ n && n ≤ maxInt64

/-- Reads an integer of 64 bits with sign. -/
def int64? (cs : List Char) : Option Int :=
  (integer? cs).filter fitsInt64

/-- The largest natural number of 64 bits, `2 ^ 64 - 1`. -/
def maxNat64 : Nat :=
  18446744073709551615

/-! ## Doubles -/

/-- The double nearest to `n · 10 ^ e`. Numbers far beyond the doubles are cut off first. -/
def nearest (n : Nat) (e : Int) : Float :=
  let magnitude := (digits n).length + e
  if n == 0 || magnitude < -400 then 0.0
  else if 400 < magnitude then Float.ofScientific 1 false 400
  else Float.ofScientific n (decide (e < 0)) e.natAbs

/-- Reads digits, a point with more digits and an exponent; each part but the first digits or the
second may be missing. -/
def unsignedFloat? (cs : List Char) : Option Float :=
  let whole := cs.takeWhile Char.isDigit
  let afterWhole := cs.dropWhile Char.isDigit
  let fraction := match afterWhole with
    | '.' :: rest => rest.takeWhile Char.isDigit
    | _ => []
  let afterFraction := match afterWhole with
    | '.' :: rest => rest.dropWhile Char.isDigit
    | _ => afterWhole
  let exponent := match afterFraction with
    | [] => some 0
    | c :: rest => if c == 'e' || c == 'E' then integer? rest else none
  if whole.isEmpty && fraction.isEmpty then none
  else exponent.map fun e => nearest (ofDigits (whole ++ fraction)) (e - fraction.length)

/-- Reads a decimal with an optional sign, `inf` or `NaN`. -/
def float? (s : String) : Option Float :=
  let unsigned := fun (cs : List Char) =>
    if cs == ['i', 'n', 'f'] then some (1.0 / 0.0)
    else if cs == ['N', 'a', 'N'] then some (0.0 / 0.0)
    else unsignedFloat? cs
  match s.toList with
  | '-' :: rest => (unsigned rest).map fun x => -x
  | '+' :: rest => unsigned rest
  | cs => unsigned cs

end RequestFile.Decimal
