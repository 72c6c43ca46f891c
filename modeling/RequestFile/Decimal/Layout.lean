import RequestFile.Decimal.Read
import RequestFile.Decimal.Shortest
/-!
# Writing a decimal number

The digits of a number and the place of its point are facts about the number; whether it is written
with an exponent, and how a whole number ends, is a choice of the text it appears in. `Layout` holds
that choice.
-/

namespace RequestFile.Decimal

/-- How a text writes its numbers. -/
structure Layout where
  /-- Whether a number is written without an exponent when its point stands after so many of its
  digits. -/
  plain : Int → Bool
  /-- What a whole number written without an exponent ends with. -/
  wholeEnd : List Char
  /-- Which of two shortest decimals is taken when the number is exactly in the middle. -/
  tie : Tie

/-- How many digits stand before the point; none or fewer when the number is below one tenth. -/
def Scientific.point (d : Scientific) : Int :=
  (digits d.coefficient).length + d.exponent

/-- The number without an exponent. -/
def Scientific.plain (wholeEnd : List Char) (d : Scientific) : List Char :=
  let ds := digits d.coefficient
  if 0 ≤ d.exponent then ds ++ List.replicate d.exponent.toNat '0' ++ wholeEnd
  else if 0 < d.point then ds.take d.point.toNat ++ '.' :: ds.drop d.point.toNat
  else ['0', '.'] ++ List.replicate (-d.point).toNat '0' ++ ds

/-- The number with one digit before the point and an exponent that always has its sign. -/
def Scientific.withExponent (d : Scientific) : List Char :=
  let power := d.point - 1
  let mantissa := match digits d.coefficient with
    | [] => []
    | [c] => [c]
    | c :: more => c :: '.' :: more
  mantissa ++ 'e' :: (if power < 0 then '-' else '+') :: digits power.natAbs

/-- The number in a layout. -/
def Scientific.render (layout : Layout) (d : Scientific) : List Char :=
  if layout.plain d.point then d.plain layout.wholeEnd else d.withExponent

/-- A finite number in a layout. -/
def Binary.render (layout : Layout) (x : Binary) : List Char :=
  if x.mantissa == 0 then '0' :: layout.wholeEnd
  else (x.shortest layout.tie).render layout

/-- A sign and what follows it. -/
def withSign (negative : Bool) (cs : List Char) : List Char :=
  if negative then '-' :: cs else cs

/-- A double in a layout. -/
def render (layout : Layout) (x : Float) : List Char :=
  match classify x with
  | .notANumber => ['N', 'a', 'N']
  | .infinite negative => withSign negative ['i', 'n', 'f']
  | .finite negative size => withSign negative (size.render layout)

end RequestFile.Decimal
