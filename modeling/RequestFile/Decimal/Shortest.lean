/-!
# The shortest decimal of a binary number

A double stands for every real number that rounds to it. Its shortest decimal is the one with the
fewest digits among these, and of several with that many digits the one nearest to the double. All
arithmetic is on natural numbers: a double is `mantissa · 2 ^ exponent`, and the decimals
`coefficient · 10 ^ exponent` are tried from the coarsest grid to finer ones until one reads back.
-/

namespace RequestFile.Decimal

/-- A finite binary number without its sign, `mantissa · 2 ^ exponent`. -/
structure Binary where
  mantissa : Nat
  exponent : Int
  /-- Whether the next smaller double is only half as far away as the next larger one. -/
  narrowBelow : Bool := false
deriving Repr, DecidableEq

/-- A decimal number without its sign, `coefficient · 10 ^ exponent`. -/
structure Scientific where
  coefficient : Nat
  exponent : Int
deriving Repr, DecidableEq

/-- What a double is: not a number, infinite or finite, with its sign. -/
inductive Class where
  | notANumber
  | infinite (negative : Bool)
  | finite (negative : Bool) (size : Binary)
deriving Repr, DecidableEq

/-- Takes a double apart: a sign bit, eleven bits of exponent and fifty-two of mantissa. -/
def classify (x : Float) : Class :=
  let bits := x.toBits.toNat
  let negative := bits / Nat.pow 2 63 == 1
  let power : Nat := bits / Nat.pow 2 52 % Nat.pow 2 11
  let fraction : Nat := bits % Nat.pow 2 52
  if power == 2047 then
    if fraction == 0 then .infinite negative else .notANumber
  else if power == 0 then
    .finite negative { mantissa := fraction, exponent := -1074 }
  else
    .finite negative
      { mantissa := Nat.pow 2 52 + fraction, exponent := (power : Int) - 1075,
        narrowBelow := fraction == 0 && power != 1 }

/-- What becomes of a decimal that lies exactly in the middle between two of the shorter ones. -/
inductive Tie where
  | up
  | even
deriving Repr, DecidableEq

/-- The decimal nearest to `x` on the grid of multiples of `10 ^ k`, if one of the two neighbours of
`x` there rounds to `x`. The ends of the rounding interval count when the mantissa is even. -/
def Binary.onGrid (x : Binary) (tie : Tie) (k : Int) : Option Nat :=
  let unit : Nat := Nat.pow 2 (x.exponent - 2).toNat * Nat.pow 10 (-k).toNat
  let step : Nat := Nat.pow 2 (2 - x.exponent).toNat * Nat.pow 10 k.toNat
  let value := 4 * x.mantissa * unit
  let least := (4 * x.mantissa - if x.narrowBelow then 1 else 2) * unit
  let most := (4 * x.mantissa + 2) * unit
  let reads := fun (d : Nat) =>
    if x.mantissa % 2 == 0 then least ≤ d * step && d * step ≤ most
    else least < d * step && d * step < most
  let below := value / step
  let above := below + 1
  match reads below, reads above with
  | false, false => none
  | true, false => some below
  | false, true => some above
  | true, true =>
    let remainder := value % step
    if 2 * remainder < step then some below
    else if step < 2 * remainder then some above
    else match tie with
      | .up => some above
      | .even => some (if below % 2 == 0 then below else above)

/-- The first grid with a hit, from `10 ^ k` on to finer ones; `steps` bounds how many are tried. -/
def Binary.firstHit (x : Binary) (tie : Tie) : (steps : Nat) → (k : Int) → Scientific
  | 0, k => { coefficient := 0, exponent := k }
  | steps + 1, k =>
    match x.onGrid tie k with
    | some d => { coefficient := d, exponent := k }
    | none => x.firstHit tie steps (k - 1)

/-- The shortest decimal of a number other than zero. The search starts at a power of ten that is
not below the number; seventeen digits always suffice. -/
def Binary.shortest (x : Binary) (tie : Tie) : Scientific :=
  let magnitude : Int := x.mantissa.log2 + x.exponent + 1
  x.firstHit tie 24 ((magnitude * 30103).fdiv 100000 + 1)

/-- The number itself, if it is whole. -/
def Binary.whole? (x : Binary) : Option Nat :=
  if 0 ≤ x.exponent then some (x.mantissa * Nat.pow 2 x.exponent.toNat)
  else
    let divisor : Nat := Nat.pow 2 (-x.exponent).toNat
    if x.mantissa % divisor == 0 then some (x.mantissa / divisor) else none

end RequestFile.Decimal
