import RequestFile.Decimal.Layout
import RequestFile.Json.Reader
/-!
# JSON values

A `Value` is what a JSON text means where its content is looked into: in the body of a response and
in settings. The members of an object are sorted by name and a repeated name keeps its last value.
Integers of 64 bits are exact and every other number is a double. A text has no value when it nests
too deep, when a number is too large for a double, or when a string stands for no text.
-/

namespace RequestFile.Json

/-- A number: an integer from `-2 ^ 63` to `2 ^ 64 - 1`, or a double. -/
inductive Number where
  | integer (n : Int)
  | real (x : Float)
deriving Repr, DecidableEq

/-- What a JSON text means. -/
inductive Value where
  | null
  | bool (b : Bool)
  | number (n : Number)
  | string (s : String)
  | array (items : List Value)
  | object (members : List (String × Value))
deriving Repr, Inhabited

/-! ## Numbers -/

/-- Takes in digits as long as the number that they continue stays below `2 ^ 64`: the number, and
the digits that are left. -/
def takeDigits : Nat → List Char → Nat × List Char
  | n, [] => (n, [])
  | n, c :: rest =>
    let next := n * 10 + Decimal.digitValue c
    if next ≤ Decimal.maxNat64 then takeDigits next rest else (n, c :: rest)

/-- `x · 10 ^ e` in double arithmetic, by one multiplication or division where the power is a
double, and by steps of `10 ^ 308` where it is too small for one. There is none above the doubles.
-/
def scale (x : Float) (e : Int) : Option Float :=
  if e.natAbs ≤ 308 then
    let power := Float.ofScientific 1 false e.natAbs
    if 0 ≤ e then (if (x * power).isInf then none else some (x * power))
    else some (x / power)
  else if x == 0.0 then some x
  else if 0 ≤ e then none
  else scale (x / Float.ofScientific 1 false 308) (e + 308)
termination_by e.natAbs

/-- A double with a sign. -/
def signed (negative : Bool) (x : Float) : Float :=
  if negative then -x else x

/-- A number without point and exponent. Zero with a sign and what is below `-2 ^ 63` are doubles.
-/
def Number.ofWhole (negative : Bool) (n : Nat) : Number :=
  if !negative then .integer n
  else if n == 0 || Decimal.maxInt64 + 1 < n then .real (-Float.ofNat n)
  else .integer (-n)

/-- The largest exponent that is added up with the places of the digits. -/
def maxPower : Nat := 2147483647

/-- The number that a numeral stands for. As many leading digits as fit 64 bits are taken exactly,
and the power of ten that remains is applied to them as a double. An exponent beyond 32 bits makes
zero if it is negative. -/
def Number.ofNumeral? (numeral : Numeral) : Option Number :=
  let (significand, left) := takeDigits 0 numeral.whole
  if left.isEmpty && numeral.fraction.isNone && numeral.exponent.isNone then
    some (.ofWhole numeral.negative significand)
  else
    let digits := numeral.fraction.getD []
    let (significand, unused) := takeDigits significand digits
    let start : Int := left.length - (digits.length - unused.length)
    let result := match numeral.exponent with
      | none => scale (Float.ofNat significand) start
      | some (negative, ds) =>
        let power := Decimal.ofDigits ds
        if power ≤ maxPower then
          scale (Float.ofNat significand) (if negative then start - power else start + power)
        else if significand == 0 || negative then some 0.0
        else none
    result.map fun x => .real (signed numeral.negative x)

/-- Doubles have a point or an exponent: an exponent from `10 ^ 16` on and below `10 ^ -5`. -/
def realLayout : Decimal.Layout where
  plain point := -5 < point && point ≤ 16
  wholeEnd := ['.', '0']
  tie := .even

/-- An integer in decimal. -/
def renderInteger (n : Int) : List Char :=
  Decimal.withSign (n < 0) (Decimal.digits n.natAbs)

/-- A number in decimal. -/
def Number.render : Number → List Char
  | .integer n => renderInteger n
  | .real x => Decimal.render realLayout x

/-! ## Values -/

/-- Puts a member into a list that is sorted by name; a name that it has gets the new value. -/
def insertMember (name : String) (value : Value) : List (String × Value) → List (String × Value)
  | [] => [(name, value)]
  | (other, old) :: rest =>
    if name = other then (name, value) :: rest
    else if name < other then (name, value) :: (other, old) :: rest
    else (other, old) :: insertMember name value rest

/-- Sorts members by name, a later one replacing an earlier one of the same name. -/
def sortMembers (members : List (String × Value)) : List (String × Value) :=
  members.foldl (fun sorted (name, value) => insertMember name value sorted) []

/-- How many arrays and objects may stand inside one another. -/
def maxNesting : Nat := 127

mutual

/-- The value of a tree in which at most `nesting` arrays and objects stand inside one another. -/
def Tree.valueWithin (nesting : Nat) : Tree → Option Value
  | .null => some .null
  | .bool b => some (.bool b)
  | .number n => (Number.ofNumeral? n).map .number
  | .string s => s.map .string
  | .array items =>
    match nesting with
    | 0 => none
    | nesting + 1 => (valuesWithin nesting items).map .array
  | .object members =>
    match nesting with
    | 0 => none
    | nesting + 1 => (membersWithin nesting members).map fun ms => .object (sortMembers ms)

/-- The values of a list of trees. -/
def valuesWithin (nesting : Nat) : List Tree → Option (List Value)
  | [] => some []
  | item :: rest =>
    match item.valueWithin nesting, valuesWithin nesting rest with
    | some value, some values => some (value :: values)
    | _, _ => none

/-- The values of a list of members. -/
def membersWithin (nesting : Nat) :
    List (Option String × Tree) → Option (List (String × Value))
  | [] => some []
  | (name, item) :: rest =>
    match name, item.valueWithin nesting, membersWithin nesting rest with
    | some name, some value, some members => some ((name, value) :: members)
    | _, _, _ => none

end

/-- The value of a tree. -/
def Tree.value? (tree : Tree) : Option Value :=
  tree.valueWithin maxNesting

/-- The value of a text. -/
def value? (s : String) : Option Value :=
  (read? s).bind Tree.value?

mutual

/-- A value as compact JSON. -/
def Value.render : Value → List Char
  | .null => ['n', 'u', 'l', 'l']
  | .bool true => ['t', 'r', 'u', 'e']
  | .bool false => ['f', 'a', 'l', 's', 'e']
  | .number n => n.render
  | .string s => renderString s
  | .array items => '[' :: renderValues items ++ [']']
  | .object members => '{' :: renderNamed members ++ ['}']

/-- Values with commas between them. -/
def renderValues : List Value → List Char
  | [] => []
  | [item] => item.render
  | item :: rest => item.render ++ ',' :: renderValues rest

/-- Members with commas between them. -/
def renderNamed : List (String × Value) → List Char
  | [] => []
  | [(name, value)] => renderString name ++ ':' :: value.render
  | (name, value) :: rest =>
    renderString name ++ ':' :: value.render ++ ',' :: renderNamed rest

end

namespace Value

/-- The member of an object that has a name. -/
def member? (name : String) : Value → Option Value
  | .object members => (members.find? (·.1 = name)).map Prod.snd
  | _ => none

/-- The item of an array at a place, counted from zero. -/
def item? (index : Nat) : Value → Option Value
  | .array items => items[index]?
  | _ => none

/-- A value as it is put into a text: a string without its quotes, and all else as JSON. -/
def asText : Value → String
  | .string s => s
  | value => String.ofList value.render

end Value

end RequestFile.Json
