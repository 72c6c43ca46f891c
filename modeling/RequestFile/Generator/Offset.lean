import RequestFile.Calendar.Moment
import RequestFile.Decimal.Read
import RequestFile.Generator.Error
/-!
# Offsets

Generators of dates and times take an offset from the present: a number with an optional sign, which
may stand apart, and a unit.
-/

namespace RequestFile.Generator

/-- A unit of time. -/
inductive TimeUnit where
  | milliseconds
  | seconds
  | minutes
  | hours
  | days
  | weeks
deriving Repr, DecidableEq

namespace TimeUnit

/-- The unit that a text names. -/
def ofText? : String → Option TimeUnit
  | "ms" => some milliseconds
  | "s" => some seconds
  | "m" => some minutes
  | "h" => some hours
  | "d" => some days
  | "w" => some weeks
  | _ => none

/-- The number of milliseconds in a unit. -/
def length : TimeUnit → Int
  | milliseconds => 1
  | seconds => 1000
  | minutes => 60000
  | hours => 3600000
  | days => 86400000
  | weeks => 604800000

end TimeUnit

/-- The number and the unit in the arguments of an offset. A sign that stands apart is joined to the
number. -/
def numberAndUnit? : List String → Option (String × String)
  | sign :: number :: unit :: _ =>
    if sign == "+" || sign == "-" then some (sign ++ number, unit) else some (sign, number)
  | [number, unit] => some (number, unit)
  | _ => none

/-- Reads the number of an offset: the signs `+` in front of it do not count, then one sign may
follow. -/
def offsetNumber? (number : String) : Option Int :=
  Decimal.int64? (number.toList.dropWhile (· == '+'))

/-- The milliseconds of an offset; they must be a number of 64 bits with a sign, without the least.
-/
def offset? (arguments : List String) : Except Error Int :=
  match numberAndUnit? arguments with
  | none => .error .offsetArguments
  | some (number, unit) =>
    match offsetNumber? number with
    | none => .error (.badNumber number)
    | some n =>
      match TimeUnit.ofText? unit with
      | none => .error (.badUnit unit)
      | some u =>
        if (n * u.length).natAbs ≤ Decimal.maxInt64 then .ok (n * u.length)
        else .error (.offsetTooLarge n unit)

/-- The instant to which arguments shift another. Without arguments it is the same one. -/
def shift (now : Calendar.Instant) (arguments : List String) : Except Error Calendar.Instant :=
  if arguments.isEmpty then .ok now
  else do
    let milliseconds ← offset? arguments
    match now.addMilliseconds? milliseconds with
    | some instant => .ok instant
    | none => .error (.dateOutOfRange arguments)

end RequestFile.Generator
