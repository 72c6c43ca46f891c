import RequestFile.Calendar.Format
import RequestFile.Generator.Offset
import RequestFile.Text.Basic
/-!
# Generators

A placeholder may call a generator: `$guid`, `$randomInt`, `$timestamp`, `$datetime` or
`$localDatetime`. What the present and the arguments decide is worked out at once, as a `Recipe`;
only drawing from a recipe takes random numbers.
-/

namespace RequestFile

/-- The present, and how local time differs from universal time. The difference is one number of
whole minutes: it is the same at every instant, so that there is no summer time, and it has no
seconds. -/
structure Clock where
  now : Calendar.Instant
  /-- How many minutes local time is ahead. -/
  localMinutes : Int := 0
deriving Repr, DecidableEq

namespace Generator

/-! ## Arguments

The arguments of a generator are separated by blanks. Quotes of either kind keep blanks inside an
argument; an argument may be put together from quoted and unquoted pieces, and it may be empty when
it is quoted.
-/

/-- Whether a character opens a quotation. -/
def isQuote (c : Char) : Bool :=
  c == '"' || c == '\''

/-- Cuts a text into arguments. `quote` is the quote that is open, and `current` the argument that
has been begun, as far as it has been read. A quotation that is not closed ends with the text. -/
def argumentsFrom (quote : Option Char) (current : Option (List Char)) :
    List Char → List (List Char)
  | [] => current.toList
  | c :: rest =>
    match quote with
    | some q =>
      if c == q then argumentsFrom none current rest
      else argumentsFrom quote (some (current.getD [] ++ [c])) rest
    | none =>
      if isQuote c then argumentsFrom (some c) (some (current.getD [])) rest
      else if Text.isBlank c then current.toList ++ argumentsFrom none none rest
      else argumentsFrom none (some (current.getD [] ++ [c])) rest

/-- The arguments in a text. -/
def arguments (cs : List Char) : List (List Char) :=
  argumentsFrom none none cs

/-! ## Recipes -/

/-- How a value is made: it is known, or it is a random identifier, or a random integer between two
bounds that belong to the range. -/
inductive Recipe where
  | known (value : String)
  | guid
  | integer (low high : Int)
deriving Repr, DecidableEq

/-- A random integer between two bounds, given in any order. -/
def randomInteger : List String → Except Error Recipe
  | minimum :: maximum :: _ =>
    match Decimal.int64? minimum.toList, Decimal.int64? maximum.toList with
    | none, _ => .error (.badMinimum minimum)
    | some _, none => .error (.badMaximum maximum)
    | some a, some b => .ok (.integer (min a b) (max a b))
  | _ => .error .missingBounds

/-- The seconds from the start of 1970, after an offset. -/
def timestamp (clock : Clock) (arguments : List String) : Except Error Recipe :=
  (shift clock.now arguments).map fun instant => .known (toString instant.seconds)

/-- A date in a format, after an offset. -/
def dateTime (clock : Clock) (zone : Calendar.Zone) : List String → Except Error Recipe
  | [] => .error .missingFormat
  | format :: offset =>
    match shift clock.now offset with
    | .error e => .error e
    | .ok instant =>
      match Calendar.Moment.format? { instant, zone } format with
      | some text => .ok (.known text)
      | none => .error (.badFormat format)

/-- What the generator with a name makes of arguments. -/
def call (clock : Clock) (name : String) (arguments : List String) : Except Error Recipe :=
  match name with
  | "guid" => .ok .guid
  | "randomInt" => randomInteger arguments
  | "timestamp" => timestamp clock arguments
  | "datetime" => dateTime clock .utc arguments
  | "localDatetime" => dateTime clock (.offset clock.localMinutes) arguments
  | _ => .error (.unknown name)

/-- What an expression makes: the name of a generator after `$`, then its arguments. -/
def evaluate (clock : Clock) (expression : List Char) : Except Error Recipe :=
  match arguments (Text.trim expression) with
  | [] => .error .noExpression
  | ('$' :: name) :: rest => call clock (String.ofList name) (rest.map String.ofList)
  | head :: _ => .error (.noDollar (String.ofList head))

/-! ## Drawing -/

/-- The lowest digits of a number in base sixteen, as many as asked for. -/
def hexText (places n : Nat) : List Char :=
  let ds := Nat.toDigits 16 (n % Nat.pow 16 places)
  List.replicate (places - ds.length) '0' ++ ds

/-- The identifier that is made of 122 random bits: version 4, variant 1. -/
def guidText (bits : Nat) : List Char :=
  hexText 8 bits ++ '-' :: hexText 4 (bits >>> 32) ++ '-' :: '4' :: hexText 3 (bits >>> 48) ++
    '-' :: hexText 1 (8 + (bits >>> 60) % 4) ++ hexText 3 (bits >>> 62) ++
    '-' :: hexText 12 (bits >>> 74)

/-- Draws a value, and gives the source of random numbers as it is left. Any source will do. -/
def Recipe.draw {γ : Type} [RandomGen γ] (source : γ) : Recipe → List Char × γ
  | known value => (value.toList, source)
  | guid =>
    let (bits, source) := randNat source 0 (Nat.pow 2 122 - 1)
    (guidText bits, source)
  | integer low high =>
    let (n, source) := randNat source 0 (high - low).toNat
    ((toString (low + n)).toList, source)

end Generator

end RequestFile
