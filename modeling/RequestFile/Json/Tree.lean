import RequestFile.Decimal.Read
/-!
# JSON as written

A `Tree` keeps what a JSON text says and the order in which it says it: the members of an object
with their repetitions, and a number by its digits. `Tree.render` writes a tree without any layout.
-/

namespace RequestFile.Json

/-- A number as written: a sign, digits, digits after a point, and an exponent with its sign. -/
structure Numeral where
  negative : Bool := false
  whole : List Char
  fraction : Option (List Char) := none
  exponent : Option (Bool × List Char) := none
deriving Repr, DecidableEq

/-- The numeral of a natural number. -/
def Numeral.ofNat (n : Nat) : Numeral :=
  { whole := Decimal.digits n }

/-- A JSON text as written. A string is absent where an escape in it names half of a surrogate pair
without the other half, so that it stands for no text. -/
inductive Tree where
  | null
  | bool (b : Bool)
  | number (n : Numeral)
  | string (s : Option String)
  | array (items : List Tree)
  | object (members : List (Option String × Tree))
deriving Repr, Inhabited

namespace Tree

/-- The tree of a text. -/
def text (s : String) : Tree :=
  .string (some s)

/-- The tree of a natural number. -/
def nat (n : Nat) : Tree :=
  .number (.ofNat n)

/-- The tree of a value that may be absent: `null` stands for its absence. -/
def option {α : Type} (f : α → Tree) : Option α → Tree
  | none => .null
  | some a => f a

/-- An object with the given members. -/
def record (members : List (String × Tree)) : Tree :=
  .object (members.map fun (name, value) => (some name, value))

end Tree

/-- Four digits in base sixteen, with small letters. -/
def hexDigits4 (n : Nat) : List Char :=
  let ds := Nat.toDigits 16 n
  List.replicate (4 - ds.length) '0' ++ ds

/-- How one character is written inside a string: the quote, the backslash and the control
characters below U+0020 are escaped, and no other. -/
def escapeChar (c : Char) : List Char :=
  if c == '"' then ['\\', '"']
  else if c == '\\' then ['\\', '\\']
  else if c.toNat == 0x08 then ['\\', 'b']
  else if c.toNat == 0x09 then ['\\', 't']
  else if c.toNat == 0x0A then ['\\', 'n']
  else if c.toNat == 0x0C then ['\\', 'f']
  else if c.toNat == 0x0D then ['\\', 'r']
  else if c.toNat < 0x20 then '\\' :: 'u' :: hexDigits4 c.toNat
  else [c]

/-- A text as a JSON string. -/
def renderString (s : String) : List Char :=
  '"' :: s.toList.flatMap escapeChar ++ ['"']

/-- A number as written. -/
def Numeral.render (n : Numeral) : List Char :=
  (if n.negative then ['-'] else []) ++ n.whole ++
    (match n.fraction with
      | none => []
      | some ds => '.' :: ds) ++
    (match n.exponent with
      | none => []
      | some (negative, ds) => 'e' :: (if negative then '-' else '+') :: ds)

mutual

/-- A tree as compact JSON. -/
def Tree.render : Tree → List Char
  | .null => ['n', 'u', 'l', 'l']
  | .bool true => ['t', 'r', 'u', 'e']
  | .bool false => ['f', 'a', 'l', 's', 'e']
  | .number n => n.render
  | .string s => renderString (s.getD "")
  | .array items => '[' :: renderItems items ++ [']']
  | .object members => '{' :: renderMembers members ++ ['}']

/-- The items of an array, with commas between them. -/
def renderItems : List Tree → List Char
  | [] => []
  | [item] => item.render
  | item :: rest => item.render ++ ',' :: renderItems rest

/-- The members of an object, with commas between them. -/
def renderMembers : List (Option String × Tree) → List Char
  | [] => []
  | [(name, value)] => renderString (name.getD "") ++ ':' :: value.render
  | (name, value) :: rest =>
    renderString (name.getD "") ++ ':' :: value.render ++ ',' :: renderMembers rest

end

end RequestFile.Json
