import RequestFile.Json.Tree
import RequestFile.Table
/-!
# Records in JSON

How the data of a program is read from a JSON text: texts, truth values, natural numbers, lists,
tables and records. A record is an object whose members are its fields, or an array of the values of
its fields in their order. Each reader takes a tree and gives nothing if the tree is not of its
form.
-/

namespace RequestFile.Json

/-- The fields of a record, in their order. -/
structure Shape where
  fields : List String
  /-- The fields that are `null` where an object leaves them out. -/
  nullable : List String := []
deriving Repr, DecidableEq

namespace Shape

/-- The members of an object that are fields, with `null` for the nullable fields that it leaves
out. Members that are no fields are passed over; no field may stand twice. -/
def ofMembers? (shape : Shape) (members : List (String × Tree)) : Option (Table Tree) :=
  let known := members.filter fun entry => shape.fields.contains entry.1
  let missing := shape.nullable.filter fun name => !(known.map Prod.fst).contains name
  if (known.map Prod.fst).Nodup then
    some (.ofList (known ++ missing.map fun name => (name, .null)))
  else none

/-- The items of an array as the first fields, in order. There may not be more items than fields. -/
def ofItems? (shape : Shape) (items : List Tree) : Option (Table Tree) :=
  if items.length ≤ shape.fields.length then some (.ofList (shape.fields.zip items)) else none

end Shape

namespace Tree

/-- A member of an object whose name is a text. -/
def named? (member : Option String × Tree) : Option (String × Tree) :=
  member.1.map (·, member.2)

/-- The trees of the fields of a record that are given. The name of a member must be a text even if
it is no field. -/
def fields? (shape : Shape) : Tree → Option (Table Tree)
  | .object members => (members.mapM named?).bind shape.ofMembers?
  | .array items => shape.ofItems? items
  | _ => none

/-- Reads a text. -/
def text? : Tree → Option String
  | .string s => s
  | _ => none

/-- Reads a truth value. -/
def bool? : Tree → Option Bool
  | .bool b => some b
  | _ => none

/-- Reads a natural number of 64 bits, written as digits only. -/
def nat? : Tree → Option Nat
  | .number { negative := false, whole, fraction := none, exponent := none } =>
    some (Decimal.ofDigits whole) |>.filter (· ≤ Decimal.maxNat64)
  | _ => none

/-- Reads a value that may be `null`. -/
def option? {α : Type} (read : Tree → Option α) : Tree → Option (Option α)
  | .null => some none
  | tree => (read tree).map some

/-- Reads a list. -/
def list? {α : Type} (read : Tree → Option α) : Tree → Option (List α)
  | .array items => items.mapM read
  | _ => none

/-- Reads a table. The last of several values for one name counts, in the place of the first. -/
def table? {α : Type} (read : Tree → Option α) : Tree → Option (Table α)
  | .object members =>
    (members.mapM fun member => do
      let (name, tree) ← named? member
      return (name, ← read tree)).map Table.ofList
  | _ => none

/-- A table as an object. -/
def ofTable {α : Type} (write : α → Tree) (t : Table α) : Tree :=
  record (t.entries.map fun (name, value) => (name, write value))

end Tree

namespace Fields

/-- Reads a field that must be given. -/
def required {α : Type} (fields : Table Tree) (name : String) (read : Tree → Option α) :
    Option α :=
  (fields.get? name).bind read

/-- Reads a field that may be left out, for a default value. -/
def defaulted {α : Type} (fields : Table Tree) (name : String) (read : Tree → Option α)
    (default : α) : Option α :=
  match fields.get? name with
  | none => some default
  | some tree => read tree

end Fields

end RequestFile.Json
