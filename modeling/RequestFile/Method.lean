/-!
# Request methods

The nine standard methods of HTTP. A file may name any other method; these are the ones about which
something is known.
-/

namespace RequestFile

/-- A standard request method. -/
inductive Method where
  | get
  | post
  | put
  | delete
  | patch
  | options
  | head
  | trace
  | connect
deriving Repr, DecidableEq

namespace Method

/-- All standard methods. -/
def all : List Method :=
  [get, post, put, delete, patch, options, head, trace, connect]

/-- The name of a method, in capital letters. -/
def name : Method → String
  | get => "GET"
  | post => "POST"
  | put => "PUT"
  | delete => "DELETE"
  | patch => "PATCH"
  | options => "OPTIONS"
  | head => "HEAD"
  | trace => "TRACE"
  | connect => "CONNECT"

/-- The method that is written exactly so. -/
def ofName? (s : String) : Option Method :=
  all.find? (·.name == s)

/-- The capital form of a character, if it consists of the letters `A` to `Z` or of other ASCII
characters. Beyond ASCII that is so for the dotless i, the long and the sharp s and the ligatures
of `f` and of `st` only. -/
def capitals? (c : Char) : Option (List Char) :=
  if c.toNat < 0x80 then some [c.toUpper]
  else match c.toNat with
    | 0x131 => some ['I']
    | 0x17F => some ['S']
    | 0xDF => some ['S', 'S']
    | 0xFB00 => some ['F', 'F']
    | 0xFB01 => some ['F', 'I']
    | 0xFB02 => some ['F', 'L']
    | 0xFB03 => some ['F', 'F', 'I']
    | 0xFB04 => some ['F', 'F', 'L']
    | 0xFB05 => some ['S', 'T']
    | 0xFB06 => some ['S', 'T']
    | _ => none

/-- The method whose name is the capital form of a text. -/
def ofAnyCase? (s : String) : Option Method := do
  let capitals ← s.toList.mapM capitals?
  ofName? (String.ofList capitals.flatten)

/-- Whether a request with this method is expected to have a body. -/
def expectsBody : Method → Bool
  | post | put | patch => true
  | _ => false

end Method

end RequestFile
