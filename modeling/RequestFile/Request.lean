import RequestFile.BodyFile
import RequestFile.Directive
import RequestFile.Method
import RequestFile.Table
/-!
# Requests

One request of a file, with everything that the file says about it and the lines where it says so.
The name of a request is made of letters, digits, `_` and `-`, so that placeholders can refer to it;
a name that is written otherwise can be turned into one.
-/

namespace RequestFile

/-! ## Names -/

/-- Whether all characters of a text may stand in a request name. -/
def isNameText (s : String) : Bool :=
  s.toList.all Text.isNameChar

/-- The slug of the rest of a text. `begun` tells whether characters of the slug stand in front of
it, and `gap` whether blanks have been read since the last of them. A gap is kept across characters
that are left out, and becomes a hyphen in front of the next character. -/
def slugFrom (begun gap : Bool) : List Char → List Char
  | [] => []
  | c :: rest =>
    if Text.isBlank c then slugFrom begun true rest
    else if Text.isNameChar c then
      if gap && begun then '-' :: c :: slugFrom true false rest
      else c :: slugFrom true false rest
    else slugFrom begun gap rest

/-- A text made into a name: blanks between its characters become a hyphen, and the characters that
may not stand in a name are left out. -/
def slug (s : String) : String :=
  String.ofList (slugFrom false false (Text.trim s.toList))

/-! ## Requests -/

/-- What comments before a request say about it. -/
structure Metadata where
  name : String := ""
  expectations : List Expectation := []
  directives : Table String := .empty
deriving Repr, DecidableEq

/-- A request. -/
structure Request where
  name : String := ""
  /-- The method as written, empty when the file leaves it out. -/
  method : String
  url : String
  version : Option String := none
  headers : Table String := .empty
  /-- The line of each header. -/
  headerLines : Table Nat := .empty
  body : Option String := none
  bodyFile : Option BodyFile := none
  metadata : Metadata := {}
  /-- The line of the request line. -/
  line : Nat := 0
deriving Repr, DecidableEq

namespace Request

/-- The method as written, `GET` if there is none. -/
def effectiveMethod (r : Request) : String :=
  if isBlankText r.method then Method.get.name else r.method

/-- The standard method that the request names in any case. -/
def standardMethod? (r : Request) : Option Method :=
  Method.ofAnyCase? r.effectiveMethod

/-- Adds a header, or replaces the value of the header with that name. -/
def addHeader (r : Request) (name value : String) : Request :=
  { r with headers := r.headers.insert name value }

/-- The line of the header with a name. -/
def headerLine? (r : Request) (name : String) : Option Nat :=
  r.headerLines.get? name

/-- Whether the request has a body of its own that is not empty. -/
def hasBody (r : Request) : Bool :=
  r.body.any (· != "")

/-- The value of the first header with a name, in any case. -/
def header? (r : Request) (name : String) : Option String :=
  (r.headers.entries.find? fun entry => Text.sameLetters entry.1 name).map Prod.snd

/-- The value of the `Content-Type` header. -/
def contentType? (r : Request) : Option String :=
  r.header? "content-type"

end Request

end RequestFile
