import RequestFile.Text.Basic
/-!
# Directives

A comment of the form `@key value` says something about the next request: its name, something that
is expected of its response, or anything else. An expectation has a kind and a value that is kept as
written; whether the value makes sense is a question for validation.
-/

namespace RequestFile

/-! ## Expectations -/

/-- What an expectation is about. -/
inductive ExpectationKind where
  | statusCode
  | header
  | bodyContains
  | bodyPath
  | schema
  | maxTime
deriving Repr, DecidableEq

namespace ExpectationKind

/-- All kinds of expectation. -/
def all : List ExpectationKind :=
  [statusCode, header, bodyContains, bodyPath, schema, maxTime]

/-- The keyword under which a kind is shown. -/
def keyword : ExpectationKind → String
  | statusCode => "status"
  | header => "header"
  | bodyContains => "body-contains"
  | bodyPath => "body-path"
  | schema => "schema"
  | maxTime => "max-time"

/-- The kind that a keyword names. Hyphens, underscores and the case of letters make no difference.
-/
def ofKeyword? (s : String) : Option ExpectationKind :=
  match String.ofList (Text.lower (s.toList.filter fun c => c != '-' && c != '_')) with
  | "status" | "statuscode" => some statusCode
  | "header" => some header
  | "bodycontains" | "contains" => some bodyContains
  | "bodypath" | "jsonpath" => some bodyPath
  | "schema" => some schema
  | "maxtime" | "duration" => some maxTime
  | _ => none

end ExpectationKind

/-- Something that a request expects of its response. -/
structure Expectation where
  kind : ExpectationKind
  value : String
deriving Repr, DecidableEq

/-- The expectation that a text describes: the keyword of a kind, and after a blank the value. The
value is not looked into. -/
def Expectation.ofText? (text : String) : Option Expectation :=
  let (keyword, value) := Text.cutAt Text.isBlank (Text.trim text.toList)
  (ExpectationKind.ofKeyword? (String.ofList keyword)).map fun kind =>
    { kind, value := String.ofList (Text.trim (value.getD [])) }

/-! ## What a directive says -/

/-- What a directive says. -/
inductive Directive where
  /-- The name of the request. -/
  | name (name : String)
  /-- Something that is expected of the response. -/
  | expect (expectation : Expectation)
  /-- Anything else, as written; also an expectation of an unknown kind. -/
  | other (key value : String)
deriving Repr, DecidableEq

/-- What the directive with a key and a value says. The case of the letters of the key makes no
difference. -/
def Directive.of (key value : String) : Directive :=
  if Text.sameLetters key "name" then .name (trimmed value)
  else if Text.sameLetters key "expect" then
    match Expectation.ofText? value with
    | some expectation => .expect expectation
    | none => .other key value
  else .other key value

end RequestFile
