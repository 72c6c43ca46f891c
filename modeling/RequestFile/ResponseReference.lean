import RequestFile.Json.Path
import RequestFile.Reference
import RequestFile.Snapshot
import RequestFile.Text.Basic
/-!
# References to responses

`{{name.response.part}}` stands for a part of the response to the request of that name: its body or
a value in it, its status, a header, its content type or its time. Such references are resolved in
one pass before all others; escaped braces are left escaped for the resolution that follows.
-/

namespace RequestFile

/-- What stands between the name of a request and a part of its response. -/
def responseMark : List Char :=
  ['.', 'r', 'e', 's', 'p', 'o', 'n', 's', 'e', '.']

/-- The request and the part to which the content of a placeholder refers. -/
def responseReference? (content : List Char) : Option (List Char × List Char) :=
  let rest := Text.trimStart content
  let name := rest.takeWhile Text.isNameChar
  match responseMark.isPrefixOf? (rest.dropWhile Text.isNameChar) with
  | some part => if name.isEmpty || part.isEmpty then none else some (name, Text.trim part)
  | none => none

/-- The request and the part to which a part of a text refers. -/
def Placeholder.Segment.response? : Placeholder.Segment → Option (List Char × List Char)
  | .braces content => responseReference? content
  | _ => none

/-- The name that follows one of the words for headers. -/
def headerName? (part : List Char) : Option String :=
  ((['h', 'e', 'a', 'd', 'e', 'r', 's', '.'].isPrefixOf? part).or
    (['h', 'e', 'a', 'd', 'e', 'r', '.'].isPrefixOf? part)).map
    fun name => String.ofList (Text.trim name)

/-- The path that follows the word for a body, if it starts at the root. -/
def bodyPath? (part : List Char) : Option (Option String) :=
  (['b', 'o', 'd', 'y', '.'].isPrefixOf? part).map fun path =>
    if path.head? == some '$' then some (String.ofList path) else none

/-- A part of a response. -/
def Snapshot.part? (s : Snapshot) (part : List Char) : Option String :=
  match String.ofList part with
  | "body" => some s.body
  | "status" => some (toString s.status)
  | "statusText" => some s.statusText
  | "contentType" => s.effectiveContentType?
  | "responseTime" => some s.timeText
  | _ =>
    match bodyPath? part with
    | some path => path.bind (Json.extract? s.body)
    | none => (headerName? part).bind s.header?

/-- The responses that have been captured, by the names of their requests. -/
abbrev Responses := Table Snapshot

namespace Responses

/-- The value of a reference, if the response and the part exist. -/
def value? (responses : Responses) (name part : List Char) : Option String :=
  (responses.get? (String.ofList name)).bind fun s => s.part? part

/-- A part of a text with its reference resolved, or as it is written. -/
def segmentText (responses : Responses) (segment : Placeholder.Segment) : List Char :=
  match segment.response? with
  | none => segment.source
  | some (name, part) =>
    match responses.value? name part with
    | some value => value.toList
    | none => segment.source

/-- The text with its references to responses resolved. -/
def resolve (responses : Responses) (text : String) : String :=
  if Text.occursIn responseMark text.toList then
    String.ofList
      (Placeholder.restore ((Placeholder.parse text).flatMap responses.segmentText))
  else text

end Responses

/-- Whether a text refers to a response. -/
def refersToResponse (text : String) : Bool :=
  (Placeholder.parse text).any fun segment => segment.response?.isSome

/-- The distinct names of the requests to whose responses a text refers, sorted. -/
def referencedRequests (text : String) : List String :=
  sortedNames ((Placeholder.parse text).filterMap fun segment =>
    segment.response?.map fun (name, _) => String.ofList name)

end RequestFile
