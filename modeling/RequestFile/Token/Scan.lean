import RequestFile.Text.Basic
import RequestFile.Token
import RequestFile.Token.RequestLine
/-!
# Scanning a request file

A request block has three regions: the preamble before the request line, the headers up to the first
blank line, and the body. `Region.step` reads one line in a region: it gives the token of the line,
if the line makes one, and the region of the next line. A line that starts with `###` ends the block
wherever it stands.
-/

namespace RequestFile

/-- Where a line stands in its request block. -/
inductive Region where
  /-- Before the request line. -/
  | preamble
  /-- After the request line. The query of the URL is open until a token of another kind comes. -/
  | headers (queryOpen : Bool)
  /-- After the headers: whether the line before was blank or ended the headers, and how many
  brackets of the body are open. -/
  | body (afterBlank : Bool) (depth : Nat)
deriving Repr, DecidableEq

namespace Token

/-- The name after the marks of a separator: a single word is a name, anything else is a title. -/
def separatorName? (rest : List Char) : Option String :=
  let name := Text.trim (rest.dropWhile (· == '#'))
  if name.isEmpty || name.any Text.isBlank then none else some (String.ofList name)

/-- The separator that a trimmed line is. -/
def separator? (line : List Char) : Option Token :=
  (['#', '#', '#'].isPrefixOf? line).map fun rest => .separator (separatorName? rest)

/-- The key and the value of a directive, read after the mark of the comment: an `@`, a key that
starts with a letter, and after a blank the value. -/
def directive? (rest : List Char) : Option Token :=
  match Text.trimStart rest with
  | '@' :: c :: more =>
    if c.isAlpha then
      let key := String.ofList (c :: more.takeWhile Text.isNameChar)
      match more.dropWhile Text.isNameChar with
      | [] => some (.directive key "")
      | b :: value =>
        if Text.isBlank b then some (.directive key (String.ofList (Text.trim value))) else none
    else none
  | _ => none

/-- What follows the mark of a comment, `#` or `//`. -/
def afterCommentMark? : List Char → Option (List Char)
  | '#' :: rest => some rest
  | '/' :: '/' :: rest => some rest
  | _ => none

/-- The comment or directive that a trimmed line is. -/
def comment? (line : List Char) : Option Token :=
  (afterCommentMark? line).map fun rest =>
    (directive? rest).getD (.comment (String.ofList (Text.trim rest)))

/-- The variable that a trimmed line declares: `@`, a name, `=` and a value. -/
def assignment? : List Char → Option Token
  | '@' :: rest =>
    match Text.cutAt (· == '=') rest with
    | (name, some value) =>
      some (.assignment (String.ofList (Text.trim name)) (String.ofList (Text.trim value)))
    | (_, none) => none
  | _ => none

/-- The part of a query that a trimmed line is: it starts with `?` or `&`. -/
def queryPart? : List Char → Option Token
  | c :: rest =>
    if c == '?' || c == '&' then some (.queryPart (String.ofList (c :: rest))) else none
  | [] => none

/-- The header that a trimmed line is: a name, a colon and a value. -/
def header? (line : List Char) : Option Token :=
  match Text.cutAt (· == ':') line with
  | (name, some value) =>
    some (.header (String.ofList (Text.trim name)) (String.ofList (Text.trim value)))
  | (_, none) => none

/-- The file directive that a trimmed line is. -/
def bodyFile? (line : List Char) : Option Token :=
  (FileDirective.ofChars? line).map .bodyFile

/-- The token of a line that is nothing else. -/
def unrecognizedLine (line : List Char) : Token :=
  .unrecognized (String.ofList line)

/-- How many brackets are open after a line of a body. Brackets between double quotes do not count,
and a quotation ends with its line. -/
def depthAfter : (quoted escaped : Bool) → (depth : Nat) → List Char → Nat
  | _, _, depth, [] => depth
  | true, true, depth, _ :: rest => depthAfter true false depth rest
  | true, false, depth, c :: rest =>
    if c == '\\' then depthAfter true true depth rest
    else depthAfter (c != '"') false depth rest
  | false, _, depth, c :: rest =>
    if c == '"' then depthAfter true false depth rest
    else if c == '{' || c == '[' then depthAfter false false (depth + 1) rest
    else if c == '}' || c == ']' then depthAfter false false (depth - 1) rest
    else depthAfter false false depth rest

end Token

namespace Region

/-- Reads a trimmed line of the preamble. -/
def stepPreamble (line : List Char) : Option Token × Region :=
  if line.isEmpty then (none, preamble)
  else match Token.comment? line with
    | some token => (some token, preamble)
    | none => match Token.assignment? line with
      | some token => (some token, preamble)
      | none => match Token.requestLine? line with
        | some token => (some token, headers true)
        | none => (some (Token.unrecognizedLine line), preamble)

/-- Reads a trimmed line of the headers. -/
def stepHeaders (queryOpen : Bool) (line : List Char) : Option Token × Region :=
  if line.isEmpty then (none, body true 0)
  else match Token.comment? line with
    | some token => (some token, headers false)
    | none => match (if queryOpen then Token.queryPart? line else none) with
      | some token => (some token, headers true)
      | none => match Token.bodyFile? line with
        | some token => (some token, body false 0)
        | none => match Token.standardRequestLine? line with
          | some token => (some token, headers true)
          | none => match Token.header? line with
            | some token => (some token, headers false)
            | none => (some (Token.unrecognizedLine line), headers false)

/-- Keeps a line as text of the body. -/
def keepLine (depth : Nat) (raw : List Char) : Option Token × Region :=
  (some (.bodyLine (String.ofList raw)), body false (Token.depthAfter false false depth raw))

/-- Reads a line of the body, given as written and trimmed. Between brackets everything is text. -/
def stepBody (afterBlank : Bool) (depth : Nat) (raw line : List Char) : Option Token × Region :=
  if depth != 0 then keepLine depth raw
  else if line.isEmpty then (some (.bodyLine ""), body true 0)
  else match (if afterBlank then Token.standardRequestLine? line else none) with
    | some token => (some token, headers true)
    | none => match Token.comment? line with
      | some token => (some token, body afterBlank 0)
      | none => match Token.bodyFile? line with
        | some token => (some token, body false 0)
        | none => keepLine 0 raw

/-- Reads one line: the token that it makes, if any, and the region of the next line. -/
def step (region : Region) (raw : List Char) : Option Token × Region :=
  let line := Text.trim raw
  match Token.separator? line with
  | some token => (some token, preamble)
  | none =>
    match region with
    | preamble => stepPreamble line
    | headers queryOpen => stepHeaders queryOpen line
    | body afterBlank depth => stepBody afterBlank depth raw line

/-- Reads lines one after the other, the first of which has the given number. -/
def scanFrom (region : Region) (number : Nat) : List (List Char) → List Located
  | [] => []
  | raw :: rest =>
    let (token, next) := region.step raw
    (token.map fun token => { token, line := number }).toList ++
      next.scanFrom (number + 1) rest

end Region

/-- The tokens of a list of lines. -/
def scanLines (lines : List (List Char)) : List Located :=
  Region.preamble.scanFrom 1 lines

/-- The tokens of a text. Without normalization lines end at LF only, and a line of a body keeps a
CR at its end. -/
def scan (text : String) (normalize : Bool := true) : List Located :=
  scanLines (Text.lines (if normalize then Text.normalize text.toList else text.toList))

end RequestFile
