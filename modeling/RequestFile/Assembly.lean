import RequestFile.Directive
import RequestFile.ParseError
import RequestFile.Token.Scan
/-!
# From tokens to a document

`Assembly.take` reads one token after the other. A request line opens a request, which ends with the
next request line or separator; directives wait for the next request, and a name after a separator
is used if no directive names the request. When all tokens are read, every request gets its final
name, and the names are checked. `parse` and `parseFile` read a text and the bytes of a file in this
way.
-/

namespace RequestFile

/-- What directives have said about the next request. -/
structure Pending where
  name : Option String := none
  expectations : List Expectation := []
  directives : Table String := .empty
deriving Repr, DecidableEq

/-- A request with the lines of its body and the name that the file gives it. -/
structure Draft where
  request : Request
  bodyLines : List String := []
  writtenName : Option String := none
deriving Repr, DecidableEq

/-- What has been read of a file. -/
structure Assembly where
  finished : List Draft := []
  current : Option Draft := none
  pending : Pending := {}
  /-- The name after the last separator. -/
  inlineName : Option String := none
  fileVariables : Table String := .empty
  variableLines : Table Nat := .empty
deriving Repr, DecidableEq

/-- The lines of a body without the blank lines at both ends, joined by LF. A body of blank lines is
no body. -/
def joinBody (bodyLines : List String) : Option String :=
  match ((bodyLines.dropWhile isBlankText).reverse.dropWhile isBlankText).reverse with
  | [] => none
  | kept => some ("\n".intercalate kept)

/-- The request of a draft, with its body. -/
def Draft.toRequest (d : Draft) : Request :=
  { d.request with body := joinBody d.bodyLines }

/-- The file that a file directive names. -/
def FileDirective.bodyFile (processVariables : Bool) : FileDirective → BodyFile
  | raw path => .raw path
  | processed path => { BodyFile.withVariables path .utf8 with processed := processVariables }
  | encoded label path =>
    { BodyFile.withVariables path (.ofLabel label) with processed := processVariables }

namespace Assembly

/-- Ends the request that is open. -/
def close (a : Assembly) : Assembly :=
  { a with finished := a.finished ++ a.current.toList, current := none }

/-- Opens a request: it gets what directives have said, and its name from them or else from the
separator before it. -/
def openRequest (a : Assembly) (method url : String) (version : Option String) (line : Nat) :
    Assembly :=
  let request : Request :=
    { method, url, version, line,
      metadata :=
        { expectations := a.pending.expectations, directives := a.pending.directives } }
  { a.close with
    current := some { request, writtenName := a.pending.name.or a.inlineName }
    pending := {}
    inlineName := none }

/-- Changes the request that is open, if one is. -/
def updateRequest (a : Assembly) (f : Request → Request) : Assembly :=
  { a with current := a.current.map fun d => { d with request := f d.request } }

/-- Notes what a directive says about the next request. -/
def takeDirective (options : Options) (a : Assembly) (key value : String) : Assembly :=
  match Directive.of key value with
  | .name name => { a with pending := { a.pending with name := some name } }
  | .expect e =>
    if options.parseExpectations then
      { a with pending := { a.pending with expectations := a.pending.expectations ++ [e] } }
    else a
  | .other key value =>
    if options.ignoreUnknownMetadata then a
    else
      let directives := a.pending.directives.insert key value
      { a with pending := { a.pending with directives } }

/-- Reads one token. -/
def take (options : Options) (a : Assembly) (t : Located) : Assembly :=
  match t.token with
  | .comment _ | .unrecognized _ => a
  | .assignment name value =>
    { a with
      fileVariables := a.fileVariables.insert name value
      variableLines := a.variableLines.insert name t.line }
  | .separator name => { a.close with inlineName := name }
  | .directive key value => a.takeDirective options key value
  | .requestLine method url version => a.openRequest method url version t.line
  | .queryPart text => a.updateRequest fun r => { r with url := r.url ++ text }
  | .header name value =>
    a.updateRequest fun r =>
      { r.addHeader name value with headerLines := r.headerLines.insert name t.line }
  | .bodyLine text =>
    { a with current := a.current.map fun d => { d with bodyLines := d.bodyLines ++ [text] } }
  | .bodyFile directive =>
    a.updateRequest fun r =>
      { r with bodyFile := some (directive.bodyFile options.processVariables) }

/-- Reads all tokens of a file. -/
def ofTokens (options : Options) (tokens : List Located) : Assembly :=
  (tokens.foldl (take options) {}).close

end Assembly

/-- The name that a request gets from what is written: in strict mode as written, otherwise made
into a request name if it is not one. -/
def settleName (options : Options) (written : Option String) : String :=
  let name := trimmed (written.getD "")
  if isNameText name || options.strictMode then name else slug name

/-- The name of the request that is the given one of those without a name, counted from one. -/
def defaultName (number : Nat) : String :=
  "request-" ++ toString number

/-- Gives a request its name, in the request itself and in what is said about it. -/
def Request.rename (r : Request) (name : String) : Request :=
  { r with name, metadata := { r.metadata with name } }

/-- Names the requests one after the other. Where names are required, a request that has none gets a
default name; `unnamed` counts how many have been given. -/
def nameRequests (options : Options) (unnamed : Nat) : List Draft → List Request
  | [] => []
  | d :: rest =>
    let name := settleName options d.writtenName
    if name == "" && options.requireRequestNames then
      d.toRequest.rename (defaultName (unnamed + 1)) :: nameRequests options (unnamed + 1) rest
    else d.toRequest.rename name :: nameRequests options unnamed rest

/-- The first request whose name an earlier request has as well, with the line of that one.
`earlier` holds the names seen so far with their lines. -/
def firstRepeated? (earlier : List (String × Nat)) : List Request → Option (Request × Nat)
  | [] => none
  | r :: rest =>
    if r.name == "" then firstRepeated? earlier rest
    else match earlier.lookup r.name with
      | some line => some (r, line)
      | none => firstRepeated? ((r.name, r.line) :: earlier) rest

/-- The document of what has been read, before anything is checked. -/
def Assembly.toDocument (options : Options) (a : Assembly) : Document where
  requests := nameRequests options 0 a.finished
  fileVariables := a.fileVariables
  variableLines := a.variableLines

/-- The document if its names are distinct, where that is asked for. -/
def checkNames (options : Options) (d : Document) : Except ParseError Document :=
  if options.validateRequestNames then
    match firstRepeated? [] d.requests with
    | some (r, firstLine) => .error (.duplicateRequestName r.name r.line firstLine)
    | none => .ok d
  else .ok d

/-- The document if it is valid, where that is asked for. -/
def checkStrictly (options : Options) (d : Document) : Except ParseError Document :=
  if options.strictMode then
    match (d.validate options.rules).errors with
    | [] => .ok d
    | errors => .error (.invalid errors)
  else .ok d

/-- The document that tokens make, names first and then the strict checks. -/
def assemble (options : Options) (tokens : List Located) : Except ParseError Document := do
  let d ← checkNames options ((Assembly.ofTokens options tokens).toDocument options)
  checkStrictly options d

/-! ## Parsing -/

/-- The document that tokens make. The options are looked at first. -/
def parseTokens (options : Options) (tokens : List Located) : Except ParseError Document :=
  match options.problem? with
  | some problem => .error (.badOptions problem)
  | none => assemble options tokens

/-- The document of a text. -/
def parse (text : String) (options : Options := {}) : Except ParseError Document :=
  parseTokens options (scan text options.normalizeLineEndings)

/-- The document of a file, given what reading the file has brought. A path must be given, and the
bytes must be UTF-8. -/
def parseFile (path : String) (content : Except ReadFailure ByteArray) (options : Options := {}) :
    Except ParseError Document :=
  if path == "" then .error .emptyPath
  else match content with
    | .error failure => .error (.unreadable path failure)
    | .ok bytes =>
      match String.fromUTF8? bytes with
      | none => .error (.unreadable path .notText)
      | some text => parse text options

end RequestFile
