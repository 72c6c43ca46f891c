import RequestFile.Assembly
import RequestFile.Document.Json
import RequestFile.Options.Settings
import RequestFile.Resolution
import RequestFile.ResponseReference
/-!
# Sessions

While the requests of a file are sent one after the other, a session holds what the next one depends
on: the document, the variables, and the responses so far. References to responses are resolved
before all other placeholders. An action that fails leaves the session as it was.
-/

namespace RequestFile

/-! ## Requests -/

/-- The texts of a request in which placeholders have a meaning: its URL, the values of its headers
and its body. -/
def Request.texts (r : Request) : List String :=
  r.url :: r.headers.entries.map Prod.snd ++ r.body.toList

/-- The names of the requests to whose responses a request refers, sorted. -/
def Request.dependencies (r : Request) : List String :=
  sortedNames (r.texts.flatMap referencedRequests)

/-- A request as it is sent, with its placeholders resolved. -/
structure Outgoing where
  method : String
  url : String
  headers : List (String × String)
  body : Option String
deriving Repr, DecidableEq

/-! ## Sessions -/

/-- What sending a request depends on. -/
structure Session where
  options : Options := {}
  document : Document := {}
  scope : Scope := {}
  responses : Responses := .empty
deriving Repr

namespace Session

/-- Takes the options from settings. -/
def configure (s : Session) (settings : Json.Value) : Except SettingsError Session :=
  (Options.ofSection settings).map fun options => { s with options }

/-- Parses a text for the document, whose variables become the file variables. -/
def parse (s : Session) (text : String) : Except ParseError Session :=
  (RequestFile.parse text s.options).map fun document =>
    { s with document, scope := { s.scope with file := document.fileVariables } }

/-- Reads the document from JSON. The file variables stay what they are. -/
def load? (s : Session) (json : String) : Option Session :=
  (Document.ofJson? json).map fun document => { s with document }

/-- Gives a variable of the document another value. The file variables stay what they are. -/
def withVariable (s : Session) (name value : String) : Session :=
  { s with document := s.document.withVariable name value }

/-- Takes the file variables from the document, and no environment. -/
def reloadVariables (s : Session) : Session :=
  { s with scope := .ofDocument s.document }

/-- Gives a file variable another value. -/
def setFileVariable (s : Session) (name value : String) : Session :=
  { s with scope := { s.scope with file := s.scope.file.insert name value } }

/-- Puts variables into the environment. -/
def withEnvironment (s : Session) (entries : List (String × String)) : Session :=
  { s with scope := s.scope.withEnvironment entries }

/-- Keeps the response to a request. -/
def capture (s : Session) (name : String) (response : Snapshot) : Session :=
  { s with responses := s.responses.insert name response }

/-- Forgets the response to a request. -/
def uncapture (s : Session) (name : String) : Session :=
  { s with responses := s.responses.erase name }

/-- Forgets all responses. -/
def clear (s : Session) : Session :=
  { s with responses := .empty }

/-! ## Runs -/

/-- Something that is done to a session. -/
inductive Action where
  | configure (settings : Json.Value)
  | parse (text : String)
  | load (json : String)
  | withVariable (name value : String)
  | reloadVariables
  | setFileVariable (name value : String)
  | withEnvironment (entries : List (String × String))
  | capture (name : String) (response : Snapshot)
  | uncapture (name : String)
  | clear

/-- The session after an action, if the action does not fail. -/
def step? (s : Session) : Action → Option Session
  | .configure settings => (s.configure settings).toOption
  | .parse text => (s.parse text).toOption
  | .load json => s.load? json
  | .withVariable name value => some (s.withVariable name value)
  | .reloadVariables => some s.reloadVariables
  | .setFileVariable name value => some (s.setFileVariable name value)
  | .withEnvironment entries => some (s.withEnvironment entries)
  | .capture name response => some (s.capture name response)
  | .uncapture name => some (s.uncapture name)
  | .clear => some s.clear

/-- The session after an action. An action that fails leaves the session as it was. -/
def step (s : Session) (action : Action) : Session :=
  (s.step? action).getD s

/-- The session after actions that are done one after the other. -/
def run (s : Session) (actions : List Action) : Session :=
  actions.foldl step s

/-! ## Sending -/

variable {γ : Type} [RandomGen γ]

/-- A text with its references to responses resolved, and then its other placeholders; and the
source of random numbers as it is left. -/
def resolve (s : Session) (clock : Clock) (text : String) (source : γ) : String × γ :=
  s.scope.resolve clock (s.responses.resolve text) source

/-- Resolves the values of headers, one after the other. -/
def resolveHeaders (s : Session) (clock : Clock) :
    List (String × String) → γ → List (String × String) × γ
  | [], source => ([], source)
  | (name, value) :: rest, source =>
    let (value, source) := s.resolve clock value source
    let (rest, source) := resolveHeaders s clock rest source
    ((name, value) :: rest, source)

/-- A request as it is sent. -/
def prepare (s : Session) (clock : Clock) (r : Request) (source : γ) : Outgoing × γ :=
  let (url, source) := s.resolve clock r.url source
  let (headers, source) := s.resolveHeaders clock r.headers.entries source
  let (body, source) := match r.body with
    | none => (none, source)
    | some body =>
      let (body, source) := s.resolve clock body source
      (some body, source)
  ({ method := r.effectiveMethod, url, headers, body }, source)

end Session

end RequestFile
