import RequestFile.Request
/-!
# Documents

The content of a request file: its requests in the order of the file, and its variables.
-/

namespace RequestFile

/-- The content of a request file. -/
structure Document where
  requests : List Request := []
  fileVariables : Table String := .empty
  /-- The line of the last declaration of each variable. -/
  variableLines : Table Nat := .empty
deriving Repr, DecidableEq

namespace Document

instance : Inhabited Document := ⟨{}⟩

/-- The first request with a name. -/
def request? (d : Document) (name : String) : Option Request :=
  d.requests.find? (·.name == name)

/-- The request that a line belongs to: the last one before the first that starts after the line. -/
def requestAtLine? (d : Document) (line : Nat) : Option Request :=
  (d.requests.takeWhile (·.line ≤ line)).getLast?

/-- The line where a variable was declared. -/
def variableLine? (d : Document) (name : String) : Option Nat :=
  d.variableLines.get? name

/-- The document with another value for a variable, or with one more variable. -/
def withVariable (d : Document) (name value : String) : Document :=
  { d with fileVariables := d.fileVariables.insert name value }

/-- Whether two requests differ in nothing but the order of headers and of directives. -/
def sameRequest (r s : Request) : Bool :=
  let unordered := fun (q : Request) =>
    { q with
      headers := .empty
      headerLines := .empty
      metadata := { q.metadata with directives := .empty } }
  unordered r == unordered s && r.headers.sameEntries s.headers &&
    r.headerLines.sameEntries s.headerLines &&
    r.metadata.directives.sameEntries s.metadata.directives

/-- Whether two documents say the same; the order within tables does not count. -/
def same (d e : Document) : Bool :=
  d.requests.length == e.requests.length &&
    (d.requests.zip e.requests).all (fun (r, s) => sameRequest r s) &&
    d.fileVariables.sameEntries e.fileVariables && d.variableLines.sameEntries e.variableLines

end Document

end RequestFile
