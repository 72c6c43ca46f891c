import Mathlib
import RequestFile.Document
import RequestFile.Proofs.Text.Line
import RequestFile.Proofs.Token.Recognize

/-!
# Written files

A `WrittenFile` describes a request file by what it says, together with the layout in which it is
written: where separators stand, and how many empty lines stand between its parts. Every part
carries what it must satisfy so that it can be told from the other parts once it is written. `text`
is the file as it is written, and `document` is what the file says.
-/

namespace RequestFile

/-! ## Parts of lines -/

/-- A text that can stand at the end of a line: it has no blanks at its ends and no line break. -/
def IsPlain (s : String) : Prop :=
  trimmed s = s ∧ isOneLine s = true

/-- A text that can stand between blanks. -/
def IsWord (s : String) : Prop :=
  s ≠ "" ∧ ∀ c ∈ s.toList, Text.isBlank c = false

/-- One or more decimal digits. -/
def IsNumeral (s : String) : Prop :=
  s ≠ "" ∧ ∀ c ∈ s.toList, Text.isDecimalDigit c = true

/-- A name that can stand between `@` and `=`. -/
def IsVariableName (s : String) : Prop :=
  IsPlain s ∧ '=' ∉ s.toList

/-- A name that can stand before the colon of a header. -/
def IsHeaderName (s : String) : Prop :=
  IsWord s ∧ ':' ∉ s.toList ∧ ∀ c ∈ s.toList.head?, c ∉ ['#', '/', '?', '&', '<']

instance (s : String) : Decidable (IsPlain s) :=
  inferInstanceAs (Decidable (_ ∧ _))

-- The characters are looked at one by one; the instance for finite types would go through all that
-- there are.
instance (s : String) : Decidable (IsWord s) :=
  let _ : Decidable (∀ c ∈ s.toList, Text.isBlank c = false) := List.decidableBAll _ _
  inferInstanceAs (Decidable (_ ∧ _))

instance (s : String) : Decidable (IsNumeral s) :=
  let _ : Decidable (∀ c ∈ s.toList, Text.isDecimalDigit c = true) := List.decidableBAll _ _
  inferInstanceAs (Decidable (_ ∧ _))

instance (s : String) : Decidable (IsVariableName s) :=
  inferInstanceAs (Decidable (_ ∧ _))

instance (s : String) : Decidable (IsHeaderName s) :=
  let _ : Decidable (∀ c ∈ s.toList.head?, c ∉ ['#', '/', '?', '&', '<']) :=
    Option.decidableForallMem _
  inferInstanceAs (Decidable (_ ∧ _ ∧ _))

/-- The table that gives each name of another its line, when they stand on consecutive lines. -/
def Table.lines (t : Table String) (first : Nat) : Table Nat where
  entries := (t.entries.zipIdx first).map fun (entry, line) => (entry.1, line)
  nodup := by
    have names : ((t.entries.zipIdx first).map fun (entry, line) => (entry.1, line)).map Prod.fst =
        t.entries.map Prod.fst := by
      rw [List.map_map, ← List.zipIdx_map_fst first t.entries, List.map_map]
      simp [Function.comp_def]
    rw [names]
    exact t.nodup

/-- A file variable on its line. -/
def variableLine (entry : String × String) : String :=
  "@" ++ entry.1 ++ " = " ++ entry.2

/-- A header on its line. -/
def headerLine (entry : String × String) : String :=
  entry.1 ++ ": " ++ entry.2

/-! ## Parts of requests -/

/-- An expectation, with the keyword under which it is written. -/
structure WrittenExpectation where
  keyword : String
  expectation : Expectation
  keyword_kind : ExpectationKind.ofKeyword? keyword = some expectation.kind
  value_plain : IsPlain expectation.value

def WrittenExpectation.line (e : WrittenExpectation) : String :=
  "# @expect " ++ e.keyword ++ " " ++ e.expectation.value

/-- A version of HTTP. -/
structure WrittenVersion where
  major : String
  minor : Option String
  major_numeral : IsNumeral major
  minor_numeral : ∀ digits ∈ minor, IsNumeral digits

def WrittenVersion.text (v : WrittenVersion) : String :=
  "HTTP/" ++ v.major ++ (v.minor.elim "" fun digits => "." ++ digits)

/-- Whether lines that follow a line of a body are text of the body, each as it is written. Between
open brackets that is so for everything but a separator. -/
def keepsText (afterBlank : Bool) (depth : Nat) : List String → Bool
  | [] => true
  | text :: rest =>
    let line := Text.trim text.toList
    let kept := keepsText false (Token.depthAfter false false depth text.toList) rest
    isOneLine text && !Line.isSeparator line &&
      if depth ≠ 0 then kept
      else if text = "" then keepsText true 0 rest
      else
        !line.isEmpty && !Line.isComment line && !Line.isFileDirective line &&
          !(afterBlank && Line.isStandardRequest line) && kept

/-- Lines that are a body as they stand: all are text, and the first and the last are not blank. -/
structure IsLiteral (texts : List String) : Prop where
  kept : keepsText true 0 texts = true
  nonempty : texts ≠ []
  first : ∀ text ∈ texts.head?, isBlankText text = false
  last : ∀ text ∈ texts.getLast?, isBlankText text = false

/-- What follows the headers of a request. -/
inductive WrittenContent where
  | nothing
  | literal (texts : List String) (ok : IsLiteral texts)
  | file (directive : FileDirective) (ok : directive.IsWellFormed)
    (oneLine : isOneLine directive.path = true)

namespace WrittenContent

/-- The lines of the content: an empty line, and then the lines of a body or of a file directive. -/
def lines : WrittenContent → List String
  | nothing => []
  | literal texts _ => "" :: texts
  | file directive _ _ =>
    ["", String.ofList (directive.mark ++ ' ' :: directive.path.toList)]

/-- The body that the content is. -/
def body? : WrittenContent → Option String
  | literal texts _ => some ("\n".intercalate texts)
  | _ => none

/-- The file that holds the body. -/
def bodyFile? : WrittenContent → Option BodyFile
  | file (.raw path) _ _ => some (.raw path)
  | file (.processed path) _ _ => some (.withVariables path .utf8)
  | file (.encoded label path) _ _ => some (.withVariables path (.ofLabel label))
  | _ => none

end WrittenContent

/-! ## Requests -/

/-- A request as it is written. -/
structure WrittenRequest where
  /-- Whether a separator stands before the request. -/
  marked : Bool
  /-- The number of empty lines before the directives. -/
  gap : Nat
  name : String
  expectations : List WrittenExpectation
  method : String
  url : String
  version : Option WrittenVersion
  headers : Table String
  content : WrittenContent
  /-- The number of empty lines after the content. -/
  trailing : Nat
  name_nonempty : name ≠ ""
  name_text : isNameText name = true
  method_word : Token.isMethodWord method.toList = true
  url_word : IsWord url
  header_names : ∀ entry ∈ headers.entries, IsHeaderName entry.1
  header_values : ∀ entry ∈ headers.entries, IsPlain entry.2

namespace WrittenRequest

/-- The lines before the request line. -/
def opening (r : WrittenRequest) : List String :=
  (if r.marked then ["###"] else []) ++ List.replicate r.gap "" ++
    ("# @name " ++ r.name) :: r.expectations.map WrittenExpectation.line

def requestLine (r : WrittenRequest) : String :=
  r.method ++ " " ++ r.url ++ (r.version.elim "" fun v => " " ++ v.text)

def lines (r : WrittenRequest) : List String :=
  r.opening ++ r.requestLine :: r.headers.entries.map headerLine ++ r.content.lines ++
    List.replicate r.trailing ""

/-- What the file says about the request, whose first line has the given number. -/
def request (r : WrittenRequest) (first : Nat) : Request where
  name := r.name
  method := r.method
  url := r.url
  version := r.version.map WrittenVersion.text
  headers := r.headers
  headerLines := r.headers.lines (first + r.opening.length + 1)
  body := r.content.body?
  bodyFile := r.content.bodyFile?
  metadata := { name := r.name, expectations := r.expectations.map (·.expectation) }
  line := first + r.opening.length

end WrittenRequest

/-- Requests that stand one after the other, from a line on. -/
def requestsFrom (first : Nat) : List WrittenRequest → List Request
  | [] => []
  | r :: rest => r.request first :: requestsFrom (first + r.lines.length) rest

/-! ## Files -/

/-- A request file as it is written. -/
structure WrittenFile where
  /-- The variables with their values. -/
  assignments : Table String
  /-- The number of empty lines after the variables. -/
  gap : Nat
  requests : List WrittenRequest
  variable_names : ∀ entry ∈ assignments.entries, IsVariableName entry.1
  variable_values : ∀ entry ∈ assignments.entries, IsPlain entry.2
  /-- A separator stands between two requests. -/
  separated : ∀ r ∈ requests.tail, r.marked = true
  names_distinct : (requests.map (·.name)).Nodup

namespace WrittenFile

def lines (f : WrittenFile) : List String :=
  f.assignments.entries.map variableLine ++ List.replicate f.gap "" ++ f.requests.flatMap (·.lines)

/-- The text of the file. -/
def text (f : WrittenFile) : String :=
  "\n".intercalate f.lines

/-- What the file says. -/
def document (f : WrittenFile) : Document where
  requests := requestsFrom (1 + f.assignments.size + f.gap) f.requests
  fileVariables := f.assignments
  variableLines := f.assignments.lines 1

end WrittenFile

end RequestFile
