import RequestFile.Decimal.Read
import RequestFile.Document
import RequestFile.Reference
/-!
# Validation

A document may break the rules of the format without being unreadable. `Document.validate` reports
what it finds, request by request and then variable by variable: errors, which make a document
invalid, and warnings, which do not. What was found is a value that says what is wrong; its wording
is `Defect.message` and `Concern.message`.
-/

namespace RequestFile

/-- Something that makes a document invalid. -/
inductive Defect where
  | missingRequestName
  | invalidRequestName (name : String)
  | requestNameTooLong (name : String) (maximum : Nat)
  | duplicateRequestName (name : String) (firstLine : Nat)
  | emptyUrl
  | emptyHeaderName
  | statusOutOfRange (value : String)
  | badMaxTime (value : String)
  | missingExpectationValue (kind : ExpectationKind)
  | emptyVariableName
  | circularVariable (name : String)
deriving Repr, DecidableEq

/-- The kinds of defect. -/
inductive DefectKind where
  | missingRequestName
  | invalidRequestName
  | requestNameTooLong
  | duplicateRequestName
  | emptyUrl
  | emptyHeaderName
  | invalidExpectation
  | emptyVariableName
  | circularVariableReference
deriving Repr, DecidableEq

/-- Something in a document that is likely to be a mistake. -/
inductive Concern where
  | missingMethod
  | nonStandardMethod (method : String)
  | unconventionalMethod (method : String) (standard : Method)
  | headerNameWithBlank (name : String)
  | emptyHeaderValue (name : String)
  | contentLengthIgnored
  | emptyBody (method : String)
  | variableNameWithBlank (name : String)
deriving Repr, DecidableEq

/-- The kinds of concern. -/
inductive ConcernKind where
  | missingMethod
  | nonStandardMethod
  | unconventionalMethod
  | headerNameWithBlank
  | emptyHeaderValue
  | contentLengthIgnored
  | emptyBody
  | variableNameWithBlank
deriving Repr, DecidableEq

/-- The kind of a defect: all that can be wrong with an expectation is of one kind. -/
def Defect.kind : Defect → DefectKind
  | missingRequestName => .missingRequestName
  | invalidRequestName _ => .invalidRequestName
  | requestNameTooLong _ _ => .requestNameTooLong
  | duplicateRequestName _ _ => .duplicateRequestName
  | emptyUrl => .emptyUrl
  | emptyHeaderName => .emptyHeaderName
  | statusOutOfRange _ | badMaxTime _ | missingExpectationValue _ => .invalidExpectation
  | emptyVariableName => .emptyVariableName
  | circularVariable _ => .circularVariableReference

/-- The kind of a concern. -/
def Concern.kind : Concern → ConcernKind
  | missingMethod => .missingMethod
  | nonStandardMethod _ => .nonStandardMethod
  | unconventionalMethod _ _ => .unconventionalMethod
  | headerNameWithBlank _ => .headerNameWithBlank
  | emptyHeaderValue _ => .emptyHeaderValue
  | contentLengthIgnored => .contentLengthIgnored
  | emptyBody _ => .emptyBody
  | variableNameWithBlank _ => .variableNameWithBlank

/-- What a report says about a defect. -/
def Defect.message : Defect → String
  | missingRequestName => "Request has no name"
  | invalidRequestName name =>
    "Request name '" ++ name ++
      "' contains invalid characters (allowed: letters, digits, '_' and '-')"
  | requestNameTooLong name maximum =>
    "Request name '" ++ name ++ "' is " ++ toString name.toList.length ++
      " characters long (maximum " ++ toString maximum ++ ")"
  | duplicateRequestName name firstLine =>
    "Duplicate request name '" ++ name ++ "' (first defined at line " ++ toString firstLine ++ ")"
  | emptyUrl => "Request URL is empty"
  | emptyHeaderName => "Header name is empty"
  | statusOutOfRange value =>
    "Expected status '" ++ value ++ "' must be an integer between 100 and 599"
  | badMaxTime value =>
    "Max time '" ++ value ++ "' must be a positive number of milliseconds, e.g. '500ms'"
  | missingExpectationValue kind => "Expectation '" ++ kind.keyword ++ "' needs a value"
  | emptyVariableName => "File variable has an empty name"
  | circularVariable name => "File variable '" ++ name ++ "' has a circular reference"

/-- What a report says about a concern. -/
def Concern.message : Concern → String
  | missingMethod => "No HTTP method given, defaulting to GET"
  | nonStandardMethod method => "Non-standard HTTP method '" ++ method ++ "'"
  | unconventionalMethod method standard =>
    "HTTP method '" ++ method ++ "' should be written as '" ++ standard.name ++ "'"
  | headerNameWithBlank name => "Header name '" ++ name ++ "' contains whitespace"
  | emptyHeaderValue name => "Header '" ++ name ++ "' has an empty value"
  | contentLengthIgnored =>
    "Content-Length is computed from the body, the written value is ignored"
  | emptyBody method => method ++ " request has no body"
  | variableNameWithBlank name => "File variable name '" ++ name ++ "' contains whitespace"

/-- Something found at a line. -/
structure Finding (α : Type) where
  line : Nat
  cause : α
deriving Repr, DecidableEq

/-- What validation found in a document. -/
structure Report where
  errors : List (Finding Defect) := []
  warnings : List (Finding Concern) := []
deriving Repr, DecidableEq

namespace Report

/-- A document without errors is valid. -/
def isValid (r : Report) : Bool :=
  r.errors.isEmpty

/-- Whether there are warnings. -/
def hasWarnings (r : Report) : Bool :=
  !r.warnings.isEmpty

/-- The numbers of errors and warnings. -/
def summary (r : Report) : String :=
  toString r.errors.length ++ " error(s), " ++ toString r.warnings.length ++ " warning(s)"

/-- The errors of one kind. -/
def errorsOf (r : Report) (kind : DefectKind) : List (Finding Defect) :=
  r.errors.filter (·.cause.kind == kind)

/-- The warnings of one kind. -/
def warningsOf (r : Report) (kind : ConcernKind) : List (Finding Concern) :=
  r.warnings.filter (·.cause.kind == kind)

end Report

/-- An error as one line of text. -/
def Finding.errorText (f : Finding Defect) : String :=
  "error at line " ++ toString f.line ++ ": " ++ f.cause.message

/-- A warning as one line of text. -/
def Finding.warningText (f : Finding Concern) : String :=
  "warning at line " ++ toString f.line ++ ": " ++ f.cause.message

/-- What validation is strict about. -/
structure Rules where
  /-- The largest number of characters of a request name. -/
  maxNameLength : Nat := 50
  /-- Whether a request may lack a body where its method expects one. -/
  allowEmptyBodies : Bool := true
  /-- Whether variables are looked at for circular references. -/
  checkCycles : Bool := true
deriving Repr, DecidableEq

/-! ## Single rules -/

/-- An item if a condition holds. -/
def when {α : Type} (condition : Bool) (item : α) : List α :=
  if condition then [item] else []

/-- Whether a text is an integer from 100 to 599, perhaps with the sign `+`. -/
def isStatus (value : String) : Bool :=
  (Decimal.naturalUpTo? 599 value.toList).any (100 ≤ ·)

/-- Whether a text is a number of milliseconds from 1 to `2 ^ 64 - 1`. -/
def isMaxTime (value : String) : Bool :=
  let ds := value.toList.takeWhile Char.isDigit
  value.toList.dropWhile Char.isDigit == ['m', 's'] &&
    (Decimal.natural? ds).any fun n => 1 ≤ n && n ≤ Decimal.maxNat64

/-- What is wrong with an expectation. -/
def Expectation.defects (e : Expectation) : List Defect :=
  let value := trimmed e.value
  match e.kind with
  | .statusCode => when (!isStatus value) (.statusOutOfRange value)
  | .maxTime => when (!isMaxTime value) (.badMaxTime value)
  | .bodyPath | .schema | .header => when (value == "") (.missingExpectationValue e.kind)
  | .bodyContains => []

namespace Request

/-- What is wrong with the name of a request. Only a name that is there can be wrong in other ways.
-/
def nameDefects (rules : Rules) (r : Request) : List Defect :=
  if isBlankText r.name then [.missingRequestName]
  else
    when (!isNameText r.name) (.invalidRequestName r.name) ++
      when (decide (rules.maxNameLength < r.name.toList.length))
        (.requestNameTooLong r.name rules.maxNameLength)

/-- What is wrong with the URL of a request. -/
def urlDefects (r : Request) : List Defect :=
  when (isBlankText r.url) .emptyUrl

/-- What is doubtful about the method of a request. -/
def methodConcerns (r : Request) : List Concern :=
  let method := trimmed r.method
  if method == "" then [.missingMethod]
  else if (Method.ofName? method).isSome then []
  else match Method.ofAnyCase? method with
    | some standard => [.unconventionalMethod method standard]
    | none => [.nonStandardMethod method]

/-- The line at which a header is reported. -/
def reportLine (r : Request) (header : String) : Nat :=
  (r.headerLine? header).getD r.line

/-- What is wrong with the headers of a request. -/
def headerErrors (r : Request) : List (Finding Defect) :=
  r.headers.entries.flatMap fun (name, _) =>
    when (isBlankText name) { line := r.reportLine name, cause := .emptyHeaderName }

/-- What is doubtful about a header that has a name. -/
def headerConcerns (name value : String) : List Concern :=
  let bare := trimmed name
  when (name.toList.any Text.isBlank) (.headerNameWithBlank name) ++
    when ((Text.sameLetters bare "content-type" || Text.sameLetters bare "authorization") &&
        isBlankText value) (.emptyHeaderValue bare) ++
    when (Text.sameLetters bare "content-length") .contentLengthIgnored

/-- What is doubtful about the headers of a request. -/
def headerWarnings (r : Request) : List (Finding Concern) :=
  r.headers.entries.flatMap fun (name, value) =>
    if isBlankText name then []
    else (headerConcerns name value).map fun cause => { line := r.reportLine name, cause }

/-- What is doubtful about the body of a request. -/
def bodyConcerns (rules : Rules) (r : Request) : List Concern :=
  when (!rules.allowEmptyBodies && r.standardMethod?.any Method.expectsBody && !r.hasBody &&
      r.bodyFile.isNone) (.emptyBody r.effectiveMethod)

/-- The errors of a request: of its name, its URL, its headers and its expectations. -/
def errors (rules : Rules) (r : Request) : List (Finding Defect) :=
  let here := fun (cause : Defect) => ({ line := r.line, cause } : Finding Defect)
  (r.nameDefects rules).map here ++ r.urlDefects.map here ++ r.headerErrors ++
    (r.metadata.expectations.flatMap Expectation.defects).map here

/-- The warnings of a request: of its method, its headers and its body. -/
def warnings (rules : Rules) (r : Request) : List (Finding Concern) :=
  let here := fun (cause : Concern) => ({ line := r.line, cause } : Finding Concern)
  r.methodConcerns.map here ++ r.headerWarnings ++ (r.bodyConcerns rules).map here

end Request

/-! ## Whole documents -/

/-- The requests whose name an earlier request has as well, with the line of the first request of
that name. `earlier` holds the names seen so far with their lines. -/
def repeatedNames (earlier : List (String × Nat)) : List Request → List (Request × Nat)
  | [] => []
  | r :: rest =>
    if isBlankText r.name then repeatedNames earlier rest
    else match earlier.lookup r.name with
      | some line => (r, line) :: repeatedNames earlier rest
      | none => repeatedNames ((r.name, r.line) :: earlier) rest

namespace Document

/-- The repeated request names, each at the line of the later request. -/
def duplicateErrors (d : Document) : List (Finding Defect) :=
  (repeatedNames [] d.requests).map fun (r, firstLine) =>
    { line := r.line, cause := .duplicateRequestName r.name firstLine }

/-- The line at which a variable is reported. -/
def reportLine (d : Document) (variableName : String) : Nat :=
  (d.variableLine? variableName).getD 0

/-- What is wrong with the names of the variables. -/
def variableErrors (d : Document) : List (Finding Defect) :=
  d.fileVariables.keys.flatMap fun name =>
    when (isBlankText name) { line := d.reportLine name, cause := .emptyVariableName }

/-- What is doubtful about the names of the variables. -/
def variableWarnings (d : Document) : List (Finding Concern) :=
  d.fileVariables.keys.flatMap fun name =>
    when (!isBlankText name && name.toList.any Text.isBlank)
      { line := d.reportLine name, cause := .variableNameWithBlank name }

/-- The variables that reach themselves. -/
def cycleErrors (d : Document) : List (Finding Defect) :=
  d.fileVariables.circular.map fun name =>
    { line := d.reportLine name, cause := .circularVariable name }

/-- Checks a document against the rules of the format. -/
def validate (d : Document) (rules : Rules) : Report where
  errors :=
    d.requests.flatMap (Request.errors rules) ++ d.duplicateErrors ++ d.variableErrors ++
      (if rules.checkCycles then d.cycleErrors else [])
  warnings := d.requests.flatMap (Request.warnings rules) ++ d.variableWarnings

end Document

end RequestFile
