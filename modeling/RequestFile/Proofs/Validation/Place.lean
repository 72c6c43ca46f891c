import Mathlib
import RequestFile.Assembly
import RequestFile.Proofs.Assembly.Duplicate
import RequestFile.Proofs.Assembly.Place
import RequestFile.Proofs.Token.Run

/-!
# Where findings point

A finding has a line and no reference to what it is about. Here the rules of validation are said
once more without lines: a remark has the request, the header or the variable that it is about
instead. In a parsed document the line of each finding is that of the last token that gives this
subject its value.
-/

namespace RequestFile

/-! ## Subjects -/

/-- What a finding can be about. Requests are counted from zero. -/
inductive Subject where
  | request (index : Nat)
  /-- A header of a request. -/
  | header (index : Nat) (name : String)
  | fileVariable (name : String)
deriving Repr, DecidableEq

/-- The sorts of subjects. -/
inductive Topic where
  | request
  | header
  | fileVariable
deriving Repr, DecidableEq

namespace Subject

def topic : Subject → Topic
  | request _ => .request
  | header .. => .header
  | fileVariable _ => .fileVariable

/-- Where tokens speak of a subject: at the request line of a request, at the last header of a name
among those of the request, and at the last declaration of a variable. -/
def line? (tokens : List Located) : Subject → Option Nat
  | request index => (blocks tokens)[index]?.map (·.line)
  | header index name => (blocks tokens)[index]?.bind (lastLine? Located.header? name ·.content)
  | fileVariable name => lastLine? Located.assignment? name tokens

/-- The line of a subject is the line of a token. -/
theorem exists_of_line? {tokens : List Located} {subject : Subject} {line : Nat}
    (placed : subject.line? tokens = some line) : ∃ t ∈ tokens, t.line = line := by
  cases subject with
  | request index =>
    obtain ⟨b, found, rfl⟩ := Option.map_eq_some_iff.1 placed
    exact (tokens_of_mem_blocks (List.mem_of_getElem? found)).1
  | header index name =>
    obtain ⟨b, found, last⟩ := Option.bind_eq_some_iff.1 placed
    obtain ⟨t, inside, same⟩ := mem_of_lastLine? _ _ last
    exact ⟨t, (tokens_of_mem_blocks (List.mem_of_getElem? found)).2 t inside, same⟩
  | fileVariable name => exact mem_of_lastLine? _ _ placed

end Subject

/-- What the defects of a kind are about. -/
def DefectKind.topic : DefectKind → Topic
  | missingRequestName | invalidRequestName | requestNameTooLong | duplicateRequestName | emptyUrl
  | invalidExpectation => .request
  | emptyHeaderName => .header
  | emptyVariableName | circularVariableReference => .fileVariable

/-- What the concerns of a kind are about. -/
def ConcernKind.topic : ConcernKind → Topic
  | missingMethod | nonStandardMethod | unconventionalMethod | emptyBody => .request
  | headerNameWithBlank | emptyHeaderValue | contentLengthIgnored => .header
  | variableNameWithBlank => .fileVariable

def Defect.topic (cause : Defect) : Topic :=
  cause.kind.topic

def Concern.topic (cause : Concern) : Topic :=
  cause.kind.topic

/-! ## Remarks -/

/-- Something found, with what it is about. -/
structure Remark (α : Type) where
  subject : Subject
  cause : α
deriving Repr, DecidableEq

/-- Whether a finding says what a remark says and stands where tokens speak of the subject, which is
of the sort that the cause asks for. -/
structure Finding.PointsAt {α : Type} (topic : α → Topic) (tokens : List Located) (f : Finding α)
    (x : Remark α) : Prop where
  cause : f.cause = x.cause
  topic : x.subject.topic = topic x.cause
  line : x.subject.line? tokens = some f.line

namespace Request

/-- The errors of a request at an index. -/
def errorRemarks (rules : Rules) (r : Request) (index : Nat) : List (Remark Defect) :=
  let here := fun (cause : Defect) => ({ subject := .request index, cause } : Remark Defect)
  (r.nameDefects rules).map here ++ r.urlDefects.map here ++
    (r.headers.entries.flatMap fun (name, _) =>
      when (isBlankText name) { subject := .header index name, cause := .emptyHeaderName }) ++
    (r.metadata.expectations.flatMap Expectation.defects).map here

/-- The warnings of a request at an index. -/
def warningRemarks (rules : Rules) (r : Request) (index : Nat) : List (Remark Concern) :=
  let here := fun (cause : Concern) => ({ subject := .request index, cause } : Remark Concern)
  r.methodConcerns.map here ++
    (r.headers.entries.flatMap fun (name, value) =>
      if isBlankText name then []
      else (headerConcerns name value).map fun cause =>
        { subject := .header index name, cause }) ++
    (r.bodyConcerns rules).map here

end Request

namespace Document

/-- The repeated request names, each about the later request. -/
def duplicateRemarks (d : Document) : List (Remark Defect) :=
  (d.requests.zipIdx.filter (isNamesake d.requests)).filterMap fun (r, index) =>
    (d.request? r.name).map fun first =>
      { subject := .request index, cause := .duplicateRequestName r.name first.line }

/-- The errors of a document, each with what it is about. -/
def errorRemarks (rules : Rules) (d : Document) : List (Remark Defect) :=
  (d.requests.zipIdx.flatMap fun (r, index) => r.errorRemarks rules index) ++ d.duplicateRemarks ++
    (d.fileVariables.keys.flatMap fun name =>
      when (isBlankText name) { subject := .fileVariable name, cause := .emptyVariableName }) ++
    (if rules.checkCycles then
      d.fileVariables.circular.map fun name =>
        { subject := .fileVariable name, cause := .circularVariable name }
    else [])

/-- The warnings of a document, each with what it is about. -/
def warningRemarks (rules : Rules) (d : Document) : List (Remark Concern) :=
  (d.requests.zipIdx.flatMap fun (r, index) => r.warningRemarks rules index) ++
    d.fileVariables.keys.flatMap fun name =>
      when (!isBlankText name && name.toList.any Text.isBlank)
        { subject := .fileVariable name, cause := .variableNameWithBlank name }

end Document

/-! ## Documents with places -/

/-- Whether a request at an index has the lines that tokens give it. -/
structure Request.IsPlaced (tokens : List Located) (index : Nat) (r : Request) : Prop where
  line : (Subject.request index).line? tokens = some r.line
  keys : r.headers.keys = r.headerLines.keys
  headerLine : ∀ name, (Subject.header index name).line? tokens = r.headerLine? name

/-- Whether a document has the lines that tokens give it. -/
structure Document.IsPlaced (tokens : List Located) (d : Document) : Prop where
  requests : ∀ index (r : Request), d.requests[index]? = some r → r.IsPlaced tokens index
  keys : d.fileVariables.keys = d.variableLines.keys
  variableLine : ∀ name, (Subject.fileVariable name).line? tokens = d.variableLine? name

/-- Documents get their lines in parsing. -/
theorem isPlaced_of_parseTokens {options : Options} {tokens : List Located} {d : Document}
    (parsed : parseTokens options tokens = .ok d) : d.IsPlaced tokens := by
  obtain ⟨values, lines⟩ := variables_of_parseTokens parsed
  refine ⟨fun index r found => ?_, ?_, fun name => ?_⟩
  · obtain ⟨b, block, same⟩ := exists_block_of_parseTokens parsed found
    refine ⟨?_, ?_, fun name => ?_⟩
    · rw [Subject.line?, block, same]
      rfl
    · rw [same]
      exact b.keys_headers_request options r.name
    · rw [Subject.line?, block, same, b.headerLine?_request]
      rfl
  · rw [values, lines]
    exact keys_ofList_lineGiven? Located.assignment? tokens
  · rw [Document.variableLine?, lines]
    exact (get?_ofList_lineGiven? Located.assignment? tokens name).symm

/-! ## Findings and remarks -/

section Lists

variable {α β γ : Type} {related : β → γ → Prop}

theorem forall₂_map_map {f : α → β} {g : α → γ} {l : List α}
    (each : ∀ x ∈ l, related (f x) (g x)) : List.Forall₂ related (l.map f) (l.map g) := by
  rw [List.forall₂_map_left_iff, List.forall₂_map_right_iff, List.forall₂_same]
  exact each

theorem forall₂_flatMap_flatMap {f : α → List β} {g : α → List γ} {l : List α}
    (each : ∀ x ∈ l, List.Forall₂ related (f x) (g x)) :
    List.Forall₂ related (l.flatMap f) (l.flatMap g) := by
  rw [List.flatMap, List.flatMap]
  exact List.rel_flatten (forall₂_map_map each)

theorem forall₂_flatMap_zipIdx {f : α → List β} {g : α × Nat → List γ} {l : List α}
    (each : ∀ entry ∈ l.zipIdx, List.Forall₂ related (f entry.1) (g entry)) :
    List.Forall₂ related (l.flatMap f) (l.zipIdx.flatMap g) := by
  have indexed : l.flatMap f = l.zipIdx.flatMap fun entry => f entry.1 := by
    rw [← List.flatMap_map Prod.fst f, List.zipIdx_map_fst]
  rw [indexed]
  exact forall₂_flatMap_flatMap each

theorem forall₂_when {condition : Bool} {x : β} {y : γ} (each : condition = true → related x y) :
    List.Forall₂ related (when condition x) (when condition y) := by
  cases condition with
  | false => exact .nil
  | true => exact .cons (each rfl) .nil

theorem forall₂_filterMap {δ : Type} {related' : β → δ → Prop} {f : γ → Option δ} {xs : List β}
    {ys : List γ} (all : List.Forall₂ related xs ys)
    (each : ∀ x, ∀ y ∈ ys, related x y → ∃ z, f y = some z ∧ related' x z) :
    List.Forall₂ related' xs (ys.filterMap f) := by
  induction all with
  | nil => exact .nil
  | cons first rest ih =>
    obtain ⟨z, made, pair⟩ := each _ _ List.mem_cons_self first
    rw [List.filterMap_cons_some made]
    exact .cons pair (ih fun x y mem => each x y (List.mem_cons_of_mem _ mem))

end Lists

namespace Request

theorem topic_of_mem_nameDefects {rules : Rules} {r : Request} {cause : Defect}
    (mem : cause ∈ r.nameDefects rules) : cause.topic = .request := by
  have kinds := kind_of_mem_nameDefects mem
  simp only [List.mem_cons, List.not_mem_nil, or_false] at kinds
  rcases kinds with kind | kind | kind <;> rw [Defect.topic, kind] <;> rfl

theorem topic_of_mem_methodConcerns {r : Request} {cause : Concern}
    (mem : cause ∈ r.methodConcerns) : cause.topic = .request := by
  simp only [methodConcerns] at mem
  split at mem
  · rw [List.mem_singleton.1 mem]
    rfl
  · split at mem
    · cases mem
    · split at mem
      · rw [List.mem_singleton.1 mem]
        rfl
      · rw [List.mem_singleton.1 mem]
        rfl

theorem topic_of_mem_headerConcerns {name value : String} {cause : Concern}
    (mem : cause ∈ headerConcerns name value) : cause.topic = .header := by
  simp only [headerConcerns, List.mem_append, mem_when] at mem
  rcases mem with (⟨-, rfl⟩ | ⟨-, rfl⟩) | ⟨-, rfl⟩ <;> rfl

end Request

namespace Request.IsPlaced

variable {tokens : List Located} {index : Nat} {r : Request}

/-- The line of a header is known, so that it is not the line of the request that is reported. -/
theorem line_header (placed : r.IsPlaced tokens index) {name : String}
    (mem : name ∈ r.headers.keys) :
    (Subject.header index name).line? tokens = some (r.reportLine name) := by
  rw [placed.keys, ← Table.isSome_get?] at mem
  obtain ⟨line, found⟩ := Option.isSome_iff_exists.1 mem
  rw [placed.headerLine, reportLine, headerLine?, found]
  rfl

theorem pointsAt_request (placed : r.IsPlaced tokens index) {α : Type} {topic : α → Topic}
    {cause : α} (sort : topic cause = .request) :
    Finding.PointsAt topic tokens { line := r.line, cause } { subject := .request index, cause } :=
  ⟨rfl, sort.symm, placed.line⟩

theorem pointsAt_header (placed : r.IsPlaced tokens index) {entry : String × String}
    (mem : entry ∈ r.headers.entries) {α : Type} {topic : α → Topic} {cause : α}
    (sort : topic cause = .header) :
    Finding.PointsAt topic tokens { line := r.reportLine entry.1, cause }
      { subject := .header index entry.1, cause } :=
  ⟨rfl, sort.symm, placed.line_header (List.mem_map_of_mem mem)⟩

/-- Each error of a request points at its subject. -/
theorem forall₂_errors (placed : r.IsPlaced tokens index) (rules : Rules) :
    List.Forall₂ (Finding.PointsAt Defect.topic tokens) (r.errors rules)
      (r.errorRemarks rules index) := by
  refine List.rel_append (List.rel_append (List.rel_append ?names ?urls) ?headers) ?expectations
  case names =>
    exact forall₂_map_map fun cause mem => placed.pointsAt_request (topic_of_mem_nameDefects mem)
  case urls =>
    refine forall₂_map_map fun cause mem => placed.pointsAt_request ?_
    rw [urlDefects, mem_when] at mem
    rw [mem.2]
    rfl
  case headers =>
    exact forall₂_flatMap_flatMap fun entry mem =>
      forall₂_when fun _ => placed.pointsAt_header mem rfl
  case expectations =>
    refine forall₂_map_map fun cause mem => placed.pointsAt_request ?_
    obtain ⟨e, -, mem⟩ := List.mem_flatMap.1 mem
    rw [Defect.topic, Expectation.kind_of_mem_defects mem]
    rfl

/-- Each warning of a request points at its subject. -/
theorem forall₂_warnings (placed : r.IsPlaced tokens index) (rules : Rules) :
    List.Forall₂ (Finding.PointsAt Concern.topic tokens) (r.warnings rules)
      (r.warningRemarks rules index) := by
  refine List.rel_append (List.rel_append ?methods ?headers) ?bodies
  case methods =>
    exact forall₂_map_map fun cause mem =>
      placed.pointsAt_request (topic_of_mem_methodConcerns mem)
  case headers =>
    refine forall₂_flatMap_flatMap fun entry mem => ?_
    dsimp only
    split
    · exact .nil
    · exact forall₂_map_map fun cause concern =>
        placed.pointsAt_header mem (topic_of_mem_headerConcerns concern)
  case bodies =>
    refine forall₂_map_map fun cause mem => placed.pointsAt_request ?_
    rw [bodyConcerns, mem_when] at mem
    rw [mem.2]
    rfl

end Request.IsPlaced

namespace Document.IsPlaced

variable {tokens : List Located} {d : Document}

theorem of_mem_zipIdx (placed : d.IsPlaced tokens) {entry : Request × Nat}
    (mem : entry ∈ d.requests.zipIdx) : entry.1.IsPlaced tokens entry.2 :=
  placed.requests entry.2 entry.1 (List.mem_zipIdx_iff_getElem?.1 mem)

/-- The line of a variable is known. -/
theorem pointsAt_variable (placed : d.IsPlaced tokens) {name : String}
    (mem : name ∈ d.fileVariables.keys) {α : Type} {topic : α → Topic} {cause : α}
    (sort : topic cause = .fileVariable) :
    Finding.PointsAt topic tokens { line := d.reportLine name, cause }
      { subject := .fileVariable name, cause } := by
  refine ⟨rfl, sort.symm, ?_⟩
  rw [placed.keys, ← Table.isSome_get?] at mem
  obtain ⟨line, found⟩ := Option.isSome_iff_exists.1 mem
  rw [placed.variableLine, reportLine, variableLine?, found]
  rfl

theorem forall₂_duplicateErrors (placed : d.IsPlaced tokens) :
    List.Forall₂ (Finding.PointsAt Defect.topic tokens) d.duplicateErrors d.duplicateRemarks := by
  have reports := RequestFile.forall₂_duplicateErrors d
  rw [namesakes, List.forall₂_map_right_iff] at reports
  refine forall₂_filterMap reports fun f entry mem report => ?_
  obtain ⟨line, first, found, cause⟩ := report
  have place := (placed.of_mem_zipIdx (List.mem_filter.1 mem).1).line
  rw [← line] at place
  exact ⟨_, Option.map_eq_some_iff.2 ⟨first, found, rfl⟩, cause, rfl, place⟩

/-- Each error points at its subject. -/
theorem forall₂_errors (placed : d.IsPlaced tokens) (rules : Rules) :
    List.Forall₂ (Finding.PointsAt Defect.topic tokens) (d.validate rules).errors
      (d.errorRemarks rules) := by
  refine List.rel_append (List.rel_append (List.rel_append ?requests ?duplicates) ?names) ?cycles
  case requests =>
    exact forall₂_flatMap_zipIdx fun entry mem => (placed.of_mem_zipIdx mem).forall₂_errors rules
  case duplicates => exact placed.forall₂_duplicateErrors
  case names =>
    exact forall₂_flatMap_flatMap fun name mem =>
      forall₂_when fun _ => placed.pointsAt_variable mem rfl
  case cycles =>
    split
    · exact forall₂_map_map fun name mem =>
        placed.pointsAt_variable (List.mem_filter.1 mem).1 rfl
    · exact .nil

/-- Each warning points at its subject. -/
theorem forall₂_warnings (placed : d.IsPlaced tokens) (rules : Rules) :
    List.Forall₂ (Finding.PointsAt Concern.topic tokens) (d.validate rules).warnings
      (d.warningRemarks rules) := by
  refine List.rel_append ?requests ?names
  case requests =>
    exact forall₂_flatMap_zipIdx fun entry mem => (placed.of_mem_zipIdx mem).forall₂_warnings rules
  case names =>
    exact forall₂_flatMap_flatMap fun name mem =>
      forall₂_when fun _ => placed.pointsAt_variable mem rfl

end Document.IsPlaced

/-- Findings that point at subjects stand at lines of tokens. -/
theorem exists_token_of_pointsAt {α : Type} {topic : α → Topic} {tokens : List Located}
    {findings : List (Finding α)} {remarks : List (Remark α)}
    (all : List.Forall₂ (Finding.PointsAt topic tokens) findings remarks) {f : Finding α}
    (mem : f ∈ findings) : ∃ t ∈ tokens, t.line = f.line := by
  induction all with
  | nil => cases mem
  | cons first rest ih =>
    rcases List.mem_cons.1 mem with rfl | mem
    · exact Subject.exists_of_line? first.line
    · exact ih mem

/-- Headers and variables of a parsed document have lines, so that every finding points at what it
is about: its line is the line where the tokens speak of its subject last, and it is in the file. -/
theorem findings_point_into_file {text : String} {options : Options} {d : Document}
    (parsed : parse text options = .ok d) :
    d.IsPlaced (scan text options.normalizeLineEndings) ∧
      (∀ r ∈ d.requests, ∀ name ∈ r.headers.keys, (r.headerLine? name).isSome = true) ∧
      (∀ name ∈ d.fileVariables.keys, (d.variableLine? name).isSome = true) ∧
      ∀ rules,
        List.Forall₂ (Finding.PointsAt Defect.topic (scan text options.normalizeLineEndings))
          (d.validate rules).errors (d.errorRemarks rules) ∧
        List.Forall₂ (Finding.PointsAt Concern.topic (scan text options.normalizeLineEndings))
          (d.validate rules).warnings (d.warningRemarks rules) ∧
        ∀ line ∈ (d.validate rules).errors.map (·.line) ++ (d.validate rules).warnings.map (·.line),
          1 ≤ line ∧ line ≤ (linesOf text options.normalizeLineEndings).length := by
  have placed : d.IsPlaced (scan text options.normalizeLineEndings) :=
    isPlaced_of_parseTokens parsed
  have bounds : ∀ t ∈ scan text options.normalizeLineEndings,
      1 ≤ t.line ∧ t.line ≤ (linesOf text options.normalizeLineEndings).length := by
    rw [scan_eq]
    exact fun t mem => line_of_mem_scanLines mem
  refine ⟨placed, fun r mem name header => ?_, fun name mem => ?_, fun rules => ?_⟩
  · obtain ⟨index, found⟩ := List.getElem?_of_mem mem
    rw [(placed.requests index r found).keys] at header
    exact Table.isSome_get?.2 header
  · rw [placed.keys] at mem
    exact Table.isSome_get?.2 mem
  · have errors := placed.forall₂_errors rules
    have warnings := placed.forall₂_warnings rules
    refine ⟨errors, warnings, fun line mem => ?_⟩
    rcases List.mem_append.1 mem with mem | mem
    · obtain ⟨f, found, rfl⟩ := List.mem_map.1 mem
      obtain ⟨t, token, same⟩ := exists_token_of_pointsAt errors found
      exact same ▸ bounds t token
    · obtain ⟨f, found, rfl⟩ := List.mem_map.1 mem
      obtain ⟨t, token, same⟩ := exists_token_of_pointsAt warnings found
      exact same ▸ bounds t token

/-- Two variables that refer to each other, of which one is declared again, and a request with a
header that is given again and one without a name. -/
def faultyText : String :=
  "@host = \x7b\x7bbase\x7d\x7d\n@base = x\n@base = \x7b\x7bhost\x7d\x7d\n# @expect status 700\n" ++
    "POST /a\nContent-Type: text\n: 1\nContent-Type:"

/-- The document of this text. -/
def faultyDocument : Document where
  requests :=
    [{ name := "request-1", method := "POST", url := "/a", line := 5
       headers := .ofList [("Content-Type", ""), ("", "1")]
       headerLines := .ofList [("Content-Type", 8), ("", 7)]
       metadata := { name := "request-1", expectations := [⟨.statusCode, "700"⟩] } }]
  fileVariables := .ofList [("host", "\x7b\x7bbase\x7d\x7d"), ("base", "\x7b\x7bhost\x7d\x7d")]
  variableLines := .ofList [("host", 1), ("base", 3)]

theorem findings_point_into_file_faultyText :
    parse faultyText = .ok faultyDocument ∧
      List.Forall₂ (Finding.PointsAt Defect.topic (scan faultyText))
        [⟨7, .emptyHeaderName⟩, ⟨5, .statusOutOfRange "700"⟩, ⟨1, .circularVariable "host"⟩,
          ⟨3, .circularVariable "base"⟩]
        [⟨.header 0 "", .emptyHeaderName⟩, ⟨.request 0, .statusOutOfRange "700"⟩,
          ⟨.fileVariable "host", .circularVariable "host"⟩,
          ⟨.fileVariable "base", .circularVariable "base"⟩] ∧
      List.Forall₂ (Finding.PointsAt Concern.topic (scan faultyText))
        [⟨8, .emptyHeaderValue "Content-Type"⟩, ⟨5, .emptyBody "POST"⟩]
        [⟨.header 0 "Content-Type", .emptyHeaderValue "Content-Type"⟩,
          ⟨.request 0, .emptyBody "POST"⟩] := by
  have parsed : parse faultyText = .ok faultyDocument := by decide +kernel
  have report : faultyDocument.validate { allowEmptyBodies := false } =
      { errors :=
          [⟨7, .emptyHeaderName⟩, ⟨5, .statusOutOfRange "700"⟩, ⟨1, .circularVariable "host"⟩,
            ⟨3, .circularVariable "base"⟩]
        warnings := [⟨8, .emptyHeaderValue "Content-Type"⟩, ⟨5, .emptyBody "POST"⟩] } := by
    decide +kernel
  have errors : faultyDocument.errorRemarks { allowEmptyBodies := false } =
      [⟨.header 0 "", .emptyHeaderName⟩, ⟨.request 0, .statusOutOfRange "700"⟩,
        ⟨.fileVariable "host", .circularVariable "host"⟩,
        ⟨.fileVariable "base", .circularVariable "base"⟩] := by decide +kernel
  have warnings : faultyDocument.warningRemarks { allowEmptyBodies := false } =
      [⟨.header 0 "Content-Type", .emptyHeaderValue "Content-Type"⟩,
        ⟨.request 0, .emptyBody "POST"⟩] := by decide +kernel
  have found := (findings_point_into_file parsed).2.2.2 { allowEmptyBodies := false }
  rw [report, errors, warnings] at found
  exact ⟨parsed, found.1, found.2.1⟩

end RequestFile
