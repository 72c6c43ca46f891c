import Mathlib
import RequestFile.Proofs.Written.Content
import RequestFile.Proofs.Written.Line

/-!
# Reading a written file

The tokens of a written file, line by line, and that these are what the scanner reads from its text.
-/

namespace RequestFile

/-! ## The tokens of a file -/

/-- What empty lines behind a request give. If the request has no content, the first one ends its
headers; all others count as lines of its body. -/
def spareTokens (started : Bool) : Nat → List (Option Token)
  | 0 => []
  | n + 1 =>
    (if started then some (.bodyLine "") else none) :: List.replicate n (some (.bodyLine ""))

namespace WrittenContent

/-- Whether the content has lines. -/
def started : WrittenContent → Bool
  | nothing => false
  | literal _ _ | file _ _ _ => true

def tokens : WrittenContent → List (Option Token)
  | nothing => []
  | literal texts _ => none :: texts.map fun text => some (.bodyLine text)
  | file directive _ _ => [none, some (.bodyFile directive)]

end WrittenContent

namespace WrittenRequest

/-- What the lines before the request line give. -/
def openingTokens (r : WrittenRequest) : List (Option Token) :=
  (if r.marked then [some (.separator none)] else []) ++ List.replicate r.gap none ++
    some (.directive "name" r.name) ::
      r.expectations.map fun e => some (.directive "expect" e.text)

/-- What the lines behind the headers give. -/
def bodyTokens (r : WrittenRequest) : List (Option Token) :=
  r.content.tokens ++ spareTokens r.content.started r.trailing

/-- What the lines behind the request line give. -/
def contentTokens (r : WrittenRequest) : List (Option Token) :=
  (r.headers.entries.map fun entry => some (.header entry.1 entry.2)) ++ r.bodyTokens

def tokens (r : WrittenRequest) : List (Option Token) :=
  r.openingTokens ++
    some (.requestLine r.method r.url (r.version.map WrittenVersion.text)) :: r.contentTokens

end WrittenRequest

/-- What the lines of a file give, one by one. -/
def WrittenFile.tokens (f : WrittenFile) : List (Option Token) :=
  (f.assignments.entries.map fun entry => some (.assignment entry.1 entry.2)) ++
    List.replicate f.gap none ++ f.requests.flatMap (·.tokens)

/-! ## Reading the lines -/

namespace Region

theorem reads_preamble_empty (n : Nat) :
    Reads preamble ((List.replicate n "").map String.toList) (List.replicate n none) preamble := by
  induction n with
  | zero => exact .nil preamble
  | succ n ih => exact .cons step_preamble_empty ih

/-- A request can follow any region if a separator stands before it. -/
theorem reads_opening (r : WrittenRequest) {region : Region}
    (start : r.marked = true ∨ region = preamble) :
    Reads region (r.opening.map String.toList) r.openingTokens preamble := by
  have mark : Reads region ((if r.marked then ["###"] else []).map String.toList)
      (if r.marked then [some (.separator none)] else []) preamble := by
    rcases start with marked | rfl
    · rw [if_pos marked, if_pos marked]
      exact .single (step_separator region)
    · split
      · exact .single (step_separator preamble)
      · exact .nil preamble
  have expectations : Reads preamble
      ((r.expectations.map WrittenExpectation.line).map String.toList)
      (r.expectations.map fun e => some (.directive "expect" e.text)) preamble := by
    rw [List.map_map]
    exact Reads.map fun e _ => step_expectationLine e
  have directives := Reads.cons (step_nameLine r.name_text) expectations
  rw [WrittenRequest.opening, WrittenRequest.openingTokens, List.map_append, List.map_append]
  exact (mark.append (reads_preamble_empty r.gap)).append directives

theorem exists_reads_content (c : WrittenContent) (trailing : Nat) (queryOpen : Bool) :
    ∃ next, Reads (headers queryOpen) ((c.lines ++ List.replicate trailing "").map String.toList)
      (c.tokens ++ spareTokens c.started trailing) next := by
  have spare : ∀ afterBlank depth, ∃ next, Reads (body afterBlank depth)
      ((List.replicate trailing "").map String.toList) (spareTokens true trailing) next := by
    intro afterBlank depth
    obtain ⟨afterBlank', depth', reads⟩ := exists_reads_body_empty trailing afterBlank depth
    refine ⟨body afterBlank' depth', ?_⟩
    cases trailing with
    | zero => exact reads
    | succ n => exact reads
  cases c with
  | nothing =>
    cases trailing with
    | zero => exact ⟨headers queryOpen, .nil _⟩
    | succ n =>
      obtain ⟨afterBlank, depth, reads⟩ := exists_reads_body_empty n true 0
      exact ⟨body afterBlank depth, .cons (step_headers_empty queryOpen) reads⟩
  | literal texts ok =>
    obtain ⟨afterBlank, depth, kept⟩ := exists_reads_texts texts true 0 ok.kept
    obtain ⟨next, later⟩ := spare afterBlank depth
    rw [List.map_append]
    exact ⟨next, (Reads.cons (step_headers_empty queryOpen) kept).append later⟩
  | file directive ok oneLine =>
    have line := step_fileDirective ok
    rw [← String.toList_ofList (l := directive.mark ++ ' ' :: directive.path.toList)] at line
    obtain ⟨next, later⟩ := spare false 0
    rw [List.map_append]
    exact ⟨next, (Reads.cons (step_headers_empty queryOpen) (.single line)).append later⟩

theorem exists_reads_request (r : WrittenRequest) {region : Region}
    (start : r.marked = true ∨ region = preamble) :
    ∃ next, Reads region (r.lines.map String.toList) r.tokens next := by
  obtain ⟨queryOpen, fields⟩ :=
    exists_reads_headers r.headers.entries r.header_names r.header_values true
  obtain ⟨next, content⟩ := exists_reads_content r.content r.trailing queryOpen
  have behind := fields.append content
  rw [← List.map_append, ← List.append_assoc, ← List.append_assoc] at behind
  refine ⟨next, ?_⟩
  have whole := (reads_opening r start).append (.cons (step_requestLine r) behind)
  rw [← List.map_cons, ← List.map_append] at whole
  rw [WrittenRequest.lines, List.append_assoc, List.append_assoc]
  simpa [WrittenRequest.tokens, WrittenRequest.contentTokens, WrittenRequest.bodyTokens] using whole

theorem exists_reads_requests (requests : List WrittenRequest) {region : Region}
    (start : (∀ r ∈ requests, r.marked = true) ∨ region = preamble ∧
      ∀ r ∈ requests.tail, r.marked = true) :
    ∃ next, Reads region ((requests.flatMap (·.lines)).map String.toList)
      (requests.flatMap (·.tokens)) next := by
  induction requests generalizing region with
  | nil => exact ⟨region, .nil region⟩
  | cons r rest ih =>
    have first : r.marked = true ∨ region = preamble := by
      rcases start with marked | ⟨here, -⟩
      · exact .inl (marked r List.mem_cons_self)
      · exact .inr here
    have marked : ∀ r ∈ rest, r.marked = true := by
      rcases start with marked | ⟨-, marked⟩
      · exact fun r mem => marked r (List.mem_cons_of_mem _ mem)
      · exact marked
    obtain ⟨mid, request⟩ := exists_reads_request r first
    obtain ⟨next, later⟩ := @ih mid (.inl marked)
    rw [List.flatMap_cons, List.flatMap_cons, List.map_append]
    exact ⟨next, request.append later⟩

theorem exists_reads_file (f : WrittenFile) :
    ∃ next, Reads preamble (f.lines.map String.toList) f.tokens next := by
  have assignments : Reads preamble ((f.assignments.entries.map variableLine).map String.toList)
      (f.assignments.entries.map fun entry => some (.assignment entry.1 entry.2)) preamble := by
    rw [List.map_map]
    exact Reads.map fun entry mem =>
      step_variableLine (f.variable_names entry mem) (f.variable_values entry mem)
  obtain ⟨next, requests⟩ := exists_reads_requests f.requests (.inr ⟨rfl, f.separated⟩)
  rw [WrittenFile.lines, List.map_append, List.map_append]
  exact ⟨next, (assignments.append (reads_preamble_empty f.gap)).append requests⟩

end Region

/-! ## The text as a whole -/

theorem isOneLine_of_mem_replicate {n : Nat} {s : String} (mem : s ∈ List.replicate n "") :
    isOneLine s = true := by
  rw [List.eq_of_mem_replicate mem]
  rfl

theorem isOneLine_of_keepsText {texts : List String} {afterBlank : Bool} {depth : Nat}
    (kept : keepsText afterBlank depth texts = true) : ∀ s ∈ texts, isOneLine s = true := by
  induction texts generalizing afterBlank depth with
  | nil => exact List.forall_mem_nil _
  | cons text rest ih =>
    simp only [keepsText, Bool.and_eq_true] at kept
    obtain ⟨⟨oneLine, -⟩, kept⟩ := kept
    rw [List.forall_mem_cons]
    refine ⟨oneLine, ?_⟩
    split at kept
    · exact ih kept
    · split at kept
      · exact ih kept
      · exact ih (Bool.and_eq_true_iff.1 kept).2

theorem WrittenContent.isOneLine_of_mem_lines {c : WrittenContent} {s : String}
    (mem : s ∈ c.lines) : isOneLine s = true := by
  cases c with
  | nothing => cases mem
  | literal texts ok =>
    rcases List.mem_cons.1 mem with rfl | inside
    · rfl
    · exact isOneLine_of_keepsText ok.kept s inside
  | file directive ok oneLine =>
    rcases List.mem_cons.1 mem with rfl | inside
    · rfl
    · have mark : isOneLine (String.ofList directive.mark) = true := by
        apply isOneLine_of_not_isBlank
        rw [String.toList_ofList]
        exact ok.not_isBlank_mark
      rw [List.mem_singleton.1 inside, String.ofList_append, isOneLine_append, mark]
      simpa [isOneLine] using oneLine

theorem WrittenRequest.isOneLine_of_mem_opening {r : WrittenRequest} {s : String}
    (mem : s ∈ r.opening) : isOneLine s = true := by
  rw [opening, List.mem_append, List.mem_append, List.mem_cons] at mem
  rcases mem with (mark | empty) | rfl | expectation
  · split at mark
    · rw [List.mem_singleton.1 mark]
      rfl
    · cases mark
  · exact isOneLine_of_mem_replicate empty
  · rw [isOneLine_append, isOneLine_of_not_isBlank (not_isBlank_of_isNameText r.name_text)]
    rfl
  · obtain ⟨e, -, rfl⟩ := List.mem_map.1 expectation
    have keyword := isOneLine_of_not_isBlank
      (ExpectationKind.not_isBlank_of_ofKeyword? e.keyword_kind)
    rw [WrittenExpectation.line, isOneLine_append, isOneLine_append, isOneLine_append, keyword,
      e.value_plain.2]
    rfl

theorem WrittenRequest.isOneLine_requestLine (r : WrittenRequest) :
    isOneLine r.requestLine = true := by
  have method : isOneLine r.method = true :=
    isOneLine_of_not_isBlank fun c mem =>
      Text.not_isBlank_of_isAlpha ((Token.isAlpha_of_isMethodWord r.method_word).2 c mem)
  have version : isOneLine (r.version.elim "" fun v => " " ++ v.text) = true := by
    cases r.version with
    | none => rfl
    | some v =>
      rw [Option.elim_some, isOneLine_append,
        isOneLine_of_not_isBlank v.not_isBlank_text]
      rfl
  rw [requestLine, isOneLine_append, isOneLine_append, isOneLine_append, method,
    isOneLine_of_not_isBlank r.url_word.2, version]
  rfl

theorem WrittenRequest.isOneLine_of_mem_lines {r : WrittenRequest} {s : String}
    (mem : s ∈ r.lines) : isOneLine s = true := by
  rw [lines, List.mem_append, List.mem_append, List.mem_append, List.mem_cons] at mem
  rcases mem with ((opening | rfl | header) | content) | empty
  · exact isOneLine_of_mem_opening opening
  · exact r.isOneLine_requestLine
  · obtain ⟨entry, inside, rfl⟩ := List.mem_map.1 header
    rw [headerLine, isOneLine_append, isOneLine_append,
      isOneLine_of_not_isBlank (r.header_names entry inside).1.2,
      (r.header_values entry inside).2]
    rfl
  · exact WrittenContent.isOneLine_of_mem_lines content
  · exact isOneLine_of_mem_replicate empty

theorem forall_head?_append {α : Type} {P : α → Prop} {xs ys : List α}
    (first : ∀ x ∈ xs.head?, P x) (second : ∀ y ∈ ys.head?, P y) : ∀ z ∈ (xs ++ ys).head?, P z := by
  cases xs with
  | nil => exact second
  | cons x xs => exact first

namespace WrittenFile

theorem isOneLine_of_mem_lines {f : WrittenFile} {s : String} (mem : s ∈ f.lines) :
    isOneLine s = true := by
  rw [lines, List.mem_append, List.mem_append] at mem
  rcases mem with (assignment | empty) | request
  · obtain ⟨entry, inside, rfl⟩ := List.mem_map.1 assignment
    rw [variableLine, isOneLine_append, isOneLine_append, isOneLine_append,
      (f.variable_names entry inside).1.2, (f.variable_values entry inside).2]
    rfl
  · exact isOneLine_of_mem_replicate empty
  · obtain ⟨r, -, inside⟩ := List.mem_flatMap.1 request
    exact WrittenRequest.isOneLine_of_mem_lines inside

/-- A file starts with a sign, unless its first line is empty. -/
theorem head?_lines (f : WrittenFile) :
    ∀ s ∈ f.lines.head?, ∀ c ∈ s.toList.head?, c = '@' ∨ c = '#' := by
  have blank : ∀ n, ∀ s ∈ (List.replicate n "").head?, ∀ c ∈ s.toList.head?, c = '@' ∨ c = '#' := by
    intro n s first c start
    rw [List.eq_of_mem_replicate (List.mem_of_mem_head? first)] at start
    cases start
  rw [lines]
  refine forall_head?_append (forall_head?_append ?_ (blank f.gap)) ?_
  · intro s first c start
    obtain ⟨entry, -, rfl⟩ := List.mem_map.1 (List.mem_of_mem_head? first)
    left
    simpa [variableLine] using start.symm
  · cases f.requests with
    | nil =>
      intro s first
      cases first
    | cons r rest =>
      rw [List.flatMap_cons, WrittenRequest.lines, WrittenRequest.opening]
      simp only [List.append_assoc, List.cons_append]
      refine forall_head?_append ?_ (forall_head?_append (blank r.gap) ?_)
      · intro s first c start
        right
        split at first
        · rw [List.head?_cons, Option.mem_some_iff] at first
          rw [← first] at start
          simpa using start.symm
        · cases first
      · intro s first c start
        right
        rw [List.head?_cons, Option.mem_some_iff] at first
        rw [← first] at start
        simpa using start.symm

/-- No file starts with a byte-order mark. -/
theorem head?_text (f : WrittenFile) : ∀ c ∈ f.text.toList.head?, c.toNat ≠ 0xFEFF := by
  intro c first
  cases texts : f.lines with
  | nil => simp [text, texts] at first
  | cons s rest =>
    rw [text, texts] at first
    rcases head?_intercalate first with inside | rfl
    · rcases f.head?_lines s (by rw [texts]; rfl) c inside with rfl | rfl <;> decide
    · decide

/-- The scanner reads the tokens of a file from its text. -/
theorem scan_text (f : WrittenFile) : scan f.text = numbered 1 f.tokens := by
  obtain ⟨next, reads⟩ := Region.exists_reads_file f
  exact scan_intercalate (fun s mem => isOneLine_of_mem_lines mem) f.head?_text reads

end WrittenFile

end RequestFile
