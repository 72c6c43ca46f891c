import Mathlib
import RequestFile.Proofs.Assembly.Duplicate
import RequestFile.Proofs.Assembly.Sequence
import RequestFile.Proofs.Validation.Sound

/-!
# The order of errors

Validation goes through a document in passes: the requests one after the other, then repeated names,
then variables. The first two passes report in the order of the file, but for one thing: in a
request a header without a name is reported in front of the expectations, which count for the
request line above it. All errors stand in order if that does not happen, if no pass finds something
above what an earlier pass has found, and if the variables are reported in order.
-/

namespace RequestFile

/-! ## Findings in order -/

section Findings

variable {α : Type} {findings others : List (Finding α)}

/-- Whether findings come in the order of their lines. -/
def InOrder (findings : List (Finding α)) : Prop :=
  findings.Pairwise fun f g => f.line ≤ g.line

instance : Decidable (InOrder findings) :=
  inferInstanceAs (Decidable (findings.Pairwise _))

/-- Whether no finding stands below one of the others. -/
def NoneBelow (findings others : List (Finding α)) : Prop :=
  ∀ f ∈ findings, ∀ g ∈ others, f.line ≤ g.line

theorem inOrder_append :
    InOrder (findings ++ others) ↔
      InOrder findings ∧ InOrder others ∧ NoneBelow findings others :=
  List.pairwise_append

/-- Findings at one line are in order. -/
theorem inOrder_of_line {line : Nat} (same : ∀ f ∈ findings, f.line = line) :
    InOrder findings := by
  induction findings with
  | nil => exact .nil
  | cons f rest ih =>
    rw [List.forall_mem_cons] at same
    refine List.pairwise_cons.2 ⟨fun g mem => ?_, ih same.2⟩
    rw [same.1, same.2 g mem]

theorem line_of_mem_map_mk {line : Nat} {causes : List α} {f : Finding α}
    (mem : f ∈ causes.map (Finding.mk line)) : f.line = line := by
  obtain ⟨cause, -, rfl⟩ := List.mem_map.1 mem
  rfl

/-- Of findings in order the first has the smallest line. -/
theorem InOrder.exists_head (ordered : InOrder findings) (filled : findings ≠ []) :
    ∃ first, findings.head? = some first ∧ ∀ f ∈ findings, first.line ≤ f.line := by
  cases findings with
  | nil => exact absurd rfl filled
  | cons first rest =>
    refine ⟨first, rfl, List.forall_mem_cons.2 ⟨le_refl _, ?_⟩⟩
    exact (List.pairwise_cons.1 ordered).1

end Findings

/-! ## Requests -/

namespace Request

variable {r : Request} {rules : Rules}

theorem headerErrors_eq_nil_iff :
    r.headerErrors = [] ↔ ∀ name ∈ r.headers.keys, isBlankText name = false := by
  simp [headerErrors, Table.keys]

theorem exists_of_mem_headerErrors {f : Finding Defect} (mem : f ∈ r.headerErrors) :
    ∃ name ∈ r.headers.keys, isBlankText name = true ∧ f.line = r.reportLine name := by
  obtain ⟨⟨name, value⟩, entry, reported⟩ := List.mem_flatMap.1 mem
  obtain ⟨blank, rfl⟩ := mem_when.1 reported
  exact ⟨name, List.mem_map_of_mem entry, blank, rfl⟩

/-- Errors of a request stand at its line or at the line of one of its headers. -/
theorem line_of_mem_errors {f : Finding Defect} (mem : f ∈ r.errors rules) :
    f.line = r.line ∨ ∃ name ∈ r.headers.keys, f.line = r.reportLine name := by
  simp only [errors, List.mem_append, List.mem_map] at mem
  rcases mem with ((⟨cause, -, rfl⟩ | ⟨cause, -, rfl⟩) | mem) | ⟨cause, -, rfl⟩
  · exact .inl rfl
  · exact .inl rfl
  · obtain ⟨name, header, -, line⟩ := exists_of_mem_headerErrors mem
    exact .inr ⟨name, header, line⟩
  · exact .inl rfl

/-- At most one header of a request has no name, if names have no blanks at the ends. -/
theorem inOrder_headerErrors (tight : ∀ name ∈ r.headers.keys, trimmed name = name) :
    InOrder r.headerErrors := by
  have line : ∀ f ∈ r.headerErrors, f.line = r.reportLine "" := by
    intro f mem
    obtain ⟨name, header, blank, line⟩ := exists_of_mem_headerErrors mem
    rw [line, ← tight name header, trimmed_eq_empty_iff.2 blank]
  exact inOrder_of_line line

theorem line_lt_of_mem_headerErrors
    (behind : ∀ name ∈ r.headers.keys, r.line < r.reportLine name) {f : Finding Defect}
    (mem : f ∈ r.headerErrors) : r.line < f.line := by
  obtain ⟨name, header, -, line⟩ := exists_of_mem_headerErrors mem
  exact line ▸ behind name header

/-- The errors of a request are in order unless both a header without a name and an expectation are
reported. -/
theorem inOrder_errors_iff (behind : ∀ name ∈ r.headers.keys, r.line < r.reportLine name)
    (tight : ∀ name ∈ r.headers.keys, trimmed name = name) :
    InOrder (r.errors rules) ↔
      (∀ name ∈ r.headers.keys, isBlankText name = false) ∨
        ∀ e ∈ r.metadata.expectations, e.IsCheckable := by
  have expected : r.metadata.expectations.flatMap Expectation.defects = [] ↔
      ∀ e ∈ r.metadata.expectations, e.IsCheckable := by
    simp only [List.flatMap_eq_nil_iff, Expectation.defects_eq_nil_iff]
  -- All but the headers is reported at the line of the request, which is above its headers.
  have front : ∀ f ∈ (r.nameDefects rules).map (Finding.mk r.line) ++
      r.urlDefects.map (Finding.mk r.line), f.line = r.line := by
    intro f mem
    exact (List.mem_append.1 mem).elim line_of_mem_map_mk line_of_mem_map_mk
  rw [← headerErrors_eq_nil_iff, ← expected, errors, inOrder_append, inOrder_append]
  constructor
  · rintro ⟨-, -, none⟩
    by_contra both
    rw [not_or] at both
    obtain ⟨f, reported⟩ := List.exists_mem_of_ne_nil _ both.1
    obtain ⟨cause, found⟩ := List.exists_mem_of_ne_nil _ both.2
    have le := none f (List.mem_append_right _ reported) ⟨r.line, cause⟩
      (List.mem_map_of_mem found)
    exact absurd (line_lt_of_mem_headerErrors behind reported) (not_lt.2 le)
  · intro either
    refine ⟨⟨inOrder_of_line front, inOrder_headerErrors tight, fun f mem g reported => ?_⟩,
      inOrder_of_line fun f mem => line_of_mem_map_mk mem, fun f mem g found => ?_⟩
    · rw [front f mem]
      exact (line_lt_of_mem_headerErrors behind reported).le
    · rw [line_of_mem_map_mk found]
      rcases List.mem_append.1 mem with mem | reported
      · exact (front f mem).le
      · rcases either with none | none
        · rw [none] at reported
          cases reported
        · rw [none] at found
          cases found

/-- What is wrong with a request is found in front of every request behind it. -/
theorem line_lt_of_mem_errors {s : Request} {f : Finding Defect} (line : r.line < s.line)
    (headers : ∀ name ∈ r.headers.keys, r.reportLine name < s.line) (mem : f ∈ r.errors rules) :
    f.line < s.line := by
  rcases line_of_mem_errors mem with same | ⟨name, header, same⟩
  · exact same ▸ line
  · exact same ▸ headers name header

theorem line_le_of_mem_errors (behind : ∀ name ∈ r.headers.keys, r.line < r.reportLine name)
    {f : Finding Defect} (mem : f ∈ r.errors rules) : r.line ≤ f.line := by
  rcases line_of_mem_errors mem with same | ⟨name, header, same⟩
  · exact same.ge
  · exact same ▸ (behind name header).le

end Request

/-! ## Documents -/

namespace Document

/-- The errors of the first pass. -/
def requestErrors (d : Document) (rules : Rules) : List (Finding Defect) :=
  d.requests.flatMap (Request.errors rules)

/-- The errors of the last pass, which goes through the variables twice. -/
def declarationErrors (d : Document) (rules : Rules) : List (Finding Defect) :=
  d.variableErrors ++ if rules.checkCycles then d.cycleErrors else []

theorem errors_validate (d : Document) (rules : Rules) :
    (d.validate rules).errors =
      d.requestErrors rules ++ d.duplicateErrors ++ d.declarationErrors rules :=
  List.append_assoc _ _ _

namespace IsOrderly

variable {d : Document}

/-- Of the errors of requests only those of one request can be out of order. -/
theorem inOrder_requestErrors_iff (orderly : d.IsOrderly) (rules : Rules) :
    InOrder (d.requestErrors rules) ↔
      ∀ r ∈ d.requests, (∀ name ∈ r.headers.keys, isBlankText name = false) ∨
        ∀ e ∈ r.metadata.expectations, e.IsCheckable := by
  have apart : d.requests.Pairwise fun r s =>
      ∀ f ∈ r.errors rules, ∀ g ∈ s.errors rules, f.line ≤ g.line := by
    refine orderly.apart.imp_of_mem fun {r s} _ mem ⟨line, headers⟩ f found g found' => ?_
    have before := Request.line_lt_of_mem_errors line headers found
    have behind := Request.line_le_of_mem_errors (orderly.behind s mem) found'
    omega
  rw [InOrder, requestErrors, List.pairwise_flatMap, and_iff_left apart]
  exact forall₂_congr fun r mem =>
    Request.inOrder_errors_iff (orderly.behind r mem) (orderly.tight r mem)

/-- Repeated names are reported in order. -/
theorem inOrder_duplicateErrors (orderly : d.IsOrderly) : InOrder d.duplicateErrors := by
  have namesakes : d.namesakes.Sublist d.requests := by
    have part := (List.filter_sublist (p := isNamesake d.requests) (l := d.requests.zipIdx)).map
      Prod.fst
    rwa [List.zipIdx_map_fst] at part
  have lines := List.Forall₂.flip (forall₂_duplicateErrors d)
  refine pairwise_of_forall₂ lines (orderly.apart.sublist namesakes) ?_
  rintro r s f g ⟨line, -⟩ ⟨line', -⟩ ⟨before, -⟩
  rw [line, line']
  exact before.le

end IsOrderly

end Document

/-- When parsing fails in strict mode, its errors are those of three passes. They come in the order
of the file exactly if no request has both a header without a name and an expectation that cannot be
checked, if no pass finds something above what an earlier one has found, and if the errors of
variables are in order themselves. If they come in order, the line of the whole error is the
smallest of all. -/
theorem errors_inOrder_iff {text : String} {options : Options} {errors : List (Finding Defect)}
    (failed : parse text options = .error (.invalid errors)) :
    ∃ d, draftDocument options (scan text options.normalizeLineEndings) = d ∧
      errors = d.requestErrors options.rules ++ d.duplicateErrors ++
        d.declarationErrors options.rules ∧
      (InOrder errors ↔
        (∀ r ∈ d.requests, (∀ name ∈ r.headers.keys, isBlankText name = false) ∨
          ∀ e ∈ r.metadata.expectations, e.IsCheckable) ∧
        NoneBelow (d.requestErrors options.rules) d.duplicateErrors ∧
        NoneBelow (d.requestErrors options.rules ++ d.duplicateErrors)
          (d.declarationErrors options.rules) ∧
        InOrder (d.declarationErrors options.rules)) ∧
      (InOrder errors → ∃ line, (ParseError.invalid errors).line? = some line ∧
        ∀ f ∈ errors, line ≤ f.line) := by
  obtain ⟨-, -, -, filled, same⟩ := parseTokens_eq_invalid_iff.1 failed
  have orderly := isOrderly_draftDocument options (linesOf text options.normalizeLineEndings)
  rw [← scan_eq] at orderly
  refine ⟨_, rfl, same.trans (Document.errors_validate _ _), ?_, fun ordered => ?_⟩
  · rw [same, Document.errors_validate, inOrder_append, inOrder_append,
      orderly.inOrder_requestErrors_iff, and_iff_right orderly.inOrder_duplicateErrors]
    tauto
  · obtain ⟨first, head, least⟩ := ordered.exists_head filled
    exact ⟨first.line, by rw [ParseError.line?, head]; rfl, least⟩

/-- Two requests, of which the first has an expectation that cannot be checked and the second a
header without a name. -/
def twoFaults : String :=
  "# @expect status 700\nGET /a\n\n###\nPOST /b\n: v"

theorem errors_inOrder_twoFaults :
    parse twoFaults { strictMode := true } =
        .error (.invalid [⟨2, .statusOutOfRange "700"⟩, ⟨6, .emptyHeaderName⟩]) ∧
      (∀ r ∈ (draftDocument { strictMode := true } (scan twoFaults)).requests,
        (∀ name ∈ r.headers.keys, isBlankText name = false) ∨
          ∀ e ∈ r.metadata.expectations, e.IsCheckable) ∧
      ∃ line, (ParseError.invalid
          [⟨2, .statusOutOfRange "700"⟩, ⟨6, .emptyHeaderName⟩]).line? = some line ∧ line ≤ 6 := by
  have failed : parse twoFaults { strictMode := true } =
      .error (.invalid [⟨2, .statusOutOfRange "700"⟩, ⟨6, .emptyHeaderName⟩]) := by decide +kernel
  obtain ⟨d, rfl, -, characterized, least⟩ := errors_inOrder_iff failed
  have ordered : InOrder
      [Finding.mk 2 (Defect.statusOutOfRange "700"), ⟨6, Defect.emptyHeaderName⟩] := by decide
  obtain ⟨line, reported, le⟩ := least ordered
  refine ⟨failed, (characterized.1 ordered).1, line, reported, ?_⟩
  exact le ⟨6, .emptyHeaderName⟩ (List.mem_cons_of_mem _ List.mem_cons_self)

/-- A variable that refers to itself, and a request with an expectation that cannot be checked and a
header without a name. -/
def reversedFaults : String :=
  "@a = \x7b\x7ba\x7d\x7d\n# @expect status 700\nGET https://x\n: v"

def reversedErrors : List (Finding Defect) :=
  [⟨4, .emptyHeaderName⟩, ⟨3, .statusOutOfRange "700"⟩, ⟨1, .circularVariable "a"⟩]

/-- Here the passes turn the order around, and the line of the whole error is the greatest of
all. -/
theorem errors_reversedFaults :
    parse reversedFaults { strictMode := true } = .error (.invalid reversedErrors) ∧
      ¬ InOrder reversedErrors ∧ (ParseError.invalid reversedErrors).line? = some 4 ∧
      ∃ f ∈ reversedErrors, f.line = 1 := by
  refine ⟨by decide +kernel, by decide, rfl, ?_⟩
  exact ⟨⟨1, .circularVariable "a"⟩, by decide, rfl⟩

end RequestFile
