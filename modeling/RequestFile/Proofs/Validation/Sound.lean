import Mathlib
import RequestFile.Proofs.Decimal.Integer
import RequestFile.Proofs.Reference.Circular
import RequestFile.Proofs.Validation.RepeatedName
import RequestFile.Proofs.Validation.Report

/-!
# Sound documents

What the rules of the format ask of a document, said without the checks that look for errors: which
expectations can be checked, which requests are sound, and which documents. Validation finds no
error exactly in the sound documents.
-/

namespace RequestFile

/-! ## Expectations -/

/-- Whether a text is a status that a response can have: a numeral of a number from 100 to 599,
perhaps behind the sign `+`. -/
def IsStatusText (s : String) : Prop :=
  ∃ n, 100 ≤ n ∧ n ≤ 599 ∧
    (Decimal.Writes s.toList n ∨ ∃ cs, s.toList = '+' :: cs ∧ Decimal.Writes cs n)

/-- Whether a text is a number of milliseconds: a numeral of a positive number of at most 64 bits,
directly followed by `ms`. -/
def IsMaxTimeText (s : String) : Prop :=
  ∃ n cs, 1 ≤ n ∧ n ≤ 2 ^ 64 - 1 ∧ Decimal.Writes cs n ∧ s.toList = cs ++ ['m', 's']

theorem isStatus_iff {s : String} : isStatus s = true ↔ IsStatusText s := by
  rw [isStatus, Option.any_eq_true]
  simp only [Decimal.naturalUpTo?_eq_some_iff, decide_eq_true_eq, IsStatusText]
  exact exists_congr fun n => by tauto

theorem isMaxTime_iff {s : String} : isMaxTime s = true ↔ IsMaxTimeText s := by
  have largest : Decimal.maxNat64 = 2 ^ 64 - 1 := rfl
  simp only [isMaxTime, Bool.and_eq_true, beq_iff_eq, Option.any_eq_true, decide_eq_true_eq,
    Decimal.natural?_eq_some_iff, largest]
  constructor
  · rintro ⟨unit, n, writes, positive, bound⟩
    refine ⟨n, _, positive, bound, writes, ?_⟩
    rw [← unit, List.takeWhile_append_dropWhile]
  · rintro ⟨n, cs, positive, bound, writes, split⟩
    have digits := writes.isDigit_of_mem
    rw [split, List.takeWhile_append_of_pos digits, List.dropWhile_append_of_pos digits]
    refine ⟨rfl, n, ?_, positive, bound⟩
    have unit : ['m', 's'].takeWhile Char.isDigit = [] := rfl
    rw [unit, List.append_nil]
    exact writes

namespace Expectation

/-- Whether a response can be checked against an expectation. What a body is to contain may be
anything. -/
def IsCheckable (e : Expectation) : Prop :=
  match e.kind with
  | .statusCode => IsStatusText (trimmed e.value)
  | .maxTime => IsMaxTimeText (trimmed e.value)
  | .bodyPath | .schema | .header => isBlankText e.value = false
  | .bodyContains => True

theorem defects_eq_nil_iff {e : Expectation} : e.defects = [] ↔ e.IsCheckable := by
  obtain ⟨kind, value⟩ := e
  cases kind with
  | statusCode => simp [defects, IsCheckable, isStatus_iff]
  | maxTime => simp [defects, IsCheckable, isMaxTime_iff]
  | bodyContains => simp [defects, IsCheckable]
  | header => simp [defects, IsCheckable, trimmed_eq_empty_iff]
  | bodyPath => simp [defects, IsCheckable, trimmed_eq_empty_iff]
  | schema => simp [defects, IsCheckable, trimmed_eq_empty_iff]

end Expectation

/-! ## Requests -/

/-- What the rules ask of a single request. -/
structure Request.IsSound (rules : Rules) (r : Request) : Prop where
  name_filled : isBlankText r.name = false
  name_chars : isNameText r.name = true
  name_length : r.name.toList.length ≤ rules.maxNameLength
  url_filled : isBlankText r.url = false
  headers_filled : ∀ name ∈ r.headers.keys, isBlankText name = false
  checkable : ∀ e ∈ r.metadata.expectations, e.IsCheckable

/-- A request has no errors exactly if it is sound. -/
theorem Request.errors_eq_nil_iff {rules : Rules} {r : Request} :
    r.errors rules = [] ↔ r.IsSound rules := by
  simp only [errors, List.append_eq_nil_iff, List.map_eq_nil_iff, nameDefects_eq_nil_iff,
    urlDefects, headerErrors, List.flatMap_eq_nil_iff, when_eq_nil_iff,
    Expectation.defects_eq_nil_iff]
  constructor
  · rintro ⟨⟨⟨⟨filled, chars, length⟩, url⟩, headers⟩, checkable⟩
    exact ⟨filled, chars, length, url, by simpa [Table.keys] using headers, checkable⟩
  · rintro ⟨filled, chars, length, url, headers, checkable⟩
    exact ⟨⟨⟨⟨filled, chars, length⟩, url⟩, by simpa [Table.keys] using headers⟩, checkable⟩

/-! ## Documents -/

namespace Document

/-- What the rules ask of a document. -/
structure IsSound (rules : Rules) (d : Document) : Prop where
  requests : ∀ r ∈ d.requests, r.IsSound rules
  distinct : (d.requests.map (·.name)).Nodup
  variables_filled : ∀ name ∈ d.fileVariables.keys, isBlankText name = false
  acyclic : rules.checkCycles = true →
    ∀ k x, 1 ≤ k → d.fileVariables.IsWalk x k → x 0 ≠ x k

theorem duplicateErrors_eq_nil_iff {d : Document}
    (filled : ∀ r ∈ d.requests, isBlankText r.name = false) :
    d.duplicateErrors = [] ↔ (d.requests.map (·.name)).Nodup := by
  have all : filledNames d.requests = d.requests.map (·.name) := by
    rw [filledNames, List.filter_eq_self, List.forall_mem_map]
    intro r mem
    simp [filled r mem]
  rw [duplicateErrors, List.map_eq_nil_iff, repeatedNames_eq_nil_iff, all]

theorem variableErrors_eq_nil_iff {d : Document} :
    d.variableErrors = [] ↔ ∀ name ∈ d.fileVariables.keys, isBlankText name = false := by
  simp [variableErrors]

/-- No circular variable is reported exactly if no walk along references closes. -/
theorem cycleErrors_eq_nil_iff {d : Document} :
    d.cycleErrors = [] ↔ ∀ k x, 1 ≤ k → d.fileVariables.IsWalk x k → x 0 ≠ x k := by
  rw [cycleErrors, List.map_eq_nil_iff, Table.circular, List.filter_eq_nil_iff]
  simp only [Table.isCircular_iff]
  constructor
  · intro none k x pos walk closed
    exact none (x 0) (walk.mem_keys 0 (Nat.zero_le k)) (walk.cycle closed pos)
  · intro open' name mem cycle
    obtain ⟨k, x, pos, walk, start, stop⟩ := Table.exists_walk_of_path mem cycle
    exact open' k x pos walk (start.trans stop.symm)

/-- Validation finds no error exactly in the sound documents. -/
theorem errors_eq_nil_iff {d : Document} {rules : Rules} :
    (d.validate rules).errors = [] ↔ d.IsSound rules := by
  have cycles : (if rules.checkCycles then d.cycleErrors else []) = [] ↔
      (rules.checkCycles = true →
        ∀ k x, 1 ≤ k → d.fileVariables.IsWalk x k → x 0 ≠ x k) := by
    rw [← cycleErrors_eq_nil_iff]
    cases rules.checkCycles <;> simp
  simp only [validate, List.append_eq_nil_iff, List.flatMap_eq_nil_iff, Request.errors_eq_nil_iff,
    variableErrors_eq_nil_iff, cycles]
  constructor
  · rintro ⟨⟨⟨requests, duplicates⟩, names⟩, acyclic⟩
    have filled := fun r mem => (requests r mem).name_filled
    exact ⟨requests, (duplicateErrors_eq_nil_iff filled).1 duplicates, names, acyclic⟩
  · rintro ⟨requests, distinct, names, acyclic⟩
    have filled := fun r mem => (requests r mem).name_filled
    exact ⟨⟨⟨requests, (duplicateErrors_eq_nil_iff filled).2 distinct⟩, names⟩, acyclic⟩

end Document

/-! ## What makes no difference -/

/-- An expectation without a value that is not looked at. -/
def Expectation.bare (e : Expectation) : Expectation :=
  match e.kind with
  | .bodyContains => { e with value := "" }
  | _ => e

/-- A request without its method and without the values of its headers and of what its body is to
contain. -/
def Request.bare (r : Request) : Request :=
  { r with
    method := ""
    headers := r.headers.mapValues fun _ => ""
    metadata := { r.metadata with expectations := r.metadata.expectations.map Expectation.bare } }

/-- A document whose requests are bare. -/
def Document.bare (d : Document) : Document :=
  { d with requests := d.requests.map Request.bare }

theorem Expectation.defects_bare (e : Expectation) : e.bare.defects = e.defects := by
  obtain ⟨kind, value⟩ := e
  cases kind <;> rfl

theorem Request.errors_bare (rules : Rules) (allow : Bool) (r : Request) :
    r.bare.errors { rules with allowEmptyBodies := allow } = r.errors rules := by
  have headers : r.bare.headerErrors = r.headerErrors := by
    simp only [headerErrors, bare, Table.mapValues, List.flatMap_map]
    rfl
  have expectations : r.bare.metadata.expectations.flatMap Expectation.defects =
      r.metadata.expectations.flatMap Expectation.defects := by
    simp only [bare, List.flatMap_map, Expectation.defects_bare]
  rw [errors, errors, headers, expectations]
  rfl

theorem repeatedNames_map_bare (seen : List (String × Nat)) (rs : List Request) :
    repeatedNames seen (rs.map Request.bare) =
      (repeatedNames seen rs).map fun found => (found.1.bare, found.2) := by
  induction rs generalizing seen with
  | nil => rfl
  | cons r rest ih =>
    have name : r.bare.name = r.name := rfl
    have line : r.bare.line = r.line := rfl
    rw [List.map_cons, repeatedNames, repeatedNames, name, line]
    split
    · exact ih seen
    · cases seen.lookup r.name with
      | some first => rw [ih]; rfl
      | none => exact ih _

/-- Methods, values of headers and of what bodies are to contain, and whether bodies may be empty
make no difference to the errors. -/
theorem Document.errors_bare (d : Document) (rules : Rules) (allow : Bool) :
    (d.bare.validate { rules with allowEmptyBodies := allow }).errors =
      (d.validate rules).errors := by
  have requests : d.bare.requests.flatMap
      (Request.errors { rules with allowEmptyBodies := allow }) =
      d.requests.flatMap (Request.errors rules) := by
    simp only [bare, List.flatMap_map, Request.errors_bare]
  have duplicates : d.bare.duplicateErrors = d.duplicateErrors := by
    simp only [duplicateErrors, bare, repeatedNames_map_bare, List.map_map]
    rfl
  rw [validate, validate, requests, duplicates]
  rfl

/-- Validation finds no error exactly in the sound documents, and two documents whose requests
differ in nothing but methods, values of headers and values of what bodies are to contain have the
same errors, whether or not bodies may be empty. -/
theorem errors_decide_soundness (d : Document) (rules : Rules) :
    ((d.validate rules).errors = [] ↔ d.IsSound rules) ∧
      ∀ (d' : Document) (allow : Bool), d'.bare = d.bare →
        (d'.validate { rules with allowEmptyBodies := allow }).errors =
          (d.validate rules).errors := by
  refine ⟨Document.errors_eq_nil_iff, fun d' allow same => ?_⟩
  calc (d'.validate { rules with allowEmptyBodies := allow }).errors
      = (d'.bare.validate { rules with allowEmptyBodies := allow }).errors :=
        (Document.errors_bare d' { rules with allowEmptyBodies := allow } allow).symm
    _ = (d.bare.validate { rules with allowEmptyBodies := allow }).errors := by rw [same]
    _ = (d.validate rules).errors := Document.errors_bare d rules allow

end RequestFile
