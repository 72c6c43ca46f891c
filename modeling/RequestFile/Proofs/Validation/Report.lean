import Mathlib
import RequestFile.Validation

/-!
# What a report holds

`Document.validate` puts the errors of all rules into one list. Here the errors of a kind are traced
back to the rule that reports them, and a document without errors is said to satisfy each rule.
-/

namespace RequestFile

@[simp]
theorem mem_when {α : Type} {condition : Bool} {item x : α} :
    x ∈ when condition item ↔ condition = true ∧ x = item := by
  cases condition <;> simp [when]

@[simp]
theorem when_eq_nil_iff {α : Type} {condition : Bool} {item : α} :
    when condition item = [] ↔ condition = false := by
  cases condition <;> simp [when]

/-! ## Kinds -/

theorem Expectation.kind_of_mem_defects {e : Expectation} {cause : Defect}
    (mem : cause ∈ e.defects) : cause.kind = .invalidExpectation := by
  obtain ⟨kind, value⟩ := e
  cases kind <;> simp [Expectation.defects] at mem <;> obtain ⟨-, rfl⟩ := mem <;> rfl

namespace Request

theorem kind_of_mem_nameDefects {rules : Rules} {r : Request} {cause : Defect}
    (mem : cause ∈ r.nameDefects rules) :
    cause.kind ∈ [.missingRequestName, .invalidRequestName, .requestNameTooLong] := by
  rw [nameDefects] at mem
  split at mem
  · rw [List.mem_singleton.1 mem]
    decide
  · rw [List.mem_append, mem_when, mem_when] at mem
    rcases mem with ⟨-, rfl⟩ | ⟨-, rfl⟩
    · simp [Defect.kind]
    · simp [Defect.kind]

/-- No rule about single requests reports a repeated name. -/
theorem kind_ne_of_mem_errors {rules : Rules} {r : Request} {f : Finding Defect}
    (mem : f ∈ r.errors rules) : f.cause.kind ≠ .duplicateRequestName := by
  simp only [errors, List.mem_append, List.mem_map, urlDefects, mem_when, headerErrors,
    List.mem_flatMap] at mem
  rcases mem with ((⟨cause, named, rfl⟩ | ⟨cause, ⟨-, rfl⟩, rfl⟩) | ⟨entry, -, -, rfl⟩) |
    ⟨cause, ⟨e, -, expected⟩, rfl⟩
  · have kinds := kind_of_mem_nameDefects named
    intro same
    simp [same] at kinds
  · simp [Defect.kind]
  · simp [Defect.kind]
  · simp [Expectation.kind_of_mem_defects expected]

end Request

namespace Document

theorem errorsOf_duplicateRequestName (d : Document) (rules : Rules) :
    (d.validate rules).errorsOf .duplicateRequestName = d.duplicateErrors := by
  have requests : (d.requests.flatMap (Request.errors rules)).filter
      (·.cause.kind == .duplicateRequestName) = [] := by
    rw [List.filter_eq_nil_iff]
    intro f mem
    obtain ⟨r, -, mem⟩ := List.mem_flatMap.1 mem
    simpa using Request.kind_ne_of_mem_errors mem
  have duplicates : d.duplicateErrors.filter (·.cause.kind == .duplicateRequestName) =
      d.duplicateErrors := by
    rw [List.filter_eq_self]
    intro f mem
    obtain ⟨found, -, rfl⟩ := List.mem_map.1 mem
    rfl
  have variableNames : d.variableErrors.filter (·.cause.kind == .duplicateRequestName) = [] := by
    rw [List.filter_eq_nil_iff]
    intro f mem
    simp only [variableErrors, List.mem_flatMap, mem_when] at mem
    obtain ⟨name, -, -, rfl⟩ := mem
    simp [Defect.kind]
  have cycles : (if rules.checkCycles then d.cycleErrors else []).filter
      (·.cause.kind == .duplicateRequestName) = [] := by
    rw [List.filter_eq_nil_iff]
    intro f mem
    split at mem
    · obtain ⟨name, -, rfl⟩ := List.mem_map.1 mem
      simp [Defect.kind]
    · cases mem
  rw [Report.errorsOf, validate, List.filter_append, List.filter_append, List.filter_append,
    requests, duplicates, variableNames, cycles, List.nil_append, List.append_nil, List.append_nil]

end Document

/-! ## Documents without errors -/

theorem Request.nameDefects_eq_nil_iff {rules : Rules} {r : Request} :
    r.nameDefects rules = [] ↔ isBlankText r.name = false ∧ isNameText r.name = true ∧
      r.name.toList.length ≤ rules.maxNameLength := by
  rw [nameDefects]
  split
  · next blank => simp [blank]
  · next filled => simp [filled]

/-- In a document without errors every request has a name that is right, and no name is repeated. -/
theorem Document.names_of_valid {d : Document} {rules : Rules}
    (valid : (d.validate rules).errors = []) :
    (∀ r ∈ d.requests, isBlankText r.name = false ∧ isNameText r.name = true ∧
      r.name.toList.length ≤ rules.maxNameLength) ∧ repeatedNames [] d.requests = [] := by
  simp only [validate, List.append_eq_nil_iff, List.flatMap_eq_nil_iff] at valid
  obtain ⟨⟨⟨requests, duplicates⟩, -⟩, -⟩ := valid
  constructor
  · intro r mem
    have none := requests r mem
    simp only [Request.errors, List.append_eq_nil_iff, List.map_eq_nil_iff] at none
    exact Request.nameDefects_eq_nil_iff.1 none.1.1.1
  · exact List.map_eq_nil_iff.1 duplicates

end RequestFile
