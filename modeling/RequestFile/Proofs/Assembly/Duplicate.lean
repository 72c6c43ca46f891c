import Mathlib
import RequestFile.Proofs.Assembly.Check
import RequestFile.Proofs.Validation.RepeatedName

/-!
# Two checks of repeated names

Parsing stops at the first repeated name, and validation reports all of them. Outside strict mode
both find the same: parsing fails exactly where validation reports something, with its first report.
-/

namespace RequestFile

/-- A report about a request with the name of an earlier one: it stands at the line of the request
and names the line of the first request with that name. -/
def Finding.ReportsNamesake (f : Finding Defect) (d : Document) (r : Request) : Prop :=
  f.line = r.line ∧ ∃ first, d.request? r.name = some first ∧
    f.cause = .duplicateRequestName r.name first.line

/-- Validation reports the namesakes, one after the other. -/
theorem forall₂_duplicateErrors (d : Document) :
    List.Forall₂ (fun f r => f.ReportsNamesake d r) d.duplicateErrors d.namesakes := by
  rw [Document.duplicateErrors, List.forall₂_map_left_iff, Document.namesakes]
  refine (forall₂_repeatedNames remembers_nil d.requests).imp ?_
  rintro ⟨r, line⟩ s ⟨rfl, first, found, rfl⟩
  exact ⟨rfl, first, found, rfl⟩

theorem length_duplicateErrors (d : Document) :
    d.duplicateErrors.length + (filledNames d.requests).toFinset.card =
      (filledNames d.requests).length := by
  rw [Document.duplicateErrors, List.length_map, ← length_repeatedNames [] d.requests]
  simp

/-- Outside strict mode the check of names passes a document without repeated names, and otherwise
fails with the first that validation reports. -/
theorem checkNames_eq {options : Options} (asked : options.validateRequestNames = true)
    {d : Document} (names : ∀ r ∈ d.requests, isNameText r.name = true) :
    checkNames options d =
      match repeatedNames [] d.requests with
      | [] => .ok d
      | (r, firstLine) :: _ => .error (.duplicateRequestName r.name r.line firstLine) := by
  rw [checkNames, if_pos asked, firstRepeated?_eq_head? names]
  cases repeatedNames [] d.requests with
  | nil => rfl
  | cons found rest => rfl

/-- What parsing with checked names does can be read off what any validation reports about repeated
names in the document that parsing makes without the check. -/
theorem duplicate_checks_agree (options : Options) (tokens : List Located)
    (lenient : options.strictMode = false) (sound : options.problem? = none) :
    ∃ d, parseTokens { options with validateRequestNames := false } tokens = .ok d ∧
      ∀ rules found, (d.validate rules).errorsOf .duplicateRequestName = found →
        (found = [] →
          parseTokens { options with validateRequestNames := true } tokens = .ok d) ∧
        (∀ f ∈ found.head?, ∃ name firstLine,
          parseTokens { options with validateRequestNames := true } tokens =
            .error (.duplicateRequestName name f.line firstLine) ∧
          f.cause = .duplicateRequestName name firstLine ∧
          f.cause.message = "Duplicate request name '" ++ name ++ "' (first defined at line " ++
            toString firstLine ++ ")") ∧
        List.Forall₂ (fun f r => f.ReportsNamesake d r) found d.namesakes ∧
        found.length + (filledNames d.requests).toFinset.card =
          (filledNames d.requests).length := by
  -- Which names are checked makes no difference to the document, only to whether it passes.
  have document : ∀ b, draftDocument { options with validateRequestNames := b } tokens =
      draftDocument options tokens :=
    fun _ => draftDocument_congr rfl rfl fun _ _ => rfl
  generalize made : draftDocument options tokens = d at document
  have names : ∀ r ∈ d.requests, isNameText r.name = true := by
    rw [← made, requests_draftDocument]
    exact fun r mem => isNameText_of_mem_nameRequests lenient mem
  have asked : Options.problem? { options with validateRequestNames := true } = none := sound
  have checked : parseTokens { options with validateRequestNames := true } tokens =
      checkNames { options with validateRequestNames := true } d := by
    rw [parseTokens_of_lenient asked lenient, document]
  refine ⟨d, parseTokens_eq_ok_iff.2 ⟨sound, document false, by simp, by simp [lenient]⟩, ?_⟩
  rintro rules found rfl
  rw [Document.errorsOf_duplicateRequestName, checked, checkNames_eq rfl names]
  refine ⟨?_, ?_, forall₂_duplicateErrors d, length_duplicateErrors d⟩
  · intro none
    rw [Document.duplicateErrors, List.map_eq_nil_iff] at none
    rw [none]
  · intro f first
    rw [Document.duplicateErrors, List.head?_map, Option.mem_map] at first
    obtain ⟨⟨r, firstLine⟩, first, rfl⟩ := first
    obtain ⟨rest, repeated⟩ := List.head?_eq_some_iff.1 first
    rw [repeated]
    exact ⟨r.name, firstLine, rfl, rfl, rfl⟩

/-- Three requests whose names are written in two ways and become the same. -/
def threefoldTokens : List Located :=
  [⟨.separator (some "log in"), 1⟩, ⟨.requestLine "GET" "/a" none, 3⟩, ⟨.separator none, 4⟩,
    ⟨.directive "name" "log-in", 4⟩, ⟨.requestLine "GET" "/b" none, 5⟩,
    ⟨.separator (some " log  in! "), 7⟩, ⟨.requestLine "GET" "/c" none, 8⟩]

theorem duplicate_checks_agree_threefoldTokens :
    ∃ d, parseTokens { validateRequestNames := false } threefoldTokens = .ok d ∧
      (∀ rules, (d.validate rules).errorsOf .duplicateRequestName =
        [⟨5, .duplicateRequestName "log-in" 3⟩, ⟨8, .duplicateRequestName "log-in" 3⟩]) ∧
      parseTokens {} threefoldTokens = .error (.duplicateRequestName "log-in" 5 3) := by
  obtain ⟨d, parsed, agree⟩ := duplicate_checks_agree {} threefoldTokens rfl rfl
  have reports : ∀ rules, (d.validate rules).errorsOf .duplicateRequestName =
      [⟨5, .duplicateRequestName "log-in" 3⟩, ⟨8, .duplicateRequestName "log-in" 3⟩] := by
    intro rules
    rw [Document.errorsOf_duplicateRequestName, ← (parseTokens_eq_ok_iff.1 parsed).2.1]
    decide +kernel
  obtain ⟨name, firstLine, fails, states, -⟩ := (agree {} _ (reports {})).2.1 _ rfl
  cases states
  exact ⟨d, parsed, reports, fails⟩

end RequestFile
