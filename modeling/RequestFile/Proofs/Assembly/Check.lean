import Mathlib
import RequestFile.Proofs.Assembly.Block
import RequestFile.Proofs.Name
import RequestFile.Proofs.Validation.Report

/-!
# Naming and checking

When all tokens are read, the requests get their names, and the document passes two checks: of
repeated names and of validity. Here is what each of these steps establishes, for all options.
-/

namespace RequestFile

/-! ## Names -/

@[simp]
theorem Request.name_rename (r : Request) (name : String) : (r.rename name).name = name :=
  rfl

theorem Request.metadata_name_rename (r : Request) (name : String) :
    (r.rename name).metadata.name = (r.rename name).name :=
  rfl

theorem settleName_of_isNameText {options : Options} {written : Option String}
    (ok : isNameText (trimmed (written.getD "")) = true) :
    settleName options written = trimmed (written.getD "") := by
  rw [settleName, ok, Bool.true_or, if_pos rfl]

/-- Outside strict mode, what is written is made into a name. -/
theorem isNameText_settleName {options : Options} (lenient : options.strictMode = false)
    (written : Option String) : isNameText (settleName options written) = true := by
  simp only [settleName, lenient, Bool.or_false]
  split
  · next ok => exact ok
  · exact isNameText_slug _

/-- In strict mode names stay as they are written. -/
theorem settleName_of_strict {options : Options} (strict : options.strictMode = true)
    (written : Option String) : settleName options written = trimmed (written.getD "") := by
  simp [settleName, strict]

/-- Every request has the name that is settled for its draft, or else a default name. -/
theorem exists_of_mem_nameRequests {options : Options} {unnamed : Nat} {drafts : List Draft}
    {r : Request} (mem : r ∈ nameRequests options unnamed drafts) :
    ∃ d ∈ drafts, ∃ name, r = d.toRequest.rename name ∧
      (name = "" → options.requireRequestNames = false) ∧
      (name = settleName options d.writtenName ∨ ∃ number, name = defaultName number) := by
  induction drafts generalizing unnamed with
  | nil => cases mem
  | cons d rest ih =>
    have later : ∀ {unnamed}, r ∈ nameRequests options unnamed rest → ∃ d' ∈ d :: rest, ∃ name,
        r = d'.toRequest.rename name ∧ (name = "" → options.requireRequestNames = false) ∧
        (name = settleName options d'.writtenName ∨ ∃ number, name = defaultName number) := by
      intro unnamed mem
      obtain ⟨d', mem, found⟩ := ih mem
      exact ⟨d', List.mem_cons_of_mem d mem, found⟩
    simp only [nameRequests] at mem
    split at mem
    · rcases List.mem_cons.1 mem with rfl | mem
      · refine ⟨d, List.mem_cons_self, defaultName (unnamed + 1), rfl, ?_, .inr ⟨_, rfl⟩⟩
        exact fun empty => absurd empty (defaultName_ne_empty _)
      · exact later mem
    · next settled =>
      rcases List.mem_cons.1 mem with rfl | mem
      · refine ⟨d, List.mem_cons_self, _, rfl, ?_, .inl rfl⟩
        intro empty
        simpa [empty] using settled
      · exact later mem

/-- Outside strict mode every request gets a name that is one. -/
theorem isNameText_of_mem_nameRequests {options : Options} (lenient : options.strictMode = false)
    {unnamed : Nat} {drafts : List Draft} {r : Request}
    (mem : r ∈ nameRequests options unnamed drafts) : isNameText r.name = true := by
  obtain ⟨d, -, name, rfl, -, settled | ⟨number, default⟩⟩ := exists_of_mem_nameRequests mem
  · rw [Request.name_rename, settled]
    exact isNameText_settleName lenient d.writtenName
  · rw [Request.name_rename, default]
    exact isNameText_defaultName number

/-- Naming depends on the options only through the names that are settled and on whether names are
required. -/
theorem nameRequests_congr {options other : Options}
    (required : options.requireRequestNames = other.requireRequestNames) {drafts : List Draft}
    (settled : ∀ d ∈ drafts, settleName options d.writtenName = settleName other d.writtenName)
    (unnamed : Nat) : nameRequests options unnamed drafts = nameRequests other unnamed drafts := by
  induction drafts generalizing unnamed with
  | nil => rfl
  | cons d rest ih =>
    rw [List.forall_mem_cons] at settled
    simp only [nameRequests, settled.1, required, ih settled.2]

/-- A name that is settled and not empty is the name of a request. -/
theorem exists_mem_nameRequests (options : Options) (unnamed : Nat) {drafts : List Draft}
    {d : Draft} (mem : d ∈ drafts) (filled : settleName options d.writtenName ≠ "") :
    ∃ r ∈ nameRequests options unnamed drafts, r.name = settleName options d.writtenName := by
  induction drafts generalizing unnamed with
  | nil => cases mem
  | cons first rest ih =>
    simp only [nameRequests]
    split
    · next empty =>
      rcases List.mem_cons.1 mem with rfl | mem
      · simp [filled] at empty
      · obtain ⟨r, mem, same⟩ := ih (unnamed + 1) mem
        exact ⟨r, List.mem_cons_of_mem _ mem, same⟩
    · rcases List.mem_cons.1 mem with rfl | mem
      · exact ⟨_, List.mem_cons_self, Request.name_rename _ _⟩
      · obtain ⟨r, mem, same⟩ := ih unnamed mem
        exact ⟨r, List.mem_cons_of_mem _ mem, same⟩

/-! ## Checks -/

theorem checkNames_eq_ok_iff {options : Options} {d d' : Document} :
    checkNames options d = .ok d' ↔
      d = d' ∧ (options.validateRequestNames = true → firstRepeated? [] d.requests = none) := by
  rw [checkNames]
  split
  · next asked =>
    cases firstRepeated? [] d.requests with
    | none => simp
    | some found => simp [asked]
  · next asked => simp [asked]

/-- The check of names fails only because of a repeated name. -/
theorem exists_of_checkNames_eq_error {options : Options} {d : Document} {e : ParseError}
    (fails : checkNames options d = .error e) :
    ∃ name line firstLine, e = .duplicateRequestName name line firstLine := by
  rw [checkNames] at fails
  split at fails
  · split at fails
    · cases fails
      exact ⟨_, _, _, rfl⟩
    · cases fails
  · cases fails

theorem checkStrictly_of_strict {options : Options} (strict : options.strictMode = true)
    (d : Document) :
    checkStrictly options d =
      if (d.validate options.rules).errors = [] then .ok d
      else .error (.invalid (d.validate options.rules).errors) := by
  rw [checkStrictly, if_pos strict]
  split
  · next none => rw [if_pos none]
  · next some => rw [if_neg some]

theorem checkStrictly_of_lenient {options : Options} (lenient : options.strictMode = false)
    (d : Document) : checkStrictly options d = .ok d := by
  simp [checkStrictly, lenient]

theorem checkStrictly_eq_ok_iff {options : Options} {d d' : Document} :
    checkStrictly options d = .ok d' ↔
      d = d' ∧ (options.strictMode = true → (d.validate options.rules).errors = []) := by
  cases strict : options.strictMode with
  | false => simp [checkStrictly_of_lenient strict]
  | true =>
    rw [checkStrictly_of_strict strict]
    split
    · next none => simp [none]
    · next some => simp [some]

theorem checkStrictly_eq_error_iff {options : Options} {d : Document} {e : ParseError} :
    checkStrictly options d = .error e ↔ options.strictMode = true ∧
      (d.validate options.rules).errors ≠ [] ∧ e = .invalid (d.validate options.rules).errors := by
  cases strict : options.strictMode with
  | false => simp [checkStrictly_of_lenient strict]
  | true =>
    rw [checkStrictly_of_strict strict]
    split
    · next none => simp [none]
    · next some => simp [some, eq_comm]

/-- The document that tokens make, before it is checked. -/
def draftDocument (options : Options) (tokens : List Located) : Document :=
  (Assembly.ofTokens options tokens).toDocument options

theorem requests_draftDocument (options : Options) (tokens : List Located) :
    (draftDocument options tokens).requests =
      nameRequests options 0 ((blocks tokens).map (·.draft options)) := by
  rw [draftDocument, Assembly.toDocument, finished_ofTokens]

/-- The document depends on the options through what is read of the tokens and through the names. -/
theorem draftDocument_congr {options other : Options} {tokens : List Located}
    (read : Assembly.ofTokens options tokens = Assembly.ofTokens other tokens)
    (required : options.requireRequestNames = other.requireRequestNames)
    (settled : ∀ b ∈ blocks tokens, settleName options (b.writtenName? options) =
      settleName other (b.writtenName? options)) :
    draftDocument options tokens = draftDocument other tokens := by
  have names : ∀ d ∈ (Assembly.ofTokens other tokens).finished,
      settleName options d.writtenName = settleName other d.writtenName := by
    rw [← read, finished_ofTokens]
    intro d mem
    obtain ⟨b, inside, rfl⟩ := List.mem_map.1 mem
    exact settled b inside
  rw [draftDocument, draftDocument, read, Assembly.toDocument, Assembly.toDocument,
    nameRequests_congr required names]

theorem parseTokens_eq (options : Options) (tokens : List Located) :
    parseTokens options tokens =
      match options.problem? with
      | some problem => .error (.badOptions problem)
      | none => (checkNames options (draftDocument options tokens)).bind (checkStrictly options) :=
  rfl

/-- With sound options, parsing fails only in the checks. -/
theorem parseTokens_of_sound {options : Options} (sound : options.problem? = none)
    (tokens : List Located) :
    parseTokens options tokens =
      (checkNames options (draftDocument options tokens)).bind (checkStrictly options) := by
  rw [parseTokens_eq, sound]

/-- Outside strict mode only the names are checked. -/
theorem parseTokens_of_lenient {options : Options} (sound : options.problem? = none)
    (lenient : options.strictMode = false) (tokens : List Located) :
    parseTokens options tokens = checkNames options (draftDocument options tokens) := by
  rw [parseTokens_of_sound sound]
  cases checkNames options (draftDocument options tokens) with
  | error e => rfl
  | ok d => exact checkStrictly_of_lenient lenient d

/-- Tokens make a document exactly when the options are sound, and the document of the tokens passes
the checks that are asked for. -/
theorem parseTokens_eq_ok_iff {options : Options} {tokens : List Located} {d : Document} :
    parseTokens options tokens = .ok d ↔
      options.problem? = none ∧ draftDocument options tokens = d ∧
      (options.validateRequestNames = true → firstRepeated? [] d.requests = none) ∧
      (options.strictMode = true → (d.validate options.rules).errors = []) := by
  rw [parseTokens_eq]
  cases options.problem? with
  | some problem => simp
  | none =>
    simp only [true_and]
    constructor
    · intro parsed
      cases named : checkNames options (draftDocument options tokens) with
      | error e =>
        rw [named] at parsed
        cases parsed
      | ok d' =>
        rw [named] at parsed
        obtain ⟨rfl, valid⟩ := checkStrictly_eq_ok_iff.1 parsed
        obtain ⟨same, distinct⟩ := checkNames_eq_ok_iff.1 named
        exact ⟨same, same ▸ distinct, valid⟩
    · rintro ⟨rfl, distinct, valid⟩
      rw [checkNames_eq_ok_iff.2 ⟨rfl, distinct⟩]
      exact checkStrictly_eq_ok_iff.2 ⟨rfl, valid⟩

/-- Parsing reports errors exactly when the options are sound and strict, the names pass, and
validation finds these errors in the document of the tokens. -/
theorem parseTokens_eq_invalid_iff {options : Options} {tokens : List Located}
    {errors : List (Finding Defect)} :
    parseTokens options tokens = .error (.invalid errors) ↔
      options.problem? = none ∧ options.strictMode = true ∧
      checkNames options (draftDocument options tokens) = .ok (draftDocument options tokens) ∧
      errors ≠ [] ∧ errors = ((draftDocument options tokens).validate options.rules).errors := by
  rw [parseTokens_eq]
  cases options.problem? with
  | some problem => simp
  | none =>
    cases named : checkNames options (draftDocument options tokens) with
    | error e =>
      obtain ⟨name, line, firstLine, rfl⟩ := exists_of_checkNames_eq_error named
      simp [Except.bind]
    | ok d =>
      obtain ⟨rfl, -⟩ := checkNames_eq_ok_iff.1 named
      show checkStrictly options (draftDocument options tokens) = _ ↔ _
      rw [checkStrictly_eq_error_iff, ParseError.invalid.injEq]
      constructor
      · rintro ⟨strict, some, rfl⟩
        exact ⟨rfl, strict, rfl, some, rfl⟩
      · rintro ⟨-, strict, -, some, rfl⟩
        exact ⟨strict, some, rfl⟩

end RequestFile
