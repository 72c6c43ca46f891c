import Mathlib
import RequestFile.Assembly
import RequestFile.Proofs.Assembly.Check

/-!
# Strict mode

Strict mode keeps names as they are written and takes only valid documents. It never changes what is
read: a document that it takes is also made without it. Where all names are written as names, it is
parsing without strict mode followed by validation.
-/

namespace RequestFile

variable {options : Options} {tokens : List Located}

/-- The name that a block uses, if it uses one, is written as a name. -/
def Block.WritesName (options : Options) (b : Block) : Prop :=
  isNameText (trimmed ((b.writtenName? options).getD "")) = true

/-- A text is invalid only for a reason. -/
theorem ne_nil_of_parseTokens_invalid {errors : List (Finding Defect)}
    (invalid : parseTokens options tokens = .error (.invalid errors)) : errors ≠ [] :=
  (parseTokens_eq_invalid_iff.1 invalid).2.2.2.1

/-- Whether names are kept or made into names does not matter where all of them are names. -/
theorem draftDocument_of_names (names : ∀ b ∈ blocks tokens, b.WritesName options) :
    draftDocument options tokens = draftDocument { options with strictMode := false } tokens := by
  refine draftDocument_congr rfl rfl fun b mem => ?_
  rw [settleName_of_isNameText (names b mem), settleName_of_isNameText (names b mem)]

/-- Strict mode takes a document only if all names are written as names. -/
theorem names_of_parseTokens_strict (strict : options.strictMode = true) {d : Document}
    (parsed : parseTokens options tokens = .ok d) :
    ∀ b ∈ blocks tokens, b.WritesName options := by
  obtain ⟨-, rfl, -, valid⟩ := parseTokens_eq_ok_iff.1 parsed
  intro b mem
  have settled : settleName options (b.draft options).writtenName =
      trimmed ((b.writtenName? options).getD "") := settleName_of_strict strict _
  rw [Block.WritesName]
  by_cases empty : trimmed ((b.writtenName? options).getD "") = ""
  · rw [empty]
    rfl
  · obtain ⟨r, inside, same⟩ := exists_mem_nameRequests options 0
      (List.mem_map_of_mem mem) (settled ▸ empty)
    rw [← requests_draftDocument] at inside
    rw [← settled, ← same]
    exact ((Document.names_of_valid (valid strict)).1 r inside).2.1

/-- Strict mode is validation after parsing, if all names are written as names. -/
theorem parseTokens_strict_of_names (strict : options.strictMode = true)
    (names : ∀ b ∈ blocks tokens, b.WritesName options) :
    parseTokens options tokens =
      match parseTokens { options with strictMode := false } tokens with
      | .error e => .error e
      | .ok d =>
        if (d.validate options.rules).errors = [] then .ok d
        else .error (.invalid (d.validate options.rules).errors) := by
  have problem : Options.problem? { options with strictMode := false } = options.problem? := rfl
  rw [parseTokens_eq, parseTokens_eq, draftDocument_of_names names, problem]
  cases options.problem? with
  | some problem => rfl
  | none =>
    change _ = match (checkNames options
      (draftDocument { options with strictMode := false } tokens)).bind
        (checkStrictly { options with strictMode := false }) with
      | Except.error e => Except.error e
      | Except.ok d => _
    cases checkNames options (draftDocument { options with strictMode := false } tokens) with
    | error e => rfl
    | ok d => exact checkStrictly_of_strict strict d

/-- Strict mode takes only what is taken without it, with the same document, and then the document
is valid; and it rejects as invalid only what has errors. If the names that are used are written as
names, it decides by the validity of what is made without it. -/
theorem strict_only_rejects (text : String) (options : Options)
    (strict : options.strictMode = true) :
    (∀ d, parse text options = .ok d →
      parse text { options with strictMode := false } = .ok d ∧
        (d.validate options.rules).errors = []) ∧
    (∀ errors, parse text options = .error (.invalid errors) → errors ≠ []) ∧
    ((∀ b ∈ blocks (scan text options.normalizeLineEndings), ∀ name ∈ b.writtenName? options,
        isNameText (trimmed name) = true) →
      parse text options =
        match parse text { options with strictMode := false } with
        | .error e => .error e
        | .ok d =>
          if (d.validate options.rules).errors = [] then .ok d
          else .error (.invalid (d.validate options.rules).errors)) := by
  refine ⟨?_, fun _ => ne_nil_of_parseTokens_invalid, ?_⟩
  · intro d parsed
    have names := names_of_parseTokens_strict strict parsed
    obtain ⟨sound, made, distinct, valid⟩ := parseTokens_eq_ok_iff.1 parsed
    refine ⟨parseTokens_eq_ok_iff.2 ⟨sound, ?_, distinct, by simp⟩, valid strict⟩
    rw [← draftDocument_of_names names, made]
  · intro names
    refine parseTokens_strict_of_names strict fun b mem => ?_
    rw [Block.WritesName]
    cases written : b.writtenName? options with
    | none => rfl
    | some name => exact names b mem name written

/-- Two requests whose names need no change, the second with an expectation. -/
def twoNamedRequests (expectation : String) : String :=
  "### first\nGET /a\n\n###\n# @name second\n# @expect " ++ expectation ++ "\nGET /b\n"

/-- The document of these, if the second expects success. -/
def twoNamedDocument : Document where
  requests :=
    [{ name := "first", method := "GET", url := "/a", metadata := { name := "first" }, line := 2 },
     { name := "second", method := "GET", url := "/b",
       metadata := { name := "second", expectations := [⟨.statusCode, "200"⟩] }, line := 7 }]

theorem strict_only_rejects_twoNamedRequests :
    (∃ d, parse (twoNamedRequests "status 200") { strictMode := true } = .ok d ∧
      parse (twoNamedRequests "status 200") = .ok d) ∧
    parse (twoNamedRequests "status 700") { strictMode := true } =
      .error (.invalid [⟨7, .statusOutOfRange "700"⟩]) := by
  constructor
  · obtain ⟨kept, -⟩ :=
      strict_only_rejects (twoNamedRequests "status 200") { strictMode := true } rfl
    have parsed : parse (twoNamedRequests "status 200") { strictMode := true } =
        .ok twoNamedDocument := by
      decide +kernel
    exact ⟨_, parsed, (kept _ parsed).1⟩
  · obtain ⟨-, -, decided⟩ :=
      strict_only_rejects (twoNamedRequests "status 700") { strictMode := true } rfl
    rw [decided (by decide +kernel)]
    decide +kernel

end RequestFile
