import Mathlib
import RequestFile.Assembly
import RequestFile.Proofs.Assembly.Check
import RequestFile.Proofs.ResponseReference
import RequestFile.Proofs.Validation.RepeatedName

/-!
# The names of the requests of a document

Whatever is written in a file, the requests that parsing returns have names that placeholders can
refer to. Which names are also filled, short enough and distinct depends on the options.
-/

namespace RequestFile

/-! ## Default names -/

/-- Whether the file gives the request of a block no name: none is written, or only blanks, or,
outside strict mode, only characters that cannot stand in a name. -/
def Block.isUnnamed (options : Options) (b : Block) : Bool :=
  let written := (b.writtenName? options).getD ""
  isBlankText written || (!options.strictMode && slug (trimmed written) == "")

/-- The requests to whose blocks the file gives no name, in order. -/
def unnamedRequests (options : Options) (bs : List Block) (requests : List Request) :
    List Request :=
  ((bs.zip requests).filter (·.1.isUnnamed options)).map Prod.snd

theorem settleName_draft_eq_empty (options : Options) (b : Block) :
    (settleName options (b.draft options).writtenName == "") = b.isUnnamed options := by
  change (settleName options (b.writtenName? options) == "") = _
  rw [settleName, Block.isUnnamed, Bool.eq_iff_iff]
  simp only [beq_iff_eq, Bool.or_eq_true, Bool.and_eq_true, Bool.not_eq_true',
    ← trimmed_eq_empty_iff]
  generalize trimmed ((b.writtenName? options).getD "") = written
  cases ok : isNameText written with
  | true => simp [slug_of_isNameText ok]
  | false =>
    have filled : written ≠ "" := by
      rintro rfl
      cases ok
    cases options.strictMode <;> simp [filled]

/-- There is one request for each block, and it is what the block says under some name. -/
theorem forall₂_nameRequests (options : Options) (unnamed : Nat) (bs : List Block) :
    List.Forall₂ (fun b r => r = b.request options r.name) bs
      (nameRequests options unnamed (bs.map (·.draft options))) := by
  induction bs generalizing unnamed with
  | nil => exact .nil
  | cons b rest ih =>
    rw [List.map_cons, nameRequests]
    split
    · refine .cons ?_ (ih _)
      rw [Block.rename_toRequest_draft, Block.name_request]
    · refine .cons ?_ (ih _)
      rw [Block.rename_toRequest_draft, Block.name_request]

/-- Where names are required, the requests without a name are numbered. -/
theorem names_unnamedRequests {options : Options} (required : options.requireRequestNames = true)
    (unnamed : Nat) (bs : List Block) :
    (unnamedRequests options bs (nameRequests options unnamed (bs.map (·.draft options)))).map
        (·.name) =
      (List.range' (unnamed + 1) (bs.countP (·.isUnnamed options))).map defaultName := by
  induction bs generalizing unnamed with
  | nil => rfl
  | cons b rest ih =>
    rw [List.map_cons, nameRequests, settleName_draft_eq_empty, required, Bool.and_true]
    cases none : b.isUnnamed options with
    | true =>
      rw [if_pos rfl, List.countP_cons_of_pos none, List.range'_succ, List.map_cons, ← ih]
      simp [unnamedRequests, none]
    | false =>
      rw [if_neg Bool.false_ne_true, List.countP_cons_of_neg (by simp [none]), ← ih]
      simp [unnamedRequests, none]

/-! ## Distinct names -/

/-- Where no name is found again, the names that are filled are distinct. -/
theorem pairwise_name_ne {rs : List Request} (names : ∀ r ∈ rs, isNameText r.name = true)
    (distinct : repeatedNames [] rs = []) :
    rs.Pairwise fun r s => r.name ≠ "" → r.name ≠ s.name := by
  have nodup := repeatedNames_eq_nil_iff.1 distinct
  rw [filledNames, List.Nodup, List.pairwise_filter, List.pairwise_map] at nodup
  refine nodup.imp_of_mem fun {r s} memr mems different filled same => ?_
  have solid : (!isBlankText r.name) = true := by
    simp [isBlankText_of_isNameText (names r memr), filled]
  exact different solid (same ▸ solid) same

/-- A request is found by its name if no other request has it. -/
theorem Document.request?_of_mem {d : Document} {r : Request} (mem : r ∈ d.requests)
    (distinct : d.requests.Pairwise fun r s => r.name ≠ "" → r.name ≠ s.name)
    (filled : r.name ≠ "") : d.request? r.name = some r := by
  obtain ⟨before, after, split⟩ := List.append_of_mem mem
  rw [split, List.pairwise_append] at distinct
  have none : before.find? (·.name == r.name) = none := by
    rw [List.find?_eq_none]
    intro s inside
    have different := distinct.2.2 s inside r List.mem_cons_self
    by_cases named : s.name = ""
    · simpa [named] using filled.symm
    · simpa using different named
  rw [Document.request?, split, List.find?_append, none, Option.none_or, List.find?_cons_of_pos]
  exact beq_self_eq_true _

/-! ## Parsed documents -/

section Parsed

variable {options : Options} {tokens : List Located} {d : Document}

theorem isNameText_of_parseTokens (parsed : parseTokens options tokens = .ok d) :
    ∀ r ∈ d.requests, isNameText r.name = true := by
  obtain ⟨-, rfl, -, valid⟩ := parseTokens_eq_ok_iff.1 parsed
  intro r mem
  cases strict : options.strictMode with
  | true => exact ((Document.names_of_valid (valid strict)).1 r mem).2.1
  | false =>
    rw [requests_draftDocument] at mem
    exact isNameText_of_mem_nameRequests strict mem

theorem metadata_name_of_parseTokens (parsed : parseTokens options tokens = .ok d) :
    ∀ r ∈ d.requests, r.metadata.name = r.name := by
  obtain ⟨-, rfl, -, -⟩ := parseTokens_eq_ok_iff.1 parsed
  intro r mem
  rw [requests_draftDocument] at mem
  obtain ⟨draft, -, name, rfl, -, -⟩ := exists_of_mem_nameRequests mem
  exact Request.metadata_name_rename _ _

theorem name_ne_empty_of_parseTokens (parsed : parseTokens options tokens = .ok d)
    (asked : options.requireRequestNames = true ∨ options.strictMode = true) :
    ∀ r ∈ d.requests, r.name ≠ "" := by
  obtain ⟨-, rfl, -, valid⟩ := parseTokens_eq_ok_iff.1 parsed
  intro r mem empty
  rcases asked with required | strict
  · rw [requests_draftDocument] at mem
    obtain ⟨draft, -, name, rfl, filled, -⟩ := exists_of_mem_nameRequests mem
    rw [filled empty] at required
    cases required
  · have filled := ((Document.names_of_valid (valid strict)).1 r mem).1
    rw [empty] at filled
    cases filled

theorem pairwise_name_ne_of_parseTokens (parsed : parseTokens options tokens = .ok d)
    (asked : options.validateRequestNames = true ∨ options.strictMode = true) :
    d.requests.Pairwise fun r s => r.name ≠ "" → r.name ≠ s.name := by
  have names := isNameText_of_parseTokens parsed
  obtain ⟨-, -, distinct, valid⟩ := parseTokens_eq_ok_iff.1 parsed
  apply pairwise_name_ne names
  rcases asked with checked | strict
  · rw [← List.head?_eq_none_iff, ← firstRepeated?_eq_head? names]
    exact distinct checked
  · exact (Document.names_of_valid (valid strict)).2

end Parsed

/-- What can be said about the names of the requests of any document that parsing returns. -/
theorem request_names_sound {text : String} {options : Options} {d : Document}
    (parsed : parse text options = .ok d) :
    (∀ r ∈ d.requests, isNameText r.name = true ∧ r.metadata.name = r.name ∧
      (options.requireRequestNames = true ∨ options.strictMode = true → r.name ≠ "") ∧
      (options.strictMode = true → r.name.toList.length ≤ options.maxRequestNameLength) ∧
      (r.name ≠ "" →
        referencedRequests (Placeholder.inBraces (r.name ++ ".response.status")) = [r.name])) ∧
    (options.validateRequestNames = true ∨ options.strictMode = true →
      d.requests.Pairwise (fun r s => r.name ≠ "" → r.name ≠ s.name) ∧
      ∀ r ∈ d.requests, r.name ≠ "" → d.request? r.name = some r) ∧
    ∀ bs, blocks (scan text options.normalizeLineEndings) = bs →
      List.Forall₂ (fun b r => r = b.request options r.name) bs d.requests ∧
      (options.requireRequestNames = true →
        (unnamedRequests options bs d.requests).map (·.name) =
          (List.range' 1 (bs.countP (·.isUnnamed options))).map
            fun k => "request-" ++ toString k) := by
  have names := isNameText_of_parseTokens parsed
  refine ⟨fun r mem => ⟨names r mem, metadata_name_of_parseTokens parsed r mem,
    fun asked => name_ne_empty_of_parseTokens parsed asked r mem, fun strict => ?_, ?_⟩,
    fun asked => ?_, ?_⟩
  · have valid := (parseTokens_eq_ok_iff.1 parsed).2.2.2 strict
    exact ((Document.names_of_valid valid).1 r mem).2.2
  · intro filled
    have plain : "status".toList.all Placeholder.isInside = true := by decide
    have last : "status".toList.getLast? ≠ some '\\' := by decide
    have joined : r.name ++ ".response.status" = r.name ++ ".response." ++ "status" := by
      rw [String.append_assoc]
      rfl
    rw [joined]
    exact referencedRequests_inBraces (names r mem) filled (by decide)
      (List.all_eq_true.1 plain) last
  · have distinct := pairwise_name_ne_of_parseTokens parsed asked
    exact ⟨distinct, fun r mem filled => Document.request?_of_mem mem distinct filled⟩
  · rintro bs rfl
    obtain ⟨-, rfl, -, -⟩ := parseTokens_eq_ok_iff.1 parsed
    rw [requests_draftDocument]
    exact ⟨forall₂_nameRequests options 0 _, fun required => names_unnamedRequests required 0 _⟩

/-- Three requests: the first has a name that needs changes, and no name is left of what is written
for the others. -/
def unevenNames : String :=
  "# @name log in!\nGET /a\n\n###\nGET /b\n\n### ??\nGET /c\n"

def unevenDocument : Document where
  requests :=
    [{ name := "log-in", method := "GET", url := "/a", metadata := { name := "log-in" },
       line := 2 },
     { name := "request-1", method := "GET", url := "/b", metadata := { name := "request-1" },
       line := 5 },
     { name := "request-2", method := "GET", url := "/c", metadata := { name := "request-2" },
       line := 8 }]

theorem request_names_sound_unevenNames :
    parse unevenNames = .ok unevenDocument ∧
      (∀ r ∈ unevenDocument.requests, unevenDocument.request? r.name = some r) ∧
      (unnamedRequests {} (blocks (scan unevenNames true)) unevenDocument.requests).map (·.name) =
        ["request-1", "request-2"] := by
  have parsed : parse unevenNames = .ok unevenDocument := by decide +kernel
  obtain ⟨sound, distinct, blockwise⟩ := request_names_sound parsed
  refine ⟨parsed, fun r mem => ?_, ?_⟩
  · exact (distinct (.inl rfl)).2 r mem ((sound r mem).2.2.1 (.inl rfl))
  · rw [(blockwise _ rfl).2 rfl]
    decide +kernel

end RequestFile
