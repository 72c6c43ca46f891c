import Mathlib
import RequestFile.Proofs.Assembly.Duplicate
import RequestFile.Proofs.Assembly.RequestName

/-!
# Default names

Default names are numbered by the requests without a name alone, and no look is taken at the names
that the file gives. So a default name may be given to another request as well, and the check of
names then fails, although nothing is written twice. This is the only way in which default names
make it fail.
-/

namespace RequestFile

theorem defaultName_injective : Function.Injective defaultName := by
  intro m n same
  simpa [defaultName] using same

/-! ## Given names and default names -/

/-- The names that a file gives to requests, made into request names, in order. -/
def givenNames (options : Options) (bs : List Block) : List String :=
  (bs.filter (!·.isUnnamed options)).map (·.givenName options)

/-- The default names of the requests without a name. -/
def defaultNames (options : Options) (bs : List Block) : List String :=
  (List.range' 1 (bs.countP (·.isUnnamed options))).map defaultName

/-- The default names that the file gives to requests as well. -/
def clashingNames (options : Options) (bs : List Block) : List String :=
  (defaultNames options bs).filter (givenNames options bs).contains

theorem nodup_defaultNames (options : Options) (bs : List Block) :
    (defaultNames options bs).Nodup :=
  (List.nodup_range' 1).map defaultName_injective

/-- Where names are required, the names of the requests are the given ones and the default ones. -/
theorem perm_names_nameRequests {options : Options} (lenient : options.strictMode = false)
    (required : options.requireRequestNames = true) (unnamed : Nat) (bs : List Block) :
    ((nameRequests options unnamed (bs.map (·.draft options))).map (·.name)).Perm
      (givenNames options bs ++
        (List.range' (unnamed + 1) (bs.countP (·.isUnnamed options))).map defaultName) := by
  induction bs generalizing unnamed with
  | nil => exact .nil
  | cons b rest ih =>
    rw [List.map_cons, nameRequests, settleName_draft_eq_empty, required, Bool.and_true]
    cases none : b.isUnnamed options with
    | true =>
      have given : givenNames options (b :: rest) = givenNames options rest := by
        simp [givenNames, none]
      rw [if_pos rfl, List.map_cons, Request.name_rename, given, List.countP_cons_of_pos none,
        List.range'_succ, List.map_cons]
      exact ((ih (unnamed + 1)).cons _).trans List.perm_middle.symm
    | false =>
      have given : givenNames options (b :: rest) =
          b.givenName options :: givenNames options rest := by
        simp [givenNames, none]
      have settled : settleName options (b.draft options).writtenName = b.givenName options :=
        settleName_writtenName options b lenient
      rw [if_neg Bool.false_ne_true, List.map_cons, Request.name_rename, settled, given,
        List.countP_cons_of_neg (by simp [none])]
      exact (ih unnamed).cons _

/-! ## Repeated names -/

/-- A repeated name stands twice among the names that have been seen and those of the requests. -/
theorem two_le_count_of_firstRepeated? {seen : List (String × Nat)} {rs : List Request}
    {r : Request} {line : Nat} (found : firstRepeated? seen rs = some (r, line)) :
    2 ≤ (seen.map Prod.fst ++ rs.map (·.name)).count r.name := by
  induction rs generalizing seen with
  | nil => cases found
  | cons first rest ih =>
    have moved : (seen.map Prod.fst ++ (first :: rest).map (·.name)).count r.name =
        (first.name :: seen.map Prod.fst ++ rest.map (·.name)).count r.name :=
      List.perm_middle.count_eq _
    rw [firstRepeated?] at found
    rw [moved]
    split at found
    · exact (ih found).trans (List.count_le_count_cons ..)
    · cases known : seen.lookup first.name with
      | some earlier =>
        rw [known] at found
        cases found
        have inside : r.name ∈ seen.map Prod.fst := by
          rw [← List.mem_toFinset, mem_seen_iff, known]
          rfl
        have one := List.count_pos_iff.2 inside
        rw [List.cons_append, List.count_cons_self, List.count_append]
        omega
      | none =>
        rw [known] at found
        exact ih found

theorem firstRepeated?_eq_none_iff {rs : List Request}
    (names : ∀ r ∈ rs, isNameText r.name = true) (filled : ∀ r ∈ rs, r.name ≠ "") :
    firstRepeated? [] rs = none ↔ (rs.map (·.name)).Nodup := by
  have all : filledNames rs = rs.map (·.name) := by
    rw [filledNames, List.filter_eq_self]
    intro name mem
    obtain ⟨r, inside, rfl⟩ := List.mem_map.1 mem
    simp [isBlankText_of_isNameText (names r inside), filled r inside]
  rw [firstRepeated?_eq_head? names, List.head?_eq_none_iff, repeatedNames_eq_nil_iff, all]

/-! ## Clashes -/

section Clash

variable {options : Options}

theorem mem_clashingNames {bs : List Block} {name : String} :
    name ∈ clashingNames options bs ↔
      name ∈ givenNames options bs ∧ name ∈ defaultNames options bs := by
  rw [clashingNames, List.mem_filter, List.contains_iff_mem, and_comm]

/-- Where the given names are distinct, the names of all requests are so unless there is a clash. -/
theorem nodup_names_iff_clashingNames {bs : List Block}
    (distinct : (givenNames options bs).Nodup) :
    (givenNames options bs ++ defaultNames options bs).Nodup ↔ clashingNames options bs = [] := by
  rw [List.nodup_append', List.eq_nil_iff_forall_not_mem]
  simp only [distinct, nodup_defaultNames, true_and, mem_clashingNames, not_and]
  rfl

/-- Where both kinds of names are distinct, a name that stands twice among them is a clash. -/
theorem mem_clashingNames_of_two_le_count {bs : List Block} {name : String}
    (distinct : (givenNames options bs).Nodup)
    (twice : 2 ≤ (givenNames options bs ++ defaultNames options bs).count name) :
    name ∈ clashingNames options bs := by
  have given := List.nodup_iff_count_le_one.1 distinct name
  have default := List.nodup_iff_count_le_one.1 (nodup_defaultNames options bs) name
  rw [List.count_append] at twice
  rw [mem_clashingNames, ← List.count_pos_iff, ← List.count_pos_iff]
  omega

/-- The check of names fails with a clash if there is one, and passes the document otherwise. -/
theorem checkNames_draftDocument {tokens : List Located} (lenient : options.strictMode = false)
    (required : options.requireRequestNames = true)
    (asked : options.validateRequestNames = true)
    (distinct : (givenNames options (blocks tokens)).Nodup) :
    (clashingNames options (blocks tokens) = [] ∧
      checkNames options (draftDocument options tokens) = .ok (draftDocument options tokens)) ∨
    ∃ name ∈ clashingNames options (blocks tokens), ∃ line firstLine,
      checkNames options (draftDocument options tokens) =
        .error (.duplicateRequestName name line firstLine) := by
  have perm := perm_names_nameRequests lenient required 0 (blocks tokens)
  rw [← requests_draftDocument] at perm
  have names : ∀ r ∈ (draftDocument options tokens).requests, isNameText r.name = true := by
    rw [requests_draftDocument]
    exact fun r mem => isNameText_of_mem_nameRequests lenient mem
  have filled : ∀ r ∈ (draftDocument options tokens).requests, r.name ≠ "" := by
    rw [requests_draftDocument]
    intro r mem empty
    obtain ⟨_, _, name, rfl, optional, -⟩ := exists_of_mem_nameRequests mem
    rw [optional empty] at required
    cases required
  cases search : firstRepeated? [] (draftDocument options tokens).requests with
  | none =>
    have nodup := (firstRepeated?_eq_none_iff names filled).1 search
    rw [perm.nodup_iff] at nodup
    refine .inl ⟨(nodup_names_iff_clashingNames distinct).1 nodup, ?_⟩
    exact checkNames_eq_ok_iff.2 ⟨rfl, fun _ => search⟩
  | some found =>
    obtain ⟨r, firstLine⟩ := found
    have twice := two_le_count_of_firstRepeated? search
    rw [List.map_nil, List.nil_append, perm.count_eq] at twice
    refine .inr ⟨r.name, mem_clashingNames_of_two_le_count distinct twice, r.line, firstLine, ?_⟩
    rw [checkNames, if_pos asked, search]

end Clash

/-- Where names are required and checked outside strict mode, and the names that the file gives are
distinct, parsing fails with a repeated name exactly where a default name clashes with a given one,
and it is a clash that is reported. Without one, requests keep the names that they are given, and
all others get default names. -/
theorem parseTokens_duplicate_iff_clash (options : Options) (tokens : List Located)
    (lenient : options.strictMode = false) (required : options.requireRequestNames = true)
    (asked : options.validateRequestNames = true)
    (distinct : (givenNames options (blocks tokens)).Nodup) :
    ((∃ name line firstLine,
        parseTokens options tokens = .error (.duplicateRequestName name line firstLine)) ↔
      options.problem? = none ∧ clashingNames options (blocks tokens) ≠ []) ∧
    (∀ name line firstLine,
      parseTokens options tokens = .error (.duplicateRequestName name line firstLine) →
        name ∈ clashingNames options (blocks tokens)) ∧
    (options.problem? = none → clashingNames options (blocks tokens) = [] →
      ∃ d, parseTokens options tokens = .ok d ∧
        (d.requests.map (·.name)).Perm
          (givenNames options (blocks tokens) ++ defaultNames options (blocks tokens)) ∧
        (unnamedRequests options (blocks tokens) d.requests).map (·.name) =
          defaultNames options (blocks tokens)) := by
  cases sound : options.problem? with
  | some problem =>
    have fails : parseTokens options tokens = .error (.badOptions problem) := by
      rw [parseTokens_eq, sound]
    simp [fails]
  | none =>
    rw [parseTokens_of_lenient sound lenient]
    rcases checkNames_draftDocument lenient required asked distinct with
      ⟨apart, passes⟩ | ⟨name, clash, line, firstLine, fails⟩
    · rw [passes]
      refine ⟨by simp [apart], nofun, fun _ _ => ⟨_, rfl, ?_⟩⟩
      rw [requests_draftDocument]
      exact ⟨perm_names_nameRequests lenient required 0 _, names_unnamedRequests required 0 _⟩
    · have clashes : clashingNames options (blocks tokens) ≠ [] := List.ne_nil_of_mem clash
      rw [fails]
      refine ⟨?_, ?_, fun _ apart => absurd apart clashes⟩
      · exact iff_of_true ⟨name, line, firstLine, rfl⟩ ⟨rfl, clashes⟩
      · rintro _ _ _ ⟨⟩
        exact clash

/-- Two requests without a name, and between them one that is given a name. -/
def threeTokens (name : String) : List Located :=
  [⟨.requestLine "GET" "/a" none, 1⟩, ⟨.directive "name" name, 3⟩,
    ⟨.requestLine "GET" "/b" none, 4⟩, ⟨.separator none, 5⟩, ⟨.requestLine "GET" "/c" none, 6⟩]

theorem parseTokens_duplicate_iff_clash_threeTokens :
    clashingNames {} (blocks (threeTokens "request-2")) = ["request-2"] ∧
    (∃ name line firstLine, parseTokens {} (threeTokens "request-2") =
      .error (.duplicateRequestName name line firstLine)) ∧
    clashingNames {} (blocks (threeTokens "request-3")) = [] ∧
    ∃ d, parseTokens {} (threeTokens "request-3") = .ok d ∧
      (unnamedRequests {} (blocks (threeTokens "request-3")) d.requests).map (·.name) =
        ["request-1", "request-2"] := by
  have clash : clashingNames {} (blocks (threeTokens "request-2")) = ["request-2"] := by
    decide +kernel
  have apart : clashingNames {} (blocks (threeTokens "request-3")) = [] := by decide +kernel
  have fails := parseTokens_duplicate_iff_clash {} (threeTokens "request-2") rfl rfl rfl
    (by decide +kernel)
  have passes := parseTokens_duplicate_iff_clash {} (threeTokens "request-3") rfl rfl rfl
    (by decide +kernel)
  obtain ⟨d, parsed, -, default⟩ := passes.2.2 rfl apart
  refine ⟨clash, fails.1.2 ⟨rfl, by simp [clash]⟩, apart, d, parsed, default.trans ?_⟩
  decide +kernel

/-- The name `request-1` is written for the first of two requests, and none for the second. -/
def takenTokens : List Located :=
  [⟨.directive "name" "request-1", 1⟩, ⟨.requestLine "GET" "/a" none, 2⟩, ⟨.separator none, 3⟩,
    ⟨.requestLine "GET" "/b" none, 4⟩]

/-- A single name is written, and it is reported as repeated. -/
theorem parseTokens_takenTokens :
    givenNames {} (blocks takenTokens) = ["request-1"] ∧
    parseTokens {} takenTokens = .error (.duplicateRequestName "request-1" 4 2) := by
  decide +kernel

end RequestFile
