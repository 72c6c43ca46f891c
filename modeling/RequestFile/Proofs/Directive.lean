import Mathlib
import RequestFile.Directive
import RequestFile.Request
import RequestFile.Proofs.Text.Blank

/-!
# What directives say

An expectation is read from its keyword and its value, and a name from itself. Keywords are single
words, so that they can be told from the value behind them.
-/

namespace RequestFile

/-! ## Keywords -/

namespace ExpectationKind

/-- The keywords of expectations, without hyphens and underscores and in small letters. -/
def plainKeywords : List String :=
  ["status", "statuscode", "header", "bodycontains", "contains", "bodypath", "jsonpath", "schema",
    "maxtime", "duration"]

theorem mem_plainKeywords_of_ofKeyword? {keyword : String} {kind : ExpectationKind}
    (found : ofKeyword? keyword = some kind) :
    String.ofList (Text.lower (keyword.toList.filter fun c => c != '-' && c != '_')) ∈
      plainKeywords := by
  unfold ofKeyword? at found
  split at found
  all_goals first | (next same => rw [same]; decide) | cases found

theorem isAlphanum_of_mem_plainKeywords {word : String} (mem : word ∈ plainKeywords) :
    ∀ c ∈ word.toList, c.isAlphanum = true := by
  have table : plainKeywords.all (fun word => word.toList.all Char.isAlphanum) = true := by decide
  intro c inside
  exact List.all_eq_true.1 (List.all_eq_true.1 table word mem) c inside

theorem toLower_of_isBlank {c : Char} (blank : Text.isBlank c = true) : c.toLower = c := by
  unfold Char.toLower
  split
  · next upper =>
    have letter : c.isAlphanum = true := by
      simp only [Char.isAlphanum, Char.isAlpha, Char.isUpper, Bool.or_eq_true,
        decide_eq_true_eq]
      exact .inl (.inl upper)
    rw [Text.not_isBlank_of_isAlphanum letter] at blank
    cases blank
  · rfl

/-- A keyword holds no blanks. -/
theorem not_isBlank_of_ofKeyword? {keyword : String} {kind : ExpectationKind}
    (found : ofKeyword? keyword = some kind) : ∀ c ∈ keyword.toList, Text.isBlank c = false := by
  intro c mem
  by_contra notSolid
  have blank : Text.isBlank c = true := by simpa using notSolid
  have kept : c ∈ keyword.toList.filter fun c => c != '-' && c != '_' := by
    rw [List.mem_filter, Bool.and_eq_true, bne_iff_ne, bne_iff_ne]
    refine ⟨mem, ?_, ?_⟩
    · intro same
      rw [same] at blank
      cases blank
    · intro same
      rw [same] at blank
      cases blank
  have inside : c ∈ (String.ofList
      (Text.lower (keyword.toList.filter fun c => c != '-' && c != '_'))).toList := by
    rw [String.toList_ofList, Text.lower, List.mem_map]
    exact ⟨c, kept, toLower_of_isBlank blank⟩
  have letter := isAlphanum_of_mem_plainKeywords (mem_plainKeywords_of_ofKeyword? found) c inside
  rw [Text.not_isBlank_of_isAlphanum letter] at blank
  cases blank

theorem ne_nil_of_ofKeyword? {keyword : String} {kind : ExpectationKind}
    (found : ofKeyword? keyword = some kind) : keyword.toList ≠ [] := by
  intro empty
  have mem := mem_plainKeywords_of_ofKeyword? found
  rw [empty] at mem
  exact absurd mem (by decide)

end ExpectationKind

/-! ## Directives -/

/-- An expectation is read from its keyword, a blank and its value. -/
theorem Expectation.ofText?_keyword {keyword : String} {e : Expectation}
    (found : ExpectationKind.ofKeyword? keyword = some e.kind) (tight : trimmed e.value = e.value) :
    ofText? (String.ofList (Text.trim (keyword.toList ++ ' ' :: e.value.toList))) = some e := by
  have solid := ExpectationKind.not_isBlank_of_ofKeyword? found
  have valueTight := trim_toList_of_trimmed tight
  have whole : Text.trim (keyword.toList ++ ' ' :: e.value.toList) =
      keyword.toList ++ Text.trimEnd (' ' :: e.value.toList) :=
    Text.trim_append (Text.trim_of_not_blank solid) (ExpectationKind.ne_nil_of_ofKeyword? found) _
  have cut : ∃ rest, Text.cutAt Text.isBlank
        (keyword.toList ++ Text.trimEnd (' ' :: e.value.toList)) = (keyword.toList, rest) ∧
      Text.trim (rest.getD []) = e.value.toList := by
    rw [Text.trimEnd_space_cons]
    by_cases empty : Text.trimEnd e.value.toList = []
    · refine ⟨none, ?_, ?_⟩
      · rw [if_pos empty, List.append_nil, Text.cutAt_of_forall solid]
      · have nothing : Text.trim e.value.toList = [] := by
          rw [← Text.trim_trimEnd, empty, Text.trim_nil]
        rw [← valueTight, nothing]
        rfl
    · refine ⟨some (Text.trimEnd e.value.toList), ?_, ?_⟩
      · rw [if_neg empty, Text.cutAt_append_cons solid Text.isBlank_space]
      · rw [Option.getD_some, Text.trim_trimEnd, valueTight]
  obtain ⟨rest, cut, value⟩ := cut
  rw [ofText?, String.toList_ofList, Text.trim_trim, whole, cut]
  simp [found, value]

theorem Directive.of_expect {text : String} {e : Expectation}
    (read : Expectation.ofText? text = some e) : Directive.of "expect" text = .expect e := by
  have notName : Text.sameLetters "expect" "name" = false := by decide
  have isExpect : Text.sameLetters "expect" "expect" = true := by decide
  simp only [Directive.of, notName, isExpect, if_true, read]
  rfl

theorem Directive.of_name (text : String) : Directive.of "name" text = .name (trimmed text) := by
  have isName : Text.sameLetters "name" "name" = true := by decide
  rw [Directive.of, if_pos isName]

/-! ## Names -/

theorem not_isBlank_of_isNameText {name : String} (ok : isNameText name = true) :
    ∀ c ∈ name.toList, Text.isBlank c = false :=
  fun c mem => Text.not_isBlank_of_isNameChar (List.all_eq_true.1 ok c mem)

theorem trimmed_of_isNameText {name : String} (ok : isNameText name = true) :
    trimmed name = name := by
  rw [trimmed, Text.trim_of_not_blank (not_isBlank_of_isNameText ok), String.ofList_toList]

end RequestFile
