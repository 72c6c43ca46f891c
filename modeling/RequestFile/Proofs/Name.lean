import Mathlib
import RequestFile.Assembly
import RequestFile.Proofs.Directive

/-!
# Request names

A request name is made of letters, digits, `_` and `-`. The slug of a text is its words with hyphens
between them, less all other characters; so slugs are names, and a name is its own slug. Default
names are names as well.
-/

namespace RequestFile

theorem isNameText_iff {s : String} :
    isNameText s = true ↔ ∀ c ∈ s.toList, Text.isNameChar c = true :=
  List.all_eq_true

/-- A name is blank only if it is empty. -/
theorem isBlankText_of_isNameText {s : String} (ok : isNameText s = true) :
    isBlankText s = (s == "") := by
  rw [Bool.eq_iff_iff, ← trimmed_eq_empty_iff, trimmed_of_isNameText ok, beq_iff_eq]

/-! ## Slugs -/

/-- A text without the characters that are neither blank nor may stand in a name. -/
def slugChars (cs : List Char) : List Char :=
  cs.filter fun c => Text.isBlank c || Text.isNameChar c

theorem slugChars_append (cs ds : List Char) :
    slugChars (cs ++ ds) = slugChars cs ++ slugChars ds :=
  List.filter_append cs ds

theorem slugChars_of_blank {gap : List Char} (blank : ∀ c ∈ gap, Text.isBlank c = true) :
    slugChars gap = gap := by
  rw [slugChars, List.filter_eq_self]
  intro c mem
  rw [blank c mem, Bool.true_or]

theorem slugChars_of_isNameText {s : String} (ok : isNameText s = true) :
    slugChars s.toList = s.toList := by
  rw [slugChars, List.filter_eq_self]
  intro c mem
  rw [isNameText_iff.1 ok c mem, Bool.or_true]

theorem words_slugChars_trim (cs : List Char) :
    Text.words (slugChars (Text.trim cs)) = Text.words (slugChars cs) := by
  obtain ⟨front, back, split, blankFront, blankBack⟩ := Text.exists_eq_append_trim cs
  calc Text.words (slugChars (Text.trim cs))
      = Text.words (front ++ (slugChars (Text.trim cs) ++ back)) := by
        rw [Text.words_append_of_blank blankFront, Text.words_concat_of_blank blankBack]
    _ = Text.words (slugChars (front ++ (Text.trim cs ++ back))) := by
        rw [slugChars_append, slugChars_append, slugChars_of_blank blankFront,
          slugChars_of_blank blankBack]
    _ = Text.words (slugChars cs) := by rw [← split]

/-- Behind a word and a gap, each of which may be missing, the slug goes on as that of the word, the
gap and the rest together. -/
theorem append_slugFrom {word gap : List Char} (solid : ∀ c ∈ word, Text.isBlank c = false)
    (blank : ∀ c ∈ gap, Text.isBlank c = true) (cs : List Char) :
    word ++ slugFrom (!word.isEmpty) (!gap.isEmpty) cs =
      ['-'].intercalate (Text.words (word ++ (gap ++ slugChars cs))) := by
  have nothing : Text.words [] = [] := rfl
  -- The word that has been begun and the gap behind it stand for the two flags of the scan.
  induction cs generalizing word gap with
  | nil =>
    have kept : slugChars [] = [] := rfl
    rw [kept, List.append_nil, Text.words_concat_of_blank blank, slugFrom, List.append_nil]
    by_cases noWord : word = []
    · rw [noWord, nothing, List.intercalate_nil]
    · rw [Text.words_of_not_blank solid noWord, List.intercalate_singleton]
  | cons c rest ih =>
    by_cases blankC : Text.isBlank c = true
    · -- The gap becomes wider.
      have kept : slugChars (c :: rest) = [c] ++ slugChars rest := by simp [slugChars, blankC]
      have wider : ∀ d ∈ gap ++ [c], Text.isBlank d = true := by
        simpa [or_imp, forall_and] using ⟨blank, blankC⟩
      have filled : (gap ++ [c]).isEmpty = false := List.isEmpty_eq_false_iff.2 (by simp)
      have later := ih solid wider
      rw [List.append_assoc, ← kept, filled] at later
      rw [slugFrom, if_pos blankC, ← later]
      rfl
    have solidC : Text.isBlank c = false := by simpa using blankC
    by_cases name : Text.isNameChar c = true
    · have kept : slugChars (c :: rest) = c :: slugChars rest := by simp [slugChars, name]
      rw [slugFrom, if_neg blankC, if_pos name, kept]
      by_cases noGap : gap = []
      · -- The word becomes longer.
        have longer : ∀ d ∈ word ++ [c], Text.isBlank d = false := by
          simpa [or_imp, forall_and] using ⟨solid, solidC⟩
        have filled : (word ++ [c]).isEmpty = false := List.isEmpty_eq_false_iff.2 (by simp)
        have later := ih longer (List.forall_mem_nil _)
        simpa [noGap, filled] using later
      · -- Another word begins behind the gap.
        have later := @ih [c] [] (by simpa using solidC) (List.forall_mem_nil _)
        by_cases noWord : word = []
        · rw [noWord, List.nil_append, List.nil_append, Text.words_append_of_blank blank]
          simpa [noGap] using later
        · rw [Text.intercalate_words_append '-' solid noWord ⟨noGap, blank⟩ solidC]
          simpa [noWord, noGap] using later
    · -- The character is left out, and the gap stays as it is.
      have kept : slugChars (c :: rest) = slugChars rest := by simp [slugChars, blankC, name]
      rw [slugFrom, if_neg blankC, if_neg name, kept]
      exact ih solid blank

/-- A slug is made of the words of a text, with hyphens between them. -/
theorem toList_slug (s : String) :
    (slug s).toList = ['-'].intercalate (Text.words (slugChars s.toList)) := by
  have scanned := append_slugFrom (List.forall_mem_nil _) (List.forall_mem_nil _)
    (Text.trim s.toList)
  rw [slug, String.toList_ofList, ← words_slugChars_trim]
  exact scanned

/-- Slugs are names. -/
theorem isNameText_slug (s : String) : isNameText (slug s) = true := by
  rw [isNameText_iff, toList_slug]
  intro c mem
  rcases Text.mem_intercalate mem with rfl | ⟨word, inside, mem⟩
  · rfl
  · obtain ⟨kept, solid⟩ := Text.mem_of_mem_words inside c mem
    simpa [solid] using (List.mem_filter.1 kept).2

/-- A name is its own slug. -/
theorem slug_of_isNameText {s : String} (ok : isNameText s = true) : slug s = s := by
  rw [← String.toList_inj, toList_slug, slugChars_of_isNameText ok]
  by_cases empty : s.toList = []
  · rw [empty]
    rfl
  · rw [Text.words_of_not_blank (not_isBlank_of_isNameText ok) empty, List.intercalate_singleton]

/-- Making slugs is a projection onto the names: a slug is the words of a text with hyphens between
them, after all characters are left out that are neither blank nor may stand in a name. So it is a
name, it is its own slug, and the texts that are kept are the names. -/
theorem slug_projection (s : String) :
    (slug s).toList = ['-'].intercalate
      (Text.words (s.toList.filter fun c => Text.isBlank c || Text.isNameChar c)) ∧
    (∀ c ∈ (slug s).toList, Text.isNameChar c = true) ∧
    slug (slug s) = slug s ∧
    (slug s = s ↔ ∀ c ∈ s.toList, Text.isNameChar c = true) := by
  refine ⟨toList_slug s, isNameText_iff.1 (isNameText_slug s),
    slug_of_isNameText (isNameText_slug s), ?_⟩
  rw [← isNameText_iff]
  constructor
  · intro same
    rw [← same]
    exact isNameText_slug s
  · exact slug_of_isNameText

example : slug " get  (all) ! items? " = "get-all-items" := by decide

/-! ## Default names -/

theorem isNameText_defaultName (number : Nat) : isNameText (defaultName number) = true := by
  have word : isNameText "request-" = true := by decide
  rw [isNameText_iff] at word ⊢
  intro c mem
  rw [defaultName, String.toList_append, List.mem_append] at mem
  rcases mem with mem | mem
  · exact word c mem
  · rw [Nat.toString_eq_ofList_toDigits, String.toList_ofList] at mem
    have digit := Nat.isDigit_of_mem_toDigits (by decide) (by decide) mem
    simp [Text.isNameChar, Char.isAlphanum, digit]

theorem defaultName_ne_empty (number : Nat) : defaultName number ≠ "" := by
  simp [defaultName]

end RequestFile
