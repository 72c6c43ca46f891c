import Mathlib
import RequestFile.Text.Basic

/-!
# Lines of a text

A text that is put together from lines has these lines, and normalization leaves it as it is.
-/

namespace RequestFile

/-- Whether a text stands on one line: it has no CR and no LF. -/
def isOneLine (s : String) : Bool :=
  s.toList.all fun c => c != '\r' && c != '\n'

namespace Text

theorem unifyBreaks_cons_of_ne {c : Char} (other : c ≠ '\r') (cs : List Char) :
    unifyBreaks (c :: cs) = c :: unifyBreaks cs := by
  conv_lhs => unfold unifyBreaks
  split
  · next same => cases same
  · next same => exact absurd (List.cons.inj same).1 other
  · next same => exact absurd (List.cons.inj same).1 other
  · next same =>
    cases same
    rfl

theorem unifyBreaks_of_not_mem {cs : List Char} (absent : '\r' ∉ cs) : unifyBreaks cs = cs := by
  induction cs with
  | nil => rfl
  | cons c cs ih =>
    rw [List.mem_cons, not_or] at absent
    rw [unifyBreaks_cons_of_ne (Ne.symm absent.1), ih absent.2]

theorem dropMark_of_head {cs : List Char} (unmarked : ∀ c ∈ cs.head?, c.toNat ≠ 0xFEFF) :
    dropMark cs = cs := by
  cases cs with
  | nil => rfl
  | cons c cs =>
    have other := unmarked c rfl
    simp [dropMark, other]

/-- Normalization leaves a text as it is that has no CR and does not start with a mark. -/
theorem normalize_of_not_mem {cs : List Char} (absent : '\r' ∉ cs)
    (unmarked : ∀ c ∈ cs.head?, c.toNat ≠ 0xFEFF) : normalize cs = cs := by
  rw [normalize, dropMark_of_head unmarked, unifyBreaks_of_not_mem absent]

end Text

theorem not_mem_of_isOneLine {s : String} (ok : isOneLine s = true) :
    '\r' ∉ s.toList ∧ '\n' ∉ s.toList := by
  simp only [isOneLine, List.all_eq_true, Bool.and_eq_true, bne_iff_ne] at ok
  exact ⟨fun mem => (ok _ mem).1 rfl, fun mem => (ok _ mem).2 rfl⟩

theorem isOneLine_append (s t : String) :
    isOneLine (s ++ t) = (isOneLine s && isOneLine t) := by
  simp [isOneLine]

theorem isOneLine_of_not_isBlank {s : String} (solid : ∀ c ∈ s.toList, Text.isBlank c = false) :
    isOneLine s = true := by
  rw [isOneLine, List.all_eq_true]
  intro c mem
  rw [Bool.and_eq_true, bne_iff_ne, bne_iff_ne]
  constructor
  · intro same
    have blank := solid c mem
    rw [same] at blank
    cases blank
  · intro same
    have blank := solid c mem
    rw [same] at blank
    cases blank

theorem head?_intercalate {c : Char} {s : String} {rest : List String}
    (first : c ∈ ("\n".intercalate (s :: rest)).toList.head?) :
    c ∈ s.toList.head? ∨ c = '\n' := by
  rw [String.toList_intercalate, List.map_cons] at first
  cases chars : s.toList with
  | nil =>
    cases rest with
    | nil => simp [chars] at first
    | cons t rest =>
      right
      simpa [chars] using first.symm
  | cons d more =>
    left
    cases rest with
    | nil => simpa [chars] using first
    | cons t rest => simpa [chars] using first

theorem not_mem_intercalate {c : Char} (other : c ≠ '\n') {texts : List String}
    (absent : ∀ s ∈ texts, c ∉ s.toList) : c ∉ ("\n".intercalate texts).toList := by
  induction texts with
  | nil => simp
  | cons s rest ih =>
    rw [List.forall_mem_cons] at absent
    cases rest with
    | nil => simpa using absent.1
    | cons t rest =>
      rw [String.intercalate_cons_cons]
      simp only [String.toList_append, List.mem_append, not_or]
      exact ⟨⟨absent.1, by simpa using other⟩, ih absent.2⟩

/-- A text that is put together from lines without LF has these lines. -/
theorem lines_intercalate_of_not_mem {texts : List String} (nonempty : texts ≠ [])
    (whole : ∀ s ∈ texts, '\n' ∉ s.toList) :
    Text.lines ("\n".intercalate texts).toList = texts.map String.toList := by
  rw [Text.lines, String.toList_intercalate]
  refine List.splitOn_intercalate '\n' ?_ (by simpa using nonempty)
  intro line mem
  obtain ⟨s, inside, rfl⟩ := List.mem_map.1 mem
  exact whole s inside

/-- The lines of a text that is put together from lines. -/
theorem lines_intercalate {texts : List String} (nonempty : texts ≠ [])
    (oneLine : ∀ s ∈ texts, isOneLine s = true) :
    Text.lines ("\n".intercalate texts).toList = texts.map String.toList :=
  lines_intercalate_of_not_mem nonempty fun s mem => (not_mem_of_isOneLine (oneLine s mem)).2

/-- Lines without LF are found again in the text that they make. -/
theorem eq_of_intercalate_eq {texts texts' : List String} (nonempty : texts ≠ [])
    (nonempty' : texts' ≠ []) (oneLine : ∀ s ∈ texts, isOneLine s = true)
    (oneLine' : ∀ s ∈ texts', isOneLine s = true)
    (same : "\n".intercalate texts = "\n".intercalate texts') : texts = texts' := by
  have lines := lines_intercalate nonempty oneLine
  rw [same, lines_intercalate nonempty' oneLine'] at lines
  exact (List.map_injective_iff.2 (fun s t => String.toList_inj.1) lines).symm

theorem normalize_intercalate {texts : List String} (oneLine : ∀ s ∈ texts, isOneLine s = true)
    (unmarked : ∀ c ∈ ("\n".intercalate texts).toList.head?, c.toNat ≠ 0xFEFF) :
    Text.normalize ("\n".intercalate texts).toList = ("\n".intercalate texts).toList := by
  refine Text.normalize_of_not_mem ?_ unmarked
  exact not_mem_intercalate (by decide) fun s mem => (not_mem_of_isOneLine (oneLine s mem)).1

end RequestFile
