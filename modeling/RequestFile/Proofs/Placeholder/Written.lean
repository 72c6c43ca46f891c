import Mathlib
import RequestFile.Placeholder

/-!
# Placeholders as written

How texts that are put together from known pieces are cut into segments again. Hiding escapes
changes a text only where a backslash stands before two braces, and a name in double braces is read
back as one placeholder.
-/

namespace RequestFile.Placeholder

/-- A text between double braces. -/
def inBraces (content : String) : String :=
  "\x7b\x7b" ++ content ++ "\x7d\x7d"

@[simp]
theorem toList_inBraces (content : String) :
    (inBraces content).toList = (Segment.braces content.toList).source := by
  simp [inBraces, Segment.source, String.toList_append]

/-- Whether a text starts with two opening or two closing braces. -/
def startsWithBraces : List Char → Bool
  | '{' :: '{' :: _ | '}' :: '}' :: _ => true
  | _ => false

theorem mask_cons {c : Char} {rest : List Char}
    (plain : c = '\\' → startsWithBraces rest = false) : mask (c :: rest) = c :: mask rest := by
  rw [mask.eq_4]
  · rintro more rfl rfl
    exact absurd (plain rfl) (by simp [startsWithBraces])
  · rintro more rfl rfl
    exact absurd (plain rfl) (by simp [startsWithBraces])

theorem mask_cons_of_ne {c : Char} (rest : List Char) (h : c ≠ '\\') :
    mask (c :: rest) = c :: mask rest :=
  mask_cons fun same => absurd same h

theorem isInside_iff {c : Char} : isInside c = true ↔ c ≠ '{' ∧ c ≠ '}' := by
  simp [isInside]

/-- Nothing is hidden in a text without braces, unless it ends with a backslash that escapes what
follows. -/
theorem mask_append_of_inside {cs : List Char} (rest : List Char)
    (inside : ∀ c ∈ cs, isInside c = true) (last : cs.getLast? ≠ some '\\') :
    mask (cs ++ rest) = cs ++ mask rest := by
  induction cs with
  | nil => rfl
  | cons c cs ih =>
    have tail : mask (cs ++ rest) = cs ++ mask rest := by
      apply ih fun d mem => inside d (List.mem_cons_of_mem c mem)
      cases cs with
      | nil => simp
      | cons d cs => simpa using last
    rw [List.cons_append, mask_cons, tail, List.cons_append]
    rintro rfl
    cases cs with
    | nil => exact absurd rfl last
    | cons d cs =>
      obtain ⟨notOpen, notClose⟩ := isInside_iff.1 (inside d (by simp))
      unfold startsWithBraces
      split
      · next same => simp_all
      · next same => simp_all
      · rfl

theorem readBraces?_append {content : List Char} (rest : List Char) (nonempty : content ≠ [])
    (inside : ∀ c ∈ content, isInside c = true) :
    readBraces? (content ++ '}' :: '}' :: rest) = some (content, rest) := by
  have stop : isInside '}' = false := rfl
  have taken : (content ++ '}' :: '}' :: rest).takeWhile isInside = content := by
    rw [List.takeWhile_append_of_pos inside, List.takeWhile_cons_of_neg (by simp [stop])]
    simp
  have left : (content ++ '}' :: '}' :: rest).dropWhile isInside = '}' :: '}' :: rest := by
    rw [List.dropWhile_append_of_pos inside, List.dropWhile_cons_of_neg (by simp [stop])]
  obtain ⟨c, cs, rfl⟩ := List.exists_cons_of_ne_nil nonempty
  rw [readBraces?, taken, left]
  rfl

/-- A placeholder in double braces is read back, and what follows is read after it. -/
theorem segments_braces {content : List Char} (rest : List Char) (nonempty : content ≠ [])
    (inside : ∀ c ∈ content, isInside c = true) :
    segments ('{' :: '{' :: content ++ '}' :: '}' :: rest) =
      .braces content :: segments rest := by
  have read := readBraces?_append rest nonempty inside
  rw [List.cons_append, List.cons_append, segments]
  split
  · next more rest' h =>
    rw [read] at h
    cases h
    rfl
  · next h => simp [read] at h

/-- A text that is one placeholder is cut into that placeholder. -/
theorem segments_mask_braces {name : List Char} (nonempty : name ≠ [])
    (inside : ∀ c ∈ name, isInside c = true) (last : name.getLast? ≠ some '\\') :
    segments (mask ('{' :: '{' :: name ++ ['}', '}'])) = [.braces name] := by
  have masked : mask ('{' :: '{' :: name ++ ['}', '}']) = '{' :: '{' :: name ++ ['}', '}'] := by
    rw [List.cons_append, List.cons_append, mask_cons_of_ne _ (by decide),
      mask_cons_of_ne _ (by decide), mask_append_of_inside _ inside last]
    rfl
  rw [masked, segments_braces [] nonempty inside, segments]

end RequestFile.Placeholder
