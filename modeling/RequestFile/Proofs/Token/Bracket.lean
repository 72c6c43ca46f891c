import Mathlib
import RequestFile.Token.Scan

/-!
# Brackets of a body

The scan counts the brackets of a body line by line, and a quotation that it has entered ends with
the line. For a text that is `IsHeld` this is no loss: all its brackets match, and its lines end
outside of quotations and between brackets. Such texts can be put behind one another, and into
brackets.
-/

namespace RequestFile

open Token

/-- Whether the brackets of a text match, at least `least` of them are open wherever a line ends,
and every `#` stands behind a quote on its line. -/
structure IsHeld (least : Nat) (cs : List Char) : Prop where
  closed : ∀ depth rest,
    depthAfter false false depth (cs ++ rest) = depthAfter false false depth rest
  inside : ∀ before after, cs = before ++ '\n' :: after → ∃ more, least ≤ more ∧ ∀ depth rest,
    depthAfter false false depth (before ++ rest) = depthAfter false false (depth + more) rest
  quoted : ∀ before after, cs = before ++ '#' :: after → ∃ front back,
    before = front ++ '"' :: back ∧ '\n' ∉ back

/-- A character of two texts put together stands in the first one or in the second one. -/
theorem of_append_eq_append_cons {cs ds before after : List Char} {c : Char}
    (split : cs ++ ds = before ++ c :: after) :
    (∃ more, cs = before ++ c :: more) ∨
      ∃ later, before = cs ++ later ∧ ds = later ++ c :: after := by
  rcases List.append_eq_append_iff.1 split with ⟨later, whole, rest⟩ | ⟨more, whole, rest⟩
  · exact .inr ⟨later, whole, rest⟩
  · cases more with
    | nil => exact .inr ⟨[], by simpa using whole.symm, rest.symm⟩
    | cons d more =>
      cases rest
      exact .inl ⟨more, whole⟩

/-- The characters that the scan looks at in a body, outside of quotations. -/
def structural : List Char :=
  ['"', '{', '[', '}', ']', '#']

theorem depthAfter_cons_of_plain {c : Char} (plain : c ∉ structural) (depth : Nat)
    (rest : List Char) :
    depthAfter false false depth (c :: rest) = depthAfter false false depth rest := by
  simp only [structural, List.mem_cons, List.not_mem_nil, or_false, not_or] at plain
  simp [depthAfter, plain]

theorem depthAfter_append_of_plain {cs : List Char} (plain : ∀ c ∈ cs, c ∉ structural)
    (depth : Nat) (rest : List Char) :
    depthAfter false false depth (cs ++ rest) = depthAfter false false depth rest := by
  induction cs with
  | nil => rfl
  | cons c cs ih =>
    rw [List.forall_mem_cons] at plain
    rw [List.cons_append, depthAfter_cons_of_plain plain.1, ih plain.2]

/-- In a quotation only quotes and backslashes are looked at. -/
theorem depthAfter_quoted_append {cs : List Char} (plain : ∀ c ∈ cs, c ≠ '"' ∧ c ≠ '\\')
    (depth : Nat) (rest : List Char) :
    depthAfter true false depth (cs ++ rest) = depthAfter true false depth rest := by
  induction cs with
  | nil => rfl
  | cons c cs ih =>
    rw [List.forall_mem_cons] at plain
    obtain ⟨⟨quote, escape⟩, others⟩ := plain
    have stays : (c != '"') = true := bne_iff_ne.2 quote
    rw [List.cons_append, depthAfter, if_neg (by simpa using escape), stays, ih others]

theorem depthAfter_escaped (c : Char) (depth : Nat) (rest : List Char) :
    depthAfter true false depth ('\\' :: c :: rest) = depthAfter true false depth rest :=
  rfl

namespace IsHeld

variable {least : Nat} {cs ds : List Char}

theorem mono {more : Nat} (held : IsHeld more cs) (fewer : least ≤ more) : IsHeld least cs := by
  refine ⟨held.closed, fun before after split => ?_, held.quoted⟩
  obtain ⟨some, enough, reached⟩ := held.inside before after split
  exact ⟨some, fewer.trans enough, reached⟩

/-- A text without quotes and brackets, if it need not be between brackets or is a part of one
line. -/
theorem of_plain (plain : ∀ c ∈ cs, c ∉ structural) (oneLine : least = 0 ∨ '\n' ∉ cs) :
    IsHeld least cs := by
  refine ⟨depthAfter_append_of_plain plain, ?_, ?_⟩
  · rintro before after rfl
    rcases oneLine with rfl | absent
    · refine ⟨0, le_rfl, depthAfter_append_of_plain fun c mem => ?_⟩
      exact plain c (List.mem_append_left _ mem)
    · simp at absent
  · rintro before after rfl
    exact absurd (by decide) (plain '#' (by simp))

/-- A quotation on one line. -/
theorem of_quotation (oneLine : '\n' ∉ cs) (ends : ∀ depth rest,
    depthAfter true false depth (cs ++ '"' :: rest) = depthAfter false false depth rest) :
    IsHeld least ('"' :: cs ++ ['"']) := by
  have whole : '\n' ∉ '"' :: cs ++ ['"'] := by simp [oneLine]
  refine ⟨fun depth rest => ?_, fun before after split => ?_, fun before after split => ?_⟩
  · rw [List.append_assoc, List.singleton_append]
    exact ends depth rest
  · rw [split] at whole
    simp at whole
  · cases before with
    | nil => exact absurd (List.cons.inj split).1 (by decide)
    | cons b back =>
      obtain ⟨rfl, inner⟩ := List.cons.inj split
      refine ⟨[], back, rfl, fun mem => whole ?_⟩
      rw [split]
      simp [mem]

/-- A `#` has a quote in front of it on its line. -/
theorem ne_number_sign (held : IsHeld least cs) {gap : List Char} (unquoted : '"' ∉ gap)
    (front after : List Char) : cs ≠ front ++ '\n' :: gap ++ '#' :: after := by
  intro split
  obtain ⟨before, back, whole, sameLine⟩ := held.quoted _ _ split
  rcases List.append_eq_append_iff.1 whole with ⟨start, -, rest⟩ | ⟨start, -, rest⟩
  · have quote : '"' ∈ '\n' :: gap := by simp [rest]
    rcases List.mem_cons.1 quote with same | mem
    · exact absurd same (by decide)
    · exact unquoted mem
  · cases start with
    | nil => exact absurd (List.cons.inj rest).1 (by decide)
    | cons c start =>
      apply sameLine
      rw [(List.cons.inj rest).2]
      simp

theorem append (left : IsHeld least cs) (right : IsHeld least ds) : IsHeld least (cs ++ ds) := by
  refine ⟨fun depth rest => ?_, fun before after split => ?_, fun before after split => ?_⟩
  · rw [List.append_assoc, left.closed, right.closed]
  · rcases of_append_eq_append_cons split with ⟨more, first⟩ | ⟨later, rfl, second⟩
    · exact left.inside before more first
    · obtain ⟨more, enough, reached⟩ := right.inside later after second
      refine ⟨more, enough, fun depth rest => ?_⟩
      rw [List.append_assoc, left.closed, reached]
  · rcases of_append_eq_append_cons split with ⟨more, first⟩ | ⟨later, rfl, second⟩
    · exact left.quoted before more first
    · obtain ⟨front, back, rfl, line⟩ := right.quoted later after second
      exact ⟨cs ++ front, back, by simp, line⟩

/-- In brackets one more bracket is open. -/
theorem bracket {opening closing : Char} (kind : (opening, closing) ∈ [('[', ']'), ('{', '}')])
    (held : IsHeld least cs) : IsHeld (least + 1) (opening :: cs ++ [closing]) := by
  have opens : ∀ depth rest, depthAfter false false depth (opening :: rest) =
      depthAfter false false (depth + 1) rest := by
    intro depth rest
    rcases List.mem_pair.1 kind with same | same
    all_goals
      cases same
      rfl
  have closes : ∀ depth rest, depthAfter false false (depth + 1) (closing :: rest) =
      depthAfter false false depth rest := by
    intro depth rest
    rcases List.mem_pair.1 kind with same | same
    all_goals
      cases same
      rfl
  have other : ∀ c ∈ ['\n', '#'], c ≠ opening ∧ c ≠ closing := by
    rcases List.mem_pair.1 kind with same | same
    all_goals
      cases same
      simp
  -- A line break and a `#` stand between the brackets.
  have within : ∀ c ∈ ['\n', '#'], ∀ before after,
      opening :: cs ++ [closing] = before ++ c :: after →
      ∃ front more, before = opening :: front ∧ cs = front ++ c :: more := by
    intro c known before after split
    cases before with
    | nil => exact absurd (List.cons.inj split).1.symm (other c known).1
    | cons b front =>
      obtain ⟨rfl, inner⟩ := List.cons.inj split
      rcases of_append_eq_append_cons inner with ⟨more, whole⟩ | ⟨later, -, last⟩
      · exact ⟨front, more, rfl, whole⟩
      · have mem : c ∈ [closing] := by
          rw [last]
          simp
        exact absurd (List.mem_singleton.1 mem) (other c known).2
  refine ⟨fun depth rest => ?_, fun before after split => ?_, fun before after split => ?_⟩
  · rw [List.append_assoc, List.cons_append, opens, held.closed, List.singleton_append, closes]
  · obtain ⟨front, more, rfl, rfl⟩ := within _ (by simp) before after split
    obtain ⟨more, enough, reached⟩ := held.inside front _ rfl
    refine ⟨more + 1, Nat.succ_le_succ enough, fun depth rest => ?_⟩
    rw [List.cons_append, opens, reached, Nat.add_assoc, Nat.add_comm 1]
  · obtain ⟨front, more, rfl, rfl⟩ := within _ (by simp) before after split
    obtain ⟨start, back, rfl, line⟩ := held.quoted front _ rfl
    exact ⟨opening :: start, back, rfl, line⟩

end IsHeld

end RequestFile
