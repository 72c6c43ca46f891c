import Mathlib
import RequestFile.Proofs.Placeholder.Occurrence

/-!
# Escapes

While placeholders are looked for, escaped braces stand behind private marks. Putting the marks back
as they were written gives back every text without such marks. A text in which all double braces
have been escaped holds no placeholder, and showing what is hidden in it gives the text before
escaping.
-/

namespace RequestFile.Placeholder

/-! ## Escapes -/

/-- Whether a text has escaped braces. -/
def HasEscape (cs : List Char) : Prop :=
  ['\\', '{', '{'] <:+: cs ∨ ['\\', '}', '}'] <:+: cs

instance : DecidablePred HasEscape := fun _ =>
  inferInstanceAs (Decidable (_ ∨ _))

/-- Nothing is hidden in a text without escapes. -/
theorem mask_of_not_hasEscape {cs : List Char} (plain : ¬ HasEscape cs) : mask cs = cs := by
  induction cs with
  | nil => rfl
  | cons c rest ih =>
    have later : ¬ HasEscape rest := by
      intro escaped
      exact plain (escaped.imp List.infix_cons List.infix_cons)
    rw [mask_cons, ih later]
    rintro rfl
    by_contra braces
    rw [Bool.not_eq_false] at braces
    unfold startsWithBraces at braces
    split at braces
    · exact plain (.inl ⟨[], _, rfl⟩)
    · exact plain (.inr ⟨[], _, rfl⟩)
    · cases braces

/-! ## Marks -/

theorem not_mem_marks_of_all {cs : List Char} (unmarked : cs.all (!marks.contains ·) = true) :
    ∀ c ∈ cs, c ∉ marks := by
  intro c mem
  simpa using List.all_eq_true.1 unmarked c mem

/-- Escapes are put back as they were written. -/
theorem restore_mask (cs : List Char) : restore (mask cs) = restore cs := by
  induction cs using mask.induct with
  | case1 => rfl
  | case2 rest ih =>
    show ['\\', '{', '{'] ++ restore (mask rest) = ['\\', '{', '{'] ++ restore rest
    rw [ih]
  | case3 rest ih =>
    show ['\\', '}', '}'] ++ restore (mask rest) = ['\\', '}', '}'] ++ restore rest
    rw [ih]
  | case4 c rest opens closes ih =>
    rw [mask.eq_4 _ _ opens closes]
    show restoreChar c ++ restore (mask rest) = restoreChar c ++ restore rest
    rw [ih]

/-- Replacing each mark by several characters leaves the texts without marks as they are, and no
others. -/
theorem flatMap_eq_self_iff {f : Char → List Char} (kept : ∀ c, c ∉ marks → f c = [c])
    (longer : ∀ c ∈ marks, 1 < (f c).length) {cs : List Char} :
    cs.flatMap f = cs ↔ ∀ c ∈ cs, c ∉ marks := by
  have grows : ∀ ds : List Char, ds.length ≤ (ds.flatMap f).length := by
    intro ds
    induction ds with
    | nil => exact Nat.zero_le _
    | cons d ds ih =>
      have one : 1 ≤ (f d).length := by
        by_cases marked : d ∈ marks
        · exact (longer d marked).le
        · rw [kept d marked, List.length_singleton]
      simp only [List.flatMap_cons, List.length_append, List.length_cons]
      omega
  induction cs with
  | nil => simp
  | cons c cs ih =>
    rw [List.forall_mem_cons, List.flatMap_cons]
    by_cases marked : c ∈ marks
    · refine iff_of_false (fun whole => ?_) fun each => each.1 marked
      have lengths := congrArg List.length whole
      have more := longer c marked
      have rest := grows cs
      simp only [List.length_append, List.length_cons] at lengths
      omega
    · simp [kept c marked, marked, ih]

theorem unmask_eq_self_iff {cs : List Char} : unmask cs = cs ↔ ∀ c ∈ cs, c ∉ marks := by
  refine flatMap_eq_self_iff (fun _ => unmaskChar_of_not_mem) fun c marked => ?_
  rcases List.mem_pair.1 marked with rfl | rfl
  · exact Nat.le_refl 2
  · exact Nat.le_refl 2

theorem restoreChar_of_not_mem {c : Char} (unmarked : c ∉ marks) : restoreChar c = [c] := by
  have neither : c ≠ openMark ∧ c ≠ closeMark := by simpa [marks] using unmarked
  simp [restoreChar, neither]

theorem restore_eq_self_iff {cs : List Char} : restore cs = cs ↔ ∀ c ∈ cs, c ∉ marks := by
  refine flatMap_eq_self_iff (fun _ => restoreChar_of_not_mem) fun c marked => ?_
  rcases List.mem_pair.1 marked with rfl | rfl
  · exact Nat.le_succ 2
  · exact Nat.le_succ 2

/-! ## Escaping -/

/-- Puts other characters in the place of every two opening and every two closing braces, from left
to right. -/
def replaceBraces (opening closing : List Char) : List Char → List Char
  | [] => []
  | '{' :: '{' :: rest => opening ++ replaceBraces opening closing rest
  | '}' :: '}' :: rest => closing ++ replaceBraces opening closing rest
  | c :: rest => c :: replaceBraces opening closing rest

/-- Puts a backslash before every two opening or closing braces, from left to right. -/
def escape (cs : List Char) : List Char :=
  replaceBraces ['\\', '{', '{'] ['\\', '}', '}'] cs

/-- Puts a mark in the place of every two opening or closing braces, from left to right. -/
def hide (cs : List Char) : List Char :=
  replaceBraces [openMark] [closeMark] cs

/-- What stands in front does not come from two braces if it is not put in the place of any. -/
theorem exists_of_replaceBraces_eq_cons {opening closing cs more : List Char} {c : Char}
    (opens : ∀ rest, opening ++ rest ≠ c :: more) (closes : ∀ rest, closing ++ rest ≠ c :: more)
    (replaced : replaceBraces opening closing cs = c :: more) :
    ∃ rest, cs = c :: rest ∧ replaceBraces opening closing rest = more ∧
      ∀ later, c :: rest ≠ '{' :: '{' :: later ∧ c :: rest ≠ '}' :: '}' :: later := by
  revert replaced
  fun_cases replaceBraces opening closing cs with
  | case1 => exact nofun
  | case2 rest => exact fun replaced => absurd replaced (opens _)
  | case3 rest => exact fun replaced => absurd replaced (closes _)
  | case4 d rest notOpen notClose =>
    intro replaced
    obtain ⟨rfl, rfl⟩ := List.cons.inj replaced
    refine ⟨rest, rfl, rfl, fun later => ⟨fun same => ?_, fun same => ?_⟩⟩
    · cases same
      exact notOpen later rfl rfl
    · cases same
      exact notClose later rfl rfl

/-- Two braces in an escaped text have a backslash in front of them. -/
theorem startsWithBraces_escape (cs : List Char) : startsWithBraces (escape cs) = false := by
  -- The two braces would stand at the start of the text before escaping.
  have apart {c : Char} {more : List Char} (other : c ≠ '\\') (brace : c = '{' ∨ c = '}') :
      escape cs ≠ c :: c :: more := by
    have put {front rest after : List Char} : '\\' :: front ++ rest ≠ c :: after :=
      fun same => other (List.cons.inj same).1.symm
    intro written
    obtain ⟨rest, rfl, written, single⟩ :=
      exists_of_replaceBraces_eq_cons (fun _ => put) (fun _ => put) written
    obtain ⟨later, rfl, -⟩ :=
      exists_of_replaceBraces_eq_cons (fun _ => put) (fun _ => put) written
    rcases brace with rfl | rfl
    · exact (single later).1 rfl
    · exact (single later).2 rfl
  unfold startsWithBraces
  split
  · next more written => exact absurd written (apart (by decide) (.inl rfl))
  · next more written => exact absurd written (apart (by decide) (.inr rfl))
  · rfl

/-- All that is hidden in an escaped text is what escaping has put there. -/
theorem mask_escape (cs : List Char) : mask (escape cs) = hide cs := by
  induction cs using replaceBraces.induct with
  | case1 => rfl
  | case2 rest ih =>
    show openMark :: mask (escape rest) = openMark :: hide rest
    rw [ih]
  | case3 rest ih =>
    show closeMark :: mask (escape rest) = closeMark :: hide rest
    rw [ih]
  | case4 c rest opens closes ih =>
    rw [escape, hide, replaceBraces.eq_4 _ _ _ _ opens closes,
      replaceBraces.eq_4 _ _ _ _ opens closes, ← escape, ← hide,
      mask_cons fun _ => startsWithBraces_escape rest, ih]

/-- Showing what is hidden in a text gives back the text. -/
theorem unmask_hide {cs : List Char} (unmarked : ∀ c ∈ cs, c ∉ marks) : unmask (hide cs) = cs := by
  induction cs using replaceBraces.induct with
  | case1 => rfl
  | case2 rest ih =>
    rw [List.forall_mem_cons, List.forall_mem_cons] at unmarked
    show ['{', '{'] ++ unmask (hide rest) = '{' :: '{' :: rest
    rw [ih unmarked.2.2]
    rfl
  | case3 rest ih =>
    rw [List.forall_mem_cons, List.forall_mem_cons] at unmarked
    show ['}', '}'] ++ unmask (hide rest) = '}' :: '}' :: rest
    rw [ih unmarked.2.2]
    rfl
  | case4 c rest opens closes ih =>
    rw [List.forall_mem_cons] at unmarked
    rw [hide, replaceBraces.eq_4 _ _ _ _ opens closes, ← hide]
    show unmaskChar c ++ unmask (hide rest) = c :: rest
    rw [ih unmarked.2, unmaskChar_of_not_mem unmarked.1]
    rfl

/-- Escaping adds no characters but backslashes. -/
theorem mem_of_mem_escape {cs : List Char} {c : Char} (other : c ≠ '\\') (mem : c ∈ escape cs) :
    c ∈ cs := by
  unfold escape at mem
  fun_induction replaceBraces ['\\', '{', '{'] ['\\', '}', '}'] cs with
  | case1 => cases mem
  | case2 rest ih =>
    simp only [List.cons_append, List.nil_append, List.mem_cons, other, false_or] at mem ⊢
    exact mem.imp_right (Or.imp_right ih)
  | case3 rest ih =>
    simp only [List.cons_append, List.nil_append, List.mem_cons, other, false_or] at mem ⊢
    exact mem.imp_right (Or.imp_right ih)
  | case4 d rest opens closes ih =>
    rcases List.mem_cons.1 mem with rfl | mem
    · exact List.mem_cons_self
    · exact List.mem_cons_of_mem d (ih mem)

/-- A text that escaping changes has escapes afterwards. -/
theorem escape_eq_or_hasEscape (cs : List Char) : escape cs = cs ∨ HasEscape (escape cs) := by
  unfold escape
  fun_induction replaceBraces ['\\', '{', '{'] ['\\', '}', '}'] cs with
  | case1 => exact .inl rfl
  | case2 rest => exact .inr (.inl ⟨[], escape rest, rfl⟩)
  | case3 rest => exact .inr (.inr ⟨[], escape rest, rfl⟩)
  | case4 c rest opens closes ih =>
    rcases ih with same | escaped
    · exact .inl (by rw [same])
    · exact .inr (escaped.imp List.infix_cons List.infix_cons)

/-! ## Placeholders in escaped texts -/

/-- A placeholder starts with two opening braces or with a dollar sign and a brace. -/
theorem exists_start_of_hasPlaceholder {cs : List Char} (placed : HasPlaceholder cs) :
    ∃ c, (c = '{' ∨ c = '$') ∧ [c, '{'] <:+: cs := by
  obtain ⟨segment, placeholder, inside⟩ := placed
  obtain ⟨c, inner, source, starts, -⟩ := placeholder.exists_source_eq
  have start : [c, '{'] <+: segment.source := ⟨_, source.symm⟩
  exact ⟨c, starts, start.isInfix.trans inside⟩

/-- A brace that is not hidden has no brace in front of it. -/
theorem infix_of_infix_hide {cs : List Char} {c : Char} (unmarked : c ∉ marks)
    (inside : [c, '{'] <:+: hide cs) : c ≠ '{' ∧ [c, '{'] <:+: cs := by
  unfold hide at inside
  fun_induction replaceBraces [openMark] [closeMark] cs with
  | case1 => simp at inside
  | case2 rest ih =>
    rcases List.infix_cons_iff.1 inside with ⟨more, start⟩ | inside
    · obtain ⟨rfl, -⟩ := List.cons.inj start
      exact absurd List.mem_cons_self unmarked
    · exact (ih inside).imp id fun found => List.infix_cons (List.infix_cons found)
  | case3 rest ih =>
    rcases List.infix_cons_iff.1 inside with ⟨more, start⟩ | inside
    · obtain ⟨rfl, -⟩ := List.cons.inj start
      exact absurd (List.mem_cons_of_mem _ List.mem_cons_self) unmarked
    · exact (ih inside).imp id fun found => List.infix_cons (List.infix_cons found)
  | case4 d rest opens closes ih =>
    rcases List.infix_cons_iff.1 inside with ⟨more, start⟩ | inside
    · obtain ⟨rfl, behind⟩ := List.cons.inj start
      obtain ⟨later, rfl, -⟩ := exists_of_replaceBraces_eq_cons
        (fun _ same => absurd (List.cons.inj same).1 (by decide))
        (fun _ same => absurd (List.cons.inj same).1 (by decide)) behind.symm
      refine ⟨?_, [], later, rfl⟩
      rintro rfl
      exact opens later rfl rfl
    · exact (ih inside).imp id List.infix_cons

/-- Without a dollar sign in front of a brace, hiding all double braces leaves no placeholder. -/
theorem not_hasPlaceholder_hide {cs : List Char} (plain : ¬ ['$', '{'] <:+: cs) :
    ¬ HasPlaceholder (hide cs) := by
  intro placed
  obtain ⟨c, rfl | rfl, inside⟩ := exists_start_of_hasPlaceholder placed
  · exact (infix_of_infix_hide (by decide) inside).1 rfl
  · exact plain (infix_of_infix_hide (by decide) inside).2

end RequestFile.Placeholder
