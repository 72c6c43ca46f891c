import Mathlib
import RequestFile.Placeholder

/-!
# One pass instead of two

Line ends are unified, and escaped braces are hidden and shown again, by a single walk over the
text. The same comes of two replacements, one after the other: first every CRLF and then every CR,
first the opening braces and then the closing ones. For escapes this needs that the first
replacement puts in nothing that the second one looks for.
-/

namespace RequestFile

namespace Text

/-- Replaces each occurrence of a text that is not empty by another text, from left to right. The
search goes on behind the occurrence. -/
def replace (part new : List Char) : List Char → List Char
  | [] => []
  | c :: rest =>
    if part <+: c :: rest then new ++ replace part new (rest.drop (part.length - 1))
    else c :: replace part new rest
termination_by cs => cs.length
decreasing_by
  · rw [List.length_drop, List.length_cons]
    omega
  · exact Nat.lt_succ_self _

/-! ## One replacement -/

variable {part new rest cs : List Char} {c d : Char}

theorem replace_nil : replace part new [] = [] := by
  rw [replace]

theorem replace_cons (other : ¬ part <+: c :: rest) :
    replace part new (c :: rest) = c :: replace part new rest := by
  rw [replace, if_neg other]

theorem replace_cons_of_ne (other : d ≠ c) :
    replace (c :: part) new (d :: rest) = d :: replace (c :: part) new rest := by
  apply replace_cons
  intro found
  exact other (List.cons_prefix_cons.1 found).1.symm

theorem replace_append : replace (c :: part) new (c :: part ++ rest) =
    new ++ replace (c :: part) new rest := by
  have found : c :: part <+: c :: (part ++ rest) := List.prefix_append (c :: part) rest
  rw [List.cons_append, replace, if_pos found, List.length_cons, Nat.add_sub_cancel,
    List.drop_left]

/-- A single character is replaced wherever it stands. -/
theorem replace_singleton (c : Char) (new cs : List Char) :
    replace [c] new cs = cs.flatMap fun d => if d = c then new else [d] := by
  induction cs with
  | nil => exact replace_nil
  | cons d rest ih =>
    rw [List.flatMap_cons, ← ih]
    by_cases same : d = c
    · rw [if_pos same, same]
      exact replace_append
    · rw [if_neg same]
      exact replace_cons_of_ne same

/-- What stands at the start after a replacement has stood there before, if the text that has been
put in does not begin with one of its characters. -/
theorem isPrefix_of_isPrefix_replace {mark : Char} {start : List Char} (absent : mark ∉ start)
    (found : start <+: replace part [mark] cs) : start <+: cs := by
  induction start generalizing cs with
  | nil => exact List.nil_prefix
  | cons c start ih =>
    rw [List.mem_cons, not_or] at absent
    cases cs with
    | nil =>
      rw [replace_nil] at found
      exact found
    | cons d rest =>
      by_cases replaced : part <+: d :: rest
      · rw [replace, if_pos replaced, List.singleton_append, List.cons_prefix_cons] at found
        exact absurd found.1.symm absent.1
      · rw [replace_cons replaced, List.cons_prefix_cons] at found
        exact List.cons_prefix_cons.2 ⟨found.1, ih absent.2 found.2⟩

/-! ## Line ends -/

/-- Line ends are unified by turning every CRLF into an LF and then every CR that is left. -/
theorem unifyBreaks_eq_replace (cs : List Char) :
    unifyBreaks cs = replace ['\r'] ['\n'] (replace ['\r', '\n'] ['\n'] cs) := by
  induction cs using unifyBreaks.induct with
  | case1 => rw [replace_nil, replace_nil, unifyBreaks]
  | case2 rest ih =>
    have first : replace ['\r', '\n'] ['\n'] ('\r' :: '\n' :: rest) =
        '\n' :: replace ['\r', '\n'] ['\n'] rest := replace_append
    rw [unifyBreaks, first, replace_cons_of_ne (by decide), ih]
  | case3 rest alone ih =>
    have kept : ¬ ['\r', '\n'] <+: '\r' :: rest := by
      intro found
      obtain ⟨behind, same⟩ := (List.cons_prefix_cons.1 found).2
      exact alone behind same.symm
    have second : ∀ behind, replace ['\r'] ['\n'] ('\r' :: behind) =
        '\n' :: replace ['\r'] ['\n'] behind := fun _ => replace_append
    rw [unifyBreaks.eq_3 rest alone, replace_cons kept, second, ih]
  | case4 c rest crlf cr ih =>
    have other : c ≠ '\r' := fun same => cr same
    rw [unifyBreaks.eq_4 c rest crlf cr, replace_cons_of_ne other, replace_cons_of_ne other, ih]

end Text

/-! ## Marks -/

namespace Placeholder

open Text (replace)

/-- Escapes are hidden by replacing first the opening braces and then the closing ones. -/
theorem mask_eq_replace (cs : List Char) :
    mask cs = replace ['\\', '}', '}'] [closeMark] (replace ['\\', '{', '{'] [openMark] cs) := by
  induction cs using mask.induct with
  | case1 => rw [Text.replace_nil, Text.replace_nil, mask]
  | case2 rest ih =>
    have first : replace ['\\', '{', '{'] [openMark] ('\\' :: '{' :: '{' :: rest) =
        openMark :: replace ['\\', '{', '{'] [openMark] rest := Text.replace_append
    rw [mask, first, Text.replace_cons_of_ne (by decide), ih]
  | case3 rest ih =>
    have kept : ¬ ['\\', '{', '{'] <+: '\\' :: '}' :: '}' :: rest := by
      intro found
      simp [List.cons_prefix_cons] at found
    have first : replace ['\\', '{', '{'] [openMark] ('\\' :: '}' :: '}' :: rest) =
        '\\' :: '}' :: '}' :: replace ['\\', '{', '{'] [openMark] rest := by
      rw [Text.replace_cons kept, Text.replace_cons_of_ne (by decide),
        Text.replace_cons_of_ne (by decide)]
    have second : ∀ behind, replace ['\\', '}', '}'] [closeMark] ('\\' :: '}' :: '}' :: behind) =
        closeMark :: replace ['\\', '}', '}'] [closeMark] behind := fun _ => Text.replace_append
    rw [mask, first, second, ih]
  | case4 c rest opens closes ih =>
    have notOpening : ¬ ['\\', '{', '{'] <+: c :: rest := by
      intro found
      obtain ⟨same, behind, braces⟩ := List.cons_prefix_cons.1 found
      exact opens behind same.symm braces.symm
    -- The first replacement brings no closing brace next to a backslash.
    have notClosing :
        ¬ ['\\', '}', '}'] <+: c :: replace ['\\', '{', '{'] [openMark] rest := by
      intro found
      obtain ⟨same, braces⟩ := List.cons_prefix_cons.1 found
      obtain ⟨behind, before⟩ := Text.isPrefix_of_isPrefix_replace (by decide) braces
      exact closes behind same.symm before.symm
    rw [mask.eq_4 c rest opens closes, Text.replace_cons notOpening, Text.replace_cons notClosing,
      ih]

/-- Marks are shown as braces by replacing first the ones and then the others. -/
theorem unmask_eq_replace (cs : List Char) :
    unmask cs = replace [closeMark] ['}', '}'] (replace [openMark] ['{', '{'] cs) := by
  rw [Text.replace_singleton, Text.replace_singleton, List.flatMap_assoc]
  apply List.flatMap_congr
  intro c _
  by_cases opening : c = openMark
  · subst opening
    decide
  · simp [unmaskChar, opening]

/-- Escapes are put back by replacing first the one mark and then the other. -/
theorem restore_eq_replace (cs : List Char) :
    restore cs = replace [closeMark] ['\\', '}', '}'] (replace [openMark] ['\\', '{', '{'] cs) := by
  rw [Text.replace_singleton, Text.replace_singleton, List.flatMap_assoc]
  apply List.flatMap_congr
  intro c _
  by_cases opening : c = openMark
  · subst opening
    decide
  · simp [restoreChar, opening]

end Placeholder

end RequestFile
