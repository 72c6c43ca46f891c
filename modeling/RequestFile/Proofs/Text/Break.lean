import Mathlib
import RequestFile.Assembly
import RequestFile.Proofs.Token.Run

/-!
# Line breaks

The lines of a file may end in any mixture of LF, CRLF and CR, with a byte-order mark in front of
the first. A reader that normalizes sees the same lines in all of these files, so it makes the same
document of them or reports the same error.
-/

namespace RequestFile

/-- What may stand between two lines of a file. -/
inductive Break where
  | lf
  | crlf
  | cr
deriving Repr, DecidableEq

namespace Break

/-- A break as written. -/
def chars : Break → List Char
  | lf => ['\n']
  | crlf => ['\r', '\n']
  | cr => ['\r']

/-- Only LF starts as LF does. -/
theorem head?_chars {b : Break} (other : b ≠ lf) : b.chars.head? = some '\r' := by
  cases b with
  | lf => exact absurd rfl other
  | crlf => rfl
  | cr => rfl

/-- A break is one line end, whichever it is. A CR is one of its own only if no LF follows it. -/
theorem unifyBreaks_append (b : Break) {cs : List Char}
    (single : b = cr → cs.head? ≠ some '\n') :
    Text.unifyBreaks (b.chars ++ cs) = '\n' :: Text.unifyBreaks cs := by
  cases b with
  | lf => exact Text.unifyBreaks_cons_of_ne (by decide) cs
  | crlf => rfl
  | cr =>
    rw [chars, List.singleton_append, Text.unifyBreaks.eq_3]
    rintro rest rfl
    exact single rfl rfl

end Break

/-- The characters behind the first line: each line behind the break in front of it. -/
def brokenChars (more : List (Break × String)) : List Char :=
  more.flatMap fun (b, line) => b.chars ++ line.toList

/-- The text with a first line and further lines, each behind a break. -/
def withBreaks (first : String) (more : List (Break × String)) : String :=
  first ++ String.ofList (brokenChars more)

/-- The lines of such a text. -/
def linesWithBreaks (first : String) (more : List (Break × String)) : List String :=
  first :: more.map Prod.snd

/-- Whether no CR is directly followed by an LF that is a break of its own. Together they would be a
CRLF, and the empty line between them would be none. -/
def BreaksApart (more : List (Break × String)) : Prop :=
  more.IsChain fun line next => ¬ (line = (.cr, "") ∧ next.1 = .lf)

instance : DecidablePred BreaksApart := fun more =>
  inferInstanceAs (Decidable (more.IsChain _))

/-! ## Normalization -/

namespace Text

/-- What stands on one line is kept, whatever follows. -/
theorem unifyBreaks_append_of_not_mem {cs : List Char} (absent : '\r' ∉ cs) (rest : List Char) :
    unifyBreaks (cs ++ rest) = cs ++ unifyBreaks rest := by
  induction cs with
  | nil => rfl
  | cons c cs ih =>
    rw [List.mem_cons, not_or] at absent
    rw [List.cons_append, unifyBreaks_cons_of_ne (Ne.symm absent.1), ih absent.2, List.cons_append]

end Text

/-- Behind a CR of its own no LF follows. -/
theorem BreaksApart.head?_ne {line : String} {rest : List (Break × String)}
    (apart : BreaksApart ((.cr, line) :: rest)) (whole : isOneLine line = true) :
    (line.toList ++ brokenChars rest).head? ≠ some '\n' := by
  intro feed
  cases chars : line.toList with
  | cons c cs =>
    rw [chars] at feed
    refine (not_mem_of_isOneLine whole).2 ?_
    rw [chars]
    exact List.mem_of_mem_head? feed
  | nil =>
    rw [chars, List.nil_append] at feed
    cases rest with
    | nil => cases feed
    | cons next rest =>
      have empty : line = "" := String.toList_eq_nil_iff.1 chars
      have other : next.1 ≠ .lf := fun same =>
        (List.isChain_cons_cons.1 apart).1 ⟨by rw [empty], same⟩
      have start := Break.head?_chars other
      rw [brokenChars, List.flatMap_cons, List.append_assoc,
        List.head?_append_of_ne_nil _ (by intro none; simp [none] at start), start] at feed
      cases feed

/-- Every break becomes one LF and nothing else changes. -/
theorem unifyBreaks_brokenChars {more : List (Break × String)}
    (whole : ∀ line ∈ more, isOneLine line.2 = true) (apart : BreaksApart more) :
    Text.unifyBreaks (brokenChars more) = more.flatMap fun line => '\n' :: line.2.toList := by
  induction more with
  | nil => rfl
  | cons line rest ih =>
    obtain ⟨b, line⟩ := line
    rw [List.forall_mem_cons] at whole
    have later := ih whole.2 (List.IsChain.tail apart)
    have single : b = .cr → (line.toList ++ brokenChars rest).head? ≠ some '\n' := by
      rintro rfl
      exact apart.head?_ne whole.1
    have split : brokenChars ((b, line) :: rest) =
        b.chars ++ (line.toList ++ brokenChars rest) := by
      rw [brokenChars, List.flatMap_cons, List.append_assoc, ← brokenChars]
    rw [split, b.unifyBreaks_append single,
      Text.unifyBreaks_append_of_not_mem (not_mem_of_isOneLine whole.1).1, later,
      List.flatMap_cons, List.cons_append]

theorem toList_intercalate_cons (first : String) (more : List String) :
    ("\n".intercalate (first :: more)).toList =
      first.toList ++ more.flatMap fun line => '\n' :: line.toList := by
  induction more generalizing first with
  | nil => simp
  | cons next rest ih =>
    rw [String.intercalate_cons_cons, String.toList_append, String.toList_append, ih,
      List.flatMap_cons, List.append_assoc]
    rfl

/-- Behind a first line without a byte-order mark, a text has none at its start either. -/
theorem head?_withBreaks {first : String} (unmarked : ∀ c ∈ first.toList.head?, c.toNat ≠ 0xFEFF)
    (more : List (Break × String)) :
    ∀ c ∈ (withBreaks first more).toList.head?, c.toNat ≠ 0xFEFF := by
  intro c start
  rw [withBreaks, String.toList_append, String.toList_ofList] at start
  cases chars : first.toList with
  | cons d cs =>
    rw [chars] at start unmarked
    exact unmarked c start
  | nil =>
    rw [chars, List.nil_append] at start
    cases more with
    | nil => cases start
    | cons line rest =>
      obtain ⟨b, line⟩ := line
      cases b <;> (cases start; decide)

section

variable {first : String} {more : List (Break × String)}

/-- Normalization makes LF of every break. -/
theorem normalize_withBreaks
    (whole : ∀ line ∈ linesWithBreaks first more, isOneLine line = true)
    (unmarked : ∀ c ∈ first.toList.head?, c.toNat ≠ 0xFEFF) (apart : BreaksApart more) :
    Text.normalize (withBreaks first more).toList =
      ("\n".intercalate (linesWithBreaks first more)).toList := by
  rw [linesWithBreaks, List.forall_mem_cons, List.forall_mem_map] at whole
  rw [Text.normalize, Text.dropMark_of_head (head?_withBreaks unmarked more), withBreaks,
    String.toList_append, String.toList_ofList,
    Text.unifyBreaks_append_of_not_mem (not_mem_of_isOneLine whole.1).1,
    unifyBreaks_brokenChars whole.2 apart, linesWithBreaks, toList_intercalate_cons,
    List.flatMap_map]

/-- Each line is a line of its own, with or without a byte-order mark in front of the first. -/
theorem linesOf_withBreaks
    (whole : ∀ line ∈ linesWithBreaks first more, isOneLine line = true)
    (unmarked : ∀ c ∈ first.toList.head?, c.toNat ≠ 0xFEFF) (apart : BreaksApart more) :
    linesOf (withBreaks first more) true = (linesWithBreaks first more).map String.toList ∧
    linesOf ("\uFEFF" ++ withBreaks first more) true =
      (linesWithBreaks first more).map String.toList := by
  have plain : linesOf (withBreaks first more) true =
      (linesWithBreaks first more).map String.toList := by
    rw [linesOf, if_pos rfl, normalize_withBreaks whole unmarked apart]
    exact lines_intercalate (List.cons_ne_nil first _) whole
  have dropped : Text.normalize ("\uFEFF" ++ withBreaks first more).toList =
      Text.normalize (withBreaks first more).toList := by
    rw [String.toList_append, Text.normalize, Text.normalize,
      Text.dropMark_of_head (head?_withBreaks unmarked more)]
    rfl
  refine ⟨plain, ?_⟩
  rw [linesOf, if_pos rfl, dropped, ← plain, linesOf, if_pos rfl]

/-- How the lines of a file end makes no difference to a reader that normalizes, and neither does a
byte-order mark: it sees the same lines, and comes to the same document or to the same error, as if
LF stood between all of them. -/
theorem parse_withBreaks
    (whole : ∀ line ∈ linesWithBreaks first more, isOneLine line = true)
    (unmarked : ∀ c ∈ first.toList.head?, c.toNat ≠ 0xFEFF) (apart : BreaksApart more)
    {options : Options} (normalizes : options.normalizeLineEndings = true) :
    ∀ mark ∈ ["", "\uFEFF"],
      linesOf (mark ++ withBreaks first more) true =
        (linesWithBreaks first more).map String.toList ∧
      parse (mark ++ withBreaks first more) options =
        parse ("\n".intercalate (linesWithBreaks first more)) options := by
  obtain ⟨plain, marked⟩ := linesOf_withBreaks whole unmarked apart
  have joined : linesOf ("\n".intercalate (linesWithBreaks first more)) true =
      (linesWithBreaks first more).map String.toList := by
    rw [linesOf, if_pos rfl, normalize_intercalate whole]
    · exact lines_intercalate (List.cons_ne_nil first _) whole
    · intro c start
      rcases head?_intercalate start with start | rfl
      · exact unmarked c start
      · decide
  have read : ∀ mark ∈ ["", "\uFEFF"], linesOf (mark ++ withBreaks first more) true =
      (linesWithBreaks first more).map String.toList := by
    rw [List.forall_mem_cons, List.forall_mem_singleton, String.empty_append]
    exact ⟨plain, marked⟩
  intro mark mem
  refine ⟨read mark mem, ?_⟩
  rw [parse, parse, normalizes, scan_eq, scan_eq, read mark mem, joined]

end

/-- The lines behind the first one of a request whose headers end with a CR, with an empty line more
before its body. -/
def mixedBreaks : List (Break × String) :=
  [(.crlf, "A: b"), (.cr, ""), (.crlf, ""), (.lf, "1"), (.cr, "")]

theorem parse_mixedBreaks :
    "\uFEFF" ++ withBreaks "POST https://x" mixedBreaks =
      "\uFEFFPOST https://x\r\nA: b\r\r\n\n1\r" ∧
    "\n".intercalate (linesWithBreaks "POST https://x" mixedBreaks) =
      "POST https://x\nA: b\n\n\n1\n" ∧
    parse ("\uFEFF" ++ withBreaks "POST https://x" mixedBreaks) {} =
      parse ("\n".intercalate (linesWithBreaks "POST https://x" mixedBreaks)) {} := by
  have same := @parse_withBreaks "POST https://x" mixedBreaks (by decide) (by simp) (by decide) {}
    rfl "\uFEFF" (by decide)
  exact ⟨by decide, by decide, same.2⟩

end RequestFile
