import Mathlib
import RequestFile.Generator
import RequestFile.Proofs.Text.Blank

/-!
# Arguments as written

An argument is written in pieces, each of them bare or between quotes, and arguments are written
with gaps between them. What is written so is read back: the quotes are gone, the pieces are joined,
and an argument of which nothing is left is still an argument.
-/

namespace RequestFile.Generator

open Text

/-! ## How arguments are written -/

/-- How a piece of an argument is written. A bare piece has no blanks and no quotes; a piece between
quotes of one kind may be empty, and it may hold blanks and quotes of the other kind. -/
inductive WritesPiece : List Char → List Char → Prop
  | bare {content : List Char} (nonempty : content ≠ [])
      (plain : ∀ c ∈ content, isBlank c = false ∧ isQuote c = false) : WritesPiece content content
  | quoted {quote : Char} {content : List Char} (kind : quote = '"' ∨ quote = '\'')
      (absent : quote ∉ content) : WritesPiece content (quote :: (content ++ [quote]))

/-- How an argument is written: as one or more pieces. -/
inductive WritesArgument : List Char → List Char → Prop
  | last {content text : List Char} (piece : WritesPiece content text) :
      WritesArgument content text
  | cons {content text contents texts : List Char} (piece : WritesPiece content text)
      (rest : WritesArgument contents texts) : WritesArgument (content ++ contents) (text ++ texts)

/-- How arguments are written, with a gap between any two of them. -/
inductive WritesArguments : List (List Char) → List Char → Prop
  | nil : WritesArguments [] []
  | last {content text : List Char} (argument : WritesArgument content text) :
      WritesArguments [content] text
  | cons {content text gap texts : List Char} {arguments : List (List Char)}
      (argument : WritesArgument content text) (between : IsGap gap)
      (rest : WritesArguments arguments texts) :
      WritesArguments (content :: arguments) (text ++ (gap ++ texts))

/-! ## How they are read -/

theorem not_isQuote_of_isBlank {c : Char} (blank : isBlank c = true) : isQuote c = false := by
  rw [isQuote, Bool.or_eq_false_iff, beq_eq_false_iff_ne, beq_eq_false_iff_ne]
  constructor
  · rintro rfl
    cases blank
  · rintro rfl
    cases blank

section Read

variable {content text gap : List Char} (rest : List Char)

/-- A plain character begins an argument or is added to the one that has been begun. -/
theorem argumentsFrom_cons {c : Char} (solid : isBlank c = false) (noQuote : isQuote c = false)
    (current : Option (List Char)) :
    argumentsFrom none current (c :: rest) =
      argumentsFrom none (some (current.getD [] ++ [c])) rest := by
  simp [argumentsFrom, solid, noQuote]

theorem argumentsFrom_plain (plain : ∀ c ∈ content, isBlank c = false ∧ isQuote c = false)
    (begun : List Char) :
    argumentsFrom none (some begun) (content ++ rest) =
      argumentsFrom none (some (begun ++ content)) rest := by
  induction content generalizing begun with
  | nil => rw [List.nil_append, List.append_nil]
  | cons c more ih =>
    rw [List.forall_mem_cons] at plain
    obtain ⟨⟨solid, noQuote⟩, later⟩ := plain
    rw [List.append_cons begun, ← ih later]
    exact argumentsFrom_cons _ solid noQuote _

theorem argumentsFrom_quotation {quote : Char} (absent : quote ∉ content) (begun : List Char) :
    argumentsFrom (some quote) (some begun) (content ++ quote :: rest) =
      argumentsFrom none (some (begun ++ content)) rest := by
  induction content generalizing begun with
  | nil => simp [argumentsFrom]
  | cons c more ih =>
    rw [List.mem_cons, not_or] at absent
    obtain ⟨other, later⟩ := absent
    rw [List.append_cons begun, ← ih later]
    simp [argumentsFrom, Ne.symm other]

/-- A piece begins an argument or is added to the one that has been begun. -/
theorem WritesPiece.argumentsFrom_append (piece : WritesPiece content text)
    (current : Option (List Char)) :
    argumentsFrom none current (text ++ rest) =
      argumentsFrom none (some (current.getD [] ++ content)) rest := by
  cases piece with
  | bare nonempty plain =>
    obtain ⟨c, more, rfl⟩ := List.exists_cons_of_ne_nil nonempty
    rw [List.forall_mem_cons] at plain
    obtain ⟨⟨solid, noQuote⟩, later⟩ := plain
    rw [List.append_cons (current.getD []), ← argumentsFrom_plain rest later]
    exact argumentsFrom_cons _ solid noQuote current
  | @quoted quote _ kind absent =>
    have opens : isQuote quote = true := by
      rcases kind with rfl | rfl
      · rfl
      · rfl
    have closed := argumentsFrom_quotation rest absent (current.getD [])
    rw [← closed, List.cons_append, List.append_assoc, List.singleton_append]
    simp [argumentsFrom, opens]

/-- The pieces of an argument are joined. -/
theorem WritesArgument.argumentsFrom_append (argument : WritesArgument content text)
    (current : Option (List Char)) :
    argumentsFrom none current (text ++ rest) =
      argumentsFrom none (some (current.getD [] ++ content)) rest := by
  induction argument generalizing current with
  | last piece => exact piece.argumentsFrom_append rest current
  | cons piece _ ih =>
    rw [List.append_assoc, piece.argumentsFrom_append, ih, Option.getD_some, List.append_assoc]

theorem argumentsFrom_blank {c : Char} (blank : isBlank c = true) (current : Option (List Char)) :
    argumentsFrom none current (c :: rest) =
      current.toList ++ argumentsFrom none none rest := by
  simp [argumentsFrom, blank, not_isQuote_of_isBlank blank]

/-- Blanks in front of an argument do not count. -/
theorem argumentsFrom_of_blank (blank : ∀ c ∈ gap, isBlank c = true) :
    argumentsFrom none none (gap ++ rest) = argumentsFrom none none rest := by
  induction gap with
  | nil => rw [List.nil_append]
  | cons c more ih =>
    rw [List.forall_mem_cons] at blank
    rw [← ih blank.2]
    exact argumentsFrom_blank _ blank.1 none

/-- A gap ends the argument that has been begun. -/
theorem argumentsFrom_gap (between : IsGap gap) (current : Option (List Char)) :
    argumentsFrom none current (gap ++ rest) = current.toList ++ argumentsFrom none none rest := by
  obtain ⟨nonempty, blank⟩ := between
  obtain ⟨c, more, rfl⟩ := List.exists_cons_of_ne_nil nonempty
  rw [List.forall_mem_cons] at blank
  rw [← argumentsFrom_of_blank rest blank.2]
  exact argumentsFrom_blank _ blank.1 current

end Read

/-- At the end of a text the argument that has been begun is complete, with blanks behind it or
without. -/
theorem argumentsFrom_end {back : List Char} (blank : ∀ c ∈ back, isBlank c = true)
    (current : Option (List Char)) : argumentsFrom none current back = current.toList := by
  by_cases empty : back = []
  · rw [empty, argumentsFrom]
  · have ended := argumentsFrom_gap [] ⟨empty, blank⟩ current
    rw [List.append_nil, argumentsFrom, Option.toList_none, List.append_nil] at ended
    exact ended

theorem WritesArguments.argumentsFrom_append {args : List (List Char)} {text back : List Char}
    (written : WritesArguments args text) (blank : ∀ c ∈ back, isBlank c = true) :
    argumentsFrom none none (text ++ back) = args := by
  induction written with
  | nil => exact argumentsFrom_end blank none
  | last argument =>
    rw [argument.argumentsFrom_append, argumentsFrom_end blank]
    rfl
  | cons argument between _ ih =>
    rw [List.append_assoc, List.append_assoc, argument.argumentsFrom_append,
      argumentsFrom_gap _ between, ih]
    rfl

/-- Arguments are read back from each way to write them, with any blanks in front and behind: the
quotes are gone, the pieces of each argument are joined, and empty arguments are not lost. -/
theorem arguments_written {args : List (List Char)} {front text back : List Char}
    (written : WritesArguments args text) (blankFront : ∀ c ∈ front, isBlank c = true)
    (blankBack : ∀ c ∈ back, isBlank c = true) : arguments (front ++ (text ++ back)) = args := by
  rw [arguments, argumentsFrom_of_blank _ blankFront]
  exact written.argumentsFrom_append blankBack

/-- Three arguments behind a blank: a bare one, one in three pieces, and an empty one at the end. -/
theorem arguments_written_pieces :
    WritesArguments ["$x".toList, "a \"b'".toList, []] "$x\t'a \"'b\"'\" ''".toList ∧
    (∀ c ∈ "\u3000".toList, isBlank c = true) ∧
    arguments ("\u3000".toList ++ ("$x\t'a \"'b\"'\" ''".toList ++ [])) =
      ["$x".toList, "a \"b'".toList, []] := by
  have gap : ∀ b, isBlank b = true → IsGap [b] := by
    intro b blank
    exact ⟨by simp, by simpa using blank⟩
  have bare : WritesPiece ['$', 'x'] ['$', 'x'] := .bare (by simp) (by simp; decide)
  have single : WritesPiece ['a', ' ', '"'] ['\'', 'a', ' ', '"', '\''] :=
    .quoted (.inr rfl) (by decide)
  have plain : WritesPiece ['b'] ['b'] := .bare (by simp) (by simp; decide)
  have double : WritesPiece ['\''] ['"', '\'', '"'] := .quoted (.inl rfl) (by decide)
  have empty : WritesPiece [] ['\'', '\''] := .quoted (.inr rfl) (by decide)
  have written : WritesArguments ["$x".toList, "a \"b'".toList, []]
      "$x\t'a \"'b\"'\" ''".toList := by
    simpa using WritesArguments.cons (.last bare) (gap '\t' rfl)
      (.cons (.cons single (.cons plain (.last double))) (gap ' ' rfl) (.last (.last empty)))
  have blank : ∀ c ∈ "\u3000".toList, isBlank c = true := by simp; decide
  exact ⟨written, blank, arguments_written written blank (List.forall_mem_nil _)⟩

end RequestFile.Generator
