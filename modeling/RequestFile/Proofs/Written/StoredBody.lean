import Mathlib
import RequestFile.Proofs.Token.Bracket
import RequestFile.Proofs.Written.LiteralBody

/-!
# Bodies as they are stored

Of lines that are no comments, no file directives and no request lines, all are text of a body,
whatever brackets they open and wherever blank lines stand between them. Each is stored as it is
written, but a blank line where no bracket is open is stored as an empty one.
-/

namespace RequestFile

/-! ## Lines of a body -/

namespace Line

/-- Whether a line is text wherever it stands in a body: no comment, no file directive and no
request line. -/
def isText (line : List Char) : Bool :=
  !isComment line && !isFileDirective line && !isStandardRequest line

theorem isText_eq_true_iff {line : List Char} :
    isText line = true ↔
      isComment line = false ∧ isFileDirective line = false ∧ isStandardRequest line = false := by
  simp [isText, and_assoc]

end Line

/-- Lines that are a body: each of them is text, and the first and the last are not blank. -/
structure IsBodyText (texts : List String) : Prop where
  nonempty : texts ≠ []
  oneLine : ∀ s ∈ texts, isOneLine s = true
  isText : ∀ s ∈ texts, Line.isText (Text.trim s.toList) = true
  first : ∀ s ∈ texts.head?, isBlankText s = false
  last : ∀ s ∈ texts.getLast?, isBlankText s = false

/-! ## What is stored -/

/-- What is stored of a line in front of which some brackets are open. -/
def storedText (depth : Nat) (text : String) : String :=
  if depth = 0 ∧ isBlankText text = true then "" else text

/-- How many brackets are open behind lines of a body. -/
def openBehind (depth : Nat) (texts : List String) : Nat :=
  texts.foldl (fun depth text => Token.depthAfter false false depth text.toList) depth

/-- What is stored of lines in front of which some brackets are open. -/
def storedLines : (depth : Nat) → List String → List String
  | _, [] => []
  | depth, text :: rest => storedText depth text :: storedLines (openBehind depth [text]) rest

theorem storedText_of_not_blank {text : String} (filled : isBlankText text = false) (depth : Nat) :
    storedText depth text = text := by
  rw [storedText, filled]
  exact if_neg (by simp)

theorem isBlankText_storedText (depth : Nat) (text : String) :
    isBlankText (storedText depth text) = isBlankText text := by
  cases blank : isBlankText text with
  | false => rw [storedText_of_not_blank blank, blank]
  | true =>
    rw [storedText]
    split
    · rfl
    · exact blank

theorem isOneLine_storedText {text : String} (oneLine : isOneLine text = true) (depth : Nat) :
    isOneLine (storedText depth text) = true := by
  rw [storedText]
  split
  · rfl
  · exact oneLine

theorem storedText_eq_self_iff {depth : Nat} {text : String} :
    storedText depth text = text ↔ (depth = 0 → isBlankText text = true → text = "") := by
  rw [storedText]
  split
  · next empty => simp [empty, eq_comm]
  · next kept =>
    refine iff_of_true rfl fun closed blank => ?_
    exact absurd ⟨closed, blank⟩ kept

/-- Blanks are no brackets. -/
theorem openBehind_of_blank {text : String} (blank : isBlankText text = true) (depth : Nat) :
    openBehind depth [text] = depth := by
  rw [isBlankText, Text.allBlank, List.all_eq_true] at blank
  have plain : ∀ c ∈ text.toList, c ∉ structural := by
    intro c mem bracket
    have solid : ∀ c ∈ structural, Text.isBlank c = false := by
      simp [structural]
      decide
    have same := blank c mem
    rw [solid c bracket] at same
    cases same
  have scanned := depthAfter_append_of_plain plain depth []
  rw [List.append_nil] at scanned
  exact scanned

theorem head?_storedLines (depth : Nat) (texts : List String) :
    (storedLines depth texts).head? = texts.head?.map (storedText depth) := by
  cases texts <;> rfl

theorem mem_storedLines {depth : Nat} {texts : List String} {s : String}
    (mem : s ∈ storedLines depth texts) : ∃ depth', ∃ text ∈ texts, s = storedText depth' text := by
  induction texts generalizing depth with
  | nil => cases mem
  | cons text rest ih =>
    rcases List.mem_cons.1 mem with rfl | later
    · exact ⟨depth, text, List.mem_cons_self, rfl⟩
    · obtain ⟨depth', text', inside, same⟩ := ih later
      exact ⟨depth', text', List.mem_cons_of_mem _ inside, same⟩

theorem getLast?_storedLines (depth : Nat) (texts : List String) :
    (storedLines depth texts).getLast? =
      texts.getLast?.map (storedText (openBehind depth texts.dropLast)) := by
  induction texts generalizing depth with
  | nil => rfl
  | cons text rest ih =>
    cases rest with
    | nil => rfl
    | cons next rest =>
      have later := ih (openBehind depth [text])
      rw [storedLines, storedLines, List.getLast?_cons_cons]
      rw [storedLines] at later
      rw [later]
      rfl

/-- Lines are stored as they are written if and only if each blank line outside of brackets is
empty. -/
theorem storedLines_eq_self_iff {depth : Nat} {texts : List String} :
    storedLines depth texts = texts ↔ ∀ before text after, texts = before ++ text :: after →
      openBehind depth before = 0 → isBlankText text = true → text = "" := by
  induction texts generalizing depth with
  | nil => simp [storedLines]
  | cons text rest ih =>
    rw [storedLines, List.cons.injEq, storedText_eq_self_iff, ih]
    constructor
    · rintro ⟨first, later⟩ before line after split
      cases before with
      | nil =>
        obtain ⟨rfl, -⟩ := List.cons.inj split
        exact first
      | cons s before =>
        obtain ⟨rfl, behind⟩ := List.cons.inj split
        exact later before line after behind
    · intro all
      refine ⟨all [] text rest rfl, fun before line after split => ?_⟩
      exact all (text :: before) line after (by rw [split]; rfl)

/-! ## Reading -/

namespace Region

/-- A line that is text is stored wherever it stands in a body. -/
theorem step_text (afterBlank : Bool) (depth : Nat) {text : String}
    (isText : Line.isText (Text.trim text.toList) = true) :
    ∃ afterBlank', (body afterBlank depth).step text.toList =
      (some (.bodyLine (storedText depth text)), body afterBlank' (openBehind depth [text])) := by
  obtain ⟨noComment, noFile, noRequest⟩ := Line.isText_eq_true_iff.1 isText
  have noSeparator := Line.isSeparator_eq_false noComment
  have empty : isBlankText text = true ↔ Text.trim text.toList = [] := by
    rw [Text.trim_eq_nil_iff, ← List.all_eq_true]
    rfl
  by_cases blank : depth = 0 ∧ isBlankText text = true
  · obtain ⟨rfl, blank⟩ := blank
    rw [storedText, if_pos ⟨rfl, blank⟩, openBehind_of_blank blank, step_body noSeparator,
      empty.1 blank]
    exact ⟨true, rfl⟩
  · rw [storedText, if_neg blank]
    refine ⟨false, step_kept noSeparator fun closed => ?_⟩
    exact ⟨fun none => blank ⟨closed, empty.2 none⟩, noComment, noFile, fun _ => noRequest⟩

theorem exists_reads_storedLines (texts : List String) (afterBlank : Bool) (depth : Nat)
    (isText : ∀ s ∈ texts, Line.isText (Text.trim s.toList) = true) :
    ∃ afterBlank' depth', Reads (body afterBlank depth) (texts.map String.toList)
      (textTokens (storedLines depth texts)) (body afterBlank' depth') := by
  induction texts generalizing afterBlank depth with
  | nil => exact ⟨afterBlank, depth, .nil _⟩
  | cons text rest ih =>
    rw [List.forall_mem_cons] at isText
    obtain ⟨afterBlank₁, step⟩ := step_text afterBlank depth isText.1
    obtain ⟨afterBlank₂, depth₂, later⟩ := ih afterBlank₁ (openBehind depth [text]) isText.2
    exact ⟨afterBlank₂, depth₂, .cons step later⟩

end Region

/-! ## Parsing -/

theorem IsBodyText.storedLines_ne_nil {texts : List String} (isText : IsBodyText texts) :
    storedLines 0 texts ≠ [] := by
  obtain ⟨text, rest, rfl⟩ := List.exists_cons_of_ne_nil isText.nonempty
  exact List.cons_ne_nil _ _

theorem scan_bodyText {texts : List String} (isText : IsBodyText texts) :
    scan (literalText ("\n".intercalate texts)) =
      numbered 1 (literalTokens (storedLines 0 texts)) := by
  have oneLine : ∀ s ∈ "POST https://x" :: "" :: texts, isOneLine s = true := by
    rw [List.forall_mem_cons, List.forall_mem_cons]
    exact ⟨by decide, by decide, isText.oneLine⟩
  obtain ⟨afterBlank, depth, reads⟩ := Region.exists_reads_storedLines texts true 0 isText.isText
  rw [literalText_intercalate isText.nonempty]
  refine scan_intercalate oneLine ?_ (Region.reads_literalTokens reads)
  rw [← literalText_intercalate isText.nonempty]
  simp [literalText]

theorem requests_bodyText {texts : List String} (isText : IsBodyText texts) :
    (draftDocument {} (scan (literalText ("\n".intercalate texts)))).requests =
      [literalRequest ("\n".intercalate (storedLines 0 texts))] := by
  have noSpare : ∀ number, IsSpare (numbered number []) :=
    fun number => isSpare_of_forall_blank (List.forall_mem_nil _)
  have first : ∀ s ∈ (storedLines 0 texts).head?, isBlankText s = false := by
    rw [head?_storedLines]
    simpa [isBlankText_storedText] using isText.first
  have last : ∀ s ∈ (storedLines 0 texts).getLast?, isBlankText s = false := by
    rw [getLast?_storedLines]
    simpa [isBlankText_storedText] using isText.last
  have requests := requests_of_ends isText.storedLines_ne_nil first last noSpare
  rw [List.append_nil, ← scan_bodyText isText] at requests
  exact requests

theorem exists_parse_bodyText {texts : List String} (isText : IsBodyText texts) :
    ∃ d, parse (literalText ("\n".intercalate texts)) = .ok d ∧
      d.requests = [literalRequest ("\n".intercalate (storedLines 0 texts))] := by
  have requests := requests_bodyText isText
  refine ⟨_, parseTokens_eq_ok_iff.2 ⟨rfl, rfl, fun _ => ?_, nofun⟩, requests⟩
  rw [requests]
  rfl

/-- Lines that are text of a body make a single request, whose body is the lines as they are stored.
That is the lines as they are written if and only if each blank line outside of brackets is empty.
-/
theorem parse_bodyText {texts : List String} (isText : IsBodyText texts) :
    (∃ d, parse (literalText ("\n".intercalate texts)) = .ok d ∧
      d.requests = [literalRequest ("\n".intercalate (storedLines 0 texts))]) ∧
    ("\n".intercalate (storedLines 0 texts) = "\n".intercalate texts ↔
      ∀ before text after, texts = before ++ text :: after → openBehind 0 before = 0 →
        isBlankText text = true → text = "") := by
  refine ⟨exists_parse_bodyText isText, ?_⟩
  rw [← storedLines_eq_self_iff]
  constructor
  · refine eq_of_intercalate_eq isText.storedLines_ne_nil isText.nonempty ?_ isText.oneLine
    intro s mem
    obtain ⟨depth, text, inside, rfl⟩ := mem_storedLines mem
    exact isOneLine_storedText (isText.oneLine text inside) depth
  · exact congrArg _

/-- An empty line stands outside of the brackets, and one with a blank between them. -/
theorem parse_bodyText_brackets :
    IsBodyText ["a", "", "[", "\t", "]"] ∧
    ∃ d, parse (literalText "a\n\n[\n\t\n]") = .ok d ∧
      d.requests = [literalRequest "a\n\n[\n\t\n]"] := by
  have isText : IsBodyText ["a", "", "[", "\t", "]"] :=
    ⟨by decide, by decide +kernel, by decide +kernel, by decide +kernel, by decide +kernel⟩
  have stored : storedLines 0 ["a", "", "[", "\t", "]"] = ["a", "", "[", "\t", "]"] := by
    decide +kernel
  have read := (parse_bodyText isText).1
  rw [stored] at read
  exact ⟨isText, read⟩

/-- A blank between two lines of text is lost. -/
theorem parse_spacedLine :
    IsBodyText ["a", " ", "b"] ∧
    (∃ d, parse (literalText "a\n \nb") = .ok d ∧ d.requests = [literalRequest "a\n\nb"]) ∧
    literalRequest "a\n\nb" ≠ literalRequest "a\n \nb" := by
  have isText : IsBodyText ["a", " ", "b"] :=
    ⟨by decide, by decide +kernel, by decide +kernel, by decide +kernel, by decide +kernel⟩
  have stored : storedLines 0 ["a", " ", "b"] = ["a", "", "b"] := by decide +kernel
  have read := exists_parse_bodyText isText
  rw [stored] at read
  exact ⟨isText, read, by decide +kernel⟩

end RequestFile
