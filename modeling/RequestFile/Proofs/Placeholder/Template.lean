import Mathlib
import RequestFile.Proofs.Placeholder.Written
import RequestFile.Proofs.Text.Blank

/-!
# Templates

A template is a text that is put together from plain chunks and placeholders, without escapes.
Cutting its text into segments gives back the pieces, whatever stands next to what.
-/

namespace RequestFile.Placeholder

open Text

/-! ## Characters -/

/-- The marks that stand for escaped braces. -/
def marks : List Char :=
  [openMark, closeMark]

/-- The characters that may not stand in a placeholder of a template. -/
def specials : List Char :=
  ['{', '}', '\\'] ++ marks

/-- Whether a character may stand in a placeholder of a template. -/
def isClean (c : Char) : Bool :=
  !specials.contains c

/-- Whether a character may stand between the placeholders of a template. -/
def isPlain (c : Char) : Bool :=
  isClean c && c != '$'

theorem isClean_iff {c : Char} : isClean c = true ↔ c ∉ specials := by
  simp [isClean]

/-- Characters of a kind are clean if none of the special ones is of that kind. -/
theorem isClean_of_kind {p : Char → Bool} (others : specials.all (!p ·) = true) {c : Char}
    (kind : p c = true) : isClean c = true := by
  rw [isClean_iff]
  intro special
  simpa [kind] using List.all_eq_true.1 others c special

theorem isClean_of_isBlank {c : Char} (blank : isBlank c = true) : isClean c = true :=
  isClean_of_kind (by decide) blank

theorem isInside_of_isClean {c : Char} (clean : isClean c = true) : isInside c = true := by
  rw [isClean_iff] at clean
  rw [isInside_iff]
  constructor
  · rintro rfl
    exact clean (by decide)
  · rintro rfl
    exact clean (by decide)

/-! ## Names -/

/-- Whether a text may be the name in double braces: not empty, without blanks at its ends. -/
def isCleanName (name : List Char) : Bool :=
  !name.isEmpty && trim name == name && name.all isClean

theorem isCleanName_iff {name : List Char} :
    isCleanName name = true ↔
      name ≠ [] ∧ trim name = name ∧ ∀ c ∈ name, isClean c = true := by
  simp [isCleanName, and_assoc]

/-- The characters of the names of environment variables. -/
theorem isNameChar_or_point {name : List Char} (named : isEnvironmentName name = true) :
    ∀ c ∈ name, (isNameChar c || c == '.') = true := by
  cases name with
  | nil => simp
  | cons c rest =>
    simp only [isEnvironmentName, Bool.and_eq_true, List.all_eq_true] at named
    rw [List.forall_mem_cons]
    refine ⟨?_, named.2⟩
    rcases Bool.or_eq_true_iff.1 named.1 with letter | line
    · simp [isNameChar, Char.isAlphanum, letter]
    · simp [isNameChar, line]

/-- A name is clean, and without blanks, if it can be that of an environment variable. -/
theorem isCleanName_of_isEnvironmentName {name : List Char}
    (named : isEnvironmentName name = true) : isCleanName name = true := by
  have chars := isNameChar_or_point named
  rw [isCleanName_iff]
  refine ⟨?_, trim_of_not_blank fun c mem => ?_, fun c mem => ?_⟩
  · rintro rfl
    cases named
  · rcases Bool.or_eq_true_iff.1 (chars c mem) with char | point
    · exact not_isBlank_of_isNameChar char
    · rw [beq_iff_eq.1 point]
      rfl
  · exact isClean_of_kind (p := fun c => isNameChar c || c == '.') (by decide) (chars c mem)

/-! ## Pieces -/

/-- A name with blanks on both sides. -/
structure Slot where
  before : List Char
  name : List Char
  after : List Char
  blank_before : allBlank before = true
  blank_after : allBlank after = true

/-- What stands between the braces. -/
def Slot.content (slot : Slot) : List Char :=
  slot.before ++ slot.name ++ slot.after

theorem Slot.trim_content {slot : Slot} (clean : isCleanName slot.name = true) :
    trim slot.content = slot.name := by
  rw [content, trim_append_of_blank (List.all_eq_true.1 slot.blank_after),
    trim_of_blank_append (List.all_eq_true.1 slot.blank_before), (isCleanName_iff.1 clean).2.1]

theorem Slot.isClean_of_mem_content {slot : Slot} (clean : isCleanName slot.name = true) :
    ∀ c ∈ slot.content, isClean c = true := by
  intro c mem
  rw [content, List.mem_append, List.mem_append] at mem
  rcases mem with (mem | mem) | mem
  · exact isClean_of_isBlank (List.all_eq_true.1 slot.blank_before c mem)
  · exact (isCleanName_iff.1 clean).2.2 c mem
  · exact isClean_of_isBlank (List.all_eq_true.1 slot.blank_after c mem)

/-- A piece of a template: a chunk of plain text, or a placeholder of one of the two forms. -/
inductive Piece where
  | chunk (cs : List Char) (plain : cs.all isPlain = true)
  | braces (slot : Slot) (clean : isCleanName slot.name = true)
  | dollar (slot : Slot) (named : isEnvironmentName slot.name = true)

namespace Piece

/-- A piece as written. -/
def source : Piece → List Char
  | chunk cs _ => cs
  | braces slot _ => (Segment.braces slot.content).source
  | dollar slot _ => (Segment.dollar slot.content).source

/-- The segments into which a piece is cut. -/
def segments : Piece → List Segment
  | chunk cs _ => cs.map .char
  | braces slot _ => [.braces slot.content]
  | dollar slot _ => [.dollar slot.content]

end Piece

/-- A template is the list of its pieces. -/
abbrev Template := List Piece

/-- The text of a template. -/
def Template.text (t : Template) : String :=
  String.ofList (t.flatMap Piece.source)

/-! ## Reading back -/

theorem mask_of_not_mem {cs : List Char} (plain : '\\' ∉ cs) : mask cs = cs := by
  induction cs with
  | nil => rfl
  | cons c cs ih =>
    rw [List.mem_cons, not_or] at plain
    rw [mask_cons_of_ne cs (Ne.symm plain.1), ih plain.2]

theorem unmaskChar_of_not_mem {c : Char} (unmarked : c ∉ marks) : unmaskChar c = [c] := by
  have neither : c ≠ openMark ∧ c ≠ closeMark := by simpa [marks] using unmarked
  simp [unmaskChar, neither]

theorem unmask_of_not_mem {cs : List Char} (unmarked : ∀ c ∈ cs, c ∉ marks) : unmask cs = cs := by
  induction cs with
  | nil => rfl
  | cons c cs ih =>
    rw [List.forall_mem_cons] at unmarked
    rw [unmask, List.flatMap_cons, unmaskChar_of_not_mem unmarked.1, List.singleton_append,
      ← unmask, ih unmarked.2]

theorem readDollar?_append {content : List Char} (rest : List Char)
    (named : isEnvironmentName (trim content) = true) (closed : ∀ c ∈ content, c ≠ '}') :
    readDollar? (content ++ '}' :: rest) = some (content, rest) := by
  have inside : ∀ c ∈ content, (c != '}') = true := by simpa using closed
  rw [readDollar?, List.takeWhile_append_of_pos inside, List.dropWhile_append_of_pos inside]
  simp [named]

/-- A placeholder of the second form is read back, and what follows is read after it. -/
theorem segments_dollar {content : List Char} (rest : List Char)
    (named : isEnvironmentName (trim content) = true) (closed : ∀ c ∈ content, c ≠ '}') :
    segments ('$' :: '{' :: content ++ '}' :: rest) = .dollar content :: segments rest := by
  have read := readDollar?_append rest named closed
  rw [List.cons_append, List.cons_append, Placeholder.segments]
  split
  · next more rest' h =>
    rw [read] at h
    cases h
    rfl
  · next h => simp [read] at h

theorem segments_chunk {cs : List Char} (plain : cs.all isPlain = true) (rest : List Char) :
    segments (cs ++ rest) = cs.map .char ++ segments rest := by
  induction cs with
  | nil => rfl
  | cons c cs ih =>
    rw [List.all_cons, Bool.and_eq_true, isPlain, Bool.and_eq_true, bne_iff_ne] at plain
    obtain ⟨⟨clean, dollar⟩, later⟩ := plain
    have brace : c ≠ '{' := (isInside_iff.1 (isInside_of_isClean clean)).1
    rw [List.cons_append, segments.eq_4, ih later, List.map_cons, List.cons_append]
    · exact fun _ same _ => brace same
    · exact fun _ same _ => dollar same

/-- Each piece is cut into its own segments, whatever follows. -/
theorem segments_source_append (p : Piece) (rest : List Char) :
    segments (p.source ++ rest) = p.segments ++ segments rest := by
  cases p with
  | chunk cs plain => exact segments_chunk plain rest
  | braces slot clean =>
    have filled : slot.content ≠ [] := by
      simp [Slot.content, (isCleanName_iff.1 clean).1]
    have inside : ∀ c ∈ slot.content, isInside c = true :=
      fun c mem => isInside_of_isClean (Slot.isClean_of_mem_content clean c mem)
    simpa [Piece.source, Piece.segments, Segment.source] using segments_braces rest filled inside
  | dollar slot named =>
    have clean := isCleanName_of_isEnvironmentName named
    have trimmed : isEnvironmentName (trim slot.content) = true := by
      rwa [Slot.trim_content clean]
    have closed : ∀ c ∈ slot.content, c ≠ '}' := fun c mem =>
      (isInside_iff.1 (isInside_of_isClean (Slot.isClean_of_mem_content clean c mem))).2
    simpa [Piece.source, Piece.segments, Segment.source] using segments_dollar rest trimmed closed

/-- The characters of a piece: its own, which are clean, and those that make it a placeholder. -/
theorem Piece.isClean_or_mem_of_mem_source {p : Piece} {c : Char} (mem : c ∈ p.source) :
    isClean c = true ∨ c ∈ ['{', '}', '$'] := by
  have content {slot : Slot} (clean : isCleanName slot.name = true) (mem : c ∈ slot.content) :
      isClean c = true :=
    Slot.isClean_of_mem_content clean c mem
  cases p with
  | chunk cs plain =>
    have plain := List.all_eq_true.1 plain c mem
    exact .inl (Bool.and_eq_true_iff.1 plain).1
  | braces slot clean =>
    simp only [source, Segment.source, List.mem_append, List.mem_cons, List.not_mem_nil,
      or_false, or_self] at mem ⊢
    rcases mem with (mark | mem) | mark
    · simp [mark]
    · exact .inl (content clean mem)
    · simp [mark]
  | dollar slot named =>
    simp only [source, Segment.source, List.mem_append, List.mem_cons, List.not_mem_nil,
      or_false] at mem ⊢
    rcases mem with (mark | mem) | mark
    · rcases mark with mark | mark <;> simp [mark]
    · exact .inl (content (isCleanName_of_isEnvironmentName named) mem)
    · simp [mark]

/-- Nothing in a piece is escaped or hidden. -/
theorem Piece.not_mem_source {p : Piece} {c : Char} (special : c ∈ '\\' :: marks) :
    c ∉ p.source := by
  intro mem
  rcases p.isClean_or_mem_of_mem_source mem with clean | other
  · exact isClean_iff.1 clean (List.mem_append_right ['{', '}'] special)
  · have apart : ['{', '}', '$'].all (!('\\' :: marks).contains ·) = true := by decide
    simpa [special] using List.all_eq_true.1 apart c other

/-- The text of a template is cut into the segments of its pieces. -/
theorem parse_template (t : Template) :
    Placeholder.parse t.text = t.flatMap Piece.segments := by
  have plain : '\\' ∉ t.flatMap Piece.source := by
    intro mem
    obtain ⟨p, -, mem⟩ := List.mem_flatMap.1 mem
    exact p.not_mem_source List.mem_cons_self mem
  rw [Placeholder.parse, Template.text, String.toList_ofList, mask_of_not_mem plain]
  clear plain
  induction t with
  | nil => simp [Placeholder.segments]
  | cons p t ih => rw [List.flatMap_cons, segments_source_append, ih, List.flatMap_cons]

end RequestFile.Placeholder
