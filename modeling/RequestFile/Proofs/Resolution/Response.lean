import Mathlib
import RequestFile.Proofs.ResponseReference
import RequestFile.Proofs.Snapshot

/-!
# Responses in one pass

A text that is put together from plain chunks and references to responses is resolved piece by
piece: each reference gives way to its value, or stays as it is written if it has none. Values go
into the text as they are; what looks like a reference in one of them is not looked at.
-/

namespace RequestFile

open Placeholder

/-! ## Values of references -/

/-- The value that is given last under a name. -/
def Table.IsLastGiven {α : Type} (entries : List (String × α)) (name : String) (value : α) : Prop :=
  ∃ before after, entries = before ++ (name, value) :: after ∧ ∀ entry ∈ after, entry.1 ≠ name

theorem Table.get?_ofList_eq_some_iff {α : Type} {entries : List (String × α)} {name : String}
    {value : α} : (ofList entries).get? name = some value ↔ IsLastGiven entries name value := by
  have last : (ofList entries).get? name =
      (entries.reverse.find? (·.1 = name)).map Prod.snd := by
    rw [← List.getLast?_filter, show ofList entries = empty.insertAll entries from rfl,
      get?_insertAll, get?_empty, Option.or_none]
  simp only [last, Option.map_eq_some_iff, List.find?_eq_some_iff_append, decide_eq_true_eq,
    Bool.not_eq_eq_eq_not, Bool.not_true, decide_eq_false_iff_not]
  constructor
  · rintro ⟨⟨_, _⟩, ⟨rfl, after, before, split, others⟩, rfl⟩
    refine ⟨before.reverse, after.reverse, ?_, by simpa using others⟩
    rw [← List.reverse_inj, split]
    simp
  · rintro ⟨before, after, rfl, others⟩
    exact ⟨(name, value), ⟨rfl, after.reverse, before.reverse, by simp, by simpa using others⟩, rfl⟩

/-- Whether a value is the answer to a reference: that part of the response which is stored last
under the name of the request. -/
def Answers (stored : List (String × Snapshot)) (name part value : String) : Prop :=
  ∃ s, Table.IsLastGiven stored name s ∧ s.Has part value

theorem Responses.value?_eq_some_iff {stored : List (String × Snapshot)}
    {name part value : String} :
    Responses.value? (.ofList stored) name.toList part.toList = some value ↔
      Answers stored name part value := by
  simp only [value?, Option.bind_eq_some_iff, String.ofList_toList, Table.get?_ofList_eq_some_iff,
    Snapshot.part?_eq_some_iff, Answers]

/-! ## Pieces -/

theorem responseReference?_of_blank_append {gap : List Char}
    (blank : ∀ c ∈ gap, Text.isBlank c = true) (cs : List Char) :
    responseReference? (gap ++ cs) = responseReference? cs := by
  simp only [responseReference?, Text.trimStart_append_of_blank blank]

/-- A reference to a part of a response, with blanks at its ends. -/
structure Reference where
  before : List Char
  name : String
  part : String
  after : List Char
  blank_before : Text.allBlank before = true
  blank_after : Text.allBlank after = true
  named : name ≠ ""
  name_chars : isNameText name = true
  clean_part : isCleanName part.toList = true

namespace Reference

/-- What stands between the blanks. -/
def words (r : Reference) : List Char :=
  r.name.toList ++ responseMark ++ r.part.toList

/-- What stands between the braces. -/
def content (r : Reference) : List Char :=
  r.before ++ r.words ++ r.after

/-- A reference as written. -/
def source (r : Reference) : List Char :=
  (Segment.braces r.content).source

variable (r : Reference)

theorem isClean_of_mem_content : ∀ c ∈ r.content, isClean c = true := by
  have blank {cs : List Char} (blank : Text.allBlank cs = true) : ∀ c ∈ cs, isClean c = true :=
    fun c mem => isClean_of_isBlank (List.all_eq_true.1 blank c mem)
  have name : ∀ c ∈ r.name.toList, isClean c = true := fun c mem =>
    @isClean_of_kind Text.isNameChar (by decide) c (List.all_eq_true.1 r.name_chars c mem)
  have mark : ∀ c ∈ responseMark, isClean c = true := List.all_eq_true.1 (by decide)
  simp only [content, words, List.forall_mem_append]
  exact ⟨⟨blank r.blank_before, ⟨name, mark⟩, (isCleanName_iff.1 r.clean_part).2.2⟩,
    blank r.blank_after⟩

theorem content_ne_nil : r.content ≠ [] := by
  simp [content, words, responseMark]

/-- The name and the part are read back as they are written, without the blanks at the ends. -/
theorem responseReference?_content :
    responseReference? r.content = some (r.name.toList, r.part.toList) := by
  obtain ⟨asked, tight, -⟩ := isCleanName_iff.1 r.clean_part
  have split : r.content =
      r.before ++ (r.name.toList ++ responseMark ++ (r.part.toList ++ r.after)) := by
    simp [content, words]
  rw [split, responseReference?_of_blank_append (List.all_eq_true.1 r.blank_before),
    responseReference?_append (List.all_eq_true.1 r.name_chars)
      (not_isBlank_of_isNameText r.name_chars) (toList_ne_nil r.named) (by simp [asked]),
    Text.trim_append_of_blank (List.all_eq_true.1 r.blank_after), tight]

end Reference

/-- A piece of a text with references to responses: a chunk without braces, or a reference. -/
inductive ResponsePiece where
  | chunk (cs : List Char) (clean : cs.all isClean = true)
  | reference (r : Reference)

namespace ResponsePiece

/-- A piece as written. -/
def source : ResponsePiece → List Char
  | chunk cs _ => cs
  | reference r => r.source

/-- The segments into which a piece is cut. -/
def segments : ResponsePiece → List Segment
  | chunk cs _ => cs.map .char
  | reference r => [.braces r.content]

/-- What a piece gives: a chunk itself, a reference its value, or itself if it has none. -/
inductive Yields (stored : List (String × Snapshot)) : ResponsePiece → List Char → Prop
  | chunk {cs : List Char} {clean : cs.all isClean = true} : Yields stored (chunk cs clean) cs
  | value {r : Reference} {value : String} :
      Answers stored r.name r.part value → Yields stored (reference r) value.toList
  | verbatim {r : Reference} :
      (∀ value, ¬ Answers stored r.name r.part value) → Yields stored (reference r) r.source

end ResponsePiece

/-- A text with references to responses is the list of its pieces. -/
abbrev ResponseTemplate := List ResponsePiece

namespace ResponseTemplate

/-- The text of the pieces. -/
def text (t : ResponseTemplate) : String :=
  String.ofList (t.flatMap ResponsePiece.source)

/-- What the pieces give, one after the other. -/
inductive Yields (stored : List (String × Snapshot)) : ResponseTemplate → List Char → Prop
  | nil : Yields stored [] []
  | cons {p : ResponsePiece} {t : ResponseTemplate} {out rest : List Char} :
      p.Yields stored out → Yields stored t rest → Yields stored (p :: t) (out ++ rest)

end ResponseTemplate

/-! ## Cutting -/

namespace Placeholder

/-- A character in front of double braces, or of another character than a brace, starts no
placeholder. -/
theorem segments_cons_of_next (c : Char) {rest : List Char}
    (next : ∀ more, rest = '{' :: more → more.head? = some '{') :
    segments (c :: rest) = .char c :: segments rest := by
  rcases segments_cons c rest with cut | ⟨segment, more, placeholder, whole, -⟩
  · exact cut
  · obtain ⟨d, inner, source, starts, plain⟩ := placeholder.exists_source_eq
    rw [source, List.cons_append, List.cons_append] at whole
    obtain ⟨-, rest_eq⟩ := List.cons.inj whole
    have second := next _ rest_eq
    cases inner with
    | nil => cases second
    | cons e inner =>
      rw [List.cons_append, List.cons_append, List.head?_cons, Option.some_inj] at second
      exact absurd second (plain e List.mem_cons_self)

/-- Clean characters are cut off one by one in front of a text that starts with double braces if it
starts with a brace. -/
theorem segments_append_of_clean {cs : List Char} (clean : cs.all isClean = true)
    {rest : List Char} (next : ∀ more, rest = '{' :: more → more.head? = some '{') :
    segments (cs ++ rest) = cs.map .char ++ segments rest := by
  induction cs with
  | nil => rfl
  | cons c cs ih =>
    rw [List.all_cons, Bool.and_eq_true] at clean
    rw [List.cons_append, segments_cons_of_next, ih clean.2]
    · rfl
    · cases cs with
      | nil => exact next
      | cons d cs =>
        rw [List.all_cons, Bool.and_eq_true] at clean
        intro more same
        exact absurd (List.cons.inj same).1 (isInside_iff.1 (isInside_of_isClean clean.2.1)).1

end Placeholder

namespace ResponseTemplate

/-- Where a text with references starts with a brace, a reference starts. -/
theorem head?_of_source_eq_cons {t : ResponseTemplate} {more : List Char}
    (start : t.flatMap ResponsePiece.source = '{' :: more) : more.head? = some '{' := by
  induction t with
  | nil => cases start
  | cons p t ih =>
    cases p with
    | reference r =>
      obtain rfl := (List.cons.inj start).2
      rfl
    | chunk cs clean =>
      cases cs with
      | nil => exact ih start
      | cons c cs =>
        rw [List.all_cons, Bool.and_eq_true] at clean
        have brace := (isInside_iff.1 (isInside_of_isClean clean.1)).1
        exact absurd (List.cons.inj start).1 brace

theorem segments_source (t : ResponseTemplate) :
    Placeholder.segments (t.flatMap ResponsePiece.source) = t.flatMap ResponsePiece.segments := by
  induction t with
  | nil => simp [Placeholder.segments]
  | cons p t ih =>
    rw [List.flatMap_cons, List.flatMap_cons, ← ih]
    cases p with
    | chunk cs clean =>
      exact segments_append_of_clean clean fun more start => head?_of_source_eq_cons start
    | reference r =>
      have inside : ∀ c ∈ r.content, isInside c = true :=
        fun c mem => isInside_of_isClean (r.isClean_of_mem_content c mem)
      simpa [ResponsePiece.source, ResponsePiece.segments, Reference.source, Segment.source] using
        segments_braces (t.flatMap ResponsePiece.source) r.content_ne_nil inside

end ResponseTemplate

/-! ## Resolution -/

namespace ResponsePiece

variable {stored : List (String × Snapshot)} {p : ResponsePiece}

/-- What a piece becomes. -/
def answer (responses : Responses) : ResponsePiece → List Char
  | chunk cs _ => cs
  | reference r => (responses.value? r.name.toList r.part.toList).elim r.source String.toList

theorem yields_iff {out : List Char} : p.Yields stored out ↔ out = p.answer (.ofList stored) := by
  cases p with
  | chunk cs clean =>
    constructor
    · rintro ⟨⟩
      rfl
    · rintro rfl
      exact .chunk
  | reference r =>
    rw [answer]
    cases read : Responses.value? (.ofList stored) r.name.toList r.part.toList with
    | some value =>
      have answers := Responses.value?_eq_some_iff.1 read
      constructor
      · rintro (_ | answers | unanswered)
        · rw [Responses.value?_eq_some_iff.2 answers] at read
          cases read
          rfl
        · exact absurd answers (unanswered value)
      · rintro rfl
        exact .value answers
    | none =>
      have unanswered : ∀ value, ¬ Answers stored r.name r.part value := by
        intro value answers
        rw [Responses.value?_eq_some_iff.2 answers] at read
        cases read
      constructor
      · rintro (_ | answers | _)
        · exact absurd answers (unanswered _)
        · rfl
      · rintro rfl
        exact .verbatim unanswered

/-- The segments of a piece become what the piece becomes. -/
theorem flatMap_segmentText_segments (responses : Responses) (p : ResponsePiece) :
    p.segments.flatMap responses.segmentText = p.answer responses := by
  cases p with
  | chunk cs clean =>
    rw [segments, List.flatMap_map]
    exact List.flatMap_singleton' cs
  | reference r =>
    rw [segments, List.flatMap_singleton, Responses.segmentText, Segment.response?,
      r.responseReference?_content, answer]
    dsimp only
    cases responses.value? r.name.toList r.part.toList with
    | none => rfl
    | some value => rfl

/-- The characters of a piece: clean ones, and braces. -/
theorem isClean_or_mem_of_mem_source {c : Char} (mem : c ∈ p.source) :
    isClean c = true ∨ c ∈ ['{', '}'] := by
  cases p with
  | chunk cs clean => exact .inl (List.all_eq_true.1 clean c mem)
  | reference r =>
    simp only [source, Reference.source, Segment.source, List.mem_append, List.mem_cons,
      List.not_mem_nil, or_false, or_self] at mem ⊢
    rcases mem with (mark | mem) | mark
    · exact .inr (.inl mark)
    · exact .inl (r.isClean_of_mem_content c mem)
    · exact .inr (.inr mark)

/-- Nothing in a piece is escaped or hidden. -/
theorem notMem_source {c : Char} (special : c ∈ '\\' :: marks) : c ∉ p.source := by
  intro mem
  rcases isClean_or_mem_of_mem_source mem with clean | brace
  · exact isClean_iff.1 clean (List.mem_append_right ['{', '}'] special)
  · have apart : ['{', '}'].all (!('\\' :: marks).contains ·) = true := by decide
    simpa [special] using List.all_eq_true.1 apart c brace

/-- No marks come into a text but those in values. -/
theorem notMem_marks_of_mem_answer
    (unmarked : ∀ r, p = .reference r → ∀ value, Answers stored r.name r.part value →
      ∀ c ∈ value.toList, c ∉ marks)
    {c : Char} (mem : c ∈ p.answer (.ofList stored)) : c ∉ marks := by
  cases p with
  | chunk cs clean =>
    exact fun marked => @notMem_source (chunk cs clean) c (List.mem_cons_of_mem _ marked) mem
  | reference r =>
    rw [answer] at mem
    cases read : Responses.value? (.ofList stored) r.name.toList r.part.toList with
    | none =>
      rw [read] at mem
      exact fun marked => @notMem_source (reference r) c (List.mem_cons_of_mem _ marked) mem
    | some value =>
      rw [read] at mem
      exact unmarked r rfl value (Responses.value?_eq_some_iff.1 read) c mem

end ResponsePiece

namespace ResponseTemplate

variable {stored : List (String × Snapshot)} {t : ResponseTemplate}

theorem yields_iff {out : List Char} :
    t.Yields stored out ↔ out = t.flatMap (ResponsePiece.answer (.ofList stored)) := by
  induction t generalizing out with
  | nil =>
    constructor
    · rintro ⟨⟩
      rfl
    · rintro rfl
      exact .nil
  | cons p t ih =>
    rw [List.flatMap_cons]
    constructor
    · rintro (_ | ⟨first, rest⟩)
      rw [ResponsePiece.yields_iff.1 first, ih.1 rest]
    · rintro rfl
      exact .cons (ResponsePiece.yields_iff.2 rfl) (ih.2 rfl)

theorem parse_pieces (t : ResponseTemplate) :
    Placeholder.parse t.text = t.flatMap ResponsePiece.segments := by
  have plain : '\\' ∉ t.flatMap ResponsePiece.source := by
    intro mem
    obtain ⟨p, -, mem⟩ := List.mem_flatMap.1 mem
    exact ResponsePiece.notMem_source List.mem_cons_self mem
  rw [Placeholder.parse, text, String.toList_ofList, mask_of_not_mem plain, segments_source]

/-- A text that does not have the words of a reference has no reference. -/
theorem occursIn_text {r : Reference} (mem : .reference r ∈ t) :
    Text.occursIn responseMark t.text.toList = true := by
  rw [Text.occursIn_iff, text, String.toList_ofList]
  have inside : responseMark <:+: r.source := by
    refine ⟨['{', '{'] ++ r.before ++ r.name.toList, r.part.toList ++ r.after ++ ['}', '}'], ?_⟩
    simp [Reference.source, Segment.source, Reference.content, Reference.words]
  obtain ⟨before, after, rfl⟩ := List.append_of_mem mem
  rw [List.flatMap_append, List.flatMap_cons]
  exact inside.trans ⟨before.flatMap ResponsePiece.source, after.flatMap ResponsePiece.source, by
    simp [ResponsePiece.source]⟩

end ResponseTemplate

/-- A text with references to responses is resolved in one pass: every chunk is kept, and every
reference gives way to its value as it is, or is kept if it has none. -/
theorem Responses.resolve_onePass (stored : List (String × Snapshot)) (t : ResponseTemplate)
    (unmarked : ∀ r, .reference r ∈ t → ∀ value, Answers stored r.name r.part value →
      ∀ c ∈ value.toList, c ∉ marks) :
    ∃ out, (∀ other, t.Yields stored other ↔ other = out) ∧
      Responses.resolve (.ofList stored) t.text = String.ofList out := by
  refine ⟨t.flatMap (ResponsePiece.answer (.ofList stored)),
    fun other => ResponseTemplate.yields_iff, ?_⟩
  have pieces : (Placeholder.parse t.text).flatMap (segmentText (.ofList stored)) =
      t.flatMap (ResponsePiece.answer (.ofList stored)) := by
    rw [ResponseTemplate.parse_pieces, List.flatMap_assoc]
    exact List.flatMap_congr fun p _ => p.flatMap_segmentText_segments _
  rw [resolve, pieces]
  cases referring : Text.occursIn responseMark t.text.toList with
  | true =>
    rw [if_pos rfl, restore_eq_self_iff.2]
    intro c mem
    obtain ⟨p, inside, mem⟩ := List.mem_flatMap.1 mem
    refine ResponsePiece.notMem_marks_of_mem_answer (fun r same => ?_) mem
    exact unmarked r (same ▸ inside)
  | false =>
    have same : t.flatMap (ResponsePiece.answer (.ofList stored)) =
        t.flatMap ResponsePiece.source := by
      refine List.flatMap_congr fun p mem => ?_
      cases p with
      | chunk cs clean => rfl
      | reference r =>
        rw [ResponseTemplate.occursIn_text mem] at referring
        cases referring
    rw [if_neg Bool.false_ne_true, same, ResponseTemplate.text]

/-- A reference with a blank in front. -/
def looseReference (name part : String) (named : name ≠ "") (chars : isNameText name = true)
    (clean : isCleanName part.toList = true) : Reference where
  before := [' ']
  name := name
  part := part
  after := []
  blank_before := rfl
  blank_after := List.all_nil
  named := named
  name_chars := chars
  clean_part := clean

/-- A response that replaces another one, with a header that looks like a reference. -/
def loginResponses : List (String × Snapshot) :=
  [("login", { status := 500 }),
    ("login", { status := 201, headers := [("X-Id", "\x7b\x7blogin.response.status\x7d\x7d")] })]

/-- References to a status and a header, and to a request without a response. -/
def loginTemplate : ResponseTemplate :=
  [.chunk ['$'] (by decide),
    .reference (looseReference "login" "status" (by decide) (by decide) (by decide)),
    .reference (looseReference "login" "headers. x-id" (by decide) (by decide) (by decide)),
    .chunk ['/'] (by decide),
    .reference (looseReference "page" "x.response.status" (by decide) (by decide) (by decide))]

theorem Responses.resolve_onePass_login :
    (∀ r, .reference r ∈ loginTemplate → ∀ value, Answers loginResponses r.name r.part value →
      ∀ c ∈ value.toList, c ∉ marks) ∧
    Responses.resolve (.ofList loginResponses) loginTemplate.text =
      "$201\x7b\x7blogin.response.status\x7d\x7d/\x7b\x7b page.response.x.response.status\x7d\x7d" := by
  have unmarked : ∀ r, .reference r ∈ loginTemplate → ∀ value,
      Answers loginResponses r.name r.part value → ∀ c ∈ value.toList, c ∉ marks := by
    have values : loginTemplate.all (fun
        | .chunk .. => true
        | .reference r => (value? (.ofList loginResponses) r.name.toList r.part.toList).all
          fun value => value.toList.all (!marks.contains ·)) = true := by
      decide +kernel
    intro r mem value answers
    have clean := List.all_eq_true.1 values _ mem
    dsimp only at clean
    rw [value?_eq_some_iff.2 answers] at clean
    exact not_mem_marks_of_all clean
  refine ⟨unmarked, ?_⟩
  obtain ⟨out, unique, resolved⟩ := resolve_onePass loginResponses loginTemplate unmarked
  have pieces : loginTemplate.flatMap (ResponsePiece.answer (.ofList loginResponses)) =
      "$201\x7b\x7blogin.response.status\x7d\x7d/\x7b\x7b page.response.x.response.status\x7d\x7d".toList := by
    decide +kernel
  rw [resolved, ← (unique _).1 (ResponseTemplate.yields_iff.2 rfl), pieces, String.ofList_toList]

end RequestFile
