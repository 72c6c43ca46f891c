import Mathlib
import RequestFile.Session
import RequestFile.Proofs.Resolution.Flatten
import RequestFile.Proofs.ResponseReference

/-!
# What resolution leaves alone

A text without placeholders goes through resolution with nothing but its escapes and its marks
replaced. So a text without escapes and without marks stays as it is, and escaping all double braces
in a text protects it: both stages of resolution together give the text back.
-/

namespace RequestFile

open Placeholder

variable {s : Scope} {clock : Clock} {text : String}

/-! ## Texts without placeholders -/

theorem referencedRequests_of_not_hasPlaceholder (plain : ¬ HasPlaceholder (mask text.toList)) :
    referencedRequests text = [] := by
  rw [List.eq_nil_iff_forall_not_mem]
  intro name mem
  obtain ⟨segment, mem, part, read⟩ := mem_referencedRequests.1 mem
  rw [Placeholder.parse, segments_of_not_hasPlaceholder plain] at mem
  obtain ⟨c, -, rfl⟩ := List.mem_map.1 mem
  cases read

theorem Scope.expand_of_not_hasPlaceholder {cs : List Char} (plain : ¬ HasPlaceholder (mask cs))
    (free : List String) :
    s.expand clock free cs = (mask cs).flatMap fun c => [.text (unmaskChar c)] := by
  rw [expand_eq, segments_of_not_hasPlaceholder plain, List.flatMap_map]
  rfl

/-- Resolution does no more to a text without placeholders than to take backslashes off its escapes
and to show marks as braces. It does not even that if nothing looks like markup. -/
theorem Scope.resolve_of_not_hasPlaceholder (plain : ¬ HasPlaceholder (mask text.toList))
    {γ : Type} [RandomGen γ] (source : γ) :
    s.resolve clock text source =
      (if hasMarkup text.toList then String.ofList (unmask (mask text.toList)) else text,
        source) := by
  rw [resolve, parts]
  cases hasMarkup text.toList with
  | true =>
    rw [if_pos rfl, if_pos rfl, expand_of_not_hasPlaceholder plain,
      (Part.settled_unmask _).join_eq source]
  | false =>
    rw [if_neg Bool.false_ne_true, if_neg Bool.false_ne_true, (Part.settled_text _).join_eq source]
    show (String.ofList text.toList, source) = (text, source)
    rw [String.ofList_toList]

theorem hasMarkup_of_hasEscape {cs : List Char} (escaped : HasEscape cs) : hasMarkup cs = true := by
  rw [hasMarkup, Bool.or_eq_true, Bool.or_eq_true, Text.occursIn_iff, Text.occursIn_iff,
    Text.occursIn_iff]
  rcases escaped with opens | closes
  · have start : ['{', '{'] <:+: ['\\', '{', '{'] := ⟨['\\'], [], rfl⟩
    exact .inl (.inl (start.trans opens))
  · exact .inr closes

/-- A text without escapes and placeholders stays as it is, unless it looks like markup somewhere
and has a mark; and so does a text without references to responses, unless it has the words of one
and a mark. -/
theorem resolve_eq_self_iff (text : String) :
    (¬ HasEscape text.toList → ¬ HasPlaceholder text.toList →
      ∀ (s : Scope) (clock : Clock) (γ : Type) [RandomGen γ] (source : γ),
        s.resolve clock text source = (text, source) ↔
          hasMarkup text.toList = false ∨ ∀ c ∈ text.toList, c ∉ marks) ∧
    (refersToResponse text = false → ∀ responses : Responses,
      responses.resolve text = text ↔
        Text.occursIn responseMark text.toList = false ∨ ∀ c ∈ text.toList, c ∉ marks) := by
  constructor
  · intro unescaped plain s clock γ _ source
    have masked := mask_of_not_hasEscape unescaped
    rw [Scope.resolve_of_not_hasPlaceholder (by rwa [masked]), masked, Prod.mk.injEq,
      and_iff_left rfl]
    cases hasMarkup text.toList with
    | true => simp [String.ofList_eq, unmask_eq_self_iff]
    | false => simp
  · intro unreferred responses
    have refers := @refersToResponse_iff text
    have none : referencedRequests text = [] := by simpa [unreferred] using refers
    rw [Responses.resolve_of_unanswered (by simp [none])]
    cases Text.occursIn responseMark text.toList with
    | true => simp [String.ofList_eq, restore_eq_self_iff]
    | false => simp

/-- Braces and a dollar sign that make no placeholder. -/
def looseBraces : String := "\x7d\x7b\x7b $\x7b1\x7d"

theorem resolve_looseBraces :
    (∀ (γ : Type) [RandomGen γ] (source : γ),
      nestedScope.resolve fixedClock looseBraces source = (looseBraces, source)) ∧
    (responseOf "login").resolve looseBraces = looseBraces := by
  obtain ⟨ofVariables, ofResponses⟩ := resolve_eq_self_iff looseBraces
  have unplaced : ¬ HasPlaceholder looseBraces.toList := by
    have cut : segments looseBraces.toList =
        [.char '}', .char '{', .char '{', .char ' ', .char '$', .char '{', .char '1',
          .char '}'] := by
      cbv
    rw [hasPlaceholder_iff, cut]
    decide
  have unmarked : ∀ c ∈ looseBraces.toList, c ∉ marks := not_mem_marks_of_all (by decide)
  have unescaped : ¬ HasEscape looseBraces.toList := by decide
  constructor
  · intro γ _ source
    exact (ofVariables unescaped unplaced nestedScope fixedClock γ source).2 (.inr unmarked)
  · exact (ofResponses (by cbv) (responseOf "login")).2 (.inr unmarked)

/-- Where a text looks like markup, or like a reference to a response, a mark in it is taken for
escaped braces, although nothing is escaped. -/
theorem resolve_mark :
    ¬ HasEscape "\x7b\x7b \uE000".toList ∧ ¬ HasPlaceholder "\x7b\x7b \uE000".toList ∧
    (∀ (γ : Type) [RandomGen γ] (source : γ),
      Scope.resolve {} fixedClock "\x7b\x7b \uE000" source = ("\x7b\x7b \x7b\x7b", source)) ∧
    refersToResponse ".response.\uE000" = false ∧
    Responses.resolve .empty ".response.\uE000" = ".response.\\\x7b\x7b" := by
  refine ⟨by decide, ?_, ?_, ?_, ?_⟩
  · have cut : segments "\x7b\x7b \uE000".toList =
        [.char '{', .char '{', .char ' ', .char '\uE000'] := by
      cbv
    rw [hasPlaceholder_iff, cut]
    decide
  · intro γ _ source
    cbv
  · cbv
  · cbv

/-! ## Escaped texts -/

/-- The text with all double braces escaped. -/
def escaped (text : String) : String :=
  String.ofList (escape text.toList)

/-- Escaping is undone by the stages of resolution together: the first one leaves the escapes as
they are, the second one takes the backslashes off. -/
theorem Session.resolve_escaped {text : String} (unmarked : ∀ c ∈ text.toList, c ∉ marks)
    (plain : ¬ ['$', '{'] <:+: text.toList) (session : Session) (clock : Clock) {γ : Type}
    [RandomGen γ] (source : γ) :
    session.responses.resolve (escaped text) = escaped text ∧
      session.resolve clock (escaped text) source = (text, source) := by
  have chars : (escaped text).toList = escape text.toList := String.toList_ofList
  have unplaced : ¬ HasPlaceholder (mask (escaped text).toList) := by
    rw [chars, mask_escape]
    exact not_hasPlaceholder_hide plain
  have kept : session.responses.resolve (escaped text) = escaped text := by
    apply Responses.resolve_eq_self
    · intro c mem marked
      rw [chars] at mem
      have other : c ≠ '\\' := by
        rintro rfl
        exact absurd marked (by decide)
      exact unmarked c (mem_of_mem_escape other mem) marked
    · simp [referencedRequests_of_not_hasPlaceholder unplaced]
  refine ⟨kept, ?_⟩
  rw [Session.resolve, kept, Scope.resolve_of_not_hasPlaceholder unplaced, chars, mask_escape,
    unmask_hide unmarked, String.ofList_toList]
  cases markup : hasMarkup (escape text.toList) with
  | true => rfl
  | false =>
    -- Without markup in it, the escaped text has no escapes, so there was nothing to escape.
    rcases escape_eq_or_hasEscape text.toList with same | found
    · rw [if_neg Bool.false_ne_true, escaped, same, String.ofList_toList]
    · rw [hasMarkup_of_hasEscape found] at markup
      cases markup

/-- The name of a file variable behind a backslash and five opening braces, and in front of three
closing ones. -/
def braceText : String := "\\\x7b\x7b\x7b\x7b\x7bhost\x7d\x7d\x7d"

theorem Session.resolve_escaped_braceText :
    escaped braceText = "\\\\\x7b\x7b\\\x7b\x7b\x7bhost\\\x7d\x7d\x7d" ∧
    ∀ (clock : Clock) (γ : Type) [RandomGen γ] (source : γ),
      Session.resolve { scope := nestedScope, responses := responseOf "host" } clock
        (escaped braceText) source = (braceText, source) := by
  have unmarked : ∀ c ∈ braceText.toList, c ∉ marks := not_mem_marks_of_all (by decide)
  have plain : ¬ ['$', '{'] <:+: braceText.toList := by
    rw [← Text.occursIn_iff]
    decide
  refine ⟨by decide, fun clock γ _ source => ?_⟩
  exact (Session.resolve_escaped unmarked plain _ clock source).2

end RequestFile
