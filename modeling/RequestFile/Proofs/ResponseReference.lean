import Mathlib
import RequestFile.ResponseReference
import RequestFile.Proofs.Directive
import RequestFile.Proofs.Placeholder.Escape
import RequestFile.Proofs.Reference.Circular

/-!
# References to responses

A request can be referred to by every name: in `{{name.response.part}}` the name is read back as it
is written, whatever the part. The requests that a text is found to refer to are all whose responses
matter to it: resolution looks at no other response.
-/

namespace RequestFile

open Placeholder

/-! ## References as written -/

theorem isInside_of_isNameChar {c : Char} (char : Text.isNameChar c = true) :
    isInside c = true := by
  rw [isInside_iff]
  constructor
  · rintro rfl
    exact absurd char (by decide)
  · rintro rfl
    exact absurd char (by decide)

/-- The name in a reference ends where the words about the response start. -/
theorem responseReference?_append {name part : List Char}
    (chars : ∀ c ∈ name, Text.isNameChar c = true) (solid : ∀ c ∈ name, Text.isBlank c = false)
    (named : name ≠ []) (asked : part ≠ []) :
    responseReference? (name ++ responseMark ++ part) = some (name, Text.trim part) := by
  obtain ⟨c, rest, rfl⟩ := List.exists_cons_of_ne_nil named
  have start : Text.trimStart (c :: rest ++ responseMark ++ part) =
      c :: rest ++ responseMark ++ part :=
    Text.trimStart_cons_of_not_blank (solid c List.mem_cons_self) _
  have taken : (c :: rest ++ responseMark ++ part).takeWhile Text.isNameChar = c :: rest := by
    have stop : (responseMark ++ part).takeWhile Text.isNameChar = [] := rfl
    rw [List.append_assoc, List.takeWhile_append_of_pos chars, stop, List.append_nil]
  have left : (c :: rest ++ responseMark ++ part).dropWhile Text.isNameChar =
      responseMark ++ part := by
    have stop : (responseMark ++ part).dropWhile Text.isNameChar = responseMark ++ part := rfl
    rw [List.append_assoc, List.dropWhile_append_of_pos chars, stop]
  have marked : responseMark.isPrefixOf? (responseMark ++ part) = some part := by
    simp [responseMark, List.isPrefixOf?]
  have filled : (c :: rest).isEmpty = false ∧ part.isEmpty = false := by simp [asked]
  simp only [responseReference?, start, taken, left, marked, filled.1, filled.2, Bool.or_self,
    Bool.false_eq_true, if_false]

/-- A placeholder for a part of a response refers to the request of the name in it. -/
theorem referencedRequests_inBraces {name part : String} (ok : isNameText name = true)
    (named : name ≠ "") (asked : part ≠ "") (inside : ∀ c ∈ part.toList, isInside c = true)
    (last : part.toList.getLast? ≠ some '\\') :
    referencedRequests (inBraces (name ++ ".response." ++ part)) = [name] := by
  have chars : ∀ c ∈ name.toList, Text.isNameChar c = true := List.all_eq_true.1 ok
  have content : (name ++ ".response." ++ part).toList =
      name.toList ++ responseMark ++ part.toList := by
    simp [String.toList_append, responseMark]
  have insideAll : ∀ c ∈ name.toList ++ responseMark ++ part.toList, isInside c = true := by
    intro c mem
    rcases List.mem_append.1 mem with mem | mem
    · rcases List.mem_append.1 mem with mem | mem
      · exact isInside_of_isNameChar (chars c mem)
      · have mark : responseMark.all isInside = true := by decide
        exact List.all_eq_true.1 mark c mem
    · exact inside c mem
  have lastAll : (name.toList ++ responseMark ++ part.toList).getLast? ≠ some '\\' := by
    rwa [List.getLast?_append_of_ne_nil _ (by simpa using asked)]
  have cut : Placeholder.parse (inBraces (name ++ ".response." ++ part)) =
      [.braces (name.toList ++ responseMark ++ part.toList)] := by
    rw [Placeholder.parse, toList_inBraces, content, Segment.source]
    exact segments_mask_braces (by simp [named]) insideAll lastAll
  have read : responseReference? (name.toList ++ responseMark ++ part.toList) =
      some (name.toList, Text.trim part.toList) :=
    responseReference?_append chars (not_isBlank_of_isNameText ok) (by simpa using named)
      (by simpa using asked)
  simp only [referencedRequests, cut, List.filterMap_cons, List.filterMap_nil, Segment.response?,
    read, Option.map_some, String.ofList_toList, sortedNames_singleton]

/-! ## The responses that resolution looks at -/

theorem mem_referencedRequests {text name : String} :
    name ∈ referencedRequests text ↔
      ∃ segment ∈ Placeholder.parse text, ∃ part, segment.response? = some (name.toList, part) := by
  rw [referencedRequests, mem_sortedNames, List.mem_filterMap]
  constructor
  · rintro ⟨segment, mem, found⟩
    obtain ⟨⟨found, part⟩, read, rfl⟩ := Option.map_eq_some_iff.1 found
    exact ⟨segment, mem, part, by rw [read, String.toList_ofList]⟩
  · rintro ⟨segment, mem, part, read⟩
    exact ⟨segment, mem, by simp [read, String.ofList_toList]⟩

/-- The requests to which a text refers are those whose names stand in it in references, with what
is escaped out of the way. -/
theorem mem_referencedRequests_iff {text name : String} :
    name ∈ referencedRequests text ↔
      ∃ content part, (Segment.braces content).IsPlaceholder ∧
        (Segment.braces content).source <:+: mask text.toList ∧
        responseReference? content = some (name.toList, part) := by
  rw [mem_referencedRequests]
  constructor
  · rintro ⟨segment, mem, part, read⟩
    rcases isPlaceholder_of_mem_segments mem with ⟨c, rfl⟩ | placeholder
    · cases read
    · cases segment with
      | char c => cases read
      | dollar content => cases read
      | braces content =>
        exact ⟨content, part, placeholder, source_infix_of_mem_segments mem, read⟩
  · rintro ⟨content, part, placeholder, inside, read⟩
    exact ⟨.braces content, placeholder.mem_segments_iff.2 inside, part, read⟩

theorem mem_referencedRequests_of_response? {text : String} {segment : Segment}
    (mem : segment ∈ Placeholder.parse text) {name part : List Char}
    (read : segment.response? = some (name, part)) :
    String.ofList name ∈ referencedRequests text :=
  mem_referencedRequests.2 ⟨segment, mem, part, by rw [read, String.toList_ofList]⟩

/-- A text refers to a response if it refers to that of some request. -/
theorem refersToResponse_iff {text : String} :
    refersToResponse text = true ↔ referencedRequests text ≠ [] := by
  rw [refersToResponse, List.any_eq_true]
  constructor
  · rintro ⟨segment, mem, found⟩
    obtain ⟨⟨name, part⟩, read⟩ := Option.isSome_iff_exists.1 found
    exact List.ne_nil_of_mem (mem_referencedRequests_of_response? mem read)
  · intro filled
    obtain ⟨name, mem⟩ := List.exists_mem_of_ne_nil _ filled
    obtain ⟨segment, mem, part, read⟩ := mem_referencedRequests.1 mem
    exact ⟨segment, mem, by rw [read]; rfl⟩

namespace Responses

/-- Two tables hold the same responses to the requests of some names, or none in both. -/
def AgreeOn (a b : Responses) (names : List String) : Prop :=
  ∀ name ∈ names, a.get? name = b.get? name

variable {a b responses : Responses} {text : String} {segment : Segment}

theorem AgreeOn.segmentText_eq (agree : a.AgreeOn b (referencedRequests text))
    (mem : segment ∈ Placeholder.parse text) : a.segmentText segment = b.segmentText segment := by
  unfold segmentText
  cases read : segment.response? with
  | none => rfl
  | some reference =>
    have same := agree _ (mem_referencedRequests_of_response? mem read)
    simp only [value?, same]

/-- Tables that agree on the requests to which a text refers resolve the text alike. -/
theorem AgreeOn.resolve_eq (agree : a.AgreeOn b (referencedRequests text)) :
    a.resolve text = b.resolve text := by
  have parts : (Placeholder.parse text).flatMap a.segmentText =
      (Placeholder.parse text).flatMap b.segmentText :=
    List.flatMap_congr fun segment mem => agree.segmentText_eq mem
  rw [resolve, resolve, parts]

/-- Without a response to which a text refers, nothing in the text is replaced. -/
theorem segmentText_of_unanswered
    (unanswered : ∀ name ∈ referencedRequests text, responses.get? name = none)
    (mem : segment ∈ Placeholder.parse text) : responses.segmentText segment = segment.source := by
  unfold segmentText
  cases read : segment.response? with
  | none => rfl
  | some reference =>
    have missing := unanswered _ (mem_referencedRequests_of_response? mem read)
    simp only [value?, missing, Option.bind_none]

/-- Without a response to which a text refers, only marks in the text may change. -/
theorem resolve_of_unanswered
    (unanswered : ∀ name ∈ referencedRequests text, responses.get? name = none) :
    responses.resolve text =
      if Text.occursIn responseMark text.toList then String.ofList (restore text.toList)
      else text := by
  have whole : (Placeholder.parse text).flatMap responses.segmentText = mask text.toList := by
    rw [List.flatMap_congr fun segment mem => segmentText_of_unanswered unanswered mem,
      Placeholder.parse, flatMap_source_segments]
  rw [resolve, whole, restore_mask]

/-- Without marks, and without a response to which it refers, a text stays as it is. -/
theorem resolve_eq_self (unmarked : ∀ c ∈ text.toList, c ∉ marks)
    (unanswered : ∀ name ∈ referencedRequests text, responses.get? name = none) :
    responses.resolve text = text := by
  rw [resolve_of_unanswered unanswered, restore_eq_self_iff.2 unmarked, String.ofList_toList,
    ite_self]

end Responses

/-- What a text becomes depends on the responses to the requests that it is found to refer to, and
on no others. If there are none of these, a text without marks stays as it is. The requests that are
found are exactly those whose names stand in the text in references. -/
theorem resolve_depends_on_referencedRequests (text : String) :
    (∀ a b : Responses, a.AgreeOn b (referencedRequests text) → a.resolve text = b.resolve text) ∧
    (∀ responses : Responses, (∀ c ∈ text.toList, c ∉ marks) →
      (∀ name ∈ referencedRequests text, responses.get? name = none) →
      responses.resolve text = text) ∧
    (refersToResponse text = true ↔ referencedRequests text ≠ []) ∧
    ∀ name, name ∈ referencedRequests text ↔
      ∃ content part, (Segment.braces content).IsPlaceholder ∧
        (Segment.braces content).source <:+: mask text.toList ∧
        responseReference? content = some (name.toList, part) :=
  ⟨fun _ _ agree => agree.resolve_eq,
    fun _ unmarked unanswered => Responses.resolve_eq_self unmarked unanswered,
    refersToResponse_iff, fun _ => mem_referencedRequests_iff⟩

/-- The response to one request. -/
def responseOf (name : String) : Responses :=
  Table.empty.insert name { status := 201 }

/-- A response of another request makes no difference to a reference, whether there is a response to
the request of the reference or not. -/
theorem resolve_login_status :
    referencedRequests (inBraces "login.response.status") = ["login"] ∧
    refersToResponse (inBraces "login.response.status") = true ∧
    Responses.resolve ((responseOf "login").insert "other" {}) (inBraces "login.response.status") =
      (responseOf "login").resolve (inBraces "login.response.status") ∧
    (responseOf "other").resolve (inBraces "login.response.status") =
      inBraces "login.response.status" := by
  obtain ⟨agreeing, unanswered, refers, -⟩ :=
    resolve_depends_on_referencedRequests (inBraces "login.response.status")
  have names : referencedRequests (inBraces "login.response.status") = ["login"] := by cbv
  rw [names] at agreeing unanswered refers
  have unmarked : ∀ c ∈ (inBraces "login.response.status").toList, c ∉ marks :=
    not_mem_marks_of_all (by decide)
  refine ⟨names, refers.2 (List.cons_ne_nil _ _), agreeing _ _ ?_, unanswered _ unmarked ?_⟩
  · exact List.forall_mem_singleton.2 rfl
  · exact List.forall_mem_singleton.2 rfl

end RequestFile
