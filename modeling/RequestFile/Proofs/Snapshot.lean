import Mathlib
import RequestFile.ResponseReference

/-!
# Parts of a response

Which texts a captured response has, and under which words a reference asks for each of them. A word
that is none of these, a header that is missing and a path that leads nowhere have no value.
-/

namespace RequestFile

namespace Snapshot

/-- The value of the first header with a name, in any case. -/
def FirstHeader (s : Snapshot) (name value : String) : Prop :=
  ∃ before key after, s.headers = before ++ (key, value) :: after ∧
    Text.sameLetters key name = true ∧ ∀ entry ∈ before, Text.sameLetters entry.1 name = false

theorem header?_eq_some_iff {s : Snapshot} {name value : String} :
    s.header? name = some value ↔ s.FirstHeader name value := by
  simp only [header?, Option.map_eq_some_iff, List.find?_eq_some_iff_append, FirstHeader,
    Bool.not_eq_eq_eq_not, Bool.not_true]
  constructor
  · rintro ⟨⟨key, _⟩, ⟨same, before, after, split, others⟩, rfl⟩
    exact ⟨before, key, after, split, same, others⟩
  · rintro ⟨before, key, after, split, same, others⟩
    exact ⟨(key, value), ⟨same, before, after, split, others⟩, rfl⟩

/-- The words in front of the name of a header. -/
def headerWords : List String :=
  ["header.", "headers."]

/-- The texts of a response, each under the words by which a reference asks for it. -/
inductive Has (s : Snapshot) : String → String → Prop
  | body : Has s "body" s.body
  | status : Has s "status" (toString s.status)
  | statusText : Has s "statusText" s.statusText
  | responseTime : Has s "responseTime" s.timeText
  | givenType {value : String} : s.contentType = some value → Has s "contentType" value
  | headerType {value : String} :
      s.contentType = none → s.FirstHeader "content-type" value → Has s "contentType" value
  | header {word name value : String} :
      word ∈ headerWords → s.FirstHeader (trimmed name) value → Has s (word ++ name) value
  | path {path value : String} :
      path.toList.head? = some '$' → Json.extract? s.body path = some value →
        Has s ("body." ++ path) value

end Snapshot

theorem headerName?_eq_some_iff {part : List Char} {name : String} :
    headerName? part = some name ↔
      ∃ word ∈ Snapshot.headerWords, ∃ rest,
        part = word.toList ++ rest ∧ name = String.ofList (Text.trim rest) := by
  simp only [headerName?, Option.map_eq_some_iff, Option.or_eq_some_iff,
    List.isPrefixOf?_eq_some_iff_append_eq]
  constructor
  · rintro ⟨rest, rfl | ⟨-, rfl⟩, rfl⟩
    · exact ⟨"headers.", by decide, rest, rfl, rfl⟩
    · exact ⟨"header.", by decide, rest, rfl, rfl⟩
  · rintro ⟨word, mem, rest, rfl, rfl⟩
    rw [Snapshot.headerWords, List.mem_pair] at mem
    rcases mem with rfl | rfl
    · exact ⟨rest, .inr ⟨rfl, rfl⟩, rfl⟩
    · exact ⟨rest, .inl rfl, rfl⟩

theorem bodyPath?_eq_some_iff {part : List Char} {path : Option String} :
    bodyPath? part = some path ↔
      ∃ rest, part = "body.".toList ++ rest ∧
        path = if rest.head? = some '$' then some (String.ofList rest) else none := by
  simp only [bodyPath?, Option.map_eq_some_iff, List.isPrefixOf?_eq_some_iff_append_eq,
    beq_iff_eq]
  constructor
  · rintro ⟨rest, rfl, rfl⟩
    exact ⟨rest, rfl, rfl⟩
  · rintro ⟨rest, rfl, rfl⟩
    exact ⟨rest, rfl, rfl⟩

namespace Snapshot

variable {s : Snapshot} {part value : String}

theorem effectiveContentType?_eq_some_iff :
    s.effectiveContentType? = some value ↔
      s.contentType = some value ∨ s.contentType = none ∧ s.FirstHeader "content-type" value := by
  rw [effectiveContentType?, Option.or_eq_some_iff, header?_eq_some_iff]

/-- The words that ask for a text by themselves. -/
def plainWords : List String :=
  ["body", "status", "statusText", "contentType", "responseTime"]

/-- No word that asks for a text by itself starts as the words do that something follows. -/
theorem append_notMem_plainWords {start : String} (mem : start ∈ "body." :: headerWords)
    (rest : String) : start ++ rest ∉ plainWords := by
  intro plain
  have apart : ∀ start ∈ "body." :: headerWords, ∀ word ∈ plainWords,
      start.toList.isPrefixOf word.toList = false := by decide
  have starts : start.toList.isPrefixOf (start ++ rest).toList = true := by
    rw [String.toList_append, List.isPrefixOf_iff_prefix]
    exact List.prefix_append _ _
  rw [apart start mem _ plain] at starts
  cases starts

theorem part?_of_notMem_plainWords (other : part ∉ plainWords) :
    s.part? part.toList =
      match bodyPath? part.toList with
      | some path => path.bind (Json.extract? s.body)
      | none => (headerName? part.toList).bind s.header? := by
  unfold part?
  rw [String.ofList_toList]
  simp only [plainWords, List.mem_cons, List.not_mem_nil, or_false, not_or] at other
  obtain ⟨body, status, statusText, contentType, responseTime⟩ := other
  split
  · exact absurd rfl body
  · exact absurd rfl status
  · exact absurd rfl statusText
  · exact absurd rfl contentType
  · exact absurd rfl responseTime
  · rfl

theorem eq_append_ofList {start : String} {rest : List Char}
    (split : part.toList = start.toList ++ rest) : part = start ++ String.ofList rest := by
  rw [← String.toList_inj, split, String.toList_append, String.toList_ofList]

/-- A reference is given the text that the response has under its words, and nothing else. -/
theorem part?_eq_some_iff : s.part? part.toList = some value ↔ s.Has part value := by
  constructor
  · intro found
    by_cases plain : part ∈ plainWords
    · simp only [plainWords, List.mem_cons, List.not_mem_nil, or_false] at plain
      rcases plain with rfl | rfl | rfl | rfl | rfl
      · cases found
        exact .body
      · cases found
        exact .status
      · cases found
        exact .statusText
      · rcases effectiveContentType?_eq_some_iff.1 found with given | ⟨missing, first⟩
        · exact .givenType given
        · exact .headerType missing first
      · cases found
        exact .responseTime
    · rw [part?_of_notMem_plainWords plain] at found
      split at found
      · next path read =>
        obtain ⟨rest, split, rfl⟩ := bodyPath?_eq_some_iff.1 read
        obtain rfl := eq_append_ofList split
        split at found
        · next root => exact .path (by rwa [String.toList_ofList]) found
        · cases found
      · obtain ⟨name, read, first⟩ := Option.bind_eq_some_iff.1 found
        obtain ⟨word, mem, rest, split, rfl⟩ := headerName?_eq_some_iff.1 read
        obtain rfl := eq_append_ofList split
        refine .header mem ?_
        rw [trimmed, String.toList_ofList]
        exact header?_eq_some_iff.1 first
  · intro has
    cases has with
    | body => rfl
    | status => rfl
    | statusText => rfl
    | responseTime => rfl
    | givenType given => exact effectiveContentType?_eq_some_iff.2 (.inl given)
    | headerType missing first => exact effectiveContentType?_eq_some_iff.2 (.inr ⟨missing, first⟩)
    | @header word name _ mem first =>
      have read : headerName? (word ++ name).toList = some (trimmed name) :=
        headerName?_eq_some_iff.2 ⟨word, mem, name.toList, String.toList_append, rfl⟩
      have noPath : bodyPath? (word ++ name).toList = none := by
        rw [Option.eq_none_iff_forall_ne_some]
        intro path found
        obtain ⟨rest, split, -⟩ := bodyPath?_eq_some_iff.1 found
        rw [headerWords, List.mem_pair] at mem
        rw [String.toList_append] at split
        rcases mem with rfl | rfl <;> cases split
      rw [part?_of_notMem_plainWords (append_notMem_plainWords (List.mem_cons_of_mem _ mem) name),
        noPath, read]
      exact header?_eq_some_iff.2 first
    | @path path _ root found =>
      have read : bodyPath? ("body." ++ path).toList = some (some path) := by
        refine bodyPath?_eq_some_iff.2 ⟨path.toList, String.toList_append, ?_⟩
        rw [if_pos root, String.ofList_toList]
      rw [part?_of_notMem_plainWords (append_notMem_plainWords List.mem_cons_self path), read]
      exact found

end Snapshot

end RequestFile
