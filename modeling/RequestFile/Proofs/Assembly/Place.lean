import Mathlib
import RequestFile.Proofs.Assembly.RequestName

/-!
# Places of names

A document keeps its headers and variables in tables of their values and, apart from these, in
tables of their lines. Both are filled from the same tokens: a value and the line of it come from
the last token that gives them, and the tables have the same names in the same order.
-/

namespace RequestFile

/-! ## Tables of lines -/

/-- The line of the last token that gives a value to a name. -/
def lastLine? (given : Located → Option (String × String)) (name : String)
    (tokens : List Located) : Option Nat :=
  (tokens.filter fun t => (given t).any (·.1 == name)).getLast?.map (·.line)

/-- A token with the name that it gives a value to, as an entry of a table of lines. -/
def lineGiven? (given : Located → Option (String × String)) (t : Located) :
    Option (String × Nat) :=
  (given t).map fun entry => (entry.1, t.line)

section Tables

variable (given : Located → Option (String × String)) (tokens : List Located)

theorem keys_ofList_lineGiven? :
    (Table.ofList (tokens.filterMap given)).keys =
      (Table.ofList (tokens.filterMap (lineGiven? given))).keys := by
  have names : (tokens.filterMap given).map Prod.fst =
      (tokens.filterMap (lineGiven? given)).map Prod.fst := by
    simp [List.map_filterMap, lineGiven?, Function.comp_def]
  have empty : (Table.empty : Table String).keys = (Table.empty : Table Nat).keys := rfl
  exact Table.keys_insertAll_congr empty names

theorem map_snd_filter_lineGiven? (name : String) :
    ((tokens.filterMap (lineGiven? given)).filter (·.1 = name)).map Prod.snd =
      (tokens.filter fun t => (given t).any (·.1 == name)).map (·.line) := by
  induction tokens with
  | nil => rfl
  | cons t rest ih =>
    rw [List.filterMap_cons, List.filter_cons, lineGiven?]
    cases given t with
    | none => exact ih
    | some entry =>
      by_cases same : entry.1 = name
      · simp [same, ← ih]
      · simp [same, ← ih]

/-- A table of lines has the line of the last token that gives a name. -/
theorem get?_ofList_lineGiven? (name : String) :
    (Table.ofList (tokens.filterMap (lineGiven? given))).get? name =
      lastLine? given name tokens := by
  have last := Table.get?_insertAll .empty (tokens.filterMap (lineGiven? given)) name
  rw [Table.get?_empty, Option.or_none, ← List.getLast?_map, map_snd_filter_lineGiven?,
    List.getLast?_map] at last
  exact last

theorem exists_given_of_lastLine? {name : String} {line : Nat}
    (last : lastLine? given name tokens = some line) :
    ∃ t ∈ tokens, t.line = line ∧ ∃ value, given t = some (name, value) := by
  obtain ⟨t, last, same⟩ := Option.map_eq_some_iff.1 last
  obtain ⟨mem, gives⟩ := List.mem_filter.1 (List.mem_of_getLast? last)
  obtain ⟨⟨name', value⟩, entry, named⟩ := (Option.any_eq_true _ _).1 gives
  obtain rfl : name' = name := beq_iff_eq.1 named
  exact ⟨t, mem, same, value, entry⟩

theorem mem_of_lastLine? {name : String} {line : Nat}
    (last : lastLine? given name tokens = some line) : ∃ t ∈ tokens, t.line = line := by
  obtain ⟨t, mem, same, -⟩ := exists_given_of_lastLine? given tokens last
  exact ⟨t, mem, same⟩

end Tables

/-! ## Headers -/

theorem Located.headerLine?_eq : Located.headerLine? = lineGiven? Located.header? := by
  funext t
  obtain ⟨token, line⟩ := t
  cases token <;> rfl

theorem Located.assignmentLine?_eq : Located.assignmentLine? = lineGiven? Located.assignment? := by
  funext t
  obtain ⟨token, line⟩ := t
  cases token <;> rfl

namespace Block

variable (options : Options) (b : Block) (name : String)

theorem keys_headers_request :
    (b.request options name).headers.keys = (b.request options name).headerLines.keys := by
  rw [request, Located.headerLine?_eq]
  exact keys_ofList_lineGiven? Located.header? b.content

theorem headerLine?_request (header : String) :
    (b.request options name).headerLine? header = lastLine? Located.header? header b.content := by
  rw [Request.headerLine?, request, Located.headerLine?_eq]
  exact get?_ofList_lineGiven? Located.header? b.content header

end Block

theorem tokens_of_mem_blocks {tokens : List Located} {b : Block} (mem : b ∈ blocks tokens) :
    (∃ t ∈ tokens, t.line = b.line) ∧ ∀ t ∈ b.content, t ∈ tokens := by
  obtain ⟨before, rest, split, -, -, content⟩ := standsIn_of_mem_blocks mem
  rw [split, content]
  refine ⟨⟨_, List.mem_append_right _ List.mem_cons_self, rfl⟩, fun t inside => ?_⟩
  exact List.mem_append_right _ (List.mem_cons_of_mem _ ((List.takeWhile_prefix _).mem inside))

theorem exists_foldl_append (parts : List String) (url : String) :
    ∃ query, parts.foldl (· ++ ·) url = url ++ query := by
  induction parts generalizing url with
  | nil => exact ⟨"", (String.append_empty).symm⟩
  | cons part parts ih =>
    obtain ⟨query, rest⟩ := ih (url ++ part)
    exact ⟨part ++ query, by rw [List.foldl_cons, rest, String.append_assoc]⟩

/-! ## Parsed documents -/

section Parsed

variable {options : Options} {tokens : List Located} {d : Document}

theorem exists_getElem?_of_forall₂ {α β : Type} {related : α → β → Prop} {xs : List α}
    {ys : List β} (all : List.Forall₂ related xs ys) {i : Nat} {y : β} (found : ys[i]? = some y) :
    ∃ x, xs[i]? = some x ∧ related x y := by
  induction all generalizing i with
  | nil => cases found
  | @cons x y' xs ys first rest ih =>
    cases i with
    | zero =>
      obtain rfl : y' = y := Option.some.inj found
      exact ⟨x, rfl, first⟩
    | succ i => exact ih found

/-- The request at an index of a document is what the block at this index says. -/
theorem exists_block_of_getElem? {index : Nat} {r : Request}
    (found : (draftDocument options tokens).requests[index]? = some r) :
    ∃ b, (blocks tokens)[index]? = some b ∧ r = b.request options r.name := by
  rw [requests_draftDocument] at found
  exact exists_getElem?_of_forall₂ (forall₂_nameRequests options 0 (blocks tokens)) found

theorem exists_block_of_parseTokens (parsed : parseTokens options tokens = .ok d) {index : Nat}
    {r : Request} (found : d.requests[index]? = some r) :
    ∃ b, (blocks tokens)[index]? = some b ∧ r = b.request options r.name := by
  obtain ⟨-, rfl, -, -⟩ := parseTokens_eq_ok_iff.1 parsed
  exact exists_block_of_getElem? found

/-- Every request line opens a request, whose URL may go on with parts of a query. -/
theorem exists_request_of_mem (parsed : parseTokens options tokens = .ok d) {method url : String}
    {version : Option String} {line : Nat}
    (mem : ⟨.requestLine method url version, line⟩ ∈ tokens) :
    ∃ r ∈ d.requests, r.line = line ∧ r.method = method ∧ r.version = version ∧
      ∃ query, r.url = url ++ query := by
  have given : (method, url, version, line) ∈ tokens.filterMap Located.requestLine? :=
    List.mem_filterMap.2 ⟨_, mem, rfl⟩
  rw [← map_requestLine_blocksFrom tokens []] at given
  obtain ⟨b, inside, same⟩ := List.mem_map.1 given
  obtain ⟨rfl, rfl, rfl, rfl⟩ : b.method = method ∧ b.url = url ∧ b.version = version ∧
      b.line = line := by simpa using same
  obtain ⟨index, found⟩ := List.mem_iff_getElem?.1 inside
  obtain ⟨-, rfl, -, -⟩ := parseTokens_eq_ok_iff.1 parsed
  have named := forall₂_nameRequests options 0 (blocks tokens)
  obtain ⟨r, there, same⟩ := exists_getElem?_of_forall₂ named.flip found
  rw [requests_draftDocument]
  refine ⟨r, List.mem_of_getElem? there, ?_⟩
  rw [same]
  exact ⟨rfl, rfl, rfl, exists_foldl_append _ b.url⟩

/-- A parsed document has the variables that the tokens declare. -/
theorem variables_of_parseTokens (parsed : parseTokens options tokens = .ok d) :
    d.fileVariables = .ofList (tokens.filterMap Located.assignment?) ∧
      d.variableLines = .ofList (tokens.filterMap (lineGiven? Located.assignment?)) := by
  obtain ⟨-, rfl, -, -⟩ := parseTokens_eq_ok_iff.1 parsed
  rw [← Located.assignmentLine?_eq]
  exact Assembly.variables_foldl_take options tokens {}

end Parsed

end RequestFile
