import Mathlib
import RequestFile.Proofs.Assembly.Place
import RequestFile.Proofs.Token.Header

/-!
# Requests in sequence

The tokens of a file stand in the order of its lines, and so do the blocks that they are cut into:
all of a block stands behind its request line and in front of the next one. A document that is made
of them has its requests, with their headers, one after the other.
-/

namespace RequestFile

/-! ## Blocks -/

/-- The line of a block is that of a token. -/
theorem exists_line_of_mem_blocksFrom {tokens preface : List Located} {b : Block}
    (mem : b ∈ blocksFrom preface tokens) : ∃ t ∈ tokens, t.line = b.line := by
  have listed : (b.method, b.url, b.version, b.line) ∈ tokens.filterMap Located.requestLine? := by
    rw [← map_requestLine_blocksFrom tokens preface]
    exact List.mem_map_of_mem mem
  obtain ⟨⟨token, line⟩, mem, found⟩ := List.mem_filterMap.1 listed
  refine ⟨_, mem, ?_⟩
  cases token with
  | requestLine method url version =>
    cases found
    rfl
  | _ => cases found

/-- The block stands in front of the other, with all of its content. -/
def Block.Precedes (b other : Block) : Prop :=
  b.line < other.line ∧ ∀ t ∈ b.content, t.line < other.line

/-- Blocks of tokens in order stand in order, and their content behind their request lines. -/
theorem pairwise_precedes_blocksFrom {tokens : List Located}
    (ordered : tokens.Pairwise fun s t => s.line < t.line) (preface : List Located) :
    (blocksFrom preface tokens).Pairwise Block.Precedes ∧
      ∀ b ∈ blocksFrom preface tokens, ∀ t ∈ b.content, b.line < t.line := by
  induction tokens generalizing preface with
  | nil => exact ⟨.nil, List.forall_mem_nil _⟩
  | cons t rest ih =>
    rw [List.pairwise_cons] at ordered
    obtain ⟨first, ordered⟩ := ordered
    cases request : t.requestLine? with
    | none =>
      rw [blocksFrom_cons rest request]
      exact ih ordered _
    | some found =>
      obtain ⟨token, line⟩ := t
      cases token with
      | requestLine method url version =>
        rw [blocksFrom]
        refine ⟨List.pairwise_cons.2 ⟨fun other mem => ⟨?_, fun s inside => ?_⟩, (ih ordered []).1⟩,
          List.forall_mem_cons.2 ⟨fun s inside => ?_, (ih ordered []).2⟩⟩
        · obtain ⟨s, mem, same⟩ := exists_line_of_mem_blocksFrom mem
          exact same ▸ first s mem
        · -- The other request line stands behind what the first block has taken.
          have clean : ∀ s ∈ rest.takeWhile (!·.endsRequest), s.requestLine? = none := by
            intro s inside
            exact s.requestLine?_of_not_endsRequest (by simpa using List.mem_takeWhile_imp inside)
          have cut := List.takeWhile_append_dropWhile (p := (!·.endsRequest)) (l := rest)
          rw [← cut] at mem ordered
          rw [blocksFrom_append clean] at mem
          obtain ⟨s', mem, same⟩ := exists_line_of_mem_blocksFrom mem
          exact same ▸ (List.pairwise_append.1 ordered).2.2 s inside s' mem
        · exact first s ((List.takeWhile_prefix _).mem inside)
      | _ => cases request

/-- Where a header of a request is reported, a token of the block gives it. -/
theorem Block.exists_of_mem_headers {options : Options} {b : Block} {name header : String}
    (mem : header ∈ (b.request options name).headers.keys) :
    ∃ value, ⟨.header header value, (b.request options name).reportLine header⟩ ∈ b.content := by
  rw [keys_headers_request, ← Table.isSome_get?] at mem
  obtain ⟨line, found⟩ := Option.isSome_iff_exists.1 mem
  have last := b.headerLine?_request options name header
  rw [Request.headerLine?, found] at last
  obtain ⟨⟨token, line'⟩, inside, same, value, given⟩ :=
    exists_given_of_lastLine? _ _ last.symm
  have reported : (b.request options name).reportLine header = line' := by
    rw [Request.reportLine, Request.headerLine?, found, ← same]
    rfl
  cases token with
  | header name' value' =>
    cases given
    exact ⟨value, reported ▸ inside⟩
  | _ => cases given

/-! ## Documents -/

/-- Whether the requests of a document stand one after the other, each with its headers behind it,
and the names of headers have no blanks at the ends. -/
structure Document.IsOrderly (d : Document) : Prop where
  behind : ∀ r ∈ d.requests, ∀ name ∈ r.headers.keys, r.line < r.reportLine name
  apart : d.requests.Pairwise fun r s =>
    r.line < s.line ∧ ∀ name ∈ r.headers.keys, r.reportLine name < s.line
  tight : ∀ r ∈ d.requests, ∀ name ∈ r.headers.keys, trimmed name = name

theorem pairwise_of_forall₂ {α β : Type} {related : α → β → Prop} {before : α → α → Prop}
    {before' : β → β → Prop} {xs : List α} {ys : List β} (all : List.Forall₂ related xs ys)
    (ordered : xs.Pairwise before)
    (each : ∀ x x' y y', related x y → related x' y' → before x x' → before' y y') :
    ys.Pairwise before' := by
  induction all with
  | nil => exact .nil
  | cons first rest ih =>
    rw [List.pairwise_cons] at ordered ⊢
    refine ⟨fun y' mem => ?_, ih ordered.2⟩
    obtain ⟨i, found⟩ := List.getElem?_of_mem mem
    obtain ⟨x', place, later⟩ := exists_getElem?_of_forall₂ rest found
    exact each _ _ _ _ first later (ordered.1 x' (List.mem_of_getElem? place))

/-- The tokens of lines make an orderly document. -/
theorem isOrderly_draftDocument (options : Options) (lines : List (List Char)) :
    (draftDocument options (scanLines lines)).IsOrderly := by
  obtain ⟨apart, behind⟩ := pairwise_precedes_blocksFrom (pairwise_scanLines lines) []
  have requests := forall₂_nameRequests options 0 (blocks (scanLines lines))
  rw [← requests_draftDocument] at requests
  have block : ∀ r ∈ (draftDocument options (scanLines lines)).requests,
      ∃ b ∈ blocks (scanLines lines), r = b.request options r.name := by
    intro r mem
    obtain ⟨i, found⟩ := List.getElem?_of_mem mem
    obtain ⟨b, place, same⟩ := exists_block_of_getElem? found
    exact ⟨b, List.mem_of_getElem? place, same⟩
  refine ⟨fun r mem name header => ?_, ?_, fun r mem name header => ?_⟩
  · obtain ⟨b, mem, same⟩ := block r mem
    rw [same] at header ⊢
    obtain ⟨value, inside⟩ := Block.exists_of_mem_headers header
    exact behind b mem _ inside
  · refine pairwise_of_forall₂ requests apart fun b b' r s same same' precedes => ?_
    rw [same, same']
    refine ⟨precedes.1, fun name header => ?_⟩
    obtain ⟨value, inside⟩ := Block.exists_of_mem_headers header
    exact precedes.2 _ inside
  · obtain ⟨b, mem, same⟩ := block r mem
    rw [same] at header
    obtain ⟨value, inside⟩ := Block.exists_of_mem_headers header
    exact trimmed_of_header_mem_scanLines ((tokens_of_mem_blocks mem).2 _ inside)

end RequestFile
