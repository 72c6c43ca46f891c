import Mathlib
import RequestFile.Proofs.Assembly.Sequence

/-!
# Requests by their lines

The requests of a parsed file have the lines of the request lines in it, one after the other. So the
search for the request that a line belongs to may stop at the first request behind the line: the one
that it has met last is the last of all that do not start behind the line.
-/

namespace RequestFile

/-! ## The lines of a document -/

/-- A document has one request for each request line, in the order of the tokens. -/
theorem map_line_draftDocument (options : Options) (tokens : List Located) :
    (draftDocument options tokens).requests.map (·.line) =
      (tokens.filterMap Located.requestLine?).map fun (_, _, _, line) => line := by
  have named := forall₂_nameRequests options 0 (blocks tokens)
  rw [← requests_draftDocument] at named
  have lines : List.Forall₂ (· = ·) ((blocks tokens).map (·.line))
      ((draftDocument options tokens).requests.map (·.line)) := by
    rw [List.forall₂_map_left_iff, List.forall₂_map_right_iff]
    refine named.imp fun b r same => ?_
    rw [same]
    rfl
  rw [List.forall₂_eq_eq_eq] at lines
  rw [← lines, ← map_requestLine_blocksFrom tokens [], List.map_map]
  rfl

theorem exists_line_iff_exists_requestLine (options : Options) (tokens : List Located)
    (line : Nat) :
    (∃ r ∈ (draftDocument options tokens).requests, r.line = line) ↔
      ∃ method url version, ⟨.requestLine method url version, line⟩ ∈ tokens := by
  rw [← List.mem_map, map_line_draftDocument]
  simp only [List.mem_map, List.mem_filterMap, Prod.exists]
  constructor
  · rintro ⟨method, url, version, line', ⟨⟨token, number⟩, mem, found⟩, rfl⟩
    cases token with
    | requestLine =>
      cases found
      exact ⟨method, url, version, mem⟩
    | _ => cases found
  · rintro ⟨method, url, version, mem⟩
    exact ⟨method, url, version, line, ⟨_, mem, rfl⟩, rfl⟩

/-! ## The search for a line -/

section Search

variable {requests : List Request} (ordered : requests.Pairwise fun r s => r.line < s.line)
include ordered

/-- In order, the requests up to the first one behind a line are all that are not behind it. -/
theorem takeWhile_line_le (line : Nat) :
    requests.takeWhile (·.line ≤ line) = requests.filter (·.line ≤ line) := by
  induction requests with
  | nil => rfl
  | cons r rest ih =>
    obtain ⟨first, ordered⟩ := List.pairwise_cons.1 ordered
    by_cases early : r.line ≤ line
    · rw [List.takeWhile_cons_of_pos (by simpa using early),
        List.filter_cons_of_pos (by simpa using early), ih ordered]
    · have later : ∀ s ∈ rest, ¬ s.line ≤ line := by
        intro s mem
        have := first s mem
        omega
      rw [List.takeWhile_cons_of_neg (by simpa using early),
        List.filter_cons_of_neg (by simpa using early), eq_comm, List.filter_eq_nil_iff]
      simpa using later

/-- In order, the last request is the one with the greatest line. -/
theorem getLast?_eq_some_iff_line_le {r : Request} :
    requests.getLast? = some r ↔ r ∈ requests ∧ ∀ s ∈ requests, s.line ≤ r.line := by
  have greatest : ∀ {r : Request}, requests.getLast? = some r →
      ∀ s ∈ requests, s = r ∨ s.line < r.line := by
    intro r last s mem
    obtain ⟨front, rfl⟩ := List.getLast?_eq_some_iff.1 last
    rcases List.mem_append.1 mem with inside | single
    · exact .inr ((List.pairwise_append.1 ordered).2.2 s inside r (List.mem_singleton_self r))
    · exact .inl (List.mem_singleton.1 single)
  constructor
  · intro last
    refine ⟨List.mem_of_getLast? last, fun s mem => ?_⟩
    rcases greatest last s mem with rfl | before
    · exact le_refl _
    · exact before.le
  · rintro ⟨mem, bound⟩
    obtain ⟨r', last⟩ := Option.isSome_iff_exists.1
      (List.getLast?_isSome.2 (List.ne_nil_of_mem mem))
    rcases greatest last r mem with rfl | before
    · exact last
    · exact absurd (bound r' (List.mem_of_getLast? last)) (not_le.2 before)

end Search

namespace Document

variable {d : Document} (ordered : d.requests.Pairwise fun r s => r.line < s.line)
include ordered

theorem requestAtLine?_eq_some_iff {line : Nat} {r : Request} :
    d.requestAtLine? line = some r ↔
      r ∈ d.requests ∧ r.line ≤ line ∧ ∀ s ∈ d.requests, s.line ≤ line → s.line ≤ r.line := by
  rw [requestAtLine?, takeWhile_line_le ordered,
    getLast?_eq_some_iff_line_le (ordered.sublist List.filter_sublist)]
  simp only [List.mem_filter, decide_eq_true_eq, and_assoc, and_imp]

theorem requestAtLine?_eq_none_iff {line : Nat} :
    d.requestAtLine? line = none ↔ ∀ r ∈ d.requests, line < r.line := by
  rw [requestAtLine?, takeWhile_line_le ordered, List.getLast?_eq_none_iff, List.filter_eq_nil_iff]
  simp only [decide_eq_true_eq, not_le]

end Document

/-! ## Parsed files -/

/-- The requests of a parsed file stand in the order of their lines, which are the lines of the
request lines; and the request at a line is the last one that does not start behind it. -/
theorem parse_requests_byLine {text : String} {options : Options} {d : Document}
    (parsed : parse text options = .ok d) :
    (d.requests.Pairwise fun r s => r.line < s.line) ∧
      (∀ line, (∃ r ∈ d.requests, r.line = line) ↔
        ∃ method url version,
          ⟨.requestLine method url version, line⟩ ∈ scan text options.normalizeLineEndings) ∧
      ∀ line,
        (∀ r, d.requestAtLine? line = some r ↔
          r ∈ d.requests ∧ r.line ≤ line ∧ ∀ s ∈ d.requests, s.line ≤ line → s.line ≤ r.line) ∧
        (d.requestAtLine? line = none ↔ ∀ r ∈ d.requests, line < r.line) := by
  obtain ⟨-, rfl, -, -⟩ := parseTokens_eq_ok_iff.1 parsed
  have ordered : (draftDocument options
      (scan text options.normalizeLineEndings)).requests.Pairwise fun r s => r.line < s.line :=
    (isOrderly_draftDocument options (linesOf text options.normalizeLineEndings)).apart.imp And.left
  exact ⟨ordered, exists_line_iff_exists_requestLine options _, fun line =>
    ⟨fun r => Document.requestAtLine?_eq_some_iff ordered,
      Document.requestAtLine?_eq_none_iff ordered⟩⟩

/-- A variable and two requests, the first of which ends with a separator. -/
def twoRequests : String :=
  "@a = 1\nGET /a\n\n###\n\nPUT /b"

/-- The document of this text. -/
def twoRequestsDocument : Document where
  requests :=
    [{ name := "request-1", method := "GET", url := "/a", line := 2
       metadata := { name := "request-1" } },
     { name := "request-2", method := "PUT", url := "/b", line := 6
       metadata := { name := "request-2" } }]
  fileVariables := .ofList [("a", "1")]
  variableLines := .ofList [("a", 1)]

theorem parse_requests_byLine_twoRequests :
    parse twoRequests = .ok twoRequestsDocument ∧
      (twoRequestsDocument.requests.Pairwise fun r s => r.line < s.line) ∧
      (∃ method url version, ⟨.requestLine method url version, 6⟩ ∈ scan twoRequests true) ∧
      twoRequestsDocument.requestAtLine? 1 = none ∧
      twoRequestsDocument.requestAtLine? 5 = twoRequestsDocument.requests.head? := by
  have parsed : parse twoRequests = .ok twoRequestsDocument := by decide +kernel
  obtain ⟨ordered, lines, search⟩ := parse_requests_byLine parsed
  refine ⟨parsed, ordered, (lines 6).1 (by simp [twoRequestsDocument]), (search 1).2.2 ?_, ?_⟩
  · simp [twoRequestsDocument]
  · exact ((search 5).1 _).2 (by simp [twoRequestsDocument])

end RequestFile
