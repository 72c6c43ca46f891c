import Mathlib
import RequestFile.Proofs.Text.Blank
import RequestFile.Proofs.Token.Line

/-!
# Headers in a file

A line is read as a header only where everything else has been ruled out, so the headers of a file
are what one recognizer makes, and their names have no blanks at the ends.
-/

namespace RequestFile

namespace Token

variable {line : List Char} {name value : String}

/-! ## What is no header -/

theorem directive?_ne_header : directive? line ≠ some (.header name value) := by
  intro found
  unfold directive? at found
  split at found
  · split at found
    · split at found
      · cases found
      · split at found
        · cases found
        · cases found
    · cases found
  · cases found

theorem comment?_ne_header : comment? line ≠ some (.header name value) := by
  intro found
  obtain ⟨rest, -, same⟩ := Option.map_eq_some_iff.1 found
  cases read : directive? rest with
  | none =>
    rw [read] at same
    cases same
  | some token =>
    rw [read, Option.getD_some] at same
    exact directive?_ne_header (same ▸ read)

theorem assignment?_ne_header : assignment? line ≠ some (.header name value) := by
  intro found
  unfold assignment? at found
  split at found
  · split at found
    · cases found
    · cases found
  · cases found

theorem queryPart?_ne_header : queryPart? line ≠ some (.header name value) := by
  intro found
  unfold queryPart? at found
  split at found
  · split at found
    · cases found
    · cases found
  · cases found

theorem bodyFile?_ne_header : bodyFile? line ≠ some (.header name value) := by
  intro found
  obtain ⟨directive, -, same⟩ := Option.map_eq_some_iff.1 found
  cases same

theorem requestLine?_ne_header : requestLine? line ≠ some (.header name value) := by
  intro found
  cases isRequest_of_requestLine? found

theorem standardRequestLine?_ne_header :
    standardRequestLine? line ≠ some (.header name value) := by
  intro found
  cases isRequest_of_standardRequestLine? found

/-- The name of a header as it is read has no blanks at its ends. -/
theorem trimmed_of_header? (found : header? line = some (.header name value)) :
    trimmed name = name := by
  unfold header? at found
  split at found
  · cases found
    rw [trimmed, String.toList_ofList, Text.trim_trim]
  · cases found

end Token

namespace Region

variable {line raw : List Char} {name value : String}

theorem stepPreamble_ne_header : (stepPreamble line).1 ≠ some (.header name value) := by
  intro made
  unfold stepPreamble at made
  split at made
  · cases made
  split at made
  · next found =>
    cases made
    exact Token.comment?_ne_header found
  split at made
  · next found =>
    cases made
    exact Token.assignment?_ne_header found
  split at made
  · next found =>
    cases made
    exact Token.requestLine?_ne_header found
  · cases made

/-- Of the regions only that of the headers has headers. -/
theorem header?_of_stepHeaders {queryOpen : Bool}
    (made : (stepHeaders queryOpen line).1 = some (.header name value)) :
    Token.header? line = some (.header name value) := by
  unfold stepHeaders at made
  split at made
  · cases made
  split at made
  · next found =>
    cases made
    exact absurd found Token.comment?_ne_header
  split at made
  · next found =>
    cases made
    split at found
    · exact absurd found Token.queryPart?_ne_header
    · cases found
  split at made
  · next found =>
    cases made
    exact absurd found Token.bodyFile?_ne_header
  split at made
  · next found =>
    cases made
    exact absurd found Token.standardRequestLine?_ne_header
  split at made
  · next found =>
    cases made
    exact found
  · cases made

theorem stepBody_ne_header {afterBlank : Bool} {depth : Nat} :
    (stepBody afterBlank depth raw line).1 ≠ some (.header name value) := by
  intro made
  unfold stepBody at made
  split at made
  · cases made
  split at made
  · cases made
  split at made
  · next found =>
    cases made
    split at found
    · exact Token.standardRequestLine?_ne_header found
    · cases found
  split at made
  · next found =>
    cases made
    exact Token.comment?_ne_header found
  split at made
  · next found =>
    cases made
    exact Token.bodyFile?_ne_header found
  · cases made

/-- A header is what the recognizer of headers makes of a line, in whatever region. -/
theorem header?_of_step {region : Region}
    (made : (region.step raw).1 = some (.header name value)) :
    Token.header? (Text.trim raw) = some (.header name value) := by
  unfold step at made
  dsimp only at made
  split at made
  · next found =>
    obtain ⟨rest, -, rfl⟩ := Option.map_eq_some_iff.1 found
    cases made
  · cases region with
    | preamble => exact absurd made stepPreamble_ne_header
    | headers queryOpen => exact header?_of_stepHeaders made
    | body afterBlank depth => exact absurd made stepBody_ne_header

end Region

/-- The headers of a text have names without blanks at the ends. -/
theorem trimmed_of_header_mem_scanLines {lines : List (List Char)} {name value : String}
    {number : Nat} (mem : ⟨.header name value, number⟩ ∈ scanLines lines) :
    trimmed name = name := by
  rw [scanLines, Region.scanFrom_eq_numbered] at mem
  obtain ⟨i, output⟩ := List.getElem?_of_mem (mem_of_mem_numbered mem)
  rw [Region.getElem?_outputs] at output
  obtain ⟨raw, -, made⟩ := Option.map_eq_some_iff.1 output
  exact Token.trimmed_of_header? (Region.header?_of_step made)

end RequestFile
