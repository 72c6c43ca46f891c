import Mathlib
import RequestFile.Proofs.Token.Run

/-!
# Separators

A line that starts with `###` ends whatever is open: a block of headers, a body, brackets, the query
of a URL. The lines behind it are read as if they stood alone.
-/

namespace RequestFile

/-- The same token further down. -/
def Located.moved (t : Located) (lines : Nat) : Located :=
  { t with line := t.line + lines }

theorem numbered_add (number lines : Nat) (tokens : List (Option Token)) :
    numbered (number + lines) tokens = (numbered number tokens).map (·.moved lines) := by
  induction tokens generalizing number with
  | nil => rfl
  | cons token tokens ih =>
    have next : number + lines + 1 = number + 1 + lines := by omega
    rw [numbered_cons, numbered_cons, List.map_append, next, ih]
    cases token <;> rfl

theorem Region.scanFrom_add (region : Region) (number lines : Nat) (raws : List (List Char)) :
    region.scanFrom (number + lines) raws = (region.scanFrom number raws).map (·.moved lines) := by
  rw [scanFrom_eq_numbered, numbered_add, ← scanFrom_eq_numbered]

/-- The name that a separator gives to the next request: the word behind its marks, if there is
exactly one. -/
def inlineName? (mark : String) : Option String :=
  Token.separatorName? ((Text.trim mark.toList).drop 3)

theorem separator?_of_isSeparator {line : List Char} (marked : Line.isSeparator line = true) :
    Token.separator? line = some (.separator (Token.separatorName? (line.drop 3))) := by
  obtain ⟨rest, rfl⟩ := List.isPrefixOf_iff_prefix.1 marked
  rfl

/-- From any region a separator leads to a new block. -/
theorem Region.step_of_isSeparator (region : Region) {mark : String}
    (marked : Line.isSeparator (Text.trim mark.toList) = true) :
    region.step mark.toList = (some (.separator (inlineName? mark)), preamble) :=
  step_of_separator (separator?_of_isSeparator marked)

/-- The tokens of a text that is put together from lines and is not normalized. No lines make an
empty text, which has one line but no tokens. -/
theorem scan_intercalate_as_written {texts : List String} (whole : ∀ s ∈ texts, '\n' ∉ s.toList) :
    scan ("\n".intercalate texts) false = scanLines (texts.map String.toList) := by
  cases texts with
  | nil => rfl
  | cons s rest =>
    rw [scan_eq, linesOf, if_neg Bool.false_ne_true,
      lines_intercalate_of_not_mem (List.cons_ne_nil s rest) whole]

/-- Lines in front of a separator and lines behind it are read as if they stood alone, whatever is
left open in front of it. Between their tokens stands a separator with a name that depends on its
line only. -/
theorem separator_isolates (before after : List String) (mark : String)
    (marked : Line.isSeparator (Text.trim mark.toList) = true)
    (whole : ∀ s ∈ before ++ mark :: after, '\n' ∉ s.toList) :
    scan ("\n".intercalate (before ++ mark :: after)) false =
      scan ("\n".intercalate before) false ++
        ⟨.separator (inlineName? mark), before.length + 1⟩ ::
          (scan ("\n".intercalate after) false).map (·.moved (before.length + 1)) := by
  have wholeBefore : ∀ s ∈ before, '\n' ∉ s.toList :=
    fun s mem => whole s (List.mem_append_left _ mem)
  have wholeAfter : ∀ s ∈ after, '\n' ∉ s.toList :=
    fun s mem => whole s (List.mem_append_right before (List.mem_cons_of_mem mark mem))
  rw [scan_intercalate_as_written whole, scan_intercalate_as_written wholeBefore,
    scan_intercalate_as_written wholeAfter, List.map_append, List.map_cons]
  simp only [scanLines]
  rw [Region.scanFrom_append, Region.scanFrom_cons, Region.step_of_isSeparator _ marked]
  have next : 1 + (before.map String.toList).length + 1 = 1 + (before.length + 1) := by
    rw [List.length_map, Nat.add_assoc]
  rw [next, Region.scanFrom_add, List.length_map, Nat.add_comm 1 before.length]
  rfl

/-- Headers and a body with an open bracket, which a separator ends. -/
def unfinishedLines : List String :=
  ["POST /a", "", "\x7b \"open\": ["]

theorem separator_isolates_unfinishedLines :
    scan ("\n".intercalate (unfinishedLines ++ " ### next" :: ["", "&b", "GET /b"])) false =
      [⟨.requestLine "POST" "/a" none, 1⟩, ⟨.bodyLine "\x7b \"open\": [", 3⟩,
        ⟨.separator (some "next"), 4⟩, ⟨.unrecognized "&b", 6⟩,
        ⟨.requestLine "GET" "/b" none, 7⟩] := by
  rw [separator_isolates unfinishedLines ["", "&b", "GET /b"] " ### next" (by decide) (by decide)]
  decide +kernel

end RequestFile
