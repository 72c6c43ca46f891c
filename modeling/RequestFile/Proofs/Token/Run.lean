import Mathlib
import RequestFile.Proofs.Token.Recognize
import RequestFile.Proofs.Token.Scan

/-!
# Runs of the scan

A scan goes through lines from a region to the next. `Region.after` is the region that it reaches,
and `Region.outputs` what each of the lines gives. Lines can be cut anywhere: what stands behind the
cut is scanned from the region that the lines in front lead to.
-/

namespace RequestFile

/-- The lines of a text that are scanned. -/
def linesOf (text : String) (normalize : Bool) : List (List Char) :=
  Text.lines (if normalize then Text.normalize text.toList else text.toList)

theorem scan_eq (text : String) (normalize : Bool) :
    scan text normalize = scanLines (linesOf text normalize) :=
  rfl

/-! ## Numbering -/

theorem line_of_mem_numbered {number : Nat} {tokens : List (Option Token)} {t : Located}
    (mem : t ∈ numbered number tokens) : number ≤ t.line ∧ t.line < number + tokens.length := by
  obtain ⟨⟨token, line⟩, inside, same⟩ := List.mem_filterMap.1 mem
  obtain ⟨read, -, rfl⟩ := Option.map_eq_some_iff.1 same
  exact ⟨List.le_snd_of_mem_zipIdx inside, List.snd_lt_add_of_mem_zipIdx inside⟩

/-- Tokens stand on lines of their own, in order. -/
theorem pairwise_numbered (number : Nat) (tokens : List (Option Token)) :
    (numbered number tokens).Pairwise fun s t => s.line < t.line := by
  induction tokens generalizing number with
  | nil => exact .nil
  | cons token tokens ih =>
    rw [numbered_cons, List.pairwise_append]
    refine ⟨by cases token <;> simp, ih _, fun s first t later => ?_⟩
    obtain ⟨read, -, rfl⟩ := Option.map_eq_some_iff.1 (Option.mem_toList.1 first)
    exact (line_of_mem_numbered later).1

/-- The token with a number is what the line with this number gives. -/
theorem filter_numbered (number i : Nat) (tokens : List (Option Token)) :
    (numbered number tokens).filter (·.line == number + i) =
      ((tokens[i]?).join.map fun token => { token, line := number + i }).toList := by
  induction tokens generalizing number i with
  | nil => rfl
  | cons token tokens ih =>
    rw [numbered_cons, List.filter_append]
    cases i with
    | zero =>
      have later : (numbered (number + 1) tokens).filter (·.line == number + 0) = [] := by
        rw [List.filter_eq_nil_iff]
        intro t mem
        have bound := (line_of_mem_numbered mem).1
        simp
        omega
      rw [later]
      cases token <;> simp
    | succ i =>
      have next : number + (i + 1) = number + 1 + i := by omega
      have other : number ≠ number + 1 + i := by omega
      rw [next, ih]
      cases token <;> simp [other]

namespace Region

/-! ## Regions behind lines -/

/-- The region behind some lines. -/
def after (region : Region) : List (List Char) → Region
  | [] => region
  | raw :: rest => (region.step raw).2.after rest

/-- What each of some lines gives. -/
def outputs (region : Region) : List (List Char) → List (Option Token)
  | [] => []
  | raw :: rest => (region.step raw).1 :: (region.step raw).2.outputs rest

theorem reads_outputs (region : Region) (lines : List (List Char)) :
    Reads region lines (region.outputs lines) (region.after lines) := by
  induction lines generalizing region with
  | nil => exact .nil region
  | cons raw rest ih => exact .cons rfl (ih _)

theorem scanFrom_eq_numbered (region : Region) (number : Nat) (lines : List (List Char)) :
    region.scanFrom number lines = numbered number (region.outputs lines) :=
  (region.reads_outputs lines).scanFrom_eq number

@[simp]
theorem length_outputs (region : Region) (lines : List (List Char)) :
    (region.outputs lines).length = lines.length :=
  (region.reads_outputs lines).length

theorem outputs_append (region : Region) (lines more : List (List Char)) :
    region.outputs (lines ++ more) = region.outputs lines ++ (region.after lines).outputs more := by
  induction lines generalizing region with
  | nil => rfl
  | cons raw rest ih =>
    rw [List.cons_append, outputs, ih]
    rfl

theorem after_append (region : Region) (lines more : List (List Char)) :
    region.after (lines ++ more) = (region.after lines).after more := by
  induction lines generalizing region with
  | nil => rfl
  | cons raw rest ih => exact ih _

/-- A line gives what the step from the region in front of it gives. -/
theorem getElem?_outputs (region : Region) (lines : List (List Char)) (i : Nat) :
    (region.outputs lines)[i]? =
      lines[i]?.map fun raw => ((region.after (lines.take i)).step raw).1 := by
  induction lines generalizing region i with
  | nil => rfl
  | cons raw rest ih =>
    cases i with
    | zero => rfl
    | succ i => exact ih _ i

/-- Lines are scanned one after the other. -/
theorem scanFrom_append (region : Region) (number : Nat) (lines more : List (List Char)) :
    region.scanFrom number (lines ++ more) =
      region.scanFrom number lines ++
        (region.after lines).scanFrom (number + lines.length) more := by
  rw [scanFrom_eq_numbered, outputs_append, numbered_append, length_outputs,
    ← scanFrom_eq_numbered, ← scanFrom_eq_numbered]

end Region

/-- Tokens stand on the lines that are scanned. -/
theorem line_of_mem_scanLines {lines : List (List Char)} {t : Located}
    (mem : t ∈ scanLines lines) : 1 ≤ t.line ∧ t.line ≤ lines.length := by
  rw [scanLines, Region.scanFrom_eq_numbered] at mem
  have bounds := line_of_mem_numbered mem
  rw [Region.length_outputs] at bounds
  omega

/-- The tokens of lines stand in the order of the lines. -/
theorem pairwise_scanLines (lines : List (List Char)) :
    (scanLines lines).Pairwise fun s t => s.line < t.line := by
  rw [scanLines, Region.scanFrom_eq_numbered]
  exact pairwise_numbered 1 _

/-- The tokens of the lines in front of a line are those with smaller numbers. -/
theorem filter_line_lt_scanLines (lines : List (List Char)) (i : Nat) :
    (scanLines lines).filter (·.line < i + 1) = scanLines (lines.take i) := by
  have split := Region.preamble.scanFrom_append 1 (lines.take i) (lines.drop i)
  rw [List.take_append_drop] at split
  have front : (scanLines (lines.take i)).filter (·.line < i + 1) = scanLines (lines.take i) := by
    rw [List.filter_eq_self, scanLines, Region.scanFrom_eq_numbered]
    intro t mem
    have bound := (line_of_mem_numbered mem).2
    simp at bound ⊢
    omega
  have back : ((Region.preamble.after (lines.take i)).scanFrom (1 + (lines.take i).length)
      (lines.drop i)).filter (·.line < i + 1) = [] := by
    rw [List.filter_eq_nil_iff, Region.scanFrom_eq_numbered]
    intro t mem
    obtain ⟨first, last⟩ := line_of_mem_numbered mem
    simp at first last ⊢
    omega
  rw [scanLines, split, List.filter_append, ← scanLines, front, back, List.append_nil]

end RequestFile
