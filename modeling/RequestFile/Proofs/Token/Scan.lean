import Mathlib
import RequestFile.Proofs.Text.Line
import RequestFile.Token.Scan

/-!
# Scanning line by line

What a run of lines makes of a region, and which lines each of the readers takes. `Region.Reads`
relates lines to what each of them gives, so that a file can be read piece by piece.
-/

namespace RequestFile

/-- What lines give, on consecutive lines from a number on. -/
def numbered (number : Nat) (tokens : List (Option Token)) : List Located :=
  (tokens.zipIdx number).filterMap fun (token, line) => token.map fun token => { token, line }

theorem numbered_cons (number : Nat) (token : Option Token) (tokens : List (Option Token)) :
    numbered number (token :: tokens) =
      (token.map fun token => { token, line := number }).toList ++
        numbered (number + 1) tokens := by
  cases token <;> simp [numbered, List.zipIdx_cons]

theorem numbered_append (number : Nat) (tokens more : List (Option Token)) :
    numbered number (tokens ++ more) =
      numbered number tokens ++ numbered (number + tokens.length) more := by
  simp [numbered, List.zipIdx_append]

theorem mem_of_mem_numbered {number : Nat} {tokens : List (Option Token)} {t : Located}
    (mem : t ∈ numbered number tokens) : some t.token ∈ tokens := by
  obtain ⟨⟨token, line⟩, inside, same⟩ := List.mem_filterMap.1 mem
  obtain ⟨read, rfl, rfl⟩ := Option.map_eq_some_iff.1 same
  exact List.fst_mem_of_mem_zipIdx inside

/-- What does not depend on lines can be collected without them. -/
theorem filterMap_numbered {α : Type} {f : Located → Option α}
    (same : ∀ token line, f { token, line } = f { token, line := 0 }) (number : Nat)
    (tokens : List (Option Token)) :
    (numbered number tokens).filterMap f =
      tokens.filterMap (·.bind fun token => f { token, line := 0 }) := by
  induction tokens generalizing number with
  | nil => rfl
  | cons token tokens ih =>
    rw [numbered_cons, List.filterMap_append, ih]
    cases token with
    | none => simp
    | some token => cases found : f { token, line := 0 } <;> simp [same token number, found]

/-- The lines of names that stand on consecutive lines. -/
theorem filterMap_numbered_names {α : Type} {token : String × α → Token}
    {f : Located → Option (String × Nat)}
    (reads : ∀ entry line, f ⟨token entry, line⟩ = some (entry.1, line)) (number : Nat)
    (entries : List (String × α)) :
    (numbered number (entries.map fun entry => some (token entry))).filterMap f =
      (entries.zipIdx number).map fun (entry, line) => (entry.1, line) := by
  induction entries generalizing number with
  | nil => rfl
  | cons entry rest ih =>
    rw [List.map_cons, numbered_cons, List.filterMap_append, ih, List.zipIdx_cons, List.map_cons,
      Option.map_some, Option.toList_some, List.filterMap_cons, reads]
    rfl

namespace Region

theorem scanFrom_cons (region : Region) (number : Nat) (raw : List Char)
    (rest : List (List Char)) :
    region.scanFrom number (raw :: rest) =
      ((region.step raw).1.map fun token => { token, line := number }).toList ++
        (region.step raw).2.scanFrom (number + 1) rest :=
  rfl

/-- What each of some lines gives in a region, and the region behind them. -/
inductive Reads : Region → List (List Char) → List (Option Token) → Region → Prop
  | nil (region : Region) : Reads region [] [] region
  | cons {region mid next : Region} {raw : List Char} {rest : List (List Char)}
      {token : Option Token} {tokens : List (Option Token)}
      (step : region.step raw = (token, mid)) (later : Reads mid rest tokens next) :
      Reads region (raw :: rest) (token :: tokens) next

theorem Reads.append {region mid next : Region} {lines more : List (List Char)}
    {tokens later : List (Option Token)} (first : Reads region lines tokens mid)
    (second : Reads mid more later next) : Reads region (lines ++ more) (tokens ++ later) next := by
  induction first with
  | nil region => exact second
  | cons step _ ih => exact .cons step (ih second)

theorem Reads.single {region next : Region} {raw : List Char} {token : Option Token}
    (step : region.step raw = (token, next)) : Reads region [raw] [token] next :=
  .cons step (.nil next)

/-- Lines that leave the region as it is. -/
theorem Reads.map {α : Type} {region : Region} {line : α → List Char} {token : α → Option Token}
    {as : List α} (step : ∀ a ∈ as, region.step (line a) = (token a, region)) :
    Reads region (as.map line) (as.map token) region := by
  induction as with
  | nil => exact .nil region
  | cons a as ih =>
    obtain ⟨first, others⟩ := List.forall_mem_cons.1 step
    exact .cons first (ih others)

theorem Reads.length {region next : Region} {lines : List (List Char)}
    {tokens : List (Option Token)} (reads : Reads region lines tokens next) :
    tokens.length = lines.length := by
  induction reads with
  | nil region => rfl
  | cons _ _ ih => rw [List.length_cons, List.length_cons, ih]

/-- The tokens of lines that are read. -/
theorem Reads.scanFrom_eq {region next : Region} {lines : List (List Char)}
    {tokens : List (Option Token)} (reads : Reads region lines tokens next) (number : Nat) :
    region.scanFrom number lines = numbered number tokens := by
  induction reads generalizing number with
  | nil region => rfl
  | cons step _ ih => rw [scanFrom_cons, step, numbered_cons, ih]

end Region

/-- The tokens of a text that is put together from lines. -/
theorem scan_intercalate {texts : List String} (oneLine : ∀ s ∈ texts, isOneLine s = true)
    (unmarked : ∀ c ∈ ("\n".intercalate texts).toList.head?, c.toNat ≠ 0xFEFF)
    {tokens : List (Option Token)} {next : Region}
    (reads : Region.Reads .preamble (texts.map String.toList) tokens next) :
    scan ("\n".intercalate texts) = numbered 1 tokens := by
  rw [scan, if_pos rfl, normalize_intercalate oneLine unmarked, scanLines]
  cases texts with
  | nil =>
    cases reads
    rfl
  | cons s rest =>
    rw [lines_intercalate (List.cons_ne_nil s rest) oneLine]
    exact reads.scanFrom_eq 1

end RequestFile
