import Mathlib
import RequestFile.Proofs.Token.Line

/-!
# Carriage returns that are kept

A reader that does not normalize ends lines at LF only, so that in a file with CRLF every line comes
to it with a CR at its end. All recognizers look at trimmed lines, and a CR opens and closes no
bracket, so the CR is seen nowhere but in the lines of bodies, which are kept as they are written.
-/

namespace RequestFile

/-! ## Lines -/

namespace Text

/-- A line without the CR at its end, if it has one. -/
def dropReturn (cs : List Char) : List Char :=
  if cs.getLast? = some '\r' then cs.dropLast else cs

/-- A line is what is left of it, perhaps with a CR behind. -/
theorem eq_dropReturn_append (cs : List Char) :
    cs = dropReturn cs ∨ cs = dropReturn cs ++ ['\r'] := by
  unfold dropReturn
  split
  · next last => exact .inr (List.dropLast_append_getLast? '\r' last).symm
  · exact .inl rfl

theorem dropReturn_cons {c : Char} (other : c ≠ '\r') (cs : List Char) :
    dropReturn (c :: cs) = c :: dropReturn cs := by
  cases cs with
  | nil => simp [dropReturn, other]
  | cons d cs =>
    rw [dropReturn, dropReturn, List.getLast?_cons_cons]
    split
    · rfl
    · rfl

/-- Whether every CR of a text is directly followed by an LF. -/
def ReturnsPaired (cs : List Char) : Prop :=
  ∀ i < cs.length, cs[i]? = some '\r' → cs[i + 1]? = some '\n'

instance : DecidablePred ReturnsPaired := fun cs =>
  inferInstanceAs (Decidable (∀ i < cs.length, _))

theorem ReturnsPaired.tail {c : Char} {cs : List Char} (paired : ReturnsPaired (c :: cs)) :
    ReturnsPaired cs :=
  fun i bound => paired (i + 1) (Nat.succ_lt_succ bound)

theorem lines_feed (cs : List Char) : lines ('\n' :: cs) = [] :: lines cs := by
  rw [lines, List.splitOn, List.splitOnP_cons_eq_if_modifyHead, if_pos (beq_self_eq_true _)]
  rfl

theorem lines_cons {c : Char} (other : c ≠ '\n') (cs : List Char) :
    lines (c :: cs) = (lines cs).modifyHead (c :: ·) := by
  rw [lines, List.splitOn, List.splitOnP_cons_eq_if_modifyHead, if_neg (by simpa using other)]
  rfl

/-- The lines of the normalized text are the lines between LFs, each without the CR at its end. -/
theorem lines_unifyBreaks {cs : List Char} (paired : ReturnsPaired cs) :
    lines (unifyBreaks cs) = (lines cs).map dropReturn := by
  induction cs using unifyBreaks.induct with
  | case1 => rfl
  | case2 rest ih =>
    rw [unifyBreaks.eq_2, lines_feed, ih paired.tail.tail, lines_cons (by decide), lines_feed,
      List.modifyHead_cons, List.map_cons]
    rfl
  | case3 rest alone ih =>
    have feed : rest[0]? = some '\n' := paired 0 (Nat.succ_pos _) rfl
    rw [← List.head?_eq_getElem?, List.head?_eq_some_iff] at feed
    obtain ⟨later, rfl⟩ := feed
    exact absurd rfl (alone later)
  | case4 c rest crlf cr ih =>
    have other : c ≠ '\r' := by
      rintro rfl
      exact cr rfl
    rw [unifyBreaks_cons_of_ne other]
    by_cases feed : c = '\n'
    · rw [feed, lines_feed, lines_feed, ih paired.tail, List.map_cons]
      rfl
    · rw [lines_cons feed, lines_cons feed, ih paired.tail]
      cases lines rest with
      | nil => rfl
      | cons line more =>
        rw [List.map_cons, List.modifyHead_cons, List.modifyHead_cons, List.map_cons,
          dropReturn_cons other]

theorem trim_dropReturn (cs : List Char) : trim (dropReturn cs) = trim cs := by
  have blank : ∀ c ∈ ['\r'], isBlank c = true := List.forall_mem_singleton.2 rfl
  rcases eq_dropReturn_append cs with same | split
  · rw [← same]
  · conv_rhs => rw [split, trim_append_of_blank blank]

end Text

/-- No bracket is opened or closed by a CR at the end of a line, in quotes or not. -/
theorem Token.depthAfter_append_return (quoted escaped : Bool) (depth : Nat) (cs : List Char) :
    depthAfter quoted escaped depth (cs ++ ['\r']) = depthAfter quoted escaped depth cs := by
  induction cs generalizing quoted escaped depth with
  | nil => cases quoted <;> cases escaped <;> rfl
  | cons c cs ih =>
    rw [List.cons_append]
    cases quoted with
    | false => simp only [depthAfter, ih]
    | true => cases escaped <;> simp only [depthAfter, ih]

theorem Token.depthAfter_dropReturn (depth : Nat) (cs : List Char) :
    depthAfter false false depth (Text.dropReturn cs) = depthAfter false false depth cs := by
  rcases Text.eq_dropReturn_append cs with same | split
  · rw [← same]
  · conv_rhs => rw [split, depthAfter_append_return]

/-! ## Steps -/

namespace Token

/-- A token without the CR at the end of its line, if it is a line of a body that has one. -/
def withoutReturn : Token → Token
  | .bodyLine text => .bodyLine (String.ofList (Text.dropReturn text.toList))
  | token => token

end Token

namespace Region

/-- How a line is written is seen in the text of a body only: of two lines that are the same when
they are trimmed, and that have the same brackets, both make the same token and lead to the same
region, unless both are kept as they are written. -/
theorem step_congr (region : Region) {raw other : List Char}
    (trimmed : Text.trim raw = Text.trim other)
    (brackets : ∀ depth,
      Token.depthAfter false false depth raw = Token.depthAfter false false depth other) :
    region.step raw = region.step other ∨
      ∃ next, region.step raw = (some (.bodyLine (String.ofList raw)), next) ∧
        region.step other = (some (.bodyLine (String.ofList other)), next) := by
  have kept (depth : Nat) : ∃ next,
      keepLine depth raw = (some (.bodyLine (String.ofList raw)), next) ∧
      keepLine depth other = (some (.bodyLine (String.ofList other)), next) :=
    ⟨_, rfl, by rw [keepLine, brackets]⟩
  unfold step
  dsimp only
  rw [trimmed]
  split
  · exact .inl rfl
  · cases region with
    | preamble => exact .inl rfl
    | headers queryOpen => exact .inl rfl
    | body afterBlank depth =>
      dsimp only [stepBody]
      split
      · exact .inr (kept depth)
      split
      · exact .inl rfl
      split
      · exact .inl rfl
      split
      · exact .inl rfl
      split
      · exact .inl rfl
      · exact .inr (kept 0)

/-- The text of a body that a line makes is empty or the line as it is written. -/
theorem text_of_step {region : Region} {raw : List Char} {s : String}
    (made : (region.step raw).1 = some (.bodyLine s)) : s = "" ∨ s = String.ofList raw := by
  cases blank : Text.allBlank raw with
  | true =>
    rw [(region.step_of_blank blank).1] at made
    split at made
    · split at made
      · cases made
        exact .inl rfl
      · cases made
        exact .inr rfl
    · cases made
  | false =>
    obtain ⟨token, same, verbatim, -⟩ := region.makes_step blank
    rw [same] at made
    cases made
    exact .inr (verbatim s rfl)

/-- A line without its CR makes the token without it, and leads to the same region. -/
theorem step_dropReturn (region : Region) (raw : List Char) :
    region.step (Text.dropReturn raw) =
      ((region.step raw).1.map Token.withoutReturn, (region.step raw).2) := by
  rcases region.step_congr (Text.trim_dropReturn raw) (Token.depthAfter_dropReturn · raw) with
    same | ⟨next, short, whole⟩
  · suffices kept : (region.step raw).1.map Token.withoutReturn = (region.step raw).1 by
      rw [same, kept]
    cases made : (region.step raw).1 with
    | none => rfl
    | some token =>
      rw [Option.map_some, Option.some_inj]
      cases token with
      | bodyLine s =>
        have fixed : Text.dropReturn s.toList = s.toList := by
          rcases text_of_step made with rfl | rfl
          · rfl
          · rcases text_of_step (same ▸ made) with empty | short
            · rw [empty]
              rfl
            · rw [String.toList_ofList, ← String.ofList_inj, short]
        rw [Token.withoutReturn, fixed, String.ofList_toList]
      | _ => rfl
  · rw [short, whole, Option.map_some, Token.withoutReturn, String.toList_ofList]

/-- Lines without their CRs make the tokens without them, on the same lines. -/
theorem outputs_map_dropReturn (region : Region) (lines : List (List Char)) :
    region.outputs (lines.map Text.dropReturn) =
      (region.outputs lines).map (Option.map Token.withoutReturn) := by
  induction lines generalizing region with
  | nil => rfl
  | cons raw rest ih => rw [List.map_cons, outputs, outputs, step_dropReturn, ih, List.map_cons]

end Region

/-! ## Whole texts -/

/-- A token on its line, without the CR at the end of the line. -/
def Located.withoutReturn (t : Located) : Located :=
  { t with token := t.token.withoutReturn }

theorem map_withoutReturn_numbered (number : Nat) (tokens : List (Option Token)) :
    (numbered number tokens).map Located.withoutReturn =
      numbered number (tokens.map (Option.map Token.withoutReturn)) := by
  induction tokens generalizing number with
  | nil => rfl
  | cons token tokens ih =>
    rw [List.map_cons, numbered_cons, numbered_cons, List.map_append, ih]
    cases token <;> rfl

/-- A file with CRLF between its lines has the same tokens on the same lines whether it is
normalized or not, but for the CRs at the ends of body lines. -/
theorem scan_unnormalized {text : String} (unmarked : ∀ c ∈ text.toList.head?, c.toNat ≠ 0xFEFF)
    (paired : Text.ReturnsPaired text.toList) :
    (scan text false).map Located.withoutReturn = scan text true := by
  have lines : linesOf text true = (linesOf text false).map Text.dropReturn := by
    rw [linesOf, if_pos rfl, Text.normalize, Text.dropMark_of_head unmarked,
      Text.lines_unifyBreaks paired, linesOf, if_neg Bool.false_ne_true]
  rw [scan_eq, scan_eq, lines, scanLines, scanLines, Region.scanFrom_eq_numbered,
    Region.scanFrom_eq_numbered, Region.outputs_map_dropReturn, map_withoutReturn_numbered]

/-- A body with an open bracket and a quotation, on lines that end with CRLF. -/
def returnedText : String := "POST https://x\r\n\r\n[\r\n\"\r\n\r\n]\r\n#\r\n\r\n"

theorem scan_returnedText :
    (scan returnedText false).map Located.withoutReturn = scan returnedText true ∧
    scan returnedText false =
      [⟨.requestLine "POST" "https://x" none, 1⟩, ⟨.bodyLine "[\r", 3⟩, ⟨.bodyLine "\"\r", 4⟩,
        ⟨.bodyLine "\r", 5⟩, ⟨.bodyLine "]\r", 6⟩, ⟨.comment "", 7⟩, ⟨.bodyLine "", 8⟩,
        ⟨.bodyLine "", 9⟩] :=
  ⟨scan_unnormalized (by simp [returnedText]) (by decide +kernel), by decide +kernel⟩

end RequestFile
