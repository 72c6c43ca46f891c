import Mathlib
import RequestFile.Proofs.Token.Run

/-!
# What a line gives

Every line that is not blank makes one token, whatever region it stands in, and a blank line makes
one only in a body. A line that is kept for a body is kept as it is written, but a blank one only
between brackets. From the step for one line this follows for the tokens of a text, where the
brackets that are open are counted from the tokens in front of a line.
-/

namespace RequestFile

/-! ## Kinds of tokens -/

namespace Token

/-- How many brackets are open behind a token, if some are open before it. A request line or a
separator starts anew, and only the lines of a body have brackets that count. -/
def openAfter (depth : Nat) : Token → Nat
  | .requestLine .. | .separator _ => 0
  | .bodyLine text => depthAfter false false depth text.toList
  | _ => depth

/-- Whether a token neither starts a request block nor belongs to the text of a body. -/
def isPlain : Token → Bool
  | .requestLine .. | .separator _ | .bodyLine _ => false
  | _ => true

theorem openAfter_of_isPlain {token : Token} (plain : token.isPlain = true) (depth : Nat) :
    token.openAfter depth = depth := by
  cases token with
  | requestLine method url version => cases plain
  | separator name => cases plain
  | bodyLine text => cases plain
  | _ => rfl

theorem isPlain_of_directive? {rest : List Char} {token : Token}
    (found : directive? rest = some token) : token.isPlain = true := by
  unfold directive? at found
  split at found
  · split at found
    · split at found
      · cases found
        rfl
      · split at found
        · cases found
          rfl
        · cases found
    · cases found
  · cases found

theorem isPlain_of_comment? {line : List Char} {token : Token}
    (found : comment? line = some token) : token.isPlain = true := by
  obtain ⟨rest, -, rfl⟩ := Option.map_eq_some_iff.1 found
  cases read : directive? rest with
  | none => rfl
  | some token => exact isPlain_of_directive? read

theorem isPlain_of_assignment? {line : List Char} {token : Token}
    (found : assignment? line = some token) : token.isPlain = true := by
  unfold assignment? at found
  split at found
  · split at found
    · cases found
      rfl
    · cases found
  · cases found

theorem isPlain_of_queryPart? {line : List Char} {token : Token}
    (found : queryPart? line = some token) : token.isPlain = true := by
  unfold queryPart? at found
  split at found
  · split at found
    · cases found
      rfl
    · cases found
  · cases found

theorem isPlain_of_header? {line : List Char} {token : Token}
    (found : header? line = some token) : token.isPlain = true := by
  unfold header? at found
  split at found
  · cases found
    rfl
  · cases found

theorem isPlain_of_bodyFile? {line : List Char} {token : Token}
    (found : bodyFile? line = some token) : token.isPlain = true := by
  obtain ⟨directive, -, rfl⟩ := Option.map_eq_some_iff.1 found
  rfl

/-- Whether a token is a request line. -/
def isRequest : Token → Bool
  | .requestLine .. => true
  | _ => false

theorem isRequest_of_withMethod? {line : List Char} {token : Token}
    (found : withMethod? line = some token) : token.isRequest = true := by
  unfold withMethod? at found
  split at found
  · split at found
    · obtain ⟨version, -, rfl⟩ := Option.map_eq_some_iff.1 found
      rfl
    · cases found
  · cases found

theorem isRequest_of_standardRequestLine? {line : List Char} {token : Token}
    (found : standardRequestLine? line = some token) : token.isRequest = true := by
  unfold standardRequestLine? at found
  split at found
  · split at found
    · cases found
      rfl
    · cases found
  · cases found

theorem isRequest_of_requestLine? {line : List Char} {token : Token}
    (found : requestLine? line = some token) : token.isRequest = true := by
  rw [requestLine?, Option.or_eq_some_iff] at found
  rcases found with found | ⟨-, found⟩
  · exact isRequest_of_withMethod? found
  · unfold withoutMethod? at found
    split at found
    · cases found
    · obtain ⟨version, -, rfl⟩ := Option.map_eq_some_iff.1 found
      rfl

end Token

/-! ## One step -/

namespace Region

/-- Whether a line stands in the body of a request. -/
def isBody : Region → Bool
  | body .. => true
  | _ => false

/-- How many brackets of a body are open. -/
def depth : Region → Nat
  | body _ depth => depth
  | _ => 0

/-- A blank line gives nothing before the body. In a body it is an empty line, or between brackets
the line as it is written. -/
theorem step_of_blank (region : Region) {raw : List Char} (blank : Text.allBlank raw = true) :
    (region.step raw).1 =
        (if region.isBody then
          some (.bodyLine (if region.depth = 0 then "" else String.ofList raw))
        else none) ∧
      (region.step raw).2.depth =
        (region.step raw).1.elim region.depth (Token.openAfter region.depth) := by
  rw [Text.allBlank, List.all_eq_true] at blank
  have empty : Text.trim raw = [] := Text.trim_of_blank blank
  cases region with
  | preamble =>
    rw [step_preamble (by rw [empty]; rfl), empty]
    exact ⟨rfl, rfl⟩
  | headers queryOpen =>
    rw [step_headers (by rw [empty]; rfl), empty]
    exact ⟨rfl, rfl⟩
  | body afterBlank depth =>
    rw [step_body (by rw [empty]; rfl), empty]
    by_cases closed : depth = 0
    · rw [closed]
      exact ⟨rfl, rfl⟩
    · simp [stepBody, keepLine, closed, isBody, Region.depth, Token.openAfter]

/-- What a line makes that is not blank: a token, which has the line as it is written if it is a
line of a body, and a region with the brackets that are open behind the token. -/
def Makes (depth : Nat) (raw : List Char) (out : Option Token × Region) : Prop :=
  ∃ token, out.1 = some token ∧ (∀ s, token = .bodyLine s → s = String.ofList raw) ∧
    out.2.depth = token.openAfter depth

section Makes

variable {depth : Nat} {raw line : List Char} {token : Token} {next : Region}

theorem makes_of_isPlain (plain : token.isPlain = true) (same : next.depth = depth) :
    Makes depth raw (some token, next) := by
  refine ⟨token, rfl, ?_, same.trans (Token.openAfter_of_isPlain plain depth).symm⟩
  rintro s rfl
  cases plain

theorem makes_of_isRequest (request : token.isRequest = true) (closed : next.depth = 0) :
    Makes depth raw (some token, next) := by
  cases token with
  | requestLine method url version => exact ⟨_, rfl, fun s same => (by cases same), closed⟩
  | _ => cases request

theorem makes_keepLine (depth : Nat) (raw : List Char) : Makes depth raw (keepLine depth raw) := by
  refine ⟨.bodyLine (String.ofList raw), rfl, fun s same => ?_, ?_⟩
  · cases same
    rfl
  · rw [Token.openAfter, String.toList_ofList]
    rfl

theorem makes_stepPreamble (nonempty : line ≠ []) : Makes 0 raw (stepPreamble line) := by
  have filled : line.isEmpty = false := by simpa using nonempty
  rw [stepPreamble, filled, if_neg Bool.false_ne_true]
  split
  · next found => exact makes_of_isPlain (Token.isPlain_of_comment? found) rfl
  split
  · next found => exact makes_of_isPlain (Token.isPlain_of_assignment? found) rfl
  split
  · next found => exact makes_of_isRequest (Token.isRequest_of_requestLine? found) rfl
  · exact makes_of_isPlain rfl rfl

theorem makes_stepHeaders (queryOpen : Bool) (nonempty : line ≠ []) :
    Makes 0 raw (stepHeaders queryOpen line) := by
  have filled : line.isEmpty = false := by simpa using nonempty
  rw [stepHeaders, filled, if_neg Bool.false_ne_true]
  split
  · next found => exact makes_of_isPlain (Token.isPlain_of_comment? found) rfl
  split
  · next found =>
    split at found
    · exact makes_of_isPlain (Token.isPlain_of_queryPart? found) rfl
    · cases found
  split
  · next found => exact makes_of_isPlain (Token.isPlain_of_bodyFile? found) rfl
  split
  · next found => exact makes_of_isRequest (Token.isRequest_of_standardRequestLine? found) rfl
  split
  · next found => exact makes_of_isPlain (Token.isPlain_of_header? found) rfl
  · exact makes_of_isPlain rfl rfl

theorem makes_stepBody (afterBlank : Bool) (nonempty : line ≠ []) :
    Makes depth raw (stepBody afterBlank depth raw line) := by
  have filled : line.isEmpty = false := by simpa using nonempty
  rw [stepBody]
  split
  · exact makes_keepLine depth raw
  · next closed =>
    obtain rfl : depth = 0 := by simpa using closed
    rw [filled, if_neg Bool.false_ne_true]
    split
    · next found =>
      split at found
      · exact makes_of_isRequest (Token.isRequest_of_standardRequestLine? found) rfl
      · cases found
    split
    · next found => exact makes_of_isPlain (Token.isPlain_of_comment? found) rfl
    split
    · next found => exact makes_of_isPlain (Token.isPlain_of_bodyFile? found) rfl
    · exact makes_keepLine 0 raw

end Makes

/-- In every region a line makes a token if it is not blank. -/
theorem makes_step (region : Region) {raw : List Char} (filled : Text.allBlank raw = false) :
    Makes region.depth raw (region.step raw) := by
  have nonempty : Text.trim raw ≠ [] := by
    rw [ne_eq, Text.trim_eq_nil_iff, ← List.all_eq_true]
    simpa [Text.allBlank] using filled
  unfold step
  dsimp only
  split
  · next token found =>
    obtain ⟨rest, -, rfl⟩ := Option.map_eq_some_iff.1 found
    exact ⟨_, rfl, fun s same => (by cases same), rfl⟩
  · cases region with
    | preamble => exact makes_stepPreamble nonempty
    | headers queryOpen => exact makes_stepHeaders queryOpen nonempty
    | body afterBlank depth => exact makes_stepBody afterBlank nonempty

theorem depth_step (region : Region) (raw : List Char) :
    (region.step raw).2.depth =
      (region.step raw).1.elim region.depth (Token.openAfter region.depth) := by
  cases blank : Text.allBlank raw with
  | true => exact (region.step_of_blank blank).2
  | false =>
    obtain ⟨token, made, -, same⟩ := region.makes_step blank
    rw [made, same]
    rfl

/-! ## A whole run -/

/-- The brackets that are open in the region behind some lines are those that the tokens of the
lines leave open. -/
theorem foldl_openAfter_scanFrom (region : Region) (number : Nat) (lines : List (List Char)) :
    (region.scanFrom number lines).foldl (fun depth t => t.token.openAfter depth) region.depth =
      (region.after lines).depth := by
  induction lines generalizing region number with
  | nil => rfl
  | cons raw rest ih =>
    have first : ((region.step raw).1.map fun token => Located.mk token number).toList.foldl
        (fun depth t => t.token.openAfter depth) region.depth = (region.step raw).2.depth := by
      rw [depth_step]
      cases (region.step raw).1 <;> rfl
    rw [scanFrom_cons, List.foldl_append, first]
    exact ih _ _

end Region

/-- How many brackets some tokens leave open. -/
def openBrackets (tokens : List Located) : Nat :=
  tokens.foldl (fun depth t => t.token.openAfter depth) 0

/-- The brackets that are open where a line stands. -/
theorem openBrackets_scanLines (lines : List (List Char)) :
    openBrackets (scanLines lines) = (Region.preamble.after lines).depth :=
  Region.preamble.foldl_openAfter_scanFrom 1 lines

/-- The token with a number is what the line with this number gives. -/
theorem filter_line_eq_scanLines {lines : List (List Char)} {i : Nat} {raw : List Char}
    (line : lines[i]? = some raw) :
    (scanLines lines).filter (·.line == i + 1) =
      (((Region.preamble.after (lines.take i)).step raw).1.map
        fun token => { token, line := i + 1 }).toList := by
  rw [scanLines, Region.scanFrom_eq_numbered, Nat.add_comm i 1, filter_numbered,
    Region.getElem?_outputs, line]
  rfl

/-- What a line gives stands alone on its number, and the next line is read from where the line
leads to. -/
theorem scan_line {text : String} {normalize : Bool} {i : Nat} {raw : List Char}
    (line : (linesOf text normalize)[i]? = some raw) {region next : Region}
    (before : Region.preamble.after ((linesOf text normalize).take i) = region) {token : Token}
    (step : region.step raw = (some token, next)) :
    (scan text normalize).filter (·.line == i + 1) = [⟨token, i + 1⟩] ∧
      Region.preamble.after ((linesOf text normalize).take (i + 1)) = next := by
  constructor
  · rw [scan_eq, filter_line_eq_scanLines line, before, step]
    rfl
  · rw [List.take_add_one, line, Region.after_append, before]
    exact congrArg Prod.snd step

/-- No line is lost and none is invented: tokens stand in the order of the lines, inside the text,
and every line that is not blank has exactly one. A blank line has none before the body of a
request, and in a body it is a line of the body. Every line of a body is kept as it is written, but
a blank one where no bracket is open is empty. -/
theorem scan_accounts_for_lines (text : String) (normalize : Bool) :
    (scan text normalize).Pairwise (fun s t => s.line < t.line) ∧
    (∀ t ∈ scan text normalize, 1 ≤ t.line ∧ t.line ≤ (linesOf text normalize).length) ∧
    ∀ i raw, (linesOf text normalize)[i]? = some raw →
      (Text.allBlank raw = false → ∃ token,
        (scan text normalize).filter (·.line == i + 1) = [⟨token, i + 1⟩] ∧
        ∀ s, token = .bodyLine s → s = String.ofList raw) ∧
      (Text.allBlank raw = true →
        (scan text normalize).filter (·.line == i + 1) =
          if (Region.preamble.after ((linesOf text normalize).take i)).isBody then
            if openBrackets ((scan text normalize).filter (·.line < i + 1)) = 0 then
              [⟨.bodyLine "", i + 1⟩]
            else [⟨.bodyLine (String.ofList raw), i + 1⟩]
          else []) := by
  rw [scan_eq]
  generalize linesOf text normalize = lines
  refine ⟨?_, fun t mem => line_of_mem_scanLines mem, ?_⟩
  · rw [scanLines, Region.scanFrom_eq_numbered]
    exact pairwise_numbered 1 _
  · intro i raw line
    rw [filter_line_eq_scanLines line, filter_line_lt_scanLines, openBrackets_scanLines]
    generalize Region.preamble.after (lines.take i) = region
    constructor
    · intro filled
      obtain ⟨token, made, verbatim, -⟩ := region.makes_step filled
      exact ⟨token, by rw [made]; rfl, verbatim⟩
    · intro blank
      rw [(region.step_of_blank blank).1]
      cases region.isBody with
      | false => rfl
      | true => by_cases closed : region.depth = 0 <;> simp [closed]

end RequestFile
