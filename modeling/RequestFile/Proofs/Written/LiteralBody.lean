import Mathlib
import RequestFile.Proofs.Assembly.Check
import RequestFile.Proofs.Text.Break
import RequestFile.Proofs.Token.CarriageReturn
import RequestFile.Proofs.Token.Line
import RequestFile.Proofs.Written.Parse

/-!
# Requests with a literal body

Lines that are text of a body are the body of the request in front of them, whatever ends it: the
end of the file, blank lines, or a separator. What stands behind a separator is read as a file of
its own, but for a byte-order mark at its start.
-/

namespace RequestFile

/-! ## What may follow a body -/

/-- What may stand behind the body of the last request of a file: nothing, blank lines, or a
separator and a text without requests. -/
inductive EndsBody : String → Prop
  | nothing : EndsBody ""
  | blanks {s : String} (blank : isBlankText s = true) : EndsBody ("\n" ++ s)
  | separator {s : String} {d : Document} (parsed : parse s = .ok d) (empty : d.requests = []) :
      EndsBody ("\n###\n" ++ s)

/-- Whether tokens behind a body give a document nothing but blank lines of this body. -/
structure IsSpare (tokens : List Located) : Prop where
  noRequest : ∀ t ∈ tokens, t.requestLine? = none
  blank : ∀ t ∈ tokens.takeWhile (!·.endsRequest), ∃ s, t.token = .bodyLine s ∧
    isBlankText s = true

theorem isSpare_of_forall_blank {tokens : List Located}
    (blank : ∀ t ∈ tokens, ∃ s, t.token = .bodyLine s ∧ isBlankText s = true) :
    IsSpare tokens := by
  refine ⟨fun t mem => ?_, fun t mem => blank t ((List.takeWhile_prefix _).mem mem)⟩
  obtain ⟨s, body, -⟩ := blank t mem
  rw [Located.requestLine?, body]

/-! ## Blank lines -/

theorem Text.mem_or_of_mem_unifyBreaks {cs : List Char} {c : Char} (mem : c ∈ unifyBreaks cs) :
    c ∈ cs ∨ c = '\n' := by
  induction cs using unifyBreaks.induct with
  | case1 => cases mem
  | case2 rest ih =>
    rcases List.mem_cons.1 mem with feed | mem
    · exact .inr feed
    · exact (ih mem).imp_left fun inside => by simp [inside]
  | case3 rest alone ih =>
    rw [unifyBreaks.eq_3 _ alone] at mem
    rcases List.mem_cons.1 mem with feed | mem
    · exact .inr feed
    · exact (ih mem).imp_left (List.mem_cons_of_mem _)
  | case4 d rest crlf cr ih =>
    have other : d ≠ '\r' := by
      rintro rfl
      exact cr rfl
    rw [unifyBreaks_cons_of_ne other] at mem
    rcases List.mem_cons.1 mem with rfl | mem
    · exact .inl List.mem_cons_self
    · exact (ih mem).imp_left (List.mem_cons_of_mem _)

theorem Text.allBlank_of_mem_lines {cs : List Char} (blank : ∀ c ∈ cs, isBlank c = true)
    {line : List Char} (mem : line ∈ lines cs) : allBlank line = true := by
  rw [allBlank, List.all_eq_true]
  exact fun c inside => blank c (mem_of_mem_splitOnP mem c inside).1

namespace Region

theorem isBody_step_of_blank {region : Region} (body : region.isBody = true) {raw : List Char}
    (blank : Text.allBlank raw = true) : (region.step raw).2.isBody = true := by
  rw [Text.allBlank, List.all_eq_true] at blank
  have empty : Text.trim raw = [] := Text.trim_of_blank blank
  cases region with
  | preamble => cases body
  | headers queryOpen => cases body
  | body afterBlank depth =>
    rw [step_body (by rw [empty]; rfl), empty, stepBody]
    split
    · rfl
    · rfl

/-- In a body blank lines are blank lines of the body. -/
theorem blank_of_mem_outputs {region : Region} (body : region.isBody = true)
    {lines : List (List Char)} (blank : ∀ raw ∈ lines, Text.allBlank raw = true) {token : Token}
    (mem : some token ∈ region.outputs lines) :
    ∃ s, token = .bodyLine s ∧ isBlankText s = true := by
  induction lines generalizing region with
  | nil => cases mem
  | cons raw rest ih =>
    rw [List.forall_mem_cons] at blank
    rcases List.mem_cons.1 mem with first | later
    · rw [(region.step_of_blank blank.1).1, if_pos body] at first
      cases first
      refine ⟨_, rfl, ?_⟩
      split
      · rfl
      · rw [isBlankText, String.toList_ofList]
        exact blank.1
    · exact ih (isBody_step_of_blank body blank.1) blank.2 later

/-! ## Texts without requests -/

/-- Only a request line ends the preamble. -/
theorem step_preamble_of_not_isRequest {raw : List Char}
    (other : ∀ token ∈ (preamble.step raw).1, token.isRequest = false) :
    (preamble.step raw).2 = preamble := by
  revert other
  unfold step
  dsimp only
  split
  · exact fun _ => rfl
  · unfold stepPreamble
    split
    · exact fun _ => rfl
    split
    · exact fun _ => rfl
    split
    · exact fun _ => rfl
    split
    · next found =>
      intro other
      have request := Token.isRequest_of_requestLine? found
      rw [other _ rfl] at request
      cases request
    · exact fun _ => rfl

/-- A line of a preamble that starts with a byte-order mark is no request line. -/
theorem step_preamble_mark (raw : List Char) :
    ∃ token, token.isRequest = false ∧
      preamble.step ('\uFEFF' :: raw) = (some token, preamble) := by
  have solid : Text.isBlank '\uFEFF' = false := by decide
  have trimmed : Text.trim ('\uFEFF' :: raw) = '\uFEFF' :: Text.trimEnd raw :=
    @Text.trim_append ['\uFEFF'] (Text.trim_of_not_blank (by simpa using solid)) (by simp) raw
  obtain ⟨word, rest, words⟩ := Text.exists_words_cons solid (Text.trimEnd raw)
  have noMethod : Token.withMethod? ('\uFEFF' :: Text.trimEnd raw) = none := by
    rw [Token.withMethod?, words]
    cases rest with
    | nil => rfl
    | cons target rest => rfl
  have noRequest : Token.requestLine? ('\uFEFF' :: Text.trimEnd raw) = none := by
    rw [Token.requestLine?, noMethod]
    rfl
  refine ⟨Token.unrecognizedLine ('\uFEFF' :: Text.trimEnd raw), rfl, ?_⟩
  rw [step_preamble (by rw [trimmed]; exact Line.isSeparator_cons (by decide) _), trimmed,
    stepPreamble, if_neg (by simp),
    Line.comment?_eq_none (Line.isComment_cons (by decide) (by decide) _), noRequest]
  rfl

/-- With a byte-order mark in front the first line makes another token, and nothing else changes. -/
theorem isRequest_of_mem_outputs_mark {lines : List (List Char)} (nonempty : lines ≠ [])
    (other : ∀ token, some token ∈ preamble.outputs lines → token.isRequest = false) :
    ∀ token, some token ∈ preamble.outputs (lines.modifyHead ('\uFEFF' :: ·)) →
      token.isRequest = false := by
  obtain ⟨raw, rest, rfl⟩ := List.exists_cons_of_ne_nil nonempty
  obtain ⟨first, plain, marked⟩ := step_preamble_mark raw
  have stays : (preamble.step raw).2 = preamble := by
    apply step_preamble_of_not_isRequest
    intro token made
    exact other token (List.mem_cons.2 (.inl made.symm))
  intro token mem
  rw [List.modifyHead_cons, outputs, marked] at mem
  rcases List.mem_cons.1 mem with same | later
  · cases same
    exact plain
  · refine other token (List.mem_cons_of_mem _ ?_)
    rw [stays]
    exact later

end Region

theorem Located.requestLine?_eq_none_iff {t : Located} :
    t.requestLine? = none ↔ t.token.isRequest = false := by
  obtain ⟨token, line⟩ := t
  cases token <;> simp [requestLine?, Token.isRequest]

theorem exists_mem_numbered {tokens : List (Option Token)} {token : Token}
    (mem : some token ∈ tokens) (number : Nat) :
    ∃ line, ⟨token, line⟩ ∈ numbered number tokens := by
  induction tokens generalizing number with
  | nil => cases mem
  | cons first rest ih =>
    rw [numbered_cons]
    rcases List.mem_cons.1 mem with rfl | later
    · exact ⟨number, List.mem_cons_self⟩
    · obtain ⟨line, inside⟩ := ih later (number + 1)
      exact ⟨line, List.mem_append_right _ inside⟩

/-- The lines of a text without requests make no request line, also if a byte-order mark at its
start is kept as a character of the first one. -/
theorem isRequest_of_mem_outputs {s : String} {d : Document} (parsed : parse s = .ok d)
    (empty : d.requests = []) :
    ∀ token, some token ∈ Region.preamble.outputs (Text.lines (Text.unifyBreaks s.toList)) →
      token.isRequest = false := by
  obtain ⟨-, rfl, -, -⟩ := parseTokens_eq_ok_iff.1 parsed
  have none : blocks (scan s) = [] := by
    rw [draftDocument, toDocument_ofTokens {} rfl, blockwiseDocument] at empty
    simpa using empty
  have lines := map_requestLine_blocksFrom (scan s) []
  rw [← blocks, none, List.map_nil] at lines
  have scanned : ∀ token, some token ∈ Region.preamble.outputs (linesOf s true) →
      token.isRequest = false := by
    intro token mem
    obtain ⟨line, inside⟩ := exists_mem_numbered mem 1
    rw [← Region.scanFrom_eq_numbered, ← scanLines, ← scan_eq] at inside
    exact Located.requestLine?_eq_none_iff.1 (List.filterMap_eq_nil_iff.1 lines.symm _ inside)
  rw [linesOf, if_pos rfl, Text.normalize] at scanned
  cases chars : s.toList with
  | nil =>
    rw [chars] at scanned
    exact scanned
  | cons c cs =>
    rw [chars, Text.dropMark] at scanned
    split at scanned
    · next mark =>
      obtain rfl : c = '\uFEFF' := Char.toNat_inj.1 (by simpa using mark)
      rw [Text.unifyBreaks_cons_of_ne (by decide), Text.lines_cons (by decide)]
      exact Region.isRequest_of_mem_outputs_mark (List.splitOn_ne_nil _ _) scanned
    · exact scanned

theorem Text.lines_append_feed (cs more : List Char) :
    lines (cs ++ '\n' :: more) = lines cs ++ lines more :=
  List.splitOn_append_cons_self cs more

/-- The lines that follow a body are spare. -/
theorem EndsBody.exists_lines {tail : String} (ends : EndsBody tail) (cs : List Char) :
    ∃ more, Text.lines (cs ++ Text.unifyBreaks tail.toList) = Text.lines cs ++ more ∧
      ∀ region : Region, region.isBody = true → ∀ number,
        IsSpare (numbered number (region.outputs more)) := by
  cases ends with
  | nothing =>
    refine ⟨[], ?_, fun region _ number => isSpare_of_forall_blank (List.forall_mem_nil _)⟩
    rw [List.append_nil]
    exact congrArg Text.lines (List.append_nil cs)
  | @blanks s blank =>
    refine ⟨Text.lines (Text.unifyBreaks s.toList), ?_, fun region body number => ?_⟩
    · have feed : Text.unifyBreaks ("\n" ++ s).toList = '\n' :: Text.unifyBreaks s.toList := by
        rw [String.toList_append]
        exact Text.unifyBreaks_cons_of_ne (by decide) s.toList
      rw [feed, Text.lines_append_feed]
    · rw [isBlankText, Text.allBlank, List.all_eq_true] at blank
      have unified : ∀ c ∈ Text.unifyBreaks s.toList, Text.isBlank c = true := by
        intro c mem
        rcases Text.mem_or_of_mem_unifyBreaks mem with given | rfl
        · exact blank c given
        · rfl
      refine isSpare_of_forall_blank fun t mem => ?_
      exact Region.blank_of_mem_outputs body (fun raw => Text.allBlank_of_mem_lines unified)
        (mem_of_mem_numbered mem)
  | @separator s d parsed empty =>
    refine ⟨['#', '#', '#'] :: Text.lines (Text.unifyBreaks s.toList), ?_,
      fun region _ number => ?_⟩
    · have chars : Text.unifyBreaks ("\n###\n" ++ s).toList =
          '\n' :: (['#', '#', '#'] ++ '\n' :: Text.unifyBreaks s.toList) := by
        rw [String.toList_append, Text.unifyBreaks_append_of_not_mem (by decide)]
        rfl
      rw [chars, Text.lines_append_feed, Text.lines_append_feed]
      rfl
    · have outputs : region.outputs (['#', '#', '#'] :: Text.lines (Text.unifyBreaks s.toList)) =
          some (.separator none) ::
            Region.preamble.outputs (Text.lines (Text.unifyBreaks s.toList)) := by
        rw [Region.outputs, @Region.step_of_separator region _ (.separator none) rfl]
      rw [outputs]
      constructor
      · intro t mem
        rw [Located.requestLine?_eq_none_iff]
        rcases List.mem_cons.1 (mem_of_mem_numbered mem) with mark | later
        · rw [Option.some_inj.1 mark]
          rfl
        · exact isRequest_of_mem_outputs parsed empty _ later
      · rw [numbered_cons]
        exact List.forall_mem_nil _

/-! ## The request -/

/-- A request line with a literal body behind it. -/
def literalText (body : String) : String :=
  "POST https://x\n\n" ++ body

/-- The request that it is. -/
def literalRequest (body : String) : Request where
  name := "request-1"
  method := "POST"
  url := "https://x"
  body := some body
  metadata := { name := "request-1" }
  line := 1

/-- What lines give that are text of a body. -/
def textTokens (texts : List String) : List (Option Token) :=
  texts.map fun text => some (.bodyLine text)

/-- What the lines of the text give. -/
def literalTokens (texts : List String) : List (Option Token) :=
  some (.requestLine "POST" "https://x" none) :: none :: textTokens texts

theorem literalText_intercalate {texts : List String} (nonempty : texts ≠ []) :
    literalText ("\n".intercalate texts) =
      "\n".intercalate ("POST https://x" :: "" :: texts) := by
  obtain ⟨text, rest, rfl⟩ := List.exists_cons_of_ne_nil nonempty
  simp [literalText, String.intercalate_cons_cons, ← String.append_assoc]

/-- The lines in front of the body lead to it. -/
theorem Region.reads_literalTokens {lines kept : List String} {next : Region}
    (reads : Reads (.body true 0) (lines.map String.toList) (textTokens kept) next) :
    Reads .preamble (("POST https://x" :: "" :: lines).map String.toList) (literalTokens kept)
      next := by
  have post : preamble.step "POST https://x".toList =
      (some (.requestLine "POST" "https://x" none), .headers true) := by
    decide +kernel
  exact .cons post (.cons (step_headers_empty true) reads)

theorem scan_literalText {texts : List String} (literal : IsLiteral texts) {tail : String}
    (ends : EndsBody tail) :
    ∃ spare, scan (literalText ("\n".intercalate texts) ++ tail) =
        numbered 1 (literalTokens texts ++ spare) ∧
      ∀ number, IsSpare (numbered number spare) := by
  have oneLine : ∀ s ∈ "POST https://x" :: "" :: texts, isOneLine s = true := by
    rw [List.forall_mem_cons, List.forall_mem_cons]
    exact ⟨by decide, by decide, isOneLine_of_keepsText literal.kept⟩
  have joined := literalText_intercalate literal.nonempty
  have noReturn : '\r' ∉ ("\n".intercalate ("POST https://x" :: "" :: texts)).toList :=
    not_mem_intercalate (by decide) fun s mem => (not_mem_of_isOneLine (oneLine s mem)).1
  have normal : Text.normalize (literalText ("\n".intercalate texts) ++ tail).toList =
      (literalText ("\n".intercalate texts)).toList ++ Text.unifyBreaks tail.toList := by
    rw [String.toList_append, Text.normalize, Text.dropMark_of_head,
      Text.unifyBreaks_append_of_not_mem]
    · rw [joined]
      exact noReturn
    · simp [literalText]
  obtain ⟨more, lines, spare⟩ :=
    ends.exists_lines (literalText ("\n".intercalate texts)).toList
  obtain ⟨afterBlank, depth, kept⟩ := Region.exists_reads_texts texts true 0 literal.kept
  have whole := (Region.reads_literalTokens kept).append
    (Region.reads_outputs (.body afterBlank depth) more)
  refine ⟨_, ?_, spare (.body afterBlank depth) rfl⟩
  rw [scan_eq, linesOf, if_pos rfl, normal, lines, joined,
    lines_intercalate (List.cons_ne_nil _ _) oneLine, scanLines]
  exact whole.scanFrom_eq 1

theorem exists_token_of_mem_textTokens {texts : List String} {number : Nat} {t : Located}
    (mem : t ∈ numbered number (textTokens texts)) : ∃ s, t.token = .bodyLine s := by
  obtain ⟨s, -, same⟩ := List.mem_map.1 (mem_of_mem_numbered mem)
  exact ⟨s, (Option.some_inj.1 same).symm⟩

theorem filterMap_bodyText?_textTokens (texts : List String) (number : Nat) :
    (numbered number (textTokens texts)).filterMap Located.bodyText? = texts := by
  rw [filterMap_numbered (fun _ _ => rfl), textTokens, List.filterMap_map]
  exact List.filterMap_some

theorem blocksFrom_eq_nil {tokens : List Located} (clean : ∀ t ∈ tokens, t.requestLine? = none)
    (preface : List Located) : blocksFrom preface tokens = [] := by
  rw [← List.append_nil tokens, blocksFrom_append clean]
  rfl

theorem IsSpare.isBlankText_of_mem {tokens : List Located} (spare : IsSpare tokens) {s : String}
    (mem : s ∈ (tokens.takeWhile (!·.endsRequest)).filterMap Located.bodyText?) :
    isBlankText s = true := by
  obtain ⟨t, kept, text⟩ := List.mem_filterMap.1 mem
  obtain ⟨s', body, blank⟩ := spare.blank t kept
  rw [Located.bodyText?, body] at text
  cases text
  exact blank

/-- The text is one block, whose content is the lines of the body and blank lines. -/
theorem exists_blocks_literalTokens (texts : List String) {spare : List (Option Token)}
    (isSpare : ∀ number, IsSpare (numbered number spare)) :
    ∃ content : List Located, (∀ t ∈ content, ∃ s, t.token = .bodyLine s) ∧
      (∃ blanks, content.filterMap Located.bodyText? = texts ++ blanks ∧
        ∀ s ∈ blanks, isBlankText s = true) ∧
      blocks (numbered 1 (literalTokens texts ++ spare)) =
        [{ preface := [], method := "POST", url := "https://x", version := none, line := 1,
           content }] := by
  have split : numbered 1 (literalTokens texts ++ spare) =
      ⟨.requestLine "POST" "https://x" none, 1⟩ ::
        (numbered 3 (textTokens texts) ++ numbered (3 + (textTokens texts).length) spare) := by
    rw [literalTokens, List.cons_append, List.cons_append, numbered_cons, numbered_cons,
      numbered_append]
    rfl
  have inside : ∀ t ∈ numbered 3 (textTokens texts),
      t.endsRequest = false ∧ t.requestLine? = none := by
    intro t mem
    obtain ⟨s, body⟩ := exists_token_of_mem_textTokens mem
    have content := Located.of_isContent (t := t) (by rw [body]; rfl)
    exact ⟨content.1, content.2.1⟩
  have behind := isSpare (3 + (textTokens texts).length)
  have later := blocksFrom_eq_nil (List.forall_mem_append.2
    ⟨fun t mem => (inside t mem).2, behind.noRequest⟩) []
  refine ⟨numbered 3 (textTokens texts) ++
    (numbered (3 + (textTokens texts).length) spare).takeWhile (!·.endsRequest), ?_, ?_, ?_⟩
  · rw [List.forall_mem_append]
    exact ⟨fun t => exists_token_of_mem_textTokens,
      fun t mem => (behind.blank t mem).imp fun s body => body.1⟩
  · refine ⟨_, ?_, fun s => behind.isBlankText_of_mem⟩
    rw [List.filterMap_append, filterMap_bodyText?_textTokens]
  · rw [split, blocks, blocksFrom, later, List.takeWhile_append_of_pos]
    intro t mem
    rw [(inside t mem).1]
    rfl

/-- A block without a preface has no name. -/
theorem finalName_of_preface_nil {b : Block} (bare : b.preface = []) :
    finalName {} [b] b = defaultName 1 := by
  have given : b.givenName {} = "" := by
    rw [Block.givenName, Block.writtenName?, bare]
    rfl
  simp [finalName, given, defaultName]

/-- The text is a single request with the lines of its body, whose ends are not blank, whatever ends
the body. -/
theorem requests_of_ends {texts : List String} (nonempty : texts ≠ [])
    (first : ∀ s ∈ texts.head?, isBlankText s = false)
    (last : ∀ s ∈ texts.getLast?, isBlankText s = false)
    {spare : List (Option Token)} (isSpare : ∀ number, IsSpare (numbered number spare)) :
    (draftDocument {} (numbered 1 (literalTokens texts ++ spare))).requests =
      [literalRequest ("\n".intercalate texts)] := by
  obtain ⟨content, lines, ⟨blanks, kept, blank⟩, cut⟩ := exists_blocks_literalTokens texts isSpare
  have silent {α : Type} {f : Located → Option α} (none : ∀ s line, f ⟨.bodyLine s, line⟩ = none) :
      content.filterMap f = [] := by
    rw [List.filterMap_eq_nil_iff]
    rintro ⟨token, line⟩ mem
    obtain ⟨s, rfl⟩ := lines _ mem
    exact none s line
  have body : bodyOfLines (content.filterMap Located.bodyText?) =
      some ("\n".intercalate texts) := by
    rw [kept]
    exact bodyOfLines_append nonempty first last blank
  rw [draftDocument, toDocument_ofTokens {} rfl, blockwiseDocument, cut, List.mapIdx_singleton,
    List.take_succ_cons, List.take_nil, finalName_of_preface_nil rfl]
  simp only [Block.request, body, silent (f := Located.queryText?) fun _ _ => rfl,
    silent (f := Located.header?) fun _ _ => rfl, silent (f := Located.headerLine?) fun _ _ => rfl,
    silent (f := Located.bodyFile?) fun _ _ => rfl, prefaceMetadata_nil]
  rfl

theorem requests_literalTokens {texts : List String} (literal : IsLiteral texts)
    {spare : List (Option Token)} (isSpare : ∀ number, IsSpare (numbered number spare)) :
    (draftDocument {} (numbered 1 (literalTokens texts ++ spare))).requests =
      [literalRequest ("\n".intercalate texts)] :=
  requests_of_ends literal.nonempty literal.first literal.last isSpare

/-- A literal body is kept: the text is a single request with this body, and every line of the body
makes nothing but text of the body. -/
theorem parse_of_isLiteral {texts : List String} (literal : IsLiteral texts) {tail : String}
    (ends : EndsBody tail) :
    (∃ d, parse (literalText ("\n".intercalate texts) ++ tail) = .ok d ∧
      d.requests = [literalRequest ("\n".intercalate texts)]) ∧
    ∀ i text, texts[i]? = some text →
      (scan (literalText ("\n".intercalate texts) ++ tail)).filter (·.line == i + 3) =
        [⟨.bodyLine text, i + 3⟩] := by
  obtain ⟨spare, scanned, isSpare⟩ := scan_literalText literal ends
  have requests := requests_literalTokens literal isSpare
  rw [← scanned] at requests
  constructor
  · refine ⟨_, parseTokens_eq_ok_iff.2 ⟨rfl, rfl, fun _ => ?_, nofun⟩, requests⟩
    rw [requests]
    rfl
  · intro i text line
    have number : i + 3 = 1 + (i + 2) := by omega
    have made : (literalTokens texts ++ spare)[i + 2]? = some (some (.bodyLine text)) := by
      have short : i < texts.length := (List.getElem?_eq_some_iff.1 line).1
      rw [literalTokens, textTokens, List.cons_append, List.cons_append, List.getElem?_cons_succ,
        List.getElem?_cons_succ, List.getElem?_append_left (by simpa using short),
        List.getElem?_map, line, Option.map_some]
    rw [scanned, number, filter_numbered, made]
    rfl

end RequestFile
