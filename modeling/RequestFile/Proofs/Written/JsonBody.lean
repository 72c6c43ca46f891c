import Mathlib
import RequestFile.Proofs.Json.Grammar
import RequestFile.Proofs.Token.Bracket
import RequestFile.Proofs.Written.LiteralBody

/-!
# JSON bodies

The scan knows nothing of JSON but its brackets and quotes. That is enough: a line break in a JSON
value stands between brackets, where all lines are text, and the first line of a value looks like
nothing else that a body could start with.
-/

namespace RequestFile

open Json

/-! ## Brackets of JSON -/

theorem notMem_of_isQuotable {body : List Char} (quotable : IsQuotable body) : '\n' ∉ body := by
  induction quotable with
  | nil => exact List.not_mem_nil
  | @plain c cs above other _ ih =>
    have feed : '\n' ≠ c := by
      rintro rfl
      exact absurd above (by decide)
    simp [feed, ih]
  | @short c cs known _ ih =>
    have feed : '\n' ≠ c := by
      rintro rfl
      exact absurd known (by decide)
    simp [feed, ih]
  | @unicode a b c d cs hex _ ih =>
    have feed : '\n' ∉ [a, b, c, d] := fun mem => absurd (hex _ mem) (by simp [IsHexDigit])
    simp only [List.mem_cons, List.not_mem_nil, or_false, not_or] at feed
    simp [feed, ih]

/-- A quotation is left where a string ends. -/
theorem depthAfter_of_isQuotable {body : List Char} (quotable : IsQuotable body) (depth : Nat)
    (rest : List Char) :
    Token.depthAfter true false depth (body ++ '"' :: rest) =
      Token.depthAfter false false depth rest := by
  induction quotable with
  | nil => rfl
  | @plain c cs _ other _ ih =>
    have step := depthAfter_quoted_append (List.forall_mem_singleton.2 other) depth
    rw [List.cons_append, ← List.singleton_append, step, ih]
  | short _ _ ih => rw [List.cons_append, List.cons_append, depthAfter_escaped, ih]
  | @unicode a b c d cs hex _ ih =>
    have plain : ∀ x ∈ [a, b, c, d], x ≠ '"' ∧ x ≠ '\\' := by
      intro x mem
      have digit := hex x mem
      constructor
      all_goals
        rintro rfl
        simp [IsHexDigit] at digit
    have step := depthAfter_quoted_append plain depth (cs ++ '"' :: rest)
    rw [ih] at step
    exact step

theorem isHeld_of_isString {least : Nat} {cs : List Char} (string : IsString cs) :
    IsHeld least cs := by
  obtain ⟨body, quotable, rfl⟩ := string
  exact .of_quotation (notMem_of_isQuotable quotable) (depthAfter_of_isQuotable quotable)

/-- The characters of a number. -/
theorem of_mem_isNumber {cs : List Char} (number : IsNumber cs) :
    ∀ c ∈ cs, c.isDigit = true ∨ c ∈ ['-', '+', '.', 'e', 'E'] := by
  obtain ⟨sign, whole, fraction, exponent, kind, ⟨⟨-, digits⟩, -⟩, hasFraction, hasExponent, rfl⟩ :=
    number
  intro c mem
  simp only [List.mem_append] at mem
  rcases mem with ((mem | mem) | mem) | mem
  · have signs : ∀ signs ∈ [[], ['-']], ∀ c ∈ signs, c ∈ ['-', '+', '.', 'e', 'E'] := by simp
    exact .inr (signs sign kind c mem)
  · exact .inl (digits c mem)
  · rcases hasFraction with rfl | ⟨ds, ⟨-, digits⟩, rfl⟩
    · cases mem
    · rcases List.mem_cons.1 mem with rfl | mem
      · exact .inr (by simp)
      · exact .inl (digits c mem)
  · rcases hasExponent with rfl | ⟨mark, sign, ds, known, kind, ⟨-, digits⟩, rfl⟩
    · cases mem
    · rcases List.mem_append.1 mem with mem | mem
      · have signs : ∀ signs ∈ [[], ['+'], ['-']], ∀ c ∈ signs, c ∈ ['-', '+', '.', 'e', 'E'] := by
          simp
        rcases List.mem_cons.1 mem with rfl | mem
        · exact .inr (List.mem_append_right ['-', '+', '.'] known)
        · exact .inr (signs sign kind c mem)
      · exact .inl (digits c mem)

theorem isHeld_of_isNumber {least : Nat} {cs : List Char} (number : IsNumber cs) :
    IsHeld least cs := by
  have other : ∀ c ∈ cs, c ∉ '\n' :: structural := by
    intro c mem special
    have noDigit : ∀ d ∈ '\n' :: structural, d.isDigit = false := by simp [structural]
    have noMark : ∀ d ∈ '\n' :: structural, d ∉ ['-', '+', '.', 'e', 'E'] := by simp [structural]
    rcases of_mem_isNumber number c mem with digit | mark
    · rw [noDigit c special] at digit
      cases digit
    · exact noMark c special mark
  refine .of_plain (fun c mem special => other c mem (List.mem_cons_of_mem _ special)) (.inr ?_)
  exact fun mem => other _ mem List.mem_cons_self

theorem isHeld_of_mem_literals {least : Nat} {cs : List Char} (known : cs ∈ literals) :
    IsHeld least cs := by
  have plain : ∀ word ∈ literals, ∀ c ∈ word, c ∉ structural := by simp [literals, structural]
  have oneLine : ∀ word ∈ literals, '\n' ∉ word := by decide
  exact .of_plain (plain cs known) (.inr (oneLine cs known))

theorem isHeld_of_isGap {least : Nat} {gap : List Char} (blank : IsGap gap)
    (oneLine : least = 0 ∨ '\n' ∉ gap) : IsHeld least gap := by
  have plain : ∀ c ∈ [' ', '\t', '\n', '\r'], c ∉ structural := by simp [structural]
  exact .of_plain (fun c mem => plain c (blank c mem)) oneLine

/-- How many brackets are open at least where a line ends in a phrase. -/
def Json.Phrase.leastOpen : Phrase → Nat
  | value => 1
  | _ => 0

/-- Between the ends of a value lines end in brackets only. -/
theorem isHeld_of_isPhrase {phrase : Phrase} {cs : List Char} (isPhrase : IsPhrase phrase cs) :
    IsHeld phrase.leastOpen cs := by
  have mark (c : Char) {ds : List Char} (known : c ∈ [',', ':']) (held : IsHeld 0 ds) :
      IsHeld 0 (c :: ds) := by
    have plain : ∀ c ∈ [',', ':'], c ∉ structural := by simp [structural]
    exact (IsHeld.of_plain (List.forall_mem_singleton.2 (plain c known)) (.inl rfl)).append held
  induction isPhrase with
  | literal known => exact isHeld_of_mem_literals known
  | number number => exact isHeld_of_isNumber number
  | string string => exact isHeld_of_isString string
  | emptyArray blank => exact (isHeld_of_isGap blank (.inl rfl)).bracket List.mem_cons_self
  | array _ ih => exact ih.bracket List.mem_cons_self
  | emptyObject blank =>
    exact (isHeld_of_isGap blank (.inl rfl)).bracket (List.mem_cons_of_mem _ List.mem_cons_self)
  | object _ ih => exact ih.bracket (List.mem_cons_of_mem _ List.mem_cons_self)
  | element left _ right ih =>
    exact ((isHeld_of_isGap left (.inl rfl)).append (ih.mono (Nat.zero_le 1))).append
      (isHeld_of_isGap right (.inl rfl))
  | oneElement _ ih => exact ih
  | moreElements _ _ first others => exact first.append (mark ',' (by simp) others)
  | member left string right _ ih =>
    exact (((isHeld_of_isGap left (.inl rfl)).append (isHeld_of_isString string)).append
      (isHeld_of_isGap right (.inl rfl))).append (mark ':' (by simp) ih)
  | oneMember _ ih => exact ih
  | moreMembers _ _ first others => exact first.append (mark ',' (by simp) others)

/-! ## Lines of a text with brackets -/

/-- A separator starts with a `#` behind blanks. -/
theorem exists_append_of_isSeparator {cs : List Char}
    (separator : Line.isSeparator (Text.trim cs) = true) :
    ∃ gap rest, (∀ c ∈ gap, Text.isBlank c = true) ∧ cs = gap ++ '#' :: rest := by
  obtain ⟨more, split⟩ : Text.trim cs <+: cs.dropWhile Text.isBlank := List.rdropWhile_prefix _ _
  rw [Line.isSeparator, List.isPrefixOf_iff_prefix] at separator
  obtain ⟨rest, start⟩ := separator
  refine ⟨cs.takeWhile Text.isBlank, ['#', '#'] ++ rest ++ more, ?_, ?_⟩
  · exact fun c => List.mem_takeWhile_imp
  · conv_lhs =>
      rw [← List.takeWhile_append_dropWhile (p := Text.isBlank) (l := cs), ← split, ← start]
    rfl

/-- Behind an open bracket a line cannot be a separator, and leads to the next one. -/
theorem keepsText_of_isHeld {cs : List Char} (held : IsHeld 1 cs) {front : List Char}
    {line : String} {rest : List String} (oneLine : ∀ s ∈ rest, isOneLine s = true)
    (split : cs = front ++ line.toList ++ rest.flatMap fun s => '\n' :: s.toList) {depth : Nat}
    (reached : ∀ more, Token.depthAfter false false 0 (front ++ more) =
      Token.depthAfter false false depth more) :
    keepsText false (Token.depthAfter false false depth line.toList) rest = true := by
  induction rest generalizing front line depth with
  | nil => rfl
  | cons next rest ih =>
    rw [List.forall_mem_cons] at oneLine
    rw [List.flatMap_cons, List.cons_append] at split
    obtain ⟨open', enough, ends⟩ := held.inside _ _ split
    have here : Token.depthAfter false false depth line.toList = open' := by
      have whole := ends 0 []
      rw [List.append_nil, reached] at whole
      rw [whole, Nat.zero_add]
      rfl
    have further : ∀ more, Token.depthAfter false false 0 (front ++ line.toList ++ ['\n'] ++ more) =
        Token.depthAfter false false open' more := by
      intro more
      rw [List.append_assoc, ends, Nat.zero_add]
      exact depthAfter_cons_of_plain (by simp [structural]) open' more
    have later := ih oneLine.2 (by simpa using split) further
    have noSeparator : Line.isSeparator (Text.trim next.toList) = false := by
      rw [Bool.eq_false_iff]
      intro separator
      obtain ⟨gap, more, blank, chars⟩ := exists_append_of_isSeparator separator
      have unquoted : '"' ∉ gap := fun mem => absurd (blank _ mem) (by decide)
      refine held.ne_number_sign unquoted (front ++ line.toList)
        (more ++ rest.flatMap fun s => '\n' :: s.toList) ?_
      rw [split, chars]
      simp
    rw [here, keepsText, oneLine.1, noSeparator, if_pos (by omega), later]
    rfl

/-! ## The first line -/

/-- The first characters of JSON values. -/
def Json.opensValue (c : Char) : Bool :=
  c.isDigit || ['"', '[', '{', '-', 'n', 't', 'f'].contains c

theorem exists_cons_of_isPhrase_value {cs : List Char} (isPhrase : IsPhrase .value cs) :
    ∃ c rest, cs = c :: rest ∧ opensValue c = true := by
  cases isPhrase with
  | literal known =>
    have words : ∀ word ∈ literals, ∃ c rest, word = c :: rest ∧ opensValue c = true := by
      simp [literals, opensValue]
    exact words cs known
  | number number =>
    obtain ⟨sign, whole, fraction, exponent, kind, ⟨⟨filled, digits⟩, -⟩, -, -, rfl⟩ := number
    obtain ⟨d, ds, rfl⟩ := List.exists_cons_of_ne_nil filled
    rcases List.mem_pair.1 kind with rfl | rfl
    · exact ⟨d, _, rfl, by simp [opensValue, digits d List.mem_cons_self]⟩
    · exact ⟨'-', _, rfl, rfl⟩
  | string string =>
    obtain ⟨body, -, rfl⟩ := string
    exact ⟨'"', _, rfl, rfl⟩
  | emptyArray blank => exact ⟨'[', _, rfl, rfl⟩
  | array inner => exact ⟨'[', _, rfl, rfl⟩
  | emptyObject blank => exact ⟨'{', _, rfl, rfl⟩
  | object inner => exact ⟨'{', _, rfl, rfl⟩

/-- The first characters of the standard methods. -/
def initials : List Char :=
  ['G', 'P', 'D', 'O', 'H', 'T', 'C']

/-- No value starts as another kind of line does. -/
theorem of_opensValue {c : Char} (opens : opensValue c = true) :
    c ∉ ['#', '/', '<', '\n'] ++ initials ∧ Text.isBlank c = false := by
  rw [opensValue, Bool.or_eq_true] at opens
  rcases opens with digit | known
  · have signs : ∀ d ∈ ['#', '/', '<', '\n'] ++ initials, d.isDigit = false := by simp [initials]
    constructor
    · intro mem
      rw [signs c mem] at digit
      cases digit
    · apply Text.not_isBlank_of_isAlphanum
      rw [Char.isAlphanum, digit, Bool.or_true]
  · have signs : ∀ d ∈ ['"', '[', '{', '-', 'n', 't', 'f'],
        d ∉ ['#', '/', '<', '\n'] ++ initials ∧ Text.isBlank d = false := by
      simp [initials, Text.isBlank]
    exact signs c (List.contains_iff_mem.1 known)

theorem mem_initials_of_ofName? {c : Char} {word : List Char} {method : Method}
    (found : Method.ofName? (String.ofList (c :: word)) = some method) : c ∈ initials := by
  have named := List.find?_some found
  rw [beq_iff_eq] at named
  have first : method.name.toList.head? = some c := by
    rw [named, String.toList_ofList, List.head?_cons]
  have letters : ∀ m : Method, ∀ d ∈ m.name.toList.head?, d ∈ initials := by
    intro m
    cases m <;> simp [Method.name, initials]
  exact letters method c first

theorem isStandardRequest_cons {c : Char} (other : c ∉ initials) (solid : Text.isBlank c = false)
    (rest : List Char) : Line.isStandardRequest (c :: rest) = false := by
  obtain ⟨word, others, words⟩ := Text.exists_words_cons solid rest
  have unknown : Method.ofName? (String.ofList (c :: word)) = none := by
    rw [Option.eq_none_iff_forall_not_mem]
    intro method found
    exact other (mem_initials_of_ofName? found)
  rw [Line.isStandardRequest, words]
  cases others with
  | nil => rfl
  | cons target others =>
    dsimp only
    rw [unknown]
    rfl

/-- A line where a JSON value starts is text of a body. -/
theorem keepsText_of_opensValue {gap more : List Char} {c : Char} {line : String}
    {rest : List String} (blank : ∀ d ∈ gap, Text.isBlank d = true) (opens : opensValue c = true)
    (chars : line.toList = gap ++ c :: more) (oneLine : isOneLine line = true)
    (later : keepsText false (Token.depthAfter false false 0 line.toList) rest = true) :
    keepsText true 0 (line :: rest) = true := by
  obtain ⟨other, solid⟩ := of_opensValue opens
  simp only [List.mem_append, List.mem_cons, List.not_mem_nil, or_false, not_or] at other
  obtain ⟨⟨number, slash, less, -⟩, noMethod⟩ := other
  have trimmed : Text.trim line.toList = c :: Text.trimEnd more := by
    rw [chars, Text.trim_of_blank_append blank]
    exact @Text.trim_append [c] (Text.trim_of_not_blank (by simpa using solid)) (by simp) more
  have filled : line ≠ "" := by
    rintro rfl
    simp at chars
  rw [keepsText, trimmed, oneLine, Line.isSeparator_cons number, if_neg (by simp), if_neg filled,
    Line.isComment_cons number slash, Line.isFileDirective_cons less,
    isStandardRequest_cons noMethod solid, later]
  rfl

/-! ## JSON texts -/

/-- The lines of a text. -/
def textLines (text : String) : List String :=
  (Text.lines text.toList).map String.ofList

theorem intercalate_textLines (text : String) : "\n".intercalate (textLines text) = text := by
  apply String.toList_inj.1
  have same : (textLines text).map String.toList = Text.lines text.toList := by
    simp [textLines, Function.comp_def]
  rw [String.toList_intercalate, same]
  exact List.intercalate_splitOn '\n'

theorem isOneLine_of_mem_textLines {text : String} (noReturn : '\r' ∉ text.toList) {line : String}
    (mem : line ∈ textLines text) : isOneLine line = true := by
  obtain ⟨cs, inside, rfl⟩ := List.mem_map.1 mem
  rw [isOneLine, String.toList_ofList, List.all_eq_true]
  intro c char
  obtain ⟨given, whole⟩ := Text.mem_of_mem_splitOnP inside c char
  have other : c ≠ '\r' := by
    rintro rfl
    exact noReturn given
  simpa [other] using whole

/-- Where the first line is not blank, it goes on behind the blanks at the start. -/
theorem feed_notMem_of_head? {before rest : List Char}
    (blank : ∀ c ∈ before, Text.isBlank c = true)
    (first : ∀ line ∈ (Text.lines (before ++ rest)).head?, Text.allBlank line = false) :
    '\n' ∉ before := by
  intro mem
  obtain ⟨gap, more, rfl⟩ := List.append_of_mem mem
  obtain ⟨line, lines, split⟩ := List.exists_cons_of_ne_nil (List.splitOn_ne_nil '\n' gap)
  have inside : line ∈ Text.lines gap := by
    rw [Text.lines, split]
    exact List.mem_cons_self
  have empty := Text.allBlank_of_mem_lines
    (fun c mem => blank c (List.mem_append_left _ mem)) inside
  rw [first line] at empty
  · cases empty
  · rw [List.append_assoc, List.cons_append, Text.lines_append_feed, Text.lines, split]
    rfl

/-- Where the last line is not blank, the blanks at the end stand on it. -/
theorem feed_notMem_of_getLast? {front after : List Char}
    (blank : ∀ c ∈ after, Text.isBlank c = true)
    (last : ∀ line ∈ (Text.lines (front ++ after)).getLast?, Text.allBlank line = false) :
    '\n' ∉ after := by
  intro mem
  obtain ⟨more, gap, rfl⟩ := List.append_of_mem mem
  have filled : Text.lines gap ≠ [] := List.splitOn_ne_nil '\n' gap
  have inside := List.getLast_mem filled
  have empty := Text.allBlank_of_mem_lines
    (fun c mem => blank c (List.mem_append_right _ (List.mem_cons_of_mem _ mem))) inside
  rw [last] at empty
  · cases empty
  · rw [← List.append_assoc, Text.lines_append_feed, List.getLast?_append_of_ne_nil _ filled]
    exact List.getLast?_eq_some_getLast filled

/-- A JSON text whose first and last lines are not blank starts on its first line and ends on its
last one. -/
theorem exists_of_isText {cs : List Char} (isText : IsText cs)
    (first : ∀ line ∈ (Text.lines cs).head?, Text.allBlank line = false)
    (last : ∀ line ∈ (Text.lines cs).getLast?, Text.allBlank line = false) :
    IsHeld 1 cs ∧ ∃ gap c more, cs = gap ++ c :: more ∧ '\n' ∉ gap ∧
      (∀ d ∈ gap, Text.isBlank d = true) ∧ opensValue c = true := by
  cases isText with
  | @element before value after left inner right =>
    have blank : ∀ {gap : List Char}, IsGap gap → ∀ c ∈ gap, Text.isBlank c = true := by
      intro gap white c mem
      have signs : ∀ d ∈ [' ', '\t', '\n', '\r'], Text.isBlank d = true := by simp [Text.isBlank]
      exact signs c (white c mem)
    have start : '\n' ∉ before := by
      rw [List.append_assoc] at first
      exact feed_notMem_of_head? (blank left) first
    have finish : '\n' ∉ after := feed_notMem_of_getLast? (blank right) last
    obtain ⟨c, more, rfl, opens⟩ := exists_cons_of_isPhrase_value inner
    refine ⟨?_, before, c, more ++ after, by simp, start, blank left, opens⟩
    exact ((isHeld_of_isGap left (.inr start)).append (isHeld_of_isPhrase inner)).append
      (isHeld_of_isGap right (.inr finish))

/-- What stands on the first line of a text. -/
theorem exists_toList_head {line : String} {rest : List String} {gap more : List Char} {c : Char}
    (split : ("\n".intercalate (line :: rest)).toList = gap ++ c :: more) (solid : c ≠ '\n')
    (sameLine : '\n' ∉ gap) : ∃ later, line.toList = gap ++ c :: later := by
  rw [toList_intercalate_cons] at split
  rcases of_append_eq_append_cons split with inside | ⟨later, rfl, tail⟩
  · exact inside
  · cases rest with
    | nil => simp at tail
    | cons next rest =>
      cases later with
      | nil => exact absurd (List.cons.inj tail).1.symm solid
      | cons d later =>
        obtain ⟨rfl, -⟩ := List.cons.inj tail
        simp at sameLine

/-- The lines of a JSON text are a literal body. -/
theorem isLiteral_of_isText {json : String} (isText : IsText json.toList)
    (noReturn : '\r' ∉ json.toList)
    (first : ∀ line ∈ (textLines json).head?, isBlankText line = false)
    (last : ∀ line ∈ (textLines json).getLast?, isBlankText line = false) :
    IsLiteral (textLines json) := by
  have filled : textLines json ≠ [] := by simp [textLines, Text.lines]
  refine ⟨?_, filled, first, last⟩
  have oneLine : ∀ line ∈ textLines json, isOneLine line = true :=
    fun line mem => isOneLine_of_mem_textLines noReturn mem
  obtain ⟨held, gap, c, more, split, sameLine, blank, opens⟩ := exists_of_isText isText
    (by simpa [textLines, isBlankText] using first) (by simpa [textLines, isBlankText] using last)
  have joined := intercalate_textLines json
  obtain ⟨line, rest, lines⟩ := List.exists_cons_of_ne_nil filled
  rw [lines, List.forall_mem_cons] at oneLine
  rw [lines] at joined ⊢
  have solid : c ≠ '\n' := by
    rintro rfl
    cases opens
  obtain ⟨later, chars⟩ := exists_toList_head (by rw [joined]; exact split) solid sameLine
  have whole : json.toList = [] ++ line.toList ++ rest.flatMap fun s => '\n' :: s.toList := by
    rw [← joined]
    exact toList_intercalate_cons line rest
  apply keepsText_of_opensValue blank opens chars oneLine.1
  exact keepsText_of_isHeld held oneLine.2 whole fun _ => rfl

/-- A JSON body is kept as it is written, whatever its strings contain and however it is laid out,
and every line of it is text of the body. -/
theorem parse_jsonBody {json : String} (isText : IsText json.toList) (noReturn : '\r' ∉ json.toList)
    (first : ∀ line ∈ (textLines json).head?, isBlankText line = false)
    (last : ∀ line ∈ (textLines json).getLast?, isBlankText line = false) {tail : String}
    (ends : EndsBody tail) :
    (∃ d, parse (literalText json ++ tail) = .ok d ∧ d.requests = [literalRequest json]) ∧
    ∀ i line, (textLines json)[i]? = some line →
      (scan (literalText json ++ tail)).filter (·.line == i + 3) = [⟨.bodyLine line, i + 3⟩] := by
  have parsed := parse_of_isLiteral (isLiteral_of_isText isText noReturn first last) ends
  rw [intercalate_textLines] at parsed
  exact parsed

/-- A value with a blank line between its brackets, and strings with signs that mean something
elsewhere. -/
def signsJson : String :=
  " [\"### [\",\n\n\t\"\\\" // \x7b\"\n, \x7b\"GET\" : -1.5e3\x7d\n] "

/-- A separator and a text that names no request. -/
def emptyBlock : String :=
  "\n###\n" ++ "# @name next\n@base = 1"

theorem parse_jsonBody_signsJson :
    IsText signsJson.toList ∧ EndsBody emptyBlock ∧
    (∃ d, parse (literalText signsJson ++ emptyBlock) = .ok d ∧
      d.requests = [literalRequest signsJson]) ∧
    (scan (literalText signsJson ++ emptyBlock)).filter (·.line == 5) =
      [⟨.bodyLine "\t\"\\\" // \x7b\"", 5⟩] := by
  obtain ⟨tree, read⟩ := Option.isSome_iff_exists.1
    (show (read? signsJson).isSome = true by decide +kernel)
  have isText := isText_of_read? read
  have parsed : parse "# @name next\n@base = 1" = .ok
      { fileVariables := { entries := [("base", "1")] }
        variableLines := { entries := [("base", 2)] } } := by
    decide +kernel
  have ends : EndsBody emptyBlock := .separator parsed rfl
  have kept := parse_jsonBody isText (by decide +kernel) (by decide +kernel) (by decide +kernel)
    ends
  exact ⟨isText, ends, kept.1, kept.2 2 _ (by decide +kernel)⟩

end RequestFile
