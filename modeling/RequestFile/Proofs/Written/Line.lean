import Mathlib
import RequestFile.Proofs.Directive
import RequestFile.Proofs.Written.File

/-!
# Reading a written line

Each line before the headers is read as what it was written for. For each kind of line the readers
come first, applied to the trimmed line, and then the step of the scanner.
-/

namespace RequestFile

/-! ## Readers -/

namespace Text

theorem isNameChar_space : Text.isNameChar ' ' = false :=
  rfl

theorem isDecimalDigit_point : Text.isDecimalDigit '.' = false := by
  decide +kernel

theorem isDecimalDigit_brace : Text.isDecimalDigit '}' = false := by
  decide +kernel

end Text

namespace Token

theorem assignment?_at (rest : List Char) :
    assignment? ('@' :: rest) =
      match Text.cutAt (· == '=') rest with
      | (name, some value) =>
        some (.assignment (String.ofList (Text.trim name)) (String.ofList (Text.trim value)))
      | (_, none) => none :=
  rfl

theorem comment?_number_sign (rest : List Char) :
    comment? ('#' :: rest) =
      some ((directive? rest).getD (.comment (String.ofList (Text.trim rest)))) :=
  rfl

/-- A directive whose line ends with its key. -/
theorem directive?_key {c : Char} (letter : c.isAlpha = true) {rest : List Char}
    (ends : rest.dropWhile Text.isNameChar = []) :
    directive? (' ' :: '@' :: c :: rest) =
      some (.directive (String.ofList (c :: rest.takeWhile Text.isNameChar)) "") := by
  have start : Text.trimStart (' ' :: '@' :: c :: rest) = '@' :: c :: rest := rfl
  simp only [directive?, start, letter, if_true, ends]

/-- A directive with a blank behind its key. -/
theorem directive?_key_value {c : Char} (letter : c.isAlpha = true) {rest : List Char} {b : Char}
    {value : List Char} (ends : rest.dropWhile Text.isNameChar = b :: value)
    (blank : Text.isBlank b = true) :
    directive? (' ' :: '@' :: c :: rest) =
      some (.directive (String.ofList (c :: rest.takeWhile Text.isNameChar))
        (String.ofList (Text.trim value))) := by
  have start : Text.trimStart (' ' :: '@' :: c :: rest) = '@' :: c :: rest := rfl
  simp only [directive?, start, letter, if_true, ends, blank]

theorem isAlpha_of_isMethodWord {word : List Char} (ok : isMethodWord word = true) :
    word ≠ [] ∧ ∀ c ∈ word, c.isAlpha = true := by
  simpa [isMethodWord] using ok

end Token

/-! ## Variables -/

theorem trim_variableLine (entry : String × String) :
    Text.trim (variableLine entry).toList =
      '@' :: ((entry.1.toList ++ [' ']) ++ '=' :: Text.trimEnd (' ' :: entry.2.toList)) := by
  have chars : (variableLine entry).toList =
      ('@' :: (entry.1.toList ++ [' ']) ++ ['=']) ++ (' ' :: entry.2.toList) := by
    simp [variableLine]
  have start : Text.trim ('@' :: (entry.1.toList ++ [' ']) ++ ['=']) =
      '@' :: (entry.1.toList ++ [' ']) ++ ['='] :=
    Text.trim_cons_append rfl _ rfl (by simp)
  rw [chars, Text.trim_append start (by simp)]
  simp

theorem assignment?_variableLine {entry : String × String} (name : IsVariableName entry.1)
    (value : IsPlain entry.2) :
    Token.assignment? (Text.trim (variableLine entry).toList) =
      some (.assignment entry.1 entry.2) := by
  obtain ⟨⟨nameTrimmed, -⟩, noSign⟩ := name
  have nameTight := trim_toList_of_trimmed nameTrimmed
  have valueTight := trim_toList_of_trimmed value.1
  have cut : Text.cutAt (· == '=')
      ((entry.1.toList ++ [' ']) ++ '=' :: Text.trimEnd (' ' :: entry.2.toList)) =
        (entry.1.toList ++ [' '], some (Text.trimEnd (' ' :: entry.2.toList))) := by
    refine Text.cutAt_append_cons ?_ (by rfl) _
    intro c mem
    rw [List.mem_append, List.mem_singleton] at mem
    rcases mem with mem | rfl
    · rw [beq_eq_false_iff_ne]
      intro same
      exact noSign (same ▸ mem)
    · rfl
  have nameBack : Text.trim (entry.1.toList ++ [' ']) = entry.1.toList := by
    rw [Text.trim_append_of_blank Text.forall_mem_space, nameTight]
  have valueBack : Text.trim (Text.trimEnd (' ' :: entry.2.toList)) = entry.2.toList := by
    rw [Text.trim_trimEnd_space_cons, valueTight]
  rw [trim_variableLine, Token.assignment?_at, cut]
  simp [nameBack, valueBack]

/-! ## Expectations -/

/-- What the line of an expectation holds behind the key. -/
def WrittenExpectation.text (e : WrittenExpectation) : String :=
  String.ofList (Text.trim (e.keyword.toList ++ ' ' :: e.expectation.value.toList))

/-! ## Request lines -/

namespace WrittenVersion

theorem toList_text (v : WrittenVersion) :
    v.text.toList = ['H', 'T', 'T', 'P', '/'] ++
      (v.major.toList ++ (v.minor.elim [] fun digits => '.' :: digits.toList)) := by
  cases minor : v.minor <;> simp [WrittenVersion.text, minor]

theorem isVersion_text (v : WrittenVersion) : Token.isVersion v.text.toList = true := by
  obtain ⟨nonempty, digits⟩ := v.major_numeral
  have start : ∀ rest : List Char,
      ['H', 'T', 'T', 'P', '/'].isPrefixOf? (['H', 'T', 'T', 'P', '/'] ++ rest) = some rest := by
    intro rest
    simp [List.isPrefixOf?]
  simp only [Token.isVersion, toList_text, start]
  rw [List.takeWhile_append_of_pos digits, List.dropWhile_append_of_pos digits]
  cases minor : v.minor with
  | none => simp [nonempty]
  | some more =>
    obtain ⟨moreNonempty, moreDigits⟩ := v.minor_numeral more minor
    simp only [Option.elim_some]
    rw [List.dropWhile_cons_of_neg (by simp [Text.isDecimalDigit_point])]
    simp [nonempty, moreNonempty]
    exact moreDigits

theorem not_isBlank_text (v : WrittenVersion) : ∀ c ∈ v.text.toList, Text.isBlank c = false := by
  have start : ∀ c ∈ ['H', 'T', 'T', 'P', '/'], Text.isBlank c = false := by
    simp
    decide
  intro c mem
  rw [toList_text, List.mem_append, List.mem_append] at mem
  rcases mem with mem | mem | mem
  · exact start c mem
  · exact Text.not_isBlank_of_isDecimalDigit (v.major_numeral.2 c mem)
  · cases minor : v.minor with
    | none => simp [minor] at mem
    | some digits =>
      rw [minor, Option.elim_some, List.mem_cons] at mem
      rcases mem with rfl | mem
      · rfl
      · exact Text.not_isBlank_of_isDecimalDigit ((v.minor_numeral digits minor).2 c mem)

theorem toList_text_ne_nil (v : WrittenVersion) : v.text.toList ≠ [] := by
  rw [toList_text]
  simp

end WrittenVersion

/-- What may stand behind a target: nothing, or a gap and a version. -/
inductive EndsTarget : List Char → Option String → Prop
  | nothing : EndsTarget [] none
  | version {gap : List Char} (between : Text.IsGap gap) (v : WrittenVersion) :
      EndsTarget (gap ++ v.text.toList) (some v.text)

namespace EndsTarget

variable {ending : List Char} {version : Option String}

theorem words_append (ends : EndsTarget ending version) (cs : List Char) :
    Text.words (cs ++ ending) = Text.words cs ++ (version.map String.toList).toList := by
  cases ends with
  | nothing => simp
  | version between v =>
    rw [between.words_append, Text.words_of_not_blank v.not_isBlank_text v.toList_text_ne_nil]
    rfl

theorem words_eq (ends : EndsTarget ending version) :
    Text.words ending = (version.map String.toList).toList :=
  ends.words_append []

theorem versionOf? (ends : EndsTarget ending version) :
    Token.versionOf? (version.map String.toList).toList = some version := by
  cases ends with
  | nothing => rfl
  | version between v =>
    rw [Option.map_some, Option.toList_some, Token.versionOf?, if_pos v.isVersion_text,
      String.ofList_toList]

theorem isBlank_head (ends : EndsTarget ending version) :
    ∀ c ∈ ending.head?, Text.isBlank c = true := by
  cases ends with
  | nothing => simp
  | version between v =>
    obtain ⟨nonempty, blank⟩ := between
    obtain ⟨b, more, rfl⟩ := List.exists_cons_of_ne_nil nonempty
    intro c first
    exact blank c (List.mem_of_mem_head? first)

/-- A target without blanks is taken as a whole. -/
theorem span_append (ends : EndsTarget ending version) {cs : List Char}
    (solid : ∀ c ∈ cs, Text.isBlank c = false) :
    (cs ++ ending).takeWhile (!Text.isBlank ·) = cs ∧
      (cs ++ ending).dropWhile (!Text.isBlank ·) = ending := by
  have kept : ∀ c ∈ cs, (!Text.isBlank c) = true := by simpa using solid
  rw [List.takeWhile_append_of_pos kept, List.dropWhile_append_of_pos kept]
  have blank := ends.isBlank_head
  cases ending with
  | nil => simp
  | cons b more => simp [blank b rfl]

theorem getLast_append (ends : EndsTarget ending version) {cs : List Char}
    (last : ∀ c ∈ cs.getLast?, Text.isBlank c = false) :
    ∀ c ∈ (cs ++ ending).getLast?, Text.isBlank c = false := by
  cases ends with
  | nothing => simpa using last
  | version between v =>
    intro c final
    rw [← List.append_assoc, List.getLast?_append_of_ne_nil _ v.toList_text_ne_nil] at final
    exact v.not_isBlank_text c (List.mem_of_mem_getLast? final)

end EndsTarget

namespace Token

section Method

variable {method gap target ending : List Char} {version : Option String}

theorem words_methodLine (word : isMethodWord method = true) (between : Text.IsGap gap)
    (ends : EndsTarget ending version) :
    Text.words (method ++ (gap ++ (target ++ ending))) =
      method :: (Text.words target ++ (version.map String.toList).toList) := by
  obtain ⟨nonempty, letters⟩ := isAlpha_of_isMethodWord word
  have solid : ∀ c ∈ method, Text.isBlank c = false :=
    fun c mem => Text.not_isBlank_of_isAlpha (letters c mem)
  rw [between.words_append, Text.words_of_not_blank solid nonempty, ends.words_append]
  rfl

theorem withMethod?_methodLine (word : isMethodWord method = true) (between : Text.IsGap gap)
    (nonempty : target ≠ []) (solid : ∀ c ∈ target, Text.isBlank c = false)
    (ends : EndsTarget ending version) :
    withMethod? (method ++ (gap ++ (target ++ ending))) =
      some (.requestLine (String.ofList method) (String.ofList target) version) := by
  rw [withMethod?, words_methodLine word between ends, Text.words_of_not_blank solid nonempty]
  simp only [List.singleton_append, word, if_true, ends.versionOf?, Option.map_some]

theorem trim_methodLine (word : isMethodWord method = true) (nonempty : target ≠ [])
    (last : ∀ c ∈ target.getLast?, Text.isBlank c = false) (ends : EndsTarget ending version) :
    Text.trim (method ++ (gap ++ (target ++ ending))) = method ++ (gap ++ (target ++ ending)) := by
  obtain ⟨filled, letters⟩ := isAlpha_of_isMethodWord word
  obtain ⟨c, more, rfl⟩ := List.exists_cons_of_ne_nil filled
  rw [Text.trim_eq_self_iff]
  constructor
  · intro d first
    obtain rfl : c = d := Option.some.inj first
    exact Text.not_isBlank_of_isAlpha (letters c List.mem_cons_self)
  · rw [← List.append_assoc, List.getLast?_append_of_ne_nil _ (by simp [nonempty])]
    exact ends.getLast_append last

end Method

end Token

namespace WrittenRequest

/-- The words of a request line behind the method. -/
def afterMethod (r : WrittenRequest) : List Char :=
  r.url.toList ++ (r.version.elim [] fun v => ' ' :: v.text.toList)

theorem toList_requestLine (r : WrittenRequest) :
    r.requestLine.toList = r.method.toList ++ ' ' :: r.afterMethod := by
  cases version : r.version <;> simp [requestLine, afterMethod, version]

theorem endsTarget (r : WrittenRequest) :
    EndsTarget (r.version.elim [] fun v => ' ' :: v.text.toList)
      (r.version.map WrittenVersion.text) := by
  cases r.version with
  | none => exact .nothing
  | some v => exact .version Text.isGap_space v

theorem requestLine?_requestLine (r : WrittenRequest) :
    Token.requestLine? r.requestLine.toList =
      some (.requestLine r.method r.url (r.version.map WrittenVersion.text)) := by
  obtain ⟨urlNonempty, urlSolid⟩ := r.url_word
  have read : Token.withMethod? (r.method.toList ++ ' ' :: r.afterMethod) =
      some (.requestLine (String.ofList r.method.toList) (String.ofList r.url.toList)
        (r.version.map WrittenVersion.text)) :=
    Token.withMethod?_methodLine r.method_word Text.isGap_space (toList_ne_nil urlNonempty) urlSolid
      r.endsTarget
  rw [Token.requestLine?, toList_requestLine, read, String.ofList_toList, String.ofList_toList,
    Option.some_or]

theorem trim_requestLine (r : WrittenRequest) :
    Text.trim r.requestLine.toList = r.requestLine.toList := by
  obtain ⟨urlNonempty, urlSolid⟩ := r.url_word
  have last : ∀ c ∈ r.url.toList.getLast?, Text.isBlank c = false :=
    fun c last => urlSolid c (List.mem_of_mem_getLast? last)
  rw [toList_requestLine]
  exact @Token.trim_methodLine _ [' '] _ _ _ r.method_word (toList_ne_nil urlNonempty) last
    r.endsTarget

end WrittenRequest

/-! ## Steps -/

namespace Region

theorem step_separator (region : Region) :
    region.step "###".toList = (some (.separator none), preamble) :=
  step_of_separator rfl

theorem step_preamble_empty : preamble.step "".toList = (none, preamble) :=
  rfl

/-- A file variable is read as it is written. -/
theorem step_variableLine {entry : String × String} (name : IsVariableName entry.1)
    (value : IsPlain entry.2) :
    preamble.step (variableLine entry).toList =
      (some (.assignment entry.1 entry.2), preamble) := by
  have read := assignment?_variableLine name value
  rw [step_preamble (by rw [trim_variableLine]; rfl)]
  apply stepPreamble_of_assignment _ read
  rw [trim_variableLine]
  rfl

/-- A directive is read as it is written, with its text trimmed. -/
theorem step_directive {c : Char} {key : List Char} (letter : c.isAlpha = true)
    (nameChars : ∀ d ∈ key, Text.isNameChar d = true)
    (solid : ∀ d ∈ c :: key, Text.isBlank d = false) (text : List Char) :
    preamble.step ('#' :: ' ' :: '@' :: (c :: key ++ ' ' :: text)) =
      (some (.directive (String.ofList (c :: key)) (String.ofList (Text.trim text))),
        preamble) := by
  have start : Text.trim ('#' :: [' ', '@'] ++ (c :: key)) = '#' :: [' ', '@'] ++ (c :: key) :=
    Text.trim_cons_append rfl _ (Text.trim_of_not_blank solid) (by simp)
  have trimmed : Text.trim ('#' :: ' ' :: '@' :: (c :: key ++ ' ' :: text)) =
      '#' :: ' ' :: '@' :: (c :: key ++ Text.trimEnd (' ' :: text)) := by
    exact Text.trim_append start (by simp) (' ' :: text)
  rw [step_preamble (by rw [trimmed]; rfl), trimmed]
  apply stepPreamble_of_comment
  rw [Token.comment?_number_sign, List.cons_append, Text.trimEnd_space_cons]
  by_cases empty : Text.trimEnd text = []
  · have nothing : Text.trim text = [] := by
      rw [← Text.trim_trimEnd, empty, Text.trim_nil]
    rw [if_pos empty, List.append_nil,
      Token.directive?_key letter (List.dropWhile_eq_nil_iff.2 nameChars),
      List.takeWhile_eq_self_iff.2 nameChars, nothing]
    rfl
  · have ends : (key ++ ' ' :: Text.trimEnd text).dropWhile Text.isNameChar =
        ' ' :: Text.trimEnd text := by
      rw [List.dropWhile_append_of_pos nameChars,
        List.dropWhile_cons_of_neg (by simp [Text.isNameChar_space])]
    rw [if_neg empty, Token.directive?_key_value letter ends Text.isBlank_space,
      List.takeWhile_append_of_pos nameChars,
      List.takeWhile_cons_of_neg (by simp [Text.isNameChar_space]), List.append_nil,
      Text.trim_trimEnd]
    rfl

theorem step_nameLine {name : String} (ok : isNameText name = true) :
    preamble.step ("# @name " ++ name).toList = (some (.directive "name" name), preamble) := by
  have read := @step_directive 'n' ['a', 'm', 'e'] (by rfl) (by simp; decide) (by simp; decide)
    name.toList
  have chars : ("# @name " ++ name).toList =
      '#' :: ' ' :: '@' :: ('n' :: ['a', 'm', 'e'] ++ ' ' :: name.toList) := by
    simp
  rw [chars, read, Text.trim_of_not_blank (not_isBlank_of_isNameText ok), String.ofList_toList]

theorem step_expectationLine (e : WrittenExpectation) :
    preamble.step e.line.toList = (some (.directive "expect" e.text), preamble) := by
  have read := @step_directive 'e' ['x', 'p', 'e', 'c', 't'] (by rfl) (by simp; decide)
    (by simp; decide) (e.keyword.toList ++ ' ' :: e.expectation.value.toList)
  have chars : e.line.toList = '#' :: ' ' :: '@' :: ('e' :: ['x', 'p', 'e', 'c', 't'] ++
      ' ' :: (e.keyword.toList ++ ' ' :: e.expectation.value.toList)) := by
    simp [WrittenExpectation.line]
  rw [chars, read]
  rfl

/-- A line of the preamble that starts with a letter is a request line or nothing. -/
theorem step_preamble_of_letter {raw rest : List Char} {c : Char}
    (start : Text.trim raw = c :: rest) (letter : c.isAlpha = true) :
    preamble.step raw = (Token.requestLine? (c :: rest)).elim
      (some (Token.unrecognizedLine (c :: rest)), preamble)
      fun token => (some token, headers true) := by
  have others : c ≠ '#' ∧ c ≠ '@' ∧ c ≠ '/' := by
    refine ⟨?_, ?_, ?_⟩
    all_goals
      rintro rfl
      cases letter
  exact step_preamble_of_other start others.1 others.2.1
    (Line.isComment_cons others.1 others.2.2 rest)

/-- A request line is read as it is written. -/
theorem step_requestLine (r : WrittenRequest) :
    preamble.step r.requestLine.toList =
      (some (.requestLine r.method r.url (r.version.map WrittenVersion.text)), headers true) := by
  obtain ⟨nonempty, letters⟩ := Token.isAlpha_of_isMethodWord r.method_word
  obtain ⟨c, more, method⟩ := List.exists_cons_of_ne_nil nonempty
  have start : r.requestLine.toList = c :: (more ++ ' ' :: r.afterMethod) := by
    rw [r.toList_requestLine, method, List.cons_append]
  rw [step_preamble_of_letter (r.trim_requestLine.trans start) (letters c (by simp [method])),
    ← start, r.requestLine?_requestLine, Option.elim_some]

end Region

end RequestFile
