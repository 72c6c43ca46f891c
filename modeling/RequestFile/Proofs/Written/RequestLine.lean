import Mathlib
import RequestFile.Proofs.Assembly.Place
import RequestFile.Proofs.Token.Line
import RequestFile.Proofs.Written.Line

/-!
# Request lines of the preamble

A line of the preamble that holds a method and a target, or a target alone, and perhaps a version.
Behind a method the target may be put together from characters and placeholders, but a blank in a
placeholder cuts it, and then the line is no request line. Without a method a target that starts
like a URL or with a placeholder makes a request line, and a path does not.
-/

namespace RequestFile

/-! ## Versions -/

namespace Token

/-- A version has no brace. -/
theorem isVersion_of_mem_brace {cs : List Char} (mem : '}' ∈ cs) : isVersion cs = false := by
  rw [isVersion]
  split
  · rfl
  · next rest found =>
    obtain rfl := List.isPrefixOf?_eq_some_iff_append_eq.1 found
    have inside : '}' ∈ rest := by simpa using mem
    have digits : ∀ c ∈ rest.takeWhile Text.isDecimalDigit, c ≠ '}' := by
      rintro c digit rfl
      have same := List.mem_takeWhile_imp digit
      rw [Text.isDecimalDigit_brace] at same
      cases same
    rw [← List.takeWhile_append_dropWhile (p := Text.isDecimalDigit) (l := rest)] at inside
    have behind : '}' ∈ rest.dropWhile Text.isDecimalDigit :=
      (List.mem_append.1 inside).resolve_left fun digit => digits _ digit rfl
    rw [Bool.and_eq_false_iff]
    right
    split
    · next none =>
      rw [none] at behind
      cases behind
    · next minor point =>
      rw [point] at behind
      have later : '}' ∈ minor := by simpa using behind
      rw [Bool.and_eq_false_iff, List.all_eq_false]
      exact .inr ⟨'}', later, by simp [Text.isDecimalDigit_brace]⟩
    · rfl

theorem versionOf?_of_mem_brace {words : List (List Char)} {word : List Char}
    (mem : word ∈ words) (brace : '}' ∈ word) : versionOf? words = none := by
  match words with
  | [] => cases mem
  | [v] =>
    rw [← List.mem_singleton.1 mem, versionOf?, isVersion_of_mem_brace brace]
    rfl
  | _ :: _ :: _ => rfl

end Token

/-! ## Targets behind a method -/

/-- A target that is put together from characters other than blanks and braces and from
placeholders. A placeholder may hold blanks, but no brace and no end of a line. -/
inductive IsTarget : List Char → Prop
  | nil : IsTarget []
  | char {c : Char} {rest : List Char} (solid : Text.isBlank c = false)
      (plain : c ∉ ['{', '}']) (more : IsTarget rest) : IsTarget (c :: rest)
  | placeholder {content rest : List Char} (nonempty : content ≠ [])
      (inside : ∀ c ∈ content, c ∉ ['{', '}', '\r', '\n']) (more : IsTarget rest) :
      IsTarget ('{' :: '{' :: (content ++ '}' :: '}' :: rest))

namespace IsTarget

variable {target : List Char}

theorem not_isBlank_head (isTarget : IsTarget target) :
    ∀ c ∈ target.head?, Text.isBlank c = false := by
  cases isTarget with
  | nil => simp
  | char solid plain more => simpa using solid
  | placeholder nonempty inside more =>
    intro c first
    cases first
    rfl

theorem not_isBlank_getLast (isTarget : IsTarget target) :
    ∀ c ∈ target.getLast?, Text.isBlank c = false := by
  induction isTarget with
  | nil => simp
  | @char c rest solid plain more ih =>
    cases rest with
    | nil => simpa using solid
    | cons d rest => simpa using ih
  | @placeholder content rest nonempty inside more ih =>
    have ends : ('{' :: '{' :: (content ++ '}' :: '}' :: rest)).getLast? =
        ('}' :: rest).getLast? := by
      have split : '{' :: '{' :: (content ++ '}' :: '}' :: rest) =
          ('{' :: '{' :: (content ++ ['}'])) ++ '}' :: rest := by
        simp
      rw [split, List.getLast?_append_of_ne_nil _ (by simp)]
    rw [ends]
    cases rest with
    | nil =>
      intro c final
      cases final
      rfl
    | cons d rest => simpa using ih

/-- A blank stands in a placeholder, so that a brace stands behind it. -/
theorem brace_of_blank (isTarget : IsTarget target) {before after : List Char} {b : Char}
    (split : target = before ++ b :: after) (blank : Text.isBlank b = true) : '}' ∈ after := by
  induction isTarget generalizing before with
  | nil => simp at split
  | @char c rest solid plain more ih =>
    cases before with
    | nil =>
      obtain ⟨rfl, -⟩ := List.cons.inj split
      rw [blank] at solid
      cases solid
    | cons d before => exact ih (List.cons.inj split).2
  | @placeholder content rest nonempty inside more ih =>
    have whole : ('{' :: '{' :: content) ++ '}' :: '}' :: rest = before ++ b :: after := by
      simpa using split
    rcases List.append_eq_append_iff.1 whole with ⟨late, -, behind⟩ | ⟨early, -, behind⟩
    · match late, behind with
      | [], behind =>
        obtain ⟨rfl, -⟩ := List.cons.inj behind
        cases blank
      | [_], behind =>
        obtain ⟨rfl, -⟩ := List.cons.inj (List.cons.inj behind).2
        cases blank
      | _ :: _ :: late, behind => exact ih (List.cons.inj (List.cons.inj behind).2).2
    · cases early with
      | nil =>
        obtain ⟨rfl, -⟩ := List.cons.inj behind
        cases blank
      | cons d early =>
        rw [(List.cons.inj behind).2]
        simp

end IsTarget

/-- The schemes of an address that can stand without a method. -/
def schemes : List (List Char) :=
  [['h', 't', 't', 'p'], ['h', 't', 't', 'p', 's']]

namespace Token

section Method

variable {method gap target ending : List Char} {version : Option String}

/-- A target with a blank is more than one word, and one of those behind the first has a brace. -/
theorem withMethod?_eq_none_of_blank (word : isMethodWord method = true)
    (between : Text.IsGap gap) (isTarget : IsTarget target) {b : Char} (mem : b ∈ target)
    (blank : Text.isBlank b = true) (ends : EndsTarget ending version) :
    withMethod? (method ++ (gap ++ (target ++ ending))) = none := by
  obtain ⟨before, after, rfl⟩ := List.append_of_mem mem
  have brace := isTarget.brace_of_blank rfl blank
  obtain ⟨braced, inside, braces⟩ := Text.exists_mem_words brace (by decide)
  have started : ∃ first rest, Text.words before = first :: rest := by
    cases before with
    | nil =>
      rw [isTarget.not_isBlank_head b rfl] at blank
      cases blank
    | cons c before =>
      obtain ⟨first, rest, cut⟩ := Text.exists_words_cons (isTarget.not_isBlank_head c rfl) before
      exact ⟨_, rest, cut⟩
  obtain ⟨first, rest, cut⟩ := started
  have none :
      versionOf? ((rest ++ Text.words after) ++ (version.map String.toList).toList) = none :=
    versionOf?_of_mem_brace
      (List.mem_append_left _ (List.mem_append_right rest inside)) braces
  rw [withMethod?, words_methodLine word between ends, Text.words_append_cons_of_blank blank, cut]
  simp only [List.cons_append, word, if_true, none, Option.map_none]

/-- Behind the letters of a method stands a blank. -/
theorem dropWhile_isAlpha_methodLine (word : isMethodWord method = true) {b : Char}
    (blank : Text.isBlank b = true) (rest : List Char) :
    (method ++ b :: rest).dropWhile Char.isAlpha = b :: rest := by
  have letterless : b.isAlpha = false := by
    cases letter : b.isAlpha with
    | false => rfl
    | true =>
      rw [Text.not_isBlank_of_isAlpha letter] at blank
      cases blank
  rw [List.dropWhile_append_of_pos (isAlpha_of_isMethodWord word).2,
    List.dropWhile_cons_of_neg (by simp [letterless])]

/-- Behind the letters of a scheme stands a colon, so that no scheme starts a line with a method. -/
theorem isPrefixOf?_scheme_methodLine (word : isMethodWord method = true) {b : Char}
    (blank : Text.isBlank b = true) (rest : List Char) {scheme : List Char}
    (known : scheme ∈ schemes) :
    (scheme ++ [':', '/', '/']).isPrefixOf? (method ++ b :: rest) = none := by
  rw [← Option.not_isSome_iff_eq_none, Option.isSome_iff_exists]
  rintro ⟨tail, found⟩
  have whole := List.isPrefixOf?_eq_some_iff_append_eq.1 found
  have colon : (scheme ++ [':', '/', '/'] ++ tail).dropWhile Char.isAlpha =
      ':' :: '/' :: '/' :: tail := by
    rcases List.mem_pair.1 known with rfl | rfl
    · rfl
    · rfl
  rw [whole, dropWhile_isAlpha_methodLine word blank] at colon
  rw [(List.cons.inj colon).1] at blank
  cases blank

/-- A line with letters in front of a gap has no target at its start. -/
theorem withoutMethod?_methodLine (word : isMethodWord method = true) (between : Text.IsGap gap)
    (rest : List Char) : withoutMethod? (method ++ (gap ++ rest)) = none := by
  obtain ⟨nonempty, letters⟩ := isAlpha_of_isMethodWord word
  obtain ⟨gapNonempty, blank⟩ := between
  obtain ⟨b, more, rfl⟩ := List.exists_cons_of_ne_nil gapNonempty
  have blank := blank b List.mem_cons_self
  have noBrace : ['{', '{'].isPrefixOf? (method ++ b :: (more ++ rest)) = none := by
    obtain ⟨c, word, rfl⟩ := List.exists_cons_of_ne_nil nonempty
    have other : c ≠ '{' := by
      rintro rfl
      cases letters '{' List.mem_cons_self
    simp [List.isPrefixOf?, Ne.symm other]
  have http : ['h', 't', 't', 'p', ':', '/', '/'].isPrefixOf? (method ++ b :: (more ++ rest)) =
      none :=
    isPrefixOf?_scheme_methodLine word blank _ List.mem_cons_self
  have https : ['h', 't', 't', 'p', 's', ':', '/', '/'].isPrefixOf?
      (method ++ b :: (more ++ rest)) = none :=
    isPrefixOf?_scheme_methodLine word blank _ (List.mem_cons_of_mem _ List.mem_cons_self)
  rw [List.cons_append, withoutMethod?, bareTarget?, noBrace, http, https]

end Method

end Token

/-- A line of the preamble with a method and a target is one request line, which keeps the method,
the whole target and the version, if no placeholder of the target holds a blank. With a blank the
line is not recognized, and the preamble goes on. -/
theorem scan_methodLine {text : String} {normalize : Bool} {i : Nat}
    {raw method gap target ending : List Char} {version : Option String}
    (line : (linesOf text normalize)[i]? = some raw)
    (before : Region.preamble.after ((linesOf text normalize).take i) = .preamble)
    (whole : Text.trim raw = Text.trim (method ++ (gap ++ (target ++ ending))))
    (word : Token.isMethodWord method = true) (between : Text.IsGap gap)
    (isTarget : IsTarget target) (nonempty : target ≠ []) (ends : EndsTarget ending version) :
    ((∀ c ∈ target, Text.isBlank c = false) →
      (scan text normalize).filter (·.line == i + 1) =
          [⟨.requestLine (String.ofList method) (String.ofList target) version, i + 1⟩] ∧
        Region.preamble.after ((linesOf text normalize).take (i + 1)) = .headers true) ∧
    ((∃ c ∈ target, Text.isBlank c = true) →
      (scan text normalize).filter (·.line == i + 1) =
          [⟨.unrecognized (String.ofList (method ++ (gap ++ (target ++ ending)))), i + 1⟩] ∧
        Region.preamble.after ((linesOf text normalize).take (i + 1)) = .preamble) := by
  have noTarget := Token.withoutMethod?_methodLine word between (target ++ ending)
  have step : Region.preamble.step raw =
      (Token.withMethod? (method ++ (gap ++ (target ++ ending)))).elim
        (some (Token.unrecognizedLine (method ++ (gap ++ (target ++ ending)))), .preamble)
        fun token => (some token, .headers true) := by
    rw [Token.trim_methodLine word nonempty isTarget.not_isBlank_getLast ends] at whole
    have read : Token.requestLine? (method ++ (gap ++ (target ++ ending))) =
        Token.withMethod? (method ++ (gap ++ (target ++ ending))) := by
      rw [Token.requestLine?, noTarget, Option.or_none]
    rw [← read]
    obtain ⟨filled, letters⟩ := Token.isAlpha_of_isMethodWord word
    obtain ⟨c, more, rfl⟩ := List.exists_cons_of_ne_nil filled
    exact Region.step_preamble_of_letter whole (letters c List.mem_cons_self)
  constructor
  · intro solid
    rw [Token.withMethod?_methodLine word between nonempty solid ends] at step
    exact scan_line line before step
  · rintro ⟨b, mem, blank⟩
    rw [Token.withMethod?_eq_none_of_blank word between isTarget mem blank ends] at step
    exact scan_line line before step

/-- One line is read behind a comment, with a placeholder and a version. In the other the target is
cut at the blank of its placeholder. -/
theorem scan_methodLine_placeholder :
    IsTarget "\x7b\x7bhost\x7d\x7d/a".toList ∧
    EndsTarget " HTTP/1.1".toList (some "HTTP/1.1") ∧
    (scan "# call\nget \x7b\x7bhost\x7d\x7d/a HTTP/1.1").filter (·.line == 2) =
      [⟨.requestLine "get" "\x7b\x7bhost\x7d\x7d/a" (some "HTTP/1.1"), 2⟩] ∧
    IsTarget "\x7b\x7b$n 1\x7d\x7d".toList ∧
    (scan "get \x7b\x7b$n 1\x7d\x7d").filter (·.line == 1) =
      [⟨.unrecognized "get \x7b\x7b$n 1\x7d\x7d", 1⟩] := by
  have path : IsTarget ['/', 'a'] :=
    .char (by decide) (by simp) (.char (by decide) (by simp) .nil)
  have host : IsTarget "\x7b\x7bhost\x7d\x7d/a".toList :=
    @IsTarget.placeholder ['h', 'o', 's', 't'] ['/', 'a'] (by simp) (by simp) path
  have call : IsTarget "\x7b\x7b$n 1\x7d\x7d".toList :=
    @IsTarget.placeholder ['$', 'n', ' ', '1'] [] (by simp) (by simp) .nil
  have ends : EndsTarget " HTTP/1.1".toList (some "HTTP/1.1") := by
    have version := EndsTarget.version Text.isGap_space
      ⟨"1", some "1", by decide +kernel, by decide +kernel⟩
    simpa [WrittenVersion.text] using version
  have read := @scan_methodLine "# call\nget \x7b\x7bhost\x7d\x7d/a HTTP/1.1" true 1 _
    "get".toList _ _ _ _ rfl rfl rfl (by decide) Text.isGap_space host (by simp) ends
  have skipped := @scan_methodLine "get \x7b\x7b$n 1\x7d\x7d" true 0 _
    "get".toList _ _ _ _ rfl rfl rfl (by decide) Text.isGap_space call (by simp) .nothing
  exact ⟨host, ends, (read.1 (by simp; decide)).1, call, (skipped.2 ⟨' ', by simp, rfl⟩).1⟩

/-- A placeholder with blanks around its name stands in a target, and alone it makes a request line,
but not behind a method. -/
theorem scan_spacedPlaceholder :
    IsTarget "\x7b\x7b base \x7d\x7d".toList ∧
    scan "GET \x7b\x7b base \x7d\x7d" = [⟨.unrecognized "GET \x7b\x7b base \x7d\x7d", 1⟩] ∧
    scan "\x7b\x7b base \x7d\x7d" = [⟨.requestLine "" "\x7b\x7b base \x7d\x7d" none, 1⟩] := by
  refine ⟨?_, by decide +kernel, by decide +kernel⟩
  exact @IsTarget.placeholder [' ', 'b', 'a', 's', 'e', ' '] [] (by simp) (by simp) .nil

/-! ## Targets without a method -/

/-- A target that may stand alone: an address with its scheme, a placeholder with anything behind
it, or a path, which does not start like a comment. -/
inductive IsBareTarget : List Char → Prop
  | address {scheme rest : List Char} (known : scheme ∈ schemes) (nonempty : rest ≠ []) :
      IsBareTarget (scheme ++ ':' :: '/' :: '/' :: rest)
  | placeholder {content rest : List Char} (nonempty : content ≠ []) (inside : '}' ∉ content) :
      IsBareTarget ('{' :: '{' :: (content ++ '}' :: '}' :: rest))
  | path {rest : List Char} (single : rest.head? ≠ some '/') : IsBareTarget ('/' :: rest)

namespace IsBareTarget

variable {target ending : List Char} {version : Option String}

/-- A target that may stand alone does not start like a comment or a variable. -/
theorem exists_cons (bare : IsBareTarget target) (ends : EndsTarget ending version) :
    ∃ c rest, target ++ ending = c :: rest ∧ c ≠ '#' ∧ c ≠ '@' ∧
      Line.isComment (c :: rest) = false := by
  cases bare with
  | @address scheme rest known nonempty =>
    rcases List.mem_pair.1 known with rfl | rfl
    · exact ⟨_, _, rfl, by decide, by decide, rfl⟩
    · exact ⟨_, _, rfl, by decide, by decide, rfl⟩
  | placeholder nonempty inside => exact ⟨_, _, rfl, by decide, by decide, rfl⟩
  | @path rest single =>
    refine ⟨_, _, rfl, by decide, by decide, ?_⟩
    cases rest with
    | nil =>
      have blank := ends.isBlank_head
      cases ending with
      | nil => rfl
      | cons b more =>
        have other : b ≠ '/' := by
          rintro rfl
          cases blank '/' rfl
        simp [Line.isComment, List.isPrefixOf, Ne.symm other]
    | cons c rest =>
      have other : c ≠ '/' := by simpa using single
      simp [Line.isComment, List.isPrefixOf, Ne.symm other]

/-- A target that may stand alone is no method. -/
theorem isMethodWord_eq_false (bare : IsBareTarget target) :
    Token.isMethodWord target = false := by
  have other : ∃ c ∈ target, c.isAlpha = false := by
    cases bare with
    | address known nonempty => exact ⟨':', by simp, rfl⟩
    | placeholder nonempty inside => exact ⟨'{', by simp, rfl⟩
    | path single => exact ⟨'/', by simp, rfl⟩
  rw [Token.isMethodWord, Bool.and_eq_false_iff, List.all_eq_false]
  obtain ⟨c, mem, letterless⟩ := other
  exact .inr ⟨c, mem, by simp [letterless]⟩

theorem ne_nil (bare : IsBareTarget target) : target ≠ [] := by
  cases bare with
  | address known nonempty => simp
  | placeholder nonempty inside => simp
  | path single => simp

theorem withMethod?_eq_none (bare : IsBareTarget target)
    (solid : ∀ c ∈ target, Text.isBlank c = false) (ends : EndsTarget ending version) :
    Token.withMethod? (target ++ ending) = none := by
  rw [Token.withMethod?, ends.words_append, Text.words_of_not_blank solid bare.ne_nil]
  cases version with
  | none => rfl
  | some v => simp [bare.isMethodWord_eq_false]

/-- The start of a target that is no path is found, and the rest of it stands behind. -/
theorem bareTarget?_append (bare : IsBareTarget target)
    (solid : ∀ c ∈ target, Text.isBlank c = false) (noPath : target.head? ≠ some '/')
    (ending : List Char) :
    ∃ start rest, target = start ++ rest ∧
      Token.bareTarget? (target ++ ending) = some (start, rest ++ ending) := by
  cases bare with
  | @address scheme rest known nonempty =>
    obtain ⟨c, more, rfl⟩ := List.exists_cons_of_ne_nil nonempty
    have first : Text.isBlank c = false := solid c (by simp)
    rcases List.mem_pair.1 known with rfl | rfl
    · refine ⟨['h', 't', 't', 'p', ':', '/', '/', c], more, rfl, ?_⟩
      simp [Token.bareTarget?, List.isPrefixOf?, first]
    · refine ⟨['h', 't', 't', 'p', 's', ':', '/', '/', c], more, rfl, ?_⟩
      simp [Token.bareTarget?, List.isPrefixOf?, first]
  | @placeholder content rest nonempty inside =>
    have other : ∀ c ∈ content, (c != '}') = true := by
      intro c mem
      rw [bne_iff_ne]
      rintro rfl
      exact inside mem
    refine ⟨'{' :: '{' :: (content ++ ['}', '}']), rest, by simp, ?_⟩
    simp [Token.bareTarget?, List.isPrefixOf?, List.takeWhile_append_of_pos other,
      List.dropWhile_append_of_pos other, nonempty]
  | path single => exact absurd rfl noPath

theorem withoutMethod?_append (bare : IsBareTarget target)
    (solid : ∀ c ∈ target, Text.isBlank c = false) (noPath : target.head? ≠ some '/')
    (ends : EndsTarget ending version) :
    Token.withoutMethod? (target ++ ending) =
      some (.requestLine "" (String.ofList target) version) := by
  obtain ⟨start, rest, rfl, found⟩ := bare.bareTarget?_append solid noPath ending
  obtain ⟨taken, left⟩ := ends.span_append fun c mem => solid c (List.mem_append_right start mem)
  rw [Token.withoutMethod?, found]
  simp only [taken, left, ends.words_eq, ends.versionOf?, Option.map_some]

/-- A path alone has no method in front of it and no scheme. -/
theorem withoutMethod?_path (rest : List Char) : Token.withoutMethod? ('/' :: rest) = none :=
  rfl

theorem trim_append (bare : IsBareTarget target) (solid : ∀ c ∈ target, Text.isBlank c = false)
    (ends : EndsTarget ending version) : Text.trim (target ++ ending) = target ++ ending := by
  rw [Text.trim_eq_self_iff]
  constructor
  · intro c first
    rw [List.head?_append_of_ne_nil _ bare.ne_nil] at first
    exact solid c (List.mem_of_mem_head? first)
  · exact ends.getLast_append fun c last => solid c (List.mem_of_mem_getLast? last)

end IsBareTarget

/-- A line of the preamble with a target alone is one request line without a method, which keeps the
whole target and the version, and it opens a request. A path alone is not recognized, and the
preamble goes on. -/
theorem scan_bareLine {text : String} {normalize : Bool} {i : Nat}
    {raw target ending : List Char} {version : Option String}
    (line : (linesOf text normalize)[i]? = some raw)
    (before : Region.preamble.after ((linesOf text normalize).take i) = .preamble)
    (whole : Text.trim raw = Text.trim (target ++ ending)) (bare : IsBareTarget target)
    (solid : ∀ c ∈ target, Text.isBlank c = false) (ends : EndsTarget ending version) :
    (target.head? ≠ some '/' →
      (scan text normalize).filter (·.line == i + 1) =
          [⟨.requestLine "" (String.ofList target) version, i + 1⟩] ∧
        Region.preamble.after ((linesOf text normalize).take (i + 1)) = .headers true ∧
        ∀ options d, options.normalizeLineEndings = normalize → parse text options = .ok d →
          ∃ r ∈ d.requests, r.line = i + 1 ∧ r.method = "" ∧ r.version = version ∧
            ∃ query, r.url = String.ofList target ++ query) ∧
    (target.head? = some '/' →
      (scan text normalize).filter (·.line == i + 1) =
          [⟨.unrecognized (String.ofList (target ++ ending)), i + 1⟩] ∧
        Region.preamble.after ((linesOf text normalize).take (i + 1)) = .preamble) := by
  have step : Region.preamble.step raw =
      (Token.withoutMethod? (target ++ ending)).elim
        (some (Token.unrecognizedLine (target ++ ending)), .preamble)
        fun token => (some token, .headers true) := by
    have read : Token.requestLine? (target ++ ending) =
        Token.withoutMethod? (target ++ ending) := by
      rw [Token.requestLine?, bare.withMethod?_eq_none solid ends, Option.none_or]
    rw [bare.trim_append solid ends] at whole
    rw [← read]
    obtain ⟨c, rest, start, number, sign, other⟩ := bare.exists_cons ends
    rw [start] at whole ⊢
    exact Region.step_preamble_of_other whole number sign other
  constructor
  · intro noPath
    rw [bare.withoutMethod?_append solid noPath ends] at step
    obtain ⟨made, next⟩ := scan_line line before step
    refine ⟨made, next, ?_⟩
    rintro options d rfl parsed
    have mem : ⟨.requestLine "" (String.ofList target) version, i + 1⟩ ∈
        (scan text options.normalizeLineEndings).filter (·.line == i + 1) := by
      rw [made]
      exact List.mem_singleton_self _
    exact exists_request_of_mem parsed (List.mem_filter.1 mem).1
  · intro path
    obtain ⟨rest, rfl⟩ : ∃ rest, target = '/' :: rest := by
      cases target with
      | nil => cases path
      | cons c rest =>
        cases path
        exact ⟨rest, rfl⟩
    rw [List.cons_append, IsBareTarget.withoutMethod?_path] at step
    exact scan_line line before step

/-- An address with a version behind a tabulator, on the second line, and a path with a version. -/
theorem scan_bareLine_address :
    IsBareTarget "https://x".toList ∧ EndsTarget "\tHTTP/2".toList (some "HTTP/2") ∧
    (scan "\nhttps://x\tHTTP/2").filter (·.line == 2) =
      [⟨.requestLine "" "https://x" (some "HTTP/2"), 2⟩] ∧
    IsBareTarget "/a".toList ∧
    (scan "/a\tHTTP/2").filter (·.line == 1) = [⟨.unrecognized "/a\tHTTP/2", 1⟩] := by
  have address : IsBareTarget "https://x".toList :=
    @IsBareTarget.address ['h', 't', 't', 'p', 's'] ['x'] (by simp [schemes]) (by simp)
  have path : IsBareTarget "/a".toList := @IsBareTarget.path ['a'] (by simp)
  have ends : EndsTarget "\tHTTP/2".toList (some "HTTP/2") := by
    have gap : Text.IsGap ['\t'] := ⟨by simp, by simp; decide⟩
    have version := EndsTarget.version gap ⟨"2", none, by decide +kernel, by decide +kernel⟩
    simpa [WrittenVersion.text] using version
  have read := @scan_bareLine "\nhttps://x\tHTTP/2" true 1 _ _ _ _ rfl rfl rfl address
    (by simp; decide) ends
  have skipped := @scan_bareLine "/a\tHTTP/2" true 0 _ _ _ _ rfl rfl rfl path
    (by simp; decide) ends
  exact ⟨address, ends, (read.1 (by simp)).1, path, (skipped.2 rfl).1⟩

/-- A path may stand alone, and it is not recognized. -/
theorem scan_barePath :
    IsBareTarget "/users".toList ∧ scan "/users" = [⟨.unrecognized "/users", 1⟩] :=
  ⟨@IsBareTarget.path ['u', 's', 'e', 'r', 's'] (by simp), by decide +kernel⟩

end RequestFile
