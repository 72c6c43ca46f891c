import Mathlib
import RequestFile.Json.Reader

/-!
# The grammar of JSON

Which texts are JSON is said here by rules that put them together, without a reader. All texts that
the reader takes are put together by these rules.
-/

namespace RequestFile.Json

/-! ## Scalars -/

/-- White space of JSON. -/
def IsGap (cs : List Char) : Prop :=
  ∀ c ∈ cs, c ∈ [' ', '\t', '\n', '\r']

/-- One or more digits. -/
def IsDigits (ds : List Char) : Prop :=
  ds ≠ [] ∧ ∀ c ∈ ds, c.isDigit = true

/-- Digits before a point: no `0` stands in front of others. -/
def IsWhole (ds : List Char) : Prop :=
  IsDigits ds ∧ (ds.head? = some '0' → ds = ['0'])

def IsFraction (cs : List Char) : Prop :=
  cs = [] ∨ ∃ ds, IsDigits ds ∧ cs = '.' :: ds

def IsExponent (cs : List Char) : Prop :=
  cs = [] ∨ ∃ mark sign ds, mark ∈ ['e', 'E'] ∧ sign ∈ [[], ['+'], ['-']] ∧ IsDigits ds ∧
    cs = mark :: sign ++ ds

def IsNumber (cs : List Char) : Prop :=
  ∃ sign whole fraction exponent, sign ∈ [[], ['-']] ∧ IsWhole whole ∧ IsFraction fraction ∧
    IsExponent exponent ∧ cs = sign ++ whole ++ fraction ++ exponent

def IsHexDigit (c : Char) : Prop :=
  c.isDigit = true ∨ 'a' ≤ c ∧ c ≤ 'f' ∨ 'A' ≤ c ∧ c ≤ 'F'

/-- What may stand between the quotes of a string. -/
inductive IsQuotable : List Char → Prop
  | nil : IsQuotable []
  | plain {c : Char} {cs : List Char} (above : 0x20 ≤ c.toNat) (other : c ≠ '"' ∧ c ≠ '\\')
      (rest : IsQuotable cs) : IsQuotable (c :: cs)
  | short {c : Char} {cs : List Char} (known : c ∈ ['"', '\\', '/', 'b', 'f', 'n', 'r', 't'])
      (rest : IsQuotable cs) : IsQuotable ('\\' :: c :: cs)
  | unicode {a b c d : Char} {cs : List Char} (hex : ∀ x ∈ [a, b, c, d], IsHexDigit x)
      (rest : IsQuotable cs) : IsQuotable ('\\' :: 'u' :: a :: b :: c :: d :: cs)

def IsString (cs : List Char) : Prop :=
  ∃ body, IsQuotable body ∧ cs = '"' :: body ++ ['"']

/-- The words that are values. -/
def literals : List (List Char) :=
  [['n', 'u', 'l', 'l'], ['t', 'r', 'u', 'e'], ['f', 'a', 'l', 's', 'e']]

/-! ## Values -/

/-- What a phrase of a JSON text is. An element is a value with white space around it. -/
inductive Phrase where
  | value
  | element
  | elements
  | member
  | members
deriving DecidableEq

/-- The rules that JSON texts are put together by. -/
inductive IsPhrase : Phrase → List Char → Prop
  | literal {cs : List Char} (known : cs ∈ literals) : IsPhrase .value cs
  | number {cs : List Char} (number : IsNumber cs) : IsPhrase .value cs
  | string {cs : List Char} (string : IsString cs) : IsPhrase .value cs
  | emptyArray {gap : List Char} (blank : IsGap gap) : IsPhrase .value ('[' :: gap ++ [']'])
  | array {cs : List Char} (inner : IsPhrase .elements cs) : IsPhrase .value ('[' :: cs ++ [']'])
  | emptyObject {gap : List Char} (blank : IsGap gap) : IsPhrase .value ('{' :: gap ++ ['}'])
  | object {cs : List Char} (inner : IsPhrase .members cs) : IsPhrase .value ('{' :: cs ++ ['}'])
  | element {before cs after : List Char} (left : IsGap before) (inner : IsPhrase .value cs)
      (right : IsGap after) : IsPhrase .element (before ++ cs ++ after)
  | oneElement {cs : List Char} (last : IsPhrase .element cs) : IsPhrase .elements cs
  | moreElements {cs rest : List Char} (first : IsPhrase .element cs)
      (others : IsPhrase .elements rest) : IsPhrase .elements (cs ++ ',' :: rest)
  | member {before name after cs : List Char} (left : IsGap before) (string : IsString name)
      (right : IsGap after) (inner : IsPhrase .element cs) :
      IsPhrase .member (before ++ name ++ after ++ ':' :: cs)
  | oneMember {cs : List Char} (last : IsPhrase .member cs) : IsPhrase .members cs
  | moreMembers {cs rest : List Char} (first : IsPhrase .member cs)
      (others : IsPhrase .members rest) : IsPhrase .members (cs ++ ',' :: rest)

/-- Whether a text is one JSON value with white space around it. -/
def IsText (cs : List Char) : Prop :=
  IsPhrase .element cs

theorem isGap_append {before after : List Char} (left : IsGap before) (right : IsGap after) :
    IsGap (before ++ after) :=
  List.forall_mem_append.2 ⟨left, right⟩

/-- White space may be put in front of everything but a value. -/
theorem IsPhrase.gap_append {gap : List Char} (blank : IsGap gap) {phrase : Phrase} {cs : List Char}
    (isPhrase : IsPhrase phrase cs) (other : phrase ≠ .value) : IsPhrase phrase (gap ++ cs) := by
  induction isPhrase with
  | @element before cs after left inner right =>
    simpa using IsPhrase.element (isGap_append blank left) inner right
  | oneElement _ ih => exact .oneElement (ih nofun)
  | moreElements _ others ih => simpa using IsPhrase.moreElements (ih nofun) others
  | @member before name after cs left string right inner =>
    simpa using IsPhrase.member (isGap_append blank left) string right inner
  | oneMember _ ih => exact .oneMember (ih nofun)
  | moreMembers _ others ih => simpa using IsPhrase.moreMembers (ih nofun) others
  | _ => exact absurd rfl other

/-! ## What the reader takes -/

theorem exists_gap_append (cs : List Char) : ∃ gap, IsGap gap ∧ cs = gap ++ skipSpace cs := by
  refine ⟨cs.takeWhile isSpace, fun c mem => ?_, List.takeWhile_append_dropWhile.symm⟩
  have space := List.mem_takeWhile_imp mem
  simpa [isSpace, or_assoc] using space

section Scalars

variable {cs rest : List Char}

theorem of_readDigits {ds : List Char} (read : readDigits cs = some (ds, rest)) :
    IsDigits ds ∧ cs = ds ++ rest := by
  unfold readDigits at read
  split at read
  · cases read
  · next taken nonempty =>
    cases read
    refine ⟨⟨nonempty, fun c mem => ?_⟩, List.takeWhile_append_dropWhile.symm⟩
    exact List.mem_takeWhile_imp mem

theorem of_readWhole {ds : List Char} (read : readWhole cs = some (ds, rest)) :
    IsWhole ds ∧ cs = ds ++ rest := by
  simp only [readWhole, Option.bind_eq_bind, Option.bind_eq_some_iff] at read
  obtain ⟨⟨taken, left⟩, digits, shape⟩ := read
  split at shape
  · next single =>
    cases shape
    obtain ⟨all, split⟩ := of_readDigits digits
    refine ⟨⟨all, fun zero => ?_⟩, split⟩
    dsimp only at zero single ⊢
    have one : taken.length = 1 := by simpa [zero] using single
    obtain ⟨d, rfl⟩ := List.length_eq_one_iff.1 one
    simpa using zero
  · cases shape

theorem of_readFraction {fraction : Option (List Char)}
    (read : readFraction cs = some (fraction, rest)) :
    ∃ text, IsFraction text ∧ cs = text ++ rest := by
  unfold readFraction at read
  split at read
  · obtain ⟨⟨ds, left⟩, digits, same⟩ := Option.map_eq_some_iff.1 read
    cases same
    obtain ⟨all, rfl⟩ := of_readDigits digits
    exact ⟨'.' :: ds, .inr ⟨ds, all, rfl⟩, rfl⟩
  · cases read
    exact ⟨[], .inl rfl, rfl⟩

theorem of_readExponent {exponent : Option (Bool × List Char)}
    (read : readExponent cs = some (exponent, rest)) :
    ∃ text, IsExponent text ∧ cs = text ++ rest := by
  revert read
  fun_cases readExponent cs with
  | case1 c cs mark negative more signed =>
    intro read
    have known : c ∈ ['e', 'E'] := by simpa using mark
    obtain ⟨⟨ds, left⟩, digits, same⟩ := Option.map_eq_some_iff.1 read
    cases same
    obtain ⟨all, rfl⟩ := of_readDigits digits
    obtain ⟨sign, kind, split⟩ : ∃ sign ∈ [[], ['+'], ['-']], cs = sign ++ (ds ++ rest) := by
      split at signed
      · cases signed
        exact ⟨['-'], by simp, rfl⟩
      · cases signed
        exact ⟨['+'], by simp, rfl⟩
      · cases signed
        exact ⟨[], by simp, rfl⟩
    exact ⟨c :: sign ++ ds, .inr ⟨c, sign, ds, known, kind, all, rfl⟩, by simp [split]⟩
  | case2 c cs _ =>
    rintro ⟨⟩
    exact ⟨[], .inl rfl, rfl⟩
  | case3 =>
    rintro ⟨⟩
    exact ⟨[], .inl rfl, rfl⟩

theorem of_readNumeral {n : Numeral} (read : readNumeral cs = some (n, rest)) :
    ∃ text, IsNumber text ∧ cs = text ++ rest := by
  revert read
  fun_cases readNumeral cs with
  | case1 negative more signed =>
    intro read
    simp only [Option.bind_eq_bind, Option.bind_eq_some_iff] at read
    obtain ⟨⟨whole, afterWhole⟩, first, ⟨fraction, afterFraction⟩, second,
      ⟨exponent, afterExponent⟩, third, same⟩ := read
    cases same
    obtain ⟨isWhole, rfl⟩ := of_readWhole first
    obtain ⟨fractionText, isFraction, rfl⟩ := of_readFraction second
    obtain ⟨exponentText, isExponent, rfl⟩ := of_readExponent third
    obtain ⟨sign, kind, split⟩ : ∃ sign ∈ [[], ['-']],
        cs = sign ++ (whole ++ (fractionText ++ (exponentText ++ afterExponent))) := by
      split at signed
      · cases signed
        exact ⟨['-'], by simp, rfl⟩
      · cases signed
        exact ⟨[], by simp, rfl⟩
    exact ⟨_, ⟨sign, whole, fractionText, exponentText, kind, isWhole, isFraction, isExponent, rfl⟩,
      by simp [split]⟩

theorem isHexDigit_of_hexValue? {c : Char} {n : Nat} (read : hexValue? c = some n) :
    IsHexDigit c := by
  unfold hexValue? at read
  split at read
  · next digit => exact .inl digit
  · split at read
    · next small => exact .inr (.inl (by simpa using small))
    · split at read
      · next capital => exact .inr (.inr (by simpa using capital))
      · cases read

theorem mem_of_shortEscape? {c : Char} {n : Nat} (read : shortEscape? c = some n) :
    c ∈ ['"', '\\', '/', 'b', 'f', 'n', 'r', 't'] := by
  unfold shortEscape? at read
  split at read
  case h_9 => cases read
  all_goals decide

theorem of_readUnits {units : List Nat} (read : readUnits cs = some (units, rest)) :
    ∃ body, IsQuotable body ∧ cs = body ++ '"' :: rest := by
  fun_induction readUnits cs generalizing units rest with
  | case1 => cases read
  | case2 =>
    cases read
    exact ⟨[], .nil, rfl⟩
  | case3 a b c d cs ih =>
    simp only [Option.bind_eq_bind, Option.bind_eq_some_iff] at read
    obtain ⟨unit, hex, ⟨units, left⟩, later, same⟩ := read
    cases same
    obtain ⟨body, quotable, rfl⟩ := ih later
    refine ⟨_, .unicode ?_ quotable, rfl⟩
    simp only [hexValue4?, Option.bind_eq_bind, Option.bind_eq_some_iff] at hex
    obtain ⟨_, first, _, second, _, third, _, fourth, -⟩ := hex
    simp [isHexDigit_of_hexValue? first, isHexDigit_of_hexValue? second,
      isHexDigit_of_hexValue? third, isHexDigit_of_hexValue? fourth]
  | case4 c cs _ ih =>
    simp only [Option.bind_eq_bind, Option.bind_eq_some_iff] at read
    obtain ⟨unit, short, ⟨units, left⟩, later, same⟩ := read
    cases same
    obtain ⟨body, quotable, rfl⟩ := ih later
    exact ⟨_, .short (mem_of_shortEscape? short) quotable, rfl⟩
  | case5 => cases read
  | case6 c cs quote _ escape below ih =>
    simp only [Option.bind_eq_bind, Option.bind_eq_some_iff] at read
    obtain ⟨⟨units, left⟩, later, same⟩ := read
    cases same
    obtain ⟨body, quotable, rfl⟩ := ih later
    refine ⟨c :: body, .plain (Nat.not_lt.1 below) ⟨quote, fun backslash => ?_⟩ quotable, rfl⟩
    cases body with
    | nil => exact escape _ _ backslash rfl
    | cons d body => exact escape _ _ backslash rfl

theorem of_readString {s : Option String} (read : readString cs = some (s, rest)) :
    ∃ body, IsQuotable body ∧ cs = body ++ '"' :: rest := by
  obtain ⟨⟨units, left⟩, units, same⟩ := Option.map_eq_some_iff.1 read
  cases same
  exact of_readUnits units

end Scalars

section Values

variable {depth : Nat}

/-- Whatever the reader of values takes is a value with white space in front, if what it takes for
elements and members inside is that. -/
theorem of_readValue
    (items : ∀ {cs rest items}, readItems depth cs = some (items, rest) →
      ∃ text, IsPhrase .elements text ∧ cs = text ++ ']' :: rest)
    (members : ∀ {cs rest members}, readMembers depth cs = some (members, rest) →
      ∃ text, IsPhrase .members text ∧ cs = text ++ '}' :: rest)
    {cs rest : List Char} {tree : Tree} (read : readValue (depth + 1) cs = some (tree, rest)) :
    ∃ gap text, IsGap gap ∧ IsPhrase .value text ∧ cs = gap ++ (text ++ rest) := by
  obtain ⟨gap, blank, whole⟩ := exists_gap_append cs
  suffices ∃ text, IsPhrase .value text ∧ skipSpace cs = text ++ rest by
    obtain ⟨text, isValue, same⟩ := this
    exact ⟨gap, text, blank, isValue, by rw [← same, ← whole]⟩
  rw [readValue] at read
  split at read
  · next same =>
    cases read
    exact ⟨['n', 'u', 'l', 'l'], .literal (by decide), same⟩
  · next same =>
    cases read
    exact ⟨['t', 'r', 'u', 'e'], .literal (by decide), same⟩
  · next same =>
    cases read
    exact ⟨['f', 'a', 'l', 's', 'e'], .literal (by decide), same⟩
  · next more same =>
    obtain ⟨⟨s, left⟩, string, equal⟩ := Option.map_eq_some_iff.1 read
    cases equal
    obtain ⟨body, quotable, rfl⟩ := of_readString string
    exact ⟨'"' :: body ++ ['"'], .string ⟨body, quotable, rfl⟩, by simp [same]⟩
  · next more same =>
    obtain ⟨inner, space, spaced⟩ := exists_gap_append more
    split at read
    · next closed =>
      cases read
      rw [closed] at spaced
      exact ⟨'[' :: inner ++ [']'], .emptyArray space, by simp [same, spaced]⟩
    · obtain ⟨⟨trees, left⟩, inside, equal⟩ := Option.map_eq_some_iff.1 read
      cases equal
      obtain ⟨text, elements, closed⟩ := items inside
      rw [closed] at spaced
      exact ⟨'[' :: (inner ++ text) ++ [']'], .array (elements.gap_append space nofun),
        by simp [same, spaced]⟩
  · next more same =>
    obtain ⟨inner, space, spaced⟩ := exists_gap_append more
    split at read
    · next closed =>
      cases read
      rw [closed] at spaced
      exact ⟨'{' :: inner ++ ['}'], .emptyObject space, by simp [same, spaced]⟩
    · obtain ⟨⟨pairs, left⟩, inside, equal⟩ := Option.map_eq_some_iff.1 read
      cases equal
      obtain ⟨text, pairs, closed⟩ := members inside
      rw [closed] at spaced
      exact ⟨'{' :: (inner ++ text) ++ ['}'], .object (pairs.gap_append space nofun),
        by simp [same, spaced]⟩
  · obtain ⟨⟨n, left⟩, numeral, equal⟩ := Option.map_eq_some_iff.1 read
    cases equal
    obtain ⟨text, number, same⟩ := of_readNumeral numeral
    exact ⟨text, .number number, same⟩

/-- The elements that are taken after one of them. -/
theorem of_readItems
    (value : ∀ {cs rest tree}, readValue depth cs = some (tree, rest) →
      ∃ gap text, IsGap gap ∧ IsPhrase .value text ∧ cs = gap ++ (text ++ rest))
    (items : ∀ {cs rest items}, readItems depth cs = some (items, rest) →
      ∃ text, IsPhrase .elements text ∧ cs = text ++ ']' :: rest)
    {cs rest : List Char} {trees : List Tree}
    (read : readItems (depth + 1) cs = some (trees, rest)) :
    ∃ text, IsPhrase .elements text ∧ cs = text ++ ']' :: rest := by
  rw [readItems] at read
  split at read
  · cases read
  · next tree more first =>
    obtain ⟨before, text, left, isValue, rfl⟩ := value first
    obtain ⟨after, right, spaced⟩ := exists_gap_append more
    have element := IsPhrase.element left isValue right
    split at read
    · next closed =>
      cases read
      rw [closed] at spaced
      exact ⟨_, .oneElement element, by simp [spaced]⟩
    · next later separated =>
      obtain ⟨⟨others, last⟩, inside, equal⟩ := Option.map_eq_some_iff.1 read
      cases equal
      obtain ⟨text, elements, rfl⟩ := items inside
      rw [separated] at spaced
      exact ⟨_, .moreElements element elements, by simp [spaced]⟩
    · cases read

/-- The members that are taken after one of them. -/
theorem of_readMembers
    (value : ∀ {cs rest tree}, readValue depth cs = some (tree, rest) →
      ∃ gap text, IsGap gap ∧ IsPhrase .value text ∧ cs = gap ++ (text ++ rest))
    (members : ∀ {cs rest members}, readMembers depth cs = some (members, rest) →
      ∃ text, IsPhrase .members text ∧ cs = text ++ '}' :: rest)
    {cs rest : List Char} {pairs : List (Option String × Tree)}
    (read : readMembers (depth + 1) cs = some (pairs, rest)) :
    ∃ text, IsPhrase .members text ∧ cs = text ++ '}' :: rest := by
  obtain ⟨before, left, whole⟩ := exists_gap_append cs
  rw [readMembers] at read
  split at read
  · next more quoted =>
    rw [quoted] at whole
    split at read
    · cases read
    · next name behindName string =>
      obtain ⟨body, quotable, rfl⟩ := of_readString string
      obtain ⟨between, middle, spaced⟩ := exists_gap_append behindName
      split at read
      · next behindColon colon =>
        rw [colon] at spaced
        split at read
        · cases read
        · next tree behindValue first =>
          obtain ⟨gap, text, blank, isValue, rfl⟩ := value first
          obtain ⟨after, right, ended⟩ := exists_gap_append behindValue
          have member := IsPhrase.member left ⟨body, quotable, rfl⟩ middle
            (.element blank isValue right)
          split at read
          · next closed =>
            cases read
            rw [closed] at ended
            exact ⟨_, .oneMember member, by simp [whole, spaced, ended]⟩
          · next later separated =>
            obtain ⟨⟨others, last⟩, inside, equal⟩ := Option.map_eq_some_iff.1 read
            cases equal
            obtain ⟨text, others, rfl⟩ := members inside
            rw [separated] at ended
            exact ⟨_, .moreMembers member others, by simp [whole, spaced, ended]⟩
          · cases read
      · cases read
  · cases read

/-- The readers take values, elements and members, by induction over their bound. -/
theorem of_readers (depth : Nat) :
    (∀ {cs rest tree}, readValue depth cs = some (tree, rest) →
      ∃ gap text, IsGap gap ∧ IsPhrase .value text ∧ cs = gap ++ (text ++ rest)) ∧
    (∀ {cs rest items}, readItems depth cs = some (items, rest) →
      ∃ text, IsPhrase .elements text ∧ cs = text ++ ']' :: rest) ∧
    (∀ {cs rest members}, readMembers depth cs = some (members, rest) →
      ∃ text, IsPhrase .members text ∧ cs = text ++ '}' :: rest) := by
  induction depth with
  | zero =>
    refine ⟨?_, ?_, ?_⟩
    all_goals
      intro cs _ _ read
      simp [readValue, readItems, readMembers] at read
  | succ depth ih =>
    obtain ⟨value, items, members⟩ := ih
    exact ⟨of_readValue items members, of_readItems value items, of_readMembers value members⟩

end Values

/-- All texts that are read are JSON. -/
theorem isText_of_read? {s : String} {tree : Tree} (read : read? s = some tree) :
    IsText s.toList := by
  rw [read?, readChars?] at read
  split at read
  · next taken rest first =>
    obtain ⟨before, text, left, isValue, whole⟩ := (of_readers _).1 first
    split at read
    · next done =>
      obtain ⟨after, right, spaced⟩ := exists_gap_append rest
      rw [List.isEmpty_iff.1 done, List.append_nil] at spaced
      rw [whole, ← List.append_assoc]
      exact .element left isValue (spaced ▸ right)
    · cases read
  · cases read

end RequestFile.Json
