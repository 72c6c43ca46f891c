import Mathlib
import RequestFile.Calendar.Format

/-!
# Patterns of letters

A pattern of letters is turned into a pattern with percent signs, and this is cut into items once
more. What comes of it is said here by the letters alone: from left to right, quoted text stands for
itself, the longest token that starts at a place for its item, and any other character for itself.
-/

namespace RequestFile

namespace Calendar

/-! ## The meaning of letters -/

/-- What the tokens mean: numbers with zeros or without, names, the half of the day, the offset. -/
def letterMeanings : List (List Char × Item) :=
  [("yyyy".toList, .number .year .zeros), ("yy".toList, .number .yearOfCentury .zeros),
    ("MMMM".toList, .longMonth), ("MMM".toList, .shortMonth),
    ("MM".toList, .number .month .zeros), ("M".toList, .number .month .nothing),
    ("dddd".toList, .longWeekday), ("ddd".toList, .shortWeekday),
    ("dd".toList, .number .day .zeros), ("d".toList, .number .day .nothing),
    ("HH".toList, .number .hour .zeros), ("H".toList, .number .hour .nothing),
    ("hh".toList, .number .hour12 .zeros), ("h".toList, .number .hour12 .nothing),
    ("mm".toList, .number .minute .zeros), ("m".toList, .number .minute .nothing),
    ("ss".toList, .number .second .zeros), ("s".toList, .number .second .nothing),
    ("fff".toList, .fraction false 3), ("tt".toList, .upperHalf), ("zzz".toList, .offset .colon)]

/-- No token that starts the text is longer than this one. -/
def IsLongestToken (letters cs : List Char) : Prop :=
  letters <+: cs ∧ ∀ other ∈ letterMeanings, other.1 <+: cs → other.1.length ≤ letters.length

/-- A moment is written as a text by a pattern of letters. -/
inductive Moment.Spells (m : Moment) : List Char → List Char → Prop where
  | nil : Spells m [] []
  | quoted {text rest written : List Char} : '\'' ∉ text → Spells m rest written →
      Spells m ('\'' :: (text ++ '\'' :: rest)) (text ++ written)
  /-- The second quote may be missing. -/
  | unclosed {text : List Char} : '\'' ∉ text → Spells m ('\'' :: text) text
  | token {letters rest written : List Char} {item : Item} : (letters, item) ∈ letterMeanings →
      IsLongestToken letters (letters ++ rest) → Spells m rest written →
      Spells m (letters ++ rest) (item.render m ++ written)
  | other {c : Char} {rest written : List Char} : c ≠ '\'' →
      (∀ entry ∈ letterMeanings, ¬ entry.1 <+: c :: rest) → Spells m rest written →
      Spells m (c :: rest) (c :: written)

/-! ## Tables of words -/

/-- A table in which of two words that start alike the longer comes first. -/
def LongerFirst {β : Type} (entries : List (List Char × β)) : Prop :=
  entries.Pairwise fun a b => ¬ a.1 <+: b.1

/-- In such a table the first word that starts a text is the longest one. -/
theorem LongerFirst.find?_eq_some_iff {β : Type} {entries : List (List Char × β)}
    (sorted : LongerFirst entries) {cs : List Char} {entry : List Char × β} :
    entries.find? (·.1.isPrefixOf cs) = some entry ↔
      entry ∈ entries ∧ entry.1 <+: cs ∧
        ∀ other ∈ entries, other.1 <+: cs → other.1.length ≤ entry.1.length := by
  rw [List.find?_eq_some_iff_append, List.isPrefixOf_iff_prefix]
  constructor
  · rintro ⟨starts, before, behind, rfl, first⟩
    refine ⟨by simp, starts, fun other mem start => ?_⟩
    by_contra longer
    rcases List.mem_append.1 mem with early | late
    · have absent := first other early
      rw [Bool.not_eq_true', ← Bool.not_eq_true, List.isPrefixOf_iff_prefix] at absent
      exact absent start
    · -- What stands behind the first match and is longer would start with it.
      rcases List.mem_cons.1 late with rfl | late
      · exact longer (le_refl _)
      · have apart := (List.pairwise_cons.1 (List.pairwise_append.1 sorted).2.1).1 other late
        exact apart (List.prefix_of_prefix_length_le starts start (by omega))
  · rintro ⟨mem, starts, longest⟩
    obtain ⟨before, behind, rfl⟩ := List.append_of_mem mem
    refine ⟨starts, before, behind, rfl, fun other early => ?_⟩
    rw [Bool.not_eq_true', ← Bool.not_eq_true, List.isPrefixOf_iff_prefix]
    intro start
    have apart := (List.pairwise_append.1 sorted).2.2 other early entry List.mem_cons_self
    exact apart (List.prefix_of_prefix_length_le start starts
      (longest other (List.mem_append_left _ early) start))

theorem longerFirst_letterTokens : LongerFirst letterTokens := by
  unfold LongerFirst
  decide

/-- A token of letters means what its name behind a percent sign means, whatever follows. -/
def Translates (meaning : List Char × Item) (token : List Char × List Char) : Prop :=
  meaning.1 = token.1 ∧ ∃ name, token.2 = '%' :: name ∧
    ∀ rest, percentItems? (name ++ rest) = some ([meaning.2], name.length)

theorem forall₂_translates : List.Forall₂ Translates letterMeanings letterTokens := by
  unfold letterMeanings letterTokens
  iterate 21 refine .cons ⟨rfl, _, rfl, fun _ => rfl⟩ ?_
  exact .nil

theorem exists_mem_of_forall₂ {α β : Type} {related : α → β → Prop} {xs : List α} {ys : List β}
    (all : List.Forall₂ related xs ys) {x : α} (mem : x ∈ xs) : ∃ y ∈ ys, related x y := by
  induction all with
  | nil => cases mem
  | cons first _ ih =>
    rcases List.mem_cons.1 mem with rfl | mem
    · exact ⟨_, List.mem_cons_self, first⟩
    · obtain ⟨y, inside, found⟩ := ih mem
      exact ⟨y, List.mem_cons_of_mem _ inside, found⟩

/-- The tokens are the words that have a meaning. -/
theorem forall_mem_letterTokens_iff {p : List Char → Prop} :
    (∀ token ∈ letterTokens, p token.1) ↔ ∀ meaning ∈ letterMeanings, p meaning.1 := by
  have words : letterTokens.map Prod.fst = letterMeanings.map Prod.fst := rfl
  rw [← List.forall_mem_map, words, List.forall_mem_map]

/-- The search through the tokens finds the longest one. -/
theorem find?_letterTokens {letters percent cs : List Char} :
    letterTokens.find? (·.1.isPrefixOf cs) = some (letters, percent) ↔
      (letters, percent) ∈ letterTokens ∧ IsLongestToken letters cs := by
  rw [longerFirst_letterTokens.find?_eq_some_iff, IsLongestToken]
  refine and_congr_right fun _ => and_congr_right fun _ => ?_
  exact forall_mem_letterTokens_iff (p := fun word => word <+: cs → word.length ≤ letters.length)

theorem find?_letterTokens_eq_none {cs : List Char} :
    letterTokens.find? (·.1.isPrefixOf cs) = none ↔
      ∀ entry ∈ letterMeanings, ¬ entry.1 <+: cs := by
  simp only [List.find?_eq_none, List.isPrefixOf_iff_prefix]
  exact forall_mem_letterTokens_iff (p := fun word => ¬ word <+: cs)

/-! ## The pattern with percent signs -/

theorem percentForm_quoted {text : List Char} (closed : '\'' ∉ text) (rest : List Char) :
    percentForm ('\'' :: (text ++ '\'' :: rest)) = doublePercent text ++ percentForm rest := by
  have inside : ∀ c ∈ text, (c != '\'') = true := fun c mem => by
    simpa using ne_of_mem_of_not_mem mem closed
  have taken : (text ++ '\'' :: rest).takeWhile (· != '\'') = text := by
    rw [List.takeWhile_append_of_pos inside]
    simp
  have dropped : (text ++ '\'' :: rest).drop (text.length + 1) = rest := by
    rw [List.append_cons]
    exact List.drop_left' (by simp)
  rw [percentForm, taken, dropped]

theorem percentForm_unclosed {text : List Char} (closed : '\'' ∉ text) :
    percentForm ('\'' :: text) = doublePercent text := by
  have taken : text.takeWhile (· != '\'') = text := by
    rw [List.takeWhile_eq_self_iff]
    intro c mem
    simpa using ne_of_mem_of_not_mem mem closed
  rw [percentForm, taken, List.drop_eq_nil_of_le (Nat.le_succ _), percentForm, List.append_nil]

theorem exists_cons_of_mem_letterTokens {letters percent : List Char}
    (mem : (letters, percent) ∈ letterTokens) : ∃ c more, letters = c :: more ∧ c ≠ '\'' := by
  have heads : ∀ entry ∈ letterTokens, entry.1 ≠ [] ∧ '\'' ∉ entry.1 := by decide
  obtain ⟨nonempty, bare⟩ := heads _ mem
  obtain ⟨c, more, rfl⟩ := List.exists_cons_of_ne_nil nonempty
  exact ⟨c, more, rfl, fun same => bare (same ▸ List.mem_cons_self)⟩

theorem percentForm_token {letters percent rest : List Char}
    (mem : (letters, percent) ∈ letterTokens) (longest : IsLongestToken letters (letters ++ rest)) :
    percentForm (letters ++ rest) = percent ++ percentForm rest := by
  obtain ⟨c, more, rfl, bare⟩ := exists_cons_of_mem_letterTokens mem
  have found := find?_letterTokens.2 ⟨mem, longest⟩
  rw [List.cons_append] at found ⊢
  rw [percentForm, found]
  · simp
  · exact bare

theorem percentForm_other {c : Char} {rest : List Char} (bare : c ≠ '\'')
    (none : ∀ entry ∈ letterMeanings, ¬ entry.1 <+: c :: rest) :
    percentForm (c :: rest) = c :: percentForm rest := by
  rw [percentForm, find?_letterTokens_eq_none.2 none]
  exact bare

theorem doublePercent_of_notMem {text : List Char} (plain : '%' ∉ text) :
    doublePercent text = text := by
  have single : ∀ c ∈ text, (if c == '%' then ['%', '%'] else [c]) = [c] := by
    intro c mem
    rw [if_neg]
    simpa using ne_of_mem_of_not_mem mem plain
  rw [doublePercent, List.flatMap_congr single, List.flatMap_singleton']

/-- Text without percent signs stands for itself. -/
theorem percentPattern?_append {text : List Char} (plain : '%' ∉ text) (rest : List Char) :
    percentPattern? (text ++ rest) =
      (percentPattern? rest).map (text.map Item.literal ++ ·) := by
  induction text with
  | nil => simp
  | cons c text ih =>
    rw [List.mem_cons, not_or] at plain
    obtain ⟨other, plain⟩ := plain
    rw [List.cons_append, percentPattern?, ih plain, Option.map_map]
    · rfl
    · exact Ne.symm other

/-- The items behind a percent sign end with their name. -/
theorem percentPattern?_name {name rest : List Char} {items : List Item}
    (read : percentItems? (name ++ rest) = some (items, name.length)) :
    percentPattern? ('%' :: (name ++ rest)) = (percentPattern? rest).map (items ++ ·) := by
  rw [percentPattern?, read]
  simp

/-! ## Writing -/

/-- Read once more, the pattern with percent signs says what the letters say. -/
theorem Moment.Spells.exists_items {m : Moment} {cs written : List Char}
    (spelled : m.Spells cs written) (plain : '%' ∉ cs) :
    ∃ items, percentPattern? (percentForm cs) = some items ∧ m.write items = written := by
  induction spelled with
  | nil => exact ⟨[], by simp [percentForm, percentPattern?], rfl⟩
  | @quoted text rest written closed _ ih =>
    simp only [List.mem_cons, List.mem_append, not_or] at plain
    obtain ⟨items, read, rfl⟩ := ih plain.2.2.2
    refine ⟨text.map .literal ++ items, ?_, ?_⟩
    · rw [percentForm_quoted closed, doublePercent_of_notMem plain.2.1,
        percentPattern?_append plain.2.1, read]
      rfl
    · simp [Moment.write, List.flatMap_map, Item.render]
  | @unclosed text closed =>
    have plain := List.not_mem_of_not_mem_cons plain
    refine ⟨text.map .literal, ?_, by simp [Moment.write, List.flatMap_map, Item.render]⟩
    rw [percentForm_unclosed closed, doublePercent_of_notMem plain, ← List.append_nil text,
      percentPattern?_append plain]
    simp [percentPattern?]
  | @token letters rest written item mem longest _ ih =>
    obtain ⟨items, read, rfl⟩ := ih fun mem => plain (List.mem_append_right _ mem)
    obtain ⟨⟨_, percent⟩, inside, rfl, name, rfl, named⟩ :=
      exists_mem_of_forall₂ forall₂_translates mem
    refine ⟨item :: items, ?_, rfl⟩
    rw [percentForm_token inside longest, List.cons_append, percentPattern?_name (named _), read]
    rfl
  | @other c rest written bare none _ ih =>
    rw [List.mem_cons, not_or] at plain
    obtain ⟨other, plain⟩ := plain
    obtain ⟨items, read, rfl⟩ := ih plain
    refine ⟨.literal c :: items, ?_, rfl⟩
    rw [percentForm_other bare none, percentPattern?, read]
    · rfl
    · exact Ne.symm other

/-- Every pattern says how a moment is written. -/
theorem Moment.exists_spells (m : Moment) (cs : List Char) : ∃ written, m.Spells cs written := by
  fun_induction percentForm cs with
  | case1 => exact ⟨[], .nil⟩
  | case2 rest ih =>
    obtain ⟨written, spelled⟩ := ih
    have closed : '\'' ∉ rest.takeWhile (· != '\'') := fun mem => by
      simpa using List.mem_takeWhile_imp mem
    have cut := List.takeWhile_append_dropWhile (p := (· != '\'')) (l := rest)
    generalize rest.takeWhile (· != '\'') = text at closed cut spelled
    cases behind : rest.dropWhile (· != '\'') with
    | nil =>
      rw [behind, List.append_nil] at cut
      exact ⟨rest, .unclosed (cut ▸ closed)⟩
    | cons quote later =>
      obtain rfl : quote = '\'' := by simpa [behind] using List.head?_dropWhile_not (· != '\'') rest
      rw [behind] at cut
      rw [← cut, List.append_cons, List.drop_left' (by simp)] at spelled
      exact ⟨text ++ written, cut ▸ .quoted closed spelled⟩
  | case3 c rest bare letters percent found ih =>
    obtain ⟨written, spelled⟩ := ih
    obtain ⟨mem, longest⟩ := find?_letterTokens.1 found
    obtain ⟨⟨_, item⟩, inside, rfl, -⟩ := exists_mem_of_forall₂ forall₂_translates.flip mem
    obtain ⟨c', more, rfl, -⟩ := exists_cons_of_mem_letterTokens mem
    obtain ⟨rest, same⟩ := longest.1
    rw [List.cons_append] at same
    cases same
    rw [List.length_cons, Nat.add_one_sub_one, List.drop_left] at spelled
    exact ⟨_, .token inside longest spelled⟩
  | case4 c rest bare none ih =>
    obtain ⟨written, spelled⟩ := ih
    exact ⟨c :: written, .other bare (find?_letterTokens_eq_none.1 none) spelled⟩

/-- A pattern without percent signs that is not the name of a format always writes a moment: quoted
text and all that is no token as it stands, and each of its tokens, the longest first, as what it
names by a percent sign. -/
theorem Moment.format?_letters (m : Moment) {pattern : String} (plain : '%' ∉ pattern.toList)
    (other : pattern ≠ "iso8601" ∧ pattern ≠ "rfc1123") :
    (∃ text, m.format? pattern = some text) ∧
      (∀ text, m.format? pattern = some text ↔ m.Spells pattern.toList text.toList) ∧
      ∀ letters item, (letters, item) ∈ letterMeanings →
        ∃ percent, (letters, percent) ∈ letterTokens ∧ percentPattern? percent = some [item] := by
  have written : ∀ {written}, m.Spells pattern.toList written →
      m.format? pattern = some (String.ofList written) := by
    intro written spelled
    obtain ⟨items, read, rfl⟩ := spelled.exists_items plain
    simp [Moment.format?, other.1, other.2, pattern?, plain, read]
  obtain ⟨text, spelled⟩ := m.exists_spells pattern.toList
  refine ⟨⟨_, written spelled⟩, fun text' => ⟨fun same => ?_, fun spelled => ?_⟩, ?_⟩
  · rw [written spelled, Option.some.injEq] at same
    rw [← same, String.toList_ofList]
    exact spelled
  · rw [written spelled, String.ofList_toList]
  · intro letters item mem
    obtain ⟨⟨_, percent⟩, inside, rfl, name, rfl, named⟩ :=
      exists_mem_of_forall₂ forall₂_translates mem
    refine ⟨_, inside, ?_⟩
    have read := percentPattern?_name (named [])
    rw [List.append_nil, percentPattern?] at read
    exact read

/-- Three letters of which two are a token, quoted text next to tokens, and a quote without end. -/
theorem Moment.format?_letters_looseLetters :
    '%' ∉ "yyyMM'T'hé'd ".toList ∧
      (Moment.mk ⟨0⟩ .utc).Spells "yyyMM'T'hé'd ".toList "70y01T12éd ".toList := by
  have written : (Moment.mk ⟨0⟩ .utc).format? "yyyMM'T'hé'd " = some "70y01T12éd " := by
    decide +kernel
  refine ⟨by decide, ?_⟩
  exact ((Moment.format?_letters ⟨⟨0⟩, .utc⟩ (by decide) (by decide)).2.1 _).1 written

end Calendar

end RequestFile
