import Mathlib
import RequestFile.Text.Basic

/-!
# Trimming and cutting

What trimming does to a text that is put together from parts, and where a text is cut into words.
-/

namespace RequestFile.Text

/-! ## Trimming -/

theorem trimEnd_eq_rdropWhile (cs : List Char) : trimEnd cs = cs.rdropWhile isBlank :=
  rfl

@[simp]
theorem trim_nil : trim [] = [] :=
  rfl

theorem trimStart_cons_of_not_blank {c : Char} (solid : isBlank c = false) (cs : List Char) :
    trimStart (c :: cs) = c :: cs := by
  simp [trimStart, solid]

theorem trimStart_append_of_blank {gap : List Char} (blank : ∀ c ∈ gap, isBlank c = true)
    (cs : List Char) : trimStart (gap ++ cs) = trimStart cs :=
  List.dropWhile_append_of_pos blank

/-- What the end of a text loses depends on the second part only, unless that is blank. -/
theorem trimEnd_append (cs ds : List Char) :
    trimEnd (cs ++ ds) = if trimEnd ds = [] then trimEnd cs else cs ++ trimEnd ds := by
  simp only [trimEnd, List.reverse_append, List.dropWhile_append, List.isEmpty_iff,
    List.reverse_eq_nil_iff]
  split
  · rfl
  · simp

theorem trimEnd_of_blank {gap : List Char} (blank : ∀ c ∈ gap, isBlank c = true) :
    trimEnd gap = [] := by
  rw [trimEnd_eq_rdropWhile, List.rdropWhile_eq_nil_iff]
  exact blank

theorem trimEnd_append_of_blank {gap : List Char} (blank : ∀ c ∈ gap, isBlank c = true)
    (cs : List Char) : trimEnd (cs ++ gap) = trimEnd cs := by
  rw [trimEnd_append, if_pos (trimEnd_of_blank blank)]

theorem trimEnd_trimEnd (cs : List Char) : trimEnd (trimEnd cs) = trimEnd cs :=
  List.rdropWhile_idempotent isBlank cs

/-- It makes no difference at which end blanks are dropped first. -/
theorem trimStart_trimEnd (cs : List Char) : trimStart (trimEnd cs) = trimEnd (trimStart cs) := by
  induction cs with
  | nil => rfl
  | cons c cs ih =>
    have split := trimEnd_append [c] cs
    rw [List.singleton_append] at split
    by_cases blank : isBlank c = true
    · have dropped : trimStart (c :: cs) = trimStart cs := by simp [trimStart, blank]
      rw [dropped, ← ih, split]
      by_cases empty : trimEnd cs = []
      · rw [if_pos empty, empty, trimEnd_of_blank (by simpa using blank)]
      · rw [if_neg empty]
        simp [trimStart, blank]
    · have solid : isBlank c = false := by simpa using blank
      rw [trimStart_cons_of_not_blank solid, split]
      by_cases empty : trimEnd cs = []
      · rw [if_pos empty]
        simp [trimEnd, trimStart, solid]
      · rw [if_neg empty]
        exact trimStart_cons_of_not_blank solid _

theorem trim_trimEnd (cs : List Char) : trim (trimEnd cs) = trim cs := by
  rw [trim, trimStart_trimEnd, trimEnd_trimEnd, trim]

theorem trim_append_of_blank {gap : List Char} (blank : ∀ c ∈ gap, isBlank c = true)
    (cs : List Char) : trim (cs ++ gap) = trim cs := by
  rw [← trim_trimEnd, trimEnd_append_of_blank blank, trim_trimEnd]

theorem trim_of_blank_append {gap : List Char} (blank : ∀ c ∈ gap, isBlank c = true)
    (cs : List Char) : trim (gap ++ cs) = trim cs := by
  rw [trim, trimStart_append_of_blank blank, trim]

theorem trim_of_blank {gap : List Char} (blank : ∀ c ∈ gap, isBlank c = true) : trim gap = [] := by
  simpa using trim_append_of_blank blank []

theorem mem_of_mem_trim {cs : List Char} {c : Char} (mem : c ∈ trim cs) : c ∈ cs := by
  rw [trim, trimEnd_eq_rdropWhile] at mem
  exact (List.dropWhile_suffix isBlank).subset ((List.rdropWhile_prefix isBlank _).subset mem)

theorem mem_dropWhile_isBlank {cs : List Char} {c : Char} (mem : c ∈ cs)
    (solid : isBlank c = false) : c ∈ cs.dropWhile isBlank := by
  rw [← List.takeWhile_append_dropWhile (p := isBlank) (l := cs), List.mem_append] at mem
  rcases mem with dropped | kept
  · rw [List.mem_takeWhile_imp dropped] at solid
    cases solid
  · exact kept

/-- Trimming drops nothing but blanks. -/
theorem mem_trim_of_mem {cs : List Char} {c : Char} (mem : c ∈ cs) (solid : isBlank c = false) :
    c ∈ trim cs := by
  have started : c ∈ (trimStart cs).reverse := List.mem_reverse.2 (mem_dropWhile_isBlank mem solid)
  exact List.mem_reverse.2 (mem_dropWhile_isBlank started solid)

/-- Trimming takes blanks from the start of a text and blanks from its end. -/
theorem exists_eq_append_trim (cs : List Char) :
    ∃ front back, cs = front ++ (trim cs ++ back) ∧ (∀ c ∈ front, isBlank c = true) ∧
      ∀ c ∈ back, isBlank c = true := by
  refine ⟨cs.takeWhile isBlank, (trimStart cs).rtakeWhile isBlank, ?_, ?_, ?_⟩
  · rw [trim, trimEnd_eq_rdropWhile, List.rdropWhile_append_rtakeWhile, trimStart,
      List.takeWhile_append_dropWhile]
  · exact fun c mem => List.mem_takeWhile_imp mem
  · exact fun c mem => List.mem_rtakeWhile_imp mem

theorem trim_eq_nil_iff {cs : List Char} : trim cs = [] ↔ ∀ c ∈ cs, isBlank c = true := by
  constructor
  · intro empty
    rw [trim, trimEnd_eq_rdropWhile, List.rdropWhile_eq_nil_iff] at empty
    apply List.dropWhile_eq_nil_iff.1
    by_contra filled
    obtain ⟨c, rest, start⟩ := List.exists_cons_of_ne_nil filled
    have solid := List.head?_dropWhile_not isBlank cs
    have blank := empty c (by rw [trimStart, start]; exact List.mem_cons_self)
    simp [start, blank] at solid
  · exact fun blank => trim_of_blank blank

theorem not_isBlank_head?_trim {cs : List Char} {c : Char} (first : c ∈ (trim cs).head?) :
    isBlank c = false := by
  rw [trim, ← trimStart_trimEnd, trimStart] at first
  have dropped := List.head?_dropWhile_not isBlank (trimEnd cs)
  rw [first] at dropped
  simpa using dropped

theorem not_isBlank_getLast?_trim {cs : List Char} {c : Char} (last : c ∈ (trim cs).getLast?) :
    isBlank c = false := by
  have nonempty : trim cs ≠ [] := by
    intro empty
    simp [empty] at last
  rw [List.getLast?_eq_some_getLast nonempty, Option.mem_some_iff] at last
  have dropped := List.rdropWhile_last_not isBlank (trimStart cs) nonempty
  rw [← last]
  exact Bool.eq_false_iff.2 dropped

theorem trimEnd_of_getLast? {cs : List Char} (last : ∀ c ∈ cs.getLast?, isBlank c = false) :
    trimEnd cs = cs := by
  rw [trimEnd_eq_rdropWhile, List.rdropWhile_eq_self_iff]
  intro nonempty
  simp [last _ (List.getLast?_eq_some_getLast nonempty)]

/-- A text loses nothing to trimming if no blank stands at its ends. -/
theorem trim_eq_self_iff {cs : List Char} :
    trim cs = cs ↔ (∀ c ∈ cs.head?, isBlank c = false) ∧ ∀ c ∈ cs.getLast?, isBlank c = false := by
  constructor
  · intro same
    constructor
    · intro c first
      exact not_isBlank_head?_trim (same.symm ▸ first)
    · intro c last
      exact not_isBlank_getLast?_trim (same.symm ▸ last)
  · rintro ⟨first, last⟩
    have start : trimStart cs = cs := by
      cases cs with
      | nil => rfl
      | cons c cs => exact trimStart_cons_of_not_blank (first c rfl) cs
    rw [trim, start, trimEnd_of_getLast? last]

/-- Where no blank stands at the end of a text, trimming an end of it leaves an end of it. -/
theorem trim_suffix {cs rest : List Char} (last : ∀ c ∈ cs.getLast?, isBlank c = false)
    (suffix : rest <:+ cs) : trim rest <:+ cs := by
  have restLast : ∀ c ∈ rest.getLast?, isBlank c = false := by
    obtain ⟨front, rfl⟩ := suffix
    intro c mem
    rw [Option.mem_def] at mem
    refine last c ?_
    rw [Option.mem_def, List.getLast?_append, mem, Option.some_or]
  rw [trim, ← trimStart_trimEnd, trimEnd_of_getLast? restLast]
  exact (List.dropWhile_suffix isBlank).trans suffix

theorem trim_of_not_blank {cs : List Char} (solid : ∀ c ∈ cs, isBlank c = false) : trim cs = cs :=
  trim_eq_self_iff.2 ⟨fun c first => solid c (List.mem_of_mem_head? first),
    fun c last => solid c (List.mem_of_mem_getLast? last)⟩

theorem trim_trim (cs : List Char) : trim (trim cs) = trim cs :=
  trim_eq_self_iff.2 ⟨fun _ first => not_isBlank_head?_trim first,
    fun _ last => not_isBlank_getLast?_trim last⟩

/-- Behind a text without blanks at its ends, only the end of what follows is trimmed. -/
theorem trim_append {cs : List Char} (tight : trim cs = cs) (nonempty : cs ≠ []) (ds : List Char) :
    trim (cs ++ ds) = cs ++ trimEnd ds := by
  obtain ⟨first, -⟩ := trim_eq_self_iff.1 tight
  obtain ⟨c, rest, rfl⟩ := List.exists_cons_of_ne_nil nonempty
  have start : ∀ ds, trimStart (c :: rest ++ ds) = c :: rest ++ ds := by
    intro ds
    exact trimStart_cons_of_not_blank (first c rfl) (rest ++ ds)
  have finish : trimEnd (c :: rest) = c :: rest := by
    have whole := start []
    rw [List.append_nil] at whole
    rw [trim, whole] at tight
    exact tight
  rw [trim, start, trimEnd_append, finish]
  split
  · next empty => rw [empty, List.append_nil]
  · rfl

/-- A text has no blanks at its ends if it starts with another character and ends with such a
text. -/
theorem trim_cons_append {c : Char} (solid : isBlank c = false) (middle : List Char)
    {cs : List Char} (tight : trim cs = cs) (nonempty : cs ≠ []) :
    trim (c :: middle ++ cs) = c :: middle ++ cs := by
  obtain ⟨-, last⟩ := trim_eq_self_iff.1 tight
  rw [trim_eq_self_iff]
  constructor
  · intro d first
    rw [List.cons_append, List.head?_cons, Option.mem_some_iff] at first
    rw [← first]
    exact solid
  · intro d final
    rw [List.getLast?_append_of_ne_nil _ nonempty] at final
    exact last d final

theorem isBlank_space : isBlank ' ' = true :=
  rfl

theorem forall_mem_space : ∀ c ∈ [' '], isBlank c = true := by
  intro c mem
  rw [List.mem_singleton.1 mem]
  exact isBlank_space

/-- A text behind a blank, trimmed at the end: the blank goes as well if nothing else is left. -/
theorem trimEnd_space_cons (cs : List Char) :
    trimEnd (' ' :: cs) = if trimEnd cs = [] then [] else ' ' :: trimEnd cs := by
  rw [← List.singleton_append, trimEnd_append, trimEnd_of_blank forall_mem_space]
  rfl

theorem trim_trimEnd_space_cons (cs : List Char) : trim (trimEnd (' ' :: cs)) = trim cs := by
  rw [trim_trimEnd]
  exact trim_of_blank_append forall_mem_space cs

/-! ## Cutting -/

theorem cutAt_append_cons {p : Char → Bool} {cs : List Char} (before : ∀ c ∈ cs, p c = false)
    {mark : Char} (cut : p mark = true) (rest : List Char) :
    cutAt p (cs ++ mark :: rest) = (cs, some rest) := by
  induction cs with
  | nil => simp [cutAt, cut]
  | cons c cs ih =>
    have later := ih fun d mem => before d (List.mem_cons_of_mem c mem)
    simp [cutAt, before c List.mem_cons_self, later]

theorem cutAt_of_forall {p : Char → Bool} {cs : List Char} (before : ∀ c ∈ cs, p c = false) :
    cutAt p cs = (cs, none) := by
  induction cs with
  | nil => rfl
  | cons c cs ih =>
    have later := ih fun d mem => before d (List.mem_cons_of_mem c mem)
    simp [cutAt, before c List.mem_cons_self, later]

theorem suffix_of_cutAt {p : Char → Bool} {cs word rest : List Char}
    (cut : cutAt p cs = (word, some rest)) : rest <:+ cs := by
  induction cs generalizing word with
  | nil => cases cut
  | cons c cs ih =>
    rw [cutAt] at cut
    split at cut
    · cases cut
      exact List.suffix_cons c rest
    · have later : cutAt p cs = ((cutAt p cs).1, some rest) :=
        Prod.ext rfl (Prod.ext_iff.1 cut).2
      exact (ih later).trans (List.suffix_cons c cs)

/-- The first word of a text that starts with a word and a blank. -/
theorem words_append_cons {word : List Char} (solid : ∀ c ∈ word, isBlank c = false)
    (nonempty : word ≠ []) {gap : Char} (blank : isBlank gap = true) (rest : List Char) :
    words (word ++ gap :: rest) = word :: words rest := by
  rw [words, List.splitOnP_append_cons_of_forall_mem solid gap blank, List.filter_cons]
  simp [words, nonempty]

theorem words_of_not_blank {word : List Char} (solid : ∀ c ∈ word, isBlank c = false)
    (nonempty : word ≠ []) : words word = [word] := by
  rw [words, List.splitOnP_eq_singleton solid]
  simp [nonempty]

/-- The first word starts where the text does, if that is not a blank. -/
theorem exists_words_cons {c : Char} (solid : isBlank c = false) (cs : List Char) :
    ∃ word rest, words (c :: cs) = (c :: word) :: rest := by
  obtain ⟨word, rest, split⟩ := List.exists_cons_of_ne_nil (List.splitOnP_ne_nil isBlank cs)
  refine ⟨word, rest.filter (!·.isEmpty), ?_⟩
  rw [words, List.splitOnP_cons_eq_if_modifyHead, if_neg (by simp [solid]), split,
    List.modifyHead_cons, List.filter_cons_of_pos (by simp)]

/-- Whether a text is one or more blanks. -/
def IsGap (gap : List Char) : Prop :=
  gap ≠ [] ∧ ∀ c ∈ gap, isBlank c = true

theorem isGap_space : IsGap [' '] :=
  ⟨by simp, forall_mem_space⟩

theorem words_append_cons_of_blank {b : Char} (blank : isBlank b = true) (cs ds : List Char) :
    words (cs ++ b :: ds) = words cs ++ words ds := by
  rw [words, List.splitOnP_append_cons cs ds blank, List.filter_append]
  rfl

theorem words_append_of_blank {gap : List Char} (blank : ∀ c ∈ gap, isBlank c = true)
    (cs : List Char) : words (gap ++ cs) = words cs := by
  induction gap with
  | nil => rfl
  | cons b gap ih =>
    rw [List.forall_mem_cons] at blank
    have cut := words_append_cons_of_blank blank.1 [] (gap ++ cs)
    rw [List.nil_append, ih blank.2] at cut
    exact cut

/-- A text is cut into words at every gap. -/
theorem IsGap.words_append {gap : List Char} (between : IsGap gap) (cs ds : List Char) :
    words (cs ++ (gap ++ ds)) = words cs ++ words ds := by
  obtain ⟨nonempty, blank⟩ := between
  obtain ⟨b, more, rfl⟩ := List.exists_cons_of_ne_nil nonempty
  rw [List.forall_mem_cons] at blank
  rw [List.cons_append, words_append_cons_of_blank blank.1, words_append_of_blank blank.2]

/-- Blanks at the end of a text do not belong to a word. -/
theorem words_concat_of_blank {gap : List Char} (blank : ∀ c ∈ gap, isBlank c = true)
    (cs : List Char) : words (cs ++ gap) = words cs := by
  by_cases empty : gap = []
  · rw [empty, List.append_nil]
  · have cut := IsGap.words_append ⟨empty, blank⟩ cs []
    have none : words [] = [] := rfl
    rw [List.append_nil, none, List.append_nil] at cut
    exact cut

/-- The words of a text hold its characters that are not blank, in their order. -/
theorem flatten_words (cs : List Char) : (words cs).flatten = cs.filter (!isBlank ·) := by
  rw [words, List.flatten_filter_not_isEmpty]
  induction cs with
  | nil => rfl
  | cons c cs ih =>
    rw [List.splitOnP_cons_eq_if_modifyHead, List.filter_cons, ← ih]
    obtain ⟨first, rest, parts⟩ := List.exists_cons_of_ne_nil (List.splitOnP_ne_nil isBlank cs)
    cases blank : isBlank c with
    | true => simp
    | false => simp [parts]

theorem exists_mem_words {cs : List Char} {c : Char} (mem : c ∈ cs) (solid : isBlank c = false) :
    ∃ word ∈ words cs, c ∈ word := by
  rw [← List.mem_flatten, flatten_words, List.mem_filter]
  exact ⟨mem, by rw [solid]; rfl⟩

/-- What stands between two cuts belongs to the text and is not cut. -/
theorem mem_of_mem_splitOnP {p : Char → Bool} {cs part : List Char}
    (mem : part ∈ cs.splitOnP p) : ∀ c ∈ part, c ∈ cs ∧ p c = false := by
  induction cs generalizing part with
  | nil =>
    rw [List.splitOnP_nil, List.mem_singleton] at mem
    simp [mem]
  | cons d cs ih =>
    rw [List.splitOnP_cons_eq_if_modifyHead] at mem
    intro c inside
    by_cases cut : p d = true
    · rw [if_pos cut] at mem
      rcases List.mem_cons.1 mem with rfl | mem
      · cases inside
      · exact ⟨List.mem_cons_of_mem d (ih mem c inside).1, (ih mem c inside).2⟩
    · obtain ⟨first, rest, parts⟩ := List.exists_cons_of_ne_nil (List.splitOnP_ne_nil p cs)
      rw [if_neg cut, parts, List.modifyHead_cons] at mem
      rw [parts] at ih
      rcases List.mem_cons.1 mem with rfl | mem
      · rcases List.mem_cons.1 inside with rfl | inside
        · exact ⟨List.mem_cons_self, by simpa using cut⟩
        · have known := ih List.mem_cons_self c inside
          exact ⟨List.mem_cons_of_mem d known.1, known.2⟩
      · have known := ih (List.mem_cons_of_mem first mem) c inside
        exact ⟨List.mem_cons_of_mem d known.1, known.2⟩

theorem mem_of_mem_words {cs word : List Char} (mem : word ∈ words cs) :
    ∀ c ∈ word, c ∈ cs ∧ isBlank c = false :=
  mem_of_mem_splitOnP (List.mem_filter.1 mem).1

theorem mem_intercalate {mark c : Char} {parts : List (List Char)}
    (mem : c ∈ [mark].intercalate parts) : c = mark ∨ ∃ part ∈ parts, c ∈ part := by
  induction parts with
  | nil => cases mem
  | cons part rest ih =>
    cases rest with
    | nil =>
      rw [List.intercalate_singleton] at mem
      exact .inr ⟨part, List.mem_cons_self, mem⟩
    | cons next rest =>
      rw [List.intercalate_cons_cons, List.mem_append, List.mem_append, List.mem_singleton] at mem
      rcases mem with (mem | mem) | mem
      · exact .inr ⟨part, List.mem_cons_self, mem⟩
      · exact .inl mem
      · rcases ih mem with same | ⟨other, inside, mem⟩
        · exact .inl same
        · exact .inr ⟨other, List.mem_cons_of_mem part inside, mem⟩

/-- A mark between words stands between the first of them and the others. -/
theorem intercalate_words_append (mark : Char) {word gap : List Char}
    (solid : ∀ c ∈ word, isBlank c = false) (nonempty : word ≠ []) (between : IsGap gap) {c : Char}
    (solidNext : isBlank c = false) (cs : List Char) :
    [mark].intercalate (words (word ++ (gap ++ c :: cs))) =
      word ++ mark :: [mark].intercalate (words (c :: cs)) := by
  obtain ⟨next, rest, cut⟩ := exists_words_cons solidNext cs
  rw [between.words_append, words_of_not_blank solid nonempty, List.singleton_append, cut,
    List.intercalate_cons_cons, List.append_assoc, List.singleton_append]

/-! ## Characters that are not blank -/

theorem not_isBlank_of_isAlphanum {c : Char} (letter : c.isAlphanum = true) :
    isBlank c = false := by
  simp only [Char.isAlphanum, Char.isAlpha, Char.isUpper, Char.isLower, Char.isDigit,
    Bool.or_eq_true, Bool.and_eq_true, decide_eq_true_eq, ge_iff_le, UInt32.le_iff_toNat_le]
    at letter
  have code : c.toNat = c.val.toNat := rfl
  simp only [isBlank, code, Bool.or_eq_false_iff, Bool.and_eq_false_iff, decide_eq_false_iff_not,
    beq_eq_false_iff_ne]
  simp at letter
  omega

theorem not_isBlank_of_isAlpha {c : Char} (letter : c.isAlpha = true) : isBlank c = false := by
  apply not_isBlank_of_isAlphanum
  rw [Char.isAlphanum, letter, Bool.true_or]

theorem not_isBlank_of_isNameChar {c : Char} (char : isNameChar c = true) :
    isBlank c = false := by
  simp only [isNameChar, Bool.or_eq_true, beq_iff_eq] at char
  rcases char with (letter | rfl) | rfl
  · exact not_isBlank_of_isAlphanum letter
  · decide
  · decide

theorem not_isBlank_of_isDecimalDigit {c : Char} (digit : isDecimalDigit c = true) :
    isBlank c = false := by
  have table : ∀ first ∈ zeroDigits, ∀ k < 10,
      ((0x09 ≤ first + k && first + k ≤ 0x0D) || first + k == 0x20 || first + k == 0x85 ||
        first + k == 0xA0 || first + k == 0x1680 || (0x2000 ≤ first + k && first + k ≤ 0x200A) ||
        first + k == 0x2028 || first + k == 0x2029 || first + k == 0x202F || first + k == 0x205F ||
        first + k == 0x3000) = false := by
    decide +kernel
  obtain ⟨first, mem, range⟩ := List.any_eq_true.1 digit
  simp only [Bool.and_eq_true, decide_eq_true_eq] at range
  have value : c.toNat = first + (c.toNat - first) := by omega
  rw [isBlank, value]
  exact table first mem (c.toNat - first) (by omega)

end RequestFile.Text

namespace RequestFile

/-! ## Texts as strings -/

theorem trim_toList_of_trimmed {s : String} (tight : trimmed s = s) :
    Text.trim s.toList = s.toList := by
  rw [trimmed] at tight
  rw [← String.toList_ofList (l := Text.trim s.toList), tight]

theorem trimmed_eq_empty_iff {s : String} : trimmed s = "" ↔ isBlankText s = true := by
  have same : trimmed s = "" ↔ Text.trim s.toList = [] := by simp [trimmed]
  rw [same, Text.trim_eq_nil_iff, isBlankText, Text.allBlank, List.all_eq_true]

theorem toList_ne_nil {s : String} (nonempty : s ≠ "") : s.toList ≠ [] := by
  simpa using nonempty

end RequestFile
