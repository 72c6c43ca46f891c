import Mathlib
import RequestFile.Proofs.Text.Blank
import RequestFile.Token

/-!
# Writing and reading file directives

A file directive is read back from what is written for it, whatever blanks stand before its path and
behind it. What is read is always a directive that can be written: its path is the end of the text,
and written with one space it is read as the same directive.
-/

namespace RequestFile

namespace FileDirective

/-- A directive that can be written: its path is not empty and has no blanks at its ends, and its
label is one. -/
def IsWellFormed : FileDirective → Prop
  | raw path | processed path => path ≠ "" ∧ trimmed path = path
  | encoded label path => isLabel label.toList = true ∧ path ≠ "" ∧ trimmed path = path

instance (d : FileDirective) : Decidable d.IsWellFormed :=
  match d with
  | raw path => inferInstanceAs (Decidable (path ≠ "" ∧ trimmed path = path))
  | processed path => inferInstanceAs (Decidable (path ≠ "" ∧ trimmed path = path))
  | encoded label path =>
    inferInstanceAs (Decidable (isLabel label.toList = true ∧ path ≠ "" ∧ trimmed path = path))

/-- The path of a directive. -/
def path : FileDirective → String
  | raw path | processed path | encoded _ path => path

/-- What is written before the blanks and the path. -/
def mark : FileDirective → List Char
  | raw _ => ['<']
  | processed _ => ['<', '@']
  | encoded label _ => '<' :: '@' :: label.toList

theorem IsWellFormed.path_ne_empty {d : FileDirective} (ok : d.IsWellFormed) : d.path ≠ "" := by
  cases d with
  | raw path => exact ok.1
  | processed path => exact ok.1
  | encoded label path => exact ok.2.1

theorem IsWellFormed.trimmed_path {d : FileDirective} (ok : d.IsWellFormed) :
    trimmed d.path = d.path := by
  cases d with
  | raw path => exact ok.2
  | processed path => exact ok.2
  | encoded label path => exact ok.2.2

theorem path?_append {path : String} (nonempty : path ≠ "") (tight : trimmed path = path)
    {gap tail : List Char} (gapBlank : ∀ c ∈ gap, Text.isBlank c = true)
    (tailBlank : ∀ c ∈ tail, Text.isBlank c = true) :
    path? (gap ++ (path.toList ++ tail)) = some path := by
  have same : Text.trim (gap ++ (path.toList ++ tail)) = path.toList := by
    rw [Text.trim_of_blank_append gapBlank, Text.trim_append_of_blank tailBlank,
      trim_toList_of_trimmed tight]
  obtain ⟨c, rest, chars⟩ := List.exists_cons_of_ne_nil (toList_ne_nil nonempty)
  rw [path?, same, chars]
  simp [← chars]

theorem not_isBlank_of_isLabel {label : List Char} (ok : isLabel label = true) :
    ∀ c ∈ label, Text.isBlank c = false := by
  intro c mem
  rw [isLabel, Bool.and_eq_true, List.all_eq_true] at ok
  have letter := ok.2 c mem
  rw [Bool.or_eq_true, beq_iff_eq] at letter
  rcases letter with letter | rfl
  · exact Text.not_isBlank_of_isAlphanum letter
  · decide

theorem IsWellFormed.not_isBlank_mark {d : FileDirective} (ok : d.IsWellFormed) :
    ∀ c ∈ d.mark, Text.isBlank c = false := by
  intro c mem
  cases d with
  | raw path =>
    rw [mark, List.mem_singleton] at mem
    rw [mem]
    rfl
  | processed path =>
    rw [mark, List.mem_cons, List.mem_singleton] at mem
    rcases mem with rfl | rfl <;> rfl
  | encoded label path =>
    rw [mark, List.mem_cons, List.mem_cons] at mem
    rcases mem with rfl | rfl | mem
    · rfl
    · rfl
    · exact not_isBlank_of_isLabel ok.1 c mem

theorem ofChars?_at (rest : List Char) : ofChars? ('<' :: '@' :: rest) = processed? rest :=
  rfl

theorem ofChars?_of_blank {c : Char} (blank : Text.isBlank c = true) (rest : List Char) :
    ofChars? ('<' :: c :: rest) = (path? rest).map .raw := by
  have bare : c ≠ '@' := by
    intro same
    rw [same] at blank
    exact absurd blank (by decide)
  unfold ofChars?
  split
  · next rest' same => exact absurd (List.cons.inj (List.cons.inj same).2).1 bare
  · next c' rest' _ same =>
    cases same
    rw [if_pos blank]
  · next other => exact absurd rfl (other c rest)

/-- A directive is read from its mark, some blanks, and its path. -/
theorem ofChars?_mark_append {d : FileDirective} (ok : d.IsWellFormed) {gap tail : List Char}
    (nonempty : gap ≠ []) (gapBlank : ∀ c ∈ gap, Text.isBlank c = true)
    (tailBlank : ∀ c ∈ tail, Text.isBlank c = true) :
    ofChars? (d.mark ++ (gap ++ (d.path.toList ++ tail))) = some d := by
  have path := path?_append ok.path_ne_empty ok.trimmed_path gapBlank tailBlank
  obtain ⟨g, gap, rfl⟩ := List.exists_cons_of_ne_nil nonempty
  obtain ⟨blank, gapBlank⟩ := List.forall_mem_cons.1 gapBlank
  have rest := path?_append ok.path_ne_empty ok.trimmed_path gapBlank tailBlank
  rw [List.cons_append] at path ⊢
  cases d with
  | raw p =>
    rw [mark, List.singleton_append, ofChars?_of_blank blank, rest]
    rfl
  | processed p =>
    have cut := @Text.cutAt_append_cons _ [] (by simp) _ blank (gap ++ (p.toList ++ tail))
    rw [List.nil_append] at cut
    simp only [mark, FileDirective.path, List.cons_append, List.nil_append] at path rest ⊢
    rw [ofChars?_at, processed?, cut]
    simp [path, rest, isLabel]
  | encoded label p =>
    have cut := Text.cutAt_append_cons (not_isBlank_of_isLabel ok.1) blank
      (gap ++ (p.toList ++ tail))
    simp only [mark, FileDirective.path, List.cons_append] at rest ⊢
    rw [ofChars?_at, processed?, cut]
    simp [rest, ok.1]

/-! ## What is read -/

theorem path?_eq_some {cs : List Char} {path : String} (read : path? cs = some path) :
    path.toList = Text.trim cs ∧ path ≠ "" ∧ trimmed path = path := by
  unfold path? at read
  split at read
  · cases read
  · next nonempty =>
    cases read
    have same : (String.ofList (Text.trim cs)).toList = Text.trim cs := String.toList_ofList
    refine ⟨same, ?_, ?_⟩
    · intro empty
      rw [empty] at same
      exact nonempty same.symm
    · rw [trimmed, same, Text.trim_trim]

/-- The directive is encoded only with a label that is one. -/
def HasLabel (d : FileDirective) : Prop :=
  ∀ label path, d = encoded label path → isLabel label.toList = true

theorem isWellFormed_of_path? {d : FileDirective} {rest : List Char} (label : d.HasLabel)
    (read : path? rest = some d.path) : d.IsWellFormed := by
  obtain ⟨-, nonempty, tight⟩ := path?_eq_some read
  cases d with
  | raw path => exact ⟨nonempty, tight⟩
  | processed path => exact ⟨nonempty, tight⟩
  | encoded word path => exact ⟨label word path rfl, nonempty, tight⟩

/-- What stands behind `<@` is a path, or a label, a blank and a path. -/
theorem exists_path?_of_processed? {cs : List Char} {d : FileDirective}
    (read : processed? cs = some d) :
    ∃ rest, rest <:+ cs ∧ path? rest = some d.path ∧ d.HasLabel := by
  have whole : (path? cs).map processed = some d →
      ∃ rest, rest <:+ cs ∧ path? rest = some d.path ∧ d.HasLabel := by
    intro read
    obtain ⟨path, found, rfl⟩ := Option.map_eq_some_iff.1 read
    exact ⟨cs, List.suffix_rfl, found, fun _ _ other => by cases other⟩
  unfold processed? at read
  split at read
  · next word rest cut =>
    split at read
    · next path found =>
      split at read
      · next label =>
        cases read
        refine ⟨rest, Text.suffix_of_cutAt cut, found, fun _ _ same => ?_⟩
        cases same
        rw [String.toList_ofList]
        exact label
      · exact whole read
    · exact whole read
  · exact whole read

/-- The path of a directive is read from an end of the text. -/
theorem exists_path?_of_ofChars? {cs : List Char} {d : FileDirective}
    (read : ofChars? cs = some d) :
    ∃ rest, rest <:+ cs ∧ path? rest = some d.path ∧ d.HasLabel := by
  unfold ofChars? at read
  split at read
  · next rest =>
    obtain ⟨more, suffix, found, label⟩ := exists_path?_of_processed? read
    exact ⟨more, suffix.trans ⟨['<', '@'], rfl⟩, found, label⟩
  · next c rest _ =>
    split at read
    · obtain ⟨path, found, rfl⟩ := Option.map_eq_some_iff.1 read
      exact ⟨rest, ⟨['<', c], rfl⟩, found, fun _ _ other => by cases other⟩
    · cases read
  · cases read

/-- A directive as it is written: its mark, some blanks, its path, and blanks behind it. -/
def text (d : FileDirective) (gap tail : List Char) : String :=
  String.ofList (d.mark ++ (gap ++ (d.path.toList ++ tail)))

/-- A directive that can be written is read back, whatever blanks are used; and what is read from a
text without blanks at its ends can be written, has an end of the text as its path, and is read back
when it is written with one space. -/
theorem ofText?_roundTrip :
    (∀ d : FileDirective, d.IsWellFormed → ∀ gap tail : List Char, Text.IsGap gap →
      (∀ c ∈ tail, Text.isBlank c = true) → ofText? (d.text gap tail) = some d) ∧
    ∀ (s : String) (d : FileDirective), trimmed s = s → ofText? s = some d →
      d.IsWellFormed ∧ d.path.toList <:+ s.toList ∧ ofText? (d.text [' '] []) = some d := by
  have written : ∀ d : FileDirective, d.IsWellFormed → ∀ gap tail : List Char, Text.IsGap gap →
      (∀ c ∈ tail, Text.isBlank c = true) → ofText? (d.text gap tail) = some d := by
    intro d ok gap tail ⟨nonempty, gapBlank⟩ tailBlank
    rw [ofText?, text, String.toList_ofList]
    exact ofChars?_mark_append ok nonempty gapBlank tailBlank
  refine ⟨written, fun s d tight read => ?_⟩
  obtain ⟨rest, suffix, found, label⟩ := exists_path?_of_ofChars? read
  have ok := isWellFormed_of_path? label found
  refine ⟨ok, ?_, written d ok [' '] [] Text.isGap_space (List.forall_mem_nil _)⟩
  have last := (Text.trim_eq_self_iff.1 (trim_toList_of_trimmed tight)).2
  rw [(path?_eq_some found).1]
  exact Text.trim_suffix last suffix

/-- A path may start with a word that could be a label, and behind `<@` a word that is no label
belongs to the path. -/
theorem ofText?_roundTrip_labelLikePath :
    ofText? ((processed "utf-8 @<a").text [' ', '\u3000'] ['\t']) = some (processed "utf-8 @<a") ∧
      (processed "b.json c").IsWellFormed ∧
      (processed "b.json c").path.toList <:+ "<@b.json c".toList ∧
      ofText? ((processed "b.json c").text [' '] []) = some (processed "b.json c") :=
  ⟨ofText?_roundTrip.1 (processed "utf-8 @<a") (by decide) [' ', '\u3000'] ['\t']
      ⟨by decide, by simp [Text.isBlank]⟩ (by simp [Text.isBlank]),
    ofText?_roundTrip.2 "<@b.json c" (processed "b.json c") (by decide) (by decide)⟩

end FileDirective

end RequestFile
