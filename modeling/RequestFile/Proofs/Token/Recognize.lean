import Mathlib
import RequestFile.Proofs.Token.BodyFile
import RequestFile.Token.Scan

/-!
# Which lines the readers take

For each kind of line that the body of a request ends with or leaves out, a test that says what such
a line looks like, and that no other line is read as one. The tests look at a trimmed line.
-/

namespace RequestFile

namespace Line

/-- A line that ends the request. -/
def isSeparator (line : List Char) : Bool :=
  ['#', '#', '#'].isPrefixOf line

/-- A comment or a directive. -/
def isComment (line : List Char) : Bool :=
  ['#'].isPrefixOf line || ['/', '/'].isPrefixOf line

/-- A line that names a file: `<@` and anything, or `<`, a blank and anything. -/
def isFileDirective (line : List Char) : Bool :=
  (['<', '@'].isPrefixOf line || ['<'].isPrefixOf line && (line.drop 1).head?.any Text.isBlank) &&
    !Text.allBlank (line.drop 2)

/-- A standard method in capital letters, a target that looks like a URL, and at most a version. -/
def isStandardRequest (line : List Char) : Bool :=
  match Text.words line with
  | method :: target :: rest =>
    (Method.ofName? (String.ofList method)).isSome && Token.looksLikeUrl target &&
      rest.length ≤ 1 && rest.all Token.isVersion
  | _ => false

theorem isSeparator_cons {c : Char} (number : c ≠ '#') (rest : List Char) :
    isSeparator (c :: rest) = false := by
  simp [isSeparator, List.isPrefixOf, Ne.symm number]

theorem isComment_cons {c : Char} (number : c ≠ '#') (slash : c ≠ '/') (rest : List Char) :
    isComment (c :: rest) = false := by
  simp [isComment, List.isPrefixOf, Ne.symm number, Ne.symm slash]

/-- A separator starts like a comment. -/
theorem isSeparator_eq_false {line : List Char} (other : isComment line = false) :
    isSeparator line = false := by
  cases line with
  | nil => rfl
  | cons c rest =>
    apply isSeparator_cons
    rintro rfl
    cases other

theorem isFileDirective_cons {c : Char} (less : c ≠ '<') (rest : List Char) :
    isFileDirective (c :: rest) = false := by
  simp [isFileDirective, List.isPrefixOf, Ne.symm less]

theorem isPrefixOf?_eq_none {start line : List Char} (other : start.isPrefixOf line = false) :
    start.isPrefixOf? line = none := by
  induction start generalizing line with
  | nil => simp at other
  | cons c start ih =>
    cases line with
    | nil => rfl
    | cons d line =>
      rw [List.isPrefixOf, Bool.and_eq_false_iff] at other
      rw [List.isPrefixOf?]
      split
      · next same =>
        rcases other with different | other
        · simp [different] at same
        · exact ih other
      · rfl

theorem separator?_eq_none {line : List Char} (other : isSeparator line = false) :
    Token.separator? line = none := by
  rw [Token.separator?, isPrefixOf?_eq_none other]
  rfl

theorem comment?_eq_none {line : List Char} (other : isComment line = false) :
    Token.comment? line = none := by
  have unmarked : Token.afterCommentMark? line = none := by
    unfold Token.afterCommentMark?
    split
    · simp [isComment] at other
    · simp [isComment] at other
    · rfl
  rw [Token.comment?, unmarked]
  rfl

theorem path?_eq_none {cs : List Char} (blank : Text.allBlank cs = true) :
    FileDirective.path? cs = none := by
  rw [Text.allBlank, List.all_eq_true] at blank
  rw [FileDirective.path?, Text.trim_of_blank blank]

theorem bodyFile?_eq_none {line : List Char} (other : isFileDirective line = false) :
    Token.bodyFile? line = none := by
  suffices none : FileDirective.ofChars? line = none by
    rw [Token.bodyFile?, none]
    rfl
  unfold FileDirective.ofChars?
  split
  · next rest =>
    have blank : Text.allBlank rest = true := by simpa [isFileDirective] using other
    rw [FileDirective.processed?, path?_eq_none blank]
    cases rest with
    | nil => rfl
    | cons c rest =>
      rw [Text.allBlank, List.all_cons, Bool.and_eq_true] at blank
      have cut := @Text.cutAt_append_cons _ [] (by simp) _ blank.1 rest
      rw [List.nil_append] at cut
      rw [cut]
      simp [path?_eq_none blank.2]
  · next c rest _ =>
    split
    · next gap =>
      have blank : Text.allBlank rest = true := by simpa [isFileDirective, gap] using other
      rw [path?_eq_none blank]
      rfl
    · rfl
  · rfl

theorem versionOf?_isSome {rest : List (List Char)} {version : Option String}
    (found : Token.versionOf? rest = some version) :
    rest.length ≤ 1 ∧ rest.all Token.isVersion = true := by
  match rest with
  | [] => simp
  | [v] =>
    rw [Token.versionOf?] at found
    split at found
    · next ok => simp [ok]
    · cases found
  | _ :: _ :: _ => cases found

theorem isStandardRequest_of_standardRequestLine? {line : List Char} {token : Token}
    (found : Token.standardRequestLine? line = some token) : isStandardRequest line = true := by
  rw [Token.standardRequestLine?, Token.withMethod?] at found
  cases words : Text.words line with
  | nil => simp [words] at found
  | cons method later =>
    cases later with
    | nil => simp [words] at found
    | cons target rest =>
      rw [words] at found
      cases version : Token.versionOf? rest with
      | none => simp [version] at found
      | some version' =>
        obtain ⟨short, versions⟩ := versionOf?_isSome version
        cases word : Token.isMethodWord method with
        | false => simp [word] at found
        | true =>
          simp only [word, version, Option.map_some, if_true, String.toList_ofList] at found
          split at found
          · next standard => simp [isStandardRequest, words, standard, short, versions]
          · cases found

theorem standardRequestLine?_eq_none {line : List Char} (other : isStandardRequest line = false) :
    Token.standardRequestLine? line = none := by
  cases found : Token.standardRequestLine? line with
  | none => rfl
  | some token =>
    rw [isStandardRequest_of_standardRequestLine? found] at other
    cases other

/-- A line is no request line if its first word is no method. -/
theorem standardRequestLine?_of_words {line word : List Char} {rest : List (List Char)}
    (words : Text.words line = word :: rest) (other : Token.isMethodWord word = false) :
    Token.standardRequestLine? line = none := by
  rw [Token.standardRequestLine?, Token.withMethod?, words]
  cases rest <;> simp [other]

end Line

namespace Region

theorem step_of_separator {region : Region} {raw : List Char} {token : Token}
    (found : Token.separator? (Text.trim raw) = some token) :
    region.step raw = (some token, preamble) := by
  unfold step
  simp only [found]

theorem step_preamble {raw : List Char} (other : Line.isSeparator (Text.trim raw) = false) :
    preamble.step raw = stepPreamble (Text.trim raw) := by
  rw [step, Line.separator?_eq_none other]

theorem step_headers {queryOpen : Bool} {raw : List Char}
    (other : Line.isSeparator (Text.trim raw) = false) :
    (headers queryOpen).step raw = stepHeaders queryOpen (Text.trim raw) := by
  rw [step, Line.separator?_eq_none other]

theorem step_body {afterBlank : Bool} {depth : Nat} {raw : List Char}
    (other : Line.isSeparator (Text.trim raw) = false) :
    (body afterBlank depth).step raw = stepBody afterBlank depth raw (Text.trim raw) := by
  rw [step, Line.separator?_eq_none other]

theorem stepPreamble_of_comment {line : List Char} {token : Token}
    (found : Token.comment? line = some token) : stepPreamble line = (some token, preamble) := by
  have nonempty : line ≠ [] := by
    rintro rfl
    cases found
  simp [stepPreamble, nonempty, found]

theorem stepPreamble_of_assignment {line : List Char} {token : Token}
    (other : Line.isComment line = false) (found : Token.assignment? line = some token) :
    stepPreamble line = (some token, preamble) := by
  have nonempty : line ≠ [] := by
    rintro rfl
    cases found
  simp [stepPreamble, nonempty, Line.comment?_eq_none other, found]

/-- A line of the preamble that is neither comment nor variable is a request line or nothing. -/
theorem step_preamble_of_other {raw rest : List Char} {c : Char}
    (start : Text.trim raw = c :: rest) (number : c ≠ '#') (sign : c ≠ '@')
    (other : Line.isComment (c :: rest) = false) :
    preamble.step raw = (Token.requestLine? (c :: rest)).elim
      (some (Token.unrecognizedLine (c :: rest)), preamble)
      fun token => (some token, headers true) := by
  have unassigned : Token.assignment? (c :: rest) = none := by
    unfold Token.assignment?
    split
    · next same => exact absurd (List.cons.inj same).1 sign
    · rfl
  rw [step_preamble (by rw [start]; exact Line.isSeparator_cons number rest), start, stepPreamble,
    Line.comment?_eq_none other, unassigned]
  cases Token.requestLine? (c :: rest) <;> rfl

end Region

end RequestFile
