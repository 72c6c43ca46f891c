import Mathlib
import RequestFile.Proofs.Token.Scan
import RequestFile.Proofs.Written.File

/-!
# Reading headers and contents

The lines behind a request line are read as the headers, the body or the file directive for which
they were written. The lines of a literal body are kept one by one, as `keepsText` says.
-/

namespace RequestFile

/-! ## Headers -/

theorem not_isBlank_name_colon {name : String} (ok : IsHeaderName name) :
    ∀ c ∈ name.toList ++ [':'], Text.isBlank c = false := by
  intro c mem
  rcases List.mem_append.1 mem with mem | mem
  · exact ok.1.2 c mem
  · rw [List.mem_singleton.1 mem]
    rfl

theorem trim_headerLine {entry : String × String} (name : IsHeaderName entry.1) :
    Text.trim (headerLine entry).toList =
      (entry.1.toList ++ [':']) ++ Text.trimEnd (' ' :: entry.2.toList) := by
  have parts : (headerLine entry).toList = (entry.1.toList ++ [':']) ++ ' ' :: entry.2.toList := by
    simp [headerLine]
  rw [parts]
  exact Text.trim_append (Text.trim_of_not_blank (not_isBlank_name_colon name)) (by simp) _

/-- The first word of a header ends with the colon, so that it is no method. -/
theorem exists_words_headerLine {entry : String × String} (name : IsHeaderName entry.1) :
    ∃ rest, Text.words (Text.trim (headerLine entry).toList) =
      (entry.1.toList ++ [':']) :: rest := by
  have solid := not_isBlank_name_colon name
  rw [trim_headerLine name, Text.trimEnd_space_cons]
  by_cases empty : Text.trimEnd entry.2.toList = []
  · rw [if_pos empty, List.append_nil]
    exact ⟨[], Text.words_of_not_blank solid (by simp)⟩
  · rw [if_neg empty]
    exact ⟨_, Text.words_append_cons solid (by simp) Text.isBlank_space _⟩

theorem header?_headerLine {entry : String × String} (name : IsHeaderName entry.1)
    (value : IsPlain entry.2) :
    Token.header? (Text.trim (headerLine entry).toList) = some (.header entry.1 entry.2) := by
  have whole := trim_headerLine name
  obtain ⟨⟨-, solid⟩, noColon, -⟩ := name
  have cut : Text.cutAt (· == ':') (entry.1.toList ++ ':' :: Text.trimEnd (' ' :: entry.2.toList)) =
      (entry.1.toList, some (Text.trimEnd (' ' :: entry.2.toList))) := by
    refine Text.cutAt_append_cons ?_ (by rfl) _
    intro d mem
    rw [beq_eq_false_iff_ne]
    intro same
    exact noColon (same ▸ mem)
  rw [whole, List.append_assoc, List.singleton_append, Token.header?, cut]
  simp [Text.trim_of_not_blank solid, Text.trim_trimEnd_space_cons, trim_toList_of_trimmed value.1]

namespace Region

/-- A header is read as it is written. -/
theorem step_headerLine (queryOpen : Bool) {entry : String × String} (name : IsHeaderName entry.1)
    (value : IsPlain entry.2) :
    (headers queryOpen).step (headerLine entry).toList =
      (some (.header entry.1 entry.2), headers false) := by
  have read := header?_headerLine name value
  obtain ⟨rest, words⟩ := exists_words_headerLine name
  have noRequest := Line.standardRequestLine?_of_words words (by simp [Token.isMethodWord])
  obtain ⟨c, more, chars⟩ := List.exists_cons_of_ne_nil (toList_ne_nil name.1.1)
  have start : Text.trim (headerLine entry).toList =
      c :: (more ++ ':' :: Text.trimEnd (' ' :: entry.2.toList)) := by
    rw [trim_headerLine name, chars]
    simp
  have others := name.2.2 c (by rw [chars]; rfl)
  simp only [List.mem_cons, List.not_mem_nil, or_false, not_or] at others
  obtain ⟨number, slash, question, ampersand, less⟩ := others
  -- No other reader takes a line that starts with this character.
  have noQuery : Token.queryPart? (Text.trim (headerLine entry).toList) = none := by
    rw [start, Token.queryPart?]
    simp [question, ampersand]
  have noFile : Token.bodyFile? (Text.trim (headerLine entry).toList) = none := by
    rw [start]
    exact Line.bodyFile?_eq_none (Line.isFileDirective_cons less _)
  have noComment : Token.comment? (Text.trim (headerLine entry).toList) = none := by
    rw [start]
    exact Line.comment?_eq_none (Line.isComment_cons number slash _)
  have noSeparator : Line.isSeparator (Text.trim (headerLine entry).toList) = false := by
    rw [start]
    exact Line.isSeparator_cons number _
  have filled : Text.trim (headerLine entry).toList ≠ [] := by
    rw [start]
    exact List.cons_ne_nil _ _
  rw [step_headers noSeparator]
  simp [stepHeaders, filled, noComment, noQuery, noFile, noRequest, read]

/-- The headers of a request are read one after the other. -/
theorem exists_reads_headers (entries : List (String × String))
    (names : ∀ entry ∈ entries, IsHeaderName entry.1)
    (values : ∀ entry ∈ entries, IsPlain entry.2) (queryOpen : Bool) :
    ∃ queryOpen', Reads (headers queryOpen) ((entries.map headerLine).map String.toList)
      (entries.map fun entry => some (.header entry.1 entry.2)) (headers queryOpen') := by
  induction entries generalizing queryOpen with
  | nil => exact ⟨queryOpen, .nil _⟩
  | cons entry rest ih =>
    rw [List.forall_mem_cons] at names values
    obtain ⟨queryOpen', later⟩ := ih names.2 values.2 false
    exact ⟨queryOpen', .cons (step_headerLine queryOpen names.1 values.1) later⟩

/-! ## Empty lines -/

theorem step_headers_empty (queryOpen : Bool) :
    (headers queryOpen).step "".toList = (none, body true 0) :=
  rfl

theorem step_body_empty (afterBlank : Bool) (depth : Nat) :
    ∃ afterBlank' depth', (body afterBlank depth).step "".toList =
      (some (.bodyLine ""), body afterBlank' depth') := by
  cases depth with
  | zero => exact ⟨true, 0, rfl⟩
  | succ depth => exact ⟨false, depth + 1, rfl⟩

theorem exists_reads_body_empty (n : Nat) (afterBlank : Bool) (depth : Nat) :
    ∃ afterBlank' depth', Reads (body afterBlank depth)
      ((List.replicate n "").map String.toList) (List.replicate n (some (.bodyLine "")))
      (body afterBlank' depth') := by
  induction n generalizing afterBlank depth with
  | zero => exact ⟨afterBlank, depth, .nil _⟩
  | succ n ih =>
    obtain ⟨afterBlank₁, depth₁, step⟩ := step_body_empty afterBlank depth
    obtain ⟨afterBlank₂, depth₂, later⟩ := ih afterBlank₁ depth₁
    exact ⟨afterBlank₂, depth₂, .cons step later⟩

/-! ## Contents -/

/-- A file directive is read as it is written. -/
theorem step_fileDirective {d : FileDirective} (ok : d.IsWellFormed) :
    (body true 0).step (d.mark ++ ' ' :: d.path.toList) = (some (.bodyFile d), body false 0) := by
  obtain ⟨more, mark⟩ : ∃ more, d.mark = '<' :: more := by
    cases d with
    | raw path => exact ⟨[], rfl⟩
    | processed path => exact ⟨['@'], rfl⟩
    | encoded label path => exact ⟨'@' :: label.toList, rfl⟩
  have tight : Text.trim (d.mark ++ ' ' :: d.path.toList) = d.mark ++ ' ' :: d.path.toList := by
    have last := Text.trim_cons_append (c := '<') rfl (more ++ [' '])
      (trim_toList_of_trimmed ok.trimmed_path) (toList_ne_nil ok.path_ne_empty)
    simpa [mark] using last
  have start : d.mark ++ ' ' :: d.path.toList = '<' :: (more ++ ' ' :: d.path.toList) := by
    rw [mark, List.cons_append]
  have read : Token.bodyFile? (d.mark ++ ' ' :: d.path.toList) = some (.bodyFile d) := by
    have chars := FileDirective.ofChars?_mark_append ok (by simp) Text.forall_mem_space
      (List.forall_mem_nil _)
    rw [List.append_nil, List.singleton_append] at chars
    rw [Token.bodyFile?, chars]
    rfl
  obtain ⟨word, rest, words⟩ := @Text.exists_words_cons '<' rfl (more ++ ' ' :: d.path.toList)
  have noRequest : Token.standardRequestLine? (d.mark ++ ' ' :: d.path.toList) = none := by
    rw [start]
    exact Line.standardRequestLine?_of_words words (by simp [Token.isMethodWord])
  have noComment : Token.comment? (d.mark ++ ' ' :: d.path.toList) = none := by
    rw [start]
    exact Line.comment?_eq_none (Line.isComment_cons (by decide) (by decide) _)
  have noSeparator : Line.isSeparator (Text.trim (d.mark ++ ' ' :: d.path.toList)) = false := by
    rw [tight, start]
    exact Line.isSeparator_cons (by decide) _
  rw [step_body noSeparator, tight]
  simp [stepBody, noRequest, noComment, read]

/-- A line of a body is kept between brackets, and outside of them if nothing else takes it. -/
theorem step_kept {afterBlank : Bool} {depth : Nat} {text : String}
    (noSeparator : Line.isSeparator (Text.trim text.toList) = false)
    (taken : depth = 0 → Text.trim text.toList ≠ [] ∧
      Line.isComment (Text.trim text.toList) = false ∧
      Line.isFileDirective (Text.trim text.toList) = false ∧
      (afterBlank = true → Line.isStandardRequest (Text.trim text.toList) = false)) :
    (body afterBlank depth).step text.toList =
      (some (.bodyLine text), body false (Token.depthAfter false false depth text.toList)) := by
  have keep : keepLine depth text.toList = (some (.bodyLine text),
      body false (Token.depthAfter false false depth text.toList)) := by
    rw [keepLine, String.ofList_toList]
  by_cases closed : depth = 0
  · obtain ⟨filled, noComment, noFile, noRequest⟩ := taken closed
    subst closed
    have request : (if afterBlank then Token.standardRequestLine? (Text.trim text.toList)
        else none) = none := by
      cases afterBlank with
      | false => rfl
      | true => exact Line.standardRequestLine?_eq_none (noRequest rfl)
    rw [step_body noSeparator, stepBody, if_neg (by simp), if_neg (by simpa using filled), request,
      Line.comment?_eq_none noComment, Line.bodyFile?_eq_none noFile]
    exact keep
  · rw [step_body noSeparator, stepBody, if_pos (by simpa using closed)]
    exact keep

/-- Lines that are text of the body are kept as they are written. -/
theorem exists_reads_texts (texts : List String) (afterBlank : Bool) (depth : Nat)
    (kept : keepsText afterBlank depth texts = true) :
    ∃ afterBlank' depth', Reads (body afterBlank depth) (texts.map String.toList)
      (texts.map fun text => some (.bodyLine text)) (body afterBlank' depth') := by
  induction texts generalizing afterBlank depth with
  | nil => exact ⟨afterBlank, depth, .nil _⟩
  | cons text rest ih =>
    simp only [keepsText, Bool.and_eq_true, Bool.not_eq_true'] at kept
    obtain ⟨⟨-, noSeparator⟩, kept⟩ := kept
    by_cases inside : depth = 0
    · subst inside
      rw [if_neg (by simp)] at kept
      by_cases empty : text = ""
      · rw [if_pos empty] at kept
        obtain ⟨afterBlank', depth', later⟩ := ih _ _ kept
        refine ⟨afterBlank', depth', .cons ?_ later⟩
        rw [empty]
        rfl
      · rw [if_neg empty] at kept
        simp only [Bool.and_eq_true, Bool.not_eq_true', List.isEmpty_eq_false_iff] at kept
        obtain ⟨⟨⟨⟨filled, noComment⟩, noFile⟩, noRequest⟩, kept⟩ := kept
        obtain ⟨afterBlank', depth', later⟩ := ih _ _ kept
        refine ⟨afterBlank', depth', .cons (step_kept noSeparator fun _ => ?_) later⟩
        exact ⟨filled, noComment, noFile, fun blank => by simpa [blank] using noRequest⟩
    · rw [if_pos inside] at kept
      obtain ⟨afterBlank', depth', later⟩ := ih _ _ kept
      exact ⟨afterBlank', depth', .cons (step_kept noSeparator fun closed => absurd closed inside)
        later⟩

end Region

end RequestFile
