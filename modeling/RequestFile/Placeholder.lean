import RequestFile.Text.Basic
/-!
# Placeholders

A text may refer to values by `{{name}}` and by `${NAME}`. A backslash before `{{` or `}}` makes the
braces plain text; such escapes are hidden behind two private marks while placeholders are looked
for. `segments` cuts a text into placeholders and the characters between them, and loses nothing.
-/

namespace RequestFile.Placeholder

/-- Stands for an escaped `{{`. -/
def openMark : Char := '\uE000'

/-- Stands for an escaped `}}`. -/
def closeMark : Char := '\uE001'

/-- Replaces escaped braces by their marks. -/
def mask : List Char → List Char
  | [] => []
  | '\\' :: '{' :: '{' :: rest => openMark :: mask rest
  | '\\' :: '}' :: '}' :: rest => closeMark :: mask rest
  | c :: rest => c :: mask rest

/-- A mark as the braces that it stands for, any other character as itself. -/
def unmaskChar (c : Char) : List Char :=
  if c == openMark then ['{', '{'] else if c == closeMark then ['}', '}'] else [c]

/-- Replaces marks by braces. -/
def unmask (cs : List Char) : List Char :=
  cs.flatMap unmaskChar

/-- A mark as the escaped braces that it stands for, any other character as itself. -/
def restoreChar (c : Char) : List Char :=
  if c == openMark then ['\\', '{', '{'] else if c == closeMark then ['\\', '}', '}'] else [c]

/-- Replaces marks by escaped braces. -/
def restore (cs : List Char) : List Char :=
  cs.flatMap restoreChar

/-- A part of a text. -/
inductive Segment where
  /-- A character that belongs to no placeholder. -/
  | char (c : Char)
  /-- A placeholder in double braces, with what stands between them. -/
  | braces (content : List Char)
  /-- A placeholder in a dollar sign and braces, with what stands between the braces. -/
  | dollar (content : List Char)
deriving Repr, DecidableEq

namespace Segment

/-- A part of a text as written. -/
def source : Segment → List Char
  | char c => [c]
  | braces content => ['{', '{'] ++ content ++ ['}', '}']
  | dollar content => ['$', '{'] ++ content ++ ['}']

/-- The name that a placeholder refers to: what stands in it, without blanks at the ends. -/
def name? : Segment → Option (List Char)
  | char _ => none
  | braces content => some (Text.trim content)
  | dollar content => some (Text.trim content)

end Segment

/-- Whether a character may stand between double braces: any but a brace. -/
def isInside (c : Char) : Bool :=
  c != '{' && c != '}'

/-- Reads the rest of a placeholder after `{{`: content without braces that is not empty, and `}}`.
-/
def readBraces? (cs : List Char) : Option (List Char × List Char) :=
  match cs.takeWhile isInside, cs.dropWhile isInside with
  | c :: content, '}' :: '}' :: rest => some (c :: content, rest)
  | _, _ => none

/-- Whether a text can be the name in a `${NAME}`: a letter or `_`, then letters, digits, `_`, `.`
and `-`. -/
def isEnvironmentName : List Char → Bool
  | [] => false
  | c :: rest => (c.isAlpha || c == '_') && rest.all fun c => Text.isNameChar c || c == '.'

/-- Reads the rest of a placeholder after `${`: a name, perhaps with blanks around it, and `}`. -/
def readDollar? (cs : List Char) : Option (List Char × List Char) :=
  match cs.dropWhile (· != '}') with
  | '}' :: rest =>
    if isEnvironmentName (Text.trim (cs.takeWhile (· != '}'))) then
      some (cs.takeWhile (· != '}'), rest)
    else none
  | _ => none

theorem length_of_readBraces? {cs content rest : List Char}
    (h : readBraces? cs = some (content, rest)) : rest.length < cs.length := by
  unfold readBraces? at h
  split at h
  · next dropped =>
    cases h
    have := (List.dropWhile_suffix isInside (l := cs)).length_le
    rw [dropped] at this
    simp only [List.length_cons] at this
    omega
  · cases h

theorem length_of_readDollar? {cs content rest : List Char}
    (h : readDollar? cs = some (content, rest)) : rest.length < cs.length := by
  unfold readDollar? at h
  split at h
  · next dropped =>
    split at h
    · cases h
      have := (List.dropWhile_suffix (fun c : Char => c != '}') (l := cs)).length_le
      rw [dropped] at this
      simp only [List.length_cons] at this
      omega
    · cases h
  · cases h

/-- Cuts a text into placeholders and single characters. A placeholder is taken at the first place
where one starts, and the next one is looked for behind it. -/
def segments (cs : List Char) : List Segment :=
  match cs with
  | [] => []
  | '{' :: '{' :: rest =>
    match _h : readBraces? rest with
    | some (content, rest) => .braces content :: segments rest
    | none => .char '{' :: segments ('{' :: rest)
  | '$' :: '{' :: rest =>
    match _h : readDollar? rest with
    | some (content, rest) => .dollar content :: segments rest
    | none => .char '$' :: segments ('{' :: rest)
  | c :: rest => .char c :: segments rest
termination_by cs.length
decreasing_by
  · have := length_of_readBraces? _h
    simp only [List.length_cons]; omega
  · simp
  · have := length_of_readDollar? _h
    simp only [List.length_cons]; omega
  · simp
  · simp

theorem append_of_readBraces? {cs content rest : List Char}
    (h : readBraces? cs = some (content, rest)) : content ++ ['}', '}'] ++ rest = cs := by
  unfold readBraces? at h
  split at h
  · next taken dropped =>
    cases h
    rw [← taken, List.append_assoc]
    exact (congrArg (cs.takeWhile isInside ++ ·) dropped.symm).trans List.takeWhile_append_dropWhile
  · cases h

theorem append_of_readDollar? {cs content rest : List Char}
    (h : readDollar? cs = some (content, rest)) : content ++ ['}'] ++ rest = cs := by
  unfold readDollar? at h
  split at h
  · next dropped =>
    split at h
    · cases h
      rw [List.append_assoc]
      exact (congrArg (cs.takeWhile (· != '}') ++ ·) dropped.symm).trans
        List.takeWhile_append_dropWhile
    · cases h
  · cases h

/-- The parts of a text make up the text. -/
theorem flatMap_source_segments (cs : List Char) : (segments cs).flatMap Segment.source = cs := by
  fun_induction segments cs with
  | case1 => rfl
  | case2 rest content more read ih =>
    rw [List.flatMap_cons, ih, ← append_of_readBraces? read]
    simp [Segment.source]
  | case3 rest read ih =>
    rw [List.flatMap_cons, ih]
    rfl
  | case4 rest content more read ih =>
    rw [List.flatMap_cons, ih, ← append_of_readDollar? read]
    simp [Segment.source]
  | case5 rest read ih =>
    rw [List.flatMap_cons, ih]
    rfl
  | case6 c rest _ _ ih =>
    rw [List.flatMap_cons, ih]
    rfl

/-- The parts of a text, escaped braces being plain text. -/
def parse (text : String) : List Segment :=
  segments (mask text.toList)

end RequestFile.Placeholder
