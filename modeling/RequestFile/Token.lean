import RequestFile.Text.Basic
/-!
# Tokens

A request file is read line by line, and a line makes at most one token. What kind of token a line
makes depends on its text and on where in its request block it stands.
-/

namespace RequestFile

/-! ## File directives

`< path` takes the bytes of a file as the body, `<@ path` its text with placeholders resolved, and
`<@label path` does so in an encoding. A blank after `<` is needed, so that markup is no directive.
Paths may hold blanks.
-/

/-- A line that names the file of a body. -/
inductive FileDirective where
  /-- The bytes of the file. -/
  | raw (path : String)
  /-- The file with its placeholders resolved. -/
  | processed (path : String)
  /-- The file read in the encoding with a label, with its placeholders resolved. -/
  | encoded (label path : String)
deriving Repr, DecidableEq

namespace FileDirective

/-- A text without the blanks at its ends, if anything is left of it. -/
def path? (cs : List Char) : Option String :=
  match Text.trim cs with
  | [] => none
  | path => some (String.ofList path)

/-- Whether a word can be the label of an encoding: ASCII letters, digits and hyphens. -/
def isLabel (word : List Char) : Bool :=
  !word.isEmpty && word.all fun c => c.isAlphanum || c == '-'

/-- The directive that follows `<@`. Where a label and a path can be told apart they are; otherwise
all of it is a path. -/
def processed? (cs : List Char) : Option FileDirective :=
  let whole := (path? cs).map .processed
  match Text.cutAt Text.isBlank cs with
  | (word, some rest) =>
    match path? rest with
    | some path => if isLabel word then some (.encoded (String.ofList word) path) else whole
    | none => whole
  | (_, none) => whole

/-- The directive that a line is, read from its first character on. -/
def ofChars? : List Char → Option FileDirective
  | '<' :: '@' :: rest => processed? rest
  | '<' :: c :: rest => if Text.isBlank c then (path? rest).map .raw else none
  | _ => none

/-- The directive that a text is, read from its first character on. -/
def ofText? (s : String) : Option FileDirective :=
  ofChars? s.toList

end FileDirective

/-! ## Tokens -/

/-- What a line of a request file says. -/
inductive Token where
  /-- A comment without further meaning. -/
  | comment (text : String)
  /-- A declaration of a file variable. -/
  | assignment (name value : String)
  /-- The end of a request block, which may name the next request. -/
  | separator (name : Option String)
  /-- A comment that says something about the next request. -/
  | directive (key value : String)
  /-- The first line of a request. The method is empty when the line leaves it out. -/
  | requestLine (method url : String) (version : Option String)
  /-- A further part of the query of a URL. -/
  | queryPart (text : String)
  /-- A header. Its name may be empty or hold blanks. -/
  | header (name value : String)
  /-- A line of a body, as written. -/
  | bodyLine (text : String)
  /-- A file that holds the body. -/
  | bodyFile (directive : FileDirective)
  /-- A line that is none of these. -/
  | unrecognized (text : String)
deriving Repr, DecidableEq

/-- A token with its line, counted from one. -/
structure Located where
  token : Token
  line : Nat
deriving Repr, DecidableEq

end RequestFile
