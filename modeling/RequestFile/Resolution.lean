import RequestFile.Document
import RequestFile.Generator
import RequestFile.Reference
import RequestFile.Text.Basic
/-!
# Resolving placeholders

`{{name}}` stands for the file variable of that name, whose value is resolved in turn, or else for
the variable of the environment; `{{$name …}}` calls a generator, and `${NAME}` stands for a
variable of the environment. What has no value stays as it is written. Variables that are being
resolved are not resolved again inside their own value, so resolution always ends.
-/

namespace RequestFile

/-- The variables that placeholders can refer to. -/
structure Scope where
  file : Table String := .empty
  environment : Table String := .empty
deriving Repr, DecidableEq

namespace Scope

/-- The scope of a document, without an environment. -/
def ofDocument (d : Document) : Scope :=
  { file := d.fileVariables }

/-- The scope with more variables in its environment, or with other values for them. -/
def withEnvironment (s : Scope) (entries : List (String × String)) : Scope :=
  { s with environment := s.environment.insertAll entries }

end Scope

/-- A part of a text in which placeholders have been resolved. -/
inductive Part where
  /-- Text that is final. -/
  | text (cs : List Char)
  /-- A value that has still to be drawn. -/
  | generated (recipe : Generator.Recipe)
  /-- A placeholder without a value, with escaped braces in it behind their marks. -/
  | unresolved (source : List Char)
deriving Repr, DecidableEq

open Placeholder

/-- The value of a variable of the environment, or the placeholder as it is written. -/
def Scope.environmentPart (s : Scope) (name source : List Char) : Part :=
  match s.environment.get? (String.ofList name) with
  | some value => .text (unmask value.toList)
  | none => .unresolved source

/-- What a generator makes, or the placeholder as it is written. -/
def generatorPart (clock : Clock) (expression source : List Char) : Part :=
  match Generator.evaluate clock expression with
  | .ok recipe => .generated recipe
  | .error _ => .unresolved source

theorem length_erase_lt {free : List String} {name : String} (h : name ∈ free) :
    (free.erase name).length < free.length := by
  rw [List.length_erase_of_mem h]
  exact Nat.sub_lt (List.length_pos_of_mem h) Nat.zero_lt_one

/-- Resolves the placeholders of a text. `free` lists the file variables whose values are not being
resolved. -/
def Scope.expand (s : Scope) (clock : Clock) (free : List String) (text : List Char) : List Part :=
  (segments (mask text)).flatMap fun segment =>
    match segment with
    | .char c => [.text (unmaskChar c)]
    | .dollar content => [s.environmentPart (Text.trim content) segment.source]
    | .braces content =>
      let name := Text.trim content
      if name.head? == some '$' then [generatorPart clock name segment.source]
      else
        match s.file.get? (String.ofList name) with
        | none => [s.environmentPart name segment.source]
        | some value =>
          if _h : String.ofList name ∈ free then
            s.expand clock (free.erase (String.ofList name)) value.toList
          else [.unresolved segment.source]
termination_by free.length
decreasing_by exact length_erase_lt _h

/-- Whether a text has anything in it that resolution could change. -/
def hasMarkup (cs : List Char) : Bool :=
  Text.occursIn ['{', '{'] cs || Text.occursIn ['$', '{'] cs || Text.occursIn ['\\', '}', '}'] cs

/-- The parts of a text. A text without braces of placeholders or escapes is left as it is. -/
def Scope.parts (s : Scope) (clock : Clock) (text : String) : List Part :=
  if hasMarkup text.toList then s.expand clock s.file.keys text.toList else [.text text.toList]

/-- Puts parts together, drawing what has to be drawn from left to right. -/
def Part.join {γ : Type} [RandomGen γ] (source : γ) : List Part → List Char × γ
  | [] => ([], source)
  | .text cs :: rest =>
    let (joined, source) := join source rest
    (cs ++ joined, source)
  | .unresolved cs :: rest =>
    let (joined, source) := join source rest
    (unmask cs ++ joined, source)
  | .generated recipe :: rest =>
    let (cs, source) := recipe.draw source
    let (joined, source) := join source rest
    (unmask cs ++ joined, source)

/-- The placeholder of a part that has no value. -/
def Part.unresolved? : Part → Option String
  | .unresolved source => some (String.ofList source)
  | _ => none

/-- The text with its placeholders resolved, and the source of random numbers as it is left. -/
def Scope.resolve {γ : Type} [RandomGen γ] (s : Scope) (clock : Clock) (text : String)
    (source : γ) : String × γ :=
  let (cs, source) := Part.join source (s.parts clock text)
  (String.ofList cs, source)

/-- The placeholders of a text that have no value, in order. -/
def Scope.unresolved (s : Scope) (clock : Clock) (text : String) : List String :=
  (s.parts clock text).filterMap Part.unresolved?

/-- The distinct placeholders of a text that have no value with these file variables alone, in the
order in which they first come up. -/
def unresolvedReferences (clock : Clock) (file : Table String) (text : String) : List String :=
  (Scope.unresolved { file } clock text).eraseDups

end RequestFile
