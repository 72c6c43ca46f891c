import RequestFile.Text.Basic
import RequestFile.Json.Value
/-!
# Paths into JSON values

A path leads from a value to a part of it: `$.user.name` by names, `$.items[0]` by places, and
`$['a.b']` by names that hold the marks of a path. The `$` of the root may be left out.
-/

namespace RequestFile.Json

/-- One step of a path. -/
inductive Step where
  | field (name : String)
  | index (n : Nat)
deriving Repr, DecidableEq

/-- Reads up to the `]` that closes a bracket, passing over those that stand between quotes: what is
inside, and what follows. -/
def readBracket : (quote : Option Char) → List Char → Option (List Char × List Char)
  | _, [] => none
  | some q, c :: rest =>
    (readBracket (if c == q then none else some q) rest).map fun (inner, rest) =>
      (c :: inner, rest)
  | none, c :: rest =>
    if c == ']' then some ([], rest)
    else
      (readBracket (if c == '\'' || c == '"' then some c else none) rest).map fun (inner, rest) =>
        (c :: inner, rest)

theorem length_of_readBracket {quote : Option Char} {cs inner rest : List Char}
    (h : readBracket quote cs = some (inner, rest)) : rest.length < cs.length := by
  induction cs generalizing quote inner with
  | nil => cases quote <;> simp [readBracket] at h
  | cons c cs ih =>
    cases quote with
    | some q =>
      rw [readBracket, Option.map_eq_some_iff] at h
      obtain ⟨⟨_, _⟩, read, same⟩ := h
      cases same
      exact Nat.lt_succ_of_lt (ih read)
    | none =>
      rw [readBracket] at h
      split at h
      · cases h
        simp
      · rw [Option.map_eq_some_iff] at h
        obtain ⟨⟨_, _⟩, read, same⟩ := h
        cases same
        exact Nat.lt_succ_of_lt (ih read)

/-- What stands between two quotes of one kind. -/
def unquote? (quote : Char) (cs : List Char) : Option (List Char) :=
  match cs with
  | c :: rest =>
    if c == quote && rest.getLast? == some quote then some rest.dropLast else none
  | [] => none

/-- The step that a bracket makes: a name between quotes, or a place. -/
def bracketStep? (inner : List Char) : Option Step :=
  match unquote? '\'' inner, unquote? '"' inner with
  | some name, _ => some (.field (String.ofList name))
  | none, some name => some (.field (String.ofList name))
  | none, none => (Decimal.naturalUpTo? Decimal.maxNat64 inner).map .index

/-- The step by a name that has been collected, if it is not empty. -/
def nameStep (name : List Char) : List Step :=
  if name.isEmpty then [] else [.field (String.ofList name)]

/-- Cuts a path into steps; `name` holds the characters of the name that is being read. -/
def cutSteps (name : List Char) (cs : List Char) : Option (List Step) :=
  match cs with
  | [] => some (nameStep name)
  | c :: rest =>
    if c == '.' then (cutSteps [] rest).map (nameStep name ++ ·)
    else if c == '[' then
      match _h : readBracket none rest with
      | none => none
      | some (inner, rest) => do
        let step ← bracketStep? (Text.trim inner)
        let steps ← cutSteps [] rest
        return nameStep name ++ step :: steps
    else cutSteps (name ++ [c]) rest
termination_by cs.length
decreasing_by
  · simp
  · have := length_of_readBracket _h
    simp; omega
  · simp

/-- The steps of a path, if its brackets are closed and hold a name between quotes or a place. -/
def steps? (path : String) : Option (List Step) :=
  match Text.trim path.toList with
  | '$' :: rest => cutSteps [] rest
  | cs => cutSteps [] cs

/-- Takes one step into a value. -/
def Value.step? (value : Value) : Step → Option Value
  | .field name => value.member? name
  | .index n => value.item? n

/-- Takes steps into a value, one after the other. -/
def Value.follow? (value : Value) (steps : List Step) : Option Value :=
  steps.foldlM Value.step? value

/-- The part of a value to which a path leads. -/
def Value.at? (value : Value) (path : String) : Option Value :=
  (steps? path).bind value.follow?

/-- The part of a JSON text to which a path leads, as it is put into a text. -/
def extract? (body path : String) : Option String := do
  let value ← value? body
  let part ← value.at? path
  return part.asText

end RequestFile.Json
