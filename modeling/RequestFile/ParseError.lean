import RequestFile.Options
/-!
# Parse errors

Why a request file cannot be read. Lines that make no sense are no reason: they are left out.
-/

namespace RequestFile

/-- Why the content of a file cannot be had. -/
inductive ReadFailure where
  | notFound
  | isDirectory
  | notText
deriving Repr, DecidableEq

/-- The wording of a read failure. -/
def ReadFailure.message : ReadFailure → String
  | notFound => "No such file or directory (os error 2)"
  | isDirectory => "Is a directory (os error 21)"
  | notText => "stream did not contain valid UTF-8"

/-- Why a request file cannot be read. -/
inductive ParseError where
  | duplicateRequestName (name : String) (line firstLine : Nat)
  | invalid (errors : List (Finding Defect))
  | badOptions (problem : OptionsError)
  | emptyPath
  | unreadable (path : String) (failure : ReadFailure)
deriving Repr, DecidableEq

namespace ParseError

/-- The wording of a parse error. -/
def message : ParseError → String
  | duplicateRequestName name line firstLine =>
    "Duplicate request name '" ++ name ++ "' at line " ++ toString line ++
      " (first defined at line " ++ toString firstLine ++ ")"
  | invalid errors =>
    "Validation failed with " ++ toString errors.length ++ " error(s): " ++
      "; ".intercalate
        (errors.map fun e => "line " ++ toString e.line ++ ": " ++ e.cause.message)
  | badOptions problem => "Invalid parser options: " ++ problem.message
  | emptyPath => "No file path given"
  | unreadable path failure => "Failed to read '" ++ path ++ "': " ++ failure.message

/-- The line that a parse error is about, of several errors the first. -/
def line? : ParseError → Option Nat
  | duplicateRequestName _ line _ => some line
  | invalid errors => errors.head?.map (·.line)
  | badOptions _ | emptyPath | unreadable _ _ => none

end ParseError

end RequestFile
