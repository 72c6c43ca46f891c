/-!
# Why a generator makes no value
-/

namespace RequestFile.Generator

/-- Why a generator makes no value. -/
inductive Error where
  | unknown (name : String)
  | noExpression
  | noDollar (head : String)
  | missingBounds
  | badMinimum (text : String)
  | badMaximum (text : String)
  | missingFormat
  | offsetArguments
  | badNumber (text : String)
  | badUnit (text : String)
  | offsetTooLarge (n : Int) (unit : String)
  | dateOutOfRange (arguments : List String)
  | badFormat (format : String)
deriving Repr, DecidableEq

/-- What kind of mistake keeps a generator from making a value. -/
inductive ErrorKind where
  | unknownVariable
  | invalidSyntax
  | invalidOffset
  | invalidFormat
deriving Repr, DecidableEq

namespace Error

/-- The kind of an error. -/
def kind : Error → ErrorKind
  | unknown _ => .unknownVariable
  | noExpression | noDollar _ | missingBounds | badMinimum _ | badMaximum _ | missingFormat =>
    .invalidSyntax
  | offsetArguments | badNumber _ | badUnit _ | offsetTooLarge _ _ | dateOutOfRange _ =>
    .invalidOffset
  | badFormat _ => .invalidFormat

/-- What is wrong, without the kind. -/
def detail : Error → String
  | unknown name => "$" ++ name
  | noExpression => "Empty system variable"
  | noDollar head => "System variable must start with $: " ++ head
  | missingBounds => "randomInt requires min and max arguments"
  | badMinimum text => "Invalid min value: " ++ text
  | badMaximum text => "Invalid max value: " ++ text
  | missingFormat => "datetime requires a format argument (rfc1123, iso8601 or a pattern)"
  | offsetArguments => "Offset requires number and unit (e.g., '-1 d' or '+2 h')"
  | badNumber text => "Invalid number: " ++ text
  | badUnit text => "Invalid unit: " ++ text ++ ". Use 'ms', 's', 'm', 'h', 'd' or 'w'"
  | offsetTooLarge n unit => "Offset out of range: " ++ toString n ++ " " ++ unit
  | dateOutOfRange arguments =>
    "Date out of range after offset: " ++ " ".intercalate arguments
  | badFormat format => format

/-- The wording of an error. -/
def message (e : Error) : String :=
  (match e.kind with
    | .unknownVariable => "Unknown system variable: "
    | .invalidSyntax => "Invalid syntax: "
    | .invalidOffset => "Invalid offset: "
    | .invalidFormat => "Invalid datetime format: ") ++ e.detail

end Error

end RequestFile.Generator
