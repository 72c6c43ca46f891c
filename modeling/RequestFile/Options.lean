import RequestFile.Validation
/-!
# Parser options

How a request file is read. All options have defaults, and one of them has a bound.
-/

namespace RequestFile

/-- How a request file is read. -/
structure Options where
  /-- Whether it is an error that two requests share a name. -/
  validateRequestNames : Bool := true
  /-- Whether placeholders have a meaning in files that hold bodies and between variables. -/
  processVariables : Bool := true
  /-- Whether a document that is not valid is an error. Names are then kept as written. -/
  strictMode : Bool := false
  /-- Whether expectations are read. -/
  parseExpectations : Bool := true
  /-- Whether a request without a name gets one. -/
  requireRequestNames : Bool := true
  /-- Whether a request may lack a body where its method expects one. -/
  allowEmptyBodies : Bool := true
  /-- Whether a byte-order mark is dropped and every line end is taken for the same. -/
  normalizeLineEndings : Bool := true
  /-- The largest number of characters of a request name. -/
  maxRequestNameLength : Nat := 50
  /-- Whether directives of unknown keys are dropped. -/
  ignoreUnknownMetadata : Bool := true
deriving Repr, DecidableEq

/-- What can be wrong with options. -/
inductive OptionsError where
  | zeroNameLength
deriving Repr, DecidableEq

/-- The wording of what is wrong with options. -/
def OptionsError.message : OptionsError → String
  | zeroNameLength => "maxRequestNameLength must be greater than 0"

namespace Options

/-- What is wrong with the options, if anything is. -/
def problem? (o : Options) : Option OptionsError :=
  if o.maxRequestNameLength == 0 then some .zeroNameLength else none

/-- The rules by which a document is validated in strict mode. -/
def rules (o : Options) : Rules where
  maxNameLength := o.maxRequestNameLength
  allowEmptyBodies := o.allowEmptyBodies
  checkCycles := o.processVariables

end Options

end RequestFile
