import RequestFile.Json.Value
import RequestFile.Options
import RequestFile.Text.Quoted
/-!
# Options from settings

Options are written in JSON settings, as an object in the section `http-file`. A setting that is
left out has its default value, and settings of unknown names are passed over. `Options.ofSection`
reads the section itself and refuses what does not fit; `Options.ofSettings` then takes the defaults
instead.
-/

namespace RequestFile

/-- What a place in the settings must hold. -/
inductive Expected where
  | boolean
  | natural
  | options
deriving Repr, DecidableEq

/-- The wording of what is expected. -/
def Expected.text : Expected → String
  | boolean => "a boolean"
  | natural => "usize"
  | options => "struct ParserOptions"

/-- Why settings make no options. -/
inductive SettingsError where
  | wrongType (found : Json.Value) (expected : Expected)
  | negative (n : Int)
  | tooLong (length : Nat)
  | badOptions (problem : OptionsError)
deriving Repr

/-- What a value is, as messages say it. -/
def Json.Value.description : Json.Value → String
  | .null => "null"
  | .bool b => "boolean `" ++ toString b ++ "`"
  | .number (.integer n) => "integer `" ++ toString n ++ "`"
  | .number (.real x) => "floating point `" ++ String.ofList (Number.real x).render ++ "`"
  | .string s => "string " ++ Text.quoted s
  | .array _ => "sequence"
  | .object _ => "map"

namespace SettingsError

/-- Whether the settings have the right form, and it is only the options that are wrong. -/
def isWellFormed : SettingsError → Bool
  | badOptions _ => true
  | _ => false

/-- The wording of a settings error. -/
def message : SettingsError → String
  | badOptions problem => "Invalid configuration: " ++ problem.message
  | wrongType found expected =>
    "Failed to deserialize http-file settings: invalid type: " ++ found.description ++
      ", expected " ++ expected.text
  | negative n =>
    "Failed to deserialize http-file settings: invalid value: integer `" ++ toString n ++
      "`, expected " ++ Expected.natural.text
  | tooLong length =>
    "Failed to deserialize http-file settings: invalid length " ++ toString length ++
      ", expected fewer elements in array"

end SettingsError

/-- What a setting does to options. -/
inductive Setting where
  | flag (set : Options → Bool → Options)
  | count (set : Options → Nat → Options)

namespace Setting

/-- All settings, in their order. -/
def all : List (String × Setting) :=
  [("validateRequestNames", flag fun o b => { o with validateRequestNames := b }),
    ("processVariables", flag fun o b => { o with processVariables := b }),
    ("strictMode", flag fun o b => { o with strictMode := b }),
    ("parseExpectations", flag fun o b => { o with parseExpectations := b }),
    ("requireRequestNames", flag fun o b => { o with requireRequestNames := b }),
    ("allowEmptyBodies", flag fun o b => { o with allowEmptyBodies := b }),
    ("normalizeLineEndings", flag fun o b => { o with normalizeLineEndings := b }),
    ("maxRequestNameLength", count fun o n => { o with maxRequestNameLength := n }),
    ("ignoreUnknownMetadata", flag fun o b => { o with ignoreUnknownMetadata := b })]

/-- Gives a setting a value. -/
def apply (o : Options) : Setting → Json.Value → Except SettingsError Options
  | flag set, .bool b => .ok (set o b)
  | count set, .number (.integer n) =>
    if 0 ≤ n then .ok (set o n.toNat) else .error (.negative n)
  | flag _, value => .error (.wrongType value .boolean)
  | count _, value => .error (.wrongType value .natural)

/-- Gives settings their values, one after the other, up to the first that does not fit. -/
def applyAll (o : Options) (values : List (Setting × Json.Value)) :
    Except SettingsError Options :=
  values.foldlM (fun o entry => apply o entry.1 entry.2) o

/-- The settings that members of an object are for, with their values. -/
def ofMembers (members : List (String × Json.Value)) : List (Setting × Json.Value) :=
  members.filterMap fun (name, value) => (all.lookup name).map (·, value)

/-- The settings that the items of an array are for, with their values. -/
def ofItems (items : List Json.Value) : List (Setting × Json.Value) :=
  (all.map Prod.snd).zip items

end Setting

namespace Options

/-- Reads options from a value: from an object by the names of its members, in their order, or from
an array by places. What the options say is not looked at. -/
def ofValue : Json.Value → Except SettingsError Options
  | .object members => Setting.applyAll {} (Setting.ofMembers members)
  | .array items =>
    match Setting.applyAll {} (Setting.ofItems items) with
    | .error e => .error e
    | .ok o => if Setting.all.length < items.length then .error (.tooLong items.length) else .ok o
  | value => .error (.wrongType value .options)

/-- Reads options from the section of the settings that holds them. -/
def ofSection (value : Json.Value) : Except SettingsError Options :=
  match ofValue value with
  | .error e => .error e
  | .ok o =>
    match o.problem? with
    | some problem => .error (.badOptions problem)
    | none => .ok o

/-- The options of settings, which need not be there. Where the section is missing or has not the
right form, all options have their defaults. -/
def ofSettings (settings : Option Json.Value) : Except SettingsError Options :=
  match settings.bind (·.member? "http-file") with
  | none => .ok {}
  | some value =>
    match ofSection value with
    | .ok o => .ok o
    | .error e => if e.isWellFormed then .error e else .ok {}

end Options

end RequestFile
