import RealmDirectory.Settings.Blank
import RealmDirectory.Settings.Path
import RealmDirectory.Settings.Value
import RealmDirectory.Toml
/-!
# Settings

What the directory is started with. A setting is taken from the environment, else from the
settings file, else it has its default. Whatever the kinds of the values found, they are converted
to the kinds wanted first; only then the settings as a whole are validated.

## Main definitions

* `Settings.validate` — what settings must satisfy.
* `Settings.load` — the settings of a file and an environment.
-/

namespace RealmDirectory

/-- What the directory is started with. -/
structure Settings where
  /-- The address realm servers connect to. -/
  bindAddress : String
  /-- The port realm servers connect to. -/
  registrationPort : UInt16
  /-- Where admin logins connect to, if they can. -/
  adminAddress : Option String
  /-- The most realm servers served at once. -/
  maxConnections : Nat
  deriving DecidableEq, Repr

/-- Why settings are not valid. -/
inductive SettingsFault where
  | portZero
  | bindAddressBlank
  | noConnections
  | adminAddressBlank
  deriving DecidableEq, Repr

/-- The wording of a fault. -/
def SettingsFault.message : SettingsFault → String
  | portZero => "registration_port cannot be 0"
  | bindAddressBlank => "bind_address cannot be empty"
  | noConnections => "max_connections must be greater than 0"
  | adminAddressBlank => "admin_address cannot be empty when set"

/-- Why no settings could be loaded. -/
inductive LoadError where
  /-- The file is not in its format. -/
  | malformedFile
  /-- A value is not of a kind that can be converted. -/
  | unconvertible (key : String)
  | invalid (fault : SettingsFault)
  deriving DecidableEq, Repr

/-- The wording of a load error. -/
def LoadError.message : LoadError → String
  | malformedFile => "the settings file is malformed"
  | unconvertible key => s!"{key} has a value of the wrong kind"
  | invalid fault => fault.message

namespace Settings

/-- The settings where nothing else is said. -/
def default : Settings where
  bindAddress := "0.0.0.0"
  registrationPort := 3444
  adminAddress := none
  maxConnections := 64

/-- The address and port realm servers connect to. -/
def socket (s : Settings) : String :=
  let port := s.registrationPort.toNat
  s!"{s.bindAddress}:{port}"

/-- Checks settings; the first fault counts. -/
def validate (s : Settings) : Except SettingsFault Unit :=
  if s.registrationPort = 0 then .error .portZero
  else if isBlank s.bindAddress then .error .bindAddressBlank
  else if s.maxConnections = 0 then .error .noConnections
  else if s.adminAddress.any isBlank then .error .adminAddressBlank
  else .ok ()

/-! ## Sources -/

/-- Settings with the values that a source gives them; a later value replaces an earlier one of the
same setting. -/
abbrev Source := List (String × SettingValue)

/-- The setting that a name speaks of, with the value it gets when that name has a value. -/
def place (name : String) (value : SettingValue) : String × SettingValue :=
  match SettingPath.target name with
  | (setting, true) => (setting, .table true)
  | (setting, false) => (setting, value)

/-- What the names of variables begin with, in any case. -/
def variableHead : String := "realm_registry_"

/-- The lower case of a character, if it is an ASCII letter; the Kelvin sign has one, too. Names of
settings are made of no other letters. -/
def lowerLetter (c : Char) : Char := if c = '\u212a' then 'k' else c.toLower

/-- The settings of an environment: the variables whose name begins with `variableHead`, in any
case, under the rest of their name. -/
def ofEnvironment (environment : List (String × String)) : Source :=
  environment.filterMap fun (name, value) =>
    let name := name.toList.map lowerLetter
    let head := variableHead.toList
    if head.isPrefixOf name then
      some (place (String.ofList (name.drop head.length)) (SettingValue.ofVariable value))
    else none

/-- A value in a file as a value of a setting. -/
def ofFileValue : Toml.Value → SettingValue
  | .bool value => .bool value
  | .whole value => .whole value
  | .decimal value => .decimal value
  | .text value => .text value
  | .list _ => .list
  | .table entries => .table !entries.isEmpty

/-- The settings of a file. -/
def ofFile (file : Toml.Table) : Source :=
  file.map fun (name, value) => place name (ofFileValue value)

/-- What a source says of a setting. A table without entries says nothing of a setting that has a
value already. -/
def said? (source : Source) (key : String) (hasDefault : Bool) : Option SettingValue :=
  let values := source.filter fun (setting, value) =>
    setting = key ∧ ¬ (hasDefault ∧ value = .table false)
  values.getLast?.map (·.2)

/-- What is said of a setting, the environment before the file. -/
def lookup (environment file : Source) (key : String) (hasDefault : Bool) : Option SettingValue :=
  (said? environment key hasDefault).or (said? file key hasDefault)

/-- Converts what is said of a setting; where nothing is, it has its default. -/
def convert (key : String) (convert? : SettingValue → Option α) (default : α) :
    Option SettingValue → Except LoadError α
  | none => .ok default
  | some value =>
    match convert? value with
    | some a => .ok a
    | none => .error (.unconvertible key)

/-- The settings of a file and an environment before they are validated. A port keeps the low 16
bits of the number found. -/
def assemble (environment file : Source) : Except LoadError Settings := do
  let find := lookup environment file
  let bindAddress ← convert "bind_address" (·.asText?) default.bindAddress
    (find "bind_address" true)
  let registrationPort ← convert "registration_port" (·.asWord?.map UInt16.ofNat)
    default.registrationPort (find "registration_port" true)
  let adminAddress ← convert "admin_address" (·.asText?.map some) default.adminAddress
    (find "admin_address" false)
  let maxConnections ← convert "max_connections" (·.asWord?) default.maxConnections
    (find "max_connections" true)
  return { bindAddress, registrationPort, adminAddress, maxConnections }

/-- Loads settings from the text of the file, if there is one, and the variables of the
environment. -/
def load (file : Option String) (environment : List (String × String)) :
    Except LoadError Settings := do
  let entries ← match file with
    | none => .ok []
    | some text =>
      match Toml.parse? text with
      | some entries => .ok entries
      | none => .error .malformedFile
  let settings ← assemble (ofEnvironment environment) (ofFile entries)
  match settings.validate with
  | .ok () => .ok settings
  | .error fault => .error (.invalid fault)

end Settings

end RealmDirectory
