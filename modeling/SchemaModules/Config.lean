import SchemaModules.Definition
import SchemaModules.Fault

/-!
# Configuration

A configuration is read from a JSON object whose unknown members are ignored. Values are kept as
they are given: one of the wrong kind is refused where it is used, and only the language and the
output mode are checked when they are read. The language is checked last.
-/

namespace SchemaModules

open Text

/-- What happens to files that are already there. -/
inductive OutputMode
  | force
  | errorIfExists
  deriving DecidableEq, Repr

def OutputMode.label : OutputMode → String
  | force => "force"
  | errorIfExists => "error"

def OutputMode.ofLabel? (label : String) : Option OutputMode :=
  [force, errorIfExists].find? (·.label == label)

structure OutputSettings where
  /-- Absent when the mode is given as something other than a text: files are then replaced. -/
  mode : Option OutputMode := some .force
  validate : Json := .bool true
  atomic : Json := .bool true

structure FormatterSettings where
  enabled : Json := .bool false
  lineLength : Json := .int 120
  targetVersion : Json := .str "py312"

structure Config where
  language : Language := .python
  definitionLead : Json := .str "io.k8s."
  referenceLead : Json := .str "#/definitions/"
  ignored : Json := .arr []
  addComment : Json := .bool true
  /-- Absent when something other than settings stands in their place. -/
  formatter : Option FormatterSettings := some {}
  output : Option OutputSettings := some {}

/-- The language that a value chooses. -/
def Language.ofJson (value : Json) : Except Fault Language :=
  match value.str?.bind Language.ofLabel? with
  | some language => .ok language
  | none => .error (.unsupportedLanguage value.plain)

namespace Config

def readFormatterMember (settings : FormatterSettings) (key : String) (value : Json) :
    Except Fault FormatterSettings :=
  match key with
  | "enabled" => .ok { settings with enabled := value }
  | "line_length" => .ok { settings with lineLength := value }
  | "target_version" => .ok { settings with targetVersion := value }
  | _ => .error .unusableValue

def readFormatter (members : List (String × Json)) : Except Fault FormatterSettings :=
  members.foldlM (fun settings (key, value) => readFormatterMember settings key value) {}

def readMode : Json → Except Fault (Option OutputMode)
  | .str label =>
    match OutputMode.ofLabel? label with
    | some mode => .ok (some mode)
    | none => .error (.invalidMode (shownText label))
  | _ => .ok none

def readOutput (members : List (String × Json)) : Except Fault OutputSettings := do
  let mode ← readMode ((members.lookup "mode").getD (.str "force"))
  return {
    mode
    validate := (members.lookup "validate_before_write").getD (.bool true)
    atomic := (members.lookup "atomic_write").getD (.bool true) }

/-- Takes one member over; the language is left for the end. -/
def readMember (config : Config) (key : String) (value : Json) : Except Fault Config :=
  match key with
  | "definition_prefix" => .ok { config with definitionLead := value }
  | "ref_prefix" => .ok { config with referenceLead := value }
  | "ignore_definitions" => .ok { config with ignored := value }
  | "add_generation_comment" => .ok { config with addComment := value }
  | "formatter" =>
    match value with
    | .obj members => do
      let settings ← readFormatter members
      return { config with formatter := some settings }
    | _ => .ok { config with formatter := none }
  | "output" =>
    match value with
    | .obj members => do
      let settings ← readOutput members
      return { config with output := some settings }
    | _ => .ok { config with output := none }
  | _ => .ok config

/-- The language named by the members, that of the configuration when they name none. -/
def readLanguage (config : Config) (members : List (String × Json)) : Except Fault Config := do
  match members.lookup "language" with
  | none => return config
  | some value =>
    let language ← Language.ofJson value
    return { config with language }

def ofMembers (members : List (String × Json)) : Except Fault Config := do
  let config ← members.foldlM (fun config (key, value) => readMember config key value) {}
  readLanguage config members

def ofJson : Json → Except Fault Config
  | .obj members => ofMembers members
  | _ => .error .missingPart

def fieldNames : List String := [
  "language", "definition_prefix", "ref_prefix", "ignore_definitions", "add_generation_comment",
  "formatter", "output"]

/-- A configuration given field by field: only known fields, and formatter and output settings
cannot be given as objects. -/
def ofFields (fields : List (String × Json)) : Except Fault Config := do
  if fields.any fun (key, _) => !fieldNames.contains key then throw .unusableValue
  let withoutSettings := fields.map fun (key, value) =>
    (key, if key = "formatter" || key = "output" then Json.null else value)
  ofMembers withoutSettings

def FormatterSettings.toJson (settings : FormatterSettings) : Json := .obj [
  ("enabled", settings.enabled),
  ("line_length", settings.lineLength),
  ("target_version", settings.targetVersion)]

def OutputSettings.toJson (settings : OutputSettings) : Except Fault Json :=
  match settings.mode with
  | none => .error .missingPart
  | some mode => .ok (.obj [
    ("mode", .str mode.label),
    ("validate_before_write", settings.validate),
    ("atomic_write", settings.atomic)])

/-- The configuration as an object with all members. -/
def toJson (config : Config) : Except Fault Json := do
  let some formatter := config.formatter | throw .missingPart
  let some output := config.output | throw .missingPart
  let output ← OutputSettings.toJson output
  return .obj [
    ("language", .str config.language.label),
    ("definition_prefix", config.definitionLead),
    ("ref_prefix", config.referenceLead),
    ("ignore_definitions", config.ignored),
    ("add_generation_comment", config.addComment),
    ("formatter", FormatterSettings.toJson formatter),
    ("output", output)]

/-- Whether a definition is left out. A list names definitions, an object has their names as keys,
and a text names those that occur in it. -/
def ignores (config : Config) (name : String) : Except Fault Bool :=
  match config.ignored with
  | .arr items => .ok (Schema.holdsText items name)
  | .obj members => .ok (members.any (·.1 == name))
  | .str text => .ok (occursIn name.toList text.toList)
  | _ => .error .unusableValue

/-- A text to cut off at the beginning: one that says nothing cuts nothing. -/
def leadText? (value : Json) : Option String :=
  match value with
  | .str text => some text
  | value => if value.isTruthy then none else some ""

/-- The conventions under which a schema is compiled. A lead that is no text matters only if there
is something to cut it from: every schema has a name, but not every one has references. -/
def conventions (config : Config) (schema : Json) : Except Fault Conventions := do
  let some nameLead := leadText? config.definitionLead | throw .unusableValue
  match leadText? config.referenceLead with
  | some referenceLead => return ⟨config.language, nameLead, referenceLead⟩
  | none =>
    if (Schema.referenceTargets schema).isEmpty then return ⟨config.language, nameLead, ""⟩
    else throw .unusableValue

end Config

end SchemaModules
