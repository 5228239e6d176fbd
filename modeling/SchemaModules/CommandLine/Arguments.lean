import SchemaModules.CommandLine.Parameter

/-!
# Arguments

An argument that begins with a dash is a switch: a long one with two dashes, or a cluster of short
ones behind a single dash. A switch that takes a value takes the rest of its argument, or else the
next argument, whatever that begins with. All arguments behind `--` are plain.
-/

namespace SchemaModules.CommandLine

open Text

/-- Why a command line is refused. -/
inductive UsageFault
  | missingValue (switch : String)
  | unwantedValue (switch : String)
  | unknownSwitch (switch : String)
  | missingParameter (parameter : Parameter)
  /-- The value of a parameter is refused for a reason. -/
  | invalidValue (parameter : Parameter) (reason : String)
  | extraArguments (arguments : List String)

def UsageFault.message : UsageFault → String
  | missingValue switch => s!"Option {shownText switch} requires an argument."
  | unwantedValue switch => s!"Option {shownText switch} does not take a value."
  | unknownSwitch switch => s!"No such option {shownText switch}."
  | missingParameter parameter => s!"Missing option {parameter.hint}."
  | invalidValue parameter reason => s!"Invalid value for {parameter.hint}: {reason}"
  | extraArguments [argument] => s!"Got unexpected extra argument ({argument})"
  | extraArguments arguments => "Got unexpected extra arguments (" ++ join " " arguments ++ ")"

/-- A switch with too few or too many values is refused without a reminder of the usage. -/
def UsageFault.remindsOfUsage : UsageFault → Bool
  | missingValue _ | unwantedValue _ => false
  | _ => true

/-- What is given for a parameter. -/
inductive Given
  | text (value : String)
  | flag (value : Bool)
  deriving DecidableEq, Repr

/-- The parameters that one argument gives, and the one that still waits for its value. -/
structure Reading where
  given : List (Parameter × Given)
  waiting : Option (String × Parameter) := none

/-- A long switch, with a value behind an equals sign if there is one. -/
def readLong (argument : List Char) : Except UsageFault Reading :=
  let name := String.ofList (argument.takeWhile (· != '='))
  let attached := argument.dropWhile (· != '=')
  match switches.lookup name with
  | none => .error (.unknownSwitch name)
  | some (parameter, .takesValue) =>
    match attached with
    | [] => .ok ⟨[], some (name, parameter)⟩
    | _ :: value => .ok ⟨[(parameter, .text (String.ofList value))], none⟩
  | some (parameter, effect) =>
    if attached.isEmpty then .ok ⟨[(parameter, .flag (effect == .turnsOn))], none⟩
    else .error (.unwantedValue name)

/-- A cluster of short switches. -/
def readShort : List Char → Except UsageFault Reading
  | [] => .ok ⟨[], none⟩
  | c :: rest =>
    let name := String.ofList ['-', c]
    match switches.lookup name with
    | none => .error (.unknownSwitch name)
    | some (parameter, .takesValue) =>
      if rest.isEmpty then .ok ⟨[], some (name, parameter)⟩
      else .ok ⟨[(parameter, .text (String.ofList rest))], none⟩
    | some (parameter, effect) => do
      let others ← readShort rest
      return { others with given := (parameter, .flag (effect == .turnsOn)) :: others.given }

/-- Nothing for an argument that is no switch; a dash alone is none. -/
def readSwitch? (argument : String) : Option (Except UsageFault Reading) :=
  match argument.toList with
  | '-' :: '-' :: rest => some (readLong ('-' :: '-' :: rest))
  | '-' :: c :: rest => some (readShort (c :: rest))
  | _ => none

/-- A command line: the parameters given, in order, and the plain arguments. -/
structure Arguments where
  given : List (Parameter × Given)
  plain : List String

def Arguments.giving (arguments : Arguments) (given : List (Parameter × Given)) : Arguments :=
  { arguments with given := given ++ arguments.given }

/-- Reads arguments up to the first that is refused. -/
def Arguments.read : List String → Except UsageFault Arguments
  | [] => .ok ⟨[], []⟩
  | argument :: rest =>
    if argument = "--" then .ok ⟨[], rest⟩
    else
      match readSwitch? argument with
      | none => do
        let others ← Arguments.read rest
        return { others with plain := argument :: others.plain }
      | some (.error fault) => .error fault
      | some (.ok ⟨given, none⟩) => do
        return (← Arguments.read rest).giving given
      | some (.ok ⟨given, some (switch, parameter)⟩) =>
        match rest with
        | [] => .error (.missingValue switch)
        | value :: rest => do
          return (← Arguments.read rest).giving (given ++ [(parameter, .text value)])

namespace Arguments

/-- The last text given for a parameter. -/
def text? (arguments : Arguments) (parameter : Parameter) : Option String :=
  arguments.given.reverse.findSome? fun
    | (set, .text value) => if set = parameter then some value else none
    | _ => none

/-- The last setting of a parameter that is on or off. -/
def flag? (arguments : Arguments) (parameter : Parameter) : Option Bool :=
  arguments.given.reverse.findSome? fun
    | (set, .flag value) => if set = parameter then some value else none
    | _ => none

/-- The parameters in the order in which they are looked at: those given, by their first place,
then all others. -/
def order (arguments : Arguments) : List Parameter :=
  (arguments.given.map Prod.fst ++ Parameter.all).eraseDups

end Arguments

end SchemaModules.CommandLine
