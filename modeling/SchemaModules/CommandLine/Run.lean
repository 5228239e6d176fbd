import SchemaModules.CommandLine.Options
import SchemaModules.Output.Publish

/-!
# Running a command line

A run reads the configuration and the document, generates the output tree and writes it. Each file
is announced before it is written; events and refusals go to the error output.
-/

namespace SchemaModules.CommandLine

open Files Text Output

/-- A value as it is told again: a path to something that is there is shortened to its name. -/
def Surroundings.shortened (here : Surroundings) (value : String) : String :=
  let path := Path.ofText value
  if here.tree.pathExists (here.directory ++ path) then path.name else value

/-- The command line that asks for the given options. Options that are as they are without being
asked for are left out. -/
def Options.commandLine (here : Surroundings) (options : Options) : String :=
  let valued (switch : String) : Option String → List String
    | some value => [switch, here.shortened value]
    | none => []
  join " " (
    [programName] ++
    valued "--file" (some options.file.text) ++
    valued "--output" (some options.output.text) ++
    valued "--language" (options.language.map (·.label)) ++
    valued "--config" (options.config.map (·.text)) ++
    valued "--prefix" options.nameLead ++
    (if options.force then [] else ["--no-force"]) ++
    (if options.formatting then ["--format"] else []) ++
    (if options.verbose then ["--verbose"] else []))

/-! ## Generation -/

/-- The JSON value in a file. -/
def readValue (tree : FileTree) (path : Path) : Except Fault Json := do
  match tree.stat path with
  | .error cause => throw (.file cause path.text)
  | .ok .directory => throw (.file .isADirectory path.text)
  | .ok (.file content) =>
    match Json.read (← content.read) with
    | .ok value => return value
    | .error fault => throw (.unreadable fault)

/-- The configuration of a run: options take precedence over the configuration file. -/
def Options.configuration (options : Options) (tree : FileTree) : Except Fault Config := do
  let config : Config ←
    match options.config with
    | some path => Config.ofJson (← readValue tree path)
    | none => pure {}
  let config := { config with
    language := options.language.getD config.language
    definitionLead := (options.nameLead.map Json.str).getD config.definitionLead }
  let config ←
    if options.force then pure config
    else
      match config.output with
      | some settings =>
        pure { config with output := some { settings with mode := some .errorIfExists } }
      | none => throw .missingPart
  if options.formatting then
    match config.formatter with
    | some settings =>
      return { config with formatter := some { settings with enabled := .bool true } }
    | none => throw .missingPart
  else return config

/-- The configuration and the definitions of a run. -/
def Options.prepare (options : Options) (tree : FileTree) :
    Except Fault (Config × List (String × Json)) := do
  let config ← options.configuration tree
  let document ← readValue tree options.file
  return (config, ← definitionsOf document)

/-- Generates and writes the output tree that the options ask for. -/
def Options.publish (formatter : Option Formatter) (options : Options) (here : Surroundings)
    (check : Check) : List Event × Publication :=
  match options.prepare here.tree with
  | .error fault => ([], ⟨here.tree, [], .error fault⟩)
  | .ok (config, definitions) =>
    Output.publish formatter config (options.commandLine here) check definitions here.tree
      options.output

/-- The paths that a run writes to unless something stops it. -/
def Options.targets (formatter : Option Formatter) (options : Options) (here : Surroundings) :
    List Path :=
  match options.prepare here.tree with
  | .error _ => []
  | .ok (config, definitions) =>
    match (Output.generate formatter config (options.commandLine here) definitions).outcome.2 with
    | .error _ => []
    | .ok files => files.map fun file => options.output ++ file.path

/-! ## Reports -/

structure Report where
  /-- The files after the run. -/
  tree : FileTree
  exitCode : Nat
  output : String
  errors : String
  /-- The fault that broke the run off, if it is none that a run explains. -/
  breakdown : Option Fault

/-- The wording of the faults that a run explains. All others break it off. -/
def explanation? : Fault → Option String
  | .unusableValue | .missingPart | .emptyModulePath => none
  | fault => some (fault.message?.getD "")

def usageReminder : List String :=
  ["Usage: " ++ programName ++ " [OPTIONS]", "Try '" ++ programName ++ " --help' for help.", ""]

def errorLine (message : String) : String := "Error: " ++ message

def UsageFault.lines (fault : UsageFault) : List String :=
  (if fault.remindsOfUsage then usageReminder else []) ++ [errorLine fault.message]

/-- The events that are shown: warnings, and all others when asked for. -/
def shownEvents (verbose : Bool) (events : List Event) : List String :=
  (events.filter fun event => verbose || event.isWarning).map (·.line)

def announcement (path : Path) : String := "Generating: " ++ path.text

def Options.report (formatter : Option Formatter) (options : Options) (here : Surroundings)
    (check : Check) : Report :=
  let (events, publication) := options.publish formatter here check
  let shown := shownEvents options.verbose events
  let output := unlines (publication.reported.map announcement)
  let report (exitCode : Nat) (errors : List String) (breakdown : Option Fault) : Report :=
    ⟨publication.tree, exitCode, output, unlines (shown ++ errors), breakdown⟩
  match publication.outcome with
  | .ok () => report 0 [] none
  | .error fault =>
    match explanation? fault with
    | some message => report 1 [errorLine message] none
    | none => report 1 [] (some fault)

/-- Runs a command line. -/
def run (formatter : Option Formatter) (here : Surroundings) (check : Check)
    (arguments : List String) : Report :=
  match Request.read here arguments with
  | .error fault => ⟨here.tree, 2, "", unlines fault.lines, none⟩
  | .ok .help => ⟨here.tree, 0, helpText, "", none⟩
  | .ok (.generate options) => options.report formatter here check

/-- The paths that a command line mentions. -/
def mentioned (here : Surroundings) (arguments : List String) : List Path :=
  match Arguments.read arguments with
  | .error _ => []
  | .ok arguments => arguments.given.filterMap fun
      | (_, .text value) => some (here.resolve value)
      | _ => none

/-- The paths that a command line writes to unless something stops it. -/
def targets (formatter : Option Formatter) (here : Surroundings) (arguments : List String) :
    List Path :=
  match Request.read here arguments with
  | .ok (.generate options) => options.targets formatter here
  | _ => []

/-- A command line told again with its options in order. -/
def retell (here : Surroundings) (arguments : List String) : Except UsageFault (Option String) := do
  match ← Request.read here arguments with
  | .help => return none
  | .generate options => return some (options.commandLine here)

end SchemaModules.CommandLine
