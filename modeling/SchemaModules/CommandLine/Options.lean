import SchemaModules.CommandLine.Arguments
import SchemaModules.Files.Tree
import SchemaModules.Language

/-!
# Options

What a command line asks for. Paths are resolved against the working directory and compared with
what is there. The first parameter that is refused, in the order of `Arguments.order`, is reported.
-/

namespace SchemaModules.CommandLine

open Files Text

/-- Where a command runs: the files, and the directory that relative paths start from. -/
structure Surroundings where
  tree : FileTree
  directory : Path

/-- A path without parts that go up, as seen from the working directory. -/
def Surroundings.resolve (here : Surroundings) (text : String) : Path :=
  let path := here.directory ++ Path.ofText text
  ⟨path.root, path.parts.foldl
    (fun parts part => if part = ".." then parts.dropLast else parts ++ [part]) []⟩

structure Options where
  /-- The document with the definitions. -/
  file : Path
  /-- The directory to write to. -/
  output : Path
  language : Option Language
  config : Option Path
  /-- What definition names begin with before their path. -/
  nameLead : Option String
  /-- Whether files that are there may be replaced. -/
  force : Bool
  formatting : Bool
  verbose : Bool

inductive Request
  | help
  | generate (options : Options)

/-- A file that must be there. -/
def readFile (here : Surroundings) (parameter : Parameter) (text : String) :
    Except UsageFault Path :=
  let path := here.resolve text
  match here.tree.stat path with
  | .error _ => .error (.invalidValue parameter s!"File {shownText text} does not exist.")
  | .ok .directory => .error (.invalidValue parameter s!"File {shownText text} is a directory.")
  | .ok (.file _) => .ok path

/-- A place where no file is. -/
def readDirectory (here : Surroundings) (parameter : Parameter) (text : String) :
    Except UsageFault Path :=
  let path := here.resolve text
  match here.tree.stat path with
  | .ok (.file _) => .error (.invalidValue parameter s!"Directory {shownText text} is a file.")
  | _ => .ok path

def readLanguage (parameter : Parameter) (label : String) : Except UsageFault Language :=
  match Language.ofLabel? label with
  | some language => .ok language
  | none =>
    let choices := join ", " (Language.all.map fun language => shownText language.label)
    .error (.invalidValue parameter s!"{shownText label} is not one of {choices}.")

/-- The value of a parameter, if it is given. -/
def Arguments.optional {α : Type} (arguments : Arguments) (parameter : Parameter)
    (read : Parameter → String → Except UsageFault α) : Except UsageFault (Option α) :=
  (arguments.text? parameter).mapM (read parameter)

/-- The value of a parameter that must be given. -/
def Arguments.required {α : Type} (arguments : Arguments) (parameter : Parameter)
    (read : Parameter → String → Except UsageFault α) : Except UsageFault α :=
  match arguments.text? parameter with
  | some text => read parameter text
  | none => .error (.missingParameter parameter)

/-- Whether what is given for a parameter is accepted. -/
def Arguments.check (here : Surroundings) (arguments : Arguments) (parameter : Parameter) :
    Except UsageFault Unit :=
  match parameter with
  | .file => discard (arguments.required parameter (readFile here))
  | .output => discard (arguments.required parameter (readDirectory here))
  | .language => discard (arguments.optional parameter readLanguage)
  | .config => discard (arguments.optional parameter (readFile here))
  | .nameLead | .force | .formatting | .verbose | .help => .ok ()

/-- Help is given whatever else is asked for. -/
def Request.ofArguments (here : Surroundings) (arguments : Arguments) :
    Except UsageFault Request := do
  if arguments.flag? .help = some true then return .help
  arguments.order.forM (arguments.check here)
  if !arguments.plain.isEmpty then throw (.extraArguments arguments.plain)
  return .generate {
    file := ← arguments.required .file (readFile here)
    output := ← arguments.required .output (readDirectory here)
    language := ← arguments.optional .language readLanguage
    config := ← arguments.optional .config (readFile here)
    nameLead := arguments.text? .nameLead
    force := (arguments.flag? .force).getD true
    formatting := (arguments.flag? .formatting).getD false
    verbose := (arguments.flag? .verbose).getD false }

def Request.read (here : Surroundings) (arguments : List String) : Except UsageFault Request := do
  Request.ofArguments here (← Arguments.read arguments)

end SchemaModules.CommandLine
