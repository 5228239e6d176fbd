import SchemaModules.Text.Quoted
import SchemaModules.Text.Split

/-!
# Parameters of the command line

The parameters in the order of their declaration, the switches that set them, and the help text.
-/

namespace SchemaModules.CommandLine

open Text

inductive Parameter
  | file
  | output
  | language
  | config
  | nameLead
  | force
  | formatting
  | verbose
  | help
  deriving DecidableEq, Repr

/-- What a switch does: it takes a value, or turns its parameter on or off. -/
inductive Effect
  | takesValue
  | turnsOn
  | turnsOff
  deriving DecidableEq, Repr

def switches : List (String × Parameter × Effect) := [
  ("--file", .file, .takesValue), ("-f", .file, .takesValue),
  ("--output", .output, .takesValue), ("-o", .output, .takesValue),
  ("--language", .language, .takesValue), ("-l", .language, .takesValue),
  ("--config", .config, .takesValue), ("-c", .config, .takesValue),
  ("--prefix", .nameLead, .takesValue),
  ("--force", .force, .turnsOn), ("--no-force", .force, .turnsOff),
  ("--format", .formatting, .turnsOn),
  ("--verbose", .verbose, .turnsOn), ("-v", .verbose, .turnsOn),
  ("--help", .help, .turnsOn)]

namespace Parameter

def all : List Parameter :=
  [file, output, language, config, nameLead, force, formatting, verbose, help]

/-- The switches that set a parameter, the long one first. -/
def names (parameter : Parameter) : List String :=
  (switches.filter fun (_, set, _) => set == parameter).map Prod.fst

/-- How messages refer to a parameter. -/
def hint (parameter : Parameter) : String := join " / " (parameter.names.map shownText)

end Parameter

def helpText : String := unlines [
  "Usage: k8s_schema_to_code [OPTIONS]",
  "",
  "  Generate one module per definition of an OpenAPI/Kubernetes spec.",
  "",
  "Options:",
  "  -f, --file FILE             Path of the OpenAPI spec  [required]",
  "  -o, --output DIRECTORY      Output directory  [required]",
  "  -l, --language [python|ts]  Target language (default: python)",
  "  -c, --config FILE",
  "  --prefix TEXT               Definition name prefix stripped from output paths",
  "  --force / --no-force        Overwrite existing output files",
  "  --format                    Format generated Python code with black",
  "  -v, --verbose",
  "  --help                      Show this message and exit."]

end SchemaModules.CommandLine
