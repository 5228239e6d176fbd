import SchemaModules.Config
import SchemaModules.Text.Case

/-!
# Formatting

Python modules can be formatted before they are written. The formatter is a library of its own,
which need not be installed; without it, or if it does not take a text for Python, the text stays as
it is.
-/

namespace SchemaModules.Output

open Text

/-- How the formatter answers. -/
inductive FormatterAnswer
  | text (content : String)
  /-- The text is not taken for Python. -/
  | rejected
  | failed (fault : Fault)

/-- What the library uses of the formatter. -/
structure Formatter where
  /-- Whether a name is that of a version of Python. -/
  isVersion : (name : String) → Bool
  /-- Formats a text for a version, or for any, with lines up to a length. -/
  format : (version : Option String) → (lineLength : Json) → (content : String) → FormatterAnswer

/-- The version to format for. A name that is that of no version says nothing. -/
def Formatter.version? (formatter : Formatter) (target : Json) : Except Fault (Option String) :=
  if target.isTruthy then
    match target with
    | .str name =>
      let name := String.ofList (name.toList.flatMap upperChar)
      .ok (if formatter.isVersion name then some name else none)
    | _ => .error .missingPart
  else .ok none

/-- Formats a text if a formatter is installed. -/
def format (formatter : Option Formatter) (settings : FormatterSettings) (content : String) :
    Except Fault String :=
  match formatter with
  | none => .ok content
  | some formatter => do
    let version ← formatter.version? settings.targetVersion
    match formatter.format version settings.lineLength content with
    | .text content => return content
    | .rejected => return content
    | .failed fault => throw fault

/-- The content of a generated file. Only Python modules are formatted, hence only they need
formatter settings. -/
def formatted (formatter : Option Formatter) (config : Config) (content : String) :
    Except Fault String :=
  match config.language, config.formatter with
  | .typescript, _ => .ok content
  | .python, none => .error .missingPart
  | .python, some settings =>
    if settings.enabled.isTruthy then format formatter settings content else .ok content

end SchemaModules.Output
