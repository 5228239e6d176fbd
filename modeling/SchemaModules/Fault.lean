import SchemaModules.Json.Reader
import SchemaModules.Text.Utf8

/-!
# What can go wrong

Every refusal of the library is a value of `Fault`, made where the cause arises; its wording is
here.
-/

namespace SchemaModules

open Text

/-- Why two definitions, or one alone, cannot be placed in the module tree. Names and paths are
texts; a path is the segments joined by slashes. -/
inductive PlacementConflict
  | emptyPath (name : String)
  | directoryIsModule (name path owner : String)
  | moduleIsDirectory (name path : String)
  | samePath (first second path : String)

def PlacementConflict.message : PlacementConflict → String
  | emptyPath name => s!"Definition {shownText name} has an empty output path"
  | directoryIsModule name path owner =>
    s!"Definition {shownText name} needs directory {shownText path}, which is the module of " ++
      shownText owner
  | moduleIsDirectory name path =>
    s!"Module of definition {shownText name} collides with directory {shownText path}"
  | samePath first second path =>
    s!"Definitions {shownText first} and {shownText second} map to the same module " ++
      shownText path

inductive FileCause
  | missing
  | busy
  | present
  | notADirectory
  | isADirectory

def FileCause.message : FileCause → String
  | missing => "[Errno 2] No such file or directory"
  | busy => "[Errno 16] Device or resource busy"
  | present => "[Errno 17] File exists"
  | notADirectory => "[Errno 20] Not a directory"
  | isADirectory => "[Errno 21] Is a directory"

inductive Fault
  /-- The document has no mapping of definitions. -/
  | missingDefinitions
  | placement (conflict : PlacementConflict)
  /-- A module about to be written is no source text of its language. -/
  | invalidSource
  | unsupportedLanguage (shown : String)
  | invalidMode (shown : String)
  | targetExists (path : String)
  | notRegistered (name : String)
  | unreadable (fault : Json.ReadFault)
  | undecodable (fault : Utf8Fault)
  | file (cause : FileCause) (path : String)
  /-- A value of a kind that the operation does not take. -/
  | unusableValue
  /-- A part is asked of a value that has no such part. -/
  | missingPart
  /-- The module path has no last segment. -/
  | emptyModulePath
  /-- Segments are asked for without any separator. -/
  | noSeparators
  /-- A relative path is asked for to a place that is not given. -/
  | noTargetPath
  /-- The instance does not satisfy the schema. -/
  | violation
  | unknownType
  | unresolvedReference
  /-- A reference points into a list by something that is no index. -/
  | invalidIndex
  /-- A schema leads back to itself without looking at a smaller part of the instance, or a
  constructor does nothing but call itself. -/
  | circularSchema
  | divisionByZero
  | moduleNotFound
  | nameNotExported
  | unboundName
  /-- Something that is no JSON value, such as a class, would have to stand for one. -/
  | foreignValue
  /-- More calls run inside each other than there are functions to call. -/
  | callsTooDeep

/-- The wording of those refusals that have one. -/
def Fault.message? : Fault → Option String
  | missingDefinitions => some "Input document has no 'definitions' mapping"
  | placement conflict => some conflict.message
  | unsupportedLanguage shown => some s!"Language not supported: {shown}"
  | invalidMode shown => some s!"{shown} is not a valid OutputMode"
  | targetExists path => some s!"Output file already exists: {path}. Use --force to overwrite."
  | notRegistered name => some s!"Schema not registered: {name}"
  | unreadable fault => some fault.message
  | undecodable fault => some fault.message
  | file cause path => some s!"{cause.message}: {shownText path}"
  | invalidSource => some "Generated Python code is not valid:"
  | _ => none

end SchemaModules
