import SchemaModules.Json.Shown
import SchemaModules.Naming.Names
import SchemaModules.Schema.Document
import SchemaModules.Schema.References
import SchemaModules.Text.Blank

/-!
# Definitions

Everything that a generated module says about one definition. It depends on the definition's own
name and schema and on the conventions alone, so definitions can be taken in any order.
-/

namespace SchemaModules

open Naming Schema

/-- The conventions of a document and its output: the target language, what definition names begin
with before their path, and what references begin with before a definition name. -/
structure Conventions where
  language : Language
  nameLead : String
  referenceLead : String

def Conventions.names (conventions : Conventions) (name : String) : Names :=
  .of conventions.language conventions.nameLead name

structure Definition where
  names : Names
  type : TypeExpr
  /-- The document that a registry keeps. -/
  document : Json
  /-- The definitions to be registered before this one. -/
  dependencies : List Names
  isObject : Bool
  description : Option String
  kind : Option GroupVersionKind

/-- The dependencies of `name` among the given references. -/
def Conventions.dependencies (conventions : Conventions) (name : String)
    (references : List String) : List Names :=
  (othersOnce name references).map conventions.names

def Definition.of (conventions : Conventions) (name : String) (schema : Json) : Definition :=
  let lead := conventions.referenceLead
  let root := Root.ofSchema schema
  { names := conventions.names name
    type := .ofNode lead root.body
    document := registryDocument lead name schema
    dependencies := conventions.dependencies name (referencedNames lead schema)
    isObject := root.body.isObject
    description := root.body.description
    kind := root.kind }

/-- `group/version`, or the bare version of the core group. -/
def Schema.GroupVersionKind.apiVersion (kind : GroupVersionKind) : Json :=
  if kind.group.isTruthy then .str (kind.group.plain ++ "/" ++ kind.version.plain)
  else kind.version

/-- A description without its outer blanks; nothing when that leaves nothing. -/
def Definition.summary? (definition : Definition) : Option String :=
  match definition.description with
  | none => none
  | some text =>
    let stripped := String.ofList (Text.strip text.toList)
    if stripped.isEmpty then none else some stripped

/-- The description, unless it is empty. -/
def Definition.remark? (definition : Definition) : Option String :=
  definition.description.filter (!·.isEmpty)

end SchemaModules
