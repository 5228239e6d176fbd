import SchemaModules.Definition
import SchemaModules.Json.Text
import SchemaModules.Target.PythonHint
import SchemaModules.Target.PythonImport

/-!
# Python modules

A definition becomes a module that declares its type, holds its registry document, registers the
document after those it refers to, and, for an object, defines a value class. The short names of
the definition are added as aliases.
-/

namespace SchemaModules.Python

open Naming Schema Text

/-- The module with the registry of documents. -/
def registryModule : List String := ["_registry"]

/-- The module with the base of value classes. -/
def baseModule : List String := ["_base"]

/-- What the interface name of a definition stands for. -/
inductive Declaration
  | record (record : Record)
  | alias (name : String) (hint : TypeHint) (quoted : Bool)

def Declaration.render : Declaration → String
  | .record declared => declared.render
  | .alias name hint quoted => name ++ ": TypeAlias = " ++ renderHint quoted hint

/-- The parts of a module that depend on its declarations. -/
structure Module where
  definition : Definition
  imports : List TypingName
  /-- Records declared before the interface, in order. -/
  nested : List Record
  interface : Declaration

/-- Declares the interface of a definition. An object without fields is a mapping, since a record
without fields would admit no keys. -/
def declareInterface (definition : Definition) (scope : Scope) : Declaration × Scope :=
  let name := definition.names.interfaceName
  let quoted := !definition.type.references.isEmpty
  let asAlias : Declaration × Scope :=
    let (hint, scope) := hintOf ("_" ++ name) (scope.needs .typeAlias) definition.type
    (.alias name hint quoted, scope)
  match definition.type with
  | .object (field :: fields) index =>
    let reserved := { scope with reserved := name :: scope.reserved }
    let (record, scope) := recordOf name reserved (field :: fields) index
    (.record record, scope)
  | _ => asAlias

/-- Begins a module. Nothing that was declared before it stays. -/
def Scope.restart (scope : Scope) : Scope :=
  { scope with reserved := [], records := [], imports := [.any] }

/-- Declares the module of a definition, in a scope that may have served for others before. -/
def Module.declare (definition : Definition) (scope : Scope) : Module × Scope :=
  let (interface, scope) := declareInterface definition scope.restart
  let imports :=
    if definition.dependencies.isEmpty then scope.imports else .typeChecking :: scope.imports
  (⟨definition, imports, scope.records, interface⟩, { scope with imports })

/-- The module of a definition in a scope of its own. -/
def Module.of (definition : Definition) : Module := (Module.declare definition {}).1

/-- Short names bound to the names they stand for, unless they are the same. -/
def aliases (names : Names) : List (String × String) :=
  [(importable names.shortInterfaceName, names.interfaceName),
    (importable names.shortClassName, names.className)].filter fun (short, long) => short != long

/-- The names that a module exports. -/
def exports (names : Names) : List String :=
  ([names.interfaceName, names.className, names.schemaName, names.addSchemaName] ++
    (aliases names).map Prod.fst).eraseDups

/-- The package of a module. -/
def packageOf (names : Names) : List String := names.path.dropLast

def supportImports (definition : Definition) : List String :=
  let package := packageOf definition.names
  (if definition.isObject then
    ["from " ++ relativeModule package baseModule ++ " import BaseModel"]
  else []) ++
    ["from " ++ relativeModule package registryModule ++
      " import SchemaRegistry, add_schema, get_registry"]

/-- The line that imports a name from the module of a dependency. -/
def importFrom (definition : Definition) (imported : Names → String) (dependency : Names) :
    String :=
  "from " ++ relativeModule (packageOf definition.names) dependency.path ++ " import " ++
    imported dependency

def interfaceImports (definition : Definition) : List String :=
  if definition.dependencies.isEmpty then []
  else
    ["", "if TYPE_CHECKING:"] ++ definition.dependencies.map fun dependency =>
      indentOf 1 ++ importFrom definition Names.interfaceName dependency

/-- The function that registers the dependencies and then the definition itself, unless the
definition is registered or about to be. -/
def addSchemaFunction (definition : Definition) : List String :=
  let names := definition.names
  let name := doubleQuoted names.name
  let imports := definition.dependencies.map fun dependency =>
    indentOf 2 ++ importFrom definition Names.addSchemaName dependency
  let calls := definition.dependencies.map fun dependency =>
    indentOf 2 ++ dependency.addSchemaName ++ "(registry)"
  ["def " ++ names.addSchemaName ++ "(registry: SchemaRegistry | None = None) -> None:",
    "    registry = get_registry(registry)",
    "    with registry.registering(" ++ name ++ ") as claimed:",
    "        if not claimed:",
    "            return"] ++
  imports ++ (if imports.isEmpty then [] else [""]) ++ calls ++
  ["        add_schema(" ++ name ++ ", " ++ names.schemaName ++ ", registry)"]

/-- The constructor of a value class whose definition has a kind: version and kind are filled in
unless they are given. -/
def constructor (names : Names) (kind : GroupVersionKind) : List String := [
  "",
  "    def __init__(self, data: " ++ names.interfaceName ++
    " | None = None, **kwargs: Any) -> None:",
  "        super().__init__(",
  "            \x7b",
  "                \"apiVersion\": " ++ kind.apiVersion.compact ++ ",",
  "                \"kind\": " ++ kind.kind.compact ++ ",",
  "                **(data or \x7b\x7d),",
  "            \x7d,",
  "            **kwargs,",
  "        )"]

def valueClass (definition : Definition) : List String :=
  let names := definition.names
  let summary :=
    match definition.summary? with
    | some text => [indentOf 1 ++ docstring (indentOf 1) text, ""]
    | none => []
  ["class " ++ names.className ++ "(BaseModel):"] ++ summary ++
    ["    _schema_id = " ++ doubleQuoted names.name,
      "    _add_schema = staticmethod(" ++ names.addSchemaName ++ ")"] ++
    (match definition.kind with
      | some kind => constructor names kind
      | none => [])

/-- Value class of an object; for any other type the class name is another name of the type. -/
def classPart (definition : Definition) : List String :=
  if definition.isObject then valueClass definition
  else [definition.names.className ++ ": TypeAlias = " ++ definition.names.interfaceName]

def interfaceDeclaration (m : Module) : String :=
  let comments :=
    match m.definition.remark? with
    | some text => Target.lineComments "#" text
    | none => []
  join "\n" (comments ++ [m.interface.render])

def aliasPart (names : Names) : List String :=
  match aliases names with
  | [] => []
  | pairs => ["", ""] ++ pairs.map fun (short, long) => short ++ " = " ++ long

def header (comment : String) : List String := if comment.isEmpty then [] else [comment]

def Module.render (m : Module) (comment : String) : String :=
  let names := m.definition.names
  unlines (
    header comment ++
    ["from __future__ import annotations", ""] ++
    typingImport m.imports ++ [""] ++ supportImports m.definition ++
    interfaceImports m.definition ++
    (m.nested.map Record.render ++ [interfaceDeclaration m]).flatMap (["", "", ·]) ++
    ["", "", names.schemaName ++ ": dict[str, Any] = " ++ literal 0 m.definition.document] ++
    ["", ""] ++ addSchemaFunction m.definition ++
    ["", ""] ++ classPart m.definition ++
    aliasPart names ++
    ["", "", "__all__ = ["] ++
    (exports names).map (fun name => "    \"" ++ name ++ "\",") ++
    ["]"])

/-- The module that re-exports the modules and packages of a directory. -/
def renderIndex (comment : String) (modules packages : List String) : String :=
  unlines (
    header comment ++
    modules.map (fun name => "from ." ++ name ++ " import *  # noqa: F401,F403") ++
    packages.map (fun name => "from . import " ++ name ++ "  # noqa: F401"))

end SchemaModules.Python
