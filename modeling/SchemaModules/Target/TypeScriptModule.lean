import SchemaModules.Definition
import SchemaModules.Json.Text
import SchemaModules.Target.Comment
import SchemaModules.Target.TypeScriptImport

/-!
# TypeScript modules

A definition becomes a module that declares its interface or type, a class for an object, the
registry document, and a function that registers the document after those it refers to. Types are
anonymous, so nested records stand in place.
-/

namespace SchemaModules.TypeScript

open Naming Schema Text

def primitiveType : Primitive → String
  | .string => "string"
  | .number => "number"
  | .boolean => "boolean"
  | .null => "null"

def remark (comment : Option String) : String :=
  match comment.filter (!·.isEmpty) with
  | some text => Target.blockComment text
  | none => ""

mutual

def typeText : TypeExpr → String
  | .any => "any"
  | .primitive primitive => primitiveType primitive
  | .textOrNumber => "string | number"
  | .reference name => interfaceName name
  | .array item => "Array<" ++ typeText item ++ ">"
  | .object fields index => "\x7b\n" ++ fieldTexts fields ++ indexText index ++ "\x7d"

/-- The fields in order, each with its comment before it. -/
def fieldTexts : List (Field × TypeExpr) → String
  | [] => ""
  | (field, type) :: rest =>
    remark field.comment ++ doubleQuoted field.name ++ (if field.required then "" else "?") ++
      ": " ++ typeText type ++ ";\n" ++ fieldTexts rest

/-- The signature of all keys that are no fields. -/
def indexText : Option TypeExpr → String
  | none => ""
  | some type => "[key: string]: " ++ typeText type ++ ";\n"

end

/-- The module with the registry of documents. -/
def registryModule : List String := ["ajv"]

/-- The module with the base of value classes. -/
def baseModule : List String := ["base"]

/-- The members of a class without the closing brace: those of the interface, if any. -/
def classMembers (type : TypeExpr) : String :=
  let body := dropTrailing ['\x7d'] (strip (typeText type).toList)
  String.ofList (dropEndWhile (· == '\n') body)

/-- The constructor of a class whose definition has a kind. -/
def constructor (names : Names) (kind : GroupVersionKind) : List String := [
  "",
  "constructor(data?: " ++ names.interfaceName ++ ") \x7b",
  "  super(\x7b",
  "    apiVersion: " ++ kind.apiVersion.compact ++ ",",
  "    kind: " ++ kind.kind.compact ++ ",",
  "    ...data",
  "  \x7d as any);",
  "\x7d"]

def classBody (definition : Definition) : String :=
  let names := definition.names
  join "\n" (
    [classMembers definition.type,
      "",
      "/** @internal */",
      "protected [SCHEMA_ID] = " ++ doubleQuoted names.name ++ ";",
      "",
      "/** @internal */",
      "protected [ADD_SCHEMA] = " ++ names.addSchemaName ++ ";"] ++
    (match definition.kind with
      | some kind => constructor names kind
      | none => []) ++
    ["\x7d"])

def dependencyImport (names dependency : Names) : Except Fault (List String) := do
  let path ← relativeImport names.path dependency.path
  return ["import \x7b", dependency.interfaceName ++ ",", dependency.addSchemaName,
    "\x7d from \"" ++ path ++ "\";"]

/-- A line of a module, with the name that it exports if it exports one. -/
structure Line where
  text : String
  exported? : Option String := none

/-- Lines that export nothing. -/
def plainLines (texts : List String) : List Line := texts.map fun text => { text }

/-- The exported declaration of a name, behind a comment. -/
def Line.declare (comment keyword name rest : String) : Line :=
  ⟨comment ++ "export " ++ keyword ++ name ++ rest, some name⟩

/-- A further name for what is declared. -/
def Line.rename (long short : String) : Line :=
  ⟨"export \x7b " ++ long ++ " as " ++ short ++ " \x7d;", some short⟩

/-- The types that a module declares: interface and class of an object, else two type names. -/
def declarations (definition : Definition) (basePath : String) : List Line :=
  let names := definition.names
  let comment := remark definition.description
  let type := typeText definition.type
  if definition.isObject then
    plainLines ["import \x7b BaseModel, SCHEMA_ID, ADD_SCHEMA \x7d from \"" ++ basePath ++ "\";",
      ""] ++
    [.declare comment "interface " names.interfaceName (" " ++ type)] ++ plainLines [""] ++
    [.declare comment "class " names.className (" extends BaseModel<" ++ names.interfaceName ++
      "> implements " ++ names.interfaceName ++ " " ++ classBody definition)]
  else
    plainLines [""] ++ [.declare comment "type " names.interfaceName (" = " ++ type ++ ";")] ++
    plainLines [""] ++
    [.declare comment "type " names.className (" = " ++ names.interfaceName ++ ";")]

/-- The function that registers the dependencies and then the definition itself, unless the
definition is registered or about to be. -/
def addSchemaFunction (definition : Definition) : List Line :=
  let names := definition.names
  let name := doubleQuoted names.name
  plainLines ["/** @internal */"] ++
  [.declare "" "function " names.addSchemaName
    "(registry: SchemaRegistry = defaultRegistry): void \x7b"] ++
  plainLines (
    ["  if (!registry.begin(" ++ name ++ ")) return;",
      "  try \x7b"] ++
    definition.dependencies.map (fun dependency =>
      "    " ++ dependency.addSchemaName ++ "(registry);") ++
    ["    addSchema(" ++ name ++ ", " ++ names.schemaName ++ ", registry);",
      "  \x7d finally \x7b",
      "    registry.end(" ++ name ++ ");",
      "  \x7d",
      "\x7d"])

/-- Short names exported for the names they stand for, unless they are the same. -/
def aliases (names : Names) : List (String × String) :=
  [(names.shortInterfaceName, names.interfaceName),
    (names.shortClassName, names.className)].filter fun (short, long) => short != long

/-- The short names. An empty line stands before that of the interface. -/
def aliasExports (names : Names) : List Line :=
  (if names.shortInterfaceName = names.interfaceName then [] else plainLines [""]) ++
    (aliases names).map fun pair => .rename pair.2 pair.1

/-- The names that a module exports. -/
def exports (names : Names) : List String :=
  [names.interfaceName, names.className, names.schemaName, names.addSchemaName] ++
    (aliases names).map Prod.fst

def header (comment : String) : List String := if comment.isEmpty then [] else [comment]

/-- The lines of a module, once the paths of its imports are known. -/
def moduleLines (definition : Definition) (comment registryPath basePath : String)
    (imports : List (List String)) : List Line :=
  let names := definition.names
  plainLines (
    header comment ++
    ["import \x7b addSchema, defaultRegistry, SchemaRegistry \x7d from \"" ++ registryPath ++
      "\";"] ++
    imports.flatten) ++
  declarations definition basePath ++
  plainLines ["", "/** @internal */"] ++
  [.declare "" "const " names.schemaName
    (": object = " ++ definition.document.indented 0 ++ ";")] ++
  plainLines [""] ++ addSchemaFunction definition ++ aliasExports names

def render (definition : Definition) (comment : String) : Except Fault String := do
  let names := definition.names
  let imports ← definition.dependencies.mapM (dependencyImport names)
  let registryPath ← relativeImport names.path registryModule
  let basePath ← relativeImport names.path baseModule
  let lines := moduleLines definition comment registryPath basePath imports
  return unlines (lines.map Line.text)

/-- The name under which a directory is exported. -/
def packageAlias (package : String) : String :=
  String.ofList (camelCase (· == '-') package.toList)

/-- The module that re-exports the modules and packages of a directory. -/
def renderIndex (comment : String) (modules packages : List String) : String :=
  unlines (
    header comment ++
    modules.map (fun name => "export * from \"./" ++ name ++ "\";") ++
    packages.flatMap (fun name => [
      "import * as " ++ packageAlias name ++ " from \"./" ++ name ++ "\";",
      "export \x7b " ++ packageAlias name ++ " \x7d;"]))

end SchemaModules.TypeScript
