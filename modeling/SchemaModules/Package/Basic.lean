import SchemaModules.ModuleTree
import SchemaModules.Output.Publish
import SchemaModules.Package.Value
import SchemaModules.Registry.Validator
import SchemaModules.Target.PythonBinding

/-!
# Loaded packages

What the modules of a written package do once they are loaded: they export names, hold documents,
register them together with those they refer to, and make instances.
-/

namespace SchemaModules

open Naming Python

/-- A package that has been written and can be loaded. -/
structure Package where
  config : Config
  tree : ModuleTree
  definitions : List (String × Definition)

namespace Package

def definedIn (config : Config) :
    List (String × Json) → Except Fault (List (String × Definition))
  | [] => .ok []
  | (name, schema) :: rest => do
    if ← config.ignores name then definedIn config rest
    else
      let definition ← Output.analyze config name schema
      return (name, definition) :: (← definedIn config rest)

def of (config : Config) (definitions : List (String × Json)) : Except Fault Package := do
  let defined ← definedIn config definitions
  match ModuleTree.build (defined.map fun (name, definition) => (name, definition.names.path)) with
  | .ok tree => return ⟨config, tree, defined⟩
  | .error conflict => throw (.placement conflict)

/-- What is loaded from a path. -/
inductive Place
  | definition (definition : Definition)
  /-- A directory, or its index module. -/
  | directory (index : ModuleTree.Index)
  /-- A support module, which holds nothing of a definition. -/
  | support

/-- The modules at the root that hold no definition, whatever the document says. -/
def supportPaths : List (List String) := [registryModule, baseModule]

/-- The name of the index module of a directory. -/
def indexModule : String := "__init__"

/-- The index that is loaded from a path: that of the directory there, or the index module
itself. -/
def indexAt? (tree : ModuleTree) (path : List String) : Option ModuleTree.Index :=
  let inside := if path.getLast? == some indexModule then tree.directory? path.dropLast else none
  match tree.directory? path, inside with
  | some directory, _ => some (ModuleTree.indexOf path directory)
  | none, some directory => some (ModuleTree.indexOf path.dropLast directory)
  | none, none => none

def load (package : Package) (path : List String) : Except Fault Place :=
  if supportPaths.contains path then .ok .support
  else
    match indexAt? package.tree path with
    | some index => .ok (.directory index)
    | none =>
      match (package.tree.find? path).bind (package.definitions.lookup ·) with
      | some definition => .ok (.definition definition)
      | none => .error .moduleNotFound

/-- The definition in whose module a name is looked up. -/
def definitionNamed (package : Package) (name : String) : Except Fault Definition := do
  let some lead := Config.leadText? package.config.definitionLead | throw .unusableValue
  match ← package.load (modulePath package.config.language lead name) with
  | .definition definition => return definition
  | .directory _ | .support => throw .missingPart

/-- What a name stands for in the module of a definition. -/
def bindingIn (definition : Definition) (name : String) : Option Binding :=
  (Module.of definition).binding? name

/-- Whether a name has a meaning in the module of a definition. -/
def isBoundIn (definition : Definition) (name : String) : Bool :=
  (bindingIn definition name).isSome

/-! ## Registration -/

/-- The names that an index binds, in the order of its statements, each with the definition whose
module exports it. Beside these, it binds the modules and packages of its directory themselves. -/
def indexBindings (package : Package) (index : ModuleTree.Index) :
    List (String × Option Definition) :=
  index.modules.flatMap (fun segment =>
    let path := index.path ++ [segment]
    let definition? := (package.tree.find? path).bind (package.definitions.lookup ·)
    (segment, none) :: ((definition?.map fun definition =>
      (exports definition.names).map (·, some definition)).getD [])) ++
  index.packages.map (·, none)

/-- The definition whose module gives a name its meaning where it is imported from. -/
def exporter? (package : Package) (name : String) : Place → Option Definition
  | .definition definition => some definition
  | .directory index => ((package.indexBindings index).reverse.lookup name).join
  | .support => none

/-- The definition whose registering function is imported for a dependency. An import of anything
else under the name of that function is taken as one that fails. -/
def importFor (package : Package) (dependency : Names) : Except Fault Definition := do
  let place ← package.load dependency.path
  match package.exporter? dependency.addSchemaName place with
  | none => throw .nameNotExported
  | some definition =>
    match bindingIn definition dependency.addSchemaName with
    | some .registration => return definition
    | _ => throw .nameNotExported

/-- The functions that a module imports before it registers anything, under their names. -/
def importAll (package : Package) : List Names → Except Fault (List (String × Definition))
  | [] => .ok []
  | dependency :: rest => do
    let definition ← package.importFor dependency
    return (dependency.addSchemaName, definition) :: (← package.importAll rest)

/-- The functions called for the dependencies. Of several imports under one name the last one is
called each time. -/
def calledFor (imports : List (String × Definition)) : List Definition :=
  imports.filterMap fun (name, _) => imports.reverse.lookup name

/-- What is registered for a definition. If a function was imported under the name of the document,
it is the function that is registered, which is no schema. -/
def registered (definition : Definition) (imports : List (String × Definition)) : Json :=
  match imports.lookup definition.names.schemaName with
  | some _ => .null
  | none => definition.document

/-- The fault of a call that makes no instance of what was called. -/
def callFault : Binding → Fault
  | .hint .text false | .hint .truth false => .missingPart
  | _ => .unusableValue

/-- The fault that ends a registering function whose module has another meaning for the function
that finds the registry. -/
def registryFault? (definition : Definition) (registry : Registry) : Option Fault :=
  match bindingIn definition getRegistryName with
  | some (.support _) => none
  | some .valueClass =>
    match kindMembers (isBoundIn definition) definition.kind with
    | .error fault => some fault
    | .ok _ => some (if registry.documents.isEmpty then .missingPart else .unusableValue)
  | some binding => some (callFault binding)
  | none => some .unboundName

/-- The fault that ends a registering function whose module has another meaning for the function
that adds a document. -/
def additionFault? (definition : Definition) : Option Fault :=
  match bindingIn definition addDocumentName with
  | some (.support _) => none
  | _ => some .unusableValue

/-- A registry after a call, and how the call ended. -/
abbrev Outcome := Registry × Except Fault Unit

/-- Calls functions in order until one fails. -/
def callAll (call : Definition → Registry → Outcome) : List Definition → Registry → Outcome
  | [], registry => (registry, .ok ())
  | definition :: rest, registry =>
    match call definition registry with
    | (registry, .ok ()) => callAll call rest registry
    | (registry, .error fault) => (registry, .error fault)

/-- What a registering function does after it claimed the name: it imports the functions of all
dependencies, calls them in order and adds the document. -/
def registerClaimed (package : Package) (call : Definition → Registry → Outcome)
    (definition : Definition) (registry : Registry) : Outcome :=
  match package.importAll definition.dependencies with
  | .error fault => (registry, .error fault)
  | .ok imports =>
    match callAll call (calledFor imports) registry with
    | (registry, .error fault) => (registry, .error fault)
    | (registry, .ok ()) =>
      match additionFault? definition with
      | some fault => (registry, .error fault)
      | none => (registry.add definition.names.name (registered definition imports), .ok ())

/-- The registering function of a definition. It does nothing for a name that is registered or
claimed already; a claim is released however the registration ends. Each call within a call claims
another name, so with more fuel than there are definitions no call is left without any. -/
def registerWithin (package : Package) : (fuel : Nat) → Definition → Registry → Outcome
  | 0, _, registry => (registry, .error .callsTooDeep)
  | fuel + 1, definition, registry =>
    match registryFault? definition registry with
    | some fault => (registry, .error fault)
    | none =>
      match registry.claim? definition.names.name with
      | none => (registry, .ok ())
      | some claimed =>
        let (registry, outcome) :=
          package.registerClaimed (package.registerWithin fuel) definition claimed
        (registry.release definition.names.name, outcome)

/-- Registers a definition and all it refers to. -/
def register (package : Package) (definition : Definition) (registry : Registry) : Outcome :=
  package.registerWithin (package.definitions.length + 1) definition registry

/-! ## Instances -/

/-- What calling the class name of a definition makes. -/
inductive Instance
  | value (value : Value)
  /-- A plain mapping, made by a type that stands under the class name. -/
  | mapping (members : List (String × Json))

def Instance.members : Instance → List (String × Json)
  | value made => made.members
  | mapping entries => entries

def Instance.text : Instance → String
  | value made => made.text
  | mapping entries => (Json.obj entries).shown

/-- The name under which a constructor with version and kind finds the constructor of the base. -/
def baseConstructorName : String := "super"

/-- Whether a constructor calls itself for the constructor of the base. Only a constructor with
version and kind calls one, and its module may have another meaning for the name of it. -/
def callsItself (definition : Definition) : Bool :=
  definition.kind.isSome && isBoundIn definition baseConstructorName

/-- Makes an instance from data and named arguments. -/
def construct (definition : Definition) (data : Json) (named : List (String × Json)) :
    Except Fault Instance :=
  match bindingIn definition definition.names.className with
  | some .valueClass => do
    if callsItself definition && !repeatsPosition named then throw .circularSchema
    return .value ⟨definition.names.className,
      ← newMembers (isBoundIn definition) definition.kind data named⟩
  | some .record | some (.hint (.dict _) false) =>
    match data with
    | .obj members => .ok (.mapping (override members named))
    | _ => .error .unusableValue
  | some binding => .error (callFault binding)
  | none => .error .missingPart

/-- Registers the definition of an instance, then checks the instance against it. -/
def validate (package : Package) (validator : Validator) (definition : Definition)
    (made : Instance) (registry : Registry) : Outcome :=
  match made with
  | .mapping _ => (registry, .error .missingPart)
  | .value value =>
    match package.register definition registry with
    | (registry, .ok ()) =>
      (registry, registry.validate validator definition.names.name (.obj value.members))
    | failed => failed

end Package

end SchemaModules
