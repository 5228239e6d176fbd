import SchemaModules.Target.PythonModule

/-!
# Names at the top of a Python module

What each name at the top of a loaded module stands for. A name takes its meaning from the last
statement that binds it, so an alias may capture a name that stood for something else before.
-/

namespace SchemaModules.Python

open Naming Schema Text

inductive Binding
  | typing (name : TypingName)
  /-- A name taken from a support module. -/
  | support (name : String)
  | record
  | hint (hint : TypeHint) (quoted : Bool)
  /-- The registry document of the module. -/
  | document
  /-- The function that registers the document. -/
  | registration
  | valueClass

/-- The name of the function of the registry module that finds the registry to work on. -/
def getRegistryName : String := "get_registry"

/-- The name of the function of the registry module that adds a document. -/
def addDocumentName : String := "add_schema"

/-- The meaning of a name after a sequence of bindings. -/
def bindingOf? (bindings : List (String × Binding)) (name : String) : Option Binding :=
  bindings.reverse.lookup name

def Declaration.binding : Declaration → Binding
  | .record _ => .record
  | .alias _ hint quoted => .hint hint quoted

/-- What the names bound before the aliases stand for, in the order of the statements. -/
def Module.declared (m : Module) : List (String × Binding) :=
  let names := m.definition.names
  let interface := m.interface.binding
  (TypingName.all.filter m.imports.contains).map (fun name => (name.text, .typing name)) ++
    (if m.definition.isObject then [("BaseModel", .support "BaseModel")] else []) ++
    ["SchemaRegistry", addDocumentName, getRegistryName].map (fun name => (name, .support name)) ++
    m.nested.map (fun record => (record.name, .record)) ++
    [(names.interfaceName, interface), (names.schemaName, .document),
      (names.addSchemaName, .registration),
      (names.className, if m.definition.isObject then .valueClass else interface)]

/-- Binds a name to what another name stands for. -/
def bindAlias (bindings : List (String × Binding)) (short long : String) :
    List (String × Binding) :=
  match bindingOf? bindings long with
  | some binding => bindings ++ [(short, binding)]
  | none => bindings

/-- What all names at the top of the loaded module stand for. -/
def Module.bindings (m : Module) : List (String × Binding) :=
  (aliases m.definition.names).foldl (fun bindings (short, long) => bindAlias bindings short long)
    m.declared

def Module.binding? (m : Module) (name : String) : Option Binding := bindingOf? m.bindings name

end SchemaModules.Python
