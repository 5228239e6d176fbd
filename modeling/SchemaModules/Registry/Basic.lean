import SchemaModules.Json.Basic

/-!
# Registries of documents

A registry keeps documents under the names of their definitions, in the order of registration. A
document that is there is never replaced. A name is claimed while its registration runs, so that
definitions that refer to each other register each other once.
-/

namespace SchemaModules

structure Registry where
  documents : List (String × Json) := []
  /-- The names whose registration runs. -/
  inProgress : List String := []
  deriving Inhabited

namespace Registry

/-- The registered names, in order. -/
def names (registry : Registry) : List String := registry.documents.map Prod.fst

def document? (registry : Registry) (name : String) : Option Json :=
  registry.documents.lookup name

def contains (registry : Registry) (name : String) : Bool := registry.names.contains name

/-- Registers a document unless the name is taken. -/
def add (registry : Registry) (name : String) (document : Json) : Registry :=
  if registry.contains name then registry
  else { registry with documents := registry.documents ++ [(name, document)] }

/-- Claims a name, unless it is registered or claimed already. -/
def claim? (registry : Registry) (name : String) : Option Registry :=
  if registry.contains name || registry.inProgress.contains name then none
  else some { registry with inProgress := name :: registry.inProgress }

def release (registry : Registry) (name : String) : Registry :=
  { registry with inProgress := registry.inProgress.filter (· != name) }

end Registry

end SchemaModules
