import SchemaModules.Fault
import SchemaModules.Registry.Basic

/-!
# Validators

A registry does not check instances itself. It hands its documents to a validator, together with a
schema that refers to the document asked for, and the validator follows the references from there.
-/

namespace SchemaModules

/-- Documents under the names by which references lead to them. -/
abbrev Documents := List (String × Json)

/-- Tells whether an instance satisfies a schema. A check that cannot be carried out has a fault. -/
abbrev Validator := (documents : Documents) → (schema value : Json) → Except Fault Bool

namespace Registry

/-- The schema of all instances of a registered definition. -/
def referenceTo (name : String) : Json := .obj [("$ref", .str (name ++ "#"))]

def isValid (registry : Registry) (validator : Validator) (name : String) (value : Json) :
    Except Fault Bool :=
  if registry.contains name then validator registry.documents (referenceTo name) value
  else .error (.notRegistered name)

/-- Refuses an instance that does not satisfy the registered document. -/
def validate (registry : Registry) (validator : Validator) (name : String) (value : Json) :
    Except Fault Unit := do
  if ← registry.isValid validator name value then return () else throw .violation

end Registry

end SchemaModules
