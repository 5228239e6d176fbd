import SchemaModules.Schema.TypeExpr

/-!
# References of a definition

References are looked for through mappings only: a list never carries a reference to another
definition. The dependencies of a definition are the definitions referred to, itself excepted, in
the order in which they first occur.
-/

namespace SchemaModules.Schema

mutual

/-- The targets of the references that the value of the member `key` is or leads to through
mappings, in order. -/
def targetsAt (key : String) : Json → List String
  | .obj members => memberTargets members
  | .str target => if key = "$ref" then [target] else []
  | _ => []

def memberTargets : List (String × Json) → List String
  | [] => []
  | (key, value) :: rest => targetsAt key value ++ memberTargets rest

end

/-- The targets of all references of a schema that are reached through mappings, in order. -/
def referenceTargets (schema : Json) : List String := memberTargets schema.members

/-- The definitions that a schema refers to, in order and with repetitions. -/
def referencedNames (lead : String) (schema : Json) : List String :=
  (referenceTargets schema).map (referenceTarget lead)

/-- The first occurrence of each name but `own`. -/
def othersOnce (own : String) (names : List String) : List String :=
  (names.filter (· != own)).eraseDups

def dependencies (lead name : String) (schema : Json) : List String :=
  othersOnce name (referencedNames lead schema)

end SchemaModules.Schema
