import SchemaModules.Schema.TypeExpr

/-!
# Registry documents

The document that a registry keeps for a definition is its schema without documentation, in which
each reference is the flat key of the definition it points to. Inside lists only documentation is
removed.
-/

namespace SchemaModules.Schema

/-- Descriptions and vendor annotations document a schema and say nothing about its instances. -/
def isDocumentation (key : String) : Bool :=
  key == "description" || "x-kubernetes-".toList.isPrefixOf key.toList

/-- The key under which a registry resolves a reference. -/
def registryKey (lead target : String) : String := referenceTarget lead target ++ "#"

mutual

/-- A value without documentation at any depth. -/
def withoutDocumentation : Json → Json
  | .obj members => .obj (membersWithoutDocumentation members)
  | .arr items => .arr (itemsWithoutDocumentation items)
  | value => value

def membersWithoutDocumentation : List (String × Json) → List (String × Json)
  | [] => []
  | (key, value) :: rest =>
    if isDocumentation key then membersWithoutDocumentation rest
    else (key, withoutDocumentation value) :: membersWithoutDocumentation rest

def itemsWithoutDocumentation : List Json → List Json
  | [] => []
  | item :: rest => withoutDocumentation item :: itemsWithoutDocumentation rest

end

mutual

/-- The value of the member `key` in a registry document. -/
def documentMember (lead key : String) : Json → Json
  | .obj members => .obj (documentMembers lead members)
  | .str text => if key = "$ref" then .str (registryKey lead text) else .str text
  | value => withoutDocumentation value

def documentMembers (lead : String) : List (String × Json) → List (String × Json)
  | [] => []
  | (key, value) :: rest =>
    if isDocumentation key then documentMembers lead rest
    else (key, documentMember lead key value) :: documentMembers lead rest

end

/-- The definition whose declared type, a text, leaves out the whole numbers it stands for. -/
def intOrStringName : String := "io.k8s.apimachinery.pkg.util.intstr.IntOrString"

def intOrStringDocument : Json :=
  .obj [("oneOf", .arr [
    .obj [("type", .str "string")],
    .obj [("type", .str "integer"), ("format", .str "int32")]])]

/-- The registry document of a definition. A schema that is no mapping constrains nothing. -/
def registryDocument (lead name : String) (schema : Json) : Json :=
  if name = intOrStringName then intOrStringDocument
  else
    match schema with
    | .obj members => .obj (documentMembers lead (withRootType members))
    | _ => .obj []

end SchemaModules.Schema
