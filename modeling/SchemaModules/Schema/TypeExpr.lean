import SchemaModules.Schema.Node
import SchemaModules.Text.Split

/-!
# Structural types

The type of a schema in terms that every target language can render. Each node has one; a shape
that says nothing about its values has the type of all values.
-/

namespace SchemaModules.Schema

open Text

inductive Primitive
  | string
  | number
  | boolean
  | null
  deriving DecidableEq, Repr

structure Field where
  name : String
  required : Bool
  comment : Option String
  deriving DecidableEq, Repr

inductive TypeExpr
  | any
  | primitive (primitive : Primitive)
  /-- A text or a number. -/
  | textOrNumber
  /-- Another definition, by its dotted name. -/
  | reference (name : String)
  | array (item : TypeExpr)
  /-- A record of fields, and the type of all keys that are no fields, if they are described. -/
  | object (fields : List (Field × TypeExpr)) (index : Option TypeExpr)
  deriving Inhabited

/-- The definition that a reference points to, when references begin with `lead`. -/
def referenceTarget (lead target : String) : String := stripLead target lead

mutual

def TypeExpr.ofNode (lead : String) : Node → TypeExpr
  | .reference _ target => .reference (referenceTarget lead target)
  | .object _ properties _ additional =>
    .object (fieldTypes lead properties) (TypeExpr.ofNode? lead additional)
  | .string _ format =>
    if format = some "int-or-string" then .textOrNumber else .primitive .string
  | .number _ => .primitive .number
  | .boolean _ => .primitive .boolean
  | .array _ items =>
    match TypeExpr.ofNode? lead items with
    | some item => .array item
    | none => .array .any
  | .null _ => .primitive .null
  | .unknown _ => .any

def TypeExpr.ofNode? (lead : String) : Option Node → Option TypeExpr
  | none => none
  | some node => some (TypeExpr.ofNode lead node)

def fieldTypes (lead : String) : List (Property × Node) → List (Field × TypeExpr)
  | [] => []
  | (property, node) :: rest =>
    (⟨property.name, property.required, node.description⟩, TypeExpr.ofNode lead node) ::
      fieldTypes lead rest

end

mutual

/-- The definitions named anywhere in a type, from left to right and with repetitions. -/
def TypeExpr.references : TypeExpr → List String
  | .reference name => [name]
  | .array item => item.references
  | .object fields index => fieldReferences fields ++ indexReferences index
  | _ => []

def fieldReferences : List (Field × TypeExpr) → List String
  | [] => []
  | (_, type) :: rest => type.references ++ fieldReferences rest

def indexReferences : Option TypeExpr → List String
  | none => []
  | some type => type.references

end

end SchemaModules.Schema
