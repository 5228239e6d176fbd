import SchemaModules.Proofs.Lookup
import SchemaModules.Schema.TypeExpr

/-!
# Types of schemas

The type of a schema read off its members, without the nodes in between. The members are found by
look-up, and the parts of a type come from the types of what is found.
-/

namespace SchemaModules.Schema

variable {lead : String} {members : List (String × Json)}

/-- The type of the node of a schema. -/
def schemaType (lead : String) (schema : Json) : TypeExpr :=
  TypeExpr.ofNode lead (Node.ofSchema schema)

/-- The schemas of the declared properties. -/
def propertySchemas (members : List (String × Json)) : List (String × Json) :=
  ((members.lookup "properties").getD .null).members

/-- The field of a declared property. -/
def propertyField (required : List Json) (name : String) (schema : Json) : Field :=
  ⟨name, holdsText required name, (Node.ofSchema schema).description⟩

def declaredFields (lead : String) (members : List (String × Json)) : List (Field × TypeExpr) :=
  (propertySchemas members).map fun property ↦
    (propertyField (requiredNames members) property.1 property.2, schemaType lead property.2)

def indexType (lead : String) (members : List (String × Json)) : Option TypeExpr :=
  if describesAdditional (members.lookup "additionalProperties") then
    (members.lookup "additionalProperties").map (schemaType lead)
  else none

def itemType (lead : String) (members : List (String × Json)) : TypeExpr :=
  ((members.lookup "items").map (schemaType lead)).getD .any

theorem str?_eq_some_iff {value : Json} {text : String} :
    value.str? = some text ↔ value = .str text := by
  cases value <;> simp [Json.str?]

theorem textMember_eq_some_iff {key text : String} :
    textMember members key = some text ↔ members.lookup key = some (.str text) := by
  rw [textMember, Option.bind_eq_some_iff]
  constructor
  · rintro ⟨value, hlookup, htext⟩
    rwa [str?_eq_some_iff.mp htext] at hlookup
  · intro hlookup
    exact ⟨.str text, hlookup, rfl⟩

theorem holdsText_iff {values : List Json} {text : String} :
    holdsText values text = true ↔ .str text ∈ values := by
  simp [holdsText, str?_eq_some_iff]

theorem mem_propertySchemas {property : String × Json} :
    property ∈ propertySchemas members ↔
      ∃ schemas, members.lookup "properties" = some (.obj schemas) ∧ property ∈ schemas := by
  rw [propertySchemas]
  cases members.lookup "properties" with
  | none => simp [Json.members]
  | some properties => cases properties <;> simp [Json.members]

/-- The schemas of properties stand two steps below the schema that declares them. -/
theorem forall_propertySchemas {holds : Json → Prop}
    (h : ∀ member ∈ members, ∀ inner ∈ member.2.members, holds inner.2) :
    ∀ property ∈ propertySchemas members, holds property.2 := by
  intro property hproperty
  obtain ⟨schemas, hlookup, hmem⟩ := mem_propertySchemas.mp hproperty
  exact h _ (mem_of_lookup hlookup) property hmem

/-! ## Nodes by look-up -/

theorem memberNode_eq (wanted : String) (members : List (String × Json)) :
    memberNode wanted members = (members.lookup wanted).map Node.ofSchema := by
  induction members with
  | nil => simp [memberNode]
  | cons member rest ih =>
    obtain ⟨key, value⟩ := member
    rw [memberNode, List.lookup_cons]
    by_cases hkey : key = wanted
    · simp [hkey]
    · have hdiffer : (wanted == key) = false := beq_eq_false_iff_ne.mpr (Ne.symm hkey)
      rw [if_neg hkey, hdiffer, ih]

theorem fieldNodes_eq (required : List Json) (properties : Json) :
    fieldNodes required properties = memberNodes required properties.members := by
  cases properties <;> simp [fieldNodes, Json.members, memberNodes]

theorem propertyNodes_eq (required : List Json) (members : List (String × Json)) :
    propertyNodes required members = memberNodes required (propertySchemas members) := by
  induction members with
  | nil => simp [propertyNodes, propertySchemas, Json.members, memberNodes]
  | cons member rest ih =>
    obtain ⟨key, value⟩ := member
    rw [propertyNodes, propertySchemas, List.lookup_cons]
    by_cases hkey : key = "properties"
    · simp [hkey, fieldNodes_eq]
    · have hdiffer : ("properties" == key) = false := beq_eq_false_iff_ne.mpr (Ne.symm hkey)
      rw [if_neg hkey, hdiffer, ih, propertySchemas]

theorem fieldTypes_memberNodes (required : List Json) (members : List (String × Json)) :
    fieldTypes lead (memberNodes required members) =
      members.map fun member ↦
        (propertyField required member.1 member.2, schemaType lead member.2) := by
  induction members with
  | nil => simp [memberNodes, fieldTypes]
  | cons member rest ih =>
    obtain ⟨name, schema⟩ := member
    rw [memberNodes, fieldTypes, ih, List.map_cons]
    rfl

theorem ofNode?_map (schema : Option Json) :
    TypeExpr.ofNode? lead (schema.map Node.ofSchema) = schema.map (schemaType lead) := by
  cases schema <;> simp [TypeExpr.ofNode?, schemaType]

/-! ## Types by look-up -/

theorem schemaType_obj (lead : String) (members : List (String × Json)) :
    schemaType lead (.obj members) =
      match textMember members "$ref" with
      | some target => .reference (referenceTarget lead target)
      | none =>
        match textMember members "type" with
        | some "object" => .object (declaredFields lead members) (indexType lead members)
        | some "string" =>
          if textMember members "format" = some "int-or-string" then .textOrNumber
          else .primitive .string
        | some "number" | some "integer" => .primitive .number
        | some "boolean" => .primitive .boolean
        | some "array" => .array (itemType lead members)
        | some "null" => .primitive .null
        | _ => .any := by
  have hfields : fieldTypes lead (propertyNodes (requiredNames members) members) =
      declaredFields lead members := by
    rw [propertyNodes_eq, fieldTypes_memberNodes, declaredFields]
  have hindex : TypeExpr.ofNode? lead
      (if describesAdditional (members.lookup "additionalProperties") then
        memberNode "additionalProperties" members
      else none) = indexType lead members := by
    rw [memberNode_eq, indexType]
    split
    · exact ofNode?_map _
    · rw [TypeExpr.ofNode?]
  have hitems : TypeExpr.ofNode? lead (memberNode "items" members) =
      (members.lookup "items").map (schemaType lead) := by
    rw [memberNode_eq, ofNode?_map]
  rw [schemaType, Node.ofSchema]
  cases textMember members "$ref" with
  | some target => simp only [TypeExpr.ofNode]
  | none =>
    simp only
    generalize textMember members "type" = type
    split
    · simp only [TypeExpr.ofNode, hfields, hindex]
    · simp only [TypeExpr.ofNode]
    · simp only [TypeExpr.ofNode]
    · simp only [TypeExpr.ofNode]
    · simp only [TypeExpr.ofNode]
    · simp only [TypeExpr.ofNode, hitems, itemType]
      cases members.lookup "items" <;> rfl
    · simp only [TypeExpr.ofNode]
    · simp only [TypeExpr.ofNode]

theorem schemaType_of_not_object {schema : Json} (h : schema.isObject = false) :
    schemaType lead schema = .any := by
  cases schema <;> simp_all [schemaType, Node.ofSchema, TypeExpr.ofNode, Json.isObject]

/-- A schema is described by its member alone, whatever else it says. -/
theorem description_ofSchema (schema : Json) :
    (Node.ofSchema schema).description = textMember schema.members "description" := by
  cases schema with
  | obj members =>
    rw [Node.ofSchema, Json.members]
    cases textMember members "$ref" with
    | some target => rfl
    | none =>
      simp only
      split <;> rfl
  | _ => simp [Node.ofSchema, Node.description, Json.members, textMember]

end SchemaModules.Schema
