import SchemaModules.Proofs.DocumentMembers
import SchemaModules.Proofs.JsonPaths
import SchemaModules.Proofs.SchemaTypes

/-!
# Types of registry documents

A registry document is a schema itself and has a type. It is the type of the definition without
documentation: comments are gone, and so are the fields that are taken for documentation, while
references lead to registry keys. Everything else agrees, whatever shape the schema has.
-/

namespace SchemaModules.Schema

variable {lead key : String} {members : List (String × Json)} {value : Json}

/-! ## Types without documentation -/

def Field.undocumented (field : Field) : Field := { field with comment := none }

mutual

/-- A type without comments and documentation fields, whose references are registry keys. -/
def TypeExpr.undocumented : TypeExpr → TypeExpr
  | .reference name => .reference (name ++ "#")
  | .array item => .array item.undocumented
  | .object fields index => .object (undocumentedFields fields) (undocumentedIndex index)
  | type => type

def undocumentedFields : List (Field × TypeExpr) → List (Field × TypeExpr)
  | [] => []
  | (field, type) :: rest =>
    if isDocumentation field.name then undocumentedFields rest
    else (field.undocumented, type.undocumented) :: undocumentedFields rest

def undocumentedIndex : Option TypeExpr → Option TypeExpr
  | none => none
  | some type => some type.undocumented

end

theorem undocumentedIndex_eq (index : Option TypeExpr) :
    undocumentedIndex index = index.map TypeExpr.undocumented := by
  cases index <;> simp [undocumentedIndex]

theorem undocumentedFields_eq_map (fields : List (Field × TypeExpr)) :
    undocumentedFields fields = (fields.filter fun entry ↦ !isDocumentation entry.1.name).map
      fun entry ↦ (entry.1.undocumented, entry.2.undocumented) := by
  induction fields with
  | nil => simp [undocumentedFields]
  | cons entry rest ih =>
    obtain ⟨field, type⟩ := entry
    rw [undocumentedFields, ih]
    by_cases hname : isDocumentation field.name <;> simp [hname]

theorem textMember_documentMembers (key : String) (hkey : isDocumentation key = false)
    (href : key ≠ "$ref") :
    textMember (documentMembers lead members) key = textMember members key := by
  rw [textMember, textMember, lookup_documentMembers_of_keyword hkey]
  cases members.lookup key with
  | none => rfl
  | some value => exact str?_documentMember href

theorem textMember_documentMembers_ref :
    textMember (documentMembers lead members) "$ref" =
      (textMember members "$ref").map (registryKey lead) := by
  rw [textMember, textMember, lookup_documentMembers_of_keyword (by decide)]
  cases members.lookup "$ref" with
  | none => rfl
  | some value => exact str?_documentMember_ref

theorem textMember_documentMembers_description :
    textMember (documentMembers lead members) "description" = none := by
  rw [textMember, lookup_documentMembers, if_pos (by decide)]
  rfl

theorem description_documentMember :
    (Node.ofSchema (documentMember lead key value)).description = none := by
  rw [description_ofSchema, members_documentMember, textMember_documentMembers_description]

theorem str?_withoutDocumentation : (withoutDocumentation value).str? = value.str? := by
  cases value <;> simp [withoutDocumentation, Json.str?]

theorem holdsText_itemsWithoutDocumentation (items : List Json) (text : String) :
    holdsText (itemsWithoutDocumentation items) text = holdsText items text := by
  simp [itemsWithoutDocumentation_eq_map, holdsText, Function.comp_def, str?_withoutDocumentation]

theorem holdsText_requiredNames_documentMembers (text : String) :
    holdsText (requiredNames (documentMembers lead members)) text =
      holdsText (requiredNames members) text := by
  rw [requiredNames, requiredNames, lookup_documentMembers_of_keyword (by decide)]
  cases members.lookup "required" with
  | none => rfl
  | some required =>
    cases required with
    | arr items => exact holdsText_itemsWithoutDocumentation items text
    | _ => simp [documentMember, withoutDocumentation, Json.arr?]

theorem describesAdditional_documentMembers :
    describesAdditional ((documentMembers lead members).lookup "additionalProperties") =
      describesAdditional (members.lookup "additionalProperties") := by
  rw [lookup_documentMembers_of_keyword (by decide)]
  cases members.lookup "additionalProperties" with
  | none => rfl
  | some additional =>
    cases additional <;> simp [documentMember, withoutDocumentation, describesAdditional]

theorem propertySchemas_documentMembers :
    propertySchemas (documentMembers lead members) =
      documentMembers lead (propertySchemas members) := by
  rw [propertySchemas, propertySchemas, lookup_documentMembers_of_keyword (by decide)]
  cases members.lookup "properties" with
  | none => simp [Json.members, documentMembers]
  | some properties => exact members_documentMember

/-! ## Types of documents -/

/-- Rewriting the schema of a member and leaving the documentation out of its type agree. -/
def TypeCommutes (lead : String) (schema : Json) : Prop :=
  ∀ key, schemaType "" (documentMember lead key schema) = (schemaType lead schema).undocumented

theorem referenceTarget_empty (target : String) : referenceTarget "" target = target := by
  simp [referenceTarget, Text.stripLead, Text.dropLeading]

theorem declaredFields_documentMembers
    (hcommutes : ∀ member ∈ propertySchemas members, TypeCommutes lead member.2) :
    declaredFields "" (documentMembers lead members) =
      undocumentedFields (declaredFields lead members) := by
  rw [declaredFields, declaredFields, undocumentedFields_eq_map, propertySchemas_documentMembers,
    documentMembers_eq_map lead (propertySchemas members), List.filter_map, List.map_map,
    List.map_map]
  apply List.map_congr_left
  intro member hmember
  have hschema := hcommutes member (List.mem_filter.mp hmember).1 member.1
  simp only [Function.comp_apply, propertyField, Field.undocumented, hschema,
    description_documentMember, holdsText_requiredNames_documentMembers]

theorem indexType_documentMembers
    (hcommutes : ∀ member ∈ members, TypeCommutes lead member.2) :
    indexType "" (documentMembers lead members) = undocumentedIndex (indexType lead members) := by
  rw [indexType, indexType, describesAdditional_documentMembers, undocumentedIndex_eq,
    lookup_documentMembers_of_keyword (by decide)]
  split
  · cases hlookup : members.lookup "additionalProperties" with
    | none => rfl
    | some additional =>
      exact congrArg some (hcommutes _ (mem_of_lookup hlookup) "additionalProperties")
  · rfl

theorem itemType_documentMembers
    (hcommutes : ∀ member ∈ members, TypeCommutes lead member.2) :
    itemType "" (documentMembers lead members) = (itemType lead members).undocumented := by
  rw [itemType, itemType, lookup_documentMembers_of_keyword (by decide)]
  cases hlookup : members.lookup "items" with
  | none => simp [TypeExpr.undocumented]
  | some items => exact hcommutes _ (mem_of_lookup hlookup) "items"

theorem typeCommutes_obj (hmembers : ∀ member ∈ members, TypeCommutes lead member.2)
    (hproperties : ∀ member ∈ propertySchemas members, TypeCommutes lead member.2) :
    TypeCommutes lead (.obj members) := by
  intro key
  rw [documentMember_obj, schemaType_obj, schemaType_obj, textMember_documentMembers_ref,
    textMember_documentMembers "type" (by decide) (by decide),
    textMember_documentMembers "format" (by decide) (by decide),
    declaredFields_documentMembers hproperties, indexType_documentMembers hmembers,
    itemType_documentMembers hmembers]
  cases textMember members "$ref" with
  | some target =>
    simp only [Option.map_some, TypeExpr.undocumented, registryKey, referenceTarget_empty]
  | none =>
    simp only [Option.map_none]
    generalize textMember members "type" = type
    split
    · simp only [TypeExpr.undocumented]
    · split <;> simp only [TypeExpr.undocumented]
    · simp only [TypeExpr.undocumented]
    · simp only [TypeExpr.undocumented]
    · simp only [TypeExpr.undocumented]
    · simp only [TypeExpr.undocumented]
    · simp only [TypeExpr.undocumented]
    · simp only [TypeExpr.undocumented]

theorem typeCommutes_of_not_object {schema : Json} (h : schema.isObject = false) :
    TypeCommutes lead schema := by
  intro key
  have hdocument : (documentMember lead key schema).isObject = false :=
    isObject_documentMember.trans h
  rw [schemaType_of_not_object hdocument, schemaType_of_not_object h]
  rfl

theorem typeCommutes (lead : String) (schema : Json) : TypeCommutes lead schema := by
  induction schema using Json.object_induction with
  | other schema hschema => exact typeCommutes_of_not_object hschema
  | obj members hmembers hinner => exact typeCommutes_obj hmembers (forall_propertySchemas hinner)

/-- Reading the type off the registry document gives the type of the definition without its
documentation. -/
theorem schemaType_registryDocument (lead name : String) (schema : Json)
    (hname : name ≠ intOrStringName) :
    TypeExpr.ofNode "" (Node.ofSchema (registryDocument lead name schema)) =
      (TypeExpr.ofNode lead (Root.ofSchema schema).body).undocumented := by
  cases schema with
  | obj members =>
    rw [registryDocument_obj hname]
    exact typeCommutes lead (.obj (withRootType members)) ""
  | _ =>
    simp [registryDocument, hname, Root.ofSchema, Node.ofSchema, textMember, TypeExpr.ofNode,
      TypeExpr.undocumented]

/-- A schema with a reference, a comment and a property that is taken for documentation. -/
def documentedSchema : Json :=
  .obj [("required", .arr [.str "part", .str "description"]),
    ("properties", .obj [
      ("part", .obj [("$ref", .str "#/definitions/x.Part"), ("description", .str "A part.")]),
      ("description", .obj [("type", .str "string")])])]

theorem schemaType_registryDocument_documentedSchema :
    "x.Whole" ≠ intOrStringName ∧
      TypeExpr.ofNode "" (Node.ofSchema
        (registryDocument "#/definitions/" "x.Whole" documentedSchema)) =
        .object [(⟨"part", true, none⟩, .reference "x.Part#")] none := by
  have hname : "x.Whole" ≠ intOrStringName := by decide
  refine ⟨hname, (schemaType_registryDocument _ _ _ hname).trans ?_⟩
  rfl

end SchemaModules.Schema
