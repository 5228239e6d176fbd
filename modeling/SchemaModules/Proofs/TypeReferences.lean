import Mathlib.Data.List.Basic
import SchemaModules.Proofs.DocumentReferences
import SchemaModules.Proofs.PackageDefinitions
import SchemaModules.Proofs.SchemaTypes

/-!
# References of types

Types are read from the places where references are collected, so a type names no other definition
than those collected from its schema and, at most, the definition that it belongs to.
-/

namespace SchemaModules.Schema

variable {lead name : String} {members : List (String × Json)}

theorem fieldReferences_eq_flatMap (fields : List (Field × TypeExpr)) :
    fieldReferences fields = fields.flatMap fun entry ↦ entry.2.references := by
  induction fields with
  | nil => simp [fieldReferences]
  | cons entry rest ih =>
    obtain ⟨field, type⟩ := entry
    rw [fieldReferences, ih, List.flatMap_cons]

/-- The references of a type are among those collected from its schema. -/
def ReferencesCollected (lead : String) (schema : Json) : Prop :=
  ∀ key, (schemaType lead schema).references ⊆ (targetsAt key schema).map (referenceTarget lead)

theorem ReferencesCollected.of_member {key : String} {schema : Json}
    (h : ReferencesCollected lead schema) (hlookup : members.lookup key = some schema) :
    (schemaType lead schema).references ⊆ (memberTargets members).map (referenceTarget lead) :=
  List.Subset.trans (h key) (List.map_subset _ (targetsAt_subset hlookup))

theorem fieldReferences_declaredFields
    (hproperties : ∀ property ∈ propertySchemas members, ReferencesCollected lead property.2) :
    fieldReferences (declaredFields lead members) ⊆
      (memberTargets members).map (referenceTarget lead) := by
  rw [fieldReferences_eq_flatMap, declaredFields, List.flatMap_map]
  intro name hname
  obtain ⟨property, hproperty, hfound⟩ := List.mem_flatMap.mp hname
  have htarget := hproperties property hproperty property.1 hfound
  obtain ⟨schemas, hlookup, hmem⟩ := mem_propertySchemas.mp hproperty
  have hcollected : targetsAt property.1 property.2 ⊆ targetsAt "properties" (.obj schemas) := by
    rw [targetsAt, memberTargets_eq_flatMap]
    intro target htarget
    exact List.mem_flatMap.mpr ⟨property, hmem, htarget⟩
  exact List.map_subset _ (List.Subset.trans hcollected (targetsAt_subset hlookup)) htarget

theorem indexReferences_indexType
    (hmembers : ∀ member ∈ members, ReferencesCollected lead member.2) :
    indexReferences (indexType lead members) ⊆
      (memberTargets members).map (referenceTarget lead) := by
  rw [indexType]
  split
  · cases hlookup : members.lookup "additionalProperties" with
    | none => simp [indexReferences]
    | some additional =>
      rw [Option.map_some, indexReferences]
      exact (hmembers _ (mem_of_lookup hlookup)).of_member hlookup
  · simp [indexReferences]

theorem references_itemType (hmembers : ∀ member ∈ members, ReferencesCollected lead member.2) :
    (itemType lead members).references ⊆ (memberTargets members).map (referenceTarget lead) := by
  rw [itemType]
  cases hlookup : members.lookup "items" with
  | none => simp [TypeExpr.references]
  | some items => exact (hmembers _ (mem_of_lookup hlookup)).of_member hlookup

theorem referencesCollected_obj (hmembers : ∀ member ∈ members, ReferencesCollected lead member.2)
    (hproperties : ∀ property ∈ propertySchemas members, ReferencesCollected lead property.2) :
    ReferencesCollected lead (.obj members) := by
  intro key
  rw [schemaType_obj, targetsAt]
  cases htext : textMember members "$ref" with
  | some target =>
    have hlookup := textMember_eq_some_iff.mp htext
    have htarget : target ∈ memberTargets members :=
      targetsAt_subset hlookup (by simp [targetsAt])
    simpa [TypeExpr.references] using ⟨target, htarget, rfl⟩
  | none =>
    simp only
    split
    · rw [TypeExpr.references]
      exact List.append_subset.mpr
        ⟨fieldReferences_declaredFields hproperties, indexReferences_indexType hmembers⟩
    · split <;> simp [TypeExpr.references]
    · simp [TypeExpr.references]
    · simp [TypeExpr.references]
    · simp [TypeExpr.references]
    · rw [TypeExpr.references]
      exact references_itemType hmembers
    · simp [TypeExpr.references]
    · simp [TypeExpr.references]

theorem referencesCollected (lead : String) (schema : Json) : ReferencesCollected lead schema := by
  induction schema using Json.object_induction with
  | other schema hschema =>
    intro key
    simp [schemaType_of_not_object hschema, TypeExpr.references]
  | obj members hmembers hinner =>
    exact referencesCollected_obj hmembers (forall_propertySchemas hinner)

/-! ## Roots -/

theorem mem_setMember {key : String} {value : Json} {member : String × Json}
    (h : member ∈ Json.setMember key value members) : member = (key, value) ∨ member ∈ members := by
  induction members with
  | nil => exact Or.inl (List.mem_singleton.mp h)
  | cons first rest ih =>
    obtain ⟨other, old⟩ := first
    rw [Json.setMember] at h
    split at h
    · rename_i heq
      rcases List.mem_cons.mp h with hnew | hrest
      · exact Or.inl (heq ▸ hnew)
      · exact Or.inr (List.mem_cons_of_mem _ hrest)
    · rcases List.mem_cons.mp h with hfirst | hrest
      · exact Or.inr (hfirst ▸ List.mem_cons_self)
      · exact (ih hrest).imp_right (List.mem_cons_of_mem _)

/-- The type that a root is given refers to nothing. -/
theorem memberTargets_withRootType_subset :
    memberTargets (withRootType members) ⊆ memberTargets members := by
  rw [withRootType]
  split
  · exact List.Subset.refl _
  · intro target htarget
    rw [memberTargets_eq_flatMap] at htarget ⊢
    obtain ⟨member, hmember, hfound⟩ := List.mem_flatMap.mp htarget
    rcases mem_setMember hmember with rfl | hmember
    · simp [targetsAt] at hfound
    · exact List.mem_flatMap.mpr ⟨member, hmember, hfound⟩

theorem references_root_subset (lead : String) (schema : Json) :
    (TypeExpr.ofNode lead (Root.ofSchema schema).body).references ⊆
      referencedNames lead schema := by
  cases schema with
  | obj members =>
    have hcollected := referencesCollected lead (.obj (withRootType members)) ""
    rw [targetsAt] at hcollected
    exact List.Subset.trans hcollected (List.map_subset _ memberTargets_withRootType_subset)
  | _ => simp [Root.ofSchema, TypeExpr.ofNode, TypeExpr.references]

end SchemaModules.Schema

namespace SchemaModules.Definition

variable {conventions : Conventions} {name target : String} {schema : Json}

theorem map_name_dependencies :
    (Definition.of conventions name schema).dependencies.map Naming.Names.name =
      Schema.dependencies conventions.referenceLead name schema := by
  rw [Definition.of, Conventions.dependencies, List.map_map]
  exact List.map_id _

/-- A type names its own definition or one that is registered before it. -/
theorem mem_dependencies_of_mem_references
    (h : target ∈ (Definition.of conventions name schema).type.references) :
    target = name ∨ target ∈ (Definition.of conventions name schema).dependencies.map (·.name) := by
  rw [map_name_dependencies]
  have hcollected := Schema.references_root_subset conventions.referenceLead schema h
  by_cases hown : target = name
  · exact Or.inl hown
  · exact Or.inr (Schema.mem_othersOnce.mpr ⟨hcollected, hown⟩)

end SchemaModules.Definition
