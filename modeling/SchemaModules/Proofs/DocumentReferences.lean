import Mathlib.Data.List.Basic
import SchemaModules.Proofs.DocumentPaths
import SchemaModules.Schema.References

/-!
# References of registry documents

One walk rewrites the references of a schema for the registry, and another collects the names to be
registered before it. Both stop at arrays: what they leave there is neither rewritten nor collected.
Elsewhere every rewritten reference leads to a collected name or back to the definition itself.
-/

namespace SchemaModules.Schema

open Json (Step)

variable {lead key own name target text : String} {members : List (String × Json)} {value : Json}
  {path : List Step}

/-! ## Collected names -/

theorem memberTargets_eq_flatMap (members : List (String × Json)) :
    memberTargets members = members.flatMap fun member ↦ targetsAt member.1 member.2 := by
  induction members with
  | nil => rfl
  | cons member rest ih =>
    obtain ⟨name, value⟩ := member
    rw [memberTargets, ih, List.flatMap_cons]

theorem targetsAt_subset (hlookup : members.lookup key = some value) :
    targetsAt key value ⊆ memberTargets members := by
  intro target htarget
  rw [memberTargets_eq_flatMap, List.mem_flatMap]
  exact ⟨(key, value), mem_of_lookup hlookup, htarget⟩

/-- Every reference at the end of a path through objects is collected. -/
theorem mem_targetsAt (key : String) (hkeys : ∀ step ∈ path, step.isKey = true)
    (h : value.follow (path ++ [.key "$ref"]) = some (.str target)) :
    target ∈ targetsAt key value := by
  induction path generalizing key value with
  | nil =>
    cases value with
    | obj members =>
      have hlookup : members.lookup "$ref" = some (.str target) := by
        simpa [Json.follow_cons, Json.child?] using h
      rw [targetsAt]
      exact targetsAt_subset hlookup (by simp [targetsAt])
    | _ => cases h
  | cons step path ih =>
    obtain ⟨child, hchild, hfollow⟩ := Option.bind_eq_some_iff.mp h
    cases step with
    | index place => simp [Json.Step.isKey] at hkeys
    | key name =>
      have hrest := ih name (fun step hstep ↦ hkeys step (List.mem_cons_of_mem _ hstep)) hfollow
      cases value with
      | obj members =>
        rw [targetsAt]
        exact targetsAt_subset hchild hrest
      | _ => cases hchild

theorem mem_othersOnce {names : List String} :
    name ∈ othersOnce own names ↔ name ∈ names ∧ name ≠ own := by
  simp [othersOnce]

theorem mem_dependencies_of_follow (hkeys : ∀ step ∈ path, step.isKey = true)
    (h : (Json.obj members).follow (path ++ [.key "$ref"]) = some (.str text)) :
    referenceTarget lead text = own ∨
      referenceTarget lead text ∈ dependencies lead own (.obj members) := by
  have htarget : text ∈ referenceTargets (.obj members) := mem_targetsAt "" hkeys h
  by_cases hown : referenceTarget lead text = own
  · exact Or.inl hown
  · exact Or.inr (mem_othersOnce.mpr ⟨List.mem_map_of_mem htarget, hown⟩)

mutual

/-- A value whose arrays have all been emptied. -/
def withoutItems : Json → Json
  | .arr _ => .arr []
  | .obj members => .obj (membersWithoutItems members)
  | value => value

def membersWithoutItems : List (String × Json) → List (String × Json)
  | [] => []
  | (key, value) :: rest => (key, withoutItems value) :: membersWithoutItems rest

end

theorem membersWithoutItems_eq_map (members : List (String × Json)) :
    membersWithoutItems members = members.map fun member ↦ (member.1, withoutItems member.2) := by
  induction members with
  | nil => rfl
  | cons member rest ih =>
    obtain ⟨key, value⟩ := member
    rw [membersWithoutItems, ih, List.map_cons]

theorem targetsAt_withoutItems (key : String) (value : Json) :
    targetsAt key (withoutItems value) = targetsAt key value := by
  induction value using Json.nested_induction generalizing key with
  | obj members ih =>
    rw [withoutItems, targetsAt, targetsAt, memberTargets_eq_flatMap, memberTargets_eq_flatMap,
      membersWithoutItems_eq_map, List.flatMap_map]
    apply List.flatMap_congr
    intro member hmember
    exact ih member hmember member.1
  | arr items => simp [withoutItems, targetsAt]
  | _ => simp [withoutItems]

theorem dependencies_withoutItems (lead own : String) (schema : Json) :
    dependencies lead own (withoutItems schema) = dependencies lead own schema := by
  have htargets : referenceTargets (withoutItems schema) = referenceTargets schema := by
    cases schema with
    | obj members => exact targetsAt_withoutItems "" (.obj members)
    | _ => simp [withoutItems, referenceTargets, Json.members]
  rw [dependencies, dependencies, referencedNames, referencedNames, htargets]

/-! ## Documents -/

/-- The references in the registry document of a mapping, beside those collected from it. -/
structure ReferencesAgree (lead name : String) (schema : Json) : Prop where
  /-- A reference reached through objects leads to what is registered with the definition. -/
  registered : ∀ {path text}, (∀ step ∈ path, step.isKey = true) →
    (registryDocument lead name schema).follow (path ++ [.key "$ref"]) = some (.str text) →
    ∃ target, text = target ++ "#" ∧ (target = name ∨ target ∈ dependencies lead name schema)
  /-- Outside documentation a collected reference keeps its place. -/
  kept : ∀ {path text}, (∀ step ∈ path, step.isKey = true) →
    path.any isDocumentationStep = false →
    schema.follow (path ++ [.key "$ref"]) = some (.str text) →
    (registryDocument lead name schema).follow (path ++ [.key "$ref"]) =
      some (.str (referenceTarget lead text ++ "#"))
  /-- Inside an array a reference stays as it is, unless it is dropped with documentation. -/
  copied : ∀ {path text}, (∃ step ∈ path, step.isKey = false) →
    ((registryDocument lead name schema).follow (path ++ [.key "$ref"]) = some (.str text) ↔
      schema.follow (path ++ [.key "$ref"]) = some (.str text) ∧
        path.any isDocumentationStep = false)
  /-- What arrays hold is not collected. -/
  uncollected : dependencies lead name (withoutItems schema) = dependencies lead name schema

/-- The way to a reference in a document and in its schema. -/
theorem follow_registryDocument_ref (hname : name ≠ intOrStringName) :
    (registryDocument lead name (.obj members)).follow (path ++ [.key "$ref"]) =
      if path.any isDocumentationStep then none
      else ((Json.obj members).follow (path ++ [.key "$ref"])).map
        (documentAt lead "" (path ++ [.key "$ref"])) := by
  have hroot : path ++ [Step.key "$ref"] ≠ [] := List.append_ne_nil_of_right_ne_nil _ (by simp)
  have htype : path ++ [Step.key "$ref"] ≠ [.key "type"] := by
    intro heq
    have hlast := congrArg List.getLast? heq
    simp at hlast
  have hany : (path ++ [Step.key "$ref"]).any isDocumentationStep =
      path.any isDocumentationStep := by
    rw [List.any_append]
    exact Bool.or_false _
  rw [follow_registryDocument hname, follow_withRootType hroot htype, hany]

theorem documentMember_ref_eq_str (h : documentMember lead "$ref" value = .str text) :
    ∃ target, value = .str target ∧ text = registryKey lead target := by
  cases value <;> simp [documentMember, withoutDocumentation] at h
  exact ⟨_, rfl, h.symm⟩

theorem withoutDocumentation_eq_str :
    withoutDocumentation value = .str text ↔ value = .str text := by
  cases value <;> simp [withoutDocumentation]

theorem referencesAgree (hname : name ≠ intOrStringName) :
    ReferencesAgree lead name (.obj members) where
  registered := by
    intro path text hkeys hdocument
    rw [follow_registryDocument_ref hname, documentAt_keys hkeys] at hdocument
    split at hdocument
    · cases hdocument
    · obtain ⟨value, hvalue, heq⟩ := Option.map_eq_some_iff.mp hdocument
      obtain ⟨target, rfl, rfl⟩ := documentMember_ref_eq_str heq
      exact ⟨referenceTarget lead target, rfl, mem_dependencies_of_follow hkeys hvalue⟩
  kept := by
    intro path text hkeys hplain hschema
    rw [follow_registryDocument_ref hname, hplain, hschema, documentAt_keys hkeys]
    simp [documentMember, registryKey]
  copied := by
    intro path text hindex
    have hlast : ∃ step ∈ path ++ [.key "$ref"], step.isKey = false := by
      obtain ⟨step, hstep, hkey⟩ := hindex
      exact ⟨step, List.mem_append_left _ hstep, hkey⟩
    rw [follow_registryDocument_ref hname, documentAt_index hlast]
    split
    · rename_i hdropped
      simp [hdropped]
    · rename_i hplain
      simp [hplain, withoutDocumentation_eq_str]
  uncollected := dependencies_withoutItems lead name (.obj members)

/-- The registry documents of mappings and the collected names agree on references. The document of
the definition that is registered with a schema of its own has none. -/
theorem registryDocument_references (lead name : String) (schema : Json) :
    (name ≠ intOrStringName → schema.isObject = true → ReferencesAgree lead name schema) ∧
      ∀ path found, (registryDocument lead intOrStringName schema).follow path = some found →
        Step.key "$ref" ∉ path := by
  refine ⟨?_, ?_⟩
  · intro hname hobject
    cases schema with
    | obj members => exact referencesAgree hname
    | _ => cases hobject
  · intro path found hfollow hmem
    rw [registryDocument_intOrString] at hfollow
    have hkey : intOrStringDocument.hasKey "$ref" = false := by decide
    rw [Json.hasKey_of_follow hfollow hmem] at hkey
    cases hkey

/-- A schema with one reference outside arrays and one inside. -/
def referringSchema : Json :=
  .obj [("items", .obj [("$ref", .str "#/definitions/x.Inner")]),
    ("anyOf", .arr [.obj [("$ref", .str "#/definitions/x.Other")]])]

theorem registryDocument_references_referringSchema :
    ("x.Outer" ≠ intOrStringName ∧ referringSchema.isObject = true) ∧
      ReferencesAgree "#/definitions/" "x.Outer" referringSchema ∧
      dependencies "#/definitions/" "x.Outer" referringSchema = ["x.Inner"] := by
  have hname : "x.Outer" ≠ intOrStringName := by decide
  refine ⟨⟨hname, rfl⟩, (registryDocument_references _ _ _).1 hname rfl, ?_⟩
  decide +kernel

end SchemaModules.Schema
