import SchemaModules.Proofs.CheckFuel
import SchemaModules.Proofs.CheckedKeywords
import SchemaModules.Proofs.NestedValues
import SchemaModules.Proofs.TypeReferences

/-!
# Scopes of documents

The documents that a check visits are those that references lead to from where it starts. It should
not matter what else there is: a validator is local if it gives the same answers with the same
documents in a scope that references do not leave. The validator of the program is. If no list holds
a reference, the references of a registry document stay within the definition itself and the
collected names.
-/

namespace SchemaModules

variable {lead key own text : String} {value schema found : Json}
  {members : List (String × Json)} {items : List Json}

namespace Json

/-- Whether something in a list, at any depth, is a mapping with a member of that name. -/
def listsHaveKey (key : String) (value : Json) : Bool :=
  value.values.any fun found ↦ found.arr?.isSome && found.hasKey key

theorem hasKey_of_listsHaveKey (h : (arr items).listsHaveKey key = false) :
    (arr items).hasKey key = false := by
  have hself := List.any_eq_false.mp h _ (mem_values_self (arr items))
  simpa [arr?] using hself

theorem listsHaveKey_of_member {member : String × Json} (hmember : member ∈ members)
    (h : (obj members).listsHaveKey key = false) : member.2.listsHaveKey key = false := by
  apply List.any_eq_false.mpr
  intro found hfound
  exact List.any_eq_false.mp h found (mem_values_obj.mpr (Or.inr ⟨member, hmember, hfound⟩))

end Json

namespace Schema

/-- What is left without documentation has no new keys. -/
theorem hasKey_of_mem_withoutDocumentation
    (hmembers : .obj members ∈ (withoutDocumentation value).values) {member : String × Json}
    (hmember : member ∈ members) : value.hasKey member.1 = true := by
  induction value using Json.nested_induction with
  | obj entries ih =>
    rw [withoutDocumentation, membersWithoutDocumentation_eq_map, Json.mem_values_obj] at hmembers
    rw [Json.hasKey]
    rcases hmembers with heq | ⟨entry, hentry, hinner⟩
    · obtain rfl := Json.obj.inj heq
      obtain ⟨entry, hentry, rfl⟩ := List.mem_map.mp hmember
      exact Json.membersHaveKey_of_mem (List.mem_of_mem_filter hentry) (Or.inl rfl)
    · obtain ⟨original, horiginal, rfl⟩ := List.mem_map.mp hentry
      have hmem := List.mem_of_mem_filter horiginal
      exact Json.membersHaveKey_of_mem hmem (Or.inr (ih original hmem hinner))
  | arr items ih =>
    rw [withoutDocumentation, itemsWithoutDocumentation_eq_map, Json.mem_values_arr] at hmembers
    rw [Json.hasKey]
    rcases hmembers with heq | ⟨item, hitem, hinner⟩
    · cases heq
    · obtain ⟨original, horiginal, rfl⟩ := List.mem_map.mp hitem
      exact Json.itemsHaveKey_of_mem horiginal (ih original horiginal hinner)
  | _ => simp [withoutDocumentation, Json.values] at hmembers

/-- Every reference in a document comes from a collected one, if no list holds any. -/
theorem exists_target_of_mem_documentMember (hlists : value.listsHaveKey "$ref" = false)
    (hmembers : .obj members ∈ (documentMember lead key value).values)
    (hreference : ("$ref", .str text) ∈ members) :
    ∃ target ∈ targetsAt key value, text = registryKey lead target := by
  induction value using Json.nested_induction generalizing key with
  | obj entries ih =>
    rw [documentMember_obj, documentMembers_eq_map, Json.mem_values_obj] at hmembers
    rw [targetsAt, memberTargets_eq_flatMap]
    simp only [List.mem_flatMap]
    rcases hmembers with heq | ⟨entry, hentry, hinner⟩
    · obtain rfl := Json.obj.inj heq
      obtain ⟨⟨name, value⟩, hentry, heq⟩ := List.mem_map.mp hreference
      obtain ⟨rfl, hvalue⟩ := Prod.mk.inj heq
      obtain ⟨target, rfl, rfl⟩ := documentMember_ref_eq_str hvalue
      exact ⟨target, ⟨_, List.mem_of_mem_filter hentry, by simp [targetsAt]⟩, rfl⟩
    · obtain ⟨original, horiginal, rfl⟩ := List.mem_map.mp hentry
      have hmem := List.mem_of_mem_filter horiginal
      obtain ⟨target, htarget, heq⟩ :=
        ih original hmem (Json.listsHaveKey_of_member hmem hlists) hinner
      exact ⟨target, ⟨original, hmem, htarget⟩, heq⟩
  | arr items =>
    rw [documentMember_arr] at hmembers
    have hkey := hasKey_of_mem_withoutDocumentation hmembers hreference
    rw [Json.hasKey_of_listsHaveKey hlists] at hkey
    cases hkey
  | str other =>
    by_cases hkey : key = "$ref" <;> simp [documentMember, hkey, Json.values] at hmembers
  | _ => simp [documentMember, withoutDocumentation, Json.values] at hmembers

theorem listsHaveKey_withRootType (hlists : (Json.obj members).listsHaveKey key = false) :
    (Json.obj (withRootType members)).listsHaveKey key = false := by
  rw [withRootType]
  split
  · exact hlists
  · apply List.any_eq_false.mpr
    intro found hfound
    rcases Json.mem_values_obj.mp hfound with rfl | ⟨member, hmember, hinner⟩
    · simp [Json.arr?]
    · rcases mem_setMember hmember with rfl | hmember
      · obtain rfl := List.mem_singleton.mp hinner
        simp [Json.arr?]
      · exact List.any_eq_false.mp (Json.listsHaveKey_of_member hmember hlists) found hinner

end Schema

namespace Validation

/-- Every reference in a value is the key of a name in the scope. -/
def RefersWithin (scope : String → Prop) (value : Json) : Prop :=
  ∀ {members text}, .obj members ∈ value.values → ("$ref", .str text) ∈ members →
    ∃ name, scope name ∧ text = name ++ "#"

variable {scope : String → Prop}

theorem RefersWithin.of_mem_values (h : RefersWithin scope value) (hfound : found ∈ value.values) :
    RefersWithin scope found :=
  fun hmembers ↦ h (Json.values_subset hfound hmembers)

theorem refersWithin_registryDocument (hlists : schema.listsHaveKey "$ref" = false) :
    RefersWithin (fun name ↦ name = own ∨ name ∈ Schema.dependencies lead own schema)
      (Schema.registryDocument lead own schema) := by
  intro members text hmembers hreference
  by_cases hown : own = Schema.intOrStringName
  · subst hown
    rw [Schema.registryDocument_intOrString] at hmembers
    have hnone : ∀ found ∈ Schema.intOrStringDocument.values,
        "$ref" ∉ found.members.map Prod.fst := by decide
    exact absurd (List.mem_map_of_mem hreference) (hnone _ hmembers)
  · cases schema with
    | obj entries =>
      rw [Schema.registryDocument_obj hown] at hmembers
      obtain ⟨target, htarget, rfl⟩ := Schema.exists_target_of_mem_documentMember
        (Schema.listsHaveKey_withRootType hlists) hmembers hreference
      refine ⟨Schema.referenceTarget lead target, ?_, rfl⟩
      have hcollected := Schema.memberTargets_withRootType_subset htarget
      by_cases hself : Schema.referenceTarget lead target = own
      · exact Or.inl hself
      · exact Or.inr (Schema.mem_othersOnce.mpr ⟨List.mem_map_of_mem hcollected, hself⟩)
    | _ =>
      simp only [Schema.registryDocument, if_neg hown, Json.values, Json.memberValues,
        List.mem_singleton] at hmembers
      obtain rfl := Json.obj.inj hmembers
      cases hreference

/-! ## Checks in a scope -/

/-- The same document under each name in a scope, which the references of these documents do not
leave. -/
def AgreeWithin (scope : String → Prop) (first second : Documents) : Prop :=
  ∀ name, scope name → ∃ document, first.lookup name = some document ∧
    second.lookup name = some document ∧ RefersWithin scope document

theorem AgreeWithin.check_eq {first second : Documents} (h : AgreeWithin scope first second)
    (hflat : ∀ name, scope name → FlatKey name) (fuel : Nat) {document : Json}
    (hschema : RefersWithin scope schema) :
    check first fuel document schema value = check second fuel document schema value := by
  induction fuel generalizing document schema value with
  | zero => rfl
  | succ fuel ih =>
    rw [check_succ, check_succ]
    apply evaluate_congr
    · rintro members text rfl hmember
      obtain ⟨name, hname, rfl⟩ := hschema (Json.mem_values_self _) hmember
      obtain ⟨found, hfirst, hsecond, -⟩ := h name hname
      rw [hflat name hname, hflat name hname, hfirst, hsecond]
    · intro target found inner hcall
      cases hcall with
      | keyword hfound _ =>
        rcases hfound with hfound | hobject
        · exact ih (hschema.of_mem_values hfound)
        · cases fuel with
          | zero => rfl
          | succ fuel => exact check_of_not_object first second fuel fuel hobject
      | reference hobject hmember hresolve =>
        subst hobject
        obtain ⟨name, hname, rfl⟩ := hschema (Json.mem_values_self _) hmember
        obtain ⟨registered, hfirst, -, hrefers⟩ := h name hname
        rw [hflat name hname, hfirst] at hresolve
        cases hresolve
        exact ih hrefers

end Validation

/-- A validator whose answers depend on nothing but the schema, the instance and the documents that
references lead to. This is said of references that are the keys of the given names. -/
def Validator.Local (validator : Validator) (named : String → Prop) : Prop :=
  ∀ (scope : String → Prop) (first second : Documents) (schema value : Json),
    (∀ name, scope name → named name) → Validation.AgreeWithin scope first second →
      Validation.RefersWithin scope schema →
        validator first schema value = validator second schema value

/-- The fuel of the two checks may differ, but it is enough for both. -/
theorem Validation.local_draft7 {named : String → Prop}
    (hflat : ∀ name, named name → FlatKey name) : draft7.Local named := by
  intro scope first second schema value hscope hagree hschema
  rw [draft7_eq_of_fuelFor_le (Nat.le_max_left _ (fuelFor second schema value)),
    draft7_eq_of_fuelFor_le (Nat.le_max_right (fuelFor first schema value) _),
    hagree.check_eq (fun name hname ↦ hflat name (hscope name hname)) _ hschema]

end SchemaModules
