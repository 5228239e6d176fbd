import SchemaModules.Proofs.Lookup
import SchemaModules.Schema.Document

/-!
# Members of registry documents

A registry document has the members of its schema but for the documentation, in the same order.
What a key leads to in the document depends on what it leads to in the schema alone.
-/

namespace SchemaModules.Schema

variable {lead key text : String} {members : List (String × Json)} {value : Json}

theorem itemsWithoutDocumentation_eq_map (items : List Json) :
    itemsWithoutDocumentation items = items.map withoutDocumentation := by
  induction items with
  | nil => rfl
  | cons item rest ih => rw [itemsWithoutDocumentation, ih, List.map_cons]

theorem membersWithoutDocumentation_eq_map (members : List (String × Json)) :
    membersWithoutDocumentation members =
      (members.filter fun member ↦ !isDocumentation member.1).map
        fun member ↦ (member.1, withoutDocumentation member.2) := by
  induction members with
  | nil => rfl
  | cons member rest ih =>
    obtain ⟨name, value⟩ := member
    rw [membersWithoutDocumentation, ih]
    by_cases hname : isDocumentation name <;> simp [hname]

theorem lookup_membersWithoutDocumentation (key : String) (members : List (String × Json)) :
    (membersWithoutDocumentation members).lookup key =
      if isDocumentation key then none else (members.lookup key).map withoutDocumentation := by
  rw [membersWithoutDocumentation_eq_map,
    lookup_map_filter (fun name ↦ !isDocumentation name) fun _ ↦ withoutDocumentation]
  by_cases hkey : isDocumentation key <;> simp [hkey]

theorem documentMembers_eq_map (lead : String) (members : List (String × Json)) :
    documentMembers lead members = (members.filter fun member ↦ !isDocumentation member.1).map
      fun member ↦ (member.1, documentMember lead member.1 member.2) := by
  induction members with
  | nil => rfl
  | cons member rest ih =>
    obtain ⟨name, value⟩ := member
    rw [documentMembers, ih]
    by_cases hname : isDocumentation name <;> simp [hname]

theorem lookup_documentMembers (lead key : String) (members : List (String × Json)) :
    (documentMembers lead members).lookup key =
      if isDocumentation key then none
      else (members.lookup key).map (documentMember lead key) := by
  rw [documentMembers_eq_map,
    lookup_map_filter (fun name ↦ !isDocumentation name) (documentMember lead)]
  by_cases hkey : isDocumentation key <;> simp [hkey]

/-- The look-up of a keyword, which is no documentation. -/
theorem lookup_documentMembers_of_keyword (hkey : isDocumentation key = false) :
    (documentMembers lead members).lookup key =
      (members.lookup key).map (documentMember lead key) := by
  rw [lookup_documentMembers, hkey]
  rfl

@[simp]
theorem documentMember_obj : documentMember lead key (.obj members) =
    .obj (documentMembers lead members) := by
  rw [documentMember]

theorem documentMember_arr (items : List Json) :
    documentMember lead key (.arr items) = withoutDocumentation (.arr items) := by
  simp [documentMember]

theorem isObject_documentMember :
    (documentMember lead key value).isObject = value.isObject := by
  cases value with
  | str text => by_cases hkey : key = "$ref" <;> simp [documentMember, hkey, Json.isObject]
  | _ => simp [documentMember, withoutDocumentation, Json.isObject]

theorem members_documentMember :
    (documentMember lead key value).members = documentMembers lead value.members := by
  cases value with
  | str text =>
    by_cases hkey : key = "$ref" <;> simp [documentMember, hkey, Json.members, documentMembers]
  | _ => simp [documentMember, withoutDocumentation, Json.members, documentMembers]

theorem str?_documentMember (hkey : key ≠ "$ref") :
    (documentMember lead key value).str? = value.str? := by
  cases value <;> simp [documentMember, withoutDocumentation, Json.str?, hkey]

theorem str?_documentMember_ref :
    (documentMember lead "$ref" value).str? = value.str?.map (registryKey lead) := by
  cases value <;> simp [documentMember, withoutDocumentation, Json.str?]

theorem mem_documentMembers (hkey : isDocumentation key = false) (h : (key, value) ∈ members) :
    (key, documentMember lead key value) ∈ documentMembers lead members := by
  rw [documentMembers_eq_map, List.mem_map]
  exact ⟨(key, value), List.mem_filter.mpr ⟨h, by simpa using hkey⟩, rfl⟩

/-- A document is rewritten like the value of a member whose key means nothing. -/
theorem registryDocument_obj {name : String} (hname : name ≠ intOrStringName) :
    registryDocument lead name (.obj members) =
      documentMember lead "" (.obj (withRootType members)) := by
  rw [registryDocument, if_neg hname, documentMember_obj]

theorem registryDocument_intOrString (lead : String) (schema : Json) :
    registryDocument lead intOrStringName schema = intOrStringDocument := by
  simp [registryDocument]

end SchemaModules.Schema
