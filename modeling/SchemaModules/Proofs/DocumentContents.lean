import SchemaModules.Proofs.DocumentPaths

/-!
# Contents of registry documents

A registry document drops the documentation of its schema and nothing else. Whatever stands in the
schema, with the type of the root added, at a place that no documentation leads to stands at the
same place of the document, and only references outside arrays read differently there.
-/

namespace SchemaModules

namespace Json

/-- Values without parts. -/
def isScalar : Json → Bool
  | arr _ | obj _ => false
  | _ => true

theorem itemsHaveKey_eq_any (key : String) (items : List Json) :
    itemsHaveKey key items = items.any fun item ↦ item.hasKey key := by
  induction items with
  | nil => rfl
  | cons item rest ih => rw [itemsHaveKey, ih, List.any_cons]

theorem membersHaveKey_eq_any (key : String) (members : List (String × Json)) :
    membersHaveKey key members =
      members.any fun member ↦ member.1 == key || member.2.hasKey key := by
  induction members with
  | nil => rfl
  | cons member rest ih =>
    obtain ⟨name, value⟩ := member
    rw [membersHaveKey, ih, List.any_cons]

end Json

namespace Schema

open Json (Step)

variable {lead key name text : String} {members : List (String × Json)} {value found : Json}
  {path : List Step}

/-! ## Values side by side -/

/-- Values of one kind that agree without regard to their parts: scalars are equal, arrays are as
long as each other, and the second object has the keys of the first but for documentation, in the
same order. -/
inductive Alike : Json → Json → Prop
  | scalar {value : Json} (h : value.isScalar = true) : Alike value value
  | arr {items kept : List Json} (h : kept.length = items.length) : Alike (.arr items) (.arr kept)
  | obj {members kept : List (String × Json)}
      (h : kept.map Prod.fst = (members.map Prod.fst).filter fun key ↦ !isDocumentation key) :
      Alike (.obj members) (.obj kept)

theorem alike_withoutDocumentation (value : Json) : Alike value (withoutDocumentation value) := by
  cases value with
  | arr items =>
    rw [withoutDocumentation]
    apply Alike.arr
    rw [itemsWithoutDocumentation_eq_map, List.length_map]
  | obj members =>
    rw [withoutDocumentation]
    apply Alike.obj
    rw [membersWithoutDocumentation_eq_map, List.map_map, List.filter_map]
    rfl
  | _ =>
    rw [withoutDocumentation]
    · exact Alike.scalar rfl
    all_goals simp

theorem alike_documentMember (h : key = "$ref" → value.str? = none) :
    Alike value (documentMember lead key value) := by
  cases value with
  | obj members =>
    rw [documentMember_obj]
    apply Alike.obj
    rw [documentMembers_eq_map, List.map_map, List.filter_map]
    rfl
  | str text =>
    have hkey : key ≠ "$ref" := by
      intro hkey
      cases h hkey
    rw [documentMember, if_neg hkey]
    exact Alike.scalar rfl
  | _ =>
    rw [documentMember]
    · exact alike_withoutDocumentation _
    all_goals simp

/-- The places of references that a document rewrites: reached through objects only. -/
def IsReferencePath (path : List Step) : Prop :=
  (∀ step ∈ path, step.isKey = true) ∧ path.getLast? = some (.key "$ref")

theorem alike_documentAt (h : IsReferencePath path → value.str? = none) :
    Alike value (documentAt lead "" path value) := by
  by_cases hindex : ∃ step ∈ path, step.isKey = false
  · rw [documentAt_index hindex]
    exact alike_withoutDocumentation value
  · have hkeys : ∀ step ∈ path, step.isKey = true := by simpa using hindex
    rcases List.eq_nil_or_concat' path with rfl | ⟨before, last, rfl⟩
    · have hroot : "" ≠ "$ref" := by decide
      exact alike_documentMember fun hkey ↦ absurd hkey hroot
    · cases last with
      | index place => cases hkeys (.index place) (by simp)
      | key name =>
        rw [documentAt_keys fun step hstep ↦ hkeys step (List.mem_append_left _ hstep)]
        apply alike_documentMember
        rintro rfl
        exact h ⟨hkeys, List.getLast?_concat⟩

theorem documentAt_of_isReferencePath (h : IsReferencePath path) :
    documentAt lead "" path (.str text) = .str (registryKey lead text) := by
  obtain ⟨hkeys, hlast⟩ := h
  obtain ⟨before, rfl⟩ := List.getLast?_eq_some_iff.mp hlast
  rw [documentAt_keys fun step hstep ↦ hkeys step (List.mem_append_left _ hstep)]
  simp [documentMember]

/-- A dropped key is in none of the members that are kept, as long as it is in none of their
values. -/
theorem membersHaveKey_filter (hkey : isDocumentation key = true) (change : String → Json → Json)
    (hchange : ∀ member ∈ members, (change member.1 member.2).hasKey key = false) :
    Json.membersHaveKey key ((members.filter fun member ↦ !isDocumentation member.1).map
      fun member ↦ (member.1, change member.1 member.2)) = false := by
  rw [Json.membersHaveKey_eq_any, List.any_map, List.any_eq_false]
  intro member hmember
  obtain ⟨hmem, hkept⟩ := List.mem_filter.mp hmember
  have hname : member.1 ≠ key := by
    rintro rfl
    simp [hkey] at hkept
  simp [hname, hchange member hmem]

theorem hasKey_withoutDocumentation (hkey : isDocumentation key = true) (value : Json) :
    (withoutDocumentation value).hasKey key = false := by
  induction value using Json.nested_induction with
  | arr items ih =>
    rw [withoutDocumentation, Json.hasKey, Json.itemsHaveKey_eq_any,
      itemsWithoutDocumentation_eq_map]
    simpa using ih
  | obj members ih =>
    rw [withoutDocumentation, Json.hasKey, membersWithoutDocumentation_eq_map]
    exact membersHaveKey_filter hkey (fun _ ↦ withoutDocumentation) ih
  | _ => simp [withoutDocumentation, Json.hasKey]

theorem hasKey_documentMember (hkey : isDocumentation key = true) (lead name : String)
    (value : Json) : (documentMember lead name value).hasKey key = false := by
  induction value using Json.nested_induction generalizing name with
  | obj members ih =>
    rw [documentMember_obj, Json.hasKey, documentMembers_eq_map]
    exact membersHaveKey_filter hkey (documentMember lead) fun member hmember ↦
      ih member hmember member.1
  | arr items =>
    rw [documentMember_arr]
    exact hasKey_withoutDocumentation hkey (.arr items)
  | str text => by_cases hname : name = "$ref" <;> simp [documentMember, hname, Json.hasKey]
  | _ => simp [documentMember, withoutDocumentation, Json.hasKey]

/-! ## Whole documents -/

/-- The document of a mapping beside the mapping itself, the type of whose root is made explicit. -/
structure DropsDocumentation (lead : String) (root document : Json) : Prop where
  /-- The document has a value at each place of the root that no documentation leads to. -/
  leads : ∀ path, (document.follow path).isSome = true ↔
    (root.follow path).isSome = true ∧ path.any isDocumentationStep = false
  /-- What stands at a place is alike, but for references that are rewritten. -/
  alike : ∀ {path value found}, root.follow path = some value →
    document.follow path = some found → (IsReferencePath path → value.str? = none) →
    Alike value found
  reference : ∀ {path text found}, IsReferencePath path → root.follow path = some (.str text) →
    document.follow path = some found → found = .str (registryKey lead text)
  /-- No object of the document has a key that is documentation, be it inside arrays. -/
  undocumented : ∀ key, isDocumentation key = true → document.hasKey key = false

/-- What a document has at a place comes from the same place of the root. -/
theorem eq_documentAt_of_follow (hname : name ≠ intOrStringName)
    (hroot : (Json.obj (withRootType members)).follow path = some value)
    (h : (registryDocument lead name (.obj members)).follow path = some found) :
    found = documentAt lead "" path value := by
  rw [follow_registryDocument hname, hroot] at h
  split at h
  · cases h
  · exact (Option.some.inj h).symm

/-- The registry document of a mapping is the mapping without documentation, up to references. -/
theorem registryDocument_dropsDocumentation (lead : String) (members : List (String × Json))
    (hname : name ≠ intOrStringName) :
    DropsDocumentation lead (.obj (withRootType members))
      (registryDocument lead name (.obj members)) where
  leads path := by
    rw [follow_registryDocument hname]
    by_cases hpath : path.any isDocumentationStep = true <;> simp [hpath]
  alike hroot hdocument htext := by
    rw [eq_documentAt_of_follow hname hroot hdocument]
    exact alike_documentAt htext
  reference hpath hroot hdocument := by
    rw [eq_documentAt_of_follow hname hroot hdocument]
    exact documentAt_of_isReferencePath hpath
  undocumented key hkey := by
    rw [registryDocument_obj hname]
    exact hasKey_documentMember hkey lead "" _

/-- A schema without a type that is documented inside an array of arrays, and has a reference that
is no text. -/
def annotatedSchema : Json :=
  .obj [("x-kubernetes-map-type", .str "atomic"),
    ("properties", .obj [("next", .obj [("$ref", .str "#/definitions/x.Next")]),
      ("other", .obj [("$ref", .obj [("description", .str "no text")])])]),
    ("enum", .arr [.arr [.obj [("description", .str "inner"), ("$ref", .str "kept")]]])]

theorem registryDocument_dropsDocumentation_annotatedSchema :
    "x.Whole" ≠ intOrStringName ∧
      DropsDocumentation "#/definitions/" (.obj (withRootType annotatedSchema.members))
        (registryDocument "#/definitions/" "x.Whole" annotatedSchema) ∧
      (registryDocument "#/definitions/" "x.Whole" annotatedSchema).follow
        [.key "enum", .index 0, .index 0] = some (.obj [("$ref", .str "kept")]) := by
  have hname : "x.Whole" ≠ intOrStringName := by decide
  refine ⟨hname, ?_, ?_⟩
  · exact registryDocument_dropsDocumentation "#/definitions/" annotatedSchema.members hname
  · rfl

end Schema

end SchemaModules
