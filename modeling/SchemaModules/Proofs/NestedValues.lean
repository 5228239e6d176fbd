import SchemaModules.Proofs.JsonPaths

/-!
# Values inside values

All the values that a value consists of, at any depth and under keys that occur twice as well.
There are as many of them as the size says, and those inside an array or an object are less deep.
-/

namespace SchemaModules.Json

variable {value inner found : Json} {items : List Json} {members : List (String × Json)}
  {key : String}

mutual

/-- A value and the values in it. -/
def values : Json → List Json
  | .arr items => .arr items :: itemValues items
  | .obj members => .obj members :: memberValues members
  | value => [value]

def itemValues : List Json → List Json
  | [] => []
  | item :: rest => item.values ++ itemValues rest

def memberValues : List (String × Json) → List Json
  | [] => []
  | (_, value) :: rest => value.values ++ memberValues rest

end

theorem mem_values_self (value : Json) : value ∈ value.values := by
  cases value <;> simp [values]

theorem mem_itemValues : found ∈ itemValues items ↔ ∃ item ∈ items, found ∈ item.values := by
  induction items with
  | nil => simp [itemValues]
  | cons item rest ih => simp [itemValues, ih]

theorem mem_memberValues :
    found ∈ memberValues members ↔ ∃ member ∈ members, found ∈ member.2.values := by
  induction members with
  | nil => simp [memberValues]
  | cons member rest ih => simp [memberValues, ih]

theorem mem_values_arr :
    found ∈ (Json.arr items).values ↔ found = .arr items ∨ ∃ item ∈ items, found ∈ item.values := by
  rw [values, List.mem_cons, mem_itemValues]

theorem mem_values_obj : found ∈ (Json.obj members).values ↔
    found = .obj members ∨ ∃ member ∈ members, found ∈ member.2.values := by
  rw [values, List.mem_cons, mem_memberValues]

theorem mem_values_of_item (h : inner ∈ items) : inner ∈ (Json.arr items).values :=
  mem_values_arr.mpr (Or.inr ⟨inner, h, inner.mem_values_self⟩)

theorem mem_values_of_member (h : (key, inner) ∈ members) : inner ∈ (Json.obj members).values :=
  mem_values_obj.mpr (Or.inr ⟨(key, inner), h, inner.mem_values_self⟩)

/-- What is inside a value inside another one is inside that one. -/
theorem values_subset (h : inner ∈ value.values) : inner.values ⊆ value.values := by
  induction value using Json.nested_induction with
  | arr items ih =>
    rcases mem_values_arr.mp h with rfl | ⟨item, hitem, hinner⟩
    · exact List.Subset.refl _
    · intro found hfound
      exact mem_values_arr.mpr (Or.inr ⟨item, hitem, ih item hitem hinner hfound⟩)
  | obj members ih =>
    rcases mem_values_obj.mp h with rfl | ⟨member, hmember, hinner⟩
    · exact List.Subset.refl _
    · intro found hfound
      exact mem_values_obj.mpr (Or.inr ⟨member, hmember, ih member hmember hinner hfound⟩)
  | _ => simp_all [values]

/-! ## Sizes -/

theorem length_values (value : Json) : value.values.length = value.size := by
  induction value using Json.nested_induction with
  | arr items ih =>
    have hitems : (itemValues items).length = sizeItems items := by
      induction items with
      | nil => rfl
      | cons item rest ihRest =>
        obtain ⟨hitem, hrest⟩ := List.forall_mem_cons.mp ih
        rw [itemValues, List.length_append, sizeItems, hitem, ihRest hrest]
    simp only [values, size, List.length_cons, hitems]
    omega
  | obj members ih =>
    have hmembers : (memberValues members).length = sizeMembers members := by
      induction members with
      | nil => rfl
      | cons member rest ihRest =>
        obtain ⟨hmember, hrest⟩ := List.forall_mem_cons.mp ih
        obtain ⟨key, value⟩ := member
        rw [memberValues, List.length_append, sizeMembers, hmember, ihRest hrest]
    simp only [values, size, List.length_cons, hmembers]
    omega
  | _ => simp [values, size]

/-! ## Depths -/

theorem depth_lt_of_mem_items (h : inner ∈ items) : inner.depth < (Json.arr items).depth := by
  have hle : inner.depth ≤ depthItems items := by
    induction items with
    | nil => cases h
    | cons item rest ih =>
      rw [depthItems]
      rcases List.mem_cons.mp h with rfl | hrest
      · exact Nat.le_max_left _ _
      · exact Nat.le_trans (ih hrest) (Nat.le_max_right _ _)
  rw [depth]
  omega

theorem depth_lt_of_mem_members (h : (key, inner) ∈ members) :
    inner.depth < (Json.obj members).depth := by
  have hle : inner.depth ≤ depthMembers members := by
    induction members with
    | nil => cases h
    | cons member rest ih =>
      rw [depthMembers]
      rcases List.mem_cons.mp h with rfl | hrest
      · exact Nat.le_max_left _ _
      · exact Nat.le_trans (ih hrest) (Nat.le_max_right _ _)
  rw [depth]
  omega

end SchemaModules.Json
