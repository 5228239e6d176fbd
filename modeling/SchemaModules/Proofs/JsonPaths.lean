import SchemaModules.Json.Basic
import SchemaModules.Proofs.Lookup

/-!
# Paths into JSON values

A path leads from a value to one of the values in it, by keys of objects and by places in arrays.
Where a key occurs twice, it leads to the first occurrence.
-/

namespace SchemaModules.Json

/-- Induction with the hypothesis for all items of an array and for all values of an object. -/
@[elab_as_elim]
theorem nested_induction {motive : Json → Prop} (value : Json)
    (null : motive .null) (bool : ∀ value, motive (.bool value))
    (int : ∀ value, motive (.int value)) (real : ∀ value, motive (.real value))
    (str : ∀ text, motive (.str text))
    (arr : ∀ items, (∀ item ∈ items, motive item) → motive (.arr items))
    (obj : ∀ members, (∀ member ∈ members, motive member.2) → motive (.obj members)) :
    motive value := by
  refine @Json.rec motive (fun items ↦ ∀ item ∈ items, motive item)
    (fun members ↦ ∀ member ∈ members, motive member.2) (fun member ↦ motive member.2)
    null bool int real str arr obj ?_ ?_ ?_ ?_ ?_ value
  · intro item hitem
    cases hitem
  · intro first rest hfirst hrest
    exact List.forall_mem_cons.mpr ⟨hfirst, hrest⟩
  · intro member hmember
    cases hmember
  · intro first rest hfirst hrest
    exact List.forall_mem_cons.mpr ⟨hfirst, hrest⟩
  · intro key value hvalue
    exact hvalue

/-- Induction for what looks at objects only, and at those two steps below another. -/
@[elab_as_elim]
theorem object_induction {motive : Json → Prop} (value : Json)
    (other : ∀ value, value.isObject = false → motive value)
    (obj : ∀ members, (∀ member ∈ members, motive member.2) →
      (∀ member ∈ members, ∀ inner ∈ member.2.members, motive inner.2) → motive (.obj members)) :
    motive value := by
  suffices h : motive value ∧ ∀ member ∈ value.members, motive member.2 from h.1
  induction value using Json.nested_induction with
  | obj members ih =>
    have hmembers : ∀ member ∈ members, motive member.2 :=
      fun member hmember ↦ (ih member hmember).1
    exact ⟨obj members hmembers fun member hmember ↦ (ih member hmember).2, hmembers⟩
  | _ => exact ⟨other _ rfl, fun _ hmember ↦ absurd hmember List.not_mem_nil⟩

inductive Step
  | key (name : String)
  | index (place : Nat)
  deriving DecidableEq

def Step.isKey : Step → Bool
  | key _ => true
  | index _ => false

/-- The value one step down. -/
def child? : Json → Step → Option Json
  | .obj members, .key name => members.lookup name
  | .arr items, .index place => items[place]?
  | _, _ => none

/-- The value at the end of a path. -/
def follow (value : Json) : List Step → Option Json
  | [] => some value
  | step :: path => (value.child? step).bind fun child ↦ child.follow path

@[simp]
theorem follow_nil (value : Json) : value.follow [] = some value := rfl

theorem follow_cons (value : Json) (step : Step) (path : List Step) :
    value.follow (step :: path) = (value.child? step).bind fun child ↦ child.follow path := rfl

/-- Only arrays and objects that hold something lead further. -/
theorem child?_eq_none_of_not_truthy {value : Json} (h : value.isTruthy = false) (step : Step) :
    value.child? step = none := by
  cases value with
  | arr items =>
    have hitems : items = [] := by simpa [isTruthy] using h
    cases step <;> simp [child?, hitems]
  | obj members =>
    have hmembers : members = [] := by simpa [isTruthy] using h
    cases step <;> simp [child?, hmembers]
  | _ => rfl

/-! ## Keys -/

mutual

/-- Whether some object in a value has a member of that name. -/
def hasKey (key : String) : Json → Bool
  | .obj members => membersHaveKey key members
  | .arr items => itemsHaveKey key items
  | _ => false

def membersHaveKey (key : String) : List (String × Json) → Bool
  | [] => false
  | (name, value) :: rest => name == key || hasKey key value || membersHaveKey key rest

def itemsHaveKey (key : String) : List Json → Bool
  | [] => false
  | item :: rest => hasKey key item || itemsHaveKey key rest

end

theorem membersHaveKey_of_mem {key name : String} {value : Json} {members : List (String × Json)}
    (hmem : (name, value) ∈ members) (h : name = key ∨ value.hasKey key = true) :
    membersHaveKey key members = true := by
  induction members with
  | nil => cases hmem
  | cons member rest ih =>
    obtain ⟨first, other⟩ := member
    rw [membersHaveKey, Bool.or_eq_true, Bool.or_eq_true, beq_iff_eq]
    rcases List.mem_cons.mp hmem with heq | hrest
    · cases heq
      exact Or.inl h
    · exact Or.inr (ih hrest)

theorem itemsHaveKey_of_mem {key : String} {item : Json} {items : List Json}
    (hmem : item ∈ items) (h : item.hasKey key = true) : itemsHaveKey key items = true := by
  induction items with
  | nil => cases hmem
  | cons first rest ih =>
    rw [itemsHaveKey, Bool.or_eq_true]
    rcases List.mem_cons.mp hmem with rfl | hrest
    · exact Or.inl h
    · exact Or.inr (ih hrest)

/-- A key that an object does not have is the name of no member, and no member has it. -/
theorem hasKey_obj_eq_false {key name : String} {value : Json} {members : List (String × Json)}
    (h : (obj members).hasKey key = false) (hmem : (name, value) ∈ members) :
    name ≠ key ∧ value.hasKey key = false := by
  rw [hasKey] at h
  constructor
  · intro hname
    rw [membersHaveKey_of_mem hmem (Or.inl hname)] at h
    cases h
  · rw [Bool.eq_false_iff]
    intro hkey
    rw [membersHaveKey_of_mem hmem (Or.inr hkey)] at h
    cases h

/-- Every key on a path occurs in the value. -/
theorem hasKey_of_follow {value found : Json} {path : List Step} {key : String}
    (h : value.follow path = some found) (hkey : .key key ∈ path) : value.hasKey key = true := by
  induction path generalizing value with
  | nil => cases hkey
  | cons step path ih =>
    obtain ⟨child, hchild, hfollow⟩ := Option.bind_eq_some_iff.mp h
    have hrest : .key key ∈ path → child.hasKey key = true := ih hfollow
    cases value with
    | obj members =>
      cases step with
      | key name =>
        rw [hasKey]
        refine membersHaveKey_of_mem (mem_of_lookup hchild) ?_
        rcases List.mem_cons.mp hkey with heq | hmem
        · cases heq
          exact Or.inl rfl
        · exact Or.inr (hrest hmem)
      | index place => cases hchild
    | arr items =>
      cases step with
      | key name => cases hchild
      | index place =>
        rw [hasKey]
        refine itemsHaveKey_of_mem (List.mem_of_getElem? hchild) ?_
        rcases List.mem_cons.mp hkey with heq | hmem
        · cases heq
        · exact hrest hmem
    | _ => cases hchild

end SchemaModules.Json
