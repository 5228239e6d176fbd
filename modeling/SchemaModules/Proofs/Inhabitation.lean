import SchemaModules.Registry.Validation
import SchemaModules.Schema.TypeExpr

/-!
# Instances of types

What it means for a JSON value to be an instance of a structural type, when each definition stands
for a type. A definition may refer to itself, hence the instances are given inductively: a value is
an instance when finitely many steps show it.
-/

namespace SchemaModules.Schema

/-- The values of a type. `types` gives the type of each definition. -/
inductive Inhabits (types : String → Option TypeExpr) : TypeExpr → Json → Prop
  | any {value : Json} : Inhabits types .any value
  | string {text : String} : Inhabits types (.primitive .string) (.str text)
  | whole {value : Int} : Inhabits types (.primitive .number) (.int value)
  | floating {value : Number.Double} : Inhabits types (.primitive .number) (.real value)
  | boolean {value : Bool} : Inhabits types (.primitive .boolean) (.bool value)
  | null : Inhabits types (.primitive .null) .null
  | text {value : Json} (h : Inhabits types (.primitive .string) value) :
    Inhabits types .textOrNumber value
  | number {value : Json} (h : Inhabits types (.primitive .number) value) :
    Inhabits types .textOrNumber value
  | reference {name : String} {type : TypeExpr} {value : Json} (hname : types name = some type)
      (h : Inhabits types type value) : Inhabits types (.reference name) value
  | array {item : TypeExpr} {items : List Json}
      (hitems : ∀ value ∈ items, Inhabits types item value) :
    Inhabits types (.array item) (.arr items)
  | object {fields : List (Field × TypeExpr)} {index : Option TypeExpr}
      {members : List (String × Json)}
      (hrequired : ∀ entry ∈ fields, entry.1.required = true →
        (members.lookup entry.1.name).isSome = true)
      (hdeclared : ∀ entry ∈ fields, ∀ value, members.lookup entry.1.name = some value →
        Inhabits types entry.2 value)
      (hundeclared : ∀ type, index = some type → ∀ member ∈ members,
        (∀ entry ∈ fields, entry.1.name ≠ member.1) → Inhabits types type member.2) :
    Inhabits types (.object fields index) (.obj members)

/-! ## Instances by their kind -/

section

open Validation

variable {types : String → Option TypeExpr} {value : Json}

theorem inhabits_string (h : ofType? "string" value = some true) :
    Inhabits types (.primitive .string) value := by
  cases value with
  | str text => exact .string
  | _ => simp [ofType?, Json.str?] at h

theorem inhabits_number (h : ofType? "number" value = some true) :
    Inhabits types (.primitive .number) value := by
  cases value with
  | int value => exact .whole
  | real value => exact .floating
  | _ => simp [ofType?, isNumber] at h

theorem inhabits_integer (h : ofType? "integer" value = some true) :
    Inhabits types (.primitive .number) value := by
  cases value with
  | int value => exact .whole
  | real value => exact .floating
  | _ => simp [ofType?, isInteger] at h

theorem inhabits_boolean (h : ofType? "boolean" value = some true) :
    Inhabits types (.primitive .boolean) value := by
  cases value with
  | bool value => exact .boolean
  | _ => simp [ofType?] at h

theorem inhabits_null (h : ofType? "null" value = some true) :
    Inhabits types (.primitive .null) value := by
  cases value with
  | null => exact .null
  | _ => simp [ofType?] at h

end

/-! ## Names in types -/

mutual

/-- The names of all fields at any depth of a type. -/
def TypeExpr.fieldNames : TypeExpr → List String
  | .array item => item.fieldNames
  | .object fields index => namesOfFields fields ++ namesOfIndex index
  | _ => []

def namesOfFields : List (Field × TypeExpr) → List String
  | [] => []
  | (field, type) :: rest => field.name :: type.fieldNames ++ namesOfFields rest

def namesOfIndex : Option TypeExpr → List String
  | none => []
  | some type => type.fieldNames

end

theorem mem_namesOfFields {fields : List (Field × TypeExpr)} {entry : Field × TypeExpr}
    (hentry : entry ∈ fields) :
    entry.1.name ∈ namesOfFields fields ∧ entry.2.fieldNames ⊆ namesOfFields fields := by
  induction fields with
  | nil => cases hentry
  | cons first rest ih =>
    obtain ⟨field, type⟩ := first
    rw [namesOfFields]
    rcases List.mem_cons.mp hentry with rfl | hrest
    · refine ⟨List.mem_cons_self, ?_⟩
      intro name hname
      exact List.mem_cons_of_mem _ (List.mem_append_left _ hname)
    · obtain ⟨hname, hnames⟩ := ih hrest
      exact ⟨List.mem_cons_of_mem _ (List.mem_append_right _ hname),
        fun name hmem ↦ List.mem_cons_of_mem _ (List.mem_append_right _ (hnames hmem))⟩

end SchemaModules.Schema
