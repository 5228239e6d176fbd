import SchemaModules.Naming.Names
import SchemaModules.Schema.TypeExpr

/-!
# Types inside types

Induction over types reaches the types of fields and of further keys. The outline of a type is what
every rendering of it has to tell: all but its comments, and references by their interface names.
-/

namespace SchemaModules.Schema

/-- Induction over the types of fields and of further keys as well. -/
@[elab_as_elim]
theorem TypeExpr.nested_induction {motive : TypeExpr → Prop} (type : TypeExpr)
    (any : motive .any) (primitive : ∀ primitive, motive (.primitive primitive))
    (textOrNumber : motive .textOrNumber) (reference : ∀ name, motive (.reference name))
    (array : ∀ item, motive item → motive (.array item))
    (object : ∀ fields index, (∀ entry ∈ fields, motive entry.2) →
      (∀ type ∈ index, motive type) → motive (.object fields index)) : motive type := by
  refine @TypeExpr.rec motive (fun fields ↦ ∀ entry ∈ fields, motive entry.2)
    (fun index ↦ ∀ type ∈ index, motive type) (fun entry ↦ motive entry.2)
    any primitive textOrNumber reference array object ?_ ?_ ?_ ?_ ?_ type
  · simp
  · intro first rest hfirst hrest
    exact List.forall_mem_cons.mpr ⟨hfirst, hrest⟩
  · simp
  · intro type htype
    simpa using htype
  · intro field type htype
    exact htype

mutual

/-- A type without its comments, in which a reference is an interface name. -/
def TypeExpr.outline : TypeExpr → TypeExpr
  | .reference name => .reference (Naming.interfaceName name)
  | .array item => .array item.outline
  | .object fields index => .object (fieldOutlines fields) (indexOutline index)
  | type => type

def fieldOutlines : List (Field × TypeExpr) → List (Field × TypeExpr)
  | [] => []
  | (field, type) :: rest => ({ field with comment := none }, type.outline) :: fieldOutlines rest

def indexOutline : Option TypeExpr → Option TypeExpr
  | none => none
  | some type => some type.outline

end

end SchemaModules.Schema
