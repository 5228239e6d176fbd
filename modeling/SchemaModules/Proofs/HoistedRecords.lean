import SchemaModules.Proofs.FreshNames
import SchemaModules.Proofs.NestedTypes

/-!
# Records hoisted out of types

What the translation of a type adds to a module: records under new names, each declared after all
records that it mentions. The typing names that the new declarations need are imported, and a hint
that names other definitions is quoted.
-/

namespace SchemaModules.Python

open Naming Schema Text

variable {scope middle final : Scope} {added others : List Record} {record : Record}
  {wanted name : String}

/-! ## Mentions -/

/-- The records that a hint mentions. -/
def TypeHint.records : TypeHint → List String
  | .record name => [name]
  | .list item => item.records
  | .dict value => value.records
  | _ => []

/-- The definitions whose interfaces a hint mentions. -/
def TypeHint.interfaces : TypeHint → List String
  | .interface name => [name]
  | .list item => item.interfaces
  | .dict value => value.interfaces
  | _ => []

/-- The hints of a record, that of further keys included. -/
def Record.hints (record : Record) : List TypeHint :=
  record.fields.map RecordField.hint ++ record.index.toList

def recordNames (records : List Record) : List String := records.map Record.name

@[simp]
theorem recordNames_append (first second : List Record) :
    recordNames (first ++ second) = recordNames first ++ recordNames second :=
  List.map_append

/-- Every record mentions only records that stand before it. -/
def InOrder (records : List Record) : Prop :=
  ∀ ⦃before record after⦄, records = before ++ record :: after →
    ∀ hint ∈ record.hints, hint.records ⊆ recordNames before

theorem inOrder_nil : InOrder [] := by
  intro before record after h
  simp at h

theorem InOrder.append (hfirst : InOrder added) (hsecond : InOrder others) :
    InOrder (added ++ others) := by
  intro before record after h hint hhint
  rcases List.append_eq_append_iff.mp h with ⟨between, rfl, hothers⟩ | ⟨between, hadded, hrest⟩
  · rw [recordNames_append]
    exact List.subset_append_of_subset_right _ (hsecond hothers hint hhint)
  · cases between with
    | nil =>
      have hothers : others = [] ++ record :: after := hrest.symm
      have hnothing : hint.records ⊆ [] := hsecond hothers hint hhint
      exact List.Subset.trans hnothing (List.nil_subset _)
    | cons first rest =>
      obtain ⟨rfl, rfl⟩ := List.cons.inj hrest
      exact hfirst hadded hint hhint

theorem InOrder.concat (hadded : InOrder added)
    (hrecord : ∀ hint ∈ record.hints, hint.records ⊆ recordNames added) :
    InOrder (added ++ [record]) := by
  intro before other after h hint hhint
  rcases List.append_eq_append_iff.mp h with ⟨between, rfl, hlast⟩ | ⟨between, hearlier, hrest⟩
  · cases between with
    | nil =>
      obtain ⟨rfl, -⟩ := List.cons.inj hlast
      rw [List.append_nil]
      exact hrecord hint hhint
    | cons first rest => simp at hlast
  · cases between with
    | nil =>
      obtain ⟨rfl, -⟩ := List.cons.inj hrest
      obtain rfl : added = before := by simpa using hearlier
      exact hrecord hint hhint
    | cons first rest =>
      obtain ⟨rfl, -⟩ := List.cons.inj hrest
      exact hadded hearlier hint hhint

/-- A name that begins as those of all hoisted records do. -/
def IsHoisted (name : String) : Prop := ∃ rest, name = "_I" ++ rest

/-- A name under which a record may nest others: that of an interface or of a hoisted record. -/
def IsParent (name : String) : Prop := (∃ rest, name = "I" ++ rest) ∨ IsHoisted name

theorem IsHoisted.append (h : IsHoisted name) (suffix : String) : IsHoisted (name ++ suffix) := by
  obtain ⟨rest, rfl⟩ := h
  exact ⟨rest ++ suffix, String.append_assoc⟩

theorem isHoisted_nestedName (h : IsParent name) (property : String) :
    IsHoisted (nestedName name property) := by
  have hbase : ∃ rest, String.ofList (name.toList.dropWhile (· == '_')) = "I" ++ rest := by
    rcases h with ⟨rest, rfl⟩ | ⟨rest, rfl⟩ <;> exact ⟨rest, by simp⟩
  obtain ⟨rest, hrest⟩ := hbase
  rw [nestedName, hrest, ← String.append_assoc]
  exact IsHoisted.append ⟨rest, rfl⟩ _

theorem isHoisted_freshName (h : IsHoisted wanted) (taken : List String) :
    IsHoisted (freshName taken wanted) := by
  obtain ⟨-, hfree, hnumbered⟩ := freshName_spec taken wanted
  by_cases htaken : wanted ∈ taken
  · obtain ⟨number, -, hname, -⟩ := hnumbered htaken
    rw [hname]
    exact h.append _
  · rwa [hfree htaken]

/-! ## What a translation declares -/

/-- A field that can be evaluated where the given typing names are imported. -/
structure RecordField.Sound (imports : List TypingName) (field : RecordField) : Prop where
  interfaces_eq : field.quoted = false → field.hint.interfaces = []
  notRequired_mem : field.required = false → .notRequired ∈ imports

/-- A record that can be declared where the given typing names are imported, and that mentions no
interfaces but those of the targets. -/
structure Record.Sound (targets : List String) (imports : List TypingName) (record : Record) :
    Prop where
  typedDict_mem : .typedDict ∈ imports
  fields : ∀ field ∈ record.fields, field.Sound imports
  interfaces_subset : ∀ hint ∈ record.hints, hint.interfaces ⊆ targets

/-- From the first scope to the second, the given records are declared under new names. -/
structure Declares (targets : List String) (scope final : Scope) (added : List Record) : Prop where
  records_eq : final.records = scope.records ++ added
  reserved_subset : scope.reserved ⊆ final.reserved
  imports_subset : scope.imports ⊆ final.imports
  names_subset : recordNames added ⊆ final.reserved
  fresh : ∀ name ∈ recordNames added, name ∉ scope.reserved
  hoisted : ∀ name ∈ recordNames added, IsHoisted name
  nodup : (recordNames added).Nodup
  inOrder : InOrder added
  sound : ∀ record ∈ added, record.Sound targets final.imports

variable {targets : List String} {imports moreImports : List TypingName}

theorem RecordField.Sound.mono {field : RecordField} (h : field.Sound imports)
    (himports : imports ⊆ moreImports) : field.Sound moreImports :=
  ⟨h.interfaces_eq, fun hoptional ↦ himports (h.notRequired_mem hoptional)⟩

theorem Record.Sound.mono (h : record.Sound targets imports) (himports : imports ⊆ moreImports) :
    record.Sound targets moreImports :=
  ⟨himports h.typedDict_mem, fun field hfield ↦ (h.fields field hfield).mono himports,
    h.interfaces_subset⟩

theorem Declares.refl (targets : List String) (scope : Scope) :
    Declares targets scope scope [] where
  records_eq := (List.append_nil _).symm
  reserved_subset := List.Subset.refl _
  imports_subset := List.Subset.refl _
  names_subset := List.nil_subset _
  fresh := by simp [recordNames]
  hoisted := by simp [recordNames]
  nodup := List.nodup_nil
  inOrder := inOrder_nil
  sound := by simp

theorem Declares.trans (hfirst : Declares targets scope middle added)
    (hsecond : Declares targets middle final others) :
    Declares targets scope final (added ++ others) where
  records_eq := by rw [hsecond.records_eq, hfirst.records_eq, List.append_assoc]
  reserved_subset := List.Subset.trans hfirst.reserved_subset hsecond.reserved_subset
  imports_subset := List.Subset.trans hfirst.imports_subset hsecond.imports_subset
  names_subset := by
    rw [recordNames_append]
    exact List.append_subset.mpr
      ⟨List.Subset.trans hfirst.names_subset hsecond.reserved_subset, hsecond.names_subset⟩
  fresh := by
    intro name hname htaken
    rw [recordNames_append] at hname
    rcases List.mem_append.mp hname with hadded | hothers
    · exact hfirst.fresh name hadded htaken
    · exact hsecond.fresh name hothers (hfirst.reserved_subset htaken)
  hoisted := by
    intro name hname
    rw [recordNames_append] at hname
    exact (List.mem_append.mp hname).elim (hfirst.hoisted name) (hsecond.hoisted name)
  nodup := by
    rw [recordNames_append]
    refine List.nodup_append.mpr ⟨hfirst.nodup, hsecond.nodup, ?_⟩
    rintro first hadded _ hothers rfl
    exact hsecond.fresh first hothers (hfirst.names_subset hadded)
  inOrder := hfirst.inOrder.append hsecond.inOrder
  sound := by
    intro record hrecord
    rcases List.mem_append.mp hrecord with hadded | hothers
    · exact (hfirst.sound record hadded).mono hsecond.imports_subset
    · exact hsecond.sound record hothers

theorem Declares.needs (h : Declares targets scope final added) (typing : TypingName) :
    Declares targets scope (final.needs typing) added where
  records_eq := h.records_eq
  reserved_subset := h.reserved_subset
  imports_subset := List.Subset.trans h.imports_subset (List.subset_cons_self _ _)
  names_subset := h.names_subset
  fresh := h.fresh
  hoisted := h.hoisted
  nodup := h.nodup
  inOrder := h.inOrder
  sound := fun record hrecord ↦ (h.sound record hrecord).mono (List.subset_cons_self _ _)

/-- A record whose name was reserved before its contents were translated. -/
theorem Declares.declare {reserved : Scope} (h : Declares targets reserved final added)
    (hrecords : reserved.records = scope.records)
    (hreserved : reserved.reserved = record.name :: scope.reserved)
    (himports : reserved.imports = scope.imports) (hfresh : record.name ∉ scope.reserved)
    (hhoisted : IsHoisted record.name) (hsound : record.Sound targets final.imports)
    (hmentions : ∀ hint ∈ record.hints, hint.records ⊆ recordNames added) :
    Declares targets scope (final.declare record) (added ++ [record]) where
  records_eq := by
    rw [Scope.declare, h.records_eq, hrecords, List.append_assoc]
  reserved_subset := by
    intro name hname
    exact h.reserved_subset (hreserved ▸ List.mem_cons_of_mem _ hname)
  imports_subset := by
    rw [← himports]
    exact h.imports_subset
  names_subset := by
    rw [recordNames_append]
    refine List.append_subset.mpr ⟨h.names_subset, ?_⟩
    intro name hname
    obtain rfl := List.mem_singleton.mp hname
    exact h.reserved_subset (hreserved ▸ List.mem_cons_self)
  fresh := by
    intro name hname htaken
    rw [recordNames_append] at hname
    rcases List.mem_append.mp hname with hadded | hlast
    · exact h.fresh name hadded (hreserved ▸ List.mem_cons_of_mem _ htaken)
    · obtain rfl := List.mem_singleton.mp hlast
      exact hfresh htaken
  hoisted := by
    intro name hname
    rw [recordNames_append] at hname
    rcases List.mem_append.mp hname with hadded | hlast
    · exact h.hoisted name hadded
    · obtain rfl := List.mem_singleton.mp hlast
      exact hhoisted
  nodup := by
    rw [recordNames_append]
    refine List.nodup_append.mpr ⟨h.nodup, List.nodup_singleton _, ?_⟩
    rintro first hadded last hlast rfl
    obtain rfl := List.mem_singleton.mp hlast
    exact h.fresh _ hadded (hreserved ▸ List.mem_cons_self)
  inOrder := h.inOrder.concat hmentions
  sound := by
    intro other hother
    rcases List.mem_append.mp hother with hadded | hlast
    · exact h.sound other hadded
    · obtain rfl := List.mem_singleton.mp hlast
      exact hsound

/-- A hint that mentions only the added records and the interfaces of the targets. -/
structure TypeHint.Mentions (added : List Record) (targets : List String) (hint : TypeHint) :
    Prop where
  records_subset : hint.records ⊆ recordNames added
  interfaces_subset : hint.interfaces ⊆ targets

theorem TypeHint.Mentions.mono {hint : TypeHint} {more : List Record} {moreTargets : List String}
    (h : hint.Mentions added targets) (hadded : recordNames added ⊆ recordNames more)
    (htargets : targets ⊆ moreTargets) : hint.Mentions more moreTargets :=
  ⟨List.Subset.trans h.records_subset hadded, List.Subset.trans h.interfaces_subset htargets⟩

theorem TypeHint.Mentions.append_right {hint : TypeHint} (h : hint.Mentions others targets)
    (added : List Record) : hint.Mentions (added ++ others) targets :=
  h.mono (by rw [recordNames_append]; exact List.subset_append_right _ _) (List.Subset.refl _)

theorem TypeHint.Mentions.append_left {hint : TypeHint} (h : hint.Mentions added targets)
    (others : List Record) : hint.Mentions (added ++ others) targets :=
  h.mono (by rw [recordNames_append]; exact List.subset_append_left _ _) (List.Subset.refl _)

/-- What the translation of a type does to every scope. -/
def Translates (type : TypeExpr) : Prop :=
  ∀ {targets wanted} (scope : Scope), IsHoisted wanted → type.references ⊆ targets →
    ∃ added, Declares targets scope (hintOf wanted scope type).2 added ∧
      (hintOf wanted scope type).1.Mentions added type.references

theorem declares_indexHint {index : Option TypeExpr} (htype : ∀ type ∈ index, Translates type)
    (scope : Scope) (hwanted : IsHoisted wanted) (htargets : indexReferences index ⊆ targets) :
    ∃ added, Declares targets scope (indexHint wanted scope index).2 added ∧
      ∀ hint ∈ (indexHint wanted scope index).1, hint.Mentions added (indexReferences index) := by
  cases index with
  | none => exact ⟨[], .refl targets scope, by simp [indexHint]⟩
  | some type =>
    rw [indexReferences] at htargets ⊢
    obtain ⟨added, hdeclares, hmentions⟩ := htype type rfl scope hwanted htargets
    refine ⟨added, hdeclares, fun hint hhint ↦ ?_⟩
    obtain rfl : (hintOf wanted scope type).1 = hint := Option.some.inj hhint
    exact hmentions

/-- The scope after a field: one that need not be there takes a typing name. -/
def scopeAfter (field : Field) (scope : Scope) : Scope :=
  if field.required then scope else scope.needs .notRequired

theorem fieldHints_cons (parent : String) (scope : Scope) (field : Field) (type : TypeExpr)
    (rest : List (Field × TypeExpr)) :
    fieldHints parent scope ((field, type) :: rest) =
      let first := hintOf (nestedName parent field.name) scope type
      let others := fieldHints parent (scopeAfter field first.2) rest
      (⟨field.name, field.comment, first.1, !type.references.isEmpty, field.required⟩ :: others.1,
        others.2) := by
  simp only [fieldHints, scopeAfter]

theorem declares_fieldHints {fields : List (Field × TypeExpr)}
    (htypes : ∀ entry ∈ fields, Translates entry.2) (scope : Scope) (hname : IsParent name)
    (htargets : fieldReferences fields ⊆ targets) :
    ∃ added, Declares targets scope (fieldHints name scope fields).2 added ∧
      ∀ field ∈ (fieldHints name scope fields).1,
        field.hint.Mentions added targets ∧
          field.Sound (fieldHints name scope fields).2.imports := by
  induction fields generalizing scope with
  | nil => exact ⟨[], .refl targets scope, by simp [fieldHints]⟩
  | cons entry rest ih =>
    obtain ⟨field, type⟩ := entry
    rw [fieldReferences, List.append_subset] at htargets
    obtain ⟨added, hfirst, hmentions⟩ := htypes _ List.mem_cons_self scope
      (isHoisted_nestedName hname field.name) htargets.1
    have hafter : Declares targets scope
        (scopeAfter field (hintOf (nestedName name field.name) scope type).2) added := by
      rw [scopeAfter]
      split
      · exact hfirst
      · exact hfirst.needs .notRequired
    obtain ⟨others, hrest, hfields⟩ :=
      ih (fun entry hentry ↦ htypes entry (List.mem_cons_of_mem _ hentry)) _ htargets.2
    refine ⟨added ++ others, ?_⟩
    rw [fieldHints_cons]
    refine ⟨hafter.trans hrest, List.forall_mem_cons.mpr ⟨⟨?_, ?_⟩, ?_⟩⟩
    · exact (hmentions.mono (List.Subset.refl _) htargets.1).append_left others
    · refine ⟨fun hquoted ↦ ?_, fun hoptional ↦ hrest.imports_subset ?_⟩
      · have hnone : type.references = [] := by simpa using hquoted
        exact List.subset_nil.mp (hnone ▸ hmentions.interfaces_subset)
      · have hrequired : field.required = false := hoptional
        simp [scopeAfter, hrequired, Scope.needs]
    · intro other hother
      exact ⟨(hfields other hother).1.append_right added, (hfields other hother).2⟩

theorem declares_recordOf {fields : List (Field × TypeExpr)} {index : Option TypeExpr}
    (htypes : ∀ entry ∈ fields, Translates entry.2) (htype : ∀ type ∈ index, Translates type)
    (scope : Scope) (hname : IsParent name)
    (htargets : fieldReferences fields ++ indexReferences index ⊆ targets) :
    ∃ added, Declares targets scope (recordOf name scope fields index).2 added ∧
      (recordOf name scope fields index).1.Sound targets
        (recordOf name scope fields index).2.imports ∧
      ∀ hint ∈ (recordOf name scope fields index).1.hints, hint.Mentions added targets := by
  rw [List.append_subset] at htargets
  have htyped : Declares targets scope (scope.needs .typedDict) [] :=
    (Declares.refl targets scope).needs .typedDict
  obtain ⟨added, hadded, hfields⟩ := declares_fieldHints htypes (scope.needs .typedDict) hname
    htargets.1
  obtain ⟨others, hothers, hindex⟩ := declares_indexHint htype
    (fieldHints name (scope.needs .typedDict) fields).2 (isHoisted_nestedName hname "value")
    htargets.2
  have hmentions : ∀ hint ∈ (recordOf name scope fields index).1.hints,
      hint.Mentions (added ++ others) targets := by
    intro hint hhint
    rcases List.mem_append.mp hhint with hown | hrest
    · obtain ⟨field, hfield, rfl⟩ := List.mem_map.mp hown
      exact (hfields field hfield).1.append_left others
    · have hmember := hindex hint (Option.mem_toList.mp hrest)
      exact (hmember.mono (List.Subset.refl _) htargets.2).append_right added
  refine ⟨added ++ others, htyped.trans (hadded.trans hothers), ⟨?_, ?_, ?_⟩, hmentions⟩
  · exact hothers.imports_subset (hadded.imports_subset List.mem_cons_self)
  · intro field hfield
    exact (hfields field hfield).2.mono hothers.imports_subset
  · intro hint hhint
    exact (hmentions hint hhint).interfaces_subset

theorem hintOf_object (wanted : String) (scope : Scope) (first : Field × TypeExpr)
    (fields : List (Field × TypeExpr)) (index : Option TypeExpr) :
    hintOf wanted scope (.object (first :: fields) index) =
      let reservation := scope.reserve wanted
      let translation := recordOf reservation.1 reservation.2 (first :: fields) index
      (.record reservation.1, translation.2.declare translation.1) := by
  simp only [hintOf, recordOf]

theorem translates_object {fields : List (Field × TypeExpr)} {index : Option TypeExpr}
    (htypes : ∀ entry ∈ fields, Translates entry.2) (htype : ∀ type ∈ index, Translates type) :
    Translates (.object fields index) := by
  intro targets wanted scope hwanted htargets
  rw [TypeExpr.references] at htargets ⊢
  cases fields with
  | nil =>
    obtain ⟨added, hdeclares, hindex⟩ := declares_indexHint htype scope (hwanted.append "Value")
      (List.append_subset.mp htargets).2
    refine ⟨added, hdeclares, ?_⟩
    cases hhint : (indexHint (wanted ++ "Value") scope index).1 with
    | none => constructor <;> simp [hintOf, hhint, TypeHint.records, TypeHint.interfaces]
    | some hint =>
      have hmentions := hindex hint hhint
      constructor <;> simp only [hintOf, hhint, Option.getD_some]
      · exact hmentions.records_subset
      · exact List.subset_append_of_subset_right _ hmentions.interfaces_subset
  | cons first rest =>
    rw [hintOf_object]
    obtain ⟨hfresh, -⟩ := freshName_spec scope.reserved wanted
    have hhoisted := isHoisted_freshName hwanted scope.reserved
    obtain ⟨added, hdeclares, hsound, hmentions⟩ := declares_recordOf htypes htype
      (scope.reserve wanted).2 (Or.inr hhoisted) htargets
    refine ⟨added ++ [_], hdeclares.declare rfl rfl rfl hfresh hhoisted hsound
      (fun hint hhint ↦ (hmentions hint hhint).records_subset), ?_, ?_⟩
    · simp [TypeHint.records, recordNames, recordOf]
    · simp [TypeHint.interfaces]

theorem translates (type : TypeExpr) : Translates type := by
  induction type using TypeExpr.nested_induction with
  | object fields index htypes htype => exact translates_object htypes htype
  | array item ih =>
    intro targets wanted scope hwanted htargets
    obtain ⟨added, hdeclares, hmentions⟩ := ih scope (hwanted.append "Item") htargets
    exact ⟨added, hdeclares, hmentions.records_subset, hmentions.interfaces_subset⟩
  | primitive primitive =>
    intro targets wanted scope _ _
    refine ⟨[], .refl targets scope, ?_⟩
    cases primitive <;> constructor <;>
      simp [hintOf, primitiveHint, TypeHint.records, TypeHint.interfaces]
  | reference name =>
    intro targets wanted scope _ _
    refine ⟨[], .refl targets scope, ?_⟩
    constructor <;> simp [hintOf, TypeHint.records, TypeHint.interfaces, TypeExpr.references]
  | any | textOrNumber =>
    intro targets wanted scope _ _
    refine ⟨[], .refl targets scope, ?_⟩
    constructor <;> simp [hintOf, TypeHint.records, TypeHint.interfaces]

end SchemaModules.Python
