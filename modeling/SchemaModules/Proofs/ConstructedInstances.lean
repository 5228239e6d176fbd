import SchemaModules.Package.Basic
import SchemaModules.Proofs.DocumentPaths
import SchemaModules.Proofs.FallibleSteps
import SchemaModules.Proofs.Lookup
import SchemaModules.Proofs.PackageDefinitions
import SchemaModules.Proofs.ReadableValues

/-!
# Members of new instances

A value class is called with data and with named arguments. Each member of the new instance is the
named argument of that name, else the member of the data, else the version or the kind that the
definition gives.

That holds unless the constructor misses what it is called with. The names of its own parameters
stand in one line with the fields of the definition, and the short names at the end of a module may
take the name of the class or the name under which the constructor of the base is found. The main
statement says for which definitions all members are kept.
-/

namespace SchemaModules.Package

open Naming Python Schema

variable {definition : Definition} {data named members changes : List (String × Json)}
  {made : Instance} {key : String} {value : Json} {kind : Option GroupVersionKind}

/-! ## Members of an instance -/

theorem lookup_override (members : List (String × Json)) (hchanges : (changes.map Prod.fst).Nodup)
    (key : String) :
    (override members changes).lookup key = (changes.lookup key).or (members.lookup key) := by
  induction changes generalizing members with
  | nil => rfl
  | cons change rest ih =>
    obtain ⟨name, value⟩ := change
    obtain ⟨hfresh, hrest⟩ := List.nodup_cons.mp hchanges
    have hnext := ih (Json.setMember name value members) hrest
    rw [override, List.foldl_cons, ← override, hnext, lookup_setMember, lookup_cons_eq_ite]
    by_cases hkey : key = name
    · have hnone : rest.lookup key = none := lookup_eq_none_iff_notMem.mpr (hkey ▸ hfresh)
      rw [if_pos hkey, if_pos hkey, hnone, Option.none_or, Option.some_or]
    · rw [if_neg hkey, if_neg hkey]

theorem nodup_override (hmembers : (members.map Prod.fst).Nodup)
    (changes : List (String × Json)) : ((override members changes).map Prod.fst).Nodup := by
  induction changes generalizing members with
  | nil => exact hmembers
  | cons change rest ih => exact ih (Json.nodup_setMember hmembers change.1 change.2)

theorem nodup_derivedMembers (kind : Option GroupVersionKind) :
    ((derivedMembers kind).map Prod.fst).Nodup := by
  cases kind with
  | none => exact List.nodup_nil
  | some kind => simp [derivedMembers]

/-- The values that a module writes for version and kind can be read in it, without any name that it
would have to look up. -/
def ReadsKind (kind : Option GroupVersionKind) : Prop :=
  ∀ given ∈ kind, namesRead given.apiVersion = [] ∧ namesRead given.kind = []

theorem ReadsKind.kindMembers_eq (h : ReadsKind kind) (isBound : String → Bool) :
    kindMembers isBound kind = .ok (derivedMembers kind) := by
  cases kind with
  | none => rfl
  | some given =>
    obtain ⟨hversion, hkind⟩ := h given rfl
    simp [kindMembers, derivedMembers, namesReadInMembers, hversion, hkind, readingFault?]

theorem eq_of_kindMembers_eq_ok {isBound : String → Bool}
    (h : kindMembers isBound kind = .ok members) : derivedMembers kind = members := by
  unfold kindMembers at h
  split at h
  · cases h
  · exact Except.ok.inj h

theorem misreadKeys_eq_nil_iff : misreadKeys kind = [] ↔ ReadsKind kind := by
  cases kind with
  | none => simp [misreadKeys, derivedMembers, ReadsKind]
  | some given => simp [misreadKeys, derivedMembers, ReadsKind]

/-- Each member stands under the key it was given with. A named argument comes before the data, and
the data before version and kind; no other key is there. -/
structure KeepsMembers (kind : Option GroupVersionKind)
    (data named members : List (String × Json)) : Prop where
  nodup : (members.map Prod.fst).Nodup
  of_named : ∀ {key value}, (key, value) ∈ named → members.lookup key = some value
  of_data : ∀ {key value}, key ∉ named.map Prod.fst → (key, value) ∈ data →
    members.lookup key = some value
  of_kind : ∀ {key}, key ∉ named.map Prod.fst → key ∉ data.map Prod.fst →
    members.lookup key = (derivedMembers kind).lookup key

theorem keepsMembers_override (hdata : (data.map Prod.fst).Nodup)
    (hnamed : (named.map Prod.fst).Nodup) (kind : Option GroupVersionKind) :
    KeepsMembers kind data named (override (override (derivedMembers kind) data) named) where
  nodup := nodup_override (nodup_override (nodup_derivedMembers kind) data) named
  of_named hmember := by
    rw [lookup_override _ hnamed, lookup_eq_some_of_mem hnamed hmember, Option.some_or]
  of_data hnone hmember := by
    rw [lookup_override _ hnamed, lookup_eq_none_iff_notMem.mpr hnone, Option.none_or,
      lookup_override _ hdata, lookup_eq_some_of_mem hdata hmember, Option.some_or]
  of_kind hnone hmissing := by
    rw [lookup_override _ hnamed, lookup_eq_none_iff_notMem.mpr hnone, Option.none_or,
      lookup_override _ hdata, lookup_eq_none_iff_notMem.mpr hmissing, Option.none_or]

/-! ## Constructors -/

/-- An instance is made if version and kind are read, and what is misread of them is replaced. -/
theorem newMembers_obj_eq_ok_iff {isBound : String → Bool} :
    newMembers isBound kind (.obj data) named = .ok members ↔ repeatsPosition named = false ∧
      kindMembers isBound kind = .ok (derivedMembers kind) ∧
      (∀ key ∈ misreadKeys kind, key ∈ (data ++ named).map Prod.fst) ∧
      override (override (derivedMembers kind) data) named = members := by
  cases hrepeats : repeatsPosition named with
  | true => simp [newMembers, hrepeats, throw, throwThe, MonadExceptOf.throw, bind, Except.bind]
  | false =>
    have hunfold : newMembers isBound kind (.obj data) named =
        (kindMembers isBound kind >>= fun initial ↦
          if (misreadKeys kind).any fun key ↦ !((data ++ named).map Prod.fst).contains key then
            .error .foreignValue
          else .ok (override (override initial data) named)) := by
      simp only [newMembers, hrepeats, dataMembers, bind, Except.bind, pure, Except.pure, throw,
        throwThe, MonadExceptOf.throw, if_neg Bool.false_ne_true]
    have hkept : ((misreadKeys kind).any fun key ↦
        !((data ++ named).map Prod.fst).contains key) = false ↔
        ∀ key ∈ misreadKeys kind, key ∈ (data ++ named).map Prod.fst := by
      simp only [List.any_eq_false, Bool.not_eq_true', Bool.not_eq_false, List.contains_iff_mem]
    rw [hunfold, bind_eq_ok_iff, ← hkept]
    constructor
    · rintro ⟨initial, hinitial, hmade⟩
      obtain rfl := eq_of_kindMembers_eq_ok hinitial
      split at hmade
      · cases hmade
      · rename_i hreplaced
        exact ⟨rfl, hinitial, Bool.eq_false_iff.mpr hreplaced, Except.ok.inj hmade⟩
    · rintro ⟨-, hinitial, hreplaced, rfl⟩
      refine ⟨_, hinitial, ?_⟩
      rw [hreplaced, if_neg Bool.false_ne_true]

/-- What stands under a class name that makes plain mappings. -/
inductive MakesMappings : Option Binding → Prop
  | record : MakesMappings (some .record)
  | dict (value : TypeHint) : MakesMappings (some (.hint (.dict value) false))

theorem construct_of_valueClass
    (hclass : bindingIn definition definition.names.className = some .valueClass) :
    construct definition (.obj data) named = .ok made ↔ repeatsPosition named = false ∧
      callsItself definition = false ∧
      kindMembers (isBoundIn definition) definition.kind = .ok (derivedMembers definition.kind) ∧
      (∀ key ∈ misreadKeys definition.kind, key ∈ (data ++ named).map Prod.fst) ∧
      .value ⟨definition.names.className,
        override (override (derivedMembers definition.kind) data) named⟩ = made := by
  have hunfold : construct definition (.obj data) named =
      if callsItself definition && !repeatsPosition named then .error .circularSchema
      else newMembers (isBoundIn definition) definition.kind (.obj data) named >>= fun members ↦
        .ok (.value ⟨definition.names.className, members⟩) := by
    unfold construct
    simp only [hclass]
    rfl
  rw [hunfold]
  generalize callsItself definition = calls
  cases hrepeats : repeatsPosition named with
  | true =>
    rw [Bool.not_true, Bool.and_false, if_neg Bool.false_ne_true, bind_eq_ok_iff]
    simp [newMembers_obj_eq_ok_iff, hrepeats]
  | false =>
    cases calls with
    | true => simp
    | false =>
      rw [Bool.false_and, if_neg Bool.false_ne_true, bind_eq_ok_iff]
      simp [newMembers_obj_eq_ok_iff, hrepeats, and_assoc]

theorem construct_of_makesMappings
    (hclass : MakesMappings (bindingIn definition definition.names.className)) :
    construct definition (.obj data) named = .ok (.mapping (override data named)) := by
  unfold construct
  generalize bindingIn definition definition.names.className = binding at hclass ⊢
  cases hclass <;> rfl

/-- Nothing but the value class and types of mappings makes instances. -/
theorem makes_of_construct_eq_ok (h : construct definition (.obj data) named = .ok made) :
    bindingIn definition definition.names.className = some .valueClass ∨
      MakesMappings (bindingIn definition definition.names.className) := by
  unfold construct at h
  generalize bindingIn definition definition.names.className = binding at h ⊢
  split at h
  · exact .inl rfl
  · exact .inr .record
  · exact .inr (.dict _)
  · cases h
  · cases h

/-- The names of the fields of a type. -/
def fieldNames : TypeExpr → List String
  | .object fields _ => fields.map (·.1.name)
  | _ => []

/-- From all data and all arguments named after fields an instance is made that keeps them. -/
def KeepsArguments (definition : Definition) : Prop :=
  ∀ data named : List (String × Json), (data.map Prod.fst).Nodup → (named.map Prod.fst).Nodup →
    (∀ key ∈ named.map Prod.fst, key ∈ fieldNames definition.type) →
      ∃ made, construct definition (.obj data) named = .ok made ∧
        KeepsMembers definition.kind data named made.members

/-- What the constructor of a value class needs: the class stands under its name, no field is called
like a parameter of the constructor, the constructor of the base is found, and version and kind can
be read. -/
structure TakesFields (definition : Definition) : Prop where
  named : bindingIn definition definition.names.className = some .valueClass
  fields : ∀ name ∈ fieldNames definition.type, name ∉ positionalNames
  base : callsItself definition = false
  kind : ReadsKind definition.kind

theorem repeatsPosition_eq_false_iff :
    repeatsPosition named = false ↔ ∀ key ∈ named.map Prod.fst, key ∉ positionalNames := by
  simp [repeatsPosition]

theorem TakesFields.keepsArguments (h : TakesFields definition) : KeepsArguments definition := by
  intro data named hdata hnamed hfields
  have hpositions : repeatsPosition named = false :=
    repeatsPosition_eq_false_iff.mpr fun key hkey ↦ h.fields key (hfields key hkey)
  have hmisread : ∀ key ∈ misreadKeys definition.kind, key ∈ (data ++ named).map Prod.fst := by
    simp [misreadKeys_eq_nil_iff.mpr h.kind]
  have hmade := (construct_of_valueClass h.named).mpr
    ⟨hpositions, h.base, h.kind.kindMembers_eq _, hmisread, rfl⟩
  exact ⟨_, hmade, keepsMembers_override hdata hnamed definition.kind⟩

theorem keepsArguments_of_makesMappings
    (hclass : MakesMappings (bindingIn definition definition.names.className))
    (hkind : definition.kind = none) : KeepsArguments definition := by
  intro data named hdata hnamed _
  have hnone : override (derivedMembers none) data = data := Json.foldl_setMember [] hdata
  have hkeeps := keepsMembers_override hdata hnamed none
  rw [hnone] at hkeeps
  exact ⟨_, construct_of_makesMappings hclass, hkind ▸ hkeeps⟩

/-- No member of a plain mapping comes from a kind. -/
theorem KeepsArguments.kind_eq_none (h : KeepsArguments definition)
    (hclass : MakesMappings (bindingIn definition definition.names.className)) :
    definition.kind = none := by
  obtain ⟨made, hmade, hkeeps⟩ := h [] [] List.nodup_nil List.nodup_nil (by simp)
  rw [construct_of_makesMappings hclass] at hmade
  obtain rfl := Except.ok.inj hmade
  cases hkind : definition.kind with
  | none => rfl
  | some kind =>
    have hversion : (override [] []).lookup "apiVersion" =
        (derivedMembers definition.kind).lookup "apiVersion" :=
      hkeeps.of_kind List.not_mem_nil List.not_mem_nil
    rw [hkind] at hversion
    simp [derivedMembers, override] at hversion

theorem KeepsArguments.takesFields (h : KeepsArguments definition)
    (hclass : bindingIn definition definition.names.className = some .valueClass) :
    TakesFields definition := by
  -- That an instance is made from nothing shows all but the condition on fields, and that shows
  -- itself when a field is given alone.
  obtain ⟨_, hempty, _⟩ := h [] [] List.nodup_nil List.nodup_nil (by simp)
  obtain ⟨_, hbase, _, hmisread, _⟩ := (construct_of_valueClass hclass).mp hempty
  have hkind : misreadKeys definition.kind = [] := by
    simpa [List.eq_nil_iff_forall_not_mem] using hmisread
  refine ⟨hclass, ?_, hbase, misreadKeys_eq_nil_iff.mp hkind⟩
  intro name hname
  obtain ⟨_, hmade, _⟩ := h [] [(name, .null)] List.nodup_nil (List.nodup_singleton name)
    (by simpa using hname)
  have hpositions := ((construct_of_valueClass hclass).mp hmade).1
  exact repeatsPosition_eq_false_iff.mp hpositions name (by simp)

/-- A definition keeps whatever its instances are made from exactly when the constructor of its
value class takes all fields, or when its class name makes plain mappings and it has no kind. -/
theorem keepsArguments_iff :
    KeepsArguments definition ↔ TakesFields definition ∨
      MakesMappings (bindingIn definition definition.names.className) ∧
        definition.kind = none := by
  constructor
  · intro h
    obtain ⟨made, hmade, _⟩ := h [] [] List.nodup_nil List.nodup_nil (by simp)
    rcases makes_of_construct_eq_ok hmade with hclass | hclass
    · exact .inl (h.takesFields hclass)
    · exact .inr ⟨hclass, h.kind_eq_none hclass⟩
  · rintro (htakes | ⟨hclass, hkind⟩)
    · exact htakes.keepsArguments
    · exact keepsArguments_of_makesMappings hclass hkind

def isValueClass : Option Binding → Bool
  | some .valueClass => true
  | _ => false

theorem eq_of_isValueClass {binding : Option Binding} (h : isValueClass binding = true) :
    binding = some .valueClass := by
  match binding, h with
  | some .valueClass, _ => rfl

/-- A definition with a kind and a field. -/
def definitionsWithKind : List (String × Json) :=
  [("x.Foo", .obj [("properties", .obj [("spec", .obj [("type", .str "object")])]),
    ("x-kubernetes-group-version-kind",
      .arr [.obj [("group", .str "apps"), ("version", .str "v1"), ("kind", .str "Foo")]])])]

theorem keepsArguments_definitionsWithKind :
    ∃ package definition, Package.of {} definitionsWithKind = .ok package ∧
      package.definitions.lookup "x.Foo" = some definition ∧
      fieldNames definition.type = ["spec"] ∧ definition.kind.isSome ∧
      KeepsArguments definition := by
  have hchecked : (Package.of {} definitionsWithKind).toOption.any (fun package ↦
      (package.definitions.lookup "x.Foo").any fun definition ↦
        decide (fieldNames definition.type = ["spec"] ∧ callsItself definition = false) &&
          definition.kind.any (fun kind ↦
            namesRead kind.apiVersion == [] && namesRead kind.kind == []) &&
            isValueClass (bindingIn definition definition.names.className)) = true := by
    decide +kernel
  obtain ⟨package, hpackage, hchecked⟩ := exists_eq_ok_of_check hchecked
  obtain ⟨definition, hlookup, hchecked⟩ := (Option.any_eq_true _ _).mp hchecked
  simp only [Bool.and_eq_true, decide_eq_true_eq, beq_iff_eq, Option.any_eq_true] at hchecked
  obtain ⟨⟨⟨hfields, hbase⟩, kind, hkind, hread⟩, hclass⟩ := hchecked
  refine ⟨package, definition, hpackage, hlookup, hfields, by simp [hkind], ?_⟩
  refine keepsArguments_iff.mpr (.inl ⟨eq_of_isValueClass hclass, ?_, hbase, ?_⟩)
  · rw [hfields]
    decide
  · rintro given hgiven
    obtain rfl := Option.some.inj (hkind.symm.trans hgiven)
    exact hread

/-- A definition with a field that is called like the first parameter of every constructor. -/
def definitionsWithData : List (String × Json) :=
  [("x.Foo", .obj [("properties", .obj [("data", .obj [("type", .str "object")])])])]

/-- The field cannot be given by name, although the type of the definition has it. -/
theorem not_keepsArguments_definitionsWithData :
    ∃ package definition, Package.of {} definitionsWithData = .ok package ∧
      package.definitions.lookup "x.Foo" = some definition ∧
      fieldNames definition.type = ["data"] ∧
      (construct definition (.obj []) [("data", .obj [("a", .int 1)])]).isOk = false ∧
      ¬KeepsArguments definition := by
  have hchecked : (Package.of {} definitionsWithData).toOption.any (fun package ↦
      (package.definitions.lookup "x.Foo").any fun definition ↦
        decide (fieldNames definition.type = ["data"] ∧
          (construct definition (.obj []) [("data", .obj [("a", .int 1)])]).isOk = false)) =
      true := by
    decide +kernel
  obtain ⟨package, hpackage, hchecked⟩ := exists_eq_ok_of_check hchecked
  obtain ⟨definition, hlookup, hchecked⟩ := (Option.any_eq_true _ _).mp hchecked
  obtain ⟨hfields, hrefused⟩ := of_decide_eq_true hchecked
  refine ⟨package, definition, hpackage, hlookup, hfields, hrefused, fun hkeeps ↦ ?_⟩
  obtain ⟨made, hmade, _⟩ := hkeeps [] [("data", .obj [("a", .int 1)])] List.nodup_nil
    (List.nodup_singleton _) (by simp [hfields])
  rw [hmade] at hrefused
  cases hrefused

end SchemaModules.Package
