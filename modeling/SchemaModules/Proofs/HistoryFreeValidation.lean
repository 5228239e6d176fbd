import SchemaModules.Proofs.DocumentScope
import SchemaModules.Proofs.ReferenceCalls
import SchemaModules.Proofs.RegistrationCalls

/-!
# Validation whatever has been called before

To validate an instance, its definition is registered and the instance checked against the document
that is registered then. The registry may hold other documents from earlier calls, in any order, and
it may have been left behind by calls that failed. None of this shows if the registration reaches
all that the check can come to, and the validator looks at nothing else. The main statement says
that this is also necessary: validation does not depend on earlier calls exactly if each function
that makes instances registers, on an empty registry, all that references lead to from its
definition.
-/

namespace SchemaModules

namespace Validation

variable {scope wider : String → Prop} {name : String} {value : Json}

theorem RefersWithin.mono (h : RefersWithin scope value)
    (hscope : ∀ name, scope name → wider name) : RefersWithin wider value := by
  intro members text hmembers hreference
  obtain ⟨name, hname, htext⟩ := h hmembers hreference
  exact ⟨name, hscope name hname, htext⟩

theorem refersWithin_referenceTo (hname : scope name) :
    RefersWithin scope (Registry.referenceTo name) := by
  intro members text hmembers hreference
  rcases Json.mem_values_obj.mp hmembers with heq | ⟨member, hmember, hinner⟩
  · obtain rfl := Json.obj.inj heq
    obtain ⟨-, htext⟩ := Prod.mk.inj (List.mem_singleton.mp hreference)
    exact ⟨name, hname, Json.str.inj htext⟩
  · obtain rfl := List.mem_singleton.mp hmember
    cases List.mem_singleton.mp hinner

/-- Registries that agree on all that can be reached from a name give the same answers for it. -/
theorem AgreeWithin.validate_eq {validator : Validator} {named : String → Prop}
    {first second : Registry} (h : AgreeWithin scope first.documents second.documents)
    (hlocal : validator.Local named) (hnamed : ∀ name, scope name → named name) (hname : scope name)
    (value : Json) :
    first.validate validator name value = second.validate validator name value := by
  have hcontains {registry : Registry} {document : Json}
      (hlookup : registry.documents.lookup name = some document) :
      registry.contains name = true := by
    rw [Registry.contains, List.contains_iff_mem]
    exact Registry.mem_names_of_mem (Registry.mem_of_document? hlookup)
  obtain ⟨document, hfirst, hsecond, -⟩ := h name hname
  have hvalid : first.isValid validator name value = second.isValid validator name value := by
    rw [Registry.isValid, Registry.isValid, if_pos (hcontains hfirst), if_pos (hcontains hsecond)]
    exact hlocal _ _ _ _ _ hnamed h (refersWithin_referenceTo hname)
  rw [Registry.validate, Registry.validate, hvalid]

end Validation

namespace Package

open Naming Validation

variable {package : Package} {definition : Definition} {registry first second : Registry}
  {calls : List Definition} {document : Json} {name : String} {validator : Validator}

/-! ## Registries that calls reach -/

/-- The registries that come about when the registering functions of a package are called and
instances are validated, in any order. -/
inductive Reached (package : Package) (validator : Validator) : Registry → Prop
  | empty : Reached package validator {}
  | register {registry : Registry} {definition : Definition}
      (h : Reached package validator registry) (hdefines : package.Defines definition) :
    Reached package validator (package.register definition registry).1
  | validate {registry : Registry} {definition : Definition} {data : Json}
      {named : List (String × Json)} {made : Instance} (h : Reached package validator registry)
      (hdefines : package.Defines definition)
      (hmade : construct definition data named = .ok made) :
    Reached package validator (package.validate validator definition made registry).1

theorem validate_value (validator : Validator) (definition : Definition) (value : Value)
    (registry : Registry) :
    (package.validate validator definition (.value value) registry).1 =
      (package.register definition registry).1 := by
  unfold validate
  rcases package.register definition registry with ⟨reached, fault | _⟩ <;> rfl

theorem validate_of_returned (h : (package.register definition registry).2 = .ok ())
    (value : Value) : (package.validate validator definition (.value value) registry).2 =
      (package.register definition registry).1.validate validator definition.names.name
        (.obj value.members) := by
  unfold validate
  rcases hcall : package.register definition registry with ⟨reached, result⟩
  rw [hcall] at h
  obtain rfl : result = .ok () := h
  rfl

/-- A validation changes a registry as the call of the registering function does. -/
theorem Reached.exists_calls (h : package.Reached validator registry) :
    ∃ calls : List Definition, (∀ call ∈ calls, package.Defines call) ∧
      registry = package.after calls := by
  have hstep {definition : Definition} {calls : List Definition}
      (hdefines : package.Defines definition) (hcalls : ∀ call ∈ calls, package.Defines call) :
      ∃ others : List Definition, (∀ call ∈ others, package.Defines call) ∧
        (package.register definition (package.after calls)).1 = package.after others := by
    refine ⟨calls ++ [definition], ?_, (after_append package calls definition).symm⟩
    exact List.forall_mem_append.mpr ⟨hcalls, by simpa using hdefines⟩
  induction h with
  | empty => exact ⟨[], by simp, rfl⟩
  | register _ hdefines ih =>
    obtain ⟨calls, hcalls, rfl⟩ := ih
    exact hstep hdefines hcalls
  | @validate registry definition data named made _ hdefines hmade ih =>
    obtain ⟨calls, hcalls, rfl⟩ := ih
    cases made with
    | mapping members => exact ⟨calls, hcalls, rfl⟩
    | value value =>
      rw [validate_value]
      exact hstep hdefines hcalls

/-- The document that the function of a definition adds, if it gets as far. -/
def Adds (package : Package) (name : String) (document : Json) : Prop :=
  ∃ definition imports, package.Defines definition ∧ definition.names.name = name ∧
    package.importAll definition.dependencies = .ok imports ∧
    document = registered definition imports

theorem Adds.eq {other : Json} (h : package.Adds name document) (hother : package.Adds name other) :
    document = other := by
  obtain ⟨definition, imports, hdefines, hname, himports, rfl⟩ := h
  obtain ⟨found, others, hfound, hsame, hothers, rfl⟩ := hother
  obtain rfl := hdefines.eq_of_name hfound (hname.trans hsame.symm)
  obtain rfl := Except.ok.inj (himports.symm.trans hothers)
  rfl

theorem adds_of_document?_after (hnamed : package.WellNamed)
    (hcalls : ∀ call ∈ calls, package.Defines call)
    (h : (package.after calls).document? name = some document) : package.Adds name document := by
  have hregister : ∀ definition, package.Defines definition → ∀ registry,
      Registry.Grows package.Adds registry (package.register definition registry).1 := by
    intro definition hdefines registry
    apply registerWithin_grows_of hnamed _ _ hdefines
    intro other _ imports hother _ himports _
    exact ⟨other, imports, hother, rfl, himports, rfl⟩
  have hgrows : Registry.Grows package.Adds {} (package.after calls) :=
    after_grows_of hregister [] hcalls
  rcases hgrows.added (Registry.mem_of_document? h) with hfresh | ⟨hadds, _⟩
  · exact absurd hfresh List.not_mem_nil
  · exact hadds

/-- The references of an added document lead where those of its definition do. -/
theorem Adds.refersWithin {config : Config} {definitions : List (String × Json)}
    (hpackage : Package.of config definitions = .ok package)
    (hlists : ∀ entry ∈ definitions, entry.2.listsHaveKey "$ref" = false)
    (h : package.Adds name document) {root : String} (hreaches : package.Reaches root name) :
    RefersWithin (package.Reaches root) document := by
  obtain ⟨definition, imports, hdefines, rfl, -, rfl⟩ := h
  unfold registered
  split
  · intro members text hmembers
    cases List.mem_singleton.mp hmembers
  · obtain ⟨schema, conventions, hschema, -, hdefinition⟩ := schema_of_lookup hpackage hdefines
    have hwithin : RefersWithin (fun target ↦ target = definition.names.name ∨
        package.Refers definition.names.name target) definition.document := by
      simp only [hdefines.refers_iff]
      generalize definition.names.name = own at hdefinition
      subst hdefinition
      rw [Definition.map_name_dependencies]
      exact refersWithin_registryDocument (hlists _ hschema)
    apply hwithin.mono
    rintro target (rfl | hrefers)
    · exact hreaches
    · exact hreaches.tail hrefers

/-! ## Independence -/

/-- A definition whose class makes instances. -/
def HasInstances (definition : Definition) : Prop :=
  ∃ data named value, construct definition data named = .ok (.value value)

/-- Validating an instance gives the same answer on all registries that calls reach. Afterwards each
of them maps all that references lead to from the definition to the same documents. -/
def HistoryFree (package : Package) (validator : Validator) : Prop :=
  ∀ {definition data named value}, package.Defines definition →
    construct definition data named = .ok (.value value) →
    ∀ {first second}, package.Reached validator first → package.Reached validator second →
      (package.validate validator definition (.value value) first).2 =
          (package.validate validator definition (.value value) second).2 ∧
        ∀ name, package.Reaches definition.names.name name → ∃ document,
          (package.validate validator definition (.value value) first).1.document? name =
              some document ∧
            (package.validate validator definition (.value value) second).1.document? name =
              some document

/-- After its registration, all that references lead to from a definition is there, with the
document that its function adds. -/
theorem RegistersReached.exists_document (h : package.RegistersReached definition)
    (hnamed : package.WellNamed) (hdefines : package.Defines definition)
    (hcalls : ∀ call ∈ calls, package.Defines call)
    (hreaches : package.Reaches definition.names.name name) :
    ∃ document, (package.register definition (package.after calls)).1.document? name =
      some document ∧ package.Adds name document := by
  have hname := (h.register_after hnamed hdefines hcalls).2 name hreaches
  obtain ⟨document, hdocument⟩ := exists_lookup_eq_some hname
  refine ⟨document, hdocument, ?_⟩
  have hall : ∀ call ∈ calls ++ [definition], package.Defines call :=
    List.forall_mem_append.mpr ⟨hcalls, by simpa using hdefines⟩
  apply adds_of_document?_after hnamed hall
  rwa [after_append]

/-- So what a check of an instance can come to does not depend on what was called before. -/
theorem RegistersReached.agreeWithin {config : Config} {definitions : List (String × Json)}
    (hpackage : Package.of config definitions = .ok package)
    (hlists : ∀ entry ∈ definitions, entry.2.listsHaveKey "$ref" = false)
    (h : package.RegistersReached definition) (hdefines : package.Defines definition)
    {others : List Definition} (hcalls : ∀ call ∈ calls, package.Defines call)
    (hothers : ∀ call ∈ others, package.Defines call) :
    AgreeWithin (package.Reaches definition.names.name)
      (package.register definition (package.after calls)).1.documents
      (package.register definition (package.after others)).1.documents := by
  intro name hreaches
  have hnamed := wellNamed_of_eq_ok hpackage
  obtain ⟨document, hfirst, hadds⟩ := h.exists_document hnamed hdefines hcalls hreaches
  obtain ⟨second, hsecond, hother⟩ := h.exists_document hnamed hdefines hothers hreaches
  obtain rfl := hadds.eq hother
  exact ⟨document, hfirst, hsecond, hadds.refersWithin hpackage hlists hreaches⟩

theorem RegistersReached.named (h : package.RegistersReached definition)
    (hnamed : package.WellNamed) (hdefines : package.Defines definition)
    (hreaches : package.Reaches definition.names.name name) : package.Named name := by
  obtain ⟨_, -, found, _, hfound, rfl, -⟩ :=
    h.exists_document hnamed hdefines (fun _ hcall ↦ absurd hcall List.not_mem_nil) hreaches
  exact hfound.named

/-- Validation does not depend on earlier calls exactly when the functions of all definitions that
have instances register what references lead to. The validator is any that looks at nothing but what
references lead to. -/
theorem historyFree_iff {config : Config} {definitions : List (String × Json)}
    (hpackage : Package.of config definitions = .ok package)
    (hlists : ∀ entry ∈ definitions, entry.2.listsHaveKey "$ref" = false)
    (hlocal : validator.Local package.Named) :
    package.HistoryFree validator ↔ ∀ definition, package.Defines definition →
      HasInstances definition → package.RegistersReached definition := by
  constructor
  · rintro hfree definition hdefines ⟨data, named, value, hmade⟩ name hreaches
    obtain ⟨document, hdocument, -⟩ := (hfree hdefines hmade .empty .empty).2 name hreaches
    rw [validate_value] at hdocument
    exact Registry.mem_names_of_mem (Registry.mem_of_document? hdocument)
  · intro hregisters definition data named value hdefines hmade first second hfirst hsecond
    have h := hregisters definition hdefines ⟨data, named, value, hmade⟩
    obtain ⟨calls, hcalls, rfl⟩ := hfirst.exists_calls
    obtain ⟨others, hothers, rfl⟩ := hsecond.exists_calls
    have hnamed := wellNamed_of_eq_ok hpackage
    have hagree := h.agreeWithin hpackage hlists hdefines hcalls hothers
    obtain ⟨hreturned, -⟩ := h.register_after hnamed hdefines hcalls
    obtain ⟨hotherReturned, -⟩ := h.register_after hnamed hdefines hothers
    constructor
    · rw [validate_of_returned hreturned, validate_of_returned hotherReturned]
      exact hagree.validate_eq hlocal (fun _ hreaches ↦ h.named hnamed hdefines hreaches) .refl
        (.obj value.members)
    · intro name hreaches
      obtain ⟨document, hdocument, hother, -⟩ := hagree name hreaches
      rw [validate_value, validate_value]
      exact ⟨document, hdocument, hother⟩

/-- A check of the instance that the class of a definition makes of the given data. -/
def checksInstance (definition : Definition) (data : Json) (check : Value → Bool) : Bool :=
  match construct definition data [] with
  | .ok (.value value) => check value
  | _ => false

theorem exists_of_checksInstance {data : Json} {check : Value → Bool}
    (h : checksInstance definition data check = true) :
    ∃ value, construct definition data [] = .ok (.value value) ∧ check value = true := by
  unfold checksInstance at h
  split at h
  · rename_i value hmade
    exact ⟨value, hmade, h⟩
  · cases h

/-- Whether a check stopped at a reference that leads nowhere. -/
def stopsUnresolved : Except Fault Unit → Bool
  | .error .unresolvedReference => true
  | _ => false

theorem eq_of_stopsUnresolved {outcome : Except Fault Unit} (h : stopsUnresolved outcome = true) :
    outcome = .error .unresolvedReference := by
  unfold stopsUnresolved at h
  split at h
  · rfl
  · cases h

theorem eq_ok_of_isOk {outcome : Except Fault Unit} (h : outcome.isOk = true) :
    outcome = .ok () := by
  cases outcome with
  | error fault => cases h
  | ok result => rfl

/-- Two definitions that refer to each other. -/
theorem historyFree_mutualDefinitions :
    ∃ package definition, Package.of {} mutualDefinitions = .ok package ∧
      (∀ entry ∈ mutualDefinitions, entry.2.listsHaveKey "$ref" = false) ∧
      draft7.Local package.Named ∧ package.Defines definition ∧ HasInstances definition ∧
      package.Refers definition.names.name "x.B" ∧ package.Refers "x.B" definition.names.name ∧
      package.HistoryFree draft7 := by
  have hlists : ∀ entry ∈ mutualDefinitions, entry.2.listsHaveKey "$ref" = false := by
    decide +kernel
  have hchecked : (Package.of {} mutualDefinitions).toOption.any (fun package ↦
      decide (package.Linked ∧ ∀ entry ∈ package.definitions, KeepsNames entry.2) &&
      package.definitions.all (isFlat ·.1) &&
      (package.definitions.lookup "x.A").any (fun definition ↦
        checksInstance definition (.obj []) (fun _ ↦ true) &&
          definition.dependencies.map Names.name == ["x.B"]) &&
      (package.definitions.lookup "x.B").any
        (·.dependencies.map Names.name == ["x.A"])) = true := by
    decide +kernel
  obtain ⟨package, hpackage, hchecked⟩ := exists_eq_ok_of_check hchecked
  simp only [Bool.and_eq_true, decide_eq_true_eq, beq_iff_eq, Option.any_eq_true] at hchecked
  obtain ⟨⟨⟨⟨hlinked, hentries⟩, hflat⟩, definition, hlookup, hinstance, hfirst⟩, other, hother,
    hsecond⟩ := hchecked
  have hnamed := wellNamed_of_eq_ok hpackage
  have hdefines := hnamed.defines_of_lookup hlookup
  have hname := hnamed.named hlookup
  obtain ⟨value, hmade, -⟩ := exists_of_checksInstance hinstance
  have hlocal : draft7.Local package.Named := local_draft7 fun _ ↦ flatKey_of_lookup hflat
  have hkeeps : ∀ definition, package.Defines definition → KeepsNames definition := by
    intro definition hdefines
    have hentry := hentries _ hdefines.mem
    exact hentry
  refine ⟨package, definition, hpackage, hlists, hlocal, hdefines, ⟨_, _, value, hmade⟩,
    hdefines.refers_iff.mpr (by simp [hfirst]), ⟨other, hother, by simp [hsecond, hname]⟩, ?_⟩
  rw [historyFree_iff hpackage hlists hlocal]
  intro definition hdefines _
  exact registersReached_of_linked hnamed hlinked hkeeps hdefines

/-- Of two references with one class name only one is registered. The other is found missing, unless
it has been registered before, and whatever the validator is, the registries differ in it. -/
theorem not_historyFree_clashingDefinitions :
    (∀ entry ∈ clashingDefinitions, entry.2.listsHaveKey "$ref" = false) ∧
      ∃ package definition other value, Package.of {} clashingDefinitions = .ok package ∧
        (∀ entry ∈ package.definitions, ∀ dependency ∈ entry.2.dependencies,
          dependency.name ∈ package.definitions.map Prod.fst) ∧
        draft7.Local package.Named ∧ package.Defines definition ∧ package.Defines other ∧
        construct definition (.obj [("a", .obj [])]) [] = .ok (.value value) ∧
        (package.validate draft7 definition (.value value) {}).2 = .error .unresolvedReference ∧
        (package.validate draft7 definition (.value value) (package.register other {}).1).2 =
          .ok () ∧
        ∀ validator, ¬package.HistoryFree validator := by
  refine ⟨by decide +kernel, ?_⟩
  have hchecked : (Package.of {} clashingDefinitions).toOption.any (fun package ↦
      decide (∀ entry ∈ package.definitions,
        ∀ dependency ∈ entry.2.dependencies, dependency.name ∈ package.definitions.map Prod.fst) &&
      package.definitions.all (isFlat ·.1) &&
      (package.definitions.lookup "x.Foo").any fun definition ↦
        (definition.dependencies.map Names.name).contains "x.a-b" &&
        decide ("x.a-b" ∉ (package.register definition {}).1.names) &&
        (package.definitions.lookup "x.a-b").any fun other ↦
          checksInstance definition (.obj [("a", .obj [])]) fun value ↦
            stopsUnresolved (package.validate draft7 definition (.value value) {}).2 &&
              (package.validate draft7 definition (.value value)
                (package.register other {}).1).2.isOk) = true := by
    decide +kernel
  obtain ⟨package, hpackage, hchecked⟩ := exists_eq_ok_of_check hchecked
  simp only [Bool.and_eq_true, decide_eq_true_eq, Option.any_eq_true, List.contains_iff_mem]
    at hchecked
  obtain ⟨⟨hentries, hflat⟩, definition, hlookup, ⟨hrefers, hunregistered⟩, other, hother,
    hinstance⟩ := hchecked
  obtain ⟨value, hmade, hvalidated⟩ := exists_of_checksInstance hinstance
  obtain ⟨hmissing, hfound⟩ := Bool.and_eq_true_iff.mp hvalidated
  have hnamed := wellNamed_of_eq_ok hpackage
  have hdefines := hnamed.defines_of_lookup hlookup
  refine ⟨package, definition, other, value, hpackage, hentries,
    local_draft7 fun _ ↦ flatKey_of_lookup hflat, hdefines, hnamed.defines_of_lookup hother, hmade,
    eq_of_stopsUnresolved hmissing, eq_ok_of_isOk hfound, ?_⟩
  intro validator hfree
  have hreaches : package.Reaches definition.names.name "x.a-b" :=
    .single (hdefines.refers_iff.mpr hrefers)
  obtain ⟨document, hdocument, -⟩ := (hfree hdefines hmade .empty .empty).2 _ hreaches
  rw [validate_value] at hdocument
  exact hunregistered (Registry.mem_names_of_mem (Registry.mem_of_document? hdocument))

end Package

end SchemaModules
