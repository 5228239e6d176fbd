import Mathlib.Logic.Relation
import SchemaModules.Proofs.RegistrationFrame

/-!
# Order of registrations

The registering functions of a package search its graph of references depth first. Names that are
registered or claimed end the search, and cycles are allowed. After any calls of these functions on
a fresh registry, the registered names are those that can be reached from the called ones, and a
definition stands behind all its references that do not lead back to it.

This needs the module of each definition to leave alone the names that its registering function
looks up. A short alias may bind such a name again, and so may an imported function. The main
statement says that the modules which do neither are exactly those that register as described.
-/

namespace SchemaModules.Package

open Naming Python

variable {package : Package} {definition : Definition} {registry reached : Registry}
  {root source target name : String}

/-- One name stands for a definition that collects a reference to the other. -/
def Refers (package : Package) (source target : String) : Prop :=
  ∃ definition, package.definitions.lookup source = some definition ∧
    target ∈ definition.dependencies.map Names.name

/-- Some chain of references leads from one name to the other. -/
abbrev Reaches (package : Package) : String → String → Prop :=
  Relation.ReflTransGen package.Refers

theorem Defines.refers_iff (h : package.Defines definition) :
    package.Refers definition.names.name target ↔
      target ∈ definition.dependencies.map Names.name := by
  constructor
  · rintro ⟨other, hother, htarget⟩
    rw [Defines] at h
    rw [h] at hother
    cases hother
    exact htarget
  · intro htarget
    exact ⟨definition, h, htarget⟩

/-- The definitions whose functions are called in a registering function, by name. -/
def calledNames (package : Package) (definition : Definition) : Except Fault (List String) := do
  let imports ← package.importAll definition.dependencies
  return (calledFor imports).map (·.names.name)

/-- The functions imported for the dependencies are the dependencies' own, and each can be called
under its name. -/
def Linked (package : Package) : Prop :=
  ∀ entry ∈ package.definitions,
    (package.calledNames entry.2).toOption = some (entry.2.dependencies.map Names.name)

instance (package : Package) : Decidable package.Linked :=
  inferInstanceAs (Decidable (∀ entry ∈ package.definitions, _))

theorem Linked.imports (h : package.Linked) (hdefines : package.Defines definition) :
    ∃ imports, package.importAll definition.dependencies = .ok imports ∧
      (calledFor imports).map (·.names.name) = definition.dependencies.map Names.name := by
  have hcalled := h _ hdefines.mem
  cases himports : package.importAll definition.dependencies with
  | error fault => simp [calledNames, himports, bind, Except.bind, Except.toOption] at hcalled
  | ok imports =>
    refine ⟨imports, rfl, ?_⟩
    simpa [calledNames, himports, bind, Except.bind, pure, Except.pure, Except.toOption]
      using hcalled

def isSupport : Option Binding → Bool
  | some (.support _) => true
  | _ => false

/-- The functions of the registry module are still found under their names, and no function is
imported under the name of the document. -/
def KeepsNames (definition : Definition) : Prop :=
  isSupport (bindingIn definition getRegistryName) = true ∧
    isSupport (bindingIn definition addDocumentName) = true ∧
    definition.names.schemaName ∉ definition.dependencies.map Names.addSchemaName

instance (definition : Definition) : Decidable (KeepsNames definition) :=
  inferInstanceAs (Decidable (_ ∧ _ ∧ _))

theorem registryFault?_eq_none_iff :
    registryFault? definition registry = none ↔
      isSupport (bindingIn definition getRegistryName) = true := by
  unfold registryFault?
  cases bindingIn definition getRegistryName with
  | none => simp [isSupport]
  | some binding =>
    cases binding with
    | valueClass => cases kindMembers (isBoundIn definition) definition.kind <;> simp [isSupport]
    | _ => simp [isSupport]

theorem additionFault?_eq_none_iff :
    additionFault? definition = none ↔
      isSupport (bindingIn definition addDocumentName) = true := by
  unfold additionFault?
  cases bindingIn definition addDocumentName with
  | none => simp [isSupport]
  | some binding => cases binding <;> simp [isSupport]

theorem lookup_imports_eq_none_iff {imports : List (String × Definition)}
    (himports : package.importAll definition.dependencies = .ok imports) :
    imports.lookup name = none ↔ name ∉ definition.dependencies.map Names.addSchemaName := by
  rw [← map_fst_importAll himports, lookup_eq_none_iff_notMem]

theorem KeepsNames.registered_eq (h : KeepsNames definition)
    {imports : List (String × Definition)}
    (himports : package.importAll definition.dependencies = .ok imports) :
    registered definition imports = definition.document := by
  simp [registered, (lookup_imports_eq_none_iff himports).mpr h.2.2]

/-! ## The invariant -/

/-- What holds of a registry whenever no function is about to add a document. A registered
definition waits for none of its references, except for those whose registration is running. -/
structure Ordered (package : Package) (registry : Registry) : Prop where
  nodup : registry.names.Nodup
  own : ∀ {name document}, (name, document) ∈ registry.documents →
    ∃ definition, package.definitions.lookup name = some definition ∧
      document = definition.document
  closed : ∀ {source target}, source ∈ registry.names → package.Refers source target →
    target ∈ registry.names ∨ target ∈ registry.inProgress
  ordered : ∀ {source target}, source ∈ registry.names → package.Refers source target →
    ¬ package.Reaches target source → registry.names.idxOf target < registry.names.idxOf source

theorem ordered_empty (package : Package) : package.Ordered {} where
  nodup := List.nodup_nil
  own h := absurd h List.not_mem_nil
  closed h := absurd h List.not_mem_nil
  ordered h := absurd h List.not_mem_nil

theorem Ordered.claim {claimed : Registry} (h : package.Ordered registry)
    (hclaim : registry.claim? name = some claimed) : package.Ordered claimed := by
  obtain ⟨_, rfl⟩ := Registry.claim?_eq_some_iff.mp hclaim
  refine ⟨h.nodup, h.own, ?_, h.ordered⟩
  intro source target hsource hrefers
  exact (h.closed hsource hrefers).imp_right (List.mem_cons_of_mem _)

/-- Adding a document and releasing its name. The references of the added definition are there or
claimed, and a claimed one leads back to it, since its registration is what led here. -/
theorem Ordered.complete {claims : List String} (h : package.Ordered reached)
    (hdefines : package.Defines definition)
    (hclaims : reached.inProgress = definition.names.name :: claims)
    (hunclaimed : definition.names.name ∉ claims)
    (hunregistered : definition.names.name ∉ reached.names)
    (hstack : ∀ claim ∈ claims, package.Reaches claim definition.names.name)
    (htargets : ∀ target, package.Refers definition.names.name target →
      target ∈ reached.names ∨ target ∈ reached.inProgress) :
    package.Ordered ((reached.add definition.names.name definition.document).release
      definition.names.name) := by
  have hnames : ((reached.add definition.names.name definition.document).release
      definition.names.name).names = reached.names ++ [definition.names.name] := by
    rw [Registry.release_names, Registry.names_add_of_notMem hunregistered]
  have hinProgress : ((reached.add definition.names.name definition.document).release
      definition.names.name).inProgress = claims :=
    Registry.release_inProgress (by rw [Registry.add_inProgress, hclaims]) hunclaimed
  -- a reference stays before the names that stood behind it
  have hidx {name : String} (hname : name ∈ reached.names) :
      (reached.names ++ [definition.names.name]).idxOf name = reached.names.idxOf name := by
    rw [List.idxOf_append, if_pos hname]
  have hidxNew : (reached.names ++ [definition.names.name]).idxOf definition.names.name =
      reached.names.length := by
    rw [List.idxOf_append, if_neg hunregistered]
    simp
  refine ⟨?_, ?_, ?_, ?_⟩
  · rw [Registry.release_names]
    exact Registry.nodup_names_add h.nodup
  · intro name document hentry
    rw [Registry.release_documents, Registry.add_of_notMem hunregistered] at hentry
    rcases List.mem_append.mp hentry with hold | hnew
    · exact h.own hold
    · obtain ⟨rfl, rfl⟩ := Prod.mk.inj (List.mem_singleton.mp hnew)
      exact ⟨definition, hdefines, rfl⟩
  · intro source target hsource hrefers
    rw [hnames, List.mem_append, List.mem_singleton] at hsource ⊢
    rw [hinProgress]
    have htarget : target ∈ reached.names ∨ target ∈ reached.inProgress := by
      rcases hsource with hsource | rfl
      · exact h.closed hsource hrefers
      · exact htargets target hrefers
    rw [hclaims, List.mem_cons] at htarget
    tauto
  · intro source target hsource hrefers hback
    rw [hnames, List.mem_append, List.mem_singleton] at hsource
    rw [hnames]
    rcases hsource with hsource | rfl
    · have hlt := h.ordered hsource hrefers hback
      have htarget : target ∈ reached.names := by
        rw [← List.idxOf_lt_length_iff]
        exact hlt.trans_le List.idxOf_le_length
      rwa [hidx hsource, hidx htarget]
    · rcases htargets target hrefers with htarget | htarget
      · rw [hidx htarget, hidxNew]
        exact List.idxOf_lt_length_of_mem htarget
      · rw [hclaims, List.mem_cons] at htarget
        rcases htarget with rfl | hclaim
        · exact absurd .refl hback
        · exact absurd (hstack target hclaim) hback

/-- What a call leads to: it returns, it leaves an ordered registry, it registers only what can be
reached from its own name, and that name is then registered or was claimed before. -/
structure Registers (package : Package) (root : String) (earlier : Registry)
    (outcome : Outcome) : Prop where
  returned : outcome.2 = .ok ()
  ordered : package.Ordered outcome.1
  reached : ∀ {name}, name ∈ outcome.1.names → name ∈ earlier.names ∨ package.Reaches root name
  found : root ∈ outcome.1.names ∨ root ∈ earlier.inProgress

/-- The same for the calls of one registering function. -/
structure RegistersAll (package : Package) (definitions : List Definition) (earlier : Registry)
    (outcome : Outcome) : Prop where
  returned : outcome.2 = .ok ()
  grows : Registry.Grows package.Registrable earlier outcome.1
  ordered : package.Ordered outcome.1
  reached : ∀ {name}, name ∈ outcome.1.names → name ∈ earlier.names ∨
    ∃ definition ∈ definitions, package.Reaches definition.names.name name
  found : ∀ definition ∈ definitions, definition.names.name ∈ outcome.1.names ∨
    definition.names.name ∈ earlier.inProgress

theorem callAll_registers {call : Definition → Registry → Outcome} {definitions : List Definition}
    {claims : List String} {fuel : Nat}
    (hgrows : ∀ definition ∈ definitions, ∀ registry,
      Registry.Grows package.Registrable registry (call definition registry).1)
    (hcall : ∀ definition ∈ definitions, ∀ registry, package.Ordered registry →
      registry.inProgress = claims → (package.unclaimed registry).card < fuel →
      package.Registers definition.names.name registry (call definition registry))
    (hordered : package.Ordered registry) (hclaims : registry.inProgress = claims)
    (hfuel : (package.unclaimed registry).card < fuel) :
    package.RegistersAll definitions registry (callAll call definitions registry) := by
  induction definitions generalizing registry with
  | nil => exact ⟨rfl, .refl registry, hordered, Or.inl, fun _ h ↦ absurd h List.not_mem_nil⟩
  | cons first rest ih =>
    have hfirst := hcall first List.mem_cons_self registry hordered hclaims hfuel
    have hfirstGrows := hgrows first List.mem_cons_self registry
    rcases hresult : call first registry with ⟨middle, result⟩
    rw [hresult] at hfirst hfirstGrows
    obtain rfl : result = .ok () := hfirst.returned
    have hrest := ih (fun definition hmem ↦ hgrows definition (List.mem_cons_of_mem _ hmem))
      (fun definition hmem ↦ hcall definition (List.mem_cons_of_mem _ hmem)) hfirst.ordered
      (hfirstGrows.inProgress_eq.trans hclaims)
      ((card_unclaimed_le_of_grows hfirstGrows).trans_lt hfuel)
    simp only [callAll, hresult]
    refine ⟨hrest.returned, hfirstGrows.trans hrest.grows, hrest.ordered, ?_, ?_⟩
    · intro name hname
      rcases hrest.reached hname with hmiddle | ⟨definition, hmem, hpath⟩
      · rcases hfirst.reached hmiddle with hold | hpath
        · exact Or.inl hold
        · exact Or.inr ⟨first, List.mem_cons_self, hpath⟩
      · exact Or.inr ⟨definition, List.mem_cons_of_mem _ hmem, hpath⟩
    · intro definition hmem
      rcases List.mem_cons.mp hmem with rfl | hmem
      · exact hfirst.found.imp_left hrest.grows.mem_names
      · have hfound := hrest.found definition hmem
        rwa [hfirstGrows.inProgress_eq] at hfound

/-- The end of a registration whose calls have all returned. -/
theorem RegistersAll.complete {claimed : Registry} {definitions : List Definition}
    (h : package.RegistersAll definitions claimed (reached, .ok ()))
    (hdefines : package.Defines definition)
    (hclaim : registry.claim? definition.names.name = some claimed)
    (hcalled : definitions.map (·.names.name) = definition.dependencies.map Names.name)
    (hstack : ∀ claim ∈ registry.inProgress, package.Reaches claim definition.names.name) :
    package.Registers definition.names.name registry
      ((reached.add definition.names.name definition.document).release definition.names.name,
        .ok ()) := by
  have hnew := h.grows.notMem_names_of_claim hclaim
  obtain ⟨⟨_, hunclaimed⟩, rfl⟩ := Registry.claim?_eq_some_iff.mp hclaim
  have hrefers {other : Definition} (hother : other ∈ definitions) :
      package.Refers definition.names.name other.names.name := by
    rw [hdefines.refers_iff, ← hcalled]
    exact List.mem_map_of_mem hother
  refine ⟨rfl, ?_, ?_, Or.inl ?_⟩
  · apply h.ordered.complete hdefines h.grows.inProgress_eq hunclaimed hnew hstack
    intro target htarget
    rw [hdefines.refers_iff, ← hcalled] at htarget
    obtain ⟨other, hother, rfl⟩ := List.mem_map.mp htarget
    rw [h.grows.inProgress_eq]
    exact h.found other hother
  · intro name hname
    rw [Registry.release_names, Registry.names_add_of_notMem hnew, List.mem_append,
      List.mem_singleton] at hname
    rcases hname with hname | rfl
    · rcases h.reached hname with hold | ⟨other, hother, hpath⟩
      · exact Or.inl hold
      · exact Or.inr (.head (hrefers hother) hpath)
    · exact Or.inr .refl
  · exact Registry.mem_names_add

/-- One call, by induction on the fuel. `hstack` says that every running registration has led to
this call. -/
theorem registerWithin_registers (hnamed : package.WellNamed) (hlinked : package.Linked)
    (hkeeps : ∀ definition, package.Defines definition → KeepsNames definition) (fuel : Nat)
    (hdefines : package.Defines definition) (hordered : package.Ordered registry)
    (hstack : ∀ claim ∈ registry.inProgress, package.Reaches claim definition.names.name)
    (hfuel : (package.unclaimed registry).card < fuel) :
    package.Registers definition.names.name registry
      (package.registerWithin fuel definition registry) := by
  induction fuel generalizing definition registry with
  | zero => exact absurd hfuel (Nat.not_lt_zero _)
  | succ fuel ih =>
    have hkept := hkeeps definition hdefines
    obtain ⟨imports, himports, hcalled⟩ := hlinked.imports hdefines
    have hcalls {claimed : Registry}
        (hclaim : registry.claim? definition.names.name = some claimed) :
        package.RegistersAll (calledFor imports) claimed
          (callAll (package.registerWithin fuel) (calledFor imports) claimed) := by
      have hcard := card_unclaimed_lt_of_claim hdefines hclaim
      apply callAll_registers _ _ (hordered.claim hclaim) rfl (by omega : _ < fuel)
      · intro other hother
        exact registerWithin_grows hnamed fuel (hnamed.defines_of_calledFor himports hother)
      · intro other hother later hlater hclaims hless
        apply ih (hnamed.defines_of_calledFor himports hother) hlater _ hless
        have hrefers : package.Refers definition.names.name other.names.name := by
          rw [hdefines.refers_iff, ← hcalled]
          exact List.mem_map_of_mem hother
        obtain ⟨_, rfl⟩ := Registry.claim?_eq_some_iff.mp hclaim
        intro claim hmem
        rw [hclaims] at hmem
        rcases List.mem_cons.mp hmem with rfl | hold
        · exact .single hrefers
        · exact (hstack claim hold).tail hrefers
    have hattempt := attempt_registerWithin package fuel definition registry
    generalize package.registerWithin (fuel + 1) definition registry = outcome at hattempt
    cases hattempt with
    | captured hregistry => simp [registryFault?_eq_none_iff.mpr hkept.1] at hregistry
    | skipped _ hclaim => exact ⟨rfl, hordered, Or.inl, Registry.claim?_eq_none_iff.mp hclaim⟩
    | unimported _ _ himported => simp [himports] at himported
    | interrupted _ hclaim himported heq =>
      cases himports.symm.trans himported
      have hreturned := (hcalls hclaim).returned
      simp [heq] at hreturned
    | unadded _ _ _ _ haddition =>
      simp [additionFault?_eq_none_iff.mpr hkept.2.1] at haddition
    | completed _ hclaim himported heq _ =>
      cases himports.symm.trans himported
      rw [hkept.registered_eq himports]
      exact (heq ▸ hcalls hclaim).complete hdefines hclaim hcalled hstack

/-! ## Registries after a sequence of calls -/

/-- The registry that calls of registering functions leave behind, one after the other, when the
first finds it fresh. A fault ends its call and not the sequence. -/
def after (package : Package) (calls : List Definition) : Registry :=
  calls.foldl (fun registry definition ↦ (package.register definition registry).1) {}

/-- What the calls of registering functions are there for, one after the other on a fresh registry.
Whatever is called next returns, however deep the calls within it may go; no claim is left; the
registered names are those reached from the called ones, each once, with its own document, in a
place that it keeps; and a reference stands before what refers to it, unless it leads back. -/
structure RegistersInOrder (package : Package) (calls : List Definition) : Prop where
  returned : ∀ {definition}, package.Defines definition →
    (package.register definition (package.after calls)).2 = .ok ()
  fuel : ∀ {definition fuel}, package.Defines definition → package.definitions.length < fuel →
    package.registerWithin fuel definition (package.after calls) =
      package.register definition (package.after calls)
  released : (package.after calls).inProgress = []
  names_iff : ∀ {name}, name ∈ (package.after calls).names ↔
    ∃ call ∈ calls, package.Reaches call.names.name name
  nodup : (package.after calls).names.Nodup
  own : ∀ {name document}, (package.after calls).document? name = some document →
    ∃ definition, package.definitions.lookup name = some definition ∧
      document = definition.document
  kept : ∀ {others : List Definition}, (∀ call ∈ others, package.Defines call) →
    (package.after calls).documents <+: (package.after (calls ++ others)).documents
  ordered : ∀ {source target}, source ∈ (package.after calls).names →
    package.Refers source target → ¬ package.Reaches target source →
    (package.after calls).names.idxOf target < (package.after calls).names.idxOf source

theorem after_append (package : Package) (calls : List Definition) (definition : Definition) :
    package.after (calls ++ [definition]) =
      (package.register definition (package.after calls)).1 := by
  simp [after]

theorem after_grows_of {allowed : String → Json → Prop}
    (hregister : ∀ definition, package.Defines definition → ∀ registry,
      Registry.Grows allowed registry (package.register definition registry).1)
    (calls : List Definition) {others : List Definition}
    (hothers : ∀ call ∈ others, package.Defines call) :
    Registry.Grows allowed (package.after calls) (package.after (calls ++ others)) := by
  induction others using List.reverseRecOn with
  | nil =>
    rw [List.append_nil]
    exact .refl _
  | append_singleton others last ih =>
    have hlast := hothers last (List.mem_append_right _ List.mem_cons_self)
    rw [← List.append_assoc, after_append]
    exact (ih fun call hmem ↦ hothers call (List.mem_append_left _ hmem)).trans
      (hregister last hlast _)

theorem after_grows (hnamed : package.WellNamed) (calls : List Definition)
    {others : List Definition} (hothers : ∀ call ∈ others, package.Defines call) :
    Registry.Grows package.Registrable (package.after calls)
      (package.after (calls ++ others)) :=
  after_grows_of (fun _ hdefines ↦ register_grows hnamed hdefines) calls hothers

theorem after_inProgress (hnamed : package.WellNamed) {calls : List Definition}
    (hcalls : ∀ call ∈ calls, package.Defines call) : (package.after calls).inProgress = [] :=
  (after_grows hnamed [] hcalls).inProgress_eq

/-- The registry found by a call that nobody else's registration is waiting for. -/
theorem register_registers (hnamed : package.WellNamed) (hlinked : package.Linked)
    (hkeeps : ∀ definition, package.Defines definition → KeepsNames definition)
    (hdefines : package.Defines definition) (hordered : package.Ordered registry)
    (hidle : registry.inProgress = []) :
    package.Registers definition.names.name registry (package.register definition registry) := by
  have hcard := card_unclaimed_le package registry
  apply registerWithin_registers hnamed hlinked hkeeps _ hdefines hordered _ (by omega)
  simp [hidle]

theorem ordered_after (hnamed : package.WellNamed) (hlinked : package.Linked)
    (hkeeps : ∀ definition, package.Defines definition → KeepsNames definition)
    {calls : List Definition} (hcalls : ∀ call ∈ calls, package.Defines call) :
    package.Ordered (package.after calls) := by
  induction calls using List.reverseRecOn with
  | nil => exact ordered_empty package
  | append_singleton calls last ih =>
    have hbefore : ∀ call ∈ calls, package.Defines call :=
      fun call hmem ↦ hcalls call (List.mem_append_left _ hmem)
    rw [after_append]
    exact (register_registers hnamed hlinked hkeeps
      (hcalls last (List.mem_append_right _ List.mem_cons_self)) (ih hbefore)
      (after_inProgress hnamed hbefore)).ordered

/-- With no registration running, what is registered is closed under references. -/
theorem Ordered.mem_names_of_reaches (h : package.Ordered registry)
    (hidle : registry.inProgress = []) (hsource : source ∈ registry.names)
    (hpath : package.Reaches source target) : target ∈ registry.names := by
  induction hpath with
  | refl => exact hsource
  | tail _ hrefers ih =>
    rcases h.closed ih hrefers with hmem | hclaimed
    · exact hmem
    · simp [hidle] at hclaimed

theorem mem_names_after_iff (hnamed : package.WellNamed) (hlinked : package.Linked)
    (hkeeps : ∀ definition, package.Defines definition → KeepsNames definition)
    {calls : List Definition} (hcalls : ∀ call ∈ calls, package.Defines call) :
    name ∈ (package.after calls).names ↔
      ∃ call ∈ calls, package.Reaches call.names.name name := by
  induction calls using List.reverseRecOn generalizing name with
  | nil => simp [after, Registry.names]
  | append_singleton calls last ih =>
    have hbefore : ∀ call ∈ calls, package.Defines call :=
      fun call hmem ↦ hcalls call (List.mem_append_left _ hmem)
    have hlast := hcalls last (List.mem_append_right _ List.mem_cons_self)
    have hidle := after_inProgress hnamed hbefore
    have hstep := register_registers hnamed hlinked hkeeps hlast
      (ordered_after hnamed hlinked hkeeps hbefore) hidle
    have hgrows := register_grows hnamed hlast (package.after calls)
    rw [after_append]
    constructor
    · intro hname
      rcases hstep.reached hname with hold | hpath
      · obtain ⟨call, hmem, hpath⟩ := (ih hbefore).mp hold
        exact ⟨call, List.mem_append_left _ hmem, hpath⟩
      · exact ⟨last, List.mem_append_right _ List.mem_cons_self, hpath⟩
    · rintro ⟨call, hmem, hpath⟩
      rcases List.mem_append.mp hmem with hold | hnew
      · exact hgrows.mem_names ((ih hbefore).mpr ⟨call, hold, hpath⟩)
      · obtain rfl := List.mem_singleton.mp hnew
        have hroot : call.names.name ∈ (package.register call (package.after calls)).1.names := by
          rcases hstep.found with hfound | hclaimed
          · exact hfound
          · simp [hidle] at hclaimed
        exact hstep.ordered.mem_names_of_reaches (hgrows.inProgress_eq.trans hidle) hroot hpath

theorem registersInOrder_of_keepsNames (hnamed : package.WellNamed) (hlinked : package.Linked)
    (hkeeps : ∀ definition, package.Defines definition → KeepsNames definition)
    {calls : List Definition} (hcalls : ∀ call ∈ calls, package.Defines call) :
    package.RegistersInOrder calls := by
  have hordered := ordered_after hnamed hlinked hkeeps hcalls
  have hidle := after_inProgress hnamed hcalls
  exact {
    returned := fun hdefines ↦
      (register_registers hnamed hlinked hkeeps hdefines hordered hidle).returned
    fuel := fun hdefines hfuel ↦ registerWithin_eq_register hnamed hdefines _ hfuel
    released := hidle
    names_iff := mem_names_after_iff hnamed hlinked hkeeps hcalls
    nodup := hordered.nodup
    own := fun hdocument ↦ hordered.own (Registry.mem_of_document? hdocument)
    kept := fun hothers ↦ (after_grows hnamed calls hothers).kept
    ordered := hordered.ordered }

/-- A first call that returns has gone through all steps of the registration. -/
theorem completed_of_returned (hnamed : package.WellNamed)
    (hreturned : (package.register definition {}).2 = .ok ()) :
    registryFault? definition {} = none ∧ additionFault? definition = none ∧
      ∃ imports, package.importAll definition.dependencies = .ok imports ∧
        (package.register definition {}).1.document? definition.names.name =
          some (registered definition imports) := by
  have hattempt : Attempt package (package.registerWithin package.definitions.length) definition {}
      (package.register definition {}) :=
    attempt_registerWithin package package.definitions.length definition {}
  generalize package.register definition {} = outcome at hattempt hreturned
  cases hattempt with
  | captured => cases hreturned
  | skipped _ hclaim => simp [Registry.claim?_eq_none_iff, Registry.names] at hclaim
  | unimported => cases hreturned
  | interrupted => cases hreturned
  | unadded => cases hreturned
  | @completed claimed reached imports hregistry hclaim himports heq haddition =>
    refine ⟨hregistry, haddition, imports, himports, ?_⟩
    have hgrows := callAll_grows_of_imports hnamed himports heq
    exact Registry.document?_add_of_notMem (hgrows.notMem_names_of_claim hclaim)

/-- Only the fresh registry and the registries after one call are needed. -/
theorem keepsNames_of_registersInOrder (hnamed : package.WellNamed)
    (h : ∀ calls : List Definition, (∀ call ∈ calls, package.Defines call) →
      package.RegistersInOrder calls) (hdefines : package.Defines definition) :
    KeepsNames definition := by
  have hfresh : package.RegistersInOrder [] := h [] fun _ hmem ↦ absurd hmem List.not_mem_nil
  have honce : package.RegistersInOrder [definition] := h [definition] (by simpa using hdefines)
  obtain ⟨hregistry, haddition, imports, himports, hdocument⟩ :=
    completed_of_returned hnamed (hfresh.returned hdefines)
  refine ⟨registryFault?_eq_none_iff.mp hregistry, additionFault?_eq_none_iff.mp haddition, ?_⟩
  rw [← lookup_imports_eq_none_iff himports]
  obtain ⟨other, hother, heq⟩ := honce.own hdocument
  cases hlookup : imports.lookup definition.names.schemaName with
  | none => rfl
  | some function =>
    have hobject := hnamed.document_isObject (hnamed.defines_of_lookup hother)
    simp only [registered, hlookup] at heq
    rw [← heq] at hobject
    cases hobject

/-- The registering functions of a package register in order after every sequence of calls exactly
when no module of the package loses a name that its function looks up. -/
theorem registersInOrder_iff {config : Config} {definitions : List (String × Json)}
    (hpackage : Package.of config definitions = .ok package) (hlinked : package.Linked) :
    (∀ calls : List Definition, (∀ call ∈ calls, package.Defines call) →
      package.RegistersInOrder calls) ↔
      ∀ definition, package.Defines definition → KeepsNames definition := by
  have hnamed := wellNamed_of_eq_ok hpackage
  constructor
  · intro h definition hdefines
    exact keepsNames_of_registersInOrder hnamed h hdefines
  · intro hkeeps calls hcalls
    exact registersInOrder_of_keepsNames hnamed hlinked hkeeps hcalls

/-- Two definitions that refer to each other. -/
def mutualDefinitions : List (String × Json) :=
  [("x.A", .obj [("items", .obj [("$ref", .str "#/definitions/x.B")])]),
    ("x.B", .obj [("items", .obj [("$ref", .str "#/definitions/x.A")])])]

theorem registersInOrder_mutualDefinitions :
    ∃ package, Package.of {} mutualDefinitions = .ok package ∧ package.Linked ∧
      package.Reaches "x.A" "x.B" ∧ package.Reaches "x.B" "x.A" ∧
      ∀ calls : List Definition, (∀ call ∈ calls, package.Defines call) →
        package.RegistersInOrder calls := by
  have hchecked : (Package.of {} mutualDefinitions).toOption.any (fun package ↦
      decide (package.Linked ∧ (∀ entry ∈ package.definitions, KeepsNames entry.2) ∧
        (package.definitions.lookup "x.A").any (·.dependencies.map Names.name == ["x.B"]) ∧
        (package.definitions.lookup "x.B").any (·.dependencies.map Names.name == ["x.A"])))
        = true := by
    decide +kernel
  obtain ⟨package, hpackage, hchecked⟩ := exists_eq_ok_of_check hchecked
  obtain ⟨hlinked, hkeeps, hfirst, hsecond⟩ := of_decide_eq_true hchecked
  have hreaches {source target : String}
      (h : (package.definitions.lookup source).any
        (·.dependencies.map Names.name == [target]) = true) : package.Reaches source target := by
    obtain ⟨definition, hlookup, heq⟩ := (Option.any_eq_true _ _).mp h
    refine .single ⟨definition, hlookup, ?_⟩
    rw [beq_iff_eq.mp heq]
    exact List.mem_singleton_self target
  refine ⟨package, hpackage, hlinked, hreaches hfirst, hreaches hsecond, ?_⟩
  rw [registersInOrder_iff hpackage hlinked]
  intro definition hdefines
  exact hkeeps (definition.names.name, definition) hdefines.mem

def capturingDefinitions : List (String × Json) :=
  [("x.get_registry", .obj [("type", .str "object")])]

/-- The short alias of the value class takes the name of the function that finds the registry. -/
theorem register_captured_registry :
    ∃ package definition, Package.of {} capturingDefinitions = .ok package ∧
      package.Linked ∧ package.Defines definition ∧
      (package.register definition {}).2.toOption = none ∧
      (package.register definition {}).1.names = [] := by
  have hchecked : (Package.of {} capturingDefinitions).toOption.any (fun package ↦
      decide package.Linked && (package.definitions.lookup "x.get_registry").any fun definition ↦
        decide ((package.register definition {}).2.toOption = none ∧
          (package.register definition {}).1.names = [])) = true := by
    decide +kernel
  obtain ⟨package, hpackage, hchecked⟩ := exists_eq_ok_of_check hchecked
  obtain ⟨hlinked, hregister⟩ := Bool.and_eq_true_iff.mp hchecked
  obtain ⟨definition, hlookup, houtcome⟩ := (Option.any_eq_true _ _).mp hregister
  have hdefines := (wellNamed_of_eq_ok hpackage).defines_of_lookup hlookup
  exact ⟨package, definition, hpackage, of_decide_eq_true hlinked, hdefines,
    of_decide_eq_true houtcome⟩

end SchemaModules.Package
