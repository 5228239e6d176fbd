import SchemaModules.Proofs.FailedRegistrations

/-!
# Incomplete registrations

A definition from which references lead to one that cannot be registered is doomed: its own
registration should fail. It does so unless the search passes over the references that lead there,
because their registrations are running. Then the definition is registered on their strength, they
fail, and it is left behind without them.

The main statement says when this never happens. A registration that comes to a doomed definition
goes on with the first reference that is doomed and not being registered. Every registry stays
complete exactly if this way always ends at a definition that cannot be registered itself, and never
at one whose doomed references are all being registered.
-/

namespace SchemaModules.Package

open Naming Python

variable {package : Package} {definition : Definition} {registry reached : Registry}
  {call : Definition → Registry → Outcome} {result : Except Fault Unit} {fault : Fault}
  {fuel : Nat} {running : List String} {name source target : String}

/-- Every reference of a registered definition is registered. -/
def Complete (package : Package) (registry : Registry) : Prop :=
  ∀ source ∈ registry.names, ∀ target, package.Refers source target → target ∈ registry.names

/-- Wherever the functions of all references can be imported, they are the references' own, and each
of them is called. -/
def LinkedWhereLoaded (package : Package) : Prop :=
  ∀ entry ∈ package.definitions, ∀ called ∈ (package.calledNames entry.2).toOption,
    called = entry.2.dependencies.map Names.name

instance (package : Package) : Decidable package.LinkedWhereLoaded :=
  inferInstanceAs (Decidable (∀ entry ∈ package.definitions,
    ∀ called ∈ (package.calledNames entry.2).toOption, _))

theorem LinkedWhereLoaded.map_name_calledFor (h : package.LinkedWhereLoaded)
    (hdefines : package.Defines definition) {imports : List (String × Definition)}
    (himports : package.importAll definition.dependencies = .ok imports) :
    (calledFor imports).map (·.names.name) = definition.dependencies.map Names.name := by
  apply h _ hdefines.mem
  simp [calledNames, himports, bind, Except.bind, pure, Except.pure, Except.toOption]

theorem LinkedWhereLoaded.refers_iff (h : package.LinkedWhereLoaded)
    (hdefines : package.Defines definition) {imports : List (String × Definition)}
    (himports : package.importAll definition.dependencies = .ok imports) :
    package.Refers definition.names.name target ↔
      ∃ other ∈ calledFor imports, other.names.name = target := by
  rw [hdefines.refers_iff, ← h.map_name_calledFor hdefines himports, List.mem_map]

/-- References lead from the name to a definition that cannot be registered. -/
def Doomed (package : Package) (name : String) : Prop :=
  ∃ definition, package.Defines definition ∧ ¬package.Unobstructed definition ∧
    package.Reaches name definition.names.name

theorem Doomed.of_refers (h : package.Doomed target) (hrefers : package.Refers source target) :
    package.Doomed source := by
  obtain ⟨definition, hdefines, hobstructed, hpath⟩ := h
  exact ⟨definition, hdefines, hobstructed, .head hrefers hpath⟩

theorem Defines.doomed (h : package.Defines definition)
    (hobstructed : ¬package.Unobstructed definition) : package.Doomed definition.names.name :=
  ⟨definition, h, hobstructed, .refl⟩

/-- A doomed definition that can be registered refers to a doomed one. -/
theorem Doomed.exists_refers (h : package.Doomed definition.names.name)
    (hdefines : package.Defines definition) (hunobstructed : package.Unobstructed definition) :
    ∃ target, package.Refers definition.names.name target ∧ package.Doomed target := by
  obtain ⟨other, hother, hobstructed, hpath⟩ := h
  cases hpath.cases_head with
  | inl hsame =>
    obtain rfl := hdefines.eq_of_name hother hsame
    exact absurd hunobstructed hobstructed
  | inr hstep =>
    obtain ⟨target, hrefers, hrest⟩ := hstep
    exact ⟨target, hrefers, other, hother, hobstructed, hrest⟩

/-- A fault of several calls is that of one of them, made where what holds at first still does. -/
theorem exists_failed_of_callAll (holds : Registry → Prop) {definitions : List Definition}
    (hkept : ∀ definition ∈ definitions, ∀ registry, holds registry →
      holds (call definition registry).1)
    (hholds : holds registry) (h : (callAll call definitions registry).2 = .error fault) :
    ∃ definition ∈ definitions, ∃ registry, holds registry ∧
      (call definition registry).2 = .error fault := by
  induction definitions generalizing registry with
  | nil => cases h
  | cons first rest ih =>
    have hfirst := hkept first List.mem_cons_self registry hholds
    rw [callAll] at h
    rcases hresult : call first registry with ⟨middle, failure | _⟩ <;> rw [hresult] at h hfirst
    · exact ⟨first, List.mem_cons_self, registry, hholds, by rw [hresult]; exact h⟩
    · obtain ⟨definition, hmem, hfailed⟩ :=
        ih (fun other hother ↦ hkept other (List.mem_cons_of_mem _ hother)) hfirst h
      exact ⟨definition, List.mem_cons_of_mem _ hmem, hfailed⟩

/-- One of the functions that a registering function calls has failed, with enough fuel left. -/
theorem exists_failed_of_calledFor (hnamed : package.WellNamed) {claimed : Registry}
    {imports : List (String × Definition)}
    (himports : package.importAll definition.dependencies = .ok imports)
    (hfuel : (package.unclaimed claimed).card < fuel)
    (h : callAll (package.registerWithin fuel) (calledFor imports) claimed =
      (reached, .error fault)) :
    ∃ other ∈ calledFor imports, ∃ registry, (package.unclaimed registry).card < fuel ∧
      (package.registerWithin fuel other registry).2 = .error fault := by
  refine exists_failed_of_callAll (fun registry ↦ (package.unclaimed registry).card < fuel) ?_ hfuel
    (congrArg Prod.snd h)
  intro other hother registry hless
  have hgrows := registerWithin_grows hnamed fuel (hnamed.defines_of_calledFor himports hother)
    registry
  exact (card_unclaimed_le_of_grows hgrows).trans_lt hless

/-- A fault comes up along references from a definition that cannot be registered. -/
theorem doomed_of_failed (hnamed : package.WellNamed) (hlinked : package.LinkedWhereLoaded)
    (hdefines : package.Defines definition) (hfuel : (package.unclaimed registry).card < fuel)
    (h : (package.registerWithin fuel definition registry).2 = .error fault) :
    package.Doomed definition.names.name := by
  induction fuel generalizing definition registry fault with
  | zero => exact absurd hfuel (Nat.not_lt_zero _)
  | succ fuel ih =>
    have hattempt := attempt_registerWithin package fuel definition registry
    generalize package.registerWithin (fuel + 1) definition registry = outcome at hattempt h
    cases hattempt with
    | captured hregistry =>
      apply hdefines.doomed
      intro hunobstructed
      simp [registryFault?_eq_none_iff.mpr hunobstructed.registry] at hregistry
    | skipped => cases h
    | unimported _ _ himports =>
      apply hdefines.doomed
      intro hunobstructed
      obtain ⟨imports, hloaded⟩ := hunobstructed.imports
      simp [hloaded] at himports
    | interrupted _ hclaim himports heq =>
      have hclaimed := card_unclaimed_lt_of_claim hdefines hclaim
      obtain ⟨other, hother, _, hless, hfailed⟩ :=
        exists_failed_of_calledFor hnamed himports (by omega) heq
      apply (ih (hnamed.defines_of_calledFor himports hother) hless hfailed).of_refers
      exact (hlinked.refers_iff hdefines himports).mpr ⟨other, hother, rfl⟩
    | unadded _ _ _ _ haddition =>
      apply hdefines.doomed
      intro hunobstructed
      simp [additionFault?_eq_none_iff.mpr hunobstructed.addition] at haddition
    | completed => cases h

/-! ## Searches that strand -/

/-- A registration, begun while those of `running` run, comes to a doomed definition that it
completes. From each definition it goes on with the first reference that is doomed and not being
registered, and it ends where there is none although nothing keeps the definition itself from being
registered. -/
inductive Strands (package : Package) : List String → Definition → Prop
  | here {running : List String} {definition : Definition}
      (hdoomed : package.Doomed definition.names.name)
      (hunobstructed : package.Unobstructed definition)
      (hwaits : ∀ target, package.Refers definition.names.name target → package.Doomed target →
        target ∈ definition.names.name :: running) :
    Strands package running definition
  | further {running before after : List String} {definition next : Definition}
      (hregistry : isSupport (bindingIn definition getRegistryName) = true)
      (himports : ∃ imports, package.importAll definition.dependencies = .ok imports)
      (hreferences : definition.dependencies.map Names.name = before ++ next.names.name :: after)
      (hpassed : ∀ target ∈ before, package.Doomed target →
        target ∈ definition.names.name :: running)
      (hdefines : package.Defines next) (hdoomed : package.Doomed next.names.name)
      (hnew : next.names.name ∉ definition.names.name :: running)
      (hstrands : Strands package (definition.names.name :: running) next) :
    Strands package running definition

theorem Strands.doomed (h : package.Strands running definition)
    (hdefines : package.Defines definition) : package.Doomed definition.names.name := by
  cases h with
  | here hdoomed => exact hdoomed
  | further _ _ hreferences _ _ hdoomed =>
    apply hdoomed.of_refers
    rw [hdefines.refers_iff, hreferences]
    exact List.mem_append_right _ List.mem_cons_self

theorem Strands.imported (h : package.Strands running definition) :
    ∃ imports, package.importAll definition.dependencies = .ok imports := by
  cases h with
  | here _ hunobstructed => exact hunobstructed.imports
  | further _ himports => exact himports

theorem Strands.dependencies_ne_nil (h : package.Strands running definition)
    (hdefines : package.Defines definition) : definition.dependencies ≠ [] := by
  intro hnil
  cases h with
  | here hdoomed hunobstructed =>
    obtain ⟨target, hrefers, -⟩ := hdoomed.exists_refers hdefines hunobstructed
    simp [hdefines.refers_iff, hnil] at hrefers
  | further _ _ hreferences => simp [hnil] at hreferences

/-- A first reference that is doomed and not being registered is the one to go on with. -/
theorem Strands.of_head {first : Definition} {others : List String}
    (h : package.Strands running definition) (hdefines : package.Defines definition)
    (hreferences : definition.dependencies.map Names.name = first.names.name :: others)
    (hfirst : package.Defines first) (hdoomed : package.Doomed first.names.name)
    (hnew : first.names.name ∉ definition.names.name :: running) :
    package.Strands (definition.names.name :: running) first := by
  cases h with
  | here _ _ hwaits =>
    refine absurd (hwaits _ ?_ hdoomed) hnew
    rw [hdefines.refers_iff, hreferences]
    exact List.mem_cons_self
  | @further _ before after _ next _ _ hsplit hpassed hnext _ _ hstrands =>
    rw [hreferences] at hsplit
    cases before with
    | nil =>
      obtain ⟨hname, -⟩ := List.cons.inj hsplit
      exact hfirst.eq_of_name hnext hname ▸ hstrands
    | cons passed rest =>
      obtain ⟨hname, -⟩ := List.cons.inj hsplit
      exact absurd (hpassed _ (hname ▸ List.mem_cons_self) hdoomed) hnew

/-- A search strands on a cycle of references, all of which are doomed. -/
theorem Strands.exists_cycle (h : package.Strands running definition)
    (hdefines : package.Defines definition)
    (hrunning : ∀ claim ∈ running, package.Reaches claim definition.names.name) :
    ∃ source target, package.Refers source target ∧ package.Reaches target source ∧
      package.Doomed target := by
  induction h with
  | @here running definition hdoomed hunobstructed hwaits =>
    obtain ⟨target, hrefers, htarget⟩ := hdoomed.exists_refers hdefines hunobstructed
    refine ⟨definition.names.name, target, hrefers, ?_, htarget⟩
    rcases List.mem_cons.mp (hwaits target hrefers htarget) with rfl | hclaim
    · exact .refl
    · exact hrunning target hclaim
  | @further running before after definition next _ _ hreferences _ hnext _ _ _ ih =>
    have hrefers : package.Refers definition.names.name next.names.name := by
      rw [hdefines.refers_iff, hreferences]
      exact List.mem_append_right _ List.mem_cons_self
    apply ih hnext
    intro claim hclaim
    rcases List.mem_cons.mp hclaim with rfl | hold
    · exact .single hrefers
    · exact (hrunning claim hold).tail hrefers

/-- What holds of a registry as long as no search has stranded: no doomed definition is registered,
and the references of the registered ones are registered or being registered. -/
structure Spared (package : Package) (registry : Registry) : Prop where
  not_doomed : ∀ name ∈ registry.names, ¬package.Doomed name
  closed : ∀ source ∈ registry.names, ∀ target, package.Refers source target →
    target ∈ registry.names ∨ target ∈ registry.inProgress

theorem spared_empty (package : Package) : package.Spared {} where
  not_doomed _ h := absurd h List.not_mem_nil
  closed _ h := absurd h List.not_mem_nil

theorem Spared.complete (h : package.Spared registry) (hidle : registry.inProgress = []) :
    package.Complete registry := by
  intro source hsource target hrefers
  rcases h.closed source hsource target hrefers with hmem | hclaimed
  · exact hmem
  · simp [hidle] at hclaimed

theorem Spared.claim {claimed : Registry} (h : package.Spared registry)
    (hclaim : registry.claim? name = some claimed) : package.Spared claimed := by
  obtain ⟨_, rfl⟩ := Registry.claim?_eq_some_iff.mp hclaim
  refine ⟨h.not_doomed, ?_⟩
  intro source hsource target hrefers
  exact (h.closed source hsource target hrefers).imp_right (List.mem_cons_of_mem _)

/-- A doomed name that is not being registered can be claimed. -/
theorem Spared.exists_claim (h : package.Spared registry) (hdoomed : package.Doomed name)
    (hnew : name ∉ registry.inProgress) :
    ∃ claimed, registry.claim? name = some claimed ∧
      claimed.inProgress = name :: registry.inProgress :=
  ⟨_, Registry.claim?_eq_some_iff.mpr
    ⟨⟨fun hmem ↦ h.not_doomed name hmem hdoomed, hnew⟩, rfl⟩, rfl⟩

/-- No registered definition waits for a doomed one whose registration ends. -/
theorem Spared.release (h : package.Spared registry) (hdoomed : package.Doomed name) :
    package.Spared (registry.release name) where
  not_doomed := h.not_doomed
  closed source hsource target hrefers := by
    have hne : target ≠ name := by
      rintro rfl
      exact h.not_doomed source hsource (hdoomed.of_refers hrefers)
    apply (h.closed source hsource target hrefers).imp_right
    intro hclaimed
    exact List.mem_filter.mpr ⟨hclaimed, bne_iff_ne.mpr hne⟩

theorem Spared.add {document : Json} (h : package.Spared registry)
    (hdoomed : ¬package.Doomed name)
    (htargets : ∀ target, package.Refers name target →
      target ∈ registry.names ∨ target ∈ registry.inProgress)
    (hnew : name ∉ registry.names) :
    package.Spared ((registry.add name document).release name) := by
  have hnames : ((registry.add name document).release name).names = registry.names ++ [name] := by
    rw [Registry.release_names, Registry.names_add_of_notMem hnew]
  constructor
  · intro other hother
    rw [hnames, List.mem_append, List.mem_singleton] at hother
    rcases hother with hold | rfl
    · exact h.not_doomed other hold
    · exact hdoomed
  · intro source hsource target hrefers
    rw [hnames, List.mem_append, List.mem_singleton] at hsource
    apply Registry.held_add_release
    rcases hsource with hold | rfl
    · exact h.closed source hold target hrefers
    · exact htargets target hrefers

/-- The calls of one function spare the registry if each of them does that is made while the doomed
ones before it are being registered. -/
theorem callAll_spared {definitions : List Definition}
    (hgrows : ∀ definition ∈ definitions, ∀ registry,
      Registry.Grows package.Registrable registry (call definition registry).1)
    (hheld : ∀ definition ∈ definitions, ∀ {registry reached},
      call definition registry = (reached, .ok ()) →
      definition.names.name ∈ reached.names ∨ definition.names.name ∈ registry.inProgress)
    (hcall : ∀ before next after, definitions = before ++ next :: after →
      (∀ passed ∈ before, package.Doomed passed.names.name → passed.names.name ∈ running) →
      ∀ registry, package.Spared registry → registry.inProgress = running →
        (package.unclaimed registry).card < fuel → package.Spared (call next registry).1)
    (hspared : package.Spared registry) (hrunning : registry.inProgress = running)
    (hfuel : (package.unclaimed registry).card < fuel)
    (h : callAll call definitions registry = (reached, result)) :
    package.Spared reached ∧ (result = .ok () → ∀ definition ∈ definitions,
      definition.names.name ∈ reached.names ∨ definition.names.name ∈ running) := by
  induction definitions generalizing registry with
  | nil =>
    cases h
    exact ⟨hspared, fun _ _ hmem ↦ absurd hmem List.not_mem_nil⟩
  | cons first rest ih =>
    have hfirst := hcall [] first rest rfl (by simp) registry hspared hrunning hfuel
    have hfirstGrows := hgrows first List.mem_cons_self registry
    rw [callAll] at h
    rcases hresult : call first registry with ⟨middle, failure | _⟩ <;>
      rw [hresult] at h hfirst hfirstGrows
    · cases h
      exact ⟨hfirst, fun hreturned ↦ by cases hreturned⟩
    · have hfound := hheld first List.mem_cons_self hresult
      rw [hrunning] at hfound
      have hmiddle : middle.inProgress = running := hfirstGrows.inProgress_eq.trans hrunning
      have hrest : ∀ before next after, rest = before ++ next :: after →
          (∀ passed ∈ before, package.Doomed passed.names.name → passed.names.name ∈ running) →
          ∀ registry, package.Spared registry → registry.inProgress = running →
            (package.unclaimed registry).card < fuel → package.Spared (call next registry).1 := by
        intro before next after hsplit hpassed
        apply hcall (first :: before) next after (by rw [hsplit, List.cons_append])
        intro passed hmem hdoomed
        rcases List.mem_cons.mp hmem with rfl | hmem
        · exact hfound.resolve_left fun hname ↦ hfirst.not_doomed _ hname hdoomed
        · exact hpassed passed hmem hdoomed
      have hlater : Registry.Grows package.Registrable middle (callAll call rest middle).1 :=
        callAll_grows (fun other hother ↦ hgrows other (List.mem_cons_of_mem _ hother)) middle
      rw [show callAll call rest middle = (reached, result) from h] at hlater
      obtain ⟨hspared, hheldRest⟩ :=
        ih (fun other hother ↦ hgrows other (List.mem_cons_of_mem _ hother))
          (fun other hother ↦ hheld other (List.mem_cons_of_mem _ hother)) hrest hfirst hmiddle
          ((card_unclaimed_le_of_grows hfirstGrows).trans_lt hfuel) h
      refine ⟨hspared, fun hreturned ↦ List.forall_mem_cons.mpr ⟨?_, hheldRest hreturned⟩⟩
      exact hfound.imp_left hlater.mem_names

/-- A registration that does not strand spares the registry. By induction on the fuel: where all
calls return, the doomed references are being registered, which is where a search strands. -/
theorem registerWithin_spared (hnamed : package.WellNamed) (hlinked : package.LinkedWhereLoaded)
    (hdefines : package.Defines definition) (hspared : package.Spared registry)
    (hsafe : definition.names.name ∉ registry.inProgress →
      ¬package.Strands registry.inProgress definition)
    (hfuel : (package.unclaimed registry).card < fuel) :
    package.Spared (package.registerWithin fuel definition registry).1 := by
  induction fuel generalizing definition registry with
  | zero => exact absurd hfuel (Nat.not_lt_zero _)
  | succ fuel ih =>
    -- a search that strands below one of the calls strands here as well, by way of that reference
    have hcalls {claimed reached : Registry} {imports : List (String × Definition)}
        {result : Except Fault Unit} (hregistry : registryFault? definition registry = none)
        (hclaim : registry.claim? definition.names.name = some claimed)
        (himports : package.importAll definition.dependencies = .ok imports)
        (heq : callAll (package.registerWithin fuel) (calledFor imports) claimed =
          (reached, result)) :
        package.Spared reached ∧ (result = .ok () → ∀ other ∈ calledFor imports,
          other.names.name ∈ reached.names ∨
            other.names.name ∈ definition.names.name :: registry.inProgress) := by
      have hcard := card_unclaimed_lt_of_claim hdefines hclaim
      have hclaimed := hspared.claim hclaim
      obtain ⟨⟨_, hunclaimed⟩, rfl⟩ := Registry.claim?_eq_some_iff.mp hclaim
      obtain ⟨rest, rfl⟩ : ∃ rest, fuel = rest + 1 := Nat.exists_eq_add_one.mpr (by omega)
      apply callAll_spared (fun other hother ↦ registerWithin_grows hnamed _
        (hnamed.defines_of_calledFor himports hother)) _ _ hclaimed rfl
        (by omega : _ < rest + 1) heq
      · intro other _ _ _ hreturned
        exact (held_of_returned hreturned).2
      · intro before next after hsplit hpassed later hlater hrunning hless
        have hnext : package.Defines next :=
          hnamed.defines_of_calledFor himports (hsplit ▸ List.mem_append_right _ List.mem_cons_self)
        apply ih hnext hlater _ hless
        rw [hrunning]
        intro hnew hstrands
        apply hsafe hunclaimed
        apply Strands.further (registryFault?_eq_none_iff.mp hregistry) ⟨imports, himports⟩ _ _
          hnext (hstrands.doomed hnext) hnew hstrands
        · exact before.map (·.names.name)
        · exact after.map (·.names.name)
        · rw [← hlinked.map_name_calledFor hdefines himports, hsplit]
          simp
        · intro target htarget hdoomed
          obtain ⟨passed, hmem, rfl⟩ := List.mem_map.mp htarget
          exact hpassed passed hmem hdoomed
    have hfailed {fault : Fault}
        (h : (package.registerWithin (fuel + 1) definition registry).2 = .error fault) :
        package.Doomed definition.names.name :=
      doomed_of_failed hnamed hlinked hdefines hfuel h
    have hattempt := attempt_registerWithin package fuel definition registry
    generalize package.registerWithin (fuel + 1) definition registry = outcome
      at hattempt hfailed
    cases hattempt with
    | captured => exact hspared
    | skipped => exact hspared
    | unimported _ hclaim => exact (hspared.claim hclaim).release (hfailed rfl)
    | interrupted hregistry hclaim himports heq =>
      exact (hcalls hregistry hclaim himports heq).1.release (hfailed rfl)
    | unadded hregistry hclaim himports heq =>
      exact (hcalls hregistry hclaim himports heq).1.release (hfailed rfl)
    | @completed _ reached _ hregistry hclaim himports heq haddition =>
      obtain ⟨hreached, hheld⟩ := hcalls hregistry hclaim himports heq
      have hgrows := callAll_grows_of_imports hnamed himports heq
      have hnew := hgrows.notMem_names_of_claim hclaim
      obtain ⟨⟨_, hunclaimed⟩, rfl⟩ := Registry.claim?_eq_some_iff.mp hclaim
      have htargets : ∀ target, package.Refers definition.names.name target →
          target ∈ reached.names ∨ target ∈ definition.names.name :: registry.inProgress := by
        intro target hrefers
        obtain ⟨other, hother, rfl⟩ := (hlinked.refers_iff hdefines himports).mp hrefers
        exact hheld rfl other hother
      apply hreached.add _ _ hnew
      · intro hdoomed
        -- no doomed name is registered, so the doomed references that returned are running
        apply hsafe hunclaimed
        apply Strands.here hdoomed ⟨registryFault?_eq_none_iff.mp hregistry,
          additionFault?_eq_none_iff.mp haddition, _, himports⟩
        intro target hrefers htarget
        exact (htargets target hrefers).resolve_left fun hname ↦
          hreached.not_doomed target hname htarget
      · rwa [hgrows.inProgress_eq]

/-- Calls that all return: those of doomed definitions are passed over because their registrations
run, and the others cannot fail. -/
theorem exists_callAll_eq_ok (hnamed : package.WellNamed) (hlinked : package.LinkedWhereLoaded)
    {definitions : List Definition} (hdefines : ∀ other ∈ definitions, package.Defines other)
    (hpassed : ∀ other ∈ definitions, package.Doomed other.names.name →
      other.names.name ∈ registry.inProgress)
    (hrunning : ∀ other, package.Defines other → other.names.name ∈ registry.inProgress →
      isSupport (bindingIn other getRegistryName) = true)
    (hspared : package.Spared registry) (hfuel : (package.unclaimed registry).card < fuel) :
    ∃ reached, callAll (package.registerWithin fuel) definitions registry = (reached, .ok ()) ∧
      package.Spared reached ∧ Registry.Grows package.Registrable registry reached := by
  induction definitions generalizing registry with
  | nil => exact ⟨registry, rfl, hspared, .refl registry⟩
  | cons first rest ih =>
    have hfirst := hdefines first List.mem_cons_self
    have hgrows := registerWithin_grows hnamed fuel hfirst registry
    have hcall : ∃ middle, package.registerWithin fuel first registry = (middle, .ok ()) ∧
        package.Spared middle := by
      by_cases hdoomed : package.Doomed first.names.name
      · have hclaimed := hpassed first List.mem_cons_self hdoomed
        obtain ⟨less, rfl⟩ := Nat.exists_eq_add_one.mpr (Nat.zero_lt_of_lt hfuel)
        exact ⟨registry, registerWithin_of_held less (hrunning first hfirst hclaimed)
          (.inr hclaimed), hspared⟩
      · have hkept := registerWithin_spared hnamed hlinked hfirst hspared
          (fun _ hstrands ↦ hdoomed (hstrands.doomed hfirst)) hfuel
        rcases hresult : package.registerWithin fuel first registry with ⟨middle, fault | _⟩
        · exact absurd (doomed_of_failed hnamed hlinked hfirst hfuel (congrArg Prod.snd hresult))
            hdoomed
        · rw [hresult] at hkept
          exact ⟨middle, rfl, hkept⟩
    obtain ⟨middle, hresult, hmiddle⟩ := hcall
    rw [hresult] at hgrows
    have hclaims : middle.inProgress = registry.inProgress := hgrows.inProgress_eq
    obtain ⟨reached, hrest, hreached, hlater⟩ :=
      ih (fun other hother ↦ hdefines other (List.mem_cons_of_mem _ hother))
        (fun other hother ↦ hclaims ▸ hpassed other (List.mem_cons_of_mem _ hother))
        (hclaims ▸ hrunning) hmiddle ((card_unclaimed_le_of_grows hgrows).trans_lt hfuel)
    refine ⟨reached, ?_, hreached, hgrows.trans hlater⟩
    rw [callAll, hresult]
    exact hrest

/-- A function that fails part of the way through its calls has still made the first of them. -/
theorem mem_names_callAll_append {first : List Definition} {next : Definition}
    {rest : List Definition} {middle : Registry}
    (hfirst : callAll call first registry = (middle, .ok ()))
    (hgrows : ∀ other ∈ rest, ∀ registry,
      Registry.Grows package.Registrable registry (call other registry).1)
    (hname : name ∈ (call next middle).1.names) :
    name ∈ (callAll call (first ++ next :: rest) registry).1.names := by
  induction first generalizing registry with
  | nil =>
    cases hfirst
    rw [List.nil_append, callAll]
    rcases hresult : call next middle with ⟨later, fault | _⟩ <;> rw [hresult] at hname
    · exact hname
    · exact (callAll_grows hgrows later).mem_names hname
  | cons head tail ih =>
    rw [callAll] at hfirst
    rw [List.cons_append, callAll]
    rcases hresult : call head registry with ⟨later, fault | _⟩ <;> rw [hresult] at hfirst
    · cases hfirst
    · exact ih hfirst

theorem mem_names_registerClaimed {claimed : Registry} {imports : List (String × Definition)}
    (himports : package.importAll definition.dependencies = .ok imports)
    (hname : name ∈ (callAll call (calledFor imports) claimed).1.names) :
    name ∈ (package.registerClaimed call definition claimed).1.names := by
  rcases hcalls : callAll call (calledFor imports) claimed with ⟨reached, fault | _⟩ <;>
    rw [hcalls] at hname <;> simp only [registerClaimed, himports, hcalls]
  · exact hname
  · cases haddition : additionFault? definition with
    | some fault => exact hname
    | none => exact Registry.mem_names_add_of_mem hname

/-- Where a search strands, a doomed definition is registered. -/
theorem exists_doomed_of_strands (hnamed : package.WellNamed)
    (hlinked : package.LinkedWhereLoaded) (h : package.Strands running definition)
    (hdefines : package.Defines definition) (hspared : package.Spared registry)
    (hclaims : registry.inProgress = running)
    (hrunning : ∀ other, package.Defines other → other.names.name ∈ running →
      isSupport (bindingIn other getRegistryName) = true)
    (hnew : definition.names.name ∉ running) (hfuel : (package.unclaimed registry).card < fuel) :
    ∃ name ∈ (package.registerWithin fuel definition registry).1.names, package.Doomed name := by
  have hdoomedName := h.doomed hdefines
  induction h generalizing registry fuel with
  | @here running definition hdoomed hunobstructed hwaits =>
    obtain ⟨fuel, rfl⟩ := Nat.exists_eq_add_one.mpr (Nat.zero_lt_of_lt hfuel)
    obtain ⟨imports, himports⟩ := hunobstructed.imports
    obtain ⟨claimed, hclaim, hclaimed⟩ := hspared.exists_claim hdoomed (hclaims ▸ hnew)
    have hcard := card_unclaimed_lt_of_claim hdefines hclaim
    obtain ⟨reached, hcalls, -, -⟩ : ∃ reached,
        callAll (package.registerWithin fuel) (calledFor imports) claimed = (reached, .ok ()) ∧
          package.Spared reached ∧ Registry.Grows package.Registrable claimed reached := by
      apply exists_callAll_eq_ok hnamed hlinked _ _ _ (hspared.claim hclaim) (by omega)
      · exact fun other hother ↦ hnamed.defines_of_calledFor himports hother
      · intro other hother hotherDoomed
        rw [hclaimed, hclaims]
        apply hwaits _ _ hotherDoomed
        exact (hlinked.refers_iff hdefines himports).mpr ⟨other, hother, rfl⟩
      · rw [hclaimed, hclaims]
        intro other hother hname
        rcases List.mem_cons.mp hname with hsame | hold
        · exact hother.eq_of_name hdefines hsame ▸ hunobstructed.registry
        · exact hrunning other hother hold
    refine ⟨definition.names.name, ?_, hdoomed⟩
    rw [registerWithin_of_claim fuel hunobstructed.registry hclaim]
    simp only [registerClaimed, himports, hcalls,
      additionFault?_eq_none_iff.mpr hunobstructed.addition, Registry.release_names]
    exact Registry.mem_names_add
  | @further running before after definition next hregistry himports hreferences hpassed hnext
      hdoomed hnewNext hstrands ih =>
    obtain ⟨fuel, rfl⟩ := Nat.exists_eq_add_one.mpr (Nat.zero_lt_of_lt hfuel)
    obtain ⟨imports, himports⟩ := himports
    obtain ⟨claimed, hclaim, hclaimed⟩ := hspared.exists_claim hdoomedName (hclaims ▸ hnew)
    have hcard := card_unclaimed_lt_of_claim hdefines hclaim
    have hcalled {other : Definition} (hother : other ∈ calledFor imports) :
        package.Defines other := hnamed.defines_of_calledFor himports hother
    have hclaimedRunning : ∀ other, package.Defines other →
        other.names.name ∈ definition.names.name :: running →
          isSupport (bindingIn other getRegistryName) = true := by
      intro other hother hname
      rcases List.mem_cons.mp hname with hsame | hold
      · exact hother.eq_of_name hdefines hsame ▸ hregistry
      · exact hrunning other hother hold
    -- the functions called are those of the references, so they are split where those are
    have hnames := hlinked.map_name_calledFor hdefines himports
    rw [hreferences] at hnames
    obtain ⟨first, others, hsplit, hfirst, hothers⟩ := List.map_eq_append_iff.mp hnames
    obtain ⟨head, rest, rfl, hhead, -⟩ := List.map_eq_cons_iff.mp hothers
    obtain rfl : head = next := (hcalled (by simp [hsplit])).eq_of_name hnext hhead
    obtain ⟨middle, hreturned, hmiddle, hgrows⟩ : ∃ middle,
        callAll (package.registerWithin fuel) first claimed = (middle, .ok ()) ∧
          package.Spared middle ∧ Registry.Grows package.Registrable claimed middle := by
      apply exists_callAll_eq_ok hnamed hlinked _ _ _ (hspared.claim hclaim) (by omega)
      · exact fun other hother ↦ hcalled (hsplit ▸ List.mem_append_left _ hother)
      · intro other hother hotherDoomed
        rw [hclaimed, hclaims]
        exact hpassed _ (hfirst ▸ List.mem_map_of_mem hother) hotherDoomed
      · rwa [hclaimed, hclaims]
    obtain ⟨lost, hlost, hlostDoomed⟩ := ih hnext hmiddle
      (by rw [hgrows.inProgress_eq, hclaimed, hclaims]) hclaimedRunning hnewNext
      ((card_unclaimed_le_of_grows hgrows).trans_lt (by omega : _ < fuel)) hdoomed
    refine ⟨lost, ?_, hlostDoomed⟩
    rw [registerWithin_of_claim fuel hregistry hclaim]
    apply mem_names_registerClaimed himports
    rw [hsplit]
    have hlater : ∀ other ∈ rest, ∀ registry, Registry.Grows package.Registrable registry
        (package.registerWithin fuel other registry).1 := by
      intro other hother
      exact registerWithin_grows hnamed fuel (hcalled (by simp [hsplit, hother]))
    exact mem_names_callAll_append hreturned hlater hlost

/-! ## Completeness -/

/-- Without searches that strand, every call leaves the registry complete. -/
theorem complete_after (hnamed : package.WellNamed) (hlinked : package.LinkedWhereLoaded)
    (hsafe : ∀ definition, package.Defines definition → ¬package.Strands [] definition)
    {calls : List Definition} (hcalls : ∀ call ∈ calls, package.Defines call) :
    package.Complete (package.after calls) := by
  suffices hspared : package.Spared (package.after calls) from
    hspared.complete (after_inProgress hnamed hcalls)
  induction calls using List.reverseRecOn with
  | nil => exact spared_empty package
  | append_singleton calls last ih =>
    have hbefore : ∀ call ∈ calls, package.Defines call :=
      fun call hmem ↦ hcalls call (List.mem_append_left _ hmem)
    have hlast := hcalls last (List.mem_append_right _ List.mem_cons_self)
    have hcard := card_unclaimed_le package (package.after calls)
    rw [after_append]
    apply registerWithin_spared hnamed hlinked hlast (ih hbefore) _ (by omega)
    rw [after_inProgress hnamed hbefore]
    exact fun _ ↦ hsafe last hlast

theorem Complete.mem_names_of_reaches (h : package.Complete registry)
    (hsource : source ∈ registry.names) (hpath : package.Reaches source target) :
    target ∈ registry.names := by
  induction hpath with
  | refl => exact hsource
  | tail _ hrefers ih => exact h _ ih _ hrefers

/-- Faults that no cycle of references leads to leave nothing incomplete. -/
theorem complete_after_of_acyclic (hnamed : package.WellNamed)
    (hlinked : package.LinkedWhereLoaded)
    (hacyclic : ∀ source target, package.Refers source target → package.Doomed target →
      ¬package.Reaches target source)
    {calls : List Definition} (hcalls : ∀ call ∈ calls, package.Defines call) :
    package.Complete (package.after calls) := by
  apply complete_after hnamed hlinked _ hcalls
  intro definition hdefines hstrands
  obtain ⟨source, target, hrefers, hcycle, hdoomed⟩ := hstrands.exists_cycle hdefines (by simp)
  exact hacyclic source target hrefers hdoomed hcycle

/-- In a complete registry that calls have reached, nothing doomed is registered: what its
references lead to would be registered as well, in spite of what obstructs it. -/
theorem Complete.not_doomed (hnamed : package.WellNamed) {calls : List Definition}
    (hcalls : ∀ call ∈ calls, package.Defines call)
    (h : package.Complete (package.after calls)) (hname : name ∈ (package.after calls).names) :
    ¬package.Doomed name := by
  rintro ⟨obstructed, hdefines, hobstructed, hpath⟩
  have hmem := h.mem_names_of_reaches hname hpath
  obtain ⟨other, hother, hsame, hunobstructed⟩ :=
    unobstructed_of_mem_names_after hnamed hcalls hmem
  exact hobstructed (hother.eq_of_name hdefines hsame ▸ hunobstructed)

/-- The registry is complete after every sequence of calls, whatever fails in them, exactly when the
search that a first call makes never strands. -/
theorem complete_after_iff {config : Config} {definitions : List (String × Json)}
    (hpackage : Package.of config definitions = .ok package) (hlinked : package.LinkedWhereLoaded) :
    (∀ calls : List Definition, (∀ call ∈ calls, package.Defines call) →
      package.Complete (package.after calls)) ↔
      ∀ definition, package.Defines definition → ¬package.Strands [] definition := by
  have hnamed := wellNamed_of_eq_ok hpackage
  constructor
  · intro hcomplete definition hdefines hstrands
    have hcalls : ∀ call ∈ [definition], package.Defines call := by simpa using hdefines
    have hcard := card_unclaimed_le package {}
    obtain ⟨name, hname, hdoomed⟩ := exists_doomed_of_strands hnamed hlinked hstrands hdefines
      (spared_empty package) rfl (by simp) List.not_mem_nil
      (by omega : _ < package.definitions.length + 1)
    exact (hcomplete [definition] hcalls).not_doomed hnamed hcalls hname hdoomed
  · intro hsafe calls hcalls
    exact complete_after hnamed hlinked hsafe hcalls

/-- Two definitions that refer to each other. One of them leads to a definition that is not there,
by a reference before the one to its counterpart. -/
def earlyFailingDefinitions : List (String × Json) :=
  [("x.A", .obj [("properties", .obj [("b", .obj [("$ref", .str "#/definitions/x.C")]),
      ("c", .obj [("$ref", .str "#/definitions/x.B")])])]),
    ("x.B", .obj [("items", .obj [("$ref", .str "#/definitions/x.A")])]),
    ("x.C", .obj [("items", .obj [("$ref", .str "#/definitions/x.Missing")])]),
    ("x.D", .obj [("type", .str "object")])]

theorem complete_after_earlyFailingDefinitions :
    ∃ package, Package.of {} earlyFailingDefinitions = .ok package ∧ package.LinkedWhereLoaded ∧
      package.Refers "x.A" "x.B" ∧ package.Refers "x.B" "x.A" ∧ package.Doomed "x.A" ∧
      ∀ calls : List Definition, (∀ call ∈ calls, package.Defines call) →
        package.Complete (package.after calls) := by
  have hchecked : (Package.of {} earlyFailingDefinitions).toOption.any (fun package ↦
      decide (package.LinkedWhereLoaded ∧
        (package.definitions.lookup "x.A").any
          (·.dependencies.map Names.name == ["x.C", "x.B"]) ∧
        (package.definitions.lookup "x.B").any (·.dependencies.map Names.name == ["x.A"]) ∧
        (package.definitions.lookup "x.C").any
          (fun definition ↦ (package.importAll definition.dependencies).toOption.isNone) ∧
        ∀ entry ∈ package.definitions, entry.1 ∈ ["x.A", "x.B", "x.C"] ∨
          entry.2.dependencies.isEmpty)) = true := by
    decide +kernel
  obtain ⟨package, hpackage, hchecked⟩ := exists_eq_ok_of_check hchecked
  obtain ⟨hlinked, hfirst, hsecond, hthird, hothers⟩ := of_decide_eq_true hchecked
  obtain ⟨first, hlookupFirst, hfirst⟩ := (Option.any_eq_true _ _).mp hfirst
  obtain ⟨second, hlookupSecond, hsecond⟩ := (Option.any_eq_true _ _).mp hsecond
  obtain ⟨third, hlookupThird, hthird⟩ := (Option.any_eq_true _ _).mp hthird
  rw [beq_iff_eq] at hfirst hsecond
  have hnamed := wellNamed_of_eq_ok hpackage
  have hthirdName := hnamed.named hlookupThird
  have hdefinesFirst := hnamed.defines_of_lookup hlookupFirst
  have hdefinesThird := hnamed.defines_of_lookup hlookupThird
  have hunimported : ¬∃ imports, package.importAll third.dependencies = .ok imports := by
    rintro ⟨imports, himports⟩
    simp [himports, Except.toOption] at hthird
  have hdoomedThird : package.Doomed "x.C" :=
    hthirdName ▸ hdefinesThird.doomed fun hunobstructed ↦ hunimported hunobstructed.imports
  have hdoomedFirst : package.Doomed "x.A" :=
    hdoomedThird.of_refers ⟨first, hlookupFirst, by simp [hfirst]⟩
  -- from the first definition a search goes on with the third, where it ends
  have hsafe {running : List String} (hnew : "x.C" ∉ running) :
      ¬package.Strands running first := by
    intro hstrands
    have hnext := hstrands.of_head hdefinesFirst (hthirdName ▸ hfirst) hdefinesThird
      (hthirdName ▸ hdoomedThird) (by simp [hthirdName, hnamed.named hlookupFirst, hnew])
    exact hunimported hnext.imported
  refine ⟨package, hpackage, hlinked, ⟨first, hlookupFirst, by simp [hfirst]⟩,
    ⟨second, hlookupSecond, by simp [hsecond]⟩, hdoomedFirst,
    (complete_after_iff hpackage hlinked).mpr ?_⟩
  intro definition hdefines hstrands
  rcases hothers _ hdefines.mem with hname | hnone
  · simp only [List.mem_cons, List.not_mem_nil, or_false] at hname
    rcases hname with hname | hname | hname
    · obtain rfl : definition = first :=
        hdefines.eq_of_name hdefinesFirst (hname.trans (hnamed.named hlookupFirst).symm)
      exact hsafe List.not_mem_nil hstrands
    · obtain rfl : definition = second := hdefines.eq_of_name
        (hnamed.defines_of_lookup hlookupSecond) (hname.trans (hnamed.named hlookupSecond).symm)
      have hfirstName := hnamed.named hlookupFirst
      have hnext := hstrands.of_head hdefines (hfirstName ▸ hsecond) hdefinesFirst
        (hfirstName ▸ hdoomedFirst) (by simp [hfirstName, hname])
      exact hsafe (by simp [hname]) hnext
    · obtain rfl : definition = third :=
        hdefines.eq_of_name hdefinesThird (hname.trans hthirdName.symm)
      exact hunimported hstrands.imported
  · exact hstrands.dependencies_ne_nil hdefines (List.isEmpty_iff.mp hnone)

/-- The definition that refers back to a running registration is kept when that one fails behind
it. -/
theorem not_complete_after_incompleteDefinitions :
    ∃ package definition, Package.of {} incompleteDefinitions = .ok package ∧
      package.LinkedWhereLoaded ∧ package.Defines definition ∧
      ¬package.Complete (package.after [definition]) := by
  have hchecked : (Package.of {} incompleteDefinitions).toOption.any (fun package ↦
      decide package.LinkedWhereLoaded && (package.definitions.lookup "x.A").any fun definition ↦
        decide ((package.register definition {}).1.names = ["x.B"]) &&
          (package.definitions.lookup "x.B").any fun referring ↦
            decide (referring.dependencies.map Names.name = ["x.A"])) = true := by
    decide +kernel
  obtain ⟨package, hpackage, hchecked⟩ := exists_eq_ok_of_check hchecked
  obtain ⟨hlinked, hchecked⟩ := Bool.and_eq_true_iff.mp hchecked
  obtain ⟨definition, hlookup, hchecked⟩ := (Option.any_eq_true _ _).mp hchecked
  obtain ⟨hnames, hchecked⟩ := Bool.and_eq_true_iff.mp hchecked
  obtain ⟨referring, hreferring, hreferences⟩ := (Option.any_eq_true _ _).mp hchecked
  have hdefines := (wellNamed_of_eq_ok hpackage).defines_of_lookup hlookup
  refine ⟨package, definition, hpackage, of_decide_eq_true hlinked, hdefines, ?_⟩
  have hafter : (package.after [definition]).names = ["x.B"] := of_decide_eq_true hnames
  intro hcomplete
  have hrefers : package.Refers "x.B" "x.A" :=
    ⟨referring, hreferring, by simp [of_decide_eq_true hreferences]⟩
  have hkept := hcomplete "x.B" (by simp [hafter]) "x.A" hrefers
  simp [hafter] at hkept

end SchemaModules.Package
