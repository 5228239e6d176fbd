import SchemaModules.Proofs.IncompleteRegistrations

/-!
# Calls of registering functions

Which functions a registering function calls is fixed by its module, and need not be those of all
its references. A call that returns on an empty registry has made all calls that lead on from it, so
none of these functions is kept from its own registration. Then none of them ever fails, and a later
call makes sure that all of them are registered, whatever was registered before and whatever failed.
-/

namespace SchemaModules.Package

open Naming Python

variable {package : Package} {definition : Definition} {registry reached : Registry}
  {call : Definition → Registry → Outcome} {result : Except Fault Unit} {fuel : Nat}
  {among : String → Prop} {name source target : String}

/-! ## Invoked functions -/

/-- The registering function of the one name calls that of the other. -/
def Invokes (package : Package) (source target : String) : Prop :=
  ∃ definition imports, package.definitions.lookup source = some definition ∧
    package.importAll definition.dependencies = .ok imports ∧
    ∃ called ∈ calledFor imports, called.names.name = target

theorem Defines.invokes_iff (h : package.Defines definition)
    {imports : List (String × Definition)}
    (himports : package.importAll definition.dependencies = .ok imports) :
    package.Invokes definition.names.name target ↔
      ∃ called ∈ calledFor imports, called.names.name = target := by
  constructor
  · rintro ⟨other, others, hlookup, hothers, hcalled⟩
    obtain rfl := Option.some.inj (h.symm.trans hlookup)
    obtain rfl := Except.ok.inj (himports.symm.trans hothers)
    exact hcalled
  · intro hcalled
    exact ⟨definition, imports, h, himports, hcalled⟩

/-- The functions of the definitions looked at call functions of such definitions only. -/
def InvokesWithin (package : Package) (among : String → Prop) : Prop :=
  ∀ {source target}, among source → package.Invokes source target → among target

/-- A call of a function registers only what calls lead to from it. -/
theorem mem_names_callAll {definitions : List Definition}
    (h : name ∈ (callAll call definitions registry).1.names) :
    name ∈ registry.names ∨ ∃ definition ∈ definitions, ∃ earlier,
      name ∉ earlier.names ∧ name ∈ (call definition earlier).1.names := by
  induction definitions generalizing registry with
  | nil => exact Or.inl h
  | cons first rest ih =>
    have hfirst (hname : name ∈ (call first registry).1.names) : name ∈ registry.names ∨
        ∃ definition ∈ first :: rest, ∃ earlier,
          name ∉ earlier.names ∧ name ∈ (call definition earlier).1.names := by
      by_cases hbefore : name ∈ registry.names
      · exact Or.inl hbefore
      · exact Or.inr ⟨first, List.mem_cons_self, registry, hbefore, hname⟩
    rw [callAll] at h
    rcases hresult : call first registry with ⟨middle, fault | _⟩ <;> rw [hresult] at h hfirst
    · exact hfirst h
    · rcases ih h with hmiddle | ⟨definition, hmem, hnew⟩
      · exact hfirst hmiddle
      · exact Or.inr ⟨definition, List.mem_cons_of_mem _ hmem, hnew⟩

theorem invoked_of_mem_names (hnamed : package.WellNamed) (hdefines : package.Defines definition)
    (h : name ∈ (package.registerWithin fuel definition registry).1.names) :
    name ∈ registry.names ∨
      Relation.ReflTransGen package.Invokes definition.names.name name := by
  induction fuel generalizing definition registry with
  | zero => exact Or.inl h
  | succ fuel ih =>
    have hcalls {imports : List (String × Definition)} {claimed reached : Registry}
        {result : Except Fault Unit}
        (hclaim : registry.claim? definition.names.name = some claimed)
        (himports : package.importAll definition.dependencies = .ok imports)
        (heq : callAll (package.registerWithin fuel) (calledFor imports) claimed =
          (reached, result)) (hname : name ∈ reached.names) :
        name ∈ registry.names ∨
          Relation.ReflTransGen package.Invokes definition.names.name name := by
      obtain ⟨_, rfl⟩ := Registry.claim?_eq_some_iff.mp hclaim
      rw [show reached = (callAll _ _ _).1 from (congrArg Prod.fst heq).symm] at hname
      rcases mem_names_callAll hname with hold | ⟨other, hother, earlier, hfresh, hnew⟩
      · exact Or.inl hold
      · have hpath := (ih (hnamed.defines_of_calledFor himports hother) hnew).resolve_left hfresh
        exact Or.inr (.head ((hdefines.invokes_iff himports).mpr ⟨other, hother, rfl⟩) hpath)
    have hattempt := attempt_registerWithin package fuel definition registry
    generalize package.registerWithin (fuel + 1) definition registry = outcome at hattempt h
    cases hattempt with
    | captured => exact Or.inl h
    | skipped => exact Or.inl h
    | unimported _ hclaim =>
      obtain ⟨_, rfl⟩ := Registry.claim?_eq_some_iff.mp hclaim
      exact Or.inl h
    | interrupted _ hclaim himports heq => exact hcalls hclaim himports heq h
    | unadded _ hclaim himports heq => exact hcalls hclaim himports heq h
    | completed _ hclaim himports heq =>
      have hnew := (callAll_grows_of_imports hnamed himports heq).notMem_names_of_claim hclaim
      rw [Registry.release_names, Registry.names_add_of_notMem hnew, List.mem_append,
        List.mem_singleton] at h
      rcases h with hold | rfl
      · exact hcalls hclaim himports heq hold
      · exact Or.inr .refl

/-- The functions of all definitions among those looked at return, whenever they are called. -/
def Returns (package : Package) (among : String → Prop) : Prop :=
  ∀ {definition}, package.Defines definition → among definition.names.name → ∀ fuel registry,
    (package.unclaimed registry).card < fuel →
      (package.registerWithin fuel definition registry).2 = .ok ()

/-- Nothing fails where nothing that is called is obstructed. -/
theorem returns_of_unobstructed (hnamed : package.WellNamed)
    (hclosed : package.InvokesWithin among)
    (hunobstructed : ∀ {definition}, package.Defines definition → among definition.names.name →
      package.Unobstructed definition) : package.Returns among := by
  intro definition hdefines hamong fuel
  induction fuel generalizing definition with
  | zero => exact fun _ hfuel ↦ absurd hfuel (Nat.not_lt_zero _)
  | succ fuel ih =>
    intro registry hfuel
    have hfree := hunobstructed hdefines hamong
    have hattempt := attempt_registerWithin package fuel definition registry
    generalize package.registerWithin (fuel + 1) definition registry = outcome at hattempt
    cases hattempt with
    | captured hregistry => simp [registryFault?_eq_none_iff.mpr hfree.registry] at hregistry
    | skipped => rfl
    | unimported _ _ himports =>
      obtain ⟨imports, hloaded⟩ := hfree.imports
      simp [hloaded] at himports
    | interrupted _ hclaim himports heq =>
      have hclaimed := card_unclaimed_lt_of_claim hdefines hclaim
      obtain ⟨other, hother, earlier, hless, hfailed⟩ :=
        exists_failed_of_calledFor hnamed himports (by omega) heq
      have hinvokes := (hdefines.invokes_iff himports).mpr ⟨other, hother, rfl⟩
      have hreturned := ih (hnamed.defines_of_calledFor himports hother) (hclosed hamong hinvokes)
        earlier hless
      cases hfailed.symm.trans hreturned
    | unadded _ _ _ _ haddition =>
      simp [additionFault?_eq_none_iff.mpr hfree.addition] at haddition
    | completed => rfl

/-! ## Registries that are supplied -/

/-- What the functions of registered definitions call is registered or being registered, for the
definitions among those looked at. -/
def Supplied (package : Package) (among : String → Prop) (registry : Registry) : Prop :=
  ∀ source ∈ registry.names, among source → ∀ target, package.Invokes source target →
    target ∈ registry.names ∨ target ∈ registry.inProgress

theorem supplied_empty (package : Package) (among : String → Prop) : package.Supplied among {} :=
  fun _ hsource ↦ absurd hsource List.not_mem_nil

theorem Supplied.claim {claimed : Registry} (h : package.Supplied among registry)
    (hclaim : registry.claim? name = some claimed) : package.Supplied among claimed := by
  obtain ⟨_, rfl⟩ := Registry.claim?_eq_some_iff.mp hclaim
  intro source hsource hamong target hinvokes
  exact (h source hsource hamong target hinvokes).imp_right (List.mem_cons_of_mem _)

/-- The claim of a name that nothing looked at calls is taken back. -/
theorem Supplied.release (h : package.Supplied among registry)
    (hclosed : package.InvokesWithin among)
    (hname : ¬among name) : package.Supplied among (registry.release name) := by
  intro source hsource hamong target hinvokes
  apply (h source hsource hamong target hinvokes).imp_right
  intro hclaimed
  refine List.mem_filter.mpr ⟨hclaimed, bne_iff_ne.mpr ?_⟩
  rintro rfl
  exact hname (hclosed hamong hinvokes)

theorem Supplied.add {document : Json} (h : package.Supplied among registry)
    (htargets : among name → ∀ target, package.Invokes name target →
      target ∈ registry.names ∨ target ∈ registry.inProgress)
    (hnew : name ∉ registry.names) :
    package.Supplied among ((registry.add name document).release name) := by
  have hnames : ((registry.add name document).release name).names = registry.names ++ [name] := by
    rw [Registry.release_names, Registry.names_add_of_notMem hnew]
  intro source hsource hamong target hinvokes
  rw [hnames, List.mem_append, List.mem_singleton] at hsource
  apply Registry.held_add_release
  rcases hsource with hold | rfl
  · exact h source hold hamong target hinvokes
  · exact htargets hamong target hinvokes

/-- With no registration running, what is called from what is registered is registered. -/
theorem Supplied.mem_names (h : package.Supplied among registry) (hidle : registry.inProgress = [])
    (hclosed : package.InvokesWithin among)
    (hamong : among source) (hsource : source ∈ registry.names)
    (hpath : Relation.ReflTransGen package.Invokes source target) :
    target ∈ registry.names ∧ among target := by
  induction hpath with
  | refl => exact ⟨hsource, hamong⟩
  | tail _ hinvokes ih =>
    obtain ⟨hmem, hmiddle⟩ := ih
    refine ⟨?_, hclosed hmiddle hinvokes⟩
    rcases h _ hmem hmiddle _ hinvokes with hfound | hclaimed
    · exact hfound
    · simp [hidle] at hclaimed

/-- The calls of one function. Either they all return, or those looked at return in any case. -/
theorem callAll_supplied {definitions : List Definition}
    (hgrows : ∀ definition ∈ definitions, ∀ registry,
      Registry.Grows package.Registrable registry (call definition registry).1)
    (hheld : ∀ definition ∈ definitions, ∀ {registry reached},
      call definition registry = (reached, .ok ()) →
      definition.names.name ∈ reached.names ∨ definition.names.name ∈ registry.inProgress)
    (hcall : ∀ definition ∈ definitions, ∀ registry, package.Supplied among registry →
      ((call definition registry).2 = .ok () ∨ package.Returns among) →
      (package.unclaimed registry).card < fuel →
      package.Supplied among (call definition registry).1)
    (hsupplied : package.Supplied among registry)
    (hreturns : result = .ok () ∨ package.Returns among)
    (hfuel : (package.unclaimed registry).card < fuel)
    (h : callAll call definitions registry = (reached, result)) :
    package.Supplied among reached ∧ (result = .ok () → ∀ definition ∈ definitions,
      definition.names.name ∈ reached.names ∨ definition.names.name ∈ registry.inProgress) := by
  induction definitions generalizing registry with
  | nil =>
    cases h
    exact ⟨hsupplied, fun _ _ hmem ↦ absurd hmem List.not_mem_nil⟩
  | cons first rest ih =>
    have hfirst := hcall first List.mem_cons_self registry hsupplied
    have hfirstGrows := hgrows first List.mem_cons_self registry
    rw [callAll] at h
    rcases hresult : call first registry with ⟨middle, failure | _⟩ <;>
      rw [hresult] at h hfirst hfirstGrows
    · cases h
      exact ⟨hfirst hreturns hfuel, fun hreturned ↦ by cases hreturned⟩
    · have hlater : Registry.Grows package.Registrable middle (callAll call rest middle).1 :=
        callAll_grows (fun other hother ↦ hgrows other (List.mem_cons_of_mem _ hother)) middle
      rw [show callAll call rest middle = (reached, result) from h] at hlater
      obtain ⟨hreached, hothers⟩ :=
        ih (fun other hother ↦ hgrows other (List.mem_cons_of_mem _ hother))
          (fun other hother ↦ hheld other (List.mem_cons_of_mem _ hother))
          (fun other hother ↦ hcall other (List.mem_cons_of_mem _ hother))
          (hfirst (.inl rfl) hfuel) ((card_unclaimed_le_of_grows hfirstGrows).trans_lt hfuel) h
      refine ⟨hreached, fun hreturned ↦ List.forall_mem_cons.mpr ⟨?_, ?_⟩⟩
      · exact (hheld first List.mem_cons_self hresult).imp_left hlater.mem_names
      · rw [← hfirstGrows.inProgress_eq]
        exact hothers hreturned

/-- The calls of one function, where each keeps a registry supplied that has few enough unclaimed
names. -/
theorem calledFor_supplied {claimed : Registry} {imports : List (String × Definition)}
    (hnamed : package.WellNamed) (hdefines : package.Defines definition)
    (hcall : ∀ {definition registry}, package.Defines definition →
      package.Supplied among registry →
      ((package.registerWithin fuel definition registry).2 = .ok () ∨ package.Returns among) →
      (package.unclaimed registry).card < fuel →
      package.Supplied among (package.registerWithin fuel definition registry).1)
    (hsupplied : package.Supplied among registry)
    (hfuel : (package.unclaimed registry).card < fuel + 1)
    (hclaim : registry.claim? definition.names.name = some claimed)
    (himports : package.importAll definition.dependencies = .ok imports)
    (hreturns : result = .ok () ∨ package.Returns among)
    (h : callAll (package.registerWithin fuel) (calledFor imports) claimed = (reached, result)) :
    package.Supplied among reached ∧ (result = .ok () → ∀ other ∈ calledFor imports,
      other.names.name ∈ reached.names ∨ other.names.name ∈ claimed.inProgress) := by
  have hcard := card_unclaimed_lt_of_claim hdefines hclaim
  obtain ⟨rest, rfl⟩ : ∃ rest, fuel = rest + 1 := Nat.exists_eq_add_one.mpr (by omega)
  have hless : (package.unclaimed claimed).card < rest + 1 := by omega
  have hgrows : ∀ other ∈ calledFor imports, ∀ registry, Registry.Grows package.Registrable
      registry (package.registerWithin (rest + 1) other registry).1 := fun other hother ↦
    registerWithin_grows hnamed _ (hnamed.defines_of_calledFor himports hother)
  refine callAll_supplied hgrows ?_ ?_ (hsupplied.claim hclaim) hreturns hless h
  · intro other _ _ _ hreturned
    exact (held_of_returned hreturned).2
  · intro other hother later hlater hreturned hless
    exact hcall (hnamed.defines_of_calledFor himports hother) hlater hreturned hless

/-- A function that fails where those looked at return is not one of them. -/
theorem Returns.of_failed {fault : Fault} (hdefines : package.Defines definition)
    (hfuel : (package.unclaimed registry).card < fuel)
    (hreturns : (package.registerWithin fuel definition registry).2 = .ok () ∨
      package.Returns among)
    (h : (package.registerWithin fuel definition registry).2 = .error fault) :
    package.Returns among ∧ ¬among definition.names.name := by
  rw [h] at hreturns
  have hsure : package.Returns among := hreturns.resolve_left (by simp)
  refine ⟨hsure, fun hamong ↦ ?_⟩
  have hreturned := hsure hdefines hamong fuel registry hfuel
  rw [h] at hreturned
  cases hreturned

/-- A call keeps a registry supplied if it returns, or if the functions looked at return in any
case. By induction on the fuel: what fails is then not among those looked at, and nothing that is
waits for it. -/
theorem registerWithin_supplied (hnamed : package.WellNamed)
    (hclosed : package.InvokesWithin among)
    (hdefines : package.Defines definition) (hsupplied : package.Supplied among registry)
    (hreturns : (package.registerWithin fuel definition registry).2 = .ok () ∨
      package.Returns among)
    (hfuel : (package.unclaimed registry).card < fuel) :
    package.Supplied among (package.registerWithin fuel definition registry).1 := by
  induction fuel generalizing definition registry with
  | zero => exact absurd hfuel (Nat.not_lt_zero _)
  | succ fuel ih =>
    have hfailed {fault : Fault}
        (h : (package.registerWithin (fuel + 1) definition registry).2 = .error fault) :
        package.Returns among ∧ ¬among definition.names.name :=
      Returns.of_failed hdefines hfuel hreturns h
    have hattempt := attempt_registerWithin package fuel definition registry
    generalize package.registerWithin (fuel + 1) definition registry = outcome
      at hattempt hfailed hreturns
    cases hattempt with
    | captured => exact hsupplied
    | skipped => exact hsupplied
    | unimported _ hclaim => exact (hsupplied.claim hclaim).release hclosed (hfailed rfl).2
    | interrupted _ hclaim himports heq =>
      obtain ⟨hsure, hother⟩ := hfailed rfl
      obtain ⟨hreached, -⟩ := calledFor_supplied hnamed hdefines ih hsupplied hfuel hclaim himports
        (.inr hsure) heq
      exact hreached.release hclosed hother
    | unadded _ hclaim himports heq =>
      obtain ⟨hsure, hother⟩ := hfailed rfl
      obtain ⟨hreached, -⟩ := calledFor_supplied hnamed hdefines ih hsupplied hfuel hclaim himports
        (.inr hsure) heq
      exact hreached.release hclosed hother
    | completed _ hclaim himports heq =>
      obtain ⟨hreached, hheld⟩ := calledFor_supplied hnamed hdefines ih hsupplied hfuel hclaim
        himports hreturns heq
      have hgrows := callAll_grows_of_imports hnamed himports heq
      apply hreached.add _ (hgrows.notMem_names_of_claim hclaim)
      intro _ target hinvokes
      obtain ⟨other, hother, rfl⟩ := (hdefines.invokes_iff himports).mp hinvokes
      rw [hgrows.inProgress_eq]
      exact hheld rfl other hother

theorem after_singleton (package : Package) (definition : Definition) :
    package.after [definition] = (package.register definition {}).1 := rfl

theorem register_supplied (hnamed : package.WellNamed)
    (hclosed : package.InvokesWithin among)
    (hdefines : package.Defines definition) (hsupplied : package.Supplied among registry)
    (hreturns : (package.register definition registry).2 = .ok () ∨ package.Returns among) :
    package.Supplied among (package.register definition registry).1 := by
  have hcard := card_unclaimed_le package registry
  exact registerWithin_supplied hnamed hclosed hdefines hsupplied hreturns (by omega)

/-- The name of a call that returns is registered, unless its registration was running already. -/
theorem mem_names_of_returned (hidle : registry.inProgress = [])
    (hreturned : (package.register definition registry).2 = .ok ()) :
    definition.names.name ∈ (package.register definition registry).1.names := by
  unfold register at hreturned ⊢
  rcases hresult : package.registerWithin _ definition registry with ⟨reached, result⟩
  rw [hresult] at hreturned
  obtain rfl : result = .ok () := hreturned
  exact (held_of_returned hresult).2.resolve_right (by simp [hidle])

/-- Functions that return whenever they are called keep every registry supplied. -/
theorem supplied_after (hnamed : package.WellNamed)
    (hclosed : package.InvokesWithin among)
    (hreturns : package.Returns among) {calls : List Definition}
    (hcalls : ∀ call ∈ calls, package.Defines call) :
    package.Supplied among (package.after calls) := by
  induction calls using List.reverseRecOn with
  | nil => exact supplied_empty package among
  | append_singleton calls last ih =>
    rw [after_append]
    have hlast := hcalls last (List.mem_append_right _ List.mem_cons_self)
    exact register_supplied hnamed hclosed hlast
      (ih fun call hmem ↦ hcalls call (List.mem_append_left _ hmem)) (.inr hreturns)

/-- A call that returns on an empty registry has registered all that calls lead to from it, so
nothing keeps these definitions from being registered. -/
theorem unobstructed_of_returned (hnamed : package.WellNamed)
    (hdefines : package.Defines definition)
    (hreturned : (package.register definition {}).2 = .ok ()) {other : Definition}
    (hother : package.Defines other)
    (hpath : Relation.ReflTransGen package.Invokes definition.names.name other.names.name) :
    package.Unobstructed other := by
  have hcalls : ∀ call ∈ [definition], package.Defines call := by simpa using hdefines
  have hidle := after_inProgress hnamed hcalls
  have hsupplied : package.Supplied (fun _ ↦ True) (package.register definition {}).1 :=
    register_supplied hnamed (fun _ _ ↦ trivial) hdefines (supplied_empty package _)
      (.inl hreturned)
  have hname := mem_names_of_returned rfl hreturned
  rw [← after_singleton] at hsupplied hname
  obtain ⟨hregistered, -⟩ := hsupplied.mem_names hidle (fun _ _ ↦ trivial) trivial hname hpath
  obtain ⟨found, hfound, hsame, hunobstructed⟩ :=
    unobstructed_of_mem_names_after hnamed hcalls hregistered
  exact hfound.eq_of_name hother hsame ▸ hunobstructed

/-- On an empty registry the function of a definition registers all that references lead to from
it. -/
def RegistersReached (package : Package) (definition : Definition) : Prop :=
  ∀ name, package.Reaches definition.names.name name →
    name ∈ (package.register definition {}).1.names

theorem RegistersReached.returned (h : package.RegistersReached definition)
    (hnamed : package.WellNamed) (hdefines : package.Defines definition) :
    (package.register definition {}).2 = .ok () := by
  have hfound := h _ .refl
  rcases hresult : package.register definition {} with ⟨reached, fault | _⟩
  · have hcall : package.register definition (package.after []) = (reached, .error fault) := hresult
    rw [hresult] at hfound
    exact absurd hfound (notMem_names_of_failed hnamed (by simp) hdefines hcall)
  · rfl

/-- Where each reference gets its own call, all that is reached is registered. -/
theorem registersReached_of_linked (hnamed : package.WellNamed) (hlinked : package.Linked)
    (hkeeps : ∀ definition, package.Defines definition → KeepsNames definition)
    (hdefines : package.Defines definition) : package.RegistersReached definition := by
  intro name hreaches
  have hcalls : ∀ call ∈ [definition], package.Defines call := by simpa using hdefines
  exact (mem_names_after_iff hnamed hlinked hkeeps hcalls).mpr
    ⟨definition, List.mem_cons_self, hreaches⟩

/-- The first call has left nothing out, so no later one can, whatever has been called before. -/
theorem RegistersReached.register_after (h : package.RegistersReached definition)
    (hnamed : package.WellNamed) (hdefines : package.Defines definition)
    {calls : List Definition} (hcalls : ∀ call ∈ calls, package.Defines call) :
    (package.register definition (package.after calls)).2 = .ok () ∧
      ∀ name, package.Reaches definition.names.name name →
        name ∈ (package.register definition (package.after calls)).1.names := by
  have hreturned := h.returned hnamed hdefines
  have hclosed : package.InvokesWithin
      (Relation.ReflTransGen package.Invokes definition.names.name) :=
    fun hpath hinvokes ↦ hpath.tail hinvokes
  have hreturns : package.Returns (Relation.ReflTransGen package.Invokes definition.names.name) :=
    returns_of_unobstructed hnamed hclosed fun hother hpath ↦
      unobstructed_of_returned hnamed hdefines hreturned hother hpath
  have hcard := card_unclaimed_le package (package.after calls)
  have hagain : (package.register definition (package.after calls)).2 = .ok () :=
    hreturns hdefines .refl _ _ (by omega)
  refine ⟨hagain, fun name hreaches ↦ ?_⟩
  have hpath := (invoked_of_mem_names hnamed hdefines (h name hreaches)).resolve_left
    List.not_mem_nil
  have hidle := after_inProgress hnamed hcalls
  have hgrows := register_grows hnamed hdefines (package.after calls)
  have hname := mem_names_of_returned hidle hagain
  have hsupplied := register_supplied hnamed hclosed hdefines
    (supplied_after hnamed hclosed hreturns hcalls) (.inr hreturns)
  exact (hsupplied.mem_names (hgrows.inProgress_eq.trans hidle) hclosed .refl hname hpath).1

end SchemaModules.Package
