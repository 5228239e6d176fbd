import SchemaModules.Proofs.RegistrationOrder

/-!
# Failed registrations

A registering function that fails takes back its claims, but none of the documents that were added
on the way. They do not help a second call: what returned the first time is skipped, and what failed
is reached again while the same registrations run. A call that follows another one of the same
function therefore ends as that one did, and it leaves the registry as it is.
-/

namespace SchemaModules.Package

open Python

variable {package : Package} {definition : Definition} {registry middle reached later : Registry}
  {call : Definition → Registry → Outcome} {result : Except Fault Unit} {fault : Fault}
  {allowed : String → Json → Prop} {fuel : Nat} {name : String}

/-! ## Second calls -/

/-- A function that finds its name registered or claimed has nothing to do. -/
theorem registerWithin_of_held (fuel : Nat)
    (hregistry : isSupport (bindingIn definition getRegistryName) = true)
    (hheld : definition.names.name ∈ registry.names ∨
      definition.names.name ∈ registry.inProgress) :
    package.registerWithin (fuel + 1) definition registry = (registry, .ok ()) := by
  rw [registerWithin_succ, registryFault?_eq_none_iff.mpr hregistry,
    Registry.claim?_eq_none_iff.mpr hheld]

/-- A function that claims its name goes on with the claim, which it takes back in the end. -/
theorem registerWithin_of_claim {claimed : Registry} (fuel : Nat)
    (hregistry : isSupport (bindingIn definition getRegistryName) = true)
    (hclaim : registry.claim? definition.names.name = some claimed) :
    package.registerWithin (fuel + 1) definition registry =
      ((package.registerClaimed (package.registerWithin fuel) definition claimed).1.release
          definition.names.name,
        (package.registerClaimed (package.registerWithin fuel) definition claimed).2) := by
  rw [registerWithin_succ, registryFault?_eq_none_iff.mpr hregistry, hclaim]

/-- What a call that returned leaves behind: its name is held, and the registry was found. -/
theorem held_of_returned
    (h : package.registerWithin (fuel + 1) definition registry = (reached, .ok ())) :
    isSupport (bindingIn definition getRegistryName) = true ∧
      (definition.names.name ∈ reached.names ∨ definition.names.name ∈ registry.inProgress) := by
  have hattempt := attempt_registerWithin package fuel definition registry
  rw [h] at hattempt
  cases hattempt with
  | skipped hregistry hclaim =>
    exact ⟨registryFault?_eq_none_iff.mp hregistry, Registry.claim?_eq_none_iff.mp hclaim⟩
  | completed hregistry =>
    refine ⟨registryFault?_eq_none_iff.mp hregistry, Or.inl ?_⟩
    rw [Registry.release_names]
    exact Registry.mem_names_add

theorem registerWithin_skips (hnamed : package.WellNamed) (hdefines : package.Defines definition)
    (h : package.registerWithin fuel definition registry = (middle, .ok ()))
    (hgrows : Registry.Grows allowed middle later) :
    package.registerWithin fuel definition later = (later, .ok ()) := by
  cases fuel with
  | zero => cases h
  | succ fuel =>
    have hfirst := registerWithin_grows hnamed (fuel + 1) hdefines registry
    rw [h] at hfirst
    obtain ⟨hregistry, hheld⟩ := held_of_returned h
    apply registerWithin_of_held _ hregistry
    rw [hgrows.inProgress_eq, hfirst.inProgress_eq]
    exact hheld.imp_left hgrows.mem_names

/-- The calls of one function, made again where they ended. `hskips` passes over those that
returned, and `hagain` is about the one that failed. -/
theorem callAll_again {definitions : List Definition}
    (hgrows : ∀ definition ∈ definitions, ∀ registry,
      Registry.Grows allowed registry (call definition registry).1)
    (hskips : ∀ definition ∈ definitions, ∀ {registry middle later},
      call definition registry = (middle, .ok ()) → Registry.Grows allowed middle later →
      call definition later = (later, .ok ()))
    (hagain : ∀ definition ∈ definitions, ∀ {registry reached fault},
      call definition registry = (reached, .error fault) →
      call definition reached = (reached, .error fault))
    (h : callAll call definitions registry = (reached, result)) :
    callAll call definitions reached = (reached, result) := by
  induction definitions generalizing registry with
  | nil =>
    cases h
    rfl
  | cons first rest ih =>
    rw [callAll] at h ⊢
    rcases hresult : call first registry with ⟨middle, fault | _⟩
    · rw [hresult] at h
      cases h
      rw [hagain first List.mem_cons_self hresult]
    · rw [hresult] at h
      have hrest : Registry.Grows allowed middle (callAll call rest middle).1 :=
        callAll_grows (fun other hother ↦ hgrows other (List.mem_cons_of_mem _ hother)) middle
      rw [show callAll call rest middle = (reached, result) from h] at hrest
      rw [hskips first List.mem_cons_self hresult hrest]
      exact ih (fun other hother ↦ hgrows other (List.mem_cons_of_mem _ hother))
        (fun other hother ↦ hskips other (List.mem_cons_of_mem _ hother))
        (fun other hother ↦ hagain other (List.mem_cons_of_mem _ hother)) h

/-- A registration made again ends in the same way and changes nothing. By induction on the fuel:
the claim that was taken back is taken again, which leads to the registry where the calls ended. -/
theorem registerWithin_again (hnamed : package.WellNamed) (hdefines : package.Defines definition)
    (h : package.registerWithin fuel definition registry = (reached, result)) :
    package.registerWithin fuel definition reached = (reached, result) := by
  induction fuel generalizing definition registry reached result with
  | zero =>
    cases h
    rfl
  | succ fuel ih =>
    have hcalls {imports : List (String × Definition)} {claimed last : Registry}
        {outcome : Except Fault Unit}
        (himports : package.importAll definition.dependencies = .ok imports)
        (heq : callAll (package.registerWithin fuel) (calledFor imports) claimed =
          (last, outcome)) :
        callAll (package.registerWithin fuel) (calledFor imports) last = (last, outcome) := by
      have hcalled {other : Definition} (hother : other ∈ calledFor imports) :
          package.Defines other := hnamed.defines_of_calledFor himports hother
      refine callAll_again
        (fun other hother ↦ registerWithin_grows hnamed fuel (hcalled hother)) ?_ ?_ heq
      · intro other hother _ _ _ hreturned hlater
        exact registerWithin_skips hnamed (hcalled hother) hreturned hlater
      · intro other hother _ _ _ hfailed
        exact ih (hcalled hother) hfailed
    have hattempt := attempt_registerWithin package fuel definition registry
    rw [h] at hattempt
    cases hattempt with
    | captured => exact h
    | skipped => exact h
    | @unimported claimed _ hregistry hclaim himports =>
      have hunchanged : Registry.Grows package.Registrable claimed claimed := .refl claimed
      have hreclaim := Registry.Grows.claim?_release hclaim hunchanged
      rw [registerWithin_of_claim fuel (registryFault?_eq_none_iff.mp hregistry) hreclaim]
      simp only [registerClaimed, himports]
    | interrupted hregistry hclaim himports heq =>
      have hreclaim := Registry.Grows.claim?_release hclaim
        (callAll_grows_of_imports hnamed himports heq)
      rw [registerWithin_of_claim fuel (registryFault?_eq_none_iff.mp hregistry) hreclaim]
      simp only [registerClaimed, himports, hcalls himports heq]
    | unadded hregistry hclaim himports heq haddition =>
      have hreclaim := Registry.Grows.claim?_release hclaim
        (callAll_grows_of_imports hnamed himports heq)
      rw [registerWithin_of_claim fuel (registryFault?_eq_none_iff.mp hregistry) hreclaim]
      simp only [registerClaimed, himports, hcalls himports heq, haddition]
    | completed hregistry =>
      apply registerWithin_of_held _ (registryFault?_eq_none_iff.mp hregistry)
      rw [Registry.release_names]
      exact Or.inl Registry.mem_names_add

/-! ## Failing calls -/

/-- A definition that nothing keeps from being registered once its references are: the functions of
the registry module are found under their names, and the functions of its references can be
imported. -/
structure Unobstructed (package : Package) (definition : Definition) : Prop where
  registry : isSupport (bindingIn definition getRegistryName) = true
  addition : isSupport (bindingIn definition addDocumentName) = true
  imports : ∃ imports, package.importAll definition.dependencies = .ok imports

theorem unobstructed_of_mem_names_after (hnamed : package.WellNamed) {calls : List Definition}
    (hcalls : ∀ call ∈ calls, package.Defines call) (h : name ∈ (package.after calls).names) :
    ∃ definition, package.Defines definition ∧ definition.names.name = name ∧
      package.Unobstructed definition := by
  let allowed (name : String) (_ : Json) : Prop := ∃ definition, package.Defines definition ∧
    definition.names.name = name ∧ package.Unobstructed definition
  have hregister : ∀ definition, package.Defines definition → ∀ registry,
      Registry.Grows allowed registry (package.register definition registry).1 := by
    intro definition hdefines registry
    apply registerWithin_grows_of hnamed _ _ hdefines
    intro other _ imports hother hregistry himports haddition
    exact ⟨other, hother, rfl, registryFault?_eq_none_iff.mp hregistry,
      additionFault?_eq_none_iff.mp haddition, imports, himports⟩
  have hgrows : Registry.Grows allowed {} (package.after calls) :=
    after_grows_of hregister [] hcalls
  obtain ⟨⟨_, document⟩, hentry, rfl⟩ := List.mem_map.mp h
  rcases hgrows.added hentry with hfresh | ⟨hallowed, _⟩
  · exact absurd hfresh List.not_mem_nil
  · exact hallowed

/-- The name of a call that fails is not registered afterwards. It may have failed before it could
look, but then its function has never got any further. -/
theorem notMem_names_of_failed (hnamed : package.WellNamed) {calls : List Definition}
    (hcalls : ∀ call ∈ calls, package.Defines call) (hdefines : package.Defines definition)
    (h : package.register definition (package.after calls) = (reached, .error fault)) :
    definition.names.name ∉ reached.names := by
  have hattempt := attempt_registerWithin package package.definitions.length definition
    (package.after calls)
  unfold register at h
  rw [h] at hattempt
  cases hattempt with
  | captured hregistry =>
    intro hmem
    obtain ⟨other, hother, hname, hunobstructed⟩ :=
      unobstructed_of_mem_names_after hnamed hcalls hmem
    obtain rfl := hother.eq_of_name hdefines hname
    simp [registryFault?_eq_none_iff.mpr hunobstructed.registry] at hregistry
  | @unimported claimed _ _ hclaim =>
    have hunchanged : Registry.Grows package.Registrable claimed claimed := .refl claimed
    rw [Registry.release_names]
    exact hunchanged.notMem_names_of_claim hclaim
  | interrupted _ hclaim himports heq =>
    rw [Registry.release_names]
    exact (callAll_grows_of_imports hnamed himports heq).notMem_names_of_claim hclaim
  | unadded _ hclaim himports heq =>
    rw [Registry.release_names]
    exact (callAll_grows_of_imports hnamed himports heq).notMem_names_of_claim hclaim

/-- A call that fails takes back all claims, does not register its name, keeps what was registered
before it in place, and fails again with the same fault when it is made once more. -/
theorem register_fails_again {config : Config} {definitions : List (String × Json)}
    (hpackage : Package.of config definitions = .ok package) {calls : List Definition}
    (hcalls : ∀ call ∈ calls, package.Defines call) (hdefines : package.Defines definition)
    (hfails : package.register definition (package.after calls) = (reached, .error fault)) :
    reached.inProgress = [] ∧ definition.names.name ∉ reached.names ∧
      (package.after calls).documents <+: reached.documents ∧
      package.register definition reached = (reached, .error fault) := by
  have hnamed := wellNamed_of_eq_ok hpackage
  have hgrows := register_grows hnamed hdefines (package.after calls)
  rw [hfails] at hgrows
  refine ⟨?_, notMem_names_of_failed hnamed hcalls hdefines hfails, hgrows.kept,
    registerWithin_again hnamed hdefines hfails⟩
  calc reached.inProgress
    _ = (package.after calls).inProgress := hgrows.inProgress_eq
    _ = [] := after_inProgress hnamed hcalls

/-- Two definitions that refer to each other. One of them leads to a definition that is not there,
by a reference behind the one to its counterpart. -/
def incompleteDefinitions : List (String × Json) :=
  [("x.A", .obj [("properties", .obj [("b", .obj [("$ref", .str "#/definitions/x.B")]),
      ("c", .obj [("$ref", .str "#/definitions/x.C")])])]),
    ("x.B", .obj [("items", .obj [("$ref", .str "#/definitions/x.A")])]),
    ("x.C", .obj [("items", .obj [("$ref", .str "#/definitions/x.Missing")])])]

theorem register_fails_again_incompleteDefinitions :
    ∃ package definition reached fault, Package.of {} incompleteDefinitions = .ok package ∧
      package.Defines definition ∧
      package.register definition (package.after []) = (reached, .error fault) ∧
      reached.names = ["x.B"] ∧ reached.inProgress = [] ∧
      package.register definition reached = (reached, .error fault) := by
  have hchecked : (Package.of {} incompleteDefinitions).toOption.any (fun package ↦
      (package.definitions.lookup "x.A").any fun definition ↦
        decide ((package.register definition {}).2.toOption = none ∧
          (package.register definition {}).1.names = ["x.B"])) = true := by
    decide +kernel
  obtain ⟨package, hpackage, hchecked⟩ := exists_eq_ok_of_check hchecked
  obtain ⟨definition, hlookup, houtcome⟩ := (Option.any_eq_true _ _).mp hchecked
  have hdefines := (wellNamed_of_eq_ok hpackage).defines_of_lookup hlookup
  obtain ⟨hfails, hnames⟩ := of_decide_eq_true houtcome
  rcases heq : package.register definition {} with ⟨reached, fault | _⟩ <;>
    rw [heq] at hfails hnames
  · have hcall : package.register definition (package.after []) = (reached, .error fault) := heq
    obtain ⟨hclaims, -, -, hagain⟩ := register_fails_again hpackage (by simp) hdefines hcall
    exact ⟨package, definition, reached, fault, hpackage, hdefines, hcall, hnames, hclaims, hagain⟩
  · cases hfails

end SchemaModules.Package
