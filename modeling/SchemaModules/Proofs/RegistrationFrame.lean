import Mathlib.Data.Finset.Card
import SchemaModules.Proofs.PackageDefinitions
import SchemaModules.Proofs.RegistryGrowth

/-!
# Frames and fuel of registrations

`Attempt` lists the ways in which one registering function can end, the calls made within it being
a parameter. Two facts follow for every package, whether or not its modules can be imported and
whatever their names capture. A registration leaves all earlier documents and all claims as they
were, and adds documents under unclaimed names only. Each call within a call claims another name,
hence more fuel than there are unclaimed names changes nothing.
-/

namespace SchemaModules.Package

variable {package : Package} {definition : Definition} {registry : Registry}
  {call : Definition → Registry → Outcome} {outcome : Outcome}

/-- How a registering function can end, with `call` for the functions it calls. -/
inductive Attempt (package : Package) (call : Definition → Registry → Outcome)
    (definition : Definition) (registry : Registry) : Outcome → Prop
  | captured {fault : Fault} (hregistry : registryFault? definition registry = some fault) :
    Attempt package call definition registry (registry, .error fault)
  | skipped (hregistry : registryFault? definition registry = none)
      (hclaim : registry.claim? definition.names.name = none) :
    Attempt package call definition registry (registry, .ok ())
  | unimported {claimed : Registry} {fault : Fault}
      (hregistry : registryFault? definition registry = none)
      (hclaim : registry.claim? definition.names.name = some claimed)
      (himports : package.importAll definition.dependencies = .error fault) :
    Attempt package call definition registry (claimed.release definition.names.name, .error fault)
  | interrupted {claimed reached : Registry} {imports : List (String × Definition)} {fault : Fault}
      (hregistry : registryFault? definition registry = none)
      (hclaim : registry.claim? definition.names.name = some claimed)
      (himports : package.importAll definition.dependencies = .ok imports)
      (hcalls : callAll call (calledFor imports) claimed = (reached, .error fault)) :
    Attempt package call definition registry (reached.release definition.names.name, .error fault)
  | unadded {claimed reached : Registry} {imports : List (String × Definition)} {fault : Fault}
      (hregistry : registryFault? definition registry = none)
      (hclaim : registry.claim? definition.names.name = some claimed)
      (himports : package.importAll definition.dependencies = .ok imports)
      (hcalls : callAll call (calledFor imports) claimed = (reached, .ok ()))
      (haddition : additionFault? definition = some fault) :
    Attempt package call definition registry (reached.release definition.names.name, .error fault)
  | completed {claimed reached : Registry} {imports : List (String × Definition)}
      (hregistry : registryFault? definition registry = none)
      (hclaim : registry.claim? definition.names.name = some claimed)
      (himports : package.importAll definition.dependencies = .ok imports)
      (hcalls : callAll call (calledFor imports) claimed = (reached, .ok ()))
      (haddition : additionFault? definition = none) :
    Attempt package call definition registry
      ((reached.add definition.names.name (registered definition imports)).release
        definition.names.name, .ok ())

-- `rfl` would otherwise look for the fault by evaluating the whole module of the definition
attribute [local irreducible] registryFault? in
theorem registerWithin_succ (package : Package) (fuel : Nat) (definition : Definition)
    (registry : Registry) :
    package.registerWithin (fuel + 1) definition registry =
      match registryFault? definition registry with
      | some fault => (registry, .error fault)
      | none =>
        match registry.claim? definition.names.name with
        | none => (registry, .ok ())
        | some claimed =>
          let (registry, outcome) :=
            package.registerClaimed (package.registerWithin fuel) definition claimed
          (registry.release definition.names.name, outcome) := by
  rfl

theorem attempt_registerWithin (package : Package) (fuel : Nat) (definition : Definition)
    (registry : Registry) :
    Attempt package (package.registerWithin fuel) definition registry
      (package.registerWithin (fuel + 1) definition registry) := by
  rw [registerWithin_succ]
  cases hregistry : registryFault? definition registry with
  | some fault => exact .captured hregistry
  | none =>
    cases hclaim : registry.claim? definition.names.name with
    | none => exact .skipped hregistry hclaim
    | some claimed =>
      simp only [registerClaimed]
      cases himports : package.importAll definition.dependencies with
      | error fault => exact .unimported hregistry hclaim himports
      | ok imports =>
        simp only
        rcases hcalls : callAll (package.registerWithin fuel) (calledFor imports) claimed with
          ⟨reached, fault | _⟩
        · exact .interrupted hregistry hclaim himports hcalls
        · cases haddition : additionFault? definition with
          | some fault => exact .unadded hregistry hclaim himports hcalls haddition
          | none => exact .completed hregistry hclaim himports hcalls haddition

/-! ## What a registration leaves as it was -/

/-- A document that a registering function may add: the definition's own, or none where a function
took the place of the document. -/
def Registrable (package : Package) (name : String) (document : Json) : Prop :=
  ∃ definition, package.Defines definition ∧ definition.names.name = name ∧
    (document = definition.document ∨ document = .null)

theorem Defines.registrable (h : package.Defines definition)
    (imports : List (String × Definition)) :
    package.Registrable definition.names.name (registered definition imports) := by
  refine ⟨definition, h, rfl, ?_⟩
  unfold registered
  split
  · exact Or.inr rfl
  · exact Or.inl rfl

theorem callAll_grows {allowed : String → Json → Prop} {definitions : List Definition}
    (hcall : ∀ definition ∈ definitions, ∀ registry,
      Registry.Grows allowed registry (call definition registry).1) (registry : Registry) :
    Registry.Grows allowed registry (callAll call definitions registry).1 := by
  induction definitions generalizing registry with
  | nil => exact .refl registry
  | cons first rest ih =>
    have hfirst := hcall first List.mem_cons_self registry
    have hrest := ih fun definition hmem ↦ hcall definition (List.mem_cons_of_mem _ hmem)
    rw [callAll]
    split
    · rename_i middle hmiddle
      rw [hmiddle] at hfirst
      exact hfirst.trans (hrest middle)
    · rename_i middle fault hmiddle
      rwa [hmiddle] at hfirst

/-- Between a claim and its release a registration only lets the registry grow. The document is
added while the name is still claimed, but nobody looks at it before the release. -/
theorem Attempt.grows {allowed : String → Json → Prop}
    (h : Attempt package call definition registry outcome) (hnamed : package.WellNamed)
    (hallowed : ∀ {imports : List (String × Definition)},
      registryFault? definition registry = none →
      package.importAll definition.dependencies = .ok imports → additionFault? definition = none →
      allowed definition.names.name (registered definition imports))
    (hcall : ∀ other, package.Defines other → ∀ registry,
      Registry.Grows allowed registry (call other registry).1) :
    Registry.Grows allowed registry outcome.1 := by
  have hcalls {imports : List (String × Definition)} {claimed reached : Registry}
      {result : Except Fault Unit}
      (himports : package.importAll definition.dependencies = .ok imports)
      (heq : callAll call (calledFor imports) claimed = (reached, result)) :
      Registry.Grows allowed claimed reached := by
    have hgrows : Registry.Grows allowed claimed (callAll call (calledFor imports) claimed).1 :=
      callAll_grows
        (fun other hother ↦ hcall other (hnamed.defines_of_calledFor himports hother)) claimed
    rwa [heq] at hgrows
  cases h with
  | captured => exact .refl registry
  | skipped => exact .refl registry
  | unimported _ hclaim _ => exact .release hclaim (.refl _)
  | interrupted _ hclaim himports heq => exact .release hclaim (hcalls himports heq)
  | unadded _ hclaim himports heq _ => exact .release hclaim (hcalls himports heq)
  | completed hregistry hclaim himports heq haddition =>
    have hreleased := Registry.Grows.release hclaim (hcalls himports heq)
    refine hreleased.trans ?_
    rw [Registry.release_add]
    apply Registry.Grows.add (hallowed hregistry himports haddition)
    rw [hreleased.inProgress_eq]
    exact (Registry.claim?_eq_some_iff.mp hclaim).1.2

/-- A registration adds what is allowed for each definition that gets as far as its addition. -/
theorem registerWithin_grows_of {allowed : String → Json → Prop} (hnamed : package.WellNamed)
    (hallowed : ∀ {definition registry imports}, package.Defines definition →
      registryFault? definition registry = none →
      package.importAll definition.dependencies = .ok imports → additionFault? definition = none →
      allowed definition.names.name (registered definition imports))
    (fuel : Nat) (hdefines : package.Defines definition) (registry : Registry) :
    Registry.Grows allowed registry (package.registerWithin fuel definition registry).1 := by
  induction fuel generalizing definition registry with
  | zero => exact .refl registry
  | succ fuel ih =>
    exact (attempt_registerWithin package fuel definition registry).grows hnamed
      (hallowed hdefines) fun _ hother registry ↦ ih hother registry

theorem registerWithin_grows (hnamed : package.WellNamed) (fuel : Nat)
    (hdefines : package.Defines definition) (registry : Registry) :
    Registry.Grows package.Registrable registry
      (package.registerWithin fuel definition registry).1 :=
  registerWithin_grows_of hnamed (fun hdefines _ _ _ ↦ hdefines.registrable _) fuel hdefines
    registry

/-- The calls of one registering function, once its imports are there. -/
theorem callAll_grows_of_imports (hnamed : package.WellNamed) {fuel : Nat}
    {imports : List (String × Definition)} {claimed reached : Registry}
    {result : Except Fault Unit}
    (himports : package.importAll definition.dependencies = .ok imports)
    (heq : callAll (package.registerWithin fuel) (calledFor imports) claimed = (reached, result)) :
    Registry.Grows package.Registrable claimed reached := by
  have hgrows := callAll_grows (fun other hother ↦ registerWithin_grows hnamed fuel
    (hnamed.defines_of_calledFor himports hother)) claimed
  rwa [heq] at hgrows

theorem register_grows (hnamed : package.WellNamed) (hdefines : package.Defines definition)
    (registry : Registry) :
    Registry.Grows package.Registrable registry (package.register definition registry).1 :=
  registerWithin_grows hnamed _ hdefines registry

/-! ## Fuel -/

/-- The names of definitions that are neither registered nor claimed. -/
def unclaimed (package : Package) (registry : Registry) : Finset String :=
  (package.definitions.map Prod.fst).toFinset.filter fun name ↦
    name ∉ registry.names ∧ name ∉ registry.inProgress

theorem card_unclaimed_le (package : Package) (registry : Registry) :
    (package.unclaimed registry).card ≤ package.definitions.length := by
  calc
    _ ≤ (package.definitions.map Prod.fst).toFinset.card := Finset.card_filter_le _ _
    _ ≤ (package.definitions.map Prod.fst).length := List.toFinset_card_le _
    _ = package.definitions.length := List.length_map _

theorem card_unclaimed_le_of_grows {allowed : String → Json → Prop} {later : Registry}
    (h : Registry.Grows allowed registry later) :
    (package.unclaimed later).card ≤ (package.unclaimed registry).card := by
  apply Finset.card_le_card
  intro name hname
  simp only [unclaimed, Finset.mem_filter, h.inProgress_eq] at hname ⊢
  exact ⟨hname.1, fun hmem ↦ hname.2.1 (h.mem_names hmem), hname.2.2⟩

/-- Claiming a name takes it from the unclaimed ones. -/
theorem card_unclaimed_lt_of_claim {claimed : Registry} (hdefines : package.Defines definition)
    (hclaim : registry.claim? definition.names.name = some claimed) :
    (package.unclaimed claimed).card < (package.unclaimed registry).card := by
  obtain ⟨⟨hunregistered, hunclaimed⟩, rfl⟩ := Registry.claim?_eq_some_iff.mp hclaim
  apply Finset.card_lt_card
  refine (Finset.ssubset_iff_of_subset ?_).mpr ⟨definition.names.name, ?_, ?_⟩
  · intro name hname
    simp only [unclaimed, Finset.mem_filter, List.mem_cons, not_or] at hname ⊢
    exact ⟨hname.1, hname.2.1, hname.2.2.2⟩
  · simp only [unclaimed, Finset.mem_filter, List.mem_toFinset]
    exact ⟨List.mem_map_of_mem hdefines.mem, hunregistered, hunclaimed⟩
  · simp [unclaimed]

theorem callAll_congr {other : Definition → Registry → Outcome} (holds : Registry → Prop)
    {definitions : List Definition}
    (hkept : ∀ definition ∈ definitions, ∀ registry, holds registry →
      holds (call definition registry).1)
    (heq : ∀ definition ∈ definitions, ∀ registry, holds registry →
      call definition registry = other definition registry)
    (hholds : holds registry) :
    callAll call definitions registry = callAll other definitions registry := by
  induction definitions generalizing registry with
  | nil => rfl
  | cons first rest ih =>
    have hfirst := hkept first List.mem_cons_self registry hholds
    rw [callAll, callAll, ← heq first List.mem_cons_self registry hholds]
    split
    · rename_i middle hmiddle
      rw [hmiddle] at hfirst
      exact ih (fun definition hmem ↦ hkept definition (List.mem_cons_of_mem _ hmem))
        (fun definition hmem ↦ heq definition (List.mem_cons_of_mem _ hmem)) hfirst
    · rfl

theorem registerWithin_succ_eq (hnamed : package.WellNamed) {fuel : Nat}
    (hdefines : package.Defines definition) (hfuel : (package.unclaimed registry).card < fuel) :
    package.registerWithin (fuel + 1) definition registry =
      package.registerWithin fuel definition registry := by
  induction fuel generalizing definition registry with
  | zero => exact absurd hfuel (Nat.not_lt_zero _)
  | succ fuel ih =>
    rw [registerWithin_succ, registerWithin_succ]
    cases hclaim : registry.claim? definition.names.name with
    | none => simp only
    | some claimed =>
      have hclaimed := card_unclaimed_lt_of_claim hdefines hclaim
      have hstep : package.registerClaimed (package.registerWithin (fuel + 1)) definition claimed =
          package.registerClaimed (package.registerWithin fuel) definition claimed := by
        unfold registerClaimed
        cases himports : package.importAll definition.dependencies with
        | error fault => rfl
        | ok imports =>
          have hcalls : callAll (package.registerWithin (fuel + 1)) (calledFor imports) claimed =
              callAll (package.registerWithin fuel) (calledFor imports) claimed := by
            apply callAll_congr fun registry ↦ (package.unclaimed registry).card < fuel
            · intro other hother registry hholds
              have hgrows := registerWithin_grows hnamed (fuel + 1)
                (hnamed.defines_of_calledFor himports hother) registry
              exact (card_unclaimed_le_of_grows hgrows).trans_lt hholds
            · intro other hother registry hholds
              exact ih (hnamed.defines_of_calledFor himports hother) hholds
            · omega
          simp only [hcalls]
      simp only [hstep]

/-- The fuel never runs out: any more of it gives the same outcome. -/
theorem registerWithin_eq_register (hnamed : package.WellNamed)
    (hdefines : package.Defines definition) (registry : Registry) {fuel : Nat}
    (hfuel : package.definitions.length < fuel) :
    package.registerWithin fuel definition registry = package.register definition registry := by
  have hcard := card_unclaimed_le package registry
  induction fuel, hfuel using Nat.le_induction with
  | base => rfl
  | succ fuel hfuel ih =>
    rw [registerWithin_succ_eq hnamed hdefines (by omega), ih]

end SchemaModules.Package
