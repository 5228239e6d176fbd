import SchemaModules.Proofs.Lookup
import SchemaModules.Registry.Basic

/-!
# Growth of registries

A registry changes by claims, by releases and by additions of documents. None of them replaces or
moves a document, so what a registration leaves behind is the registry from before with further
documents behind the old ones. `Grows` records this together with the claims, which are the same
before and after, and with a property of the added documents.
-/

namespace SchemaModules.Registry

variable {registry earlier middle later : Registry} {name : String} {document : Json}

/-! ## Single operations -/

theorem claim?_eq_none_iff :
    registry.claim? name = none ↔ name ∈ registry.names ∨ name ∈ registry.inProgress := by
  simp [claim?, contains, Classical.or_iff_not_imp_left]

theorem claim?_eq_some_iff {claimed : Registry} :
    registry.claim? name = some claimed ↔
      (name ∉ registry.names ∧ name ∉ registry.inProgress) ∧
        claimed = { registry with inProgress := name :: registry.inProgress } := by
  rw [eq_comm (a := claimed)]
  simp [claim?, contains]

theorem add_of_mem (h : name ∈ registry.names) : registry.add name document = registry := by
  simp [add, contains, h]

theorem add_of_notMem (h : name ∉ registry.names) (document : Json) :
    registry.add name document =
      { registry with documents := registry.documents ++ [(name, document)] } := by
  simp [add, contains, h]

@[simp]
theorem add_inProgress : (registry.add name document).inProgress = registry.inProgress := by
  unfold add
  split <;> rfl

theorem names_add_of_notMem (h : name ∉ registry.names) :
    (registry.add name document).names = registry.names ++ [name] := by
  rw [add_of_notMem h]
  simp [names]

theorem mem_names_add : name ∈ (registry.add name document).names := by
  by_cases h : name ∈ registry.names
  · rwa [add_of_mem h]
  · rw [names_add_of_notMem h]
    exact List.mem_append_right _ List.mem_cons_self

theorem mem_names_add_of_mem {other : String} (h : other ∈ registry.names) :
    other ∈ (registry.add name document).names := by
  by_cases hmem : name ∈ registry.names
  · rwa [add_of_mem hmem]
  · rw [names_add_of_notMem hmem]
    exact List.mem_append_left _ h

/-- Only a name that is not there is added. -/
theorem nodup_names_add (h : registry.names.Nodup) :
    (registry.add name document).names.Nodup := by
  by_cases hmem : name ∈ registry.names
  · rwa [add_of_mem hmem]
  · rw [names_add_of_notMem hmem, List.nodup_append]
    refine ⟨h, List.pairwise_singleton _ _, ?_⟩
    intro other hother new hnew heq
    rw [heq, List.mem_singleton.mp hnew] at hother
    exact hmem hother

@[simp]
theorem release_documents : (registry.release name).documents = registry.documents := rfl

@[simp]
theorem release_names : (registry.release name).names = registry.names := rfl

/-- A release undoes the claim of a name that was not claimed before. -/
theorem release_inProgress {claims : List String} (hclaims : registry.inProgress = name :: claims)
    (hname : name ∉ claims) : (registry.release name).inProgress = claims := by
  have hothers : claims.filter (· != name) = claims := by
    rw [List.filter_eq_self]
    intro other hother
    exact bne_iff_ne.mpr fun heq ↦ hname (heq ▸ hother)
  simp [release, hclaims, hothers]

/-- An addition does not ask whether the name is claimed. -/
theorem release_add : (registry.add name document).release name =
    (registry.release name).add name document := by
  by_cases h : name ∈ registry.names
  · rw [add_of_mem h, add_of_mem (by simpa using h)]
  · rw [add_of_notMem h, add_of_notMem (by simpa using h)]
    rfl

/-- What is registered or claimed stays so when a claim ends with an addition. -/
theorem held_add_release {target : String}
    (h : target ∈ registry.names ∨ target ∈ registry.inProgress) :
    target ∈ ((registry.add name document).release name).names ∨
      target ∈ ((registry.add name document).release name).inProgress := by
  by_cases hsame : target = name
  · exact Or.inl (hsame ▸ mem_names_add)
  · refine h.imp mem_names_add_of_mem fun hclaimed ↦ ?_
    have hkept : target ∈ (registry.add name document).inProgress := by rwa [add_inProgress]
    exact List.mem_filter.mpr ⟨hkept, bne_iff_ne.mpr hsame⟩

theorem document?_add_of_notMem (h : name ∉ registry.names) :
    (registry.add name document).document? name = some document := by
  have hlookup : registry.documents.lookup name = none := by
    rw [List.lookup_eq_none_iff]
    intro entry hentry
    exact bne_iff_ne.mpr fun heq ↦ h (heq ▸ List.mem_map_of_mem hentry)
  simp [add_of_notMem h, document?, List.lookup_append, hlookup]

theorem mem_names_of_mem (h : (name, document) ∈ registry.documents) : name ∈ registry.names :=
  List.mem_map_of_mem h

theorem mem_of_document? (h : registry.document? name = some document) :
    (name, document) ∈ registry.documents :=
  mem_of_lookup h

/-! ## Growth -/

/-- What comes between two states of a registry with the same claims: all earlier documents keep
their places, and the others are allowed ones under names that were not claimed. -/
structure Grows (allowed : String → Json → Prop) (earlier later : Registry) : Prop where
  inProgress_eq : later.inProgress = earlier.inProgress
  kept : earlier.documents <+: later.documents
  added : ∀ {name document}, (name, document) ∈ later.documents →
    (name, document) ∈ earlier.documents ∨ allowed name document ∧ name ∉ earlier.inProgress
  nodup : earlier.names.Nodup → later.names.Nodup

variable {allowed : String → Json → Prop}

namespace Grows

theorem refl (registry : Registry) : Grows allowed registry registry where
  inProgress_eq := rfl
  kept := List.prefix_refl _
  added h := Or.inl h
  nodup h := h

theorem trans (hfirst : Grows allowed earlier middle) (hsecond : Grows allowed middle later) :
    Grows allowed earlier later where
  inProgress_eq := hsecond.inProgress_eq.trans hfirst.inProgress_eq
  kept := hfirst.kept.trans hsecond.kept
  added h := by
    rcases hsecond.added h with hmiddle | ⟨hallowed, hunclaimed⟩
    · exact hfirst.added hmiddle
    · rw [hfirst.inProgress_eq] at hunclaimed
      exact Or.inr ⟨hallowed, hunclaimed⟩
  nodup h := hsecond.nodup (hfirst.nodup h)

theorem names_kept (h : Grows allowed earlier later) : earlier.names <+: later.names :=
  h.kept.map Prod.fst

theorem mem_names (h : Grows allowed earlier later) (hname : name ∈ earlier.names) :
    name ∈ later.names :=
  h.names_kept.subset hname

theorem mem_names_or_notMem_inProgress (h : Grows allowed earlier later)
    (hname : name ∈ later.names) : name ∈ earlier.names ∨ name ∉ earlier.inProgress := by
  obtain ⟨⟨_, document⟩, hentry, rfl⟩ := List.mem_map.mp hname
  rcases h.added hentry with hold | ⟨_, hunclaimed⟩
  · exact Or.inl (mem_names_of_mem hold)
  · exact Or.inr hunclaimed

/-- Adding an allowed document under a name that is not claimed. -/
theorem add (hallowed : allowed name document) (hname : name ∉ registry.inProgress) :
    Grows allowed registry (registry.add name document) := by
  by_cases hmem : name ∈ registry.names
  · rw [add_of_mem hmem]
    exact refl registry
  · refine ⟨add_inProgress, ?_, ?_, nodup_names_add⟩
    · rw [add_of_notMem hmem]
      exact List.prefix_append _ _
    · intro other otherDocument h
      rw [add_of_notMem hmem] at h
      rcases List.mem_append.mp h with hold | hnew
      · exact Or.inl hold
      · obtain ⟨rfl, rfl⟩ := Prod.mk.inj (List.mem_singleton.mp hnew)
        exact Or.inr ⟨hallowed, hname⟩

/-- Nobody adds a document under a name that has been claimed. -/
theorem notMem_names_of_claim {claimed : Registry} (hclaim : earlier.claim? name = some claimed)
    (h : Grows allowed claimed later) : name ∉ later.names := by
  obtain ⟨⟨hunregistered, _⟩, rfl⟩ := claim?_eq_some_iff.mp hclaim
  intro hmem
  rcases h.mem_names_or_notMem_inProgress hmem with hold | hfree
  · exact hunregistered hold
  · exact hfree List.mem_cons_self

/-- Growth under a claim is growth of the registry that was claimed in, once the claim is
released. -/
theorem release {claimed : Registry} (hclaim : earlier.claim? name = some claimed)
    (h : Grows allowed claimed later) : Grows allowed earlier (later.release name) := by
  obtain ⟨⟨_, hunclaimed⟩, rfl⟩ := claim?_eq_some_iff.mp hclaim
  refine ⟨release_inProgress h.inProgress_eq hunclaimed, h.kept, ?_, h.nodup⟩
  intro other otherDocument hentry
  rcases h.added hentry with hold | ⟨hallowed, hother⟩
  · exact Or.inl hold
  · exact Or.inr ⟨hallowed, fun hmem ↦ hother (List.mem_cons_of_mem _ hmem)⟩

/-- The same name can be claimed again, which leads back to where the claim was released. -/
theorem claim?_release {claimed : Registry} (hclaim : earlier.claim? name = some claimed)
    (h : Grows allowed claimed later) : (later.release name).claim? name = some later := by
  have hnew := h.notMem_names_of_claim hclaim
  obtain ⟨⟨_, hunclaimed⟩, rfl⟩ := claim?_eq_some_iff.mp hclaim
  have hlater : later.inProgress = name :: earlier.inProgress := h.inProgress_eq
  have hreleased : (later.release name).inProgress = earlier.inProgress :=
    release_inProgress hlater hunclaimed
  apply claim?_eq_some_iff.mpr
  refine ⟨⟨hnew, hreleased ▸ hunclaimed⟩, ?_⟩
  rw [hreleased, ← hlater]
  rfl

end Grows

end SchemaModules.Registry
