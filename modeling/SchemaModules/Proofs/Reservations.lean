import Mathlib.Order.Bounds.Basic
import SchemaModules.Proofs.FreshNames

/-!
# Reservations

A name is reserved by a search that goes on from taken names to numbered ones. The search has no
bound of its own: it ends because only finitely many names are taken. Each reservation adds the name
that it returns and no other, so no name is returned twice.
-/

namespace SchemaModules.Python

variable {taken : List String} {wanted name found other : String} {number : Nat} {scope : Scope}

/-! ## The search -/

/-- The end of a search without a bound: a taken name leads on to the next numbered one. -/
inductive SearchEnds (taken : List String) (wanted : String) : String → Nat → String → Prop
  | free {name : String} {number : Nat} (h : name ∉ taken) :
      SearchEnds taken wanted name number name
  | next {name found : String} {number : Nat} (h : name ∈ taken)
      (hnext : SearchEnds taken wanted (wanted ++ toString number) (number + 1) found) :
      SearchEnds taken wanted name number found

theorem SearchEnds.unique (hfound : SearchEnds taken wanted name number found)
    (hother : SearchEnds taken wanted name number other) : other = found := by
  induction hfound with
  | free h =>
    cases hother with
    | free => rfl
    | next hmem => exact absurd hmem h
  | next h hnext ih =>
    cases hother with
    | free hfree => exact absurd h hfree
    | next _ hlater => exact ih hlater

/-- A search over taken numbered names goes up to the first free one. -/
theorem searchEnds_numbered {last : Nat} (hfrom : number ≤ last)
    (hpassed : ∀ passed, number ≤ passed → passed < last → wanted ++ toString passed ∈ taken)
    (hfree : wanted ++ toString last ∉ taken) :
    SearchEnds taken wanted (wanted ++ toString number) (number + 1)
      (wanted ++ toString last) := by
  induction hfrom using Nat.decreasingInduction with
  | self => exact .free hfree
  | of_succ number hbefore ih =>
    apply SearchEnds.next (hpassed number (Nat.le_refl _) hbefore)
    exact ih fun passed hlater ↦ hpassed passed (Nat.le_of_succ_le hlater)

/-- The search ends with the fresh name. -/
theorem searchEnds_iff :
    SearchEnds taken wanted wanted 2 found ↔ found = freshName taken wanted := by
  obtain ⟨hnew, hwanted, hnumbered⟩ := freshName_spec taken wanted
  have hends : SearchEnds taken wanted wanted 2 (freshName taken wanted) := by
    by_cases htaken : wanted ∈ taken
    · obtain ⟨last, hfrom, hname, hpassed⟩ := hnumbered htaken
      rw [hname] at hnew ⊢
      exact .next htaken (searchEnds_numbered hfrom hpassed hnew)
    · rw [hwanted htaken]
      exact .free htaken
  constructor
  · exact hends.unique
  · rintro rfl
    exact hends

/-- What a reservation of a name returns and leaves behind. -/
structure Reserves (scope : Scope) (wanted name : String) (final : Scope) : Prop where
  ends : ∀ found, SearchEnds scope.reserved wanted wanted 2 found ↔ found = name
  eq_of_free : wanted ∉ scope.reserved → name = wanted
  eq_of_taken : wanted ∈ scope.reserved → ∃ number, name = wanted ++ toString number ∧
    IsLeast {number | 2 ≤ number ∧ wanted ++ toString number ∉ scope.reserved} number
  fresh : name ∉ scope.reserved
  mem_reserved : ∀ other, other ∈ final.reserved ↔ other = name ∨ other ∈ scope.reserved
  records_eq : final.records = scope.records
  imports_eq : final.imports = scope.imports

theorem reserves_reserve (scope : Scope) (wanted : String) :
    Reserves scope wanted (scope.reserve wanted).1 (scope.reserve wanted).2 := by
  obtain ⟨hnew, hwanted, hnumbered⟩ := freshName_spec scope.reserved wanted
  refine ⟨fun found ↦ searchEnds_iff, hwanted, ?_, hnew, fun other ↦ List.mem_cons, rfl, rfl⟩
  intro htaken
  obtain ⟨number, hfrom, hname, hpassed⟩ := hnumbered htaken
  refine ⟨number, hname, ⟨hfrom, hname ▸ hnew⟩, ?_⟩
  rintro free ⟨hfree, hnotMem⟩
  by_contra hbefore
  exact hnotMem (hpassed free hfree (by omega))

/-! ## Sequences of reservations -/

/-- Reserves names one after the other. -/
def Scope.reserveAll (scope : Scope) : List String → List String × Scope
  | [] => ([], scope)
  | wanted :: rest =>
    let (name, scope) := scope.reserve wanted
    let (names, scope) := reserveAll scope rest
    (name :: names, scope)

/-- What a sequence of reservations returns and leaves behind. -/
structure ReservesAll (scope : Scope) (wanted names : List String) (final : Scope) : Prop where
  length_eq : names.length = wanted.length
  nodup : names.Nodup
  fresh : ∀ name ∈ names, name ∉ scope.reserved
  mem_reserved : ∀ other, other ∈ final.reserved ↔ other ∈ names ∨ other ∈ scope.reserved

theorem ReservesAll.cons {middle final : Scope} {rest names : List String}
    (hfirst : Reserves scope wanted name middle) (hrest : ReservesAll middle rest names final) :
    ReservesAll scope (wanted :: rest) (name :: names) final where
  length_eq := congrArg (· + 1) hrest.length_eq
  nodup := by
    apply List.nodup_cons.mpr
    constructor
    · intro hmem
      exact hrest.fresh name hmem ((hfirst.mem_reserved name).mpr (.inl rfl))
    · exact hrest.nodup
  fresh := by
    intro other hmem hreserved
    rcases List.mem_cons.mp hmem with rfl | hlater
    · exact hfirst.fresh hreserved
    · exact hrest.fresh other hlater ((hfirst.mem_reserved other).mpr (.inr hreserved))
  mem_reserved other := by
    rw [hrest.mem_reserved, hfirst.mem_reserved, List.mem_cons]
    tauto

theorem reservesAll_reserveAll (scope : Scope) (wanted : List String) :
    ReservesAll scope wanted (scope.reserveAll wanted).1 (scope.reserveAll wanted).2 := by
  induction wanted generalizing scope with
  | nil => exact ⟨rfl, List.nodup_nil, nofun, fun other ↦ by simp [Scope.reserveAll]⟩
  | cons wanted rest ih => exact (ih _).cons (reserves_reserve scope wanted)

/-- Reserving always ends with a new name, the least numbered one if it must be numbered, and a
sequence of reservations never returns a name twice. -/
theorem reservations_distinct (scope : Scope) :
    (∀ wanted, Reserves scope wanted (scope.reserve wanted).1 (scope.reserve wanted).2) ∧
      ∀ wanted, ReservesAll scope wanted (scope.reserveAll wanted).1
        (scope.reserveAll wanted).2 :=
  ⟨reserves_reserve scope, reservesAll_reserveAll scope⟩

/-- A numbered name may be one that another record has asked for. -/
example : (({} : Scope).reserveAll ["_IFoo2", "_IFoo", "_IFoo", "_IFoo2"]).1 =
    ["_IFoo2", "_IFoo", "_IFoo3", "_IFoo22"] := by decide

end SchemaModules.Python
