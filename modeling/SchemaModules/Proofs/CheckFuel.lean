import Mathlib.Algebra.Group.Action.Defs
import Mathlib.Algebra.Order.BigOperators.Group.List
import Mathlib.Algebra.Order.Ring.Nat
import SchemaModules.Proofs.SchemaCalls

/-!
# Fuel of checks

Checks with more and more fuel approximate each other. For one instance, they are made at the values
of finitely many documents, and a verdict can change twice at most: from one without a violation to
one with a violation, and from there to one that was not cut off. Once no verdict changes from one
fuel to the next, none changes any more, provided that this holds for all that is in the instance as
well. Hence the fuel that a validator gives a check is enough: with any more of it the verdict is
the same.
-/

namespace SchemaModules.Validation

variable {documents : Documents} {start document schema value target found inner : Json}
  {fuel later : Nat}

/-! ## Places of a check -/

/-- The values that a check may apply, each with the document that it is in. -/
def places (documents : Documents) (start : Json) : List (Json × Json) :=
  (start :: documents.map Prod.snd).flatMap fun document ↦
    document.values.map (document, ·)

theorem mem_places : (document, found) ∈ places documents start ↔
    (document = start ∨ ∃ name, (name, document) ∈ documents) ∧
      found ∈ document.values := by
  simp only [places, List.mem_flatMap, List.mem_map, List.mem_cons, Prod.exists, Prod.mk.injEq]
  constructor
  · rintro ⟨_, hdocument, _, hvalues, rfl, rfl⟩
    exact ⟨hdocument.imp_right fun ⟨name, _, hentry, heq⟩ ↦ ⟨name, heq ▸ hentry⟩, hvalues⟩
  · rintro ⟨hdocument, hvalues⟩
    exact ⟨document, hdocument.imp_right fun ⟨name, hentry⟩ ↦ ⟨name, document, hentry, rfl⟩,
      found, hvalues, rfl, rfl⟩

theorem length_places (documents : Documents) (start : Json) :
    (places documents start).length = start.size + Json.sizeMembers documents := by
  have hdocuments (documents : List (String × Json)) :
      (documents.map fun entry ↦ entry.2.size).sum = Json.sizeMembers documents := by
    induction documents with
    | nil => rfl
    | cons entry rest ih => rw [List.map_cons, List.sum_cons, ih, Json.sizeMembers]
  simp [places, List.length_flatMap, Json.length_values, Function.comp_def, hdocuments]

theorem mem_of_itemAt? {items : List Json} {index : Int} {item : Json}
    (h : itemAt? items index = some item) : item ∈ items := by
  simp only [itemAt?] at h
  generalize (if index < 0 then index + items.length else index) = place at h
  split at h
  · cases h
  · exact List.mem_of_getElem? h

/-- A step down from what is no mapping is made by an index. -/
theorem exists_item_of_valueAt {segment : List Char} {rest : List (List Char)}
    (hobject : value.isObject = false) (h : valueAt (segment :: rest) value = .ok found) :
    ∃ items item, itemsOf value = .ok items ∧ item ∈ items ∧ valueAt rest item = .ok found := by
  rw [valueAt] at h
  · obtain ⟨items, hitems, hrest⟩ := bind_eq_ok_iff.mp h
    split at hrest
    · cases hrest
    · split at hrest
      · rename_i item hitem
        exact ⟨items, item, hitems, mem_of_itemAt? hitem, hrest⟩
      · cases hrest
  · rintro members rfl
    cases hobject

/-- A path into a document leads to a value in it, or to a text that stands for no schema. -/
theorem mem_values_of_valueAt {segments : List (List Char)}
    (h : valueAt segments value = .ok found) : found ∈ value.values ∨ found.isObject = false := by
  induction segments generalizing value with
  | nil =>
    cases h
    exact Or.inl (Json.mem_values_self _)
  | cons segment rest ih =>
    cases value with
    | obj members =>
      rw [valueAt] at h
      split at h
      · rename_i hmember
        exact (ih h).imp_left fun hfound ↦
          Json.values_subset (Json.mem_values_of_member (mem_of_lookup hmember)) hfound
      · cases h
    | arr entries =>
      obtain ⟨items, item, hitems, hitem, hrest⟩ := exists_item_of_valueAt rfl h
      obtain rfl := Except.ok.inj hitems
      exact (ih hrest).imp_left fun hfound ↦
        Json.values_subset (Json.mem_values_of_item hitem) hfound
    | str text =>
      obtain ⟨items, item, hitems, hitem, hrest⟩ := exists_item_of_valueAt rfl h
      obtain rfl := Except.ok.inj hitems
      obtain ⟨c, -, rfl⟩ := List.mem_map.mp hitem
      rcases ih hrest with hfound | hobject
      · obtain rfl := List.mem_singleton.mp hfound
        exact Or.inr rfl
      · exact Or.inr hobject
    | _ =>
      obtain ⟨items, item, hitems, -⟩ := exists_item_of_valueAt rfl h
      cases hitems

theorem mem_values_of_fragmentOf {fragment : List Char}
    (h : fragmentOf document fragment = .ok found) :
    found ∈ document.values ∨ found.isObject = false := by
  unfold fragmentOf at h
  split at h
  · cases h
    exact Or.inl (Json.mem_values_self _)
  · split at h
    · exact mem_values_of_valueAt h
    · cases h
  · cases h

theorem resolve_eq_ok {text : String} (h : resolve documents document text = .ok (target, found)) :
    (target = document ∨ ∃ name, documents.lookup name = some target) ∧
      (found ∈ target.values ∨ found.isObject = false) := by
  have hpart {current : Json} {fragment : List Char}
      (h : (do return (current, ← fragmentOf current fragment)) = .ok (target, found)) :
      target = current ∧ (found ∈ target.values ∨ found.isObject = false) := by
    obtain ⟨part, hpart, hpair⟩ := bind_eq_ok_iff.mp h
    obtain ⟨rfl, rfl⟩ := Prod.mk.inj (Except.ok.inj hpair)
    exact ⟨rfl, mem_values_of_fragmentOf hpart⟩
  simp only [resolve] at h
  split at h
  · exact (hpart h).imp_left Or.inl
  · split at h
    · rename_i resolved hresolved
      obtain ⟨rfl, hfound⟩ := hpart h
      exact ⟨Or.inr ⟨_, hresolved⟩, hfound⟩
    · cases h

/-- All checks made at a place of the documents are made at another one, or with what is no
mapping. -/
theorem Calls.mem_places (h : Calls documents document schema value target found inner)
    (hplace : (document, schema) ∈ places documents start) :
    (target, found) ∈ places documents start ∨ found.isObject = false := by
  cases h with
  | keyword hfound _ =>
    obtain ⟨hdocument, hschema⟩ := Validation.mem_places.mp hplace
    apply hfound.imp_left
    intro hvalues
    exact Validation.mem_places.mpr ⟨hdocument, Json.values_subset hschema hvalues⟩
  | reference _ _ hresolve =>
    obtain ⟨htarget, hfound⟩ := resolve_eq_ok hresolve
    apply hfound.imp_left
    intro hvalues
    refine Validation.mem_places.mpr ⟨?_, hvalues⟩
    rcases htarget with rfl | ⟨name, hdocument⟩
    · exact (Validation.mem_places.mp hplace).1
    · exact Or.inr ⟨name, mem_of_lookup hdocument⟩

theorem Calls.inner_eq_or (h : Calls documents document schema value target found inner) :
    inner = value ∨ inner.depth < value.depth := by
  cases h with
  | keyword _ hinner => exact hinner
  | reference => exact Or.inl rfl

/-- A check with less fuel approximates one with more. -/
theorem check_approximates (documents : Documents) (fuel : Nat) (document schema value : Json) :
    (check documents fuel document schema value).Approximates
      (check documents (fuel + 1) document schema value) := by
  induction fuel generalizing document schema value with
  | zero => exact Verdict.approximates_cutOff _
  | succ fuel ih =>
    rw [check_succ, check_succ]
    exact evaluate_approximates (fun _ _ ↦ rfl) fun _ ↦ ih _ _ _

/-- More fuel changes no verdict about the instance. -/
def Settled (documents : Documents) (start : Json) (fuel : Nat) (value : Json) : Prop :=
  ∀ place ∈ places documents start,
    check documents fuel place.1 place.2 value = check documents (fuel + 1) place.1 place.2 value

def progress (documents : Documents) (start : Json) (fuel : Nat) (value : Json) : Nat :=
  ((places documents start).map fun place ↦
    (check documents fuel place.1 place.2 value).rank).sum

theorem progress_le (documents : Documents) (start : Json) (fuel : Nat) (value : Json) :
    progress documents start fuel value ≤ 2 * (places documents start).length := by
  have hrank : ∀ rank ∈ (places documents start).map fun place ↦
      (check documents fuel place.1 place.2 value).rank, rank ≤ 2 := by
    intro rank hrank
    obtain ⟨place, -, rfl⟩ := List.mem_map.mp hrank
    exact Verdict.rank_le_two _
  have hsum := List.sum_le_card_nsmul _ _ hrank
  rwa [List.length_map, smul_eq_mul, Nat.mul_comm] at hsum

theorem settled_or_progress_lt (documents : Documents) (start : Json) (fuel : Nat) (value : Json) :
    Settled documents start fuel value ∨
      progress documents start fuel value < progress documents start (fuel + 1) value := by
  by_cases hsettled : Settled documents start fuel value
  · exact Or.inl hsettled
  · simp only [Settled, not_forall] at hsettled
    obtain ⟨place, hplace, hdiffer⟩ := hsettled
    refine Or.inr (List.sum_lt_sum _ _ ?_ ⟨place, hplace, ?_⟩)
    · intro other _
      exact (check_approximates documents fuel other.1 other.2 value).rank_le
    · exact (check_approximates documents fuel place.1 place.2 value).rank_lt hdiffer

/-- Verdicts that have settled stay as they are, if those about less deep instances have settled. -/
theorem Settled.succ (h : Settled documents start (fuel + 1) value)
    (hinner : ∀ inner : Json, inner.depth < value.depth →
      Settled documents start (fuel + 1) inner) :
    Settled documents start (fuel + 2) value := by
  intro place hplace
  rw [check_succ, check_succ documents (fuel + 2)]
  apply evaluate_congr (fun _ _ ↦ rfl)
  intro target found inner hcall
  rcases hcall.mem_places hplace with hplace | hobject
  · rcases hcall.inner_eq_or with rfl | hdepth
    · exact h _ hplace
    · exact hinner inner hdepth _ hplace
  · exact check_of_not_object documents documents fuel (fuel + 1) hobject

/-! ## Enough fuel -/

/-- The fuel after which nothing changes. -/
def enoughFuel (documents : Documents) (start value : Json) : Nat :=
  2 * (places documents start).length * (value.depth + 1) + 1

/-- What progresses at every step gets far. -/
theorem exists_settled (documents : Documents) (start : Json) (fuel : Nat) (value : Json) :
    ∃ steps ≤ 2 * (places documents start).length,
      Settled documents start (fuel + steps) value := by
  by_contra hnone
  have hprogress (steps : Nat) (hsteps : steps ≤ 2 * (places documents start).length + 1) :
      steps ≤ progress documents start (fuel + steps) value := by
    induction steps with
    | zero => exact Nat.zero_le _
    | succ steps ih =>
      have hunsettled : ¬Settled documents start (fuel + steps) value :=
        fun hsettled ↦ hnone ⟨steps, by omega, hsettled⟩
      have hlt := (settled_or_progress_lt documents start (fuel + steps) value).resolve_left
        hunsettled
      have hbefore := ih (by omega)
      rw [← Nat.add_assoc]
      omega
  have hfar := hprogress _ (Nat.le_refl _)
  have hbound := progress_le documents start
    (fuel + (2 * (places documents start).length + 1)) value
  omega

/-- By induction on the depth of the instance. -/
theorem settled_of_enoughFuel (hfuel : enoughFuel documents start value ≤ fuel) :
    Settled documents start fuel value := by
  induction hdepth : value.depth using Nat.strong_induction_on generalizing value fuel with
  | _ depth ih =>
    subst hdepth
    have hbelow {fuel : Nat} (hless : 2 * (places documents start).length * value.depth + 1 ≤ fuel)
        (inner : Json) (hinner : inner.depth < value.depth) :
        Settled documents start fuel inner := by
      refine ih inner.depth hinner (Nat.le_trans ?_ hless) rfl
      exact Nat.succ_le_succ (Nat.mul_le_mul_left _ hinner)
    obtain ⟨steps, hsteps, hsettled⟩ := exists_settled documents start
      (2 * (places documents start).length * value.depth + 1) value
    have hbound : 2 * (places documents start).length * value.depth + 1 + steps ≤ fuel := by
      rw [enoughFuel, Nat.mul_succ] at hfuel
      omega
    clear hfuel
    induction fuel, hbound using Nat.le_induction with
    | base => exact hsettled
    | succ fuel hbound hsettled =>
      obtain ⟨less, rfl⟩ : ∃ less, fuel = less + 1 := Nat.exists_eq_add_one.mpr (by omega)
      exact hsettled.succ (hbelow (by omega))

theorem check_eq_of_enoughFuel (hplace : (document, schema) ∈ places documents start)
    (hfuel : enoughFuel documents start value ≤ fuel) :
    check documents fuel document schema value =
      check documents (enoughFuel documents start value) document schema value := by
  induction fuel, hfuel using Nat.le_induction with
  | base => rfl
  | succ fuel hfuel ih => rw [← ih, settled_of_enoughFuel hfuel _ hplace]

/-- The fuel of the validator never runs out before a check has come to its end: with more of it the
verdict is the same. -/
theorem draft7_eq_of_fuelFor_le {documents : Documents} {fuel : Nat} {schema value : Json}
    (hfuel : fuelFor documents schema value ≤ fuel) :
    draft7 documents schema value = (check documents fuel schema schema value).quick := by
  have henough : fuelFor documents schema value = enoughFuel documents schema value := by
    rw [fuelFor, enoughFuel, length_places]
  have hplace : (schema, schema) ∈ places documents schema :=
    mem_places.mpr ⟨Or.inl rfl, Json.mem_values_self _⟩
  rw [henough] at hfuel
  rw [draft7, henough, check_eq_of_enoughFuel hplace hfuel]

end SchemaModules.Validation
