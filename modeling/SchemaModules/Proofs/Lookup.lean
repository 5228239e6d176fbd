import Mathlib.Data.List.Nodup

/-!
# Look-up in lists of pairs

Members of objects, documents of a registry and definitions of a package are all kept as pairs in
order. The first pair of a key is the one that counts.
-/

namespace SchemaModules

variable {κ α β : Type} [BEq κ] [LawfulBEq κ] {key : κ} {value : α} {pairs : List (κ × α)}

theorem mem_of_lookup (h : pairs.lookup key = some value) : (key, value) ∈ pairs := by
  obtain ⟨before, after, happend, _⟩ := List.lookup_eq_some_iff.mp h
  simp [happend]

theorem exists_lookup_eq_some (h : key ∈ pairs.map Prod.fst) :
    ∃ value, pairs.lookup key = some value := by
  obtain ⟨⟨_, value⟩, hmem, rfl⟩ := List.mem_map.mp h
  cases hlookup : pairs.lookup _ with
  | some found => exact ⟨found, rfl⟩
  | none => simpa using List.lookup_eq_none_iff.mp hlookup _ hmem

/-- Where no key comes twice, every pair counts. -/
theorem lookup_eq_some_of_mem (hnodup : (pairs.map Prod.fst).Nodup) (h : (key, value) ∈ pairs) :
    pairs.lookup key = some value := by
  obtain ⟨found, hfound⟩ := exists_lookup_eq_some (List.mem_map_of_mem (f := Prod.fst) h)
  rw [hfound]
  obtain ⟨-, rfl⟩ := Prod.mk.inj (List.inj_on_of_nodup_map hnodup (mem_of_lookup hfound) h rfl)
  rfl

theorem lookup_eq_none_iff_notMem : pairs.lookup key = none ↔ key ∉ pairs.map Prod.fst := by
  rw [List.lookup_eq_none_iff]
  simp only [List.mem_map, not_exists, not_and, bne_iff_ne, ne_eq]
  exact ⟨fun h pair hpair hsame ↦ h pair hpair hsame.symm,
    fun h pair hpair hsame ↦ h pair hpair hsame.symm⟩

theorem lookup_cons_eq_ite [DecidableEq κ] (key name : κ) (value : α) (pairs : List (κ × α)) :
    ((name, value) :: pairs).lookup key = if key = name then some value else pairs.lookup key := by
  rw [List.lookup_cons]
  by_cases hsame : key = name
  · simp [hsame]
  · simp [beq_eq_false_iff_ne.mpr hsame, hsame]

/-- Look-up after keeping some keys and changing the values. -/
theorem lookup_map_filter (keep : κ → Bool) (change : κ → α → β) (key : κ)
    (pairs : List (κ × α)) :
    ((pairs.filter fun pair ↦ keep pair.1).map fun pair ↦ (pair.1, change pair.1 pair.2)).lookup key
      = if keep key then (pairs.lookup key).map (change key) else none := by
  induction pairs with
  | nil => simp
  | cons pair rest ih =>
    obtain ⟨name, value⟩ := pair
    by_cases hsame : key = name
    · subst hsame
      by_cases hkeep : keep key
      · simp [hkeep]
      · rw [List.filter_cons_of_neg (by simpa using hkeep), ih, if_neg hkeep, if_neg hkeep]
    · have hdiffer : (key == name) = false := beq_eq_false_iff_ne.mpr hsame
      by_cases hkeep : keep name <;> simp [hkeep, List.lookup_cons, hdiffer, ih]

end SchemaModules
