import SchemaModules.Proofs.ModulePaths
import SchemaModules.Target.PythonImport
import SchemaModules.Target.TypeScriptImport

/-!
# Joined paths

Parts that hold no separator are found again in the text that joins them. Two paths agree on their
common beginning and part behind it.
-/

namespace SchemaModules

open Text

variable {c : Char} {first : String} {parts down : List String}

/-! ## Joined parts -/

/-- Parts without the separator are found again. -/
theorem splitParts_join (hne : parts ≠ []) (hparts : ∀ part ∈ parts, c ∉ part.toList) :
    splitParts c (join (String.singleton c) parts) = parts := by
  have hchars : ∀ part ∈ parts.map String.toList, c ∉ part := by simpa using hparts
  have hsome : parts.map String.toList ≠ [] := by simpa using hne
  rw [splitParts, join, String.toList_intercalate, splitAt_eq_splitOn, String.toList_singleton,
    List.splitOn_intercalate c hchars hsome]
  simp [Function.comp_def]

theorem toList_join_cons (separator first : String) (rest : List String) :
    ∃ others, (join separator (first :: rest)).toList = first.toList ++ others := by
  cases rest with
  | nil => exact ⟨[], by simp [join]⟩
  | cons next rest =>
    refine ⟨separator.toList ++ (join separator (next :: rest)).toList, ?_⟩
    rw [join, String.intercalate_cons_cons]
    simp [join]

theorem head?_join_cons (separator : String) (rest : List String) (h : first ≠ "") :
    (join separator (first :: rest)).toList.head? = first.toList.head? := by
  obtain ⟨others, hothers⟩ := toList_join_cons separator first rest
  obtain ⟨c, tail, hfirst⟩ := List.exists_cons_of_ne_nil (l := first.toList) (by simpa using h)
  rw [hothers, hfirst]
  rfl

/-- Parts that are joined before the others need not be. -/
theorem join_concat_join {separator : String} (hne : down ≠ []) (parts : List String) :
    join separator (parts ++ [join separator down]) = join separator (parts ++ down) := by
  unfold join
  induction parts with
  | nil => simp
  | cons part parts ih =>
    have hsome : parts ++ down ≠ [] := List.append_ne_nil_of_right_ne_nil _ hne
    rw [List.cons_append, List.cons_append, String.intercalate_cons_of_ne_nil (by simp), ih,
      String.intercalate_cons_of_ne_nil hsome]

/-! ## Common beginnings -/

/-- Two paths part behind their common beginning. -/
theorem exists_append_of_commonLength (source target : List String) :
    ∃ shared up down, source = shared ++ up ∧ target = shared ++ down ∧
      Python.commonLength source target = shared.length := by
  induction source generalizing target with
  | nil => exact ⟨[], [], target, rfl, rfl, by cases target <;> rfl⟩
  | cons segment source ih =>
    cases target with
    | nil => exact ⟨[], _, [], rfl, rfl, rfl⟩
    | cons other target =>
      rw [Python.commonLength]
      split
      · next hsame =>
        subst hsame
        obtain ⟨shared, up, down, rfl, rfl, hlength⟩ := ih target
        exact ⟨segment :: shared, up, down, rfl, rfl, by rw [hlength, List.length_cons]⟩
      · exact ⟨[], _, _, rfl, rfl, rfl⟩

theorem TypeScript.sharedLength_eq_commonLength (source target : List String) :
    sharedLength source target = Python.commonLength source target := by
  induction source generalizing target with
  | nil => cases target <;> rfl
  | cons segment source ih =>
    cases target with
    | nil => rfl
    | cons other target => rw [sharedLength, Python.commonLength, ih]

end SchemaModules
