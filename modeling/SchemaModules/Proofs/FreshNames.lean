import Mathlib.Data.List.Nodup
import Mathlib.Data.List.Perm.Subperm
import SchemaModules.Target.PythonHint

/-!
# Fresh names

A name that is taken gets the least number from two on that makes it new. Numbered names of one
stem are distinct, so among one more of them than there are taken names some name is free.
-/

namespace SchemaModules.Python

variable {taken : List String} {wanted : String}

theorem numbered_injective (wanted : String) :
    Function.Injective fun number : Nat ↦ wanted ++ toString number := by
  intro first second h
  have hnumbers : toString first = toString second := (String.append_right_inj wanted).mp h
  have hdigits : Nat.toDigits 10 first = Nat.toDigits 10 second := by
    simpa only [Nat.toString_eq_repr, Nat.toList_repr] using congrArg String.toList hnumbers
  simpa using congrArg (Nat.ofDigitChars 10 · 0) hdigits

/-- The search passes over taken names only, and stops early at a free one only. -/
theorem numberedName_eq (taken : List String) (wanted : String) (tries number : Nat) :
    ∃ found, number ≤ found ∧ found ≤ number + tries ∧
      numberedName taken wanted tries number = wanted ++ toString found ∧
      (∀ passed, number ≤ passed → passed < found → wanted ++ toString passed ∈ taken) ∧
      (found < number + tries → wanted ++ toString found ∉ taken) := by
  induction tries generalizing number with
  | zero => exact ⟨number, Nat.le_refl _, Nat.le_refl _, rfl, by omega, by omega⟩
  | succ tries ih =>
    rw [numberedName]
    by_cases htaken : wanted ++ toString number ∈ taken
    · obtain ⟨found, hlower, hupper, hname, hpassed, hfree⟩ := ih (number + 1)
      refine ⟨found, by omega, by omega, ?_, ?_, ?_⟩
      · rw [if_pos (List.contains_iff_mem.mpr htaken), hname]
      · intro passed hfrom hbefore
        rcases Nat.eq_or_lt_of_le hfrom with rfl | hlater
        · exact htaken
        · exact hpassed passed hlater hbefore
      · intro hearly
        exact hfree (by omega)
    · have hcontains : ¬taken.contains (wanted ++ toString number) = true :=
        fun hcontains ↦ htaken (List.contains_iff_mem.mp hcontains)
      exact ⟨number, Nat.le_refl _, by omega, if_neg hcontains, by omega, fun _ ↦ htaken⟩

/-- Of more numbered names than there are taken names, not all are taken. -/
theorem exists_numbered_notMem (taken : List String) (wanted : String) (number : Nat) :
    ∃ found, number ≤ found ∧ found ≤ number + taken.length ∧
      wanted ++ toString found ∉ taken := by
  by_contra hnone
  push Not at hnone
  let candidates := (List.range (taken.length + 1)).map fun step ↦
    wanted ++ toString (number + step)
  have hnodup : candidates.Nodup := by
    apply List.Nodup.map _ List.nodup_range
    intro first second h
    have := numbered_injective wanted h
    omega
  have hsubset : candidates ⊆ taken := by
    intro candidate hcandidate
    obtain ⟨step, hstep, rfl⟩ := List.mem_map.mp hcandidate
    have := List.mem_range.mp hstep
    exact hnone _ (by omega) (by omega)
  have hlength := (List.subperm_of_subset hnodup hsubset).length_le
  simp only [candidates, List.length_map, List.length_range] at hlength
  omega

/-- The wanted name if it is free, else the one with the least number that makes it free. -/
theorem freshName_spec (taken : List String) (wanted : String) :
    freshName taken wanted ∉ taken ∧
      (wanted ∉ taken → freshName taken wanted = wanted) ∧
      (wanted ∈ taken → ∃ number, 2 ≤ number ∧
        freshName taken wanted = wanted ++ toString number ∧
        ∀ passed, 2 ≤ passed → passed < number → wanted ++ toString passed ∈ taken) := by
  by_cases htaken : wanted ∈ taken
  · obtain ⟨found, hlower, hupper, hname, hpassed, hfree⟩ :=
      numberedName_eq taken wanted taken.length 2
    have hfresh : freshName taken wanted = wanted ++ toString found := by
      simpa [freshName, htaken] using hname
    have hnew : wanted ++ toString found ∉ taken := by
      rcases Nat.eq_or_lt_of_le hupper with hlast | hearly
      · obtain ⟨free, hfrom, hto, hnotMem⟩ := exists_numbered_notMem taken wanted 2
        have : found ≤ free := by
          by_contra hbefore
          exact hnotMem (hpassed free hfrom (by omega))
        obtain rfl : free = found := by omega
        exact hnotMem
      · exact hfree hearly
    rw [hfresh]
    exact ⟨hnew, fun hfree ↦ absurd htaken hfree, fun _ ↦ ⟨found, hlower, rfl, hpassed⟩⟩
  · have hfresh : freshName taken wanted = wanted := by simp [freshName, htaken]
    rw [hfresh]
    exact ⟨htaken, fun _ ↦ rfl, fun hmem ↦ absurd hmem htaken⟩

end SchemaModules.Python
