import SchemaModules.Registry.Validation

/-!
# Checks that are cut off

A check without fuel ends with the fault of a circular schema. What it has found up to then stands:
with more fuel it can only go on. One verdict approximates another when it is the same, or when it
has been cut off before it found anything that the other did not find. Every way of putting checks
together keeps this order, since a fault ends whatever looks at the whole of a verdict, and a
violation that has been found is not taken back.
-/

namespace SchemaModules

/-- An answer that is the same as another one, or that was cut off. -/
def ApproximatesAnswer {α : Type} (first second : Except Fault α) : Prop :=
  first = .error .circularSchema ∨ first = second

namespace ApproximatesAnswer

variable {α β : Type} {first second : Except Fault α}

theorem refl (answer : Except Fault α) : ApproximatesAnswer answer answer := Or.inr rfl

theorem bind {firstNext secondNext : α → Except Fault β} (h : ApproximatesAnswer first second)
    (hnext : ∀ a, first = .ok a → ApproximatesAnswer (firstNext a) (secondNext a)) :
    ApproximatesAnswer (first >>= firstNext) (second >>= secondNext) := by
  rcases h with rfl | rfl
  · exact Or.inl rfl
  · cases first with
    | error fault => exact .refl _
    | ok a => exact hnext a rfl

end ApproximatesAnswer

namespace Verdict

/-- A verdict that is the same as another one, or that was cut off and has no violation which the
other has not. -/
def Approximates (first second : Verdict) : Prop :=
  first = second ∨
    first.failure = some .circularSchema ∧ (first.violated = true → second.violated = true)

variable {α : Type} {first second : Verdict}

@[refl]
theorem Approximates.refl (verdict : Verdict) : verdict.Approximates verdict := Or.inl rfl

theorem Approximates.antisymm (h : first.Approximates second) (hback : second.Approximates first) :
    first = second := by
  rcases h with rfl | ⟨hfirst, hviolated⟩
  · rfl
  · rcases hback with rfl | ⟨hsecond, hback⟩
    · rfl
    · obtain ⟨firstViolated, firstFailure⟩ := first
      obtain ⟨secondViolated, secondFailure⟩ := second
      obtain rfl : firstFailure = some .circularSchema := hfirst
      obtain rfl : secondFailure = some .circularSchema := hsecond
      have hsame : firstViolated = secondViolated := Bool.eq_iff_iff.mpr ⟨hviolated, hback⟩
      rw [hsame]

/-- A check without fuel has found nothing. -/
theorem approximates_cutOff (verdict : Verdict) :
    (failed .circularSchema).Approximates verdict :=
  Or.inr ⟨rfl, fun hviolated ↦ nomatch hviolated⟩

theorem Approximates.violated (h : first.Approximates second) (hviolated : first.violated = true) :
    second.violated = true := by
  rcases h with rfl | ⟨_, hkept⟩
  · exact hviolated
  · exact hkept hviolated

/-! ## Checks put together -/

theorem violated_andThen {next : Unit → Verdict} (h : first.violated = true) :
    (first.andThen next).violated = true := by
  unfold andThen
  split
  · exact h
  · simp [h]

theorem Approximates.andThen {firstNext secondNext : Unit → Verdict}
    (h : first.Approximates second) (hnext : (firstNext ()).Approximates (secondNext ())) :
    (first.andThen firstNext).Approximates (second.andThen secondNext) := by
  rcases h with rfl | ⟨hfailure, hviolated⟩
  · unfold Verdict.andThen
    split
    · exact .refl first
    · rcases hnext with heq | ⟨hfailure, hviolated⟩
      · rw [heq]
      · refine Or.inr ⟨hfailure, ?_⟩
        rw [Bool.or_eq_true, Bool.or_eq_true]
        exact Or.imp_right hviolated
  · -- the first check was cut off, so the second one is not made
    have hcut : first.andThen firstNext = first := by simp [Verdict.andThen, hfailure]
    rw [hcut]
    exact Or.inr ⟨hfailure, fun h ↦ violated_andThen (hviolated h)⟩

theorem approximates_all {firstCheck secondCheck : α → Verdict} {list : List α}
    (h : ∀ a ∈ list, (firstCheck a).Approximates (secondCheck a)) :
    (all firstCheck list).Approximates (all secondCheck list) := by
  induction list with
  | nil => rfl
  | cons a rest ih =>
    obtain ⟨hfirst, hrest⟩ := List.forall_mem_cons.mp h
    exact hfirst.andThen (ih hrest)

theorem Approximates.quick (h : first.Approximates second) :
    ApproximatesAnswer first.quick second.quick := by
  rcases h with rfl | ⟨hfailure, hviolated⟩
  · exact .refl _
  · obtain ⟨violated, failure⟩ := first
    obtain rfl : failure = some .circularSchema := hfailure
    cases violated with
    | true =>
      have hsecond : second.violated = true := hviolated rfl
      exact Or.inr (by simp [Verdict.quick, hsecond])
    | false => exact Or.inl rfl

theorem Approximates.thorough (h : first.Approximates second) :
    ApproximatesAnswer first.thorough second.thorough := by
  rcases h with rfl | ⟨hfailure, _⟩
  · exact .refl _
  · exact Or.inl (by simp [Verdict.thorough, hfailure])

theorem approximates_ofExcept {first second : Except Fault Bool}
    (h : ApproximatesAnswer first second) : (ofExcept first).Approximates (ofExcept second) := by
  rcases h with rfl | rfl
  · exact approximates_cutOff _
  · rfl

/-! ## Ranks -/

/-- How much of a check has been done: nothing was found before it was cut off, a violation was
found, or it came to its end. -/
def rank : Verdict → Nat
  | ⟨false, some .circularSchema⟩ => 0
  | ⟨true, some .circularSchema⟩ => 1
  | _ => 2

theorem rank_le_two (verdict : Verdict) : verdict.rank ≤ 2 := by
  unfold rank
  split <;> omega

/-- What comes closer to the whole verdict gains rank. -/
theorem Approximates.rank_lt (h : first.Approximates second) (hne : first ≠ second) :
    first.rank < second.rank := by
  obtain ⟨hfailure, hviolated⟩ := h.resolve_left hne
  obtain ⟨violated, failure⟩ := first
  obtain rfl : failure = some .circularSchema := hfailure
  cases violated with
  | false =>
    change 0 < second.rank
    unfold rank
    split
    · exact absurd rfl hne
    · omega
    · omega
  | true =>
    change 1 < second.rank
    unfold rank
    split
    · cases hviolated rfl
    · exact absurd rfl hne
    · omega

theorem Approximates.rank_le (h : first.Approximates second) : first.rank ≤ second.rank := by
  by_cases hne : first = second
  · exact hne ▸ Nat.le_refl _
  · exact Nat.le_of_lt (h.rank_lt hne)

end Verdict

end SchemaModules
