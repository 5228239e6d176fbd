import Mathlib.Data.List.Basic
import Mathlib.Data.List.Forall2
import SchemaModules.Output.Event

/-!
# Steps that may fail

What the outcome of a list of steps says about each of them, and what a computation that reports
events comes to when the events are left aside.
-/

namespace SchemaModules

variable {ε α β : Type}

theorem bind_eq_ok_iff {first : Except ε α} {next : α → Except ε β} {result : β} :
    first >>= next = .ok result ↔ ∃ between, first = .ok between ∧ next between = .ok result := by
  cases first <;> simp [bind, Except.bind]

theorem bind_eq_error_iff {first : Except ε α} {next : α → Except ε β} {fault : ε} :
    first >>= next = .error fault ↔
      first = .error fault ∨ ∃ between, first = .ok between ∧ next between = .error fault := by
  cases first <;> simp [bind, Except.bind]

theorem mapM_eq_ok_iff {step : α → Except ε β} {inputs : List α} {results : List β} :
    inputs.mapM step = .ok results ↔
      List.Forall₂ (fun input result ↦ step input = .ok result) inputs results := by
  induction inputs generalizing results with
  | nil => cases results <;> simp [pure, Except.pure]
  | cons input rest ih =>
    rw [List.mapM_cons, List.forall₂_cons_left_iff, bind_eq_ok_iff]
    constructor
    · rintro ⟨result, hstep, hrest⟩
      obtain ⟨others, hothers, hresults⟩ := bind_eq_ok_iff.mp hrest
      exact ⟨result, others, hstep, ih.mp hothers, (Except.ok.inj hresults).symm⟩
    · rintro ⟨result, others, hstep, hothers, rfl⟩
      exact ⟨result, hstep, bind_eq_ok_iff.mpr ⟨others, ih.mpr hothers, rfl⟩⟩

/-- A list of steps fails with the failure of one of them. -/
theorem exists_step_of_mapM_eq_error {step : α → Except ε β} {inputs : List α} {fault : ε}
    (h : inputs.mapM step = .error fault) : ∃ input ∈ inputs, step input = .error fault := by
  induction inputs with
  | nil => cases h
  | cons input rest ih =>
    rw [List.mapM_cons] at h
    rcases bind_eq_error_iff.mp h with hstep | ⟨result, -, hlater⟩
    · exact ⟨input, List.mem_cons_self, hstep⟩
    · rcases bind_eq_error_iff.mp hlater with hrest | ⟨others, -, hreturn⟩
      · obtain ⟨other, hother, hfails⟩ := ih hrest
        exact ⟨other, List.mem_cons_of_mem _ hother, hfails⟩
      · cases hreturn

theorem exists_result_of_mapM_eq_ok {step : α → Except ε β} {inputs : List α} {results : List β}
    {input : α} (h : inputs.mapM step = .ok results) (hinput : input ∈ inputs) :
    ∃ result ∈ results, step input = .ok result := by
  have hsteps := mapM_eq_ok_iff.mp h
  clear h
  induction hsteps with
  | nil => cases hinput
  | cons hstep _ ih =>
    rcases List.mem_cons.mp hinput with rfl | hrest
    · exact ⟨_, List.mem_cons_self, hstep⟩
    · obtain ⟨result, hresult, hfound⟩ := ih hrest
      exact ⟨result, List.mem_cons_of_mem _ hresult, hfound⟩

theorem exists_input_of_mapM_eq_ok {step : α → Except ε β} {inputs : List α} {results : List β}
    {result : β} (h : inputs.mapM step = .ok results) (hresult : result ∈ results) :
    ∃ input ∈ inputs, step input = .ok result := by
  have hsteps := mapM_eq_ok_iff.mp h
  clear h
  induction hsteps with
  | nil => cases hresult
  | cons hstep _ ih =>
    rcases List.mem_cons.mp hresult with rfl | hrest
    · exact ⟨_, List.mem_cons_self, hstep⟩
    · obtain ⟨input, hinput, hfound⟩ := ih hrest
      exact ⟨input, List.mem_cons_of_mem _ hinput, hfound⟩

/-- A list of steps succeeds if each of them does. -/
theorem exists_mapM_eq_ok_iff {step : α → Except ε β} {inputs : List α} :
    (∃ results, inputs.mapM step = .ok results) ↔
      ∀ input ∈ inputs, ∃ result, step input = .ok result := by
  constructor
  · rintro ⟨results, hresults⟩ input hinput
    obtain ⟨result, -, hresult⟩ := exists_result_of_mapM_eq_ok hresults hinput
    exact ⟨result, hresult⟩
  · intro h
    cases hrun : inputs.mapM step with
    | ok results => exact ⟨results, rfl⟩
    | error fault =>
      obtain ⟨input, hinput, hfails⟩ := exists_step_of_mapM_eq_error hrun
      obtain ⟨result, hresult⟩ := h input hinput
      rw [hresult] at hfails
      cases hfails

theorem mapError_eq_ok_iff {ε' : Type} {result : Except ε α} {change : ε → ε'} {value : α} :
    result.mapError change = .ok value ↔ result = .ok value := by
  cases result <;> simp [Except.mapError]

theorem mapError_eq_error_iff {ε' : Type} {result : Except ε α} {change : ε → ε'} {fault : ε'} :
    result.mapError change = .error fault ↔
      ∃ cause, result = .error cause ∧ change cause = fault := by
  cases result <;> simp [Except.mapError]

namespace Output

/-- A computation that has the same result whatever was reported before. -/
def Yields (computation : Logged α) (result : Except Fault α) : Prop :=
  ∀ events, (computation.run.run events).1 = result

variable {computation : Logged α} {result : Except Fault α}

theorem Yields.outcome (h : Yields computation result) : computation.outcome.2 = result := h []

theorem yields_pure (value : α) : Yields (pure value) (.ok value) := fun _ ↦ rfl

theorem yields_mk (result : Except Fault α) : Yields (ExceptT.mk (pure result)) result :=
  fun _ ↦ rfl

theorem run_bind (computation : Logged α) (next : α → Logged β) (events : List Event) :
    (computation >>= next).run.run events =
      match computation.run.run events with
      | (.ok value, later) => (next value).run.run later
      | (.error fault, later) => (.error fault, later) := by
  rw [ExceptT.run_bind, StateT.run_bind]
  rcases computation.run.run events with ⟨fault | value, later⟩ <;> rfl

theorem Yields.bind {next : α → Logged β} {follow : α → Except Fault β}
    (h : Yields computation result) (hnext : ∀ value, Yields (next value) (follow value)) :
    Yields (computation >>= next) (result >>= follow) := by
  intro events
  obtain rfl : (computation.run.run events).1 = result := h events
  rw [run_bind]
  rcases computation.run.run events with ⟨fault | value, later⟩
  · rfl
  · exact hnext value later

theorem Yields.reported (h : Yields computation result) (event : Event) :
    Yields (report event >>= fun _ ↦ computation) result :=
  fun events ↦ h (events ++ [event])

end Output

end SchemaModules
