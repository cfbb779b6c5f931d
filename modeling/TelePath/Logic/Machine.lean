import Mathlib.Order.Basic
import Mathlib.Tactic.TypeStar

/-!
Executable transition systems and what holds along their runs.

A machine is a function that takes a state and one input, for instance which
thread moves and what it does, and returns the next state, or nothing when the
input is not possible there.  A run is a list of inputs.
-/

namespace TelePath.Logic.Machine

variable {σ ι : Type*}

/-- The state after all `inputs`, if every one of them is possible. -/
def run (step : σ → ι → Option σ) : σ → List ι → Option σ
  | state, [] => some state
  | state, input :: inputs => (step state input).bind fun next => run step next inputs

/-- Every step of the run on `inputs` meets `condition` in the state in which
it is taken. -/
def Meets (step : σ → ι → Option σ) (condition : σ → ι → Prop) : σ → List ι → Prop
  | _, [] => True
  | state, input :: inputs =>
      condition state input ∧ ∀ next ∈ step state input, Meets step condition next inputs

variable {step : σ → ι → Option σ}

instance decidableMeets (condition : σ → ι → Prop)
    [∀ state input, Decidable (condition state input)] :
    ∀ state inputs, Decidable (Meets step condition state inputs)
  | _, [] => isTrue trivial
  | state, input :: inputs =>
      have : Decidable (∀ next ∈ step state input, Meets step condition next inputs) :=
        match step state input with
        | none => isTrue (by simp)
        | some next =>
            have := decidableMeets condition next inputs
            decidable_of_iff (Meets step condition next inputs) (by simp)
      inferInstanceAs (Decidable (_ ∧ _))

@[simp] theorem run_nil (state : σ) : run step state [] = some state := rfl

theorem run_cons {state final : σ} {input : ι} {inputs : List ι} :
    run step state (input :: inputs) = some final ↔
      ∃ next, step state input = some next ∧ run step next inputs = some final :=
  Option.bind_eq_some_iff

/-- What each step that meets the condition preserves holds after every run
whose steps meet it. -/
theorem invariant_of_meets {condition : σ → ι → Prop} {invariant : σ → Prop}
    (hstep : ∀ state input next, invariant state → condition state input →
      step state input = some next → invariant next)
    {state final : σ} {inputs : List ι} (hstate : invariant state)
    (hmeets : Meets step condition state inputs) (hrun : run step state inputs = some final) :
    invariant final := by
  induction inputs generalizing state with
  | nil =>
      cases hrun
      exact hstate
  | cons input inputs ih =>
      obtain ⟨next, hnext, hrest⟩ := run_cons.mp hrun
      exact ih (hstep state input next hstate hmeets.1 hnext) (hmeets.2 next hnext) hrest

/-- What every step preserves holds after every run. -/
theorem invariant_of_run {invariant : σ → Prop}
    (hstep : ∀ state input next, invariant state → step state input = some next →
      invariant next)
    {state final : σ} {inputs : List ι} (hstate : invariant state)
    (hrun : run step state inputs = some final) : invariant final := by
  induction inputs generalizing state with
  | nil =>
      cases hrun
      exact hstate
  | cons input inputs ih =>
      obtain ⟨next, hnext, hrest⟩ := run_cons.mp hrun
      exact ih (hstep state input next hstate hnext) hrest

end TelePath.Logic.Machine
