import Mathlib.Data.List.Basic
import Mathlib.Logic.Function.Basic

/-!
Linearizability of concurrent objects.

Threads call operations of an object and get results back.  A history lists these
calls and returns in the order in which they happen.  It is linearizable if every
operation that has returned, and possibly some that have not, took effect at one
instant between its call and its return, such that the operations done one after
the other at these instants give the results that were returned.
-/

namespace TelePath.Logic

/-- An object for one thread at a time.  `apply` has no result where the operation
must not be done. -/
structure Object (σ ο ρ : Type) where
  start : σ
  apply : σ → ο → Option (σ × ρ)

namespace Linearizable

variable {θ σ ο ρ : Type}

/-- What is seen of the operations from outside. -/
inductive Event (θ ο ρ : Type) where
  | call (thread : θ) (operation : ο)
  | returned (thread : θ) (result : ρ)
  deriving DecidableEq, Repr

/-- A visible event, or the effect of an operation. -/
inductive Instant (θ ο ρ : Type) where
  | visible (event : Event θ ο ρ)
  | effect (thread : θ) (operation : ο) (result : ρ)
  deriving DecidableEq, Repr

def Instant.event? : Instant θ ο ρ → Option (Event θ ο ρ)
  | .visible event => some event
  | .effect .. => none

/-- The calls and returns among the instants. -/
def history (instants : List (Instant θ ο ρ)) : List (Event θ ο ρ) :=
  instants.filterMap Instant.event?

/-- How far a thread is with its operation. -/
inductive Stage (ο ρ : Type) where
  | idle
  | called (operation : ο)
  | done (result : ρ)
  deriving DecidableEq, Repr

variable [DecidableEq θ]

/-- The runs of `object` in which every operation takes effect at one instant:
the instants so far, the object's value and the stage of each thread. -/
inductive Runs (object : Object σ ο ρ) : List (Instant θ ο ρ) → σ → (θ → Stage ο ρ) → Prop
  | start : Runs object [] object.start fun _ => .idle
  | call {instants value stages} (thread : θ) (operation : ο) :
      Runs object instants value stages → stages thread = .idle →
      Runs object (instants ++ [.visible (.call thread operation)]) value
        (Function.update stages thread (.called operation))
  | effect {instants value stages next} {thread : θ} {operation : ο} {result : ρ} :
      Runs object instants value stages → stages thread = .called operation →
      object.apply value operation = some (next, result) →
      Runs object (instants ++ [.effect thread operation result]) next
        (Function.update stages thread (.done result))
  | returned {instants value stages} {thread : θ} {result : ρ} :
      Runs object instants value stages → stages thread = .done result →
      Runs object (instants ++ [.visible (.returned thread result)]) value
        (Function.update stages thread .idle)

omit [DecidableEq θ] in
@[simp] theorem history_snoc_visible (instants : List (Instant θ ο ρ)) (event : Event θ ο ρ) :
    history (instants ++ [.visible event]) = history instants ++ [event] := by
  simp [history, Instant.event?]

omit [DecidableEq θ] in
@[simp] theorem history_snoc_effect (instants : List (Instant θ ο ρ)) (thread : θ)
    (operation : ο) (result : ρ) :
    history (instants ++ [.effect thread operation result]) = history instants := by
  simp [history, Instant.event?]

/-- What has happened up to some instant of a run is a run. -/
theorem Runs.take {object : Object σ ο ρ} {instants : List (Instant θ ο ρ)} {value : σ}
    {stages : θ → Stage ο ρ} (h : Runs object instants value stages) (count : Nat) :
    ∃ value stages, Runs object (instants.take count) value stages := by
  have hsnoc : ∀ {instants : List (Instant θ ο ρ)} {last value stages},
      Runs object (instants ++ [last]) value stages →
      (∃ value stages, Runs object (instants.take count) value stages) →
      ∃ value stages, Runs object ((instants ++ [last]).take count) value stages := by
    intro instants last value stages hlast hrest
    by_cases hshort : count ≤ instants.length
    · rw [List.take_append_of_le_length hshort]
      exact hrest
    · rw [List.take_of_length_le (by simp; omega)]
      exact ⟨value, stages, hlast⟩
  induction h with
  | start => exact ⟨object.start, fun _ => .idle, by rw [List.take_nil]; exact .start⟩
  | call thread operation hruns hidle ih => exact hsnoc (.call thread operation hruns hidle) ih
  | effect hruns hcalled happly ih => exact hsnoc (.effect hruns hcalled happly) ih
  | returned hruns hdone ih => exact hsnoc (.returned hruns hdone) ih

end Linearizable

end TelePath.Logic
