import Mathlib.Algebra.BigOperators.Fin
import Mathlib.Algebra.Order.BigOperators.Group.Finset
import TelePath.Buffer.FlushTasks

/-!
Background tasks are not starved: while one waits, the workers take a bounded number of
foreground tasks.
-/

namespace TelePath.FlushScheduler

open Logic

variable {workers : Nat}

def Event.isForegroundTakeBy (worker : Fin workers) : Event workers → Bool
  | .taken other task => other = worker && !task.cleanerOwned
  | _ => false

def foregroundTakenBy (worker : Fin workers) (log : List (Event workers)) : Nat :=
  log.countP (Event.isForegroundTakeBy worker)

theorem sum_foregroundTakenBy (log : List (Event workers)) :
    ∑ worker, foregroundTakenBy worker log = (takenOf false log).length := by
  induction log with
  | nil => simp [foregroundTakenBy, takenOf]
  | cons event log ih =>
      have hevent : ∑ worker, (if event.isForegroundTakeBy worker then 1 else 0) =
          (takenOf false [event]).length := by
        cases event with
        | taken worker task =>
            cases hclass : task.cleanerOwned <;>
              simp [Event.isForegroundTakeBy, takenOf, hclass]
        | _ => simp [Event.isForegroundTakeBy, takenOf]
      have hlog : takenOf false (event :: log) = takenOf false [event] ++ takenOf false log :=
        takenOf_append false [event] log
      simp only [foregroundTakenBy, List.countP_cons, Finset.sum_add_distrib] at ih ⊢
      rw [ih, hevent, hlog, List.length_append, Nat.add_comm]

/-- What a step may do to the counters: nothing is taken, or a background task, or a
foreground task by a worker whose burst is below the limit or that has no other choice. -/
inductive Takes (config : Config) (state next : State workers) : Prop where
  | nothing (events : List (Event workers))
      (log : next.log = state.log ++ events)
      (taken : ∀ worker task, .taken worker task ∉ events)
      (bursts : next.consecutiveForegroundFlushes = state.consecutiveForegroundFlushes)
  | background (worker : Fin workers) (task : Task) (rest : List Task)
      (first : state.background = task :: rest)
      (log : next.log = state.log ++ [.taken worker task])
  | foreground (worker : Fin workers) (task : Task) (rest : List Task)
      (first : state.foreground = task :: rest)
      (log : next.log = state.log ++ [.taken worker task])
      (burst : state.background ≠ [] →
        state.consecutiveForegroundFlushes worker < config.foregroundBurstLimit)
      (bursts : next.consecutiveForegroundFlushes =
        Function.update state.consecutiveForegroundFlushes worker
          (state.consecutiveForegroundFlushes worker + 1))

namespace Takes

variable {config : Config} {state next : State workers} {worker : Fin workers}

theorem silent (hlog : next.log = state.log)
    (hbursts : next.consecutiveForegroundFlushes = state.consecutiveForegroundFlushes) :
    Takes config state next :=
  .nothing [] (by simp [hlog]) (by simp) hbursts

theorem takeBackground (batch : List Task) :
    Takes config state (state.takeBackground worker batch) := by
  unfold State.takeBackground
  split
  · exact .silent rfl rfl
  · rename_i task rest hfirst
    exact .background worker task rest hfirst rfl

theorem pick (batch : List Task) : Takes config state (state.pick config worker batch) := by
  unfold State.pick
  split
  · split
    · exact .takeBackground batch
    · rename_i hserve
      split
      · unfold State.takeForeground
        split
        · exact .silent rfl rfl
        · rename_i task rest hfirst
          refine .foreground worker task rest hfirst rfl (fun hwaiting => ?_) rfl
          simpa [State.shouldServeBackground, hwaiting] using hserve
      · split
        · exact .silent rfl rfl
        · exact .takeBackground batch
  · exact .silent rfl rfl

theorem work (hstep : state.work config worker = some next) : Takes config state next := by
  unfold State.work at hstep
  split at hstep
  · split at hstep
    · cases hstep
      unfold State.takeNextBatch
      split
      · split <;> exact .silent rfl rfl
      · exact .silent rfl rfl
    · cases hstep
  · cases hstep
  · cases hstep
  · cases hstep
    exact .pick _
  · cases hstep
    exact .nothing _ rfl (by simp) rfl
  · cases hstep
    exact .nothing _ rfl (by simp) rfl
  · cases hstep
    exact .nothing _ rfl (by simp) rfl
  · cases hstep
    exact .silent rfl rfl
  · cases hstep
    exact .nothing _ rfl (by simp) rfl

theorem wake_log (state : State workers) (worker : Fin workers) :
    (state.wake worker).log = state.log ∧
      (state.wake worker).consecutiveForegroundFlushes = state.consecutiveForegroundFlushes := by
  unfold State.wake
  split <;> exact ⟨rfl, rfl⟩

theorem step {move : Move workers} (hstep : FlushScheduler.step config state move = some next) :
    Takes config state next := by
  cases move with
  | enqueue cleanerOwned sleeper =>
      simp only [FlushScheduler.step, Option.ite_none_right_eq_some, Option.some.injEq] at hstep
      obtain ⟨-, rfl⟩ := hstep
      unfold State.enqueue
      split
      · exact .nothing _ rfl (by simp) rfl
      · cases sleeper with
        | none => exact .nothing _ rfl (by simp) rfl
        | some sleeper =>
            obtain ⟨hlog, hbursts⟩ := wake_log (state.push cleanerOwned) sleeper
            exact .nothing _ hlog (by simp) hbursts
  | work worker => exact .work hstep
  | wake worker =>
      cases hstep
      exact .silent (wake_log state worker).1 (wake_log state worker).2
  | shutDown =>
      simp only [FlushScheduler.step, State.shutDown] at hstep
      split at hstep
      · split at hstep
        · cases hstep
          exact .nothing _ rfl (by simp) rfl
        · cases hstep
      · cases hstep
        exact .nothing _ rfl (by simp) rfl
      · cases hstep
  | close =>
      simp only [FlushScheduler.step, State.close] at hstep
      split at hstep
      · cases hstep
        exact .silent rfl rfl
      · split at hstep
        · split at hstep
          · cases hstep
            exact .silent rfl rfl
          · cases hstep
        · split at hstep
          · cases hstep
            exact .nothing _ rfl (by simp) rfl
          · cases hstep
      · cases hstep

end Takes

/-- Since the start of a stretch in which no background task was taken, a worker has taken no
more foreground tasks than its burst says, nor more than the limit. -/
structure Bounded (config : Config) (start state : State workers) : Prop where
  tracks : Tracks state
  monotone : (takenOf true start.log).length ≤ (takenOf true state.log).length
  bound : (takenOf true state.log).length = (takenOf true start.log).length → ∀ worker,
    foregroundTakenBy worker state.log ≤
        foregroundTakenBy worker start.log + (state.consecutiveForegroundFlushes worker).toNat ∧
      foregroundTakenBy worker state.log ≤
        foregroundTakenBy worker start.log + config.foregroundBurstLimit.toNat

namespace Bounded

variable {config : Config} {start state next : State workers}

theorem step (h : Bounded config start state) {move : Move workers}
    (hwaiting : state.background ≠ [])
    (hstep : FlushScheduler.step config state move = some next) : Bounded config start next := by
  have htracks := h.tracks.step hstep
  have hmonotone := h.monotone
  cases Takes.step hstep with
  | nothing events hlog htaken hbursts =>
      have hnone : ∀ cleanerOwned, takenOf cleanerOwned events = [] := by
        intro cleanerOwned
        refine List.filterMap_eq_nil_iff.mpr fun event hevent => ?_
        cases event with
        | taken worker task => exact absurd hevent (htaken worker task)
        | _ => rfl
      have hcount : ∀ worker, foregroundTakenBy worker events = 0 := by
        intro worker
        refine List.countP_eq_zero.mpr fun event hevent => ?_
        cases event with
        | taken other task => exact absurd hevent (htaken other task)
        | _ => simp [Event.isForegroundTakeBy]
      refine ⟨htracks, by simpa [hlog, hnone] using hmonotone, fun hsame worker => ?_⟩
      have hbound := h.bound (by simpa [hlog, hnone] using hsame) worker
      have hsplit : foregroundTakenBy worker next.log = foregroundTakenBy worker state.log := by
        simpa [hlog, foregroundTakenBy] using hcount worker
      rwa [hsplit, hbursts]
  | background worker task rest hfirst hlog =>
      -- The stretch is over.
      have hclass : task.cleanerOwned = true :=
        (h.tracks.queued true task (by simp [State.queue, hfirst])).1
      have hmore : (takenOf true next.log).length = (takenOf true state.log).length + 1 := by
        simp [hlog, takenOf, hclass]
      exact ⟨htracks, by omega, fun hsame => by omega⟩
  | foreground worker task rest hfirst hlog hburst hbursts =>
      have hclass : task.cleanerOwned = false :=
        (h.tracks.queued false task (by simp [State.queue, hfirst])).1
      have hsame : takenOf true next.log = takenOf true state.log := by
        simp [hlog, takenOf, hclass]
      refine ⟨htracks, by rwa [hsame], fun hlength other => ?_⟩
      obtain ⟨hown, hlimit⟩ := h.bound (by rwa [hsame] at hlength) other
      rw [hbursts]
      by_cases heq : other = worker
      · subst heq
        have hcount : foregroundTakenBy other next.log = foregroundTakenBy other state.log + 1 := by
          simp [hlog, foregroundTakenBy, Event.isForegroundTakeBy, hclass]
        -- Below the limit the counter does not wrap.
        have hless := BitVec.lt_def.mp (hburst hwaiting)
        have hnext : (state.consecutiveForegroundFlushes other + 1).toNat =
            (state.consecutiveForegroundFlushes other).toNat + 1 := by
          have := config.foregroundBurstLimit.isLt
          rw [BitVec.toNat_add, show (1 : BitVec 64).toNat = 1 from rfl]
          exact Nat.mod_eq_of_lt (by omega)
        rw [Function.update_self, hcount, hnext]
        exact ⟨by omega, by omega⟩
      · have hcount : foregroundTakenBy other next.log = foregroundTakenBy other state.log := by
          have hne : worker ≠ other := fun hworker => heq hworker.symm
          simp [hlog, foregroundTakenBy, Event.isForegroundTakeBy, hne]
        rw [Function.update_of_ne heq, hcount]
        exact ⟨hown, hlimit⟩

end Bounded

/-- In a stretch of a run in which the background queue is never empty and no background task
is taken, the workers together take at most `workers * foregroundBurstLimit` foreground
tasks. -/
theorem background_not_starved (config : Config) (moves stretch : List (Move workers))
    (start final : State workers) (hrun : Machine.run (step config) {} moves = some start)
    (hstretch : Machine.run (step config) start stretch = some final)
    (hwaiting : Machine.Meets (step config) (fun state _ => state.background ≠ []) start stretch)
    (hnone : takenOf true final.log = takenOf true start.log) :
    (takenOf false final.log).length ≤
      (takenOf false start.log).length + workers * config.foregroundBurstLimit.toNat := by
  have htracks : Tracks start :=
    Machine.invariant_of_run (fun _ _ _ htracks hstep => htracks.step hstep) .initial hrun
  have hfinal : Bounded config start final :=
    Machine.invariant_of_meets (fun _ _ _ hbounded hcondition hstep =>
      hbounded.step hcondition hstep)
      ⟨htracks, le_refl _, fun _ _ => ⟨by omega, by omega⟩⟩ hwaiting hstretch
  have hbound := hfinal.bound (by rw [hnone])
  calc (takenOf false final.log).length
      = ∑ worker, foregroundTakenBy worker final.log := (sum_foregroundTakenBy _).symm
    _ ≤ ∑ worker, (foregroundTakenBy worker start.log + config.foregroundBurstLimit.toNat) :=
        Finset.sum_le_sum fun worker _ => (hbound worker).2
    _ = (takenOf false start.log).length + workers * config.foregroundBurstLimit.toNat := by
        rw [Finset.sum_add_distrib, sum_foregroundTakenBy]
        simp

/-- Two workers with a burst limit of one take two foreground tasks past a background task
that waits. -/
theorem background_not_starved_two_workers :
    ∃ start final : State 2,
      Machine.run (step ⟨1, 1⟩) {}
          [.enqueue false none, .enqueue false none, .enqueue true none] = some start ∧
        Machine.run (step ⟨1, 1⟩) start
          [.work 0, .work 0, .work 0, .work 1, .work 1, .work 1] = some final ∧
        (takenOf false final.log).length = 2 ∧
        (takenOf false final.log).length ≤ (takenOf false start.log).length + 2 * 1 := by
  let stretch : List (Move 2) := [.work 0, .work 0, .work 0, .work 1, .work 1, .work 1]
  have hseen : ((Machine.run (step ⟨1, 1⟩) ({} : State 2)
      [.enqueue false none, .enqueue false none, .enqueue true none]).bind fun start =>
        (Machine.run (step ⟨1, 1⟩) start stretch).map fun final =>
          decide (Machine.Meets (step ⟨1, 1⟩) (fun state _ => state.background ≠ []) start stretch ∧
            takenOf true final.log = takenOf true start.log ∧
            (takenOf false final.log).length = 2)) = some true := by
    decide +kernel
  obtain ⟨start, hrun, hrest⟩ := Option.bind_eq_some_iff.mp hseen
  obtain ⟨final, hstretch, hfacts⟩ := Option.map_eq_some_iff.mp hrest
  obtain ⟨hwaiting, hnone, hcount⟩ := of_decide_eq_true hfacts
  exact ⟨start, final, hrun, hstretch, hcount,
    background_not_starved ⟨1, 1⟩ _ stretch start final hrun hstretch hwaiting hnone⟩

end TelePath.FlushScheduler
