import Mathlib.Data.Fintype.Basic
import TelePath.Logic.Machine
import TelePath.Types

/-!
The mutex of `futex.h`, access by access: every CAS and exchange of its word and
every futex call is one step, and between two of them the other threads may move.
-/

namespace TelePath.FutexMutex

open Logic

/-- Where a thread stands: outside, in `lock` before its next exchange or wait, asleep
in `FutexWait`, between the two calls, or in `unlock` before `FutexWakeOne`. -/
inductive Phase where
  | outside
  | exchanging
  | waiting
  | asleep
  | holding
  | waking
  deriving DecidableEq

inductive Move (Thread : Type) where
  | tryLock
  | lock
  | exchange
  | futexWait
  -- `FutexWait` may return although nobody woke the thread
  | interrupt
  | unlock
  | futexWakeOne (woken : Option Thread)

structure Mutex (Thread : Type) where
  word : BitVec 32 := 0
  phases : Thread → Phase := fun _ => .outside

variable {Thread : Type} [Fintype Thread] [DecidableEq Thread]

def Mutex.become (mutex : Mutex Thread) (thread : Thread) (word : BitVec 32) (phase : Phase) :
    Mutex Thread :=
  ⟨word, fun other => if other = thread then phase else mutex.phases other⟩

def step (mutex : Mutex Thread) (input : Thread × Move Thread) : Option (Mutex Thread) :=
  let become := mutex.become input.1
  match mutex.phases input.1, input.2 with
  | .outside, .tryLock => some (if mutex.word = 0 then become 1 .holding else mutex)
  | .outside, .lock => some <|
      if mutex.word = 0 then become 1 .holding
      else become mutex.word (if mutex.word ≠ 2 then .exchanging else .waiting)
  | .exchanging, .exchange => some (become 2 (if mutex.word = 0 then .holding else .waiting))
  | .waiting, .futexWait =>
      some (become mutex.word (if mutex.word = 2 then .asleep else .exchanging))
  | .asleep, .interrupt => some (become mutex.word .exchanging)
  | .holding, .unlock => some (become 0 (if mutex.word = 2 then .waking else .outside))
  | .waking, .futexWakeOne (some woken) =>
      if mutex.phases woken = .asleep then
        some ((become mutex.word .outside).become woken mutex.word .exchanging)
      else none
  | .waking, .futexWakeOne none =>
      if ∀ thread, mutex.phases thread ≠ .asleep then some (become mutex.word .outside) else none
  | _, _ => none

structure Sound (mutex : Mutex Thread) : Prop where
  single : ∀ first second, mutex.phases first = .holding → mutex.phases second = .holding →
    first = second
  held : ∀ thread, mutex.phases thread = .holding → mutex.word ≠ 0
  holder : mutex.word ≠ 0 → ∃ thread, mutex.phases thread = .holding
  /-- Unless `unlock` is going to see the sleepers, a thread is about to wake one or to try
  again, and leaves the word at 2. -/
  sleepers : ∀ thread, mutex.phases thread = .asleep → mutex.word = 2 ∨
    ∃ other, mutex.phases other = .waking ∨ mutex.phases other = .exchanging

attribute [local grind cases] Sound

theorem Sound.step {mutex next : Mutex Thread} {input : Thread × Move Thread}
    (h : Sound mutex) (hstep : step mutex input = some next) : Sound next := by
  obtain ⟨thread, move⟩ := input
  simp only [FutexMutex.step, Mutex.become] at hstep
  split at hstep
  · -- `try_lock`: a word that is not 0 stays
    cases hstep
    split
    · constructor <;> grind
    · exact h
  · -- the first CAS of `lock`
    cases hstep
    split
    · constructor <;> grind
    · constructor <;> grind
  · -- `exchange(2)` takes the mutex if it was free; the word says now that there may be sleepers
    cases hstep
    constructor <;> grind
  · -- `FutexWait` sleeps only while the word is 2
    cases hstep
    constructor <;> grind
  · -- a thread that wakes up tries again
    cases hstep
    constructor <;> grind
  · -- `unlock` goes on to wake a sleeper if it has seen the 2
    cases hstep
    constructor <;> grind
  · -- the woken thread tries again
    split at hstep
    · cases hstep
      constructor <;> grind
    · cases hstep
  · -- nobody sleeps
    split at hstep
    · cases hstep
      constructor <;> grind
    · cases hstep
  · cases hstep

/-- At most one thread holds the mutex, its word is 0 exactly when none does, and no wakeup
is lost: as long as a thread sleeps, there is a holder that is going to see it in `unlock`,
or a thread that is about to wake one or to try again. -/
theorem mutex_excludes_and_wakes {inputs : List (Thread × Move Thread)} {mutex : Mutex Thread}
    (hrun : Machine.run step {} inputs = some mutex) :
    (∀ first second, mutex.phases first = .holding → mutex.phases second = .holding →
        first = second) ∧
      (mutex.word = 0 ↔ ∀ thread, mutex.phases thread ≠ .holding) ∧
      ∀ sleeper, mutex.phases sleeper = .asleep →
        (mutex.word = 2 ∧ ∃ holder, mutex.phases holder = .holding) ∨
          ∃ other, mutex.phases other = .waking ∨ mutex.phases other = .exchanging := by
  have hstart : Sound ({} : Mutex Thread) := by constructor <;> simp
  have h := Machine.invariant_of_run (fun _ _ _ => Sound.step) hstart hrun
  refine ⟨h.single, ⟨fun hword thread hheld => h.held thread hheld hword, fun hnone => ?_⟩,
    fun sleeper hasleep => ?_⟩
  · by_contra hword
    obtain ⟨thread, hheld⟩ := h.holder hword
    exact hnone thread hheld
  · refine (h.sleepers sleeper hasleep).imp_left fun hword => ⟨hword, h.holder ?_⟩
    simp [hword]

/-- The second thread sleeps until the first unlocks. -/
def contended : List (Fin 2 × Move (Fin 2)) :=
  [(0, .lock), (1, .lock), (1, .exchange), (1, .futexWait), (0, .unlock)]

theorem mutex_excludes_and_wakes_contended : ∃ mutex : Mutex (Fin 2),
    Machine.run step {} contended = some mutex ∧ mutex.phases 1 = .asleep ∧
      ((mutex.word = 2 ∧ ∃ holder, mutex.phases holder = .holding) ∨
        ∃ other, mutex.phases other = .waking ∨ mutex.phases other = .exchanging) := by
  exact ⟨_, rfl, rfl, (@mutex_excludes_and_wakes _ _ _ contended _ rfl).2.2 1 rfl⟩

end TelePath.FutexMutex
