import Mathlib.Data.Fintype.Basic
import Mathlib.Logic.Function.Basic

/-!
Threads that sleep on a word until another thread wakes them.

A thread parks in two steps: it settles on the value it expects the word to have,
and falls asleep only if the word still has it.  A thread that changes the word
may decide to wake the sleepers, and does so in a later step.  `NoLostWake` says
that a sleeper whom no decided wake will reach still has a reason to sleep: what
it waits for, `good`, holds of the current word.  The lemmas below keep it through
each kind of step.
-/

namespace TelePath.Logic.Parking

/-- Where a thread stands: somewhere in its own code, about to sleep if the word
still is `expected`, asleep, or about to wake all sleepers. -/
inductive Phase (α κ ω : Type) where
  | awake (place : α)
  | parking (wait : κ) (expected : ω)
  | asleep (wait : κ)
  | waking
  deriving DecidableEq

variable {θ α κ ω : Type}

def Phase.isWaking : Phase α κ ω → Bool
  | .waking => true
  | _ => false

/-- What becomes of a thread when all sleepers are woken. -/
def Phase.woken (resume : κ → α) : Phase α κ ω → Phase α κ ω
  | .asleep wait => .awake (resume wait)
  | phase => phase

/-- All sleepers wake, and the waking thread goes on at `place`. -/
def wakeAll [DecidableEq θ] (resume : κ → α) (phases : θ → Phase α κ ω) (thread : θ)
    (place : α) : θ → Phase α κ ω :=
  Function.update (fun other => (phases other).woken resume) thread (.awake place)

/-- Some thread has decided to wake the sleepers and not done it yet. -/
def WakeDecided (phases : θ → Phase α κ ω) : Prop := ∃ thread, (phases thread).isWaking = true

instance [Fintype θ] (phases : θ → Phase α κ ω) : Decidable (WakeDecided phases) :=
  inferInstanceAs (Decidable (∃ thread, (phases thread).isWaking = true))

/-- Threads about to sleep expect a good word, and unless a wake is decided the
sleepers sleep on one. -/
structure NoLostWake (good : κ → ω → Prop) (word : ω) (phases : θ → Phase α κ ω) : Prop where
  parking : ∀ thread wait expected, phases thread = .parking wait expected → good wait expected
  asleep : ¬WakeDecided phases → ∀ thread wait, phases thread = .asleep wait → good wait word

variable [DecidableEq θ] {good : κ → ω → Prop} {word : ω} {phases : θ → Phase α κ ω} {thread : θ}

theorem wakeDecided_update {phase : Phase α κ ω} (hthread : (phases thread).isWaking = false)
    (hdecided : WakeDecided phases) : WakeDecided (Function.update phases thread phase) := by
  obtain ⟨other, hother⟩ := hdecided
  have hne : other ≠ thread := by
    rintro rfl
    exact absurd (hthread.symm.trans hother) (by decide)
  exact ⟨other, by rw [Function.update_of_ne hne, hother]⟩

/-- One thread that is not about to wake the others moves to `phase` and stores
`newWord`.  Unless it decides a wake, what was good must stay so. -/
theorem NoLostWake.update (h : NoLostWake good word phases) {phase : Phase α κ ω} {newWord : ω}
    (hthread : (phases thread).isWaking = false)
    (hparking : ∀ wait expected, phase = .parking wait expected → good wait expected)
    (hasleep : ∀ wait, phase = .asleep wait → good wait newWord)
    (hkeeps : phase.isWaking = false → ∀ wait, good wait word → good wait newWord) :
    NoLostWake good newWord (Function.update phases thread phase) := by
  constructor
  · intro other wait expected hother
    by_cases hsame : other = thread
    · subst hsame
      rw [Function.update_self] at hother
      exact hparking wait expected hother
    · rw [Function.update_of_ne hsame] at hother
      exact h.parking other wait expected hother
  · intro hdecided other wait hother
    by_cases hsame : other = thread
    · subst hsame
      rw [Function.update_self] at hother
      exact hasleep wait hother
    · rw [Function.update_of_ne hsame] at hother
      have hbefore : ¬WakeDecided phases := fun hold =>
        hdecided (wakeDecided_update hthread hold)
      have hphase : phase.isWaking = false := by
        by_contra hwaking
        exact hdecided ⟨thread, by simpa using hwaking⟩
      exact hkeeps hphase wait (h.asleep hbefore other wait hother)

/-- A thread that stays awake changes the word, and may decide to wake. -/
theorem NoLostWake.change (h : NoLostWake good word phases) {place next : α} {newWord : ω}
    {wake : Bool} (hthread : phases thread = .awake place)
    (hkeeps : wake = false → ∀ wait, good wait word → good wait newWord) :
    NoLostWake good newWord
      (Function.update phases thread (if wake then .waking else .awake next)) := by
  have hawake : (phases thread).isWaking = false := by rw [hthread]; rfl
  cases wake with
  | false =>
      exact h.update hawake (fun _ _ hphase => by cases hphase) (fun _ hphase => by cases hphase)
        fun _ => hkeeps rfl
  | true =>
      exact h.update hawake (fun _ _ hphase => by cases hphase) (fun _ hphase => by cases hphase)
        fun hquiet => by cases hquiet

/-- A thread that is not about to wake the others goes on at another place. -/
theorem NoLostWake.goOn (h : NoLostWake good word phases) (next : α)
    (hthread : (phases thread).isWaking = false) :
    NoLostWake good word (Function.update phases thread (.awake next)) :=
  h.update hthread (fun _ _ hphase => by cases hphase) (fun _ hphase => by cases hphase)
    fun _ _ hgood => hgood

/-- An awake thread settles on a good word to sleep on, and may mark the current
word for it. -/
theorem NoLostWake.park (h : NoLostWake good word phases) {place : α} {wait : κ}
    {expected newWord : ω} (hthread : phases thread = .awake place)
    (hgood : good wait expected) (hkeeps : ∀ wait, good wait word → good wait newWord) :
    NoLostWake good newWord (Function.update phases thread (.parking wait expected)) := by
  have hawake : (phases thread).isWaking = false := by rw [hthread]; rfl
  refine h.update hawake ?_ (fun _ hphase => by cases hphase) fun _ => hkeeps
  intro waits expects hphase
  cases hphase
  exact hgood

/-- A thread whose expected word is the current one falls asleep. -/
theorem NoLostWake.sleep (h : NoLostWake good word phases) {wait : κ}
    (hthread : phases thread = .parking wait word) :
    NoLostWake good word (Function.update phases thread (.asleep wait)) := by
  have hawake : (phases thread).isWaking = false := by rw [hthread]; rfl
  refine h.update hawake (fun _ _ hphase => by cases hphase) ?_ fun _ _ hgood => hgood
  intro waits hphase
  cases hphase
  exact h.parking thread wait word hthread

/-- After the wake nobody is asleep. -/
theorem NoLostWake.wakeAll (h : NoLostWake good word phases) (resume : κ → α) (place : α) :
    NoLostWake good word (wakeAll resume phases thread place) := by
  have hphase : ∀ other, Parking.wakeAll resume phases thread place other = .awake place ∨
      Parking.wakeAll resume phases thread place other = (phases other).woken resume := by
    intro other
    by_cases hsame : other = thread
    · subst hsame
      exact .inl (Function.update_self ..)
    · exact .inr (Function.update_of_ne hsame ..)
  constructor
  · intro other wait expected hother
    rcases hphase other with hnew | hnew <;> rw [hnew] at hother
    · cases hother
    · cases hbefore : phases other <;> rw [hbefore] at hother <;> cases hother
      exact h.parking other wait expected hbefore
  · intro _ other wait hother
    rcases hphase other with hnew | hnew <;> rw [hnew] at hother
    · cases hother
    · cases hbefore : phases other <;> rw [hbefore] at hother <;> cases hother

end TelePath.Logic.Parking
