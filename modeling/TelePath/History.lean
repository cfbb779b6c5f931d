import TelePath.Run

/-!
What the events of a run say about pages: the bytes each page should have, and where in the
run an event stands.  Events are listed the latest first.
-/

namespace TelePath

open FrameControl

variable {n blockSize : Nat}

abbrev Events (n blockSize : Nat) := List (Event n blockSize)

/-- The bytes of every page: what its last exclusive handle left, or what the backend
held when the page was dropped, or the initial bytes. -/
def content (start : BufferTag → Page blockSize) :
    Events n blockSize → BufferTag → Page blockSize
  | [] => start
  | .releasedExclusive _ tag page :: earlier => Function.update (content start earlier) tag page
  | .discarded _ tag page _ :: earlier => Function.update (content start earlier) tag page
  | _ :: earlier => content start earlier

def unwrittenZero : Events n blockSize → Fin n → Bool
  | [], _ => false
  | .acquiredExclusive latched _ mode _ :: earlier, frame =>
      if latched = frame then mode = .zeroAndLock else unwrittenZero earlier frame
  | .wrote written _ :: earlier, frame => written ≠ frame && unwrittenZero earlier frame
  | _ :: earlier, frame => unwrittenZero earlier frame

/-- The engine has not stopped, and every `kZeroAndLock` handle was written through
before its release. -/
def Undisturbed : Events n blockSize → Prop
  | [] => True
  | .stopped :: _ => False
  | .releasedExclusive frame _ _ :: earlier =>
      unwrittenZero earlier frame = false ∧ Undisturbed earlier
  | _ :: earlier => Undisturbed earlier

theorem Undisturbed.tail {event : Event n blockSize} {earlier : Events n blockSize}
    (h : Undisturbed (event :: earlier)) : Undisturbed earlier := by
  cases event with
  | stopped => exact h.elim
  | releasedExclusive => exact h.2
  | _ => exact h

/-- Whether an event ends the calm. -/
def Event.disturbs (earlier : Events n blockSize) : Event n blockSize → Bool
  | .stopped => true
  | .releasedExclusive frame _ _ => unwrittenZero earlier frame
  | _ => false

theorem undisturbed_cons {event : Event n blockSize} {earlier : Events n blockSize} :
    Undisturbed (event :: earlier) ↔ event.disturbs earlier = false ∧ Undisturbed earlier := by
  cases event <;> simp [Undisturbed, Event.disturbs]

instance decidableUndisturbed : (events : Events n blockSize) → Decidable (Undisturbed events)
  | [] => isTrue trivial
  | _ :: earlier =>
      have := decidableUndisturbed earlier
      decidable_of_iff' _ undisturbed_cons

def At (events : Events n blockSize) (position : Nat) (event : Event n blockSize) : Prop :=
  events.reverse[position]? = some event

theorem At.lt {events : Events n blockSize} {position : Nat} {event : Event n blockSize}
    (h : At events position event) : position < events.length := by
  have hlt := (List.getElem?_eq_some_iff.mp h).1
  rwa [List.length_reverse] at hlt

theorem At.cons {events : Events n blockSize} {position : Nat} {event : Event n blockSize}
    (h : At events position event) (later : Event n blockSize) :
    At (later :: events) position event := by
  have hlt := h.lt
  rw [At, List.reverse_cons, List.getElem?_append_left (by simpa using hlt)]
  exact h

theorem At.head (event : Event n blockSize) (events : Events n blockSize) :
    At (event :: events) events.length event := by
  simp [At]

theorem At.of_cons {events : Events n blockSize} {position : Nat}
    {event later : Event n blockSize} (h : At (later :: events) position event) :
    At events position event ∨ position = events.length ∧ event = later := by
  by_cases hlt : position < events.length
  · rw [At, List.reverse_cons, List.getElem?_append_left (by simpa using hlt)] at h
    exact .inl h
  · have hle := h.lt
    have hposition : position = events.length := by
      simp only [List.length_cons] at hle
      omega
    subst hposition
    exact .inr ⟨rfl, (Option.some.inj ((At.head later events).symm.trans h)).symm⟩

def Event.snaps (tag : BufferTag) : Event n blockSize → Prop
  | .snapshot _ other _ => other = tag
  | _ => False

end TelePath
