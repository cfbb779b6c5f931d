import TelePath.Buffer.FrameFields
import TelePath.Logic.Machine
import TelePath.Logic.Parking

/-!
Sleeping and waking on one frame's control word.

`WaitWhile` of `frame_control.h` is modelled access by access: the load of the
word, the test of the predicate, the CAS that sets the waiter bit, `FutexWait` and
the wake-up.  Between any two of them the other threads may perform any control-word
transition that the buffer manager calls, and a transition that wakes decides to do
so in its CAS and calls `FutexWakeAll` in a later step.  Whoever performs a
transition must own what the buffer manager's caller owns there; `Owners` counts
what is owned on the frame, by whichever thread.
-/

namespace TelePath.FrameWaiting

open FrameControl Logic Logic.Parking

/-- The waits whose predicate reads only the word it is given. -/
inductive WordWait where
  | acquireShared
  | acquireExclusive
  | waitForPendingFlush
  | dropFileBuffers
  deriving DecidableEq, Repr

/-- The predicate each of them passes to `WaitWhile`. -/
def WordWait.blocked : WordWait → Word → Bool
  | .acquireShared => sharedBlocked
  | .acquireExclusive => latched
  | .waitForPendingFlush => hasWriteback
  | .dropFileBuffers => latched

/-- The calls of `WaitWhile` on a frame. -/
inductive Wait where
  | onWord (wait : WordWait)
  | waitForLoad (tag : BufferTag)
  deriving DecidableEq, Repr

/-- What is owned on the frame: its pins and latches, the load that reserved it,
its pending writeback, and the frame itself while it is off the free list without
a page. -/
structure Owners where
  pins : Nat := 0
  shares : Nat := 0
  exclusive : Bool := false
  load : Bool := false
  queued : Bool := false
  active : Bool := false
  listed : Bool := true
  handed : Bool := false
  deriving DecidableEq, Repr

structure Frame where
  word : Word := 0#32
  tag : BufferTag := {}
  owners : Owners := {}
  deriving DecidableEq, Repr

/-- What a thread outside `WaitWhile` may do to the frame. -/
inductive Operation where
  | popFree
  | pushFree
  | storeTag (tag : BufferTag)
  | tryPinResident
  | unpin
  | tryReserve (poppedFromFreeList : Bool)
  | publishResident (releasePin : Bool)
  | releaseToFree
  | tryDiscardPinned
  | markDirty
  | tryAcquireShared
  | releaseShared
  | tryAcquireExclusive
  | releaseExclusive
  | tryQueueWriteback (skipIfPinned : Bool)
  | beginWriteback
  | cancelQueuedWriteback
  | completeWriteback (succeeded : Bool)
  deriving DecidableEq, Repr

/-- Whether the buffer manager's callers own what the operation gives back or
relies on. -/
def Owners.permits (owners : Owners) : Operation → Bool
  | .popFree => owners.listed
  | .pushFree => owners.handed
  | .storeTag _ => owners.load || owners.handed
  | .tryPinResident => true
  | .unpin => 0 < owners.pins
  | .tryReserve poppedFromFreeList => !poppedFromFreeList || owners.handed
  | .publishResident _ => owners.load
  | .releaseToFree => owners.load
  | .tryDiscardPinned => 0 < owners.pins
  | .markDirty => owners.exclusive
  | .tryAcquireShared => true
  | .releaseShared => 0 < owners.shares
  | .tryAcquireExclusive => 0 < owners.pins || owners.load
  | .releaseExclusive => owners.exclusive
  | .tryQueueWriteback _ => 0 < owners.shares || owners.exclusive
  | .beginWriteback => owners.queued
  | .cancelQueuedWriteback => owners.queued
  | .completeWriteback _ => owners.active

/-- One control-word transition: the frame after it and whether it decides to
wake.  `none` while `TryPinResident` yields on a saturated pin count. -/
def Frame.apply (frame : Frame) : Operation → Option (Frame × Bool)
  | .popFree => some ({ frame with owners.listed := false, owners.handed := true }, false)
  | .pushFree => some ({ frame with owners.listed := true, owners.handed := false }, false)
  | .storeTag tag => some ({ frame with tag }, false)
  | .tryPinResident => (tryPinResident frame.word).map fun (pinned, word) =>
      ({ frame with word, owners.pins := frame.owners.pins + pinned.toNat }, false)
  | .unpin =>
      some ({ frame with
        word := (unpin frame.word).2, owners.pins := frame.owners.pins - 1 }, false)
  | .tryReserve poppedFromFreeList =>
      let reply := tryReserve poppedFromFreeList frame.word
      let owners := if reply.1.1 = .reserved then
          { frame.owners with load := true, handed := false }
        else frame.owners
      some ({ frame with word := reply.2, owners }, false)
  | .publishResident releasePin =>
      let update := publishResident releasePin frame.word
      some ({ frame with
        word := update.1
        owners.load := false
        owners.pins := frame.owners.pins + (!releasePin).toNat }, update.2)
  | .releaseToFree =>
      let update := releaseToFree frame.word
      some ({ frame with
        word := update.1, owners.load := false, owners.handed := true }, update.2)
  | .tryDiscardPinned =>
      let reply := tryDiscardPinned frame.word
      let owners := if reply.1.1 = .discarded then
          { frame.owners with pins := frame.owners.pins - 1, handed := true }
        else frame.owners
      some ({ frame with word := reply.2.1, owners }, reply.2.2)
  | .markDirty => some ({ frame with word := (markDirty frame.word).2 }, false)
  | .tryAcquireShared =>
      let reply := tryAcquireShared frame.word
      some ({ frame with
        word := reply.2, owners.shares := frame.owners.shares + reply.1.toNat }, false)
  | .releaseShared =>
      let update := releaseShared frame.word
      some ({ frame with
        word := update.1, owners.shares := frame.owners.shares - 1 }, update.2)
  | .tryAcquireExclusive =>
      let reply := tryAcquireExclusive frame.word
      some ({ frame with
        word := reply.2, owners.exclusive := frame.owners.exclusive || reply.1 }, false)
  | .releaseExclusive =>
      let update := releaseExclusive frame.word
      some ({ frame with word := update.1, owners.exclusive := false }, update.2)
  | .tryQueueWriteback skipIfPinned =>
      let reply := tryQueueWriteback skipIfPinned frame.word
      some ({ frame with
        word := reply.2
        owners.queued := frame.owners.queued || reply.1 = .queued }, false)
  | .beginWriteback =>
      let update := beginWriteback frame.word
      some ({ frame with
        word := update.1, owners.queued := false, owners.active := true }, update.2)
  | .cancelQueuedWriteback =>
      let update := cancelQueuedWriteback frame.word
      some ({ frame with word := update.1, owners.queued := false }, update.2)
  | .completeWriteback succeeded =>
      let update := (completeWriteback succeeded frame.word).2
      some ({ frame with word := update.1, owners.active := false }, update.2)

/-- Where a thread stands in `WaitWhile`. -/
inductive Place where
  | running
  /-- before `control.load` -/
  | loading (wait : Wait)
  /-- about to evaluate `blocked(word)` -/
  | testing (wait : Wait) (word : Word)
  /-- inside `IsLoadingTag`, after it read a Loading word and before `LoadTag` -/
  | readingTag (tag : BufferTag) (word : Word)
  /-- `IsLoadingTag` returned true -/
  | believing (tag : BufferTag) (word : Word)
  deriving DecidableEq, Repr

/-- The frame and the threads around it. -/
structure Waiting (Thread : Type) where
  frame : Frame
  phases : Thread → Phase Place Wait Word

section Steps

variable {Thread : Type} [DecidableEq Thread]

/-- A free frame nobody works with. -/
def initial (Thread : Type) : Waiting Thread := ⟨{}, fun _ => .awake .running⟩

def Waiting.setPhase (waiting : Waiting Thread) (thread : Thread) (phase : Phase Place Wait Word) :
    Waiting Thread :=
  { waiting with phases := Function.update waiting.phases thread phase }

/-- The body of the loop in `WaitWhile` up to `FutexWait`: sets the waiter bit if
`word` lacks it.  `compare_exchange_weak` may fail for no reason. -/
def Waiting.park (waiting : Waiting Thread) (thread : Thread) (wait : Wait) (word : Word)
    (fails : Bool) : Waiting Thread :=
  if hasAny kWaiters word then waiting.setPhase thread (.parking wait word)
  else if waiting.frame.word = word ∧ fails = false then
    { waiting with frame.word := word ||| kWaiters }.setPhase thread
      (.parking wait (word ||| kWaiters))
  else waiting.setPhase thread (.awake (.testing wait waiting.frame.word))

/-- The next access of a thread inside `WaitWhile`, or its `FutexWakeAll`.  A
sleeper may also wake for no reason. -/
def Waiting.advance (waiting : Waiting Thread) (thread : Thread) (fails : Bool) :
    Option (Waiting Thread) :=
  match waiting.phases thread with
  | .awake .running => none
  | .awake (.loading wait) =>
      some (waiting.setPhase thread (.awake (.testing wait waiting.frame.word)))
  | .awake (.testing (.onWord wait) word) =>
      some (if wait.blocked word then waiting.park thread (.onWord wait) word fails
        else waiting.setPhase thread (.awake .running))
  | .awake (.testing (.waitForLoad tag) word) =>
      some (waiting.setPhase thread
        (.awake (if state waiting.frame.word = .loading then .readingTag tag word else .running)))
  | .awake (.readingTag tag word) =>
      some (waiting.setPhase thread
        (.awake (if waiting.frame.tag = tag then .believing tag word else .running)))
  | .awake (.believing tag word) => some (waiting.park thread (.waitForLoad tag) word fails)
  | .parking wait expected =>
      some (waiting.setPhase thread
        (if waiting.frame.word = expected ∧ fails = false then .asleep wait
          else .awake (.loading wait)))
  | .asleep wait => some (waiting.setPhase thread (.awake (.loading wait)))
  | .waking =>
      some { waiting with phases := wakeAll Place.loading waiting.phases thread .running }

inductive Move where
  | call (operation : Operation)
  | waitWhile (wait : Wait)
  | advance (fails : Bool)
  deriving DecidableEq, Repr

def step (waiting : Waiting Thread) : Thread × Move → Option (Waiting Thread)
  | (thread, .call operation) =>
      if waiting.phases thread = .awake .running ∧ waiting.frame.owners.permits operation then
        (waiting.frame.apply operation).map fun (frame, wake) =>
          { waiting with frame }.setPhase thread
            (if wake then .waking else .awake .running)
      else none
  | (thread, .waitWhile wait) =>
      if waiting.phases thread = .awake .running then
        some (waiting.setPhase thread (.awake (.loading wait)))
      else none
  | (thread, .advance fails) => waiting.advance thread fails

end Steps

/-! ### What the transitions leave to the sleepers -/

/-- The sleepers of `word` can stay asleep on `next`. -/
structure Keeps (word next : Word) : Prop where
  waiters : hasAny kWaiters next = true
  blocked : ∀ wait : WordWait, wait.blocked word = true → wait.blocked next = true
  loading : state word = .loading → state next = .loading

theorem sharedBlocked_eq (word : Word) :
    sharedBlocked word =
      ((fields word).exclusive || decide (kMaxShared ≤ (fields word).shared)) := rfl

theorem keeps_of_fields {word next : Word} (hwaiters : (fields next).waiters = true)
    (hexclusive : (fields word).exclusive = true → (fields next).exclusive = true)
    (hshared : (fields word).shared ≠ 0 → (fields next).shared ≠ 0)
    (hfull : kMaxShared ≤ (fields word).shared → kMaxShared ≤ (fields next).shared)
    (hwriteback : hasWriteback word = true → hasWriteback next = true)
    (hstate : (fields word).state = .loading → (fields next).state = .loading) :
    Keeps word next := by
  have hlatched : latched word = true → latched next = true := by
    simp only [latched_eq, Bool.or_eq_true, decide_eq_true_eq]
    exact Or.imp hexclusive hshared
  have hblocked : sharedBlocked word = true → sharedBlocked next = true := by
    simp only [sharedBlocked_eq, Bool.or_eq_true, decide_eq_true_eq]
    exact Or.imp hexclusive hfull
  refine ⟨hwaiters, ?_, hstate⟩
  intro wait
  cases wait with
  | acquireShared => exact hblocked
  | acquireExclusive => exact hlatched
  | waitForPendingFlush => exact hwriteback
  | dropFileBuffers => exact hlatched

theorem Keeps.refl {word : Word} (hwaiters : hasAny kWaiters word = true) : Keeps word word :=
  ⟨hwaiters, fun _ h => h, fun h => h⟩

theorem keeps_of_open {word next : Word} (hwaiters : hasAny kWaiters next = true)
    (hlatch : latched word = false) (hwriteback : hasWriteback word = false)
    (hloading : state word ≠ .loading) : Keeps word next := by
  have hopen := hlatch
  rw [latched_eq, Bool.or_eq_false_iff, decide_eq_false_iff_not, not_not] at hopen
  refine ⟨hwaiters, ?_, fun h => absurd h hloading⟩
  intro wait hblocked
  cases wait with
  | acquireShared =>
      rw [WordWait.blocked, sharedBlocked_eq, hopen.1, hopen.2] at hblocked
      exact absurd hblocked (by decide)
  | acquireExclusive => exact absurd (hlatch.symm.trans hblocked) (by decide)
  | waitForPendingFlush => exact absurd (hwriteback.symm.trans hblocked) (by decide)
  | dropFileBuffers => exact absurd (hlatch.symm.trans hblocked) (by decide)

def Frame.Counted (frame : Frame) : Prop := (fields frame.word).shared = frame.owners.shares

theorem shared_sub_pinOne (word : Word) :
    (fields (word - kPinOne)).shared = (fields word).shared := by
  have hbound := word.isLt
  have hvalue : (word - kPinOne).toNat % 131072 = word.toNat % 131072 := by
    rw [BitVec.toNat_sub, show kPinOne.toNat = 131072 by decide]
    omega
  rw [fields_of_pins word _ hvalue]

theorem Frame.Counted.apply {frame next : Frame} {operation : Operation} {wake : Bool}
    (hcounted : frame.Counted) (hpermits : frame.owners.permits operation = true)
    (happly : frame.apply operation = some (next, wake)) : next.Counted := by
  unfold Counted at hcounted ⊢
  cases operation with
  | popFree | pushFree | storeTag tag =>
      cases happly
      exact hcounted
  | tryPinResident =>
      obtain ⟨⟨pinned, word⟩, hpin, hnext⟩ := Option.map_eq_some_iff.mp happly
      cases hnext
      rcases tryPinResident_cases hpin with ⟨-, rfl, -⟩ | ⟨-, -, -, hfields⟩
      · exact hcounted
      · exact (congrArg ControlFields.shared hfields).trans hcounted
  | unpin =>
      cases happly
      unfold unpin
      split
      · exact hcounted
      · exact (shared_sub_pinOne frame.word).trans hcounted
  | tryReserve poppedFromFreeList =>
      cases happly
      rcases hreply : tryReserve poppedFromFreeList frame.word with ⟨⟨outcome, observed⟩, word⟩
      by_cases houtcome : outcome = .reserved
      · subst houtcome
        obtain ⟨-, -, -, -, -, hlatch, -, hfields⟩ := tryReserve_reserved hreply
        rw [latched_eq, Bool.or_eq_false_iff, decide_eq_false_iff_not, not_not] at hlatch
        simp only [hfields, if_true]
        exact hlatch.2.symm.trans hcounted
      · cases tryReserve_unchanged hreply houtcome
        simpa [houtcome] using hcounted
  | publishResident releasePin =>
      cases happly
      simp only [publishResident, fields_updateAndWake]
      cases releasePin with
      | false => simpa [fields_withState] using hcounted
      | true => simpa [shared_sub_pinOne, fields_withState] using hcounted
  | releaseToFree =>
      cases happly
      exact (congrArg ControlFields.shared (fields_releaseToFree frame.word)).trans hcounted
  | tryDiscardPinned =>
      cases happly
      rcases hreply : tryDiscardPinned frame.word with ⟨⟨outcome, previous⟩, word, wakes⟩
      by_cases houtcome : outcome = .discarded
      · subst houtcome
        obtain ⟨-, rfl, -, -, -, -, hlatch⟩ := tryDiscardPinned_discarded hreply
        rw [latched_eq, Bool.or_eq_false_iff, decide_eq_false_iff_not, not_not] at hlatch
        simp only [if_true, ← hcounted, hlatch.2]
        decide
      · cases tryDiscardPinned_unchanged hreply houtcome
        simpa [houtcome] using hcounted
  | markDirty =>
      cases happly
      by_cases hresident : (fields frame.word).state = .resident
      · exact (congrArg ControlFields.shared (fields_markDirty frame.word hresident).2).trans
          hcounted
      · rw [← isResident_iff] at hresident
        simpa [markDirty, hresident] using hcounted
  | tryAcquireShared =>
      cases happly
      rcases hreply : tryAcquireShared frame.word with ⟨acquired, word⟩
      cases acquired with
      | false =>
          cases tryAcquireShared_unchanged hreply
          exact hcounted
      | true =>
          obtain ⟨-, -, hfields⟩ := tryAcquireShared_true hreply
          simp [hfields, hcounted]
  | releaseShared =>
      cases happly
      have hheld : 0 < frame.owners.shares := by simpa [Owners.permits] using hpermits
      rw [← hcounted] at hheld
      simp [fields_releaseShared frame.word hheld, hcounted]
  | tryAcquireExclusive =>
      cases happly
      simp only [tryAcquireExclusive]
      split
      · simpa [fields_or_exclusive] using hcounted
      · exact hcounted
  | releaseExclusive =>
      cases happly
      simpa [fields_releaseExclusive] using hcounted
  | tryQueueWriteback skipIfPinned =>
      cases happly
      rcases hreply : tryQueueWriteback skipIfPinned frame.word with ⟨outcome, word⟩
      by_cases houtcome : outcome = .queued
      · subst houtcome
        obtain ⟨-, -, -, -, hfields⟩ := tryQueueWriteback_queued hreply
        simpa [hfields] using hcounted
      · cases tryQueueWriteback_unchanged hreply houtcome
        exact hcounted
  | beginWriteback =>
      cases happly
      simpa [fields_beginWriteback] using hcounted
  | cancelQueuedWriteback =>
      cases happly
      simpa [fields_cancelQueuedWriteback] using hcounted
  | completeWriteback succeeded =>
      cases happly
      simpa [(fields_completeWriteback succeeded frame.word).2] using hcounted

theorem Frame.apply_keeps {frame next : Frame} {operation : Operation}
    (hcounted : frame.Counted) (hpermits : frame.owners.permits operation = true)
    (happly : frame.apply operation = some (next, false))
    (hwaiters : hasAny kWaiters frame.word = true) : Keeps frame.word next.word := by
  have hfields : (fields frame.word).waiters = true := hwaiters
  cases operation with
  | popFree | pushFree | storeTag tag =>
      cases happly
      exact .refl hwaiters
  | tryPinResident =>
      obtain ⟨⟨pinned, word⟩, hpin, hnext⟩ := Option.map_eq_some_iff.mp happly
      cases hnext
      rcases tryPinResident_cases hpin with ⟨-, rfl, -⟩ | ⟨-, -, -, hnext⟩
      · exact .refl hwaiters
      · apply keeps_of_fields <;> simp [hasWriteback_eq, ControlFields.writeback, hnext, hfields]
  | unpin =>
      cases happly
      by_cases hpins : 0 < (fields frame.word).pins
      · have hnext := (unpin_of_pinned frame.word hpins).2
        apply keeps_of_fields <;> simp [hasWriteback_eq, ControlFields.writeback, hnext, hfields]
      · have hzero : pins frame.word = 0 := Nat.eq_zero_of_not_pos hpins
        simpa [unpin, hzero] using Keeps.refl hwaiters
  | tryReserve poppedFromFreeList =>
      cases happly
      rcases hreply : tryReserve poppedFromFreeList frame.word with ⟨⟨outcome, observed⟩, word⟩
      by_cases houtcome : outcome = .reserved
      · subst houtcome
        obtain ⟨-, -, hloading, -, -, hlatch, hwriteback, hnext⟩ := tryReserve_reserved hreply
        exact keeps_of_open ((congrArg ControlFields.waiters hnext).trans hfields) hlatch
          hwriteback hloading
      · cases tryReserve_unchanged hreply houtcome
        exact .refl hwaiters
  | tryDiscardPinned =>
      simp only [apply, Option.some.injEq, Prod.mk.injEq] at happly
      obtain ⟨rfl, hwake⟩ := happly
      rcases hreply : tryDiscardPinned frame.word with ⟨⟨outcome, previous⟩, word, wakes⟩
      rw [hreply] at hwake
      by_cases houtcome : outcome = .discarded
      · subst houtcome
        obtain ⟨-, -, hdiscard, -⟩ := tryDiscardPinned_discarded hreply
        exact absurd ((hfields.symm.trans hdiscard.symm).trans hwake) (by decide)
      · cases tryDiscardPinned_unchanged hreply houtcome
        exact .refl hwaiters
  | markDirty =>
      cases happly
      by_cases hresident : (fields frame.word).state = .resident
      · have hnext := (fields_markDirty frame.word hresident).2
        apply keeps_of_fields <;> simp [hasWriteback_eq, ControlFields.writeback, hnext, hfields]
      · rw [← isResident_iff] at hresident
        simpa [markDirty, hresident] using Keeps.refl hwaiters
  | tryAcquireShared =>
      cases happly
      rcases hreply : tryAcquireShared frame.word with ⟨acquired, word⟩
      cases acquired with
      | false =>
          cases tryAcquireShared_unchanged hreply
          exact .refl hwaiters
      | true =>
          obtain ⟨-, hlt, hnext⟩ := tryAcquireShared_true hreply
          apply keeps_of_fields <;>
            simp [hasWriteback_eq, ControlFields.writeback, hnext, hfields]
          omega
  | releaseShared =>
      simp only [apply, Option.some.injEq, Prod.mk.injEq] at happly
      obtain ⟨rfl, hwake⟩ := happly
      have hheld : 0 < frame.owners.shares := by simpa [Owners.permits] using hpermits
      rw [← hcounted] at hheld
      have hnext := fields_releaseShared frame.word hheld
      -- no wake: the latch was neither full nor released by its last holder
      have hcount : (fields frame.word).shared - 1 ≠ 0 ∧
          (fields frame.word).shared ≠ kMaxShared := by
        have hleft : sharedHolders (frame.word - kSharedOne) = (fields frame.word).shared - 1 :=
          congrArg ControlFields.shared (fields_sub_sharedOne frame.word hheld)
        have hsame : sharedHolders frame.word = (fields frame.word).shared := rfl
        simpa [releaseShared, updateAndWake, hwaiters, hleft, hsame] using hwake
      have hbound : (fields frame.word).shared ≤ kMaxShared := by
        have hvalue : (fields frame.word).shared = frame.word.toNat / 256 % 256 :=
          sharedHolders_eq frame.word
        rw [hvalue, kMaxShared]
        omega
      apply keeps_of_fields <;>
        simp [hasWriteback_eq, ControlFields.writeback, hnext, hfields, hwake] <;> omega
  | tryAcquireExclusive =>
      cases happly
      rcases hreply : tryAcquireExclusive frame.word with ⟨acquired, word⟩
      cases acquired with
      | false =>
          have hsame : word = frame.word := by
            unfold tryAcquireExclusive at hreply
            split at hreply <;> simp_all
          subst hsame
          exact .refl hwaiters
      | true =>
          obtain ⟨-, hnext⟩ := tryAcquireExclusive_true hreply
          apply keeps_of_fields <;>
            simp [hasWriteback_eq, ControlFields.writeback, hnext, hfields]
  | tryQueueWriteback skipIfPinned =>
      cases happly
      rcases hreply : tryQueueWriteback skipIfPinned frame.word with ⟨outcome, word⟩
      by_cases houtcome : outcome = .queued
      · subst houtcome
        obtain ⟨-, -, -, -, hnext⟩ := tryQueueWriteback_queued hreply
        apply keeps_of_fields <;>
          simp [hasWriteback_eq, ControlFields.writeback, hnext, hfields]
      · cases tryQueueWriteback_unchanged hreply houtcome
        exact .refl hwaiters
  | beginWriteback =>
      simp only [apply, Option.some.injEq, Prod.mk.injEq] at happly
      obtain ⟨rfl, -⟩ := happly
      have hnext := fields_beginWriteback frame.word
      apply keeps_of_fields <;> simp [hasWriteback_eq, ControlFields.writeback, hnext, hfields]
  | publishResident _ | releaseToFree | releaseExclusive | cancelQueuedWriteback
  | completeWriteback _ =>
      simp [apply, publishResident, releaseToFree, releaseExclusive, cancelQueuedWriteback,
        completeWriteback, updateAndWake, hwaiters] at happly

/-! ### Runs -/

section Runs

variable {Thread : Type} [DecidableEq Thread]

def Good (known : Word → Prop) : Wait → Word → Prop
  | .onWord wait, word => wait.blocked word = true ∧ hasAny kWaiters word = true
  | .waitForLoad _, word => known word ∧ hasAny kWaiters word = true

/-- The invariant of runs: the latch count is right, no wake-up is lost, and the
readers that believe in a load were given a word that `known` holds of. -/
structure Sound (known : Word → Prop) (waiting : Waiting Thread) : Prop where
  counted : waiting.frame.Counted
  noLostWake : NoLostWake (Good known) waiting.frame.word waiting.phases
  believing : ∀ thread tag word, waiting.phases thread = .awake (.believing tag word) →
    known word

variable {known : Word → Prop} {waiting : Waiting Thread} {thread : Thread}

theorem Good.waiters {wait : Wait} {word : Word} (h : Good known wait word) :
    hasAny kWaiters word = true := by
  cases wait with
  | onWord wait => exact h.2
  | waitForLoad tag => exact h.2

theorem keeps_or_waiters (word : Word) : Keeps word (word ||| kWaiters) := by
  have hnext := fields_or_waiters word
  apply keeps_of_fields <;> simp [hasWriteback_eq, ControlFields.writeback, hnext]

omit [DecidableEq Thread] in
theorem sound_initial (known : Word → Prop) : Sound known (initial Thread) where
  counted := show (fields 0#32).shared = 0 by decide
  noLostWake := by
    constructor
    · intro thread wait expected h
      cases h
    · intro _ thread wait h
      cases h
  believing := by
    intro thread tag word h
    cases h

theorem Sound.update (h : Sound known waiting) {frame : Frame} {phase : Phase Place Wait Word}
    (hcounted : frame.Counted)
    (hphases : NoLostWake (Good known) frame.word (Function.update waiting.phases thread phase))
    (hbelieving : ∀ tag word, phase = .awake (.believing tag word) → known word) :
    Sound known ({ waiting with frame }.setPhase thread phase) where
  counted := hcounted
  noLostWake := hphases
  believing := by
    intro other tag word hother
    by_cases hsame : other = thread
    · subst hsame
      exact hbelieving tag word (by simpa [Waiting.setPhase] using hother)
    · exact h.believing other tag word (by simpa [Waiting.setPhase, hsame] using hother)

theorem Sound.goOn (h : Sound known waiting) {place : Place}
    (hthread : (waiting.phases thread).isWaking = false)
    (hbelieving : ∀ tag word, place = .believing tag word → known word) :
    Sound known (waiting.setPhase thread (.awake place)) :=
  h.update h.counted (h.noLostWake.goOn place hthread) fun tag word hplace =>
    hbelieving tag word (Phase.awake.inj hplace)

section Steps

variable (hknown : ∀ {word next}, Keeps word next → known word → known next)
include hknown

theorem Good.keeps {wait : Wait} {word next : Word} (hkeeps : Keeps word next)
    (h : Good known wait word) : Good known wait next := by
  cases wait with
  | onWord wait => exact ⟨hkeeps.blocked wait h.1, hkeeps.waiters⟩
  | waitForLoad tag => exact ⟨hknown hkeeps h.1, hkeeps.waiters⟩

theorem Sound.call (h : Sound known waiting) {operation : Operation} {frame : Frame} {wake : Bool}
    (hthread : waiting.phases thread = .awake .running)
    (hpermits : waiting.frame.owners.permits operation = true)
    (happly : waiting.frame.apply operation = some (frame, wake)) :
    Sound known ({ waiting with frame }.setPhase thread
      (if wake then .waking else .awake .running)) := by
  refine h.update (h.counted.apply hpermits happly) (h.noLostWake.change hthread ?_) ?_
  · rintro rfl wait hgood
    exact hgood.keeps hknown (Frame.apply_keeps h.counted hpermits happly hgood.waiters)
  · intro tag word hphase
    cases wake <;> cases hphase

/-- From a word that a sleeper may have once it is marked, `WaitWhile` parks or
reads the word again. -/
theorem Sound.park (h : Sound known waiting) {place : Place} {wait : Wait} {word : Word}
    (fails : Bool) (hthread : waiting.phases thread = .awake place)
    (hgood : ∀ {marked}, Keeps word marked → Good known wait marked) :
    Sound known (waiting.park thread wait word fails) := by
  unfold Waiting.park
  split
  · rename_i hwaiters
    refine h.update h.counted (h.noLostWake.park hthread (hgood (.refl hwaiters))
      fun _ hgood => hgood) fun _ _ hphase => ?_
    cases hphase
  · split
    · rename_i hsame
      have hkeeps : Keeps waiting.frame.word (word ||| kWaiters) :=
        hsame.1 ▸ keeps_or_waiters word
      have hcounted : (fields (word ||| kWaiters)).shared = waiting.frame.owners.shares := by
        rw [fields_or_waiters, ← hsame.1]
        exact h.counted
      refine h.update hcounted (h.noLostWake.park hthread (hgood (keeps_or_waiters word))
        fun _ hgood => hgood.keeps hknown hkeeps) fun _ _ hphase => ?_
      cases hphase
    · exact h.goOn (by simp [hthread, Phase.isWaking]) fun _ _ hplace => by cases hplace

/-- A thread inside `WaitWhile` takes its next step.  The tag it reads there may
make it believe in a load. -/
theorem Sound.advance (h : Sound known waiting) {fails : Bool} {next : Waiting Thread}
    (hbelieving : ∀ tag word, waiting.phases thread = .awake (.readingTag tag word) →
      waiting.frame.tag = tag → known word)
    (hnext : waiting.advance thread fails = some next) : Sound known next := by
  unfold Waiting.advance at hnext
  split at hnext
  · cases hnext
  · rename_i hthread
    cases hnext
    exact h.goOn (by simp [hthread, Phase.isWaking]) fun _ _ hplace => by cases hplace
  · rename_i wait word hthread
    cases hnext
    split
    · rename_i hblocked
      exact h.park hknown fails hthread fun hkeeps => ⟨hkeeps.blocked wait hblocked, hkeeps.waiters⟩
    · exact h.goOn (by simp [hthread, Phase.isWaking]) fun _ _ hplace => by cases hplace
  · rename_i hthread
    cases hnext
    refine h.goOn (by simp [hthread, Phase.isWaking]) fun _ _ hplace => ?_
    split at hplace <;> cases hplace
  · rename_i tag word hthread
    cases hnext
    refine h.goOn (by simp [hthread, Phase.isWaking]) fun _ _ hplace => ?_
    split at hplace
    · rename_i htag
      cases hplace
      exact hbelieving tag word hthread htag
    · cases hplace
  · rename_i tag word hthread
    cases hnext
    exact h.park hknown fails hthread fun hkeeps =>
      ⟨hknown hkeeps (h.believing thread tag word hthread), hkeeps.waiters⟩
  · rename_i wait expected hthread
    cases hnext
    split
    · rename_i hsame
      refine h.update h.counted (h.noLostWake.sleep (hsame.1 ▸ hthread)) fun _ _ hphase => ?_
      cases hphase
    · exact h.goOn (by simp [hthread, Phase.isWaking]) fun _ _ hplace => by cases hplace
  · rename_i hthread
    cases hnext
    exact h.goOn (by simp [hthread, Phase.isWaking]) fun _ _ hplace => by cases hplace
  · cases hnext
    refine ⟨h.counted, h.noLostWake.wakeAll Place.loading .running, ?_⟩
    intro other tag word hother
    by_cases hsame : other = thread
    · subst hsame
      simp [wakeAll] at hother
    · simp only [wakeAll, Function.update_of_ne hsame] at hother
      refine h.believing other tag word ?_
      cases hbefore : waiting.phases other <;> rw [hbefore] at hother <;> cases hother
      rfl

theorem Sound.step (h : Sound known waiting) {move : Thread × Move} {next : Waiting Thread}
    (hbelieving : ∀ tag word, waiting.phases move.1 = .awake (.readingTag tag word) →
      waiting.frame.tag = tag → known word)
    (hnext : step waiting move = some next) : Sound known next := by
  obtain ⟨thread, move⟩ := move
  cases move with
  | call operation =>
      simp only [FrameWaiting.step] at hnext
      split at hnext
      · rename_i henabled
        obtain ⟨⟨frame, wake⟩, happly, rfl⟩ := Option.map_eq_some_iff.mp hnext
        exact h.call hknown henabled.1 henabled.2 happly
      · cases hnext
  | waitWhile wait =>
      simp only [FrameWaiting.step] at hnext
      split at hnext
      · rename_i hthread
        cases hnext
        exact h.goOn (by simp [hthread, Phase.isWaking]) fun _ _ hplace => by cases hplace
      · cases hnext
  | advance fails => exact h.advance hknown hbelieving hnext

end Steps

/-- In every reachable state, a thread that sleeps in one of the waits on the word
alone, and that no decided wake is about to reach, is blocked by the current word,
and the word has the waiter bit. -/
theorem asleep_blocked {moves : List (Thread × Move)} {final : Waiting Thread}
    (hrun : Machine.run step (initial Thread) moves = some final)
    (hquiet : ¬WakeDecided final.phases) {wait : WordWait}
    (hasleep : final.phases thread = .asleep (.onWord wait)) :
    wait.blocked final.frame.word = true ∧ hasAny kWaiters final.frame.word = true := by
  have hsound : Sound (fun _ => True) final :=
    Machine.invariant_of_run (fun _ _ _ h hnext => h.step (fun _ h => h) (fun _ _ _ _ => trivial)
      hnext) (sound_initial _) hrun
  exact hsound.noLostWake.asleep hquiet thread (.onWord wait) hasleep

/-- The phases of two threads and the word after a run. -/
def outcome (moves : List (Fin 2 × Move)) :
    Option (Phase Place Wait Word × Phase Place Wait Word × Word) :=
  (Machine.run step (initial (Fin 2)) moves).map fun final =>
    (final.phases 0, final.phases 1, final.frame.word)

theorem exists_of_outcome {moves : List (Fin 2 × Move)} {first second : Phase Place Wait Word}
    {word : Word} (h : outcome moves = some (first, second, word)) (hfirst : first.isWaking = false)
    (hsecond : second.isWaking = false) :
    ∃ final, Machine.run step (initial (Fin 2)) moves = some final ∧
      ¬WakeDecided final.phases ∧ final.phases 0 = first ∧ final.frame.word = word := by
  obtain ⟨final, hfinal, hsame⟩ := Option.map_eq_some_iff.mp h
  obtain ⟨rfl, hrest⟩ := Prod.mk.inj hsame
  obtain ⟨rfl, rfl⟩ := Prod.mk.inj hrest
  refine ⟨final, hfinal, ?_, rfl, rfl⟩
  rintro ⟨thread, hwaking⟩
  match thread with
  | 0 => exact absurd (hfirst.symm.trans hwaking) (by decide)
  | 1 => exact absurd (hsecond.symm.trans hwaking) (by decide)

/-- A frame is loaded and latched exclusively, and a reader goes to sleep on it. -/
def latchedReader : List (Fin 2 × Move) :=
  [(1, .call .popFree), (1, .call (.tryReserve true)), (1, .call (.publishResident false)),
    (1, .call .tryAcquireExclusive), (0, .waitWhile (.onWord .acquireShared)),
    (0, .advance false), (0, .advance false), (0, .advance false)]

theorem asleep_blocked_latchedReader :
    ∃ final, Machine.run step (initial (Fin 2)) latchedReader = some final ∧
      final.phases 0 = .asleep (.onWord .acquireShared) ∧
      sharedBlocked final.frame.word = true ∧ hasAny kWaiters final.frame.word = true := by
  obtain ⟨final, hfinal, hquiet, hreader, -⟩ :=
    exists_of_outcome (show outcome latchedReader =
      some (.asleep (.onWord .acquireShared), .awake .running, 0x30082#32) by decide) rfl rfl
  exact ⟨final, hfinal, hreader, asleep_blocked hfinal hquiet hreader⟩

/-- The word that `WaitWhile` gave to `WaitForLoad`'s predicate is Loading whenever
the predicate comes out true. -/
def TestsLoadingWord (waiting : Waiting Thread) (move : Thread × Move) : Prop :=
  match waiting.phases move.1 with
  | .awake (.readingTag tag word) => waiting.frame.tag = tag → state word = .loading
  | _ => True

instance (waiting : Waiting Thread) (move : Thread × Move) :
    Decidable (TestsLoadingWord waiting move) := by
  unfold TestsLoadingWord
  split <;> infer_instance

/-- In every run in which the predicate of `WaitForLoad` is true only for a Loading
word, a thread that sleeps in `WaitForLoad` and that no decided wake is about to
reach waits on a Loading frame. -/
theorem asleep_loading {moves : List (Thread × Move)} {final : Waiting Thread}
    (hmeets : Machine.Meets step TestsLoadingWord (initial Thread) moves)
    (hrun : Machine.run step (initial Thread) moves = some final)
    (hquiet : ¬WakeDecided final.phases) {tag : BufferTag}
    (hasleep : final.phases thread = .asleep (.waitForLoad tag)) :
    state final.frame.word = .loading := by
  have hsound : Sound (fun word => state word = .loading) final :=
    Machine.invariant_of_meets
      (fun _ _ _ h hmove hnext => h.step (fun hkeeps => hkeeps.loading)
        (fun _ _ hthread => by simpa [TestsLoadingWord, hthread] using hmove) hnext)
      (sound_initial _) hmeets hrun
  exact (hsound.noLostWake.asleep hquiet thread (.waitForLoad tag) hasleep).1

/-- The page that the readers below wait for. -/
def someTag : BufferTag := { fileId := 1#32, blockId := 0#64 }

def otherTag : BufferTag := { fileId := 1#32, blockId := 1#64 }

/-- A reader finds the frame Loading and goes to sleep before the load ends. -/
def waitingReader : List (Fin 2 × Move) :=
  [(1, .call .popFree), (1, .call (.tryReserve true)), (1, .call (.storeTag someTag)),
    (0, .waitWhile (.waitForLoad someTag)), (0, .advance false), (0, .advance false),
    (0, .advance false), (0, .advance false), (0, .advance false)]

theorem asleep_loading_waitingReader :
    ∃ final, Machine.run step (initial (Fin 2)) waitingReader = some final ∧
      final.phases 0 = .asleep (.waitForLoad someTag) ∧ state final.frame.word = .loading := by
  obtain ⟨final, hfinal, hquiet, hreader, -⟩ :=
    exists_of_outcome (show outcome waitingReader =
      some (.asleep (.waitForLoad someTag), .awake .running, 0x30001#32) by decide) rfl rfl
  have hmeets : Machine.Meets step TestsLoadingWord (initial (Fin 2)) waitingReader := by decide
  exact ⟨final, hfinal, hreader, asleep_loading hmeets hfinal hquiet hreader⟩

/-- A reader enters `WaitForLoad` during a load.  The load ends before the reader
loads the word, so it holds a Resident word.  The frame is evicted for another page
and evicted again to reload the first one, and the predicate, which reads the frame
again, finds it Loading with the right tag.  That load ends as well; the word is the
one the reader holds, its CAS succeeds and it goes to sleep. -/
def evictedReader : List (Fin 2 × Move) :=
  [(1, .call .popFree), (1, .call (.tryReserve true)), (1, .call (.storeTag someTag)),
    (0, .waitWhile (.waitForLoad someTag)),
    (1, .call (.publishResident false)), (1, .call .unpin),
    (0, .advance false),
    (1, .call (.tryReserve false)), (1, .call (.storeTag otherTag)),
    (1, .call (.publishResident false)), (1, .call .unpin),
    (1, .call (.tryReserve false)), (1, .call (.storeTag someTag)),
    (0, .advance false), (0, .advance false),
    (1, .call (.publishResident false)), (1, .call .unpin),
    (0, .advance false), (0, .advance false)]

theorem asleep_resident_evictedReader :
    ∃ final, Machine.run step (initial (Fin 2)) evictedReader = some final ∧
      ¬WakeDecided final.phases ∧ final.phases 0 = .asleep (.waitForLoad someTag) ∧
      state final.frame.word = .resident := by
  obtain ⟨final, hfinal, hquiet, hreader, hword⟩ :=
    exists_of_outcome (show outcome evictedReader =
      some (.asleep (.waitForLoad someTag), .awake .running, 0x10002#32) by decide) rfl rfl
  exact ⟨final, hfinal, hquiet, hreader, by rw [hword]; decide⟩

end Runs

end TelePath.FrameWaiting
