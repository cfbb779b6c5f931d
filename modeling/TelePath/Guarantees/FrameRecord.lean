import TelePath.Adequacy
import TelePath.Schedule

/-!
The control word of a frame stands for an abstract record: what the transitions of a run
do to the word is what they do to the record, whose counts are the numbers of owners.
-/

namespace TelePath

open FrameControl Logic

variable {n blockSize threads : Nat}

/-- The frame whose control word a step has changed. -/
def Event.onWord : Event n blockSize → Option (Fin n)
  | .pinned frame | .unpinned frame | .reserved frame | .published frame _ | .freed frame
  | .discarded frame _ _ _ | .acquiredShared frame _ _ | .acquiredExclusive frame _ _ _
  | .releasedExclusive frame _ _ | .latched frame | .unlatched frame | .parked frame
  | .dirtied frame _ | .queued frame | .begun frame | .withdrawn frame | .ended frame _ _ =>
      some frame
  | _ => none

/-- The record of a frame that nothing has been done to. -/
def ControlFields.fresh : ControlFields where
  state := .free
  dirty := false
  queued := false
  active := false
  prefetched := false
  redirtied := false
  exclusive := false
  shared := 0
  waiters := false
  pins := 0

/-- What a step does to the record of the frame it is about.  The counts have no bound
here, and no field depends on how the fields are packed. -/
def Event.update (record : ControlFields) : Event n blockSize → ControlFields
  | .pinned _ => { record with pins := record.pins + 1 }
  | .unpinned _ => { record with pins := record.pins - 1 }
  | .reserved _ => { ControlFields.fresh with
      state := .loading, pins := 1, waiters := record.waiters }
  | .published _ releasePin => { record with
      state := .resident
      pins := if releasePin then record.pins - 1 else record.pins
      waiters := false }
  | .freed _ => { ControlFields.fresh with
      exclusive := record.exclusive, shared := record.shared }
  | .discarded _ _ _ _ => ControlFields.fresh
  | .acquiredShared _ _ _ | .latched _ => { record with shared := record.shared + 1 }
  -- sleepers are woken by the last reader and by the one that makes room again
  | .unlatched _ => { record with
      shared := record.shared - 1
      waiters := record.waiters && !(record.shared - 1 = 0 || record.shared = kMaxShared) }
  | .acquiredExclusive _ _ _ _ => { record with exclusive := true }
  | .releasedExclusive _ _ _ => { record with
      exclusive := false
      redirtied := record.redirtied || record.writeback
      waiters := false }
  | .dirtied _ _ => { record with
      dirty := true, redirtied := record.redirtied || record.writeback }
  | .queued _ => { record with queued := true, redirtied := false }
  | .begun _ => { record with queued := false, active := true }
  | .withdrawn _ => { record with queued := false, redirtied := false, waiters := false }
  | .ended _ succeeded _ => { record with
      dirty := record.dirty && !(succeeded && !record.redirtied && !record.exclusive)
      queued := false
      active := false
      redirtied := false
      waiters := false }
  | .parked _ => { record with waiters := true }
  | _ => record

def recordOf : Events n blockSize → Fin n → ControlFields
  | [], _ => ControlFields.fresh
  | event :: earlier, frame =>
      if event.onWord = some frame then event.update (recordOf earlier frame)
      else recordOf earlier frame

/-- Pins that a step has handed out or taken back; a reservation comes with one. -/
@[simp] def Event.pinChange : Event n blockSize → Int
  | .pinned _ | .reserved _ => 1
  | .unpinned _ | .freed _ | .discarded _ _ _ _ => -1
  | .published _ releasePin => if releasePin then -1 else 0
  | _ => 0

@[simp] def Event.sharedChange : Event n blockSize → Int
  | .acquiredShared _ _ _ | .latched _ => 1
  | .unlatched _ => -1
  | _ => 0

@[simp] def Event.exclusiveChange : Event n blockSize → Int
  | .acquiredExclusive _ _ _ _ => 1
  | .releasedExclusive _ _ _ => -1
  | _ => 0

/-- How many owners the steps of a run have left: those that came less those that went. -/
def owners (change : Event n blockSize → Int) : Events n blockSize → Fin n → Int
  | [], _ => 0
  | event :: earlier, frame =>
      owners change earlier frame + if event.onWord = some frame then change event else 0

/-- A step takes one record to another, and its counts move by what the step hands out. -/
structure Follows (event : Event n blockSize) (before after : ControlFields) : Prop where
  update : after = event.update before
  pins : (after.pins : Int) = before.pins + event.pinChange
  shared : (after.shared : Int) = before.shared + event.sharedChange
  exclusive : (if after.exclusive then 1 else 0 : Int) =
    (if before.exclusive then 1 else 0) + event.exclusiveChange

section Transitions

attribute [local simp] Event.update

variable {word next : Word} {frame : Fin n}

theorem follows_pinned (h : tryPinResident word = some (true, next)) :
    Follows (.pinned frame : Event n blockSize) (fields word) (fields next) := by
  obtain ⟨hfalse, -⟩ | ⟨-, -, -, hnext⟩ := tryPinResident_cases h
  · cases hfalse
  · rw [hnext]
    exact ⟨rfl, by simp, by simp, by simp⟩

theorem follows_unpinned (h : 0 < (fields word).pins) :
    Follows (.unpinned frame : Event n blockSize) (fields word) (fields (unpin word).2) := by
  rw [(unpin_of_pinned word h).2]
  refine ⟨rfl, ?_, by simp, by simp⟩
  simp only [Event.pinChange]
  omega

theorem unlatched_fields (h : latched word = false) :
    (fields word).exclusive = false ∧ (fields word).shared = 0 := by
  rw [latched_eq] at h
  simpa using h

theorem follows_reserved {popped : Bool} {observed : Word}
    (h : tryReserve popped word = ((.reserved, observed), next)) :
    Follows (.reserved frame : Event n blockSize) (fields word) (fields next) := by
  obtain ⟨-, -, -, -, hpins, hlatch, -, hnext⟩ := tryReserve_reserved h
  obtain ⟨hexclusive, hshared⟩ := unlatched_fields hlatch
  rw [hnext]
  exact ⟨rfl, by simp [hpins], by simp [hshared],
    by simp [hexclusive]⟩

theorem follows_published (releasePin : Bool) (h : (fields word).pins = 1) :
    Follows (.published frame releasePin : Event n blockSize) (fields word)
      (fields (publishResident releasePin word).1) := by
  have hwake : (publishResident releasePin word).2 = (fields word).waiters := by
    simp [publishResident, updateAndWake, fields]
  rw [fields_publishResident releasePin word h, hwake]
  cases releasePin <;> constructor <;>
    simp [h]

theorem follows_freed (h : (fields word).pins = 1) :
    Follows (.freed frame : Event n blockSize) (fields word) (fields (releaseToFree word).1) := by
  have hwake : (releaseToFree word).2 = (fields word).waiters := by
    simp [releaseToFree, updateAndWake, fields]
  rw [fields_releaseToFree, hwake]
  constructor <;> simp [ControlFields.fresh, h]

theorem follows_discarded {previous : Option Word} {wake : Bool} {tag : BufferTag}
    {page : Page blockSize} {wasDirty : Bool}
    (h : tryDiscardPinned word = ((.discarded, previous), next, wake)) :
    Follows (.discarded frame tag page wasDirty) (fields word) (fields next) := by
  obtain ⟨-, rfl, -, -, hpins, -, hlatch⟩ := tryDiscardPinned_discarded h
  obtain ⟨hexclusive, hshared⟩ := unlatched_fields hlatch
  have hzero : fields 0#32 = ControlFields.fresh := by decide
  rw [hzero]
  exact ⟨rfl, by simp [hpins, ControlFields.fresh],
    by simp [hshared, ControlFields.fresh],
    by simp [hexclusive, ControlFields.fresh]⟩

theorem follows_dirtied (wasClean : Bool) (h : (fields word).state = .resident) :
    Follows (.dirtied frame wasClean : Event n blockSize) (fields word)
      (fields (markDirty word).2) := by
  rw [(fields_markDirty word h).2, hasWriteback_eq]
  exact ⟨rfl, by simp, by simp, by simp⟩

theorem follows_acquiredShared {event : Event n blockSize}
    (hevent : event = .latched frame ∨ ∃ tag page, event = .acquiredShared frame tag page)
    (h : tryAcquireShared word = (true, next)) : Follows event (fields word) (fields next) := by
  rw [(tryAcquireShared_true h).2.2]
  obtain rfl | ⟨tag, page, rfl⟩ := hevent
  · exact ⟨rfl, by simp, by simp, by simp⟩
  · exact ⟨rfl, by simp, by simp, by simp⟩

theorem follows_unlatched (h : 0 < (fields word).shared) :
    Follows (.unlatched frame : Event n blockSize) (fields word)
      (fields (releaseShared word).1) := by
  have hcount : sharedHolders (word - kSharedOne) = sharedHolders word - 1 :=
    congrArg ControlFields.shared (fields_sub_sharedOne word h)
  have hwake : (releaseShared word).2 = ((fields word).waiters &&
      ((fields word).shared - 1 = 0 || (fields word).shared = kMaxShared)) := by
    simp only [releaseShared, updateAndWake, hcount]
    rw [Bool.decide_or]
    rfl
  rw [fields_releaseShared word h, hwake]
  refine ⟨?_, by simp, ?_, by simp⟩
  · simp only [Event.update, ControlFields.mk.injEq, true_and, and_true]
    cases (fields word).waiters <;> simp
  · simp only [Event.sharedChange]
    omega

theorem follows_acquiredExclusive {tag : BufferTag} {mode : ReadBufferMode}
    {page : Page blockSize} (h : tryAcquireExclusive word = (true, next)) :
    Follows (.acquiredExclusive frame tag mode page) (fields word) (fields next) := by
  obtain ⟨hlatch, hnext⟩ := tryAcquireExclusive_true h
  rw [hnext]
  exact ⟨rfl, by simp, by simp,
    by simp [(unlatched_fields hlatch).1]⟩

theorem follows_releasedExclusive {tag : BufferTag} {page : Page blockSize}
    (h : (fields word).exclusive = true) :
    Follows (.releasedExclusive frame tag page) (fields word)
      (fields (releaseExclusive word).1) := by
  have hwake : (releaseExclusive word).2 = (fields word).waiters := by
    simp [releaseExclusive, updateAndWake, fields]
  rw [fields_releaseExclusive, hwake, hasWriteback_eq]
  exact ⟨by simp, by simp, by simp,
    by simp [h]⟩

theorem follows_queued {skipIfPinned : Bool}
    (h : tryQueueWriteback skipIfPinned word = (.queued, next)) :
    Follows (.queued frame : Event n blockSize) (fields word) (fields next) := by
  obtain ⟨-, -, -, -, hnext⟩ := tryQueueWriteback_queued h
  rw [hnext]
  exact ⟨rfl, by simp, by simp, by simp⟩

theorem follows_begun :
    Follows (.begun frame : Event n blockSize) (fields word) (fields (beginWriteback word).1) := by
  rw [fields_beginWriteback]
  exact ⟨rfl, by simp, by simp, by simp⟩

theorem follows_withdrawn :
    Follows (.withdrawn frame : Event n blockSize) (fields word)
      (fields (cancelQueuedWriteback word).1) := by
  have hwake : (cancelQueuedWriteback word).2 = (fields word).waiters := by
    simp [cancelQueuedWriteback, updateAndWake, fields]
  rw [fields_cancelQueuedWriteback, hwake]
  exact ⟨by simp, by simp, by simp,
    by simp⟩

theorem follows_ended (succeeded cleared : Bool) (h : (fields word).state = .resident) :
    Follows (.ended frame succeeded cleared : Event n blockSize) (fields word)
      (fields (completeWriteback succeeded word).2.1) := by
  have hclears : ((fields word).dirty && !clearsDirty succeeded word) =
      ((fields word).dirty &&
        !(succeeded && !(fields word).redirtied && !(fields word).exclusive)) := by
    rw [clearsDirty, hasAny_or, (isResident_iff word).mpr h]
    change ((fields word).dirty && !(succeeded && true && (fields word).dirty &&
      !((fields word).redirtied || (fields word).exclusive))) = _
    generalize (fields word).dirty = dirty, (fields word).redirtied = redirtied,
      (fields word).exclusive = exclusive
    decide +revert
  have hwake : (completeWriteback succeeded word).2.2 = (fields word).waiters := by
    simp [completeWriteback, updateAndWake, fields]
  rw [(fields_completeWriteback succeeded word).2, hwake, hclears]
  exact ⟨by simp, by simp, by simp,
    by simp⟩

theorem follows_parked :
    Follows (.parked frame : Event n blockSize) (fields word) (fields (word ||| kWaiters)) := by
  rw [fields_or_waiters]
  exact ⟨rfl, by simp, by simp, by simp⟩

end Transitions

/-- A step changes the word of the frame it is about as it changes the record, and no
other word. -/
def WordStep (shared : Shared n blockSize) (event : Event n blockSize)
    (shared' : Shared n blockSize) : Prop :=
  ∀ frame, if event.onWord = some frame then
      Follows event (fields (shared.word frame)) (fields (shared'.word frame))
    else shared'.word frame = shared.word frame

section WordStep

variable {shared shared' : Shared n blockSize} {event : Event n blockSize} {frame : Fin n}
  {choice : Choice n} {action : Action n blockSize} {reply : Reply action}

theorem WordStep.same (hevent : event.onWord = none)
    (hword : ∀ frame, shared'.word frame = shared.word frame) : WordStep shared event shared' := by
  intro frame
  rw [hevent, if_neg (by simp)]
  exact hword frame

theorem WordStep.setWord {word : Word} (hevent : event.onWord = some frame)
    (h : Follows event (fields (shared.word frame)) (fields word)) :
    WordStep shared event (shared.setWord frame word) := by
  intro other
  by_cases hother : other = frame
  · subst hother
    rw [if_pos hevent, Shared.word_setWord_self]
    exact h
  · rw [hevent, if_neg fun heq => hother (Option.some.inj heq).symm]
    exact shared.word_setWord_of_ne word hother

/-- What the callers of a transition see to; the packed word relies on it. -/
def Action.Allowed (shared : Shared n blockSize) : Action n blockSize → Prop
  | .unpin frame => 0 < (fields (shared.word frame)).pins
  | .releaseShared frame => 0 < (fields (shared.word frame)).shared
  | .releaseExclusive frame _ => (fields (shared.word frame)).exclusive = true
  | .publishResident frame _ | .releaseToFree frame => (fields (shared.word frame)).pins = 1
  | .markDirty frame | .completeWriteback frame _ =>
      (fields (shared.word frame)).state = .resident
  | _ => True

/-- The transitions of the control word. -/
def Action.onWord : Action n blockSize → Bool
  | .tryPinResident _ | .unpin _ | .tryReserve _ _ | .publishResident _ _ | .releaseToFree _
  | .tryDiscardPinned _ | .markDirty _ | .tryAcquireShared _ | .acquireShared _ _
  | .releaseShared _ | .acquireExclusive _ _ _ | .releaseExclusive _ _
  | .tryQueueWriteback _ _ | .beginWriteback _ | .cancelQueuedWriteback _
  | .completeWriteback _ _ => true
  | _ => false

theorem observe_onWord (h : action.onWord = false) :
    (observe shared action reply).onWord = none := by
  cases action
  case popFree => cases reply <;> rfl
  case lowerRecLsn frame lsn handle => cases handle <;> rfl
  case preWriteHook tag page =>
      simp only [observe]
      split <;> rfl
  case submitRequest request =>
      simp only [observe]
      split <;> rfl
  case reap => cases reply <;> rfl
  all_goals first
    | rfl
    | exact Bool.noConfusion h

theorem Shared.word_setDescriptor {update : BufferDescriptor → BufferDescriptor}
    (h : ∀ old, (update old).control = old.control) (other : Fin n) :
    (shared.setDescriptor frame update).word other = shared.word other := by
  by_cases hother : other = frame
  · subst hother
    simp [Shared.word, Shared.setDescriptor, h]
  · simp [Shared.word, Shared.setDescriptor, hother]

theorem exec_word (h : action.onWord = false)
    (hexec : exec shared choice action = some (reply, shared')) (other : Fin n) :
    shared'.word other = shared.word other := by
  cases action
  case waitTask task =>
      obtain ⟨_, -, heq⟩ := Option.map_eq_some_iff.mp hexec
      cases heq
      rfl
  case reap =>
      simp only [exec] at hexec
      split at hexec
      · cases hexec
        rfl
      · obtain ⟨_, -, heq⟩ := Option.map_eq_some_iff.mp hexec
        cases heq
        rfl
  all_goals first
    | exact Bool.noConfusion h
    | (cases hexec
       first | rfl | exact Shared.word_setDescriptor (fun _ => by rfl) other)
    | (simp only [exec] at hexec
       repeat' split at hexec
       all_goals first
         | (cases hexec; done)
         | (cases hexec; rfl))

theorem exec_wordStep (hallowed : action.Allowed shared)
    (hexec : exec shared choice action = some (reply, shared')) :
    WordStep shared (observe shared action reply) shared' := by
  cases action
  case tryPinResident frame =>
      obtain ⟨⟨_, next⟩, htry, heq⟩ := Option.map_eq_some_iff.mp hexec
      cases heq
      obtain ⟨rfl, rfl, -⟩ | ⟨rfl, -⟩ := tryPinResident_cases htry
      · exact .same rfl (by simp)
      · exact .setWord rfl (follows_pinned htry)
  case unpin frame =>
      obtain ⟨rfl, rfl⟩ := Shared.updateWord_eq hexec
      exact .setWord rfl (follows_unpinned hallowed)
  case tryReserve frame popped =>
      obtain ⟨hreply, rfl⟩ := Shared.updateWord_eq hexec
      obtain ⟨outcome, observed⟩ := reply
      have htry : tryReserve popped (shared.word frame) =
          ((outcome, observed), (tryReserve popped (shared.word frame)).2) :=
        Prod.ext hreply.symm rfl
      by_cases hreserved : outcome = .reserved
      · subst hreserved
        exact .setWord rfl (follows_reserved htry)
      · rw [tryReserve_unchanged htry hreserved, Shared.setWord_word, observe, if_neg hreserved]
        exact .same rfl fun _ => rfl
  case publishResident frame releasePin =>
      cases hexec
      exact .setWord rfl (follows_published releasePin hallowed)
  case releaseToFree frame =>
      cases hexec
      exact .setWord rfl (follows_freed hallowed)
  case tryDiscardPinned frame =>
      obtain ⟨hreply, rfl⟩ := Shared.updateWord_eq hexec
      obtain ⟨outcome, previous⟩ := reply
      have htry : tryDiscardPinned (shared.word frame) =
          ((outcome, previous), (tryDiscardPinned (shared.word frame)).2.1,
            (tryDiscardPinned (shared.word frame)).2.2) :=
        Prod.ext hreply.symm rfl
      by_cases hdiscarded : outcome = .discarded
      · subst hdiscarded
        exact .setWord rfl (follows_discarded htry)
      · have hsame := tryDiscardPinned_unchanged htry hdiscarded
        simp only [hsame, Shared.setWord_word, observe, if_neg hdiscarded]
        exact .same rfl fun _ => rfl
  case markDirty frame =>
      obtain ⟨rfl, rfl⟩ := Shared.updateWord_eq hexec
      exact .setWord rfl (follows_dirtied _ hallowed)
  case tryAcquireShared frame =>
      obtain ⟨hreply, rfl⟩ := Shared.updateWord_eq hexec
      have htry : tryAcquireShared (shared.word frame) =
          (reply, (tryAcquireShared (shared.word frame)).2) := Prod.ext hreply.symm rfl
      cases hacquired : (show Bool from reply) with
      | true =>
          subst hacquired
          exact .setWord rfl (follows_acquiredShared (.inl rfl) htry)
      | false =>
          subst hacquired
          rw [tryAcquireShared_unchanged htry, Shared.setWord_word]
          exact .same rfl fun _ => rfl
  case acquireShared frame handle =>
      simp only [exec] at hexec
      split at hexec
      · rename_i next htry
        cases hexec
        cases handle with
        | none => exact .setWord rfl (follows_acquiredShared (.inl rfl) htry)
        | some tag => exact .setWord rfl (follows_acquiredShared (.inr ⟨_, _, rfl⟩) htry)
      · cases hexec
  case releaseShared frame =>
      cases hexec
      exact .setWord rfl (follows_unlatched hallowed)
  case acquireExclusive frame tag mode =>
      simp only [exec] at hexec
      split at hexec
      · rename_i next htry
        cases hexec
        exact .setWord rfl (follows_acquiredExclusive htry)
      · cases hexec
  case releaseExclusive frame tag =>
      cases hexec
      exact .setWord rfl (follows_releasedExclusive hallowed)
  case tryQueueWriteback frame skip =>
      obtain ⟨hreply, rfl⟩ := Shared.updateWord_eq hexec
      have htry : tryQueueWriteback skip (shared.word frame) =
          (reply, (tryQueueWriteback skip (shared.word frame)).2) := Prod.ext hreply.symm rfl
      by_cases hqueued : reply = .queued
      · subst hqueued
        exact .setWord rfl (follows_queued htry)
      · rw [tryQueueWriteback_unchanged htry hqueued, Shared.setWord_word, observe,
          if_neg hqueued]
        exact .same rfl fun _ => rfl
  case beginWriteback frame =>
      cases hexec
      exact .setWord rfl follows_begun
  case cancelQueuedWriteback frame =>
      cases hexec
      exact .setWord rfl follows_withdrawn
  case completeWriteback frame succeeded =>
      obtain ⟨rfl, rfl⟩ := Shared.updateWord_eq hexec
      exact .setWord rfl (follows_ended succeeded _ hallowed)
  all_goals exact .same (observe_onWord rfl) (exec_word rfl hexec)

end WordStep

section Allowed

variable {shared : Shared n blockSize} {action : Action n blockSize}
  {seen used others : Multiset (Token n blockSize)}
  {given : Reply action → Multiset (Token n blockSize) → Prop}

theorem Trade.allowed (htrade : Trade action seen used given)
    (h : Control shared (used + (seen + others))) : action.Allowed shared := by
  cases htrade
  case silent hsilent =>
      cases action <;> trivial
  case unpin frame tag =>
      have hpin : 0 < held ({.pin frame tag} + (0 + others)) frame .pin :=
        held_pos mem_own (by simp [Token.rights])
      have hpins := (h.counts frame).pins
      show 0 < (fields (shared.word frame)).pins
      omega
  case releaseShared frame =>
      have hlatch : 0 < held ({.shared frame} + {.reader frame} + (0 + others)) frame .shared := by
        rw [add_assoc]
        exact held_pos mem_own (by simp [Token.rights])
      have hcount := (h.counts frame).shared
      show 0 < (fields (shared.word frame)).shared
      omega
  case releaseExclusive frame tag mark =>
      rw [add_assoc] at h
      exact (h.of_exclusive mem_own).1
  case markDirty frame tag mark =>
      exact h.resident_of_pin tag (mem_rest (by simp))
  case publish frame tag releasePin => exact h.pins_of_loading mem_own
  case publishZeroed frame tag => exact h.pins_of_loading mem_own
  case releaseToFree frame => exact h.pins_of_loading mem_own
  case completeWriteback frame tag snapshot => exact (h.of_writeback mem_own).2.1
  case abandonWriteback frame => exact (h.of_writeback mem_own).2.1
  all_goals trivial

theorem Rule.allowed (hrule : Rule action seen used given)
    (h : Control shared (used + (seen + others))) : action.Allowed shared := by
  cases hrule with
  | trade htrade => exact htrade.allowed h
  | handover hhandover => cases hhandover <;> trivial

end Allowed

/-- A record that is what the history of its frame makes it, and counts its owners. -/
structure Recorded (events : Events n blockSize) (frame : Fin n) (record : ControlFields) :
    Prop where
  refines : record = recordOf events frame
  pins : (record.pins : Int) = owners Event.pinChange events frame
  shared : (record.shared : Int) = owners Event.sharedChange events frame
  exclusive : (if record.exclusive then 1 else 0 : Int) =
    owners Event.exclusiveChange events frame

theorem Recorded.step {events : Events n blockSize} {event : Event n blockSize}
    {shared shared' : Shared n blockSize} {frame : Fin n}
    (h : Recorded events frame (fields (shared.word frame)))
    (hstep : WordStep shared event shared') :
    Recorded (event :: events) frame (fields (shared'.word frame)) := by
  have hframe := hstep frame
  split at hframe
  · rename_i hevent
    constructor
    · rw [recordOf, if_pos hevent, ← h.refines]
      exact hframe.update
    · rw [owners, if_pos hevent, ← h.pins]
      exact hframe.pins
    · rw [owners, if_pos hevent, ← h.shared]
      exact hframe.shared
    · rw [owners, if_pos hevent, ← h.exclusive]
      exact hframe.exclusive
  · rename_i hevent
    rw [hframe]
    constructor
    · rw [recordOf, if_neg hevent, h.refines]
    · rw [owners, if_neg hevent, h.pins, add_zero]
    · rw [owners, if_neg hevent, h.shared, add_zero]
    · rw [owners, if_neg hevent, h.exclusive, add_zero]

/-- What the fields of a frame's record say about each other. -/
structure WellFormed (record : ControlFields) : Prop where
  pins_le : record.pins ≤ 32767
  shared_le : record.shared ≤ 255
  valid : record.state ≠ .invalid
  free : record.state = .free →
    record.pins = 0 ∧ record.dirty = false ∧ record.writeback = false
  loading : record.state = .loading →
    record.pins = 1 ∧ record.dirty = false ∧ record.writeback = false
  writeback : record.writeback = true → record.state = .resident ∧ record.dirty = true
  single : ¬(record.queued = true ∧ record.active = true)
  latch : record.exclusive = true → record.shared = 0

theorem Counts.wellFormed {word : Word} {freeCount : Nat} {held : Right → Nat}
    (h : Counts (fields word) freeCount held) : WellFormed (fields word) := by
  have hclean : (fields word).state ≠ .resident →
      (fields word).dirty = false ∧ (fields word).writeback = false := by
    intro hstate
    constructor
    · by_contra hdirty
      exact hstate (h.clean (by simpa using hdirty))
    · by_contra hwriteback
      exact hstate (h.writing (by simpa using hwriteback)).1
  have hunpinned : (fields word).state ≠ .resident → held .pin = 0 := by
    intro hstate
    by_contra hpin
    exact hstate (h.pinned (Nat.pos_of_ne_zero hpin))
  have hpins := h.pins
  have hloading := h.loading
  refine ⟨?_, ?_, h.valid, fun hstate => ?_, fun hstate => ?_, h.writing, ?_, h.latch⟩
  · rw [fields_eq_bits]
    exact Nat.le_of_lt_succ (word.extractLsb' 17 15).isLt
  · rw [fields_eq_bits]
    exact Nat.le_of_lt_succ (word.extractLsb' 8 8).isLt
  · rw [hstate, if_neg (by decide)] at hloading
    rw [hpins, hunpinned (by rw [hstate]; decide), hloading]
    exact ⟨rfl, hclean (by rw [hstate]; decide)⟩
  · rw [hstate, if_pos rfl] at hloading
    rw [hpins, hunpinned (by rw [hstate]; decide), hloading]
    exact ⟨rfl, hclean (by rw [hstate]; decide)⟩
  · rintro ⟨hqueued, hactive⟩
    have hsingle := h.single
    rw [h.queued, h.active, if_pos hqueued, if_pos hactive] at hsingle
    omega

theorem Shared.word_complete (shared : Shared n blockSize) (index : Nat)
    (request : DiskRequest n blockSize) (status : Status) (left : Fin n → Page blockSize)
    (frame : Fin n) : (shared.complete index request status left).word frame = shared.word frame := by
  simp only [Shared.complete, Shared.word, Shared.performRequest, Shared.failRequest]
  cases request.operation <;> split <;> rfl

section Run

variable {options : Options} {start system : System n blockSize threads}
  {trace : Trace n blockSize threads}

theorem Contract.Move.wordStep {bytes : BufferTag → Page blockSize}
    {shared shared' : Shared n blockSize} {shares shares' : Fin threads → Multiset (Token n blockSize)}
    {entry : Entry n blockSize threads} {events : Events n blockSize}
    (h : Accounted bytes events shared (∑ id, shares id))
    (hmove : (tokenContract bytes).Move shared shares entry shared' shares') :
    WordStep shared entry.event shared' := by
  cases hmove with
  | act rule share gives enabled =>
      obtain ⟨others, hbooks⟩ := h.split share
      exact exec_wordStep (Rule.allowed rule hbooks.control) enabled
  | @idle id event share quiet same =>
      refine .same ?_ fun _ => rfl
      cases event with
      | quiet | invoked | returned => rfl
      | _ => cases quiet
  | park frame => exact .setWord rfl follows_parked
  | complete inFlight status left => exact .same rfl (shared.word_complete _ _ _ _)
  | stop error => exact .same rfl fun _ => rfl

theorem recorded_initial (hinitial : Initial start) (frame : Fin n) :
    Recorded ([] : Events n blockSize) frame (fields (start.shared.word frame)) := by
  obtain ⟨files, segment, cleaner, strategies, hshared⟩ := hinitial.shared
  rw [hshared, fields_initial]
  constructor <;> rfl

theorem Run.recorded (hinitial : Initial start) (hrun : Run options start trace system)
    (frame : Fin n) : Recorded trace.events frame (fields (system.shared.word frame)) := by
  obtain ⟨shares, -, hrecorded⟩ := hrun.accounted hinitial
    (fun trace shared _ => Recorded trace.events frame (fields (shared.word frame)))
    (recorded_initial hinitial frame)
    fun trace shared shares entry shared' shares' hinv _ hrecorded hmove =>
      hrecorded.step (hmove.wordStep hinv)
  exact hrecorded

/-- In every state of every run the control word of each frame decodes to the record
that the steps of the run make, its counts are the numbers of owners, and its fields
fit together. -/
theorem word_refines_record (hinitial : Initial start) (hrun : Run options start trace system)
    (frame : Fin n) :
    Recorded trace.events frame (fields (system.shared.word frame)) ∧
      WellFormed (fields (system.shared.word frame)) := by
  obtain ⟨all, hbooks⟩ := hrun.books hinitial
  exact ⟨hrun.recorded hinitial frame, (hbooks.control.counts frame).wellFormed⟩

/-- A run in which a client has come to hold a new page exclusively. -/
theorem word_refines_record_held : ∃ (trace : Trace 1 1 1) (system : System 1 1 1),
    Run ⟨.direct, 1⟩ (.fresh fun _ => .absent) trace system ∧
      ((fields (system.shared.word 0)).pins = 1 ∧
        (fields (system.shared.word 0)).exclusive = true) ∧
      Recorded trace.events 0 (fields (system.shared.word 0)) ∧
      WellFormed (fields (system.shared.word 0)) := by
  obtain ⟨trace, system, hrun, htest⟩ := @exists_run_of_play 1 1 1 ⟨.direct, 1⟩
    (.fresh fun _ => .absent)
    (.invoke 0 (.readBufferExclusive {} none .zeroAndLock) :: turnsOf 0 19)
    (fun reached => (fields (reached.2.shared.word 0)).pins = 1 ∧
      (fields (reached.2.shared.word 0)).exclusive = true) (by decide +kernel)
  exact ⟨trace, system, hrun, of_decide_eq_true htest,
    word_refines_record (System.fresh_initial _) hrun 0⟩

end Run

end TelePath
