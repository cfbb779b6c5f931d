import Mathlib.Algebra.BigOperators.Ring.Finset
import Mathlib.Algebra.Order.BigOperators.Group.Finset
import Mathlib.Combinatorics.Enumerative.DoubleCounting
import TelePath.Guarantees.FrameRecord
import TelePath.Spec.Counting

/-!
The count of dirty pages: with what the threads have yet to add it is the number of dirty
frames, and it never falls below zero.
-/

namespace TelePath

open FrameControl Logic Manager

variable {n blockSize threads : Nat}

/-- By how much a step has changed the number of dirty frames. -/
@[simp] def Event.dirtyChange : Event n blockSize → Int
  | .dirtied _ wasClean => if wasClean then 1 else 0
  | .ended _ _ clearedDirty => if clearedDirty then -1 else 0
  | .discarded _ _ _ wasDirty => if wasDirty then -1 else 0
  | _ => 0

/-- By how much a step has changed the count of dirty pages. -/
@[simp] def Event.countChange : Event n blockSize → Int
  | .counted amount => amount.toInt
  | _ => 0

/-- The count of dirty pages as an integer that never wraps. -/
def dirtyCount : Events n blockSize → Int
  | [] => 0
  | event :: earlier => dirtyCount earlier + event.countChange

/-- The number of frames whose control word has the dirty bit set. -/
def Shared.dirtyFrames (shared : Shared n blockSize) : Nat :=
  (Finset.univ.filter fun frame => isDirty (shared.word frame) = true).card

/-- What a thread still has to add to the count. -/
def Activity.owed : Activity n blockSize → Int
  | .idle => 0
  | .calling _ rest => TelePath.owed rest
  | .background rest => TelePath.owed rest

theorem observe_changes (shared : Shared n blockSize) (action : Action n blockSize)
    (reply : Reply action) :
    (observe shared action reply).dirtyChange = action.dirtyChange reply ∧
      (observe shared action reply).countChange = action.countChange := by
  cases action with
  | popFree => cases reply <;> exact ⟨rfl, rfl⟩
  | tryPinResident frame => cases reply <;> exact ⟨rfl, rfl⟩
  | tryReserve frame popped =>
      simp only [observe]
      split <;> exact ⟨rfl, rfl⟩
  | tryDiscardPinned frame =>
      simp only [observe, Action.dirtyChange, Action.countChange]
      split <;> simp [*]
  | tryAcquireShared frame => cases reply <;> exact ⟨rfl, rfl⟩
  | acquireShared frame handle => cases handle <;> exact ⟨rfl, rfl⟩
  | lowerRecLsn frame lsn handle => cases handle <;> exact ⟨rfl, rfl⟩
  | tryQueueWriteback frame skip =>
      simp only [observe]
      split <;> exact ⟨rfl, rfl⟩
  | preWriteHook tag page =>
      simp only [observe]
      split <;> exact ⟨rfl, rfl⟩
  | submitRequest request =>
      simp only [observe]
      split <;> exact ⟨rfl, rfl⟩
  | reap => cases reply <;> exact ⟨rfl, rfl⟩
  | _ => exact ⟨rfl, rfl⟩

/-! ### The dirty bits -/

/-- A step says truly how it found the dirty bit. -/
def Event.Honest (before : ControlFields) : Event n blockSize → Prop
  | .dirtied _ wasClean => wasClean = !before.dirty
  | .ended _ succeeded clearedDirty => clearedDirty =
      (before.dirty && (succeeded && !before.redirtied && !before.exclusive))
  | .discarded _ _ _ wasDirty => wasDirty = before.dirty ∧ before.exclusive = false
  | .reserved _ | .freed _ => before.dirty = false
  | _ => True

section Follows

variable {event : Event n blockSize} {before after : ControlFields}

theorem Follows.dirty (h : Follows event before after) (honest : event.Honest before) :
    (if after.dirty then 1 else 0 : Int) =
      (if before.dirty then 1 else 0) + event.dirtyChange := by
  rw [h.update]
  cases event with
  | reserved frame | freed frame =>
      have hclean : before.dirty = false := honest
      simp [Event.update, ControlFields.fresh, hclean]
  | discarded frame tag page wasDirty =>
      rw [Event.dirtyChange, honest.1]
      cases before.dirty <;> rfl
  | dirtied frame wasClean =>
      rw [Event.dirtyChange, show wasClean = !before.dirty from honest]
      cases before.dirty <;> rfl
  | ended frame succeeded clearedDirty =>
      rw [Event.dirtyChange, show clearedDirty = _ from honest, Event.update]
      generalize (succeeded && !before.redirtied && !before.exclusive) = clears
      cases before.dirty <;> cases clears <;> rfl
  | _ => exact (add_zero _).symm

theorem Follows.stays_dirty (h : Follows event before after) (honest : event.Honest before)
    (hdirty : before.dirty = true) (hexclusive : before.exclusive = true) :
    after.dirty = true := by
  rw [h.update]
  cases event with
  | reserved frame | freed frame => exact absurd (hdirty.symm.trans honest) (by decide)
  | discarded frame tag page wasDirty =>
      exact absurd (hexclusive.symm.trans honest.2) (by decide)
  | dirtied frame wasClean => rfl
  | ended frame succeeded clearedDirty => simp [Event.update, hdirty, hexclusive]
  | _ => exact hdirty

end Follows

section Honest

variable {shared shared' : Shared n blockSize} {event : Event n blockSize}
  {shares shares' : Fin threads → Multiset (Token n blockSize)}
  {entry : Entry n blockSize threads} {bytes : BufferTag → Page blockSize}
  {events : Events n blockSize}

theorem Rule.honest {action : Action n blockSize} {reply : Reply action} {choice : Choice n}
    {seen used others : Multiset (Token n blockSize)}
    {given : Reply action → Multiset (Token n blockSize) → Prop}
    (hrule : Rule action seen used given) (h : Control shared (used + (seen + others)))
    (hexec : exec shared choice action = some (reply, shared')) {frame : Fin n}
    (hframe : (observe shared action reply).onWord = some frame) :
    (observe shared action reply).Honest (fields (shared.word frame)) := by
  have hallowed := hrule.allowed h
  cases action
  case markDirty marked =>
      obtain ⟨rfl, rfl⟩ := Shared.updateWord_eq hexec
      obtain rfl : marked = frame := Option.some.inj hframe
      show ((markDirty (shared.word marked)).1.getD false) = _
      rw [(fields_markDirty _ hallowed).1]
      rfl
  case completeWriteback ended succeeded =>
      obtain ⟨rfl, rfl⟩ := Shared.updateWord_eq hexec
      obtain rfl : ended = frame := Option.some.inj hframe
      show (completeWriteback succeeded (shared.word ended)).1.clearedDirty = _
      rw [(fields_completeWriteback succeeded _).1, Bool.eq_iff_iff, clearsDirty_iff]
      have hresident : (fields (shared.word ended)).state = .resident := hallowed
      simp only [hresident, true_and, Bool.and_eq_true, Bool.not_eq_true']
      tauto
  case tryDiscardPinned discarded =>
      obtain ⟨hreply, -⟩ := Shared.updateWord_eq hexec
      obtain ⟨outcome, previous⟩ := reply
      have htry : tryDiscardPinned (shared.word discarded) =
          ((outcome, previous), (tryDiscardPinned (shared.word discarded)).2.1,
            (tryDiscardPinned (shared.word discarded)).2.2) :=
        Prod.ext hreply.symm rfl
      by_cases hdiscarded : outcome = .discarded
      · subst hdiscarded
        obtain rfl : discarded = frame := Option.some.inj hframe
        obtain ⟨rfl, -, -, -, -, -, hlatch⟩ := tryDiscardPinned_discarded htry
        exact ⟨rfl, (unlatched_fields hlatch).1⟩
      · simp only [observe, if_neg hdiscarded]
        trivial
  case tryReserve reserved popped =>
      obtain ⟨hreply, -⟩ := Shared.updateWord_eq hexec
      obtain ⟨outcome, observed⟩ := reply
      have htry : tryReserve popped (shared.word reserved) =
          ((outcome, observed), (tryReserve popped (shared.word reserved)).2) :=
        Prod.ext hreply.symm rfl
      by_cases hreserved : outcome = .reserved
      · subst hreserved
        obtain rfl : reserved = frame := Option.some.inj hframe
        obtain ⟨-, -, -, hclean, -⟩ := tryReserve_reserved htry
        show (fields (shared.word reserved)).dirty = false
        by_contra hdirty
        exact hdirty (hclean ((h.counts reserved).clean (by simpa using hdirty)))
      · simp only [observe, if_neg hreserved]
        trivial
  case releaseToFree freed =>
      obtain rfl : freed = frame := Option.some.inj hframe
      have hloading : (fields (shared.word freed)).state = .loading := by
        cases hrule with
        | trade htrade =>
            cases htrade with
            | silent hsilent => cases hsilent
            | releaseToFree => exact h.state_of_loading mem_own
        | handover hhandover => cases hhandover
      exact ((h.counts freed).wellFormed.loading hloading).2.1
  case popFree => cases reply <;> trivial
  case tryPinResident pinned => cases reply <;> trivial
  case tryAcquireShared latched => cases reply <;> trivial
  case acquireShared latched handle => cases handle <;> trivial
  case lowerRecLsn lowered lsn handle => cases handle <;> trivial
  case tryQueueWriteback queued skip =>
      simp only [observe]
      split <;> trivial
  case preWriteHook tag page =>
      simp only [observe]
      split <;> trivial
  case submitRequest request =>
      simp only [observe]
      split <;> trivial
  case reap => cases reply <;> trivial
  all_goals trivial

theorem Contract.Move.honest (h : Accounted bytes events shared (∑ id, shares id))
    (hmove : (tokenContract bytes).Move shared shares entry shared' shares') {frame : Fin n}
    (hframe : entry.event.onWord = some frame) :
    entry.event.Honest (fields (shared.word frame)) := by
  cases hmove with
  | act rule share gives enabled =>
      obtain ⟨others, hbooks⟩ := h.split share
      exact Rule.honest rule hbooks.control enabled hframe
  | @idle id event share quiet same =>
      cases event with
      | quiet | invoked | returned => trivial
      | _ => cases quiet
  | park frame => trivial
  | complete inFlight status left => trivial
  | stop error => trivial

theorem WordStep.dirtyFrames (hstep : WordStep shared event shared')
    (honest : ∀ frame, event.onWord = some frame → event.Honest (fields (shared.word frame))) :
    (shared'.dirtyFrames : Int) = shared.dirtyFrames + event.dirtyChange := by
  have hsum : ∀ state : Shared n blockSize, (state.dirtyFrames : Int) =
      ∑ frame, if (fields (state.word frame)).dirty then 1 else 0 := by
    intro state
    rw [Shared.dirtyFrames, Finset.card_filter, Nat.cast_sum]
    exact Finset.sum_congr rfl fun frame _ => Nat.cast_ite _ _ _
  rw [hsum, hsum]
  cases hword : event.onWord with
  | none =>
      have hchange : event.dirtyChange = 0 := by
        cases event with
        | dirtied | ended | discarded => cases hword
        | _ => rfl
      rw [hchange, add_zero]
      refine Finset.sum_congr rfl fun frame _ => ?_
      have hframe := hstep frame
      rw [hword, if_neg (by simp)] at hframe
      rw [hframe]
  | some frame =>
      have hothers : ∀ other ∈ Finset.univ.erase frame,
          (if (fields (shared'.word other)).dirty then 1 else 0 : Int) =
            if (fields (shared.word other)).dirty then 1 else 0 := by
        intro other hother
        have hsame := hstep other
        rw [hword, if_neg fun heq =>
          Finset.ne_of_mem_erase hother (Option.some.inj heq).symm] at hsame
        rw [hsame]
      have hframe := hstep frame
      rw [if_pos hword] at hframe
      rw [← Finset.add_sum_erase _ _ (Finset.mem_univ frame), Finset.sum_congr rfl hothers,
        hframe.dirty (honest frame hword),
        ← Finset.add_sum_erase _ (fun frame =>
          (if (fields (shared.word frame)).dirty then 1 else 0 : Int)) (Finset.mem_univ frame)]
      exact add_right_comm _ _ _

theorem exec_dirtyPageCount {action : Action n blockSize} {reply : Reply action}
    {choice : Choice n} (hexec : exec shared choice action = some (reply, shared')) :
    shared'.dirtyPageCount = shared.dirtyPageCount + BitVec.ofInt 64 action.countChange := by
  cases action
  case addDirtyPages amount =>
      cases hexec
      simp [Action.countChange]
  all_goals
    rw [show (BitVec.ofInt 64 (Action.countChange _)) = 0#64 from rfl, BitVec.add_zero]
  case waitTask task =>
      obtain ⟨_, -, heq⟩ := Option.map_eq_some_iff.mp hexec
      cases heq
      rfl
  case tryPinResident frame =>
      obtain ⟨_, -, heq⟩ := Option.map_eq_some_iff.mp hexec
      cases heq
      rfl
  case reap =>
      simp only [exec] at hexec
      split at hexec
      · cases hexec
        rfl
      · obtain ⟨_, -, heq⟩ := Option.map_eq_some_iff.mp hexec
        cases heq
        rfl
  all_goals first
    | (cases hexec
       rfl)
    | (simp only [exec] at hexec
       repeat' split at hexec
       all_goals first
         | (cases hexec; done)
         | (cases hexec; rfl))

end Honest

/-! ### The threads that have yet to count -/

section Owners

variable {shared shared' : Shared n blockSize} {action : Action n blockSize}
  {reply : Reply action} {shares shares' : Fin threads → Multiset (Token n blockSize)}
  {bytes : BufferTag → Page blockSize} {events : Events n blockSize} {frame : Fin n}
  {id other : Fin threads}

theorem observe_dirtied {wasClean : Bool}
    (h : observe shared action reply = .dirtied frame wasClean) : action = .markDirty frame := by
  cases action with
  | markDirty marked =>
      simp only [observe, Event.dirtied.injEq] at h
      rw [h.1]
  | _ =>
      simp only [observe] at h
      first
        | cases h
        | (split at h <;> cases h)
        | (cases reply <;> cases h)
        | (rename_i handle; cases handle <;> cases h)

theorem observe_changed {tag : BufferTag} {lsn : Lsn}
    (h : observe shared action reply = .changed frame tag lsn) :
    action = .lowerRecLsn frame lsn (some tag) := by
  cases action with
  | lowerRecLsn lowered lsn handle =>
      cases handle with
      | none => cases h
      | some tag =>
          cases h
          rfl
  | _ =>
      simp only [observe] at h
      first
        | cases h
        | (split at h <;> cases h)
        | (cases reply <;> cases h)
        | (rename_i handle; cases handle <;> cases h)

theorem Contract.Move.writer_of_dirtied {wasClean : Bool}
    (h : (tokenContract bytes).Move shared shares ⟨some id, .dirtied frame wasClean⟩ shared'
      shares') : .writer frame .dirty ∈ shares' id := by
  generalize hentry : (⟨some id, .dirtied frame wasClean⟩ : Entry n blockSize threads) = entry at h
  cases h with
  | act rule share gives enabled =>
      obtain ⟨hid, hevent⟩ := Entry.mk.inj hentry
      obtain rfl := observe_dirtied hevent.symm
      obtain rfl := Option.some.inj hid
      rw [Function.update_self]
      cases rule with
      | trade htrade =>
          cases htrade with
          | silent hsilent => cases hsilent
          | markDirty tag mark =>
              rw [show _ = _ from gives, add_assoc]
              exact mem_own
      | handover hhandover => cases hhandover
  | idle quiet same =>
      obtain ⟨-, rfl⟩ := Entry.mk.inj hentry
      cases quiet
  | park frame => cases hentry
  | complete inFlight status left => cases hentry
  | stop error => cases hentry

theorem Contract.Move.share_of_changed {tag : BufferTag} {lsn : Lsn}
    (h : (tokenContract bytes).Move shared shares ⟨some id, .changed frame tag lsn⟩ shared'
      shares') : shares' id = shares id := by
  generalize hentry : (⟨some id, .changed frame tag lsn⟩ : Entry n blockSize threads) = entry at h
  cases h with
  | act rule share gives enabled =>
      obtain ⟨hid, hevent⟩ := Entry.mk.inj hentry
      obtain rfl := observe_changed hevent.symm
      obtain rfl := Option.some.inj hid
      rw [Function.update_self, share]
      cases rule with
      | trade htrade =>
          cases htrade with
          | silent hsilent => rw [show _ = _ from gives]
      | handover hhandover => cases hhandover
  | idle quiet same =>
      obtain ⟨-, rfl⟩ := Entry.mk.inj hentry
      cases quiet
  | park frame => cases hentry
  | complete inFlight status left => cases hentry
  | stop error => cases hentry

theorem Contract.Move.share_of_ne {entry : Entry n blockSize threads}
    (h : (tokenContract bytes).Move shared shares entry shared' shares')
    (hother : entry.thread ≠ some other) : shares' other = shares other := by
  cases h with
  | act rule share gives enabled =>
      exact Function.update_of_ne (fun heq => hother (congrArg some heq.symm)) _ _
  | idle quiet same => exact Function.update_of_ne (fun heq => hother (congrArg some heq.symm)) _ _
  | park frame => rfl
  | complete inFlight status left => rfl
  | stop error => rfl

theorem Contract.Move.dirtyPageCount {entry : Entry n blockSize threads}
    (h : (tokenContract bytes).Move shared shares entry shared' shares') :
    shared'.dirtyPageCount =
      shared.dirtyPageCount + BitVec.ofInt 64 entry.event.countChange := by
  have hzero : shared.dirtyPageCount = shared.dirtyPageCount + BitVec.ofInt 64 0 := by simp
  cases h with
  | @act id action seen used rest D given choice reply _ rule share gives enabled =>
      rw [(observe_changes shared action reply).2]
      exact exec_dirtyPageCount enabled
  | @idle id event share quiet same =>
      cases event with
      | quiet | invoked | returned => exact hzero
      | _ => cases quiet
  | park frame => exact hzero
  | @complete index request inFlight status left =>
      refine Eq.trans ?_ hzero
      simp only [Shared.complete, Shared.performRequest, Shared.failRequest]
      cases request.operation <;> split <;> rfl
  | stop error => exact hzero

theorem Accounted.writer_unique (h : Accounted bytes events shared (∑ id, shares id))
    {mark mark' : Mark} (hid : .writer frame mark ∈ shares id)
    (hother : .writer frame mark' ∈ shares other) : id = other := by
  by_contra hne
  obtain ⟨-, deposit, -, hbooks⟩ := h
  rw [Contract.sum_split shares id, add_assoc, add_assoc] at hbooks
  have hmem : .writer frame mark' ∈ ∑ other ∈ Finset.univ.erase id, shares other +
      (shared.parked + deposit) :=
    Multiset.mem_add.mpr (.inl (Multiset.mem_sum.mpr
      ⟨other, Finset.mem_erase.mpr ⟨Ne.symm hne, Finset.mem_univ other⟩, hother⟩))
  have hnone := hbooks.control.mark_unique hid (Token.mark?_writer frame mark) hmem
  rw [Token.mark?_writer] at hnone
  cases hnone

theorem Accounted.exclusive_of_writer (h : Accounted bytes events shared (∑ id, shares id))
    {mark : Mark} (hid : .writer frame mark ∈ shares id) :
    (fields (shared.word frame)).exclusive = true := by
  obtain ⟨-, deposit, -, hbooks⟩ := h
  rw [Contract.sum_split shares id, add_assoc, add_assoc] at hbooks
  exact hbooks.control.exclusive_of_mark (Multiset.mem_add.mpr (.inl hid))
    (Token.mark?_writer frame mark)

end Owners

/-! ### Programs and threads -/

theorem Action.owed_pos {shared : Shared n blockSize} {action : Action n blockSize}
    {reply : Reply action} {before : Int} (hallowed : counting.Allows before action)
    (hpos : 0 < before + action.dirtyChange reply - action.countChange) :
    (∃ frame, observe shared action reply = .dirtied frame true) ∧ before = 0 ∨
      ∃ frame tag lsn, observe shared action reply = .changed frame tag lsn := by
  cases action with
  | markDirty frame =>
      have hbefore : before = 0 := hallowed
      cases hbecame : Option.getD (show Option Bool from reply) false with
      | false => simp [Action.dirtyChange, Action.countChange, hbefore, hbecame] at hpos
      | true => exact .inl ⟨⟨frame, by rw [observe, hbecame]⟩, hbefore⟩
  | addDirtyPages amount =>
      have hbefore : before = amount.toInt := hallowed
      simp [Action.dirtyChange, Action.countChange, hbefore] at hpos
  | lowerRecLsn frame lsn handle =>
      cases handle with
      | some tag => exact .inr ⟨frame, tag, lsn, rfl⟩
      | none =>
          have hbefore : before = 0 := hallowed
          simp [Action.dirtyChange, Action.countChange, hbefore] at hpos
  | completeWriteback frame succeeded =>
      have hbefore : before = 0 := hallowed
      simp only [Action.dirtyChange, Action.countChange, hbefore] at hpos
      split at hpos <;> simp at hpos
  | tryDiscardPinned frame =>
      have hbefore : before = 0 := hallowed
      simp only [Action.dirtyChange, Action.countChange, hbefore] at hpos
      split at hpos <;> simp at hpos
  | _ =>
      have hbefore : before = 0 := hallowed
      simp [Action.dirtyChange, Action.countChange, hbefore] at hpos

/-- What a step does to what a thread owes. -/
structure Settling (event : Event n blockSize) (before after : Int) : Prop where
  owed : after = before + event.dirtyChange - event.countChange
  marked : 0 < after → (∃ frame, event = .dirtied frame true) ∧ before = 0 ∨
    ∃ frame tag lsn, event = .changed frame tag lsn

theorem ProgramStep.settling {α : Type} {program program' : Prog n blockSize α}
    {shared shared' : Shared n blockSize} {event : Event n blockSize}
    (h : counting.Obeys (owed program) program)
    (hstep : ProgramStep shared program event shared' program') :
    counting.Obeys (owed program') program' ∧ Settling event (owed program) (owed program') := by
  cases hstep with
  | @enter σ β body turn next =>
      have hnext : counting.Obeys 0 (Program.unfoldLoop body turn next) := h.unfoldLoop
      have howed : owed (Program.unfoldLoop body turn next) = 0 := owed_eq_of_obeys hnext
      rw [howed]
      exact ⟨hnext, rfl, fun hpos => absurd hpos (lt_irrefl 0)⟩
  | @act _ choice action next reply enabled =>
      obtain ⟨hallowed, hnext⟩ := h
      have howed : owed (next reply) =
          owed (.request action next) + action.dirtyChange reply - action.countChange :=
        owed_eq_of_obeys (hnext reply)
      obtain ⟨hdirty, hcount⟩ := observe_changes shared action reply
      rw [howed]
      refine ⟨hnext reply, by rw [hdirty, hcount], fun hpos => Action.owed_pos hallowed hpos⟩

/-- A thread counts every change it makes to a dirty bit. -/
def Activity.Settles : Activity n blockSize → Prop
  | .idle => True
  | .calling _ rest => counting.Obeys (TelePath.owed rest) rest
  | .background rest => counting.Obeys (TelePath.owed rest) rest

theorem owed_of_settles {α : Type} {program : Prog n blockSize α} (h : Settles program) :
    counting.Obeys (owed program) program ∧ owed program = 0 := by
  have howed := owed_eq_of_obeys h
  rw [howed]
  exact ⟨h, rfl⟩

theorem owed_of_waits {activity : Activity n blockSize} {action : Action n blockSize}
    {frame : Fin n} (hnext : activity.next? = some action)
    (hwaits : action.waitsOn = some frame) : activity.owed = 0 := by
  have hprogram : ∀ {α : Type} (program : Prog n blockSize α),
      program.nextAction = some action → owed program = 0 := by
    intro α program hprogram
    cases program with
    | done value => cases hprogram
    | loop body turn next => cases hprogram
    | request other next =>
        obtain rfl := Option.some.inj hprogram
        cases other with
        | waitWhile | acquireShared | acquireExclusive => rfl
        | _ => cases hwaits
  cases activity with
  | idle => cases hnext
  | calling call rest => exact hprogram rest hnext
  | background rest => exact hprogram rest hnext

section Step

variable {options : Options} {system system' : System n blockSize threads}
  {entry : Entry n blockSize threads}

/-- From one activity to the next, a thread settles as its step says. -/
structure Activity.Settling (event : Event n blockSize) (before after : Activity n blockSize) :
    Prop where
  settles : after.Settles
  settling : TelePath.Settling event before.owed after.owed

theorem settling_update {actor : Fin threads} {thread : Thread n blockSize}
    {event : Event n blockSize} (h : ∀ id, (system.thread id).activity.Settles)
    (hactor : (system.thread actor).activity.Settling event thread.activity) (id : Fin threads) :
    (Function.update system.thread actor thread id).activity.Settles ∧
      if some actor = some id then
        Settling event (system.thread id).activity.owed
          (Function.update system.thread actor thread id).activity.owed
      else (Function.update system.thread actor thread id).activity.owed =
        (system.thread id).activity.owed := by
  by_cases hid : actor = id
  · subst hid
    rw [if_pos rfl, Function.update_self]
    exact ⟨hactor.settles, hactor.settling⟩
  · rw [if_neg fun heq => hid (Option.some.inj heq), Function.update_of_ne (Ne.symm hid)]
    exact ⟨h id, rfl⟩

theorem Step.settling (hstep : Step options system entry system')
    (h : ∀ id, (system.thread id).activity.Settles) (id : Fin threads) :
    (system'.thread id).activity.Settles ∧
      if entry.thread = some id then
        Settling entry.event (system.thread id).activity.owed (system'.thread id).activity.owed
      else (system'.thread id).activity.owed = (system.thread id).activity.owed := by
  cases hstep with
  | @invoke actor call program idle valid =>
      obtain ⟨hobeys, howed⟩ := owed_of_settles (settles_of_built (built_callProgram valid))
      refine settling_update h ?_ id
      rw [idle]
      refine ⟨hobeys, howed, fun hpos => ?_⟩
      change 0 < owed program at hpos
      omega
  | @call actor call rest rest' event shared' calling step =>
      have hsettles := h actor
      rw [calling] at hsettles
      obtain ⟨hobeys, hsettling⟩ := step.settling hsettles
      refine settling_update h ?_ id
      rw [calling]
      exact ⟨hobeys, hsettling⟩
  | @finish actor call outcome calling =>
      refine settling_update h ?_ id
      rw [calling]
      exact ⟨trivial, rfl, fun hpos => absurd hpos (lt_irrefl 0)⟩
  | @background actor rest rest' event shared' running step =>
      have hsettles := h actor
      rw [running] at hsettles
      obtain ⟨hobeys, hsettling⟩ := step.settling hsettles
      refine settling_update h ?_ id
      rw [running]
      exact ⟨hobeys, hsettling⟩
  | @park actor action frame next waits =>
      refine ⟨h id, ?_⟩
      split
      · rename_i hid
        obtain rfl := Option.some.inj hid
        have howed : (system.thread actor).activity.owed = 0 := owed_of_waits next waits
        refine ⟨by simp, fun hpos => ?_⟩
        change 0 < (system.thread actor).activity.owed at hpos
        omega
      · rfl
  | complete inFlight => exact ⟨h id, by simp⟩
  | stopEngine error => exact ⟨h id, by simp⟩

/-- The invariant behind the count of dirty pages. -/
structure DirtyBooks (trace : Trace n blockSize threads) (system : System n blockSize threads)
    (shares : Fin threads → Multiset (Token n blockSize)) : Prop where
  settles : ∀ id, (system.thread id).activity.Settles
  word : system.shared.dirtyPageCount = BitVec.ofInt 64 (dirtyCount trace.events)
  balance : dirtyCount trace.events + ∑ id, (system.thread id).activity.owed =
    system.shared.dirtyFrames
  owed_le : ∀ id, (system.thread id).activity.owed ≤ 1
  /-- A page that is to be added is still dirty and held exclusively. -/
  marked : ∀ id, 0 < (system.thread id).activity.owed → ∃ frame,
    .writer frame .dirty ∈ shares id ∧ isDirty (system.shared.word frame) = true

variable {trace : Trace n blockSize threads} {bytes : BufferTag → Page blockSize}
  {shares shares' : Fin threads → Multiset (Token n blockSize)}

theorem Step.sum_owed (hstep : Step options system entry system')
    (h : ∀ id, (system.thread id).activity.Settles) :
    ∑ id, (system'.thread id).activity.owed = ∑ id, (system.thread id).activity.owed +
      entry.event.dirtyChange - entry.event.countChange := by
  cases hthread : entry.thread with
  | none =>
      have hevent : entry.event.dirtyChange = 0 ∧ entry.event.countChange = 0 := by
        cases hstep with
        | complete | stopEngine => exact ⟨rfl, rfl⟩
        | _ => cases hthread
      rw [hevent.1, hevent.2, add_zero, sub_zero]
      refine Finset.sum_congr rfl fun id _ => ?_
      have hid := (hstep.settling h id).2
      rwa [hthread, if_neg (by simp)] at hid
  | some actor =>
      have hactor := (hstep.settling h actor).2
      rw [if_pos hthread] at hactor
      have hothers : ∀ other ∈ Finset.univ.erase actor,
          (system'.thread other).activity.owed = (system.thread other).activity.owed := by
        intro other hother
        have hsame := (hstep.settling h other).2
        rwa [hthread, if_neg fun heq =>
          Finset.ne_of_mem_erase hother (Option.some.inj heq).symm] at hsame
      rw [Contract.sum_split _ actor, Finset.sum_congr rfl hothers, hactor.owed,
        Contract.sum_split (fun id => (system.thread id).activity.owed) actor]
      omega

theorem WordStep.stays_dirty {shared shared' : Shared n blockSize} {event : Event n blockSize}
    {frame : Fin n} (hstep : WordStep shared event shared')
    (honest : event.onWord = some frame → event.Honest (fields (shared.word frame)))
    (hdirty : isDirty (shared.word frame) = true)
    (hexclusive : (fields (shared.word frame)).exclusive = true) :
    isDirty (shared'.word frame) = true := by
  have hframe := hstep frame
  split at hframe
  · exact hframe.stays_dirty (honest ‹_›) hdirty hexclusive
  · rw [hframe]
    exact hdirty

theorem DirtyBooks.marked_actor (h : DirtyBooks trace system shares)
    (hword : WordStep system.shared entry.event system'.shared)
    (hmove : (tokenContract bytes).Move system.shared shares entry system'.shared shares')
    {id : Fin threads} (hthread : entry.thread = some id)
    (hsettling : Settling entry.event (system.thread id).activity.owed
      (system'.thread id).activity.owed) (hpos : 0 < (system'.thread id).activity.owed) :
    ∃ frame, .writer frame .dirty ∈ shares' id ∧ isDirty (system'.shared.word frame) = true := by
  obtain ⟨thread, event⟩ := entry
  obtain rfl : thread = some id := hthread
  rcases hsettling.marked hpos with ⟨⟨frame, rfl⟩, -⟩ | ⟨frame, tag, lsn, rfl⟩
  · have hframe := hword frame
    rw [if_pos (by rfl)] at hframe
    exact ⟨frame, hmove.writer_of_dirtied, congrArg ControlFields.dirty hframe.update⟩
  · have howed := hsettling.owed
    simp only [Event.dirtyChange, Event.countChange, add_zero, sub_zero] at howed
    rw [howed] at hpos
    obtain ⟨marked, hwriter, hdirty⟩ := h.marked id hpos
    have hsame := hword marked
    rw [if_neg nofun] at hsame
    exact ⟨marked, hmove.share_of_changed ▸ hwriter, hsame ▸ hdirty⟩

theorem DirtyBooks.step (h : DirtyBooks trace system shares)
    (hinv : Accounted bytes trace.events system.shared (∑ id, shares id))
    (hstep : Step options system entry system')
    (hmove : (tokenContract bytes).Move system.shared shares entry system'.shared shares') :
    DirtyBooks (entry :: trace) system' shares' := by
  have hword := hmove.wordStep hinv
  have hsettling := hstep.settling h.settles
  refine ⟨fun id => (hsettling id).1, ?_, ?_, fun id => ?_, fun id hpos => ?_⟩
  · rw [hmove.dirtyPageCount, h.word, ← BitVec.ofInt_add]
    rfl
  · rw [hword.dirtyFrames fun frame hframe => hmove.honest hinv hframe, ← h.balance,
      hstep.sum_owed h.settles]
    change dirtyCount trace.events + entry.event.countChange + _ = _
    omega
  · have hid := (hsettling id).2
    have hle := h.owed_le id
    split at hid
    · by_contra hgt
      rcases hid.marked (by omega) with ⟨⟨frame, hevent⟩, hbefore⟩ | ⟨frame, tag, lsn, hevent⟩
      · have howed := hid.owed
        simp only [hevent, Event.dirtyChange, Event.countChange, if_true] at howed
        omega
      · have howed := hid.owed
        simp only [hevent, Event.dirtyChange, Event.countChange] at howed
        omega
    · omega
  · have hid := (hsettling id).2
    split at hid
    · exact h.marked_actor hword hmove ‹_› hid hpos
    · rename_i hthread
      rw [hid] at hpos
      obtain ⟨frame, hwriter, hdirty⟩ := h.marked id hpos
      exact ⟨frame, (hmove.share_of_ne hthread) ▸ hwriter,
        hword.stays_dirty (fun hframe => hmove.honest hinv hframe) hdirty
          (hinv.exclusive_of_writer hwriter)⟩

end Step

section Run

variable {options : Options} {start system : System n blockSize threads}
  {trace : Trace n blockSize threads}

theorem dirtyBooks_initial (hinitial : Initial start) :
    DirtyBooks [] start (fun _ => 0 : Fin threads → Multiset (Token n blockSize)) := by
  have hthreads : ∀ id, (start.thread id).activity.Settles ∧
      (start.thread id).activity.owed = 0 := by
    intro id
    rcases hinitial.activity id with hidle | ⟨batchSize, burstLimit, hworker⟩ |
      ⟨high, low, hcleaner⟩ | hreaper
    · rw [hidle]
      exact ⟨trivial, rfl⟩
    · rw [hworker]
      exact owed_of_settles (settles_flushWorker batchSize burstLimit)
    · rw [hcleaner]
      exact owed_of_settles (settles_of_built (built_cleaner high low))
    · rw [hreaper]
      exact owed_of_settles (settles_of_built built_reaper)
  obtain ⟨files, segment, cleaner, strategies, hshared⟩ := hinitial.shared
  refine ⟨fun id => (hthreads id).1, ?_, ?_, fun id => ?_, fun id hpos => ?_⟩
  · rw [hshared]
    rfl
  · rw [Finset.sum_congr rfl fun id _ => (hthreads id).2, Finset.sum_const_zero, hshared]
    have hclean : ∀ frame, ¬isDirty ((Shared.initial files segment cleaner strategies :
        Shared n blockSize).word frame) = true := by
      intro frame
      have hfields : (fields ((Shared.initial files segment cleaner strategies :
          Shared n blockSize).word frame)).dirty = false := by rw [fields_initial]
      exact Bool.not_eq_true _ ▸ hfields
    rw [Shared.dirtyFrames, Finset.filter_false_of_mem fun frame _ => hclean frame]
    rfl
  · rw [(hthreads id).2]
    exact zero_le_one
  · rw [(hthreads id).2] at hpos
    exact absurd hpos (lt_irrefl 0)

theorem Run.dirtyBooks (hinitial : Initial start) (hrun : Run options start trace system) :
    ∃ shares, Accounted start.shared.diskPage trace.events system.shared (∑ id, shares id) ∧
      DirtyBooks trace system shares := by
  have hvalid := tokenContract_valid (n := n) start.shared.diskPage options
  suffices hsound : ∃ shares, (tokenContract start.shared.diskPage).Sound trace system shares ∧
      DirtyBooks trace system shares by
    obtain ⟨shares, hsound, hbooks⟩ := hsound
    exact ⟨shares, hsound.inv, hbooks⟩
  induction hrun with
  | start => exact ⟨_, hvalid.initial hinitial hinitial.accounted, dirtyBooks_initial hinitial⟩
  | step _ hstep ih =>
      obtain ⟨shares, hsound, hbooks⟩ := ih
      obtain ⟨shares', hmove, hsound'⟩ := hvalid.step hsound hstep
      exact ⟨shares', hsound', hbooks.step hsound.inv hstep hmove⟩

theorem DirtyBooks.sum_owed_le {bytes : BufferTag → Page blockSize}
    {shares : Fin threads → Multiset (Token n blockSize)} (h : DirtyBooks trace system shares)
    (hinv : Accounted bytes trace.events system.shared (∑ id, shares id)) :
    ∑ id, (system.thread id).activity.owed ≤ system.shared.dirtyFrames := by
  have hle : ∀ id, (system.thread id).activity.owed ≤
      if 0 < (system.thread id).activity.owed then 1 else 0 := by
    intro id
    split
    · exact h.owed_le id
    · omega
  have hcard : (Finset.univ.filter fun id => 0 < (system.thread id).activity.owed).card ≤
      system.shared.dirtyFrames := by
    refine Finset.card_le_card_of_forall_subsingleton
      (fun id frame => .writer frame .dirty ∈ shares id) (fun id hid => ?_) fun frame _ => ?_
    · obtain ⟨frame, hwriter, hdirty⟩ := h.marked id (Finset.mem_filter.mp hid).2
      exact ⟨frame, Finset.mem_filter.mpr ⟨Finset.mem_univ frame, hdirty⟩, hwriter⟩
    · rintro id ⟨-, hid⟩ other ⟨-, hother⟩
      exact hinv.writer_unique hid hother
  calc ∑ id, (system.thread id).activity.owed
      ≤ ∑ id, if 0 < (system.thread id).activity.owed then (1 : Int) else 0 :=
        Finset.sum_le_sum fun id _ => hle id
    _ = (Finset.univ.filter fun id => 0 < (system.thread id).activity.owed).card := by
        rw [Finset.sum_boole]
    _ ≤ system.shared.dirtyFrames := Int.ofNat_le.mpr hcard

/-- In every state of every run the count of dirty pages, taken as an integer, has not
fallen below zero, and it is the number of dirty frames whenever no thread is between
changing a dirty bit and counting the change. -/
theorem dirty_page_count_exact (hinitial : Initial start) (hrun : Run options start trace system) :
    0 ≤ dirtyCount trace.events ∧
      system.shared.dirtyPageCount = BitVec.ofInt 64 (dirtyCount trace.events) ∧
      ((∀ id, (system.thread id).activity.owed = 0) →
        dirtyCount trace.events = system.shared.dirtyFrames) := by
  obtain ⟨shares, hinv, hbooks⟩ := hrun.dirtyBooks hinitial
  have hbalance := hbooks.balance
  refine ⟨?_, hbooks.word, fun howed => ?_⟩
  · have hle := hbooks.sum_owed_le hinv
    omega
  · rw [Finset.sum_congr rfl fun id _ => howed id, Finset.sum_const_zero, add_zero] at hbalance
    exact hbalance

/-- A run in which a client has marked a new page dirty. -/
theorem dirty_page_count_exact_marked : ∃ (trace : Trace 1 1 1) (system : System 1 1 1),
    Run ⟨.direct, 1⟩ (.fresh fun _ => .absent) trace system ∧ system.shared.dirtyFrames = 1 ∧
      dirtyCount trace.events = 1 ∧ system.shared.dirtyPageCount = 1#64 := by
  obtain ⟨trace, system, hrun, htest⟩ := @exists_run_of_play 1 1 1 ⟨.direct, 1⟩
    (.fresh fun _ => .absent)
    (.invoke 0 (.readBufferExclusive {} none .zeroAndLock) :: turnsOf 0 19 ++
      .invoke 0 (.mutableData 0) :: turnsOf 0 4)
    (fun reached => reached.2.shared.dirtyFrames = 1 ∧
      ∀ id, (reached.2.thread id).activity.owed = 0) (by decide +kernel)
  obtain ⟨hdirty, howed⟩ := of_decide_eq_true htest
  obtain ⟨-, hword, hexact⟩ := dirty_page_count_exact (System.fresh_initial _) hrun
  have hcount : dirtyCount trace.events = 1 := by rw [hexact howed, hdirty]; rfl
  refine ⟨trace, system, hrun, hdirty, hcount, ?_⟩
  rw [hword, hcount]
  rfl

end Run

end TelePath
