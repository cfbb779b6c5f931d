import TelePath.Invariant.Rules
import TelePath.Manager.Background

/-!
Programs that only look: they need no right and leave what their thread owns as it is.  Nor do
they have to do with the count of dirty pages or of the cleaner's tasks.
-/

namespace TelePath

open FrameControl Logic Manager
open Program (uses_ite uses_seq)

variable {n blockSize : Nat}

def Action.Silent (action : Action n blockSize) : Prop :=
  action.isSilent = true ∧ action.isBooked = false

section Rules

variable {context P : Multiset (Token n blockSize)} {α : Type}

theorem ensures_silent {action : Action n blockSize} {rest : Reply action → Prog n blockSize α}
    {post : α → Multiset (Token n blockSize) → Prop} (h : action.isSilent = true)
    (hrest : ∀ reply, Ensures Rule context (rest reply) post P) :
    Ensures Rule context (act action >>= rest) post P := by
  refine ensures_act (.trade (.silent h)) (zero_add P).symm (zero_add _).symm ?_
  rintro reply _ rfl
  rw [zero_add]
  exact hrest reply

theorem ensures_of_silent {program : Prog n blockSize α} (h : program.Uses Action.Silent) :
    Ensures Rule context program (fun _ Q => Q = P) P := by
  induction program with
  | done value => rfl
  | request action next ih =>
      exact ensures_silent h.1.1 fun reply => ih reply (h.2 reply)
  | loop body state next ihBody ih =>
      refine ensures_loop (fun _ Q => Q = P) rfl ?_
      rintro state _ rfl
      refine (ihBody state (h.1 state)).mono ?_
      rintro (state | result) _ rfl
      · rfl
      · exact ih result (h.2 result)

theorem ensures_after_silent {β : Type} {program : Prog n blockSize α}
    {rest : α → Prog n blockSize β} {post : β → Multiset (Token n blockSize) → Prop}
    (h : program.Uses Action.Silent)
    (hrest : ∀ value, Ensures Rule context (rest value) post P) :
    Ensures Rule context (program >>= rest) post P := by
  refine (ensures_of_silent h).seq ?_
  rintro value _ rfl
  exact hrest value

end Rules

section Programs

theorem silent_act {action : Action n blockSize} (h : action.isSilent = true)
    (hbooked : action.isBooked = false) :
    (act action : Prog n blockSize (Reply action)).Uses Action.Silent :=
  ⟨⟨h, hbooked⟩, fun _ => trivial⟩

attribute [local grind unfold] Action.Silent Action.isSilent Action.isBooked

theorem silent_recordPublished (readFromDisk : Bool) (tag : BufferTag)
    (evictedTag : Option BufferTag) :
    (if readFromDisk = true then recordLoadCompletion tag evictedTag
      else recordZeroFill evictedTag : Prog n blockSize Unit).Uses Action.Silent := by
  unfold recordLoadCompletion recordZeroFill
  grind

theorem silent_noteWrittenFile (file : FileId) :
    (noteWrittenFile file : Prog n blockSize Unit).Uses Action.Silent := by
  unfold noteWrittenFile
  grind

theorem silent_recordFlushTaskCompletion (tag : BufferTag) (status : Status) :
    (recordFlushTaskCompletion tag status : Prog n blockSize Unit).Uses Action.Silent := by
  unfold recordFlushTaskCompletion
  grind

theorem silent_waitForPendingFlush (frame : Fin n) :
    (waitForPendingFlush frame : Prog n blockSize Status).Uses Action.Silent := by
  unfold waitForPendingFlush
  grind

theorem silent_checkUsable : (checkUsable : Prog n blockSize Status).Uses Action.Silent := by
  unfold checkUsable
  grind

theorem silent_isLoadingTag (frame : Fin n) (tag : BufferTag) :
    (isLoadingTag frame tag : Prog n blockSize Bool).Uses Action.Silent := by
  unfold isLoadingTag
  grind

theorem silent_waitForLoad (frame : Fin n) (tag : BufferTag) :
    (waitForLoad frame tag : Prog n blockSize Unit).Uses Action.Silent := by
  unfold waitForLoad
  grind

theorem silent_isResidentTag (tag : BufferTag) :
    (isResidentTag tag : Prog n blockSize Bool).Uses Action.Silent := by
  unfold isResidentTag
  grind

theorem silent_hasTransientFrame (frames : List (Fin n)) :
    (hasTransientFrame frames : Prog n blockSize Bool).Uses Action.Silent := by
  induction frames with
  | nil => trivial
  | cons frame rest ih =>
      unfold hasTransientFrame
      grind

theorem silent_recordsAccesses (strategy : Option StrategyId) :
    (recordsAccesses strategy : Prog n blockSize Bool).Uses Action.Silent := by
  unfold recordsAccesses
  grind

theorem silent_waitForScheduledFlushes (tasks : List (FlushTask n blockSize)) (first : Status) :
    (waitForScheduledFlushes tasks first).Uses Action.Silent := by
  induction tasks generalizing first with
  | nil => trivial
  | cons task rest ih =>
      unfold waitForScheduledFlushes
      grind

theorem silent_frameRecLsn (frame : Fin n) :
    (frameRecLsn frame : Prog n blockSize Lsn).Uses Action.Silent := by
  unfold frameRecLsn
  grind

theorem silent_recLsnBefore (lsn : Lsn) (frame : Fin n) :
    (recLsnBefore lsn frame : Prog n blockSize Bool).Uses Action.Silent :=
  uses_seq (silent_frameRecLsn frame) fun _ => trivial

theorem silent_minRecLsn : (minRecLsn : Prog n blockSize (Option Lsn)).Uses Action.Silent := by
  have hover : ∀ (frames : List (Fin n)) (oldest : Lsn),
      (minRecLsnOver frames oldest : Prog n blockSize Lsn).Uses Action.Silent := by
    intro frames
    induction frames with
    | nil => exact fun _ => trivial
    | cons frame rest ih => exact fun _ => uses_seq (silent_frameRecLsn frame) fun _ => ih _
  exact uses_seq (hover _ _) fun _ => trivial

theorem silent_operationPending (operation : OperationId) :
    (operationPending operation : Prog n blockSize Nat).Uses Action.Silent := by
  unfold operationPending
  grind

theorem silent_operationStatus (operation : OperationId) :
    (operationStatus operation : Prog n blockSize Status).Uses Action.Silent := by
  unfold operationStatus
  grind

theorem silent_seedCleanerCandidates (frames : List (Fin n)) :
    (seedCleanerCandidates frames : Prog n blockSize Unit).Uses Action.Silent := by
  induction frames with
  | nil => trivial
  | cons frame rest ih =>
      unfold seedCleanerCandidates
      grind

end Programs

end TelePath
