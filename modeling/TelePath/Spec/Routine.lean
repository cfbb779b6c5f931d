import TelePath.Spec.Silent

/-!
Programs that neither map a page, nor change a dirty bit or the count of dirty pages, nor
read from the backend; and among them those that have nothing to do with the cleaner's tasks.
-/

namespace TelePath

open FrameControl Logic Manager
open Program (uses_seq uses_forever uses_forEach)

variable {n blockSize : Nat} {α : Type}

def DiskOperation.isRead : DiskOperation n blockSize → Bool
  | .read _ => true
  | _ => false

/-- What a flusher may do to a frame before and after its request. -/
def Action.isUpkeep : Action n blockSize → Bool
  | .replaceUnlessLive _ _ _ | .markDirty _ | .completeWriteback _ _ | .tryDiscardPinned _
  | .addDirtyPages _ => false
  | .lowerRecLsn _ _ handle => handle.isNone
  | .submitRequest request => !request.operation.isRead
  | _ => true

def Action.isRoutine : Action n blockSize → Bool
  | .cleanerFlushScheduled | .cleanerFlushFinished | .enqueueTask _ | .takeNextBatch _ _ _ => false
  | action => action.isUpkeep

def Action.Upkeep (action : Action n blockSize) : Prop := action.isUpkeep = true

def Action.Routine (action : Action n blockSize) : Prop := action.isRoutine = true

theorem Action.Silent.routine {action : Action n blockSize} (h : action.Silent) :
    action.Routine := by
  cases action with
  | addDirtyPages | cleanerFlushScheduled | cleanerFlushFinished => cases h.2
  | replaceUnlessLive | markDirty | completeWriteback | tryDiscardPinned | submitRequest
  | enqueueTask | takeNextBatch => cases h.1
  | lowerRecLsn frame lsn handle =>
      cases handle with
      | none => rfl
      | some tag => cases h.2
  | _ => rfl

theorem Action.Routine.upkeep {action : Action n blockSize} (h : action.Routine) :
    action.Upkeep := by
  cases action with
  | cleanerFlushScheduled | cleanerFlushFinished | enqueueTask | takeNextBatch => rfl
  | _ => exact h

theorem routine_of_silent {program : Prog n blockSize α} (h : program.Uses Action.Silent) :
    program.Uses Action.Routine :=
  h.mono fun _ => Action.Silent.routine

theorem upkeep_of_routine {program : Prog n blockSize α} (h : program.Uses Action.Routine) :
    program.Uses Action.Upkeep :=
  h.mono fun _ => Action.Routine.upkeep

instance (action : Action n blockSize) : Decidable action.Upkeep :=
  inferInstanceAs (Decidable (action.isUpkeep = true))

instance (action : Action n blockSize) : Decidable action.Routine :=
  inferInstanceAs (Decidable (action.isRoutine = true))

attribute [local grind unfold] Action.Upkeep Action.isUpkeep Action.Routine Action.isRoutine
  DiskOperation.isRead

section IoEngine

@[grind ←] theorem routine_releaseFreeFrame (frame : Fin n) :
    (releaseFreeFrame frame : Prog n blockSize Unit).Uses Action.Routine := by
  unfold releaseFreeFrame
  grind

@[grind ←]
theorem routine_abortLoadReservation (frame : Fin n) (tag : BufferTag) (status : Status) :
    (abortLoadReservation frame tag status : Prog n blockSize Status).Uses Action.Routine := by
  unfold abortLoadReservation
  grind

@[grind ←] theorem routine_publishLoadedFrame (tag : BufferTag) (reservation : FrameReservation n)
    (readFromDisk releasePin : Bool) :
    (publishLoadedFrame tag reservation readFromDisk releasePin :
      Prog n blockSize Unit).Uses Action.Routine := by
  unfold publishLoadedFrame recordLoadCompletion recordZeroFill
  grind

@[grind ←] theorem routine_deliver (completion : DiskCompletion) :
    (deliver completion : Prog n blockSize Unit).Uses Action.Routine := by
  have hentry : ∀ (operation : Option OperationId) (status : Status) (entry : AsyncLoadEntry n),
      (finishAsyncLoadEntry operation status entry : Prog n blockSize Unit).Uses
        Action.Routine := by
    intro operation status entry
    unfold finishAsyncLoadEntry
    grind
  unfold deliver finishAsyncLoad
  grind

-- mapping a page is no upkeep, and taking a task no routine
example : ¬ (.replaceUnlessLive none {} 0 : Action 1 1).Upkeep ∧
    ¬ (.takeNextBatch 1 1 0 : Action 1 1).Routine := by decide +kernel

@[grind ←] theorem routine_submit {requests : List (DiskRequest n blockSize)}
    (h : ∀ request ∈ requests, request.operation.isRead = false) :
    (submit requests).Uses Action.Routine := by
  unfold submit
  induction requests with
  | nil => trivial
  | cons request rest ih =>
      refine Program.Uses.bind ?_ fun _ => ih fun other hother => h other (.tail _ hother)
      have hwrite := h request (.head _)
      grind

@[grind ←] theorem routine_reapReady : (reapReady : Prog n blockSize Bool).Uses Action.Routine := by
  unfold reapReady
  grind

@[grind ←]
theorem routine_waitFor {pending : Prog n blockSize Nat} {status : Prog n blockSize Status}
    (hpending : pending.Uses Action.Routine) (hstatus : status.Uses Action.Routine) :
    (waitFor pending status).Uses Action.Routine := by
  unfold waitFor
  grind

@[grind ←] theorem routine_wait (waiter : WaiterId) :
    (wait waiter : Prog n blockSize Status).Uses Action.Routine := by
  unfold wait
  grind

@[grind ←] theorem routine_submitAndWait {operation : DiskOperation n blockSize}
    (h : operation.isRead = false) (tag : BufferTag) :
    (submitAndWait operation tag).Uses Action.Routine := by
  unfold submitAndWait
  grind

end IoEngine

section Flush

@[grind ←] theorem routine_syncFiles (files : List FileId) :
    (syncFiles files : Prog n blockSize Status).Uses Action.Routine := by
  have hnote : ∀ file, (noteWrittenFile file : Prog n blockSize Unit).Uses Action.Routine :=
    fun file => routine_of_silent (silent_noteWrittenFile file)
  unfold syncFiles
  grind

@[grind ←] theorem upkeep_waitForPendingFlush (frame : Fin n) :
    (waitForPendingFlush frame : Prog n blockSize Status).Uses Action.Upkeep :=
  upkeep_of_routine (routine_of_silent (silent_waitForPendingFlush frame))

@[grind ←] theorem upkeep_recordFlushTaskCompletion (tag : BufferTag) (status : Status) :
    (recordFlushTaskCompletion tag status : Prog n blockSize Unit).Uses Action.Upkeep :=
  upkeep_of_routine (routine_of_silent (silent_recordFlushTaskCompletion tag status))

@[grind ←] theorem upkeep_captureFlushSnapshot (frame : Fin n) :
    (captureFlushSnapshot frame : Prog n blockSize _).Uses Action.Upkeep := by
  unfold captureFlushSnapshot
  grind

@[grind ←]
theorem upkeep_queueWriteback (frame : Fin n) (stable opportunistic cleanerOwned : Bool) :
    (queueWriteback frame stable opportunistic cleanerOwned : Prog n blockSize _).Uses
      Action.Upkeep := by
  unfold queueWriteback
  grind

@[grind ←]
theorem upkeep_prepareFlushTask (frame : Fin n) (stable opportunistic cleanerOwned : Bool) :
    (prepareFlushTask frame stable opportunistic cleanerOwned : Prog n blockSize _).Uses
      Action.Upkeep := by
  unfold prepareFlushTask
  grind

@[grind ←]
theorem upkeep_rollBackFlushTask (frame : Fin n) (cleanerOwned : Bool) (status : Status) :
    (rollBackFlushTask frame cleanerOwned status : Prog n blockSize Status).Uses
      Action.Upkeep := by
  unfold rollBackFlushTask
  grind

@[grind ←]
theorem upkeep_createFlushTask (frame : Fin n) (stable opportunistic cleanerOwned : Bool) :
    (createFlushTask frame stable opportunistic cleanerOwned : Prog n blockSize _).Uses
      Action.Upkeep := by
  refine uses_seq (upkeep_prepareFlushTask _ _ _ _) fun prepared => ?_
  grind

@[grind ←] theorem upkeep_tryScheduleFlushTask (frame : Fin n)
    (stable opportunistic cleanerOwned : Bool) :
    (tryScheduleFlushTask frame stable opportunistic cleanerOwned : Prog n blockSize _).Uses
      Action.Upkeep := by
  have henqueue : ∀ task : FlushTask n blockSize, (enqueueFlushTask task).Uses Action.Upkeep := by
    unfold enqueueFlushTask
    grind
  unfold tryScheduleFlushTask
  grind

@[grind ←] theorem upkeep_beginFlushTask (task : FlushTask n blockSize) :
    (beginFlushTask task).Uses Action.Upkeep := by
  unfold beginFlushTask
  grind

end Flush

section Read

@[grind ←]
theorem routine_tryPinResidentFrame (frame : Fin n) (tag : BufferTag) (recordAccess : Bool) :
    (tryPinResidentFrame frame tag recordAccess : Prog n blockSize Bool).Uses
      Action.Routine := by
  unfold tryPinResidentFrame
  grind

@[grind ←] theorem routine_probeResident (tag : BufferTag) (recordAccess : Bool) :
    (probeResident tag recordAccess : Prog n blockSize _).Uses Action.Routine := by
  have hloading : ∀ frame, (isLoadingTag frame tag : Prog n blockSize Bool).Uses Action.Routine :=
    fun frame => routine_of_silent (silent_isLoadingTag frame tag)
  unfold probeResident
  grind

@[grind ←] theorem routine_tryReadResidentHit (tag : BufferTag) (recordAccess : Bool) :
    (tryReadResidentHit tag recordAccess : Prog n blockSize _).Uses Action.Routine := by
  unfold tryReadResidentHit recordResidentHit
  grind

@[grind ←] theorem routine_acquireVictimFrame (waitForFrame : Bool) :
    (acquireVictimFrame waitForFrame : Prog n blockSize _).Uses Action.Routine := by
  have hacquire : (acquireReservationFrame : Prog n blockSize _).Uses Action.Routine := by
    unfold acquireReservationFrame
    grind
  have htransient : ∀ frames, (hasTransientFrame frames : Prog n blockSize _).Uses
      Action.Routine := fun frames => routine_of_silent (silent_hasTransientFrame frames)
  unfold acquireVictimFrame
  grind

@[grind ←] theorem routine_loseReservation (frame : Fin n) :
    (loseReservation frame : Prog n blockSize Unit).Uses Action.Routine := by
  unfold loseReservation
  grind

end Read

end TelePath
