import TelePath.Spec.Routine
import TelePath.System

/-!
What the calls and the background threads are put together from.  Only few programs change
dirty bits, or create and finish tasks of the cleaner; everything else is made of them and of
plain actions.
-/

namespace TelePath

open FrameControl Logic Manager
open Program (Built built_forever built_forEach)

variable {n blockSize : Nat} {α : Type}

def Action.isPlain : Action n blockSize → Bool
  | .replaceUnlessLive _ _ _ | .submitRequest _ => true
  | action => action.isRoutine

inductive Block : ∀ ⦃α : Type⦄, Prog n blockSize α → Prop where
  | act {action : Action n blockSize} (h : action.isPlain = true) : Block (act action)
  | markHandleDirty (frame : Fin n) (tag : BufferTag) (lsn : Lsn) :
      Block (markHandleDirty frame tag lsn)
  | tryScheduleFlushTask (frame : Fin n) (stable opportunistic cleanerOwned : Bool) :
      Block (tryScheduleFlushTask frame stable opportunistic cleanerOwned)
  | foregroundFlushRound (mode : ForegroundWriteback) (frame : Fin n) (stable : Bool) :
      Block (foregroundFlushRound mode frame stable)
  | dropFrame (file : FileId) (firstBlock : BlockId) (frame : Fin n) :
      Block (dropFrame file firstBlock frame)
  | flushWorker (batchSize burstLimit : Nat) : Block (flushWorker batchSize burstLimit)

theorem Action.Routine.plain {action : Action n blockSize} (h : action.Routine) :
    action.isPlain = true := by
  cases action with
  | replaceUnlessLive | submitRequest => rfl
  | _ => exact h

theorem built_of_routine {program : Prog n blockSize α} (h : program.Uses Action.Routine) :
    program.Built Block :=
  h.built fun _ haction => .act haction.plain

@[grind ←] theorem built_act {action : Action n blockSize} (h : action.isPlain = true) :
    (act action).Built Block := .block (.act h)

attribute [local grind unfold] Action.isPlain Action.isRoutine Action.isUpkeep
attribute [local grind .] built_of_routine routine_of_silent

section Flush

theorem built_tryScheduleFlushTask (frame : Fin n) (stable opportunistic cleanerOwned : Bool) :
    (tryScheduleFlushTask frame stable opportunistic cleanerOwned :
      Prog n blockSize _).Built Block :=
  .block (.tryScheduleFlushTask frame stable opportunistic cleanerOwned)

theorem built_foregroundFlushRound (mode : ForegroundWriteback) (frame : Fin n)
    (stable : Bool) : (foregroundFlushRound mode frame stable : Prog n blockSize _).Built Block :=
  .block (.foregroundFlushRound mode frame stable)

theorem built_runForegroundFlush (mode : ForegroundWriteback) (frame : Fin n)
    (stable : Bool) :
    (runForegroundFlush mode frame stable : Prog n blockSize Status).Built Block := by
  unfold runForegroundFlush
  grind [built_foregroundFlushRound]

theorem built_flushFrame (mode : ForegroundWriteback) (frame : Fin n) :
    (flushFrame mode frame : Prog n blockSize Status).Built Block :=
  built_runForegroundFlush mode frame false

theorem built_releaseFrame (frame : Fin n) :
    (releaseFrame frame : Prog n blockSize Unit).Built Block := by
  unfold releaseFrame
  grind

theorem built_syncWrittenFiles : (syncWrittenFiles : Prog n blockSize Status).Built Block := by
  unfold syncWrittenFiles
  grind [routine_syncFiles]

end Flush

section Read

theorem built_submit (requests : List (DiskRequest n blockSize)) :
    (submit requests).Built Block := by
  unfold submit
  grind [routine_deliver]

theorem built_install {frame : Fin n} {tag : BufferTag} {old : Option BufferTag}
    {rest : Option (Fin n) → Prog n blockSize α} (hrest : ∀ other, (rest other).Built Block) :
    Built Block (do
      act (.storeTag frame tag)
      act (.bumpVersion frame)
      act (.replaceUnlessLive old tag frame) >>= rest) :=
  .seq (built_act rfl) fun _ => .seq (built_act rfl) fun _ => .seq (built_act rfl) hrest

theorem built_tryReserveFrameForTag (frame : Fin n) (tag : BufferTag)
    (allowVictimFlush fromFreeList : Bool) :
    (tryReserveFrameForTag frame tag allowVictimFlush fromFreeList :
      Prog n blockSize _).Built Block := by
  refine .seq (built_act rfl) fun (outcome, observed) => ?_
  cases outcome with
  | rejected | needsFlush => exact .done _
  | reserved =>
      dsimp only
      split
      · refine .seq (built_act rfl) fun evictedTag => built_install fun other => ?_
        grind [routine_loseReservation]
      · refine built_install fun other => ?_
        grind [routine_loseReservation]

theorem built_reserveVictim (mode : ForegroundWriteback) (candidate : ReservationCandidate n)
    (tag : BufferTag) : (reserveVictim mode candidate tag : Prog n blockSize _).Built Block := by
  have hflush : (flushVictimBeforeReuse mode candidate.frame : Prog n blockSize _).Built Block := by
    unfold flushVictimBeforeReuse
    grind [built_flushFrame]
  unfold reserveVictim
  grind [built_tryReserveFrameForTag]

theorem built_reserveFrameForTag (mode : ForegroundWriteback) (tag : BufferTag)
    (strategy : Option StrategyId) (waitForFrame : Bool) :
    (reserveFrameForTag mode tag strategy waitForFrame : Prog n blockSize _).Built Block := by
  have hring : (tryReserveRingFrame tag strategy : Prog n blockSize _).Built Block := by
    unfold tryReserveRingFrame
    grind [built_tryReserveFrameForTag]
  have hpool : (reserveFromPool mode tag strategy waitForFrame :
      Prog n blockSize _).Built Block := by
    refine built_forever (.seq (built_of_routine (routine_acquireVictimFrame _))
      fun candidate => ?_)
    cases candidate with
    | error error => exact .done _
    | ok candidate =>
        refine .seq (built_reserveVictim mode candidate tag) fun result => ?_
        grind [routine_releaseFreeFrame]
  unfold reserveFrameForTag
  grind

theorem built_completeReservation (tag : BufferTag) (reservation : FrameReservation n)
    (mode : ReadBufferMode) :
    (completeReservation tag reservation mode : Prog n blockSize _).Built Block := by
  have hread : (readReservedPage reservation.frame tag : Prog n blockSize _).Built Block := by
    unfold readReservedPage submitAndWait
    grind [built_submit, routine_wait]
  unfold completeReservation
  grind [routine_publishLoadedFrame, routine_abortLoadReservation]

-- a miss maps a page and asks for its bytes, which is plain though no routine
example : (.replaceUnlessLive none {} 0 : Action 1 1).isPlain = true ∧
    ¬ (.replaceUnlessLive none {} 0 : Action 1 1).Routine := by decide +kernel

theorem built_pinPage (writeback : ForegroundWriteback) (tag : BufferTag)
    (strategy : Option StrategyId) (mode : ReadBufferMode) :
    (pinPage writeback tag strategy mode : Prog n blockSize _).Built Block := by
  have hload : (loadPage writeback tag strategy mode : Prog n blockSize _).Built Block := by
    unfold loadPage recordReadMiss
    grind [built_reserveFrameForTag, built_completeReservation]
  have hturn : ∀ recordAccess waited, (pinPageTurn writeback tag strategy mode recordAccess
      waited : Prog n blockSize _).Built Block := by
    intro recordAccess waited
    unfold pinPageTurn recordJoinedMissHit recordResidentHit
    grind [routine_probeResident, silent_waitForLoad, silent_isResidentTag]
  unfold pinPage
  grind [silent_checkUsable, silent_recordsAccesses]

theorem built_readBuffer (writeback : ForegroundWriteback) (tag : BufferTag)
    (strategy : Option StrategyId) :
    (readBuffer writeback tag strategy : Prog n blockSize _).Built Block := by
  unfold readBuffer
  grind [built_pinPage]

theorem built_readBufferExclusive (writeback : ForegroundWriteback) (tag : BufferTag)
    (strategy : Option StrategyId) (mode : ReadBufferMode) :
    (readBufferExclusive writeback tag strategy mode : Prog n blockSize _).Built Block := by
  unfold readBufferExclusive
  grind [built_pinPage]

end Read

section Calls

theorem built_whenUsable {call : Prog n blockSize Status} (h : call.Built Block) :
    (whenUsable call).Built Block := by
  unfold whenUsable
  grind [silent_checkUsable]

theorem built_flushBusyFrames (mode : ForegroundWriteback) (frames : List (Fin n))
    (first : Status) : (flushBusyFrames mode frames first : Prog n blockSize Status).Built Block := by
  induction frames generalizing first with
  | nil => exact .done _
  | cons frame rest ih => exact .seq (built_flushFrame mode frame) fun _ => ih _

theorem built_writeBackFrames (mode : ForegroundWriteback)
    {selected : Fin n → Prog n blockSize Bool} (h : ∀ frame, (selected frame).Built Block) :
    (writeBackFrames mode selected).Built Block := by
  have hschedule : ∀ frames tasks busy,
      (scheduleFrames selected frames tasks busy).Built Block := by
    intro frames
    induction frames with
    | nil => exact fun _ _ => .done _
    | cons frame rest ih =>
        unfold scheduleFrames
        grind [built_tryScheduleFlushTask]
  unfold writeBackFrames
  grind [silent_waitForScheduledFlushes, built_flushBusyFrames]

theorem built_flushAll (mode : ForegroundWriteback) :
    (flushAll mode : Prog n blockSize Status).Built Block := by
  have hwrite := built_writeBackFrames mode fun frame : Fin n =>
    (Program.built_pure true : Built (@Block n blockSize) _)
  unfold flushAll
  grind [built_whenUsable, built_syncWrittenFiles]

theorem built_flushFileBuffers (mode : ForegroundWriteback) (file : FileId) :
    (flushFileBuffers mode file : Prog n blockSize Status).Built Block := by
  unfold flushFileBuffers
  grind [built_whenUsable, built_writeBackFrames]

theorem built_syncFile (file : FileId) :
    (syncFile file : Prog n blockSize Status).Built Block := by
  unfold syncFile
  grind [built_whenUsable, routine_syncFiles]

theorem built_checkpointBuffers (mode : ForegroundWriteback) (lsn : Lsn) :
    (checkpointBuffers mode lsn : Prog n blockSize Status).Built Block := by
  have hframe : ∀ frame, (checkpointFrame mode lsn frame : Prog n blockSize Status).Built Block := by
    intro frame
    unfold checkpointFrame
    grind [silent_recLsnBefore, built_foregroundFlushRound]
  have hframes : ∀ frames : List (Fin n),
      (checkpointFrames mode lsn frames : Prog n blockSize Status).Built Block := by
    intro frames
    induction frames with
    | nil => exact .done _
    | cons frame rest ih =>
        unfold checkpointFrames
        grind
  unfold checkpointBuffers
  grind [built_whenUsable, built_writeBackFrames, built_syncWrittenFiles, silent_recLsnBefore]

theorem built_flushBuffer (mode : ForegroundWriteback) (tag : BufferTag) :
    (flushBuffer mode tag : Prog n blockSize Status).Built Block := by
  refine built_whenUsable (.seq (built_act rfl) fun found => ?_)
  grind [routine_tryPinResidentFrame, built_flushFrame, built_releaseFrame]

theorem built_dropFileBuffers (file : FileId) (firstBlock : BlockId) :
    (dropFileBuffers file firstBlock : Prog n blockSize Status).Built Block := by
  have hdrop : ∀ (frames : List (Fin n)) (result : Status),
      (dropFrames file firstBlock frames result : Prog n blockSize Status).Built Block := by
    intro frames
    induction frames with
    | nil => exact fun _ => .done _
    | cons frame rest ih =>
        exact fun _ => .seq (.block (.dropFrame file firstBlock frame)) fun _ => ih _
  exact built_whenUsable (hdrop _ _)

theorem built_submitAsyncLoads (loads : List (AsyncLoad n)) :
    (submitAsyncLoads loads : Prog n blockSize Unit).Built Block := by
  have hprepare : (prepareLoads loads : Prog n blockSize _).Built Block := by
    induction loads with
    | nil => exact .done _
    | cons load rest ih =>
        have hload : (prepareLoad load : Prog n blockSize _).Built Block := by
          unfold prepareLoad
          grind
        exact .seq hload fun _ => .seq ih fun _ => .done _
  exact .seq hprepare built_submit

theorem built_prefetchBuffer (mode : ForegroundWriteback) (maxRequestBlocks : Nat)
    (file : FileId) (block : BlockId) (blockCount : Nat) :
    (prefetchBuffer mode maxRequestBlocks file block blockCount :
      Prog n blockSize Status).Built Block := by
  have hreserve : ∀ indices loads, (reservePrefetches mode maxRequestBlocks file block indices
      loads : Prog n blockSize _).Built Block := by
    intro indices
    induction indices with
    | nil => exact fun _ => .done _
    | cons i rest ih =>
        unfold reservePrefetches
        grind [silent_isResidentTag, built_reserveFrameForTag]
  unfold prefetchBuffer
  grind [built_whenUsable, built_submitAsyncLoads]

theorem built_startReadBuffers (mode : ForegroundWriteback) (maxRequestBlocks : Nat)
    (current : Option OperationId) (file : FileId) (block : BlockId) (blockCount : Nat)
    (strategy : Option StrategyId) :
    (startReadBuffers mode maxRequestBlocks current file block blockCount strategy :
      Prog n blockSize _).Built Block := by
  have hreads : ∀ operation recordAccess indices state loads, (startReads mode maxRequestBlocks
      operation file block strategy recordAccess indices state loads :
        Prog n blockSize _).Built Block := by
    intro operation recordAccess indices
    induction indices with
    | nil => exact fun _ _ => .done _
    | cons i rest ih =>
        intro state loads
        refine .seq (built_of_routine (routine_tryReadResidentHit _ _)) fun hit => ?_
        unfold recordReadMiss
        grind [silent_isResidentTag, built_reserveFrameForTag]
  refine .seq (built_of_routine (routine_of_silent silent_checkUsable)) fun status => ?_
  grind [silent_recordsAccesses, built_submitAsyncLoads]

theorem built_finishReadBuffers (mode : ForegroundWriteback) (operation : OperationId)
    (makeHandles : Bool) :
    (finishReadBuffers mode operation makeHandles : Prog n blockSize _).Built Block := by
  have hpin : ∀ indices state, (pinDeferred mode indices state : Prog n blockSize _).Built Block := by
    intro indices
    induction indices with
    | nil => exact fun _ => .done _
    | cons i rest ih =>
        unfold pinDeferred
        grind [built_pinPage]
  have hslots : ∀ keep state indices,
      (finishSlots keep state indices : Prog n blockSize _).Built Block := by
    intro keep state indices
    induction indices with
    | nil => exact .done _
    | cons i rest ih =>
        unfold finishSlots
        grind [built_releaseFrame]
  refine .seq (built_of_routine (routine_waitFor
    (routine_of_silent (silent_operationPending operation))
    (routine_of_silent (silent_operationStatus operation)))) fun ioStatus =>
      .seq (built_act rfl) fun found => ?_
  grind

end Calls

section Background

theorem built_cleaner (high low : Nat) :
    (cleaner high low : Prog n blockSize Unit).Built Block := by
  have hschedule : ∀ candidate : Option (Fin n),
      (forM candidate scheduleCleanerFlush : Prog n blockSize Unit).Built Block := by
    intro candidate
    cases candidate with
    | none => exact .done _
    | some frame =>
        change (scheduleCleanerFlush frame : Prog n blockSize Unit).Built Block
        unfold scheduleCleanerFlush
        grind [built_tryScheduleFlushTask]
  have hround : (cleanerRound high low : Prog n blockSize _).Built Block := by
    unfold cleanerRound
    grind [silent_seedCleanerCandidates]
  unfold cleaner
  grind

theorem built_reaper : (reaper : Prog n blockSize Unit).Built Block := by
  unfold reaper
  grind [routine_reapReady]

end Background

theorem built_callProgram {options : Options} {client : Client n} {call : Call n blockSize}
    {program : Prog n blockSize (Outcome n)} (h : callProgram options client call = some program) :
    program.Built Block := by
  cases call with
  | release index =>
      obtain ⟨handle, -, rfl⟩ := Option.map_eq_some_iff.mp h
      unfold releaseProgram releaseExclusiveHandle releaseSharedHandle
      grind [built_releaseFrame]
  | mutableData index | markDirty index lsn =>
      obtain ⟨handle, -, rfl⟩ := Option.map_eq_some_iff.mp h
      have hmark := fun lsn => Built.block (@Block.markHandleDirty n blockSize handle.frame
        handle.tag lsn)
      grind
  | write index page =>
      obtain ⟨handle, -, rfl⟩ := Option.map_eq_some_iff.mp h
      grind
  | flushHandle index =>
      obtain ⟨handle, -, rfl⟩ := Option.map_eq_some_iff.mp h
      have honce : ∀ stable, (flushFrameOnce options.writeback handle.frame stable :
          Prog n blockSize Status).Built Block := by
        unfold flushFrameOnce
        grind [built_foregroundFlushRound]
      unfold flushHandleProgram
      grind [built_whenUsable, built_runForegroundFlush]
  | waitReadBuffers operation =>
      cases h
      unfold waitReadBuffers
      grind [built_finishReadBuffers]
  | destroyOperation operation =>
      cases h
      unfold destroyOperation
      grind [built_finishReadBuffers]
  | minRecLsn =>
      cases h
      grind [silent_minRecLsn]
  | _ =>
      cases h
      grind [built_readBuffer, built_readBufferExclusive, built_flushBuffer, built_flushAll,
        built_flushFileBuffers, built_syncFile, built_checkpointBuffers, built_prefetchBuffer,
        built_startReadBuffers, built_dropFileBuffers]

end TelePath
