import TelePath.Spec.Read

/-!
What the programs of `Manager/Calls` need and what they leave.
-/

namespace TelePath

open FrameControl Logic Manager
open Program (uses_ite uses_seq)

variable {n blockSize : Nat} {context : Multiset (Token n blockSize)}

/-! ### Flushing -/

theorem flushBusyFrames_spec (mode : ForegroundWriteback) (frames : List (Fin n))
    (first : Status) :
    Ensures Rule context (flushBusyFrames mode frames first : Prog n blockSize Status)
      (fun _ Q => Q = 0) 0 := by
  induction frames generalizing first with
  | nil => rfl
  | cons frame rest ih =>
      refine (flushFrame_spec mode frame).seq ?_
      rintro status _ rfl
      exact ih _

theorem scheduleFrames_spec {selected : Fin n → Prog n blockSize Bool}
    (hselected : ∀ frame, (selected frame).Uses Action.Silent) (frames : List (Fin n))
    (tasks : List (FlushTask n blockSize)) (busy : List (Fin n)) :
    Ensures Rule context (scheduleFrames selected frames tasks busy) (fun _ Q => Q = 0) 0 := by
  induction frames generalizing tasks busy with
  | nil => rfl
  | cons frame rest ih =>
      refine ensures_after_silent (hselected frame) fun chosen => ?_
      cases chosen with
      | false => exact ih tasks busy
      | true =>
          refine (tryScheduleFlushTask_spec frame .reader false true false).seq ?_
          rintro ⟨task, wasBusy⟩ _ rfl
          cases task with
          | error error => rfl
          | ok task => cases wasBusy <;> exact ih _ _

theorem writeBackFrames_spec (mode : ForegroundWriteback)
    {selected : Fin n → Prog n blockSize Bool}
    (hselected : ∀ frame, (selected frame).Uses Action.Silent) :
    Ensures Rule context (writeBackFrames mode selected) (fun _ Q => Q = 0) 0 := by
  refine (scheduleFrames_spec hselected _ _ _).seq ?_
  rintro result _ rfl
  cases result with
  | error error => rfl
  | ok found =>
      refine ensures_after_silent (silent_waitForScheduledFlushes _ _) fun waited => ?_
      refine (flushBusyFrames_spec mode _ _).seq ?_
      rintro _ _ rfl
      rfl

theorem whenUsable_spec {call : Prog n blockSize Status} {P : Multiset (Token n blockSize)}
    (hcall : Ensures Rule context call (fun _ Q => Q = P) P) :
    Ensures Rule context (whenUsable call) (fun _ Q => Q = P) P := by
  refine ensures_after_silent silent_checkUsable fun status => ?_
  cases status with
  | some error => rfl
  | none => exact hcall

theorem flushAll_spec (mode : ForegroundWriteback) :
    Ensures Rule context (flushAll mode : Prog n blockSize Status) (fun _ Q => Q = 0) 0 := by
  have hall : ∀ _ : Fin n, (return true : Prog n blockSize Bool).Uses Action.Silent :=
    fun _ => trivial
  refine whenUsable_spec ((writeBackFrames_spec mode hall).seq ?_)
  rintro status _ rfl
  cases status with
  | some error => rfl
  | none => exact syncWrittenFiles_spec

theorem flushFileBuffers_spec (mode : ForegroundWriteback) (file : FileId) :
    Ensures Rule context (flushFileBuffers mode file : Prog n blockSize Status)
      (fun _ Q => Q = 0) 0 :=
  whenUsable_spec (writeBackFrames_spec mode fun _ =>
    uses_seq (silent_act rfl rfl) fun _ => trivial)

theorem syncFile_spec (file : FileId) :
    Ensures Rule context (syncFile file : Prog n blockSize Status) (fun _ Q => Q = 0) 0 :=
  whenUsable_spec (ensures_silent rfl fun _ => ensures_silent rfl fun _ =>
    syncFiles_spec [file])

theorem checkpointFrame_spec (mode : ForegroundWriteback) (lsn : Lsn) (frame : Fin n) :
    Ensures Rule context (checkpointFrame mode lsn frame : Prog n blockSize Status)
      (fun _ Q => Q = 0) 0 := by
  refine ensures_forever (fun Q => Q = 0) rfl ?_
  rintro _ rfl
  refine ensures_after_silent (silent_recLsnBefore lsn frame) fun pending => ?_
  cases pending with
  | false => rfl
  | true =>
      refine (foregroundFlushRound_spec mode frame false .reader).seq ?_
      rintro result _ rfl
      match result with
      | .error error => rfl
      | .ok false => rfl
      | .ok true => rfl

theorem checkpointFrames_spec (mode : ForegroundWriteback) (lsn : Lsn) (frames : List (Fin n)) :
    Ensures Rule context (checkpointFrames mode lsn frames : Prog n blockSize Status)
      (fun _ Q => Q = 0) 0 := by
  induction frames with
  | nil => rfl
  | cons frame rest ih =>
      refine (checkpointFrame_spec mode lsn frame).seq ?_
      rintro status _ rfl
      cases status with
      | some error => rfl
      | none => exact ih

theorem checkpointBuffers_spec (mode : ForegroundWriteback) (lsn : Lsn) :
    Ensures Rule context (checkpointBuffers mode lsn : Prog n blockSize Status)
      (fun _ Q => Q = 0) 0 := by
  refine whenUsable_spec ((writeBackFrames_spec mode (silent_recLsnBefore lsn)).seq ?_)
  rintro status _ rfl
  cases status with
  | some error => rfl
  | none =>
      refine (checkpointFrames_spec mode lsn _).seq ?_
      rintro status _ rfl
      cases status with
      | some error => rfl
      | none => exact syncWrittenFiles_spec

theorem flushBuffer_spec (mode : ForegroundWriteback) (tag : BufferTag) :
    Ensures Rule context (flushBuffer mode tag : Prog n blockSize Status) (fun _ Q => Q = 0) 0 := by
  refine whenUsable_spec (ensures_silent rfl fun found => ?_)
  cases found with
  | none => rfl
  | some frame =>
      refine (tryPinResidentFrame_spec frame tag false).seq ?_
      rintro pinned _ rfl
      cases pinned with
      | false => rfl
      | true =>
          refine (flushFrame_spec mode frame).call (zero_add _).symm ?_
          rintro status _ rfl
          rw [zero_add]
          refine (releaseFrame_spec frame tag).seq ?_
          rintro _ _ rfl
          rfl

/-! ### Dropping the pages of a file -/

theorem freeDiscarded_spec (frame : Fin n) (tag : BufferTag) (previous : Word) :
    Ensures Rule context (freeDiscarded frame tag previous : Prog n blockSize Unit)
      (fun _ Q => Q = 0) {.free frame (.discarded tag)} := by
  rw [freeDiscarded]
  refine (addDirtyPages_spec (isDirty previous) (-1#64) _).joined ?_
  rintro _ rfl
  refine ensures_silent rfl fun _ => ensures_silent rfl fun _ => ?_
  refine ensures_act (.trade (.unlink frame tag)) (add_zero _).symm (zero_add _).symm ?_
  rintro _ _ rfl
  refine ensures_act (.trade (.untrackFree frame)) rfl (zero_add _).symm ?_
  rintro _ _ rfl
  refine ensures_act (.trade (.clearFreeTag frame {})) rfl (zero_add _).symm ?_
  rintro _ _ rfl
  exact releaseFreeFrame_spec frame

theorem dropFrame_spec (file : FileId) (firstBlock : BlockId) (frame : Fin n) :
    Ensures Rule context (dropFrame file firstBlock frame : Prog n blockSize Status)
      (fun _ Q => Q = 0) 0 := by
  refine ensures_forever (fun Q => Q = 0) rfl ?_
  rintro _ rfl
  refine ensures_silent rfl fun tag => ensures_silent rfl fun word => ?_
  split
  · rfl
  split
  · exact ensures_after_silent (silent_waitForLoad frame tag) fun _ => rfl
  refine (tryPinResidentFrame_spec frame tag false).seq ?_
  rintro pinned _ rfl
  cases pinned with
  | false => rfl
  | true =>
      refine ensures_act (.trade (.discard frame tag)) (add_zero _).symm (zero_add _).symm ?_
      rintro ⟨outcome, previous⟩ _ rfl
      cases outcome with
      | writeback =>
          refine (releaseFrame_spec frame tag).seq ?_
          rintro _ _ rfl
          exact ensures_after_silent (silent_waitForPendingFlush frame) fun _ => rfl
      | latched =>
          refine ensures_silent rfl fun _ => ?_
          refine (releaseFrame_spec frame tag).seq ?_
          rintro _ _ rfl
          rfl
      | busy =>
          refine (releaseFrame_spec frame tag).seq ?_
          rintro _ _ rfl
          rfl
      | discarded =>
          rw [add_zero]
          refine (freeDiscarded_spec frame tag (previous.getD 0#32)).seq ?_
          rintro _ _ rfl
          rfl

theorem dropFrames_spec (file : FileId) (firstBlock : BlockId) (frames : List (Fin n))
    (result : Status) :
    Ensures Rule context (dropFrames file firstBlock frames result : Prog n blockSize Status)
      (fun _ Q => Q = 0) 0 := by
  induction frames generalizing result with
  | nil => rfl
  | cons frame rest ih =>
      refine (dropFrame_spec file firstBlock frame).seq ?_
      rintro status _ rfl
      exact ih _

theorem dropFileBuffers_spec (file : FileId) (firstBlock : BlockId) :
    Ensures Rule context (dropFileBuffers file firstBlock : Prog n blockSize Status)
      (fun _ Q => Q = 0) 0 :=
  whenUsable_spec (dropFrames_spec file firstBlock _ _)

end TelePath
