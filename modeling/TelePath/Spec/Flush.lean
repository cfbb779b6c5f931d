import TelePath.Spec.IoEngine

/-!
What the programs of `Manager/Flush` need and what they leave.
-/

namespace TelePath

open FrameControl Logic Manager
open Program (uses_ite uses_seq)

variable {n blockSize : Nat} {context : Multiset (Token n blockSize)}

theorem releaseFrame_spec (frame : Fin n) (tag : BufferTag) :
    Ensures Rule context (releaseFrame frame : Prog n blockSize Unit) (fun _ Q => Q = 0)
      {.pin frame tag} := by
  refine ensures_act (.trade (.unpin frame tag)) (add_zero _).symm (zero_add _).symm ?_
  rintro reply _ rfl
  rw [add_zero]
  refine ensures_of_silent ?_
  cases reply with
  | none => trivial
  | some previous => exact uses_ite.mpr ⟨fun _ => silent_act rfl rfl, fun _ => trivial⟩

theorem addDirtyPages_spec (due : Bool) (amount : BitVec 64)
    (kept : Multiset (Token n blockSize)) :
    Ensures Rule context
      (if due = true then act (.addDirtyPages amount) else pure () : Prog n blockSize Unit)
      (fun _ Q => Q = kept) kept := by
  cases due with
  | false => rfl
  | true =>
      refine ensures_last (.trade (.silent rfl)) (zero_add _).symm (zero_add _).symm ?_
      rintro _ _ rfl
      exact zero_add _

theorem markHandleDirty_spec (frame : Fin n) (tag : BufferTag) (lsn : Lsn) (mark : Mark) :
    Ensures Rule (context + ({.pin frame tag} + {.exclusive frame}))
      (markHandleDirty frame tag lsn : Prog n blockSize Unit)
      (fun _ Q => Q = {.writer frame .dirty}) {.writer frame mark} := by
  refine ensures_act (.trade (.markDirty frame tag mark)) (add_zero _).symm
    (by rw [add_zero, add_comm]) ?_
  rintro becameDirty _ rfl
  rw [add_zero]
  exact ensures_silent rfl fun _ => addDirtyPages_spec _ _ _

theorem releaseSharedHandle_spec (frame : Fin n) (tag : BufferTag) :
    Ensures Rule context (releaseSharedHandle frame : Prog n blockSize Unit) (fun _ Q => Q = 0)
      ({.shared frame} + {.reader frame} + {.pin frame tag}) := by
  refine ensures_act (.trade (.releaseShared frame)) rfl (zero_add _).symm ?_
  rintro _ _ rfl
  rw [zero_add]
  exact releaseFrame_spec frame tag

theorem releaseExclusiveHandle_spec (frame : Fin n) (tag : BufferTag) (mark : Mark) :
    Ensures Rule context (releaseExclusiveHandle frame tag : Prog n blockSize Unit)
      (fun _ Q => Q = 0) ({.exclusive frame} + {.writer frame mark} + {.pin frame tag}) := by
  refine ensures_silent rfl fun _ => ?_
  refine ensures_act (.trade (.releaseExclusive frame tag mark)) rfl (add_comm context _) ?_
  rintro _ _ rfl
  rw [zero_add]
  exact releaseFrame_spec frame tag

theorem syncFiles_spec (files : List FileId) :
    Ensures Rule context (syncFiles files : Prog n blockSize Status) (fun _ Q => Q = 0) 0 := by
  rw [syncFiles]
  split
  · rfl
  · refine ensures_act (.trade (.newWaiter .sync files.length trivial)) (add_zero _).symm
      (zero_add _).symm ?_
    rintro waiter _ rfl
    have htickets : (Purpose.sync.waiting waiter : Multiset (Token n blockSize)) +
        Multiset.replicate files.length (.ticket waiter none) + 0 =
          (files.map fun _ => {.ticket waiter none}).sum + Purpose.sync.waiting waiter := by
      rw [List.map_const', List.sum_replicate, Multiset.nsmul_singleton, add_zero, add_comm]
    refine (submit_spec files _ _ ?_).callLent htickets ?_
    · intro file _
      exact submitOne_spec .sync waiter _ ⟨rfl, rfl⟩ rfl
    · rintro _ _ rfl
      rw [zero_add]
      refine (wait_spec .sync waiter).seq fun status Q hQ => ?_
      cases status with
      | none =>
          subst hQ
          rfl
      | some error =>
          subst hQ
          refine (ensures_forEach (fun _ Q => Q = 0) rfl ?_).seq fun _ _ h => h
          rintro file _ _ rfl
          exact ensures_of_silent (silent_noteWrittenFile file)

theorem syncWrittenFiles_spec :
    Ensures Rule context (syncWrittenFiles : Prog n blockSize Status) (fun _ Q => Q = 0) 0 :=
  ensures_silent rfl fun _ => ensures_silent rfl fun _ => syncFiles_spec _

theorem captureFlushSnapshot_spec (frame : Fin n) (latch : Latch) :
    Ensures Rule context (captureFlushSnapshot frame : Prog n blockSize _)
      (fun (tag, snapshot) Q =>
        Q = {.writeback frame (.copied tag snapshot)} + {latch.token frame})
      ({.writeback frame .queued} + {latch.token frame}) := by
  refine ensures_silent rfl fun _ => ?_
  refine ensures_silent rfl fun lsn => ensures_silent rfl fun _ => ensures_silent rfl fun _ => ?_
  refine ensures_act (.trade (.nameSnapshot frame latch)) (add_zero _).symm (zero_add _).symm ?_
  rintro tag _ rfl
  refine ensures_act (.trade (.takeSnapshot frame latch tag)) rfl (zero_add _).symm ?_
  rintro snapshot _ rfl
  exact add_zero _

/-- The writeback that a caller of `PrepareFlushTask` is left with. -/
def Manager.Prepared.tokens (frame : Fin n) (prepared : Prepared blockSize) :
    Multiset (Token n blockSize) :=
  match prepared.result with
  | .ok (some (tag, snapshot)) => {.writeback frame (.copied tag snapshot)}
  | _ => 0

theorem queueWriteback_spec (frame : Fin n) (latch : Latch)
    (stable opportunistic cleanerOwned : Bool) :
    Ensures Rule context
      (queueWriteback frame stable opportunistic cleanerOwned : Prog n blockSize _)
      (fun prepared Q => Q = prepared.tokens frame + {latch.token frame})
      {latch.token frame} := by
  refine ensures_forever (fun Q => Q = {latch.token frame}) rfl ?_
  rintro _ rfl
  refine ensures_act (.trade (.queueWriteback frame cleanerOwned)) (zero_add _).symm
    (zero_add _).symm ?_
  rintro outcome _ rfl
  cases outcome with
  | queued => exact (captureFlushSnapshot_spec frame latch).seq fun _ _ h => h
  | notDirty => rfl
  | pinned => rfl
  | pending =>
      simp only [reduceCtorEq, if_false, zero_add]
      split
      · exact (zero_add _).symm
      · refine ensures_after_silent (silent_waitForPendingFlush frame) fun status => ?_
        cases status with
        | none => rfl
        | some error => exact (zero_add _).symm

/-- The latch that a caller of `PrepareFlushTask` with stable data holds. -/
def stableLatch (frame : Fin n) (stable : Bool) (latch : Latch) : Multiset (Token n blockSize) :=
  if stable then {latch.token frame} else 0

theorem prepareFlushTask_spec (frame : Fin n) (latch : Latch)
    (stable opportunistic cleanerOwned : Bool) :
    Ensures Rule context
      (prepareFlushTask frame stable opportunistic cleanerOwned : Prog n blockSize _)
      (fun prepared Q => Q = prepared.tokens frame + stableLatch frame stable latch)
      (stableLatch frame stable latch) := by
  -- without stable data the snapshot is taken under a shared latch of its own
  have hlatched : Ensures Rule context
      (do
        let prepared ← queueWriteback frame false opportunistic cleanerOwned
        act (.releaseShared frame)
        return prepared : Prog n blockSize (Prepared blockSize))
      (fun prepared Q => Q = prepared.tokens frame + 0) ({.shared frame} + {.reader frame} + 0) := by
    rw [add_zero]
    refine (queueWriteback_spec frame .reader false opportunistic cleanerOwned).call
      (add_comm _ _) ?_
    rintro prepared _ rfl
    have hlatch : prepared.tokens frame + {Latch.reader.token frame} + {.shared frame} =
        {.shared frame} + {.reader frame} + prepared.tokens frame := by
      rw [add_right_comm, add_assoc, add_comm]
      rfl
    refine ensures_act (.trade (.releaseShared frame)) hlatch (zero_add _).symm ?_
    rintro _ _ rfl
    exact add_comm _ _
  cases stable with
  | true => exact queueWriteback_spec frame latch true opportunistic cleanerOwned
  | false =>
      cases opportunistic with
      | true =>
          refine ensures_act (.trade (.tryAcquireShared frame)) (add_zero _).symm
            (zero_add _).symm ?_
          rintro acquired _ rfl
          cases acquired with
          | true => exact hlatched
          | false => rfl
      | false =>
          refine ensures_act (.trade (.acquireShared frame)) (add_zero _).symm
            (zero_add _).symm ?_
          rintro _ _ rfl
          exact hlatched

theorem rollBackFlushTask_spec (frame : Fin n) (tag : BufferTag) (snapshot : Page blockSize)
    (cleanerOwned : Bool) (status : Status) :
    Ensures Rule context (rollBackFlushTask frame cleanerOwned status)
      (fun result Q => result = status ∧ Q = 0) {.writeback frame (.copied tag snapshot)} := by
  have hrest : Ensures Rule context
      (do
        act (.storeWritebackError frame (packWritebackError status))
        act (.lowerRecLsn frame (← act (.loadWritebackRecLsn frame)) none)
        act (.cancelQueuedWriteback frame)
        recordFlushTaskCompletion (← act (.loadTag frame)) status
        return status : Prog n blockSize Status)
      (fun result Q => result = status ∧ Q = 0) {.writeback frame (.copied tag snapshot)} := by
    refine ensures_silent rfl fun _ => ensures_silent rfl fun lsn => ensures_silent rfl fun _ => ?_
    refine ensures_act (.trade (.cancelWriteback frame tag snapshot)) (add_zero _).symm
      (zero_add _).symm ?_
    rintro _ _ rfl
    refine ensures_silent rfl fun tag => ?_
    exact ensures_after_silent (silent_recordFlushTaskCompletion tag status) fun _ => ⟨rfl, rfl⟩
  cases cleanerOwned with
  | true => exact ensures_silent rfl fun _ => hrest
  | false => exact hrest

/-- The writeback that a caller of `CreateFlushTask` is left with. -/
def Manager.Created.tokens (created : Created n blockSize) : Multiset (Token n blockSize) :=
  match created.task with
  | .ok (some task) => {Shared.parkedTask task}
  | _ => 0

/-- A created task is one for the frame. -/
def Manager.Created.For (created : Created n blockSize) (frame : Fin n) : Prop :=
  ∀ task, created.task = .ok (some task) → task.frame = frame ∧ task.clearDirtyOnSuccess = true

theorem createFlushTask_spec (frame : Fin n) (latch : Latch)
    (stable opportunistic cleanerOwned : Bool) :
    Ensures Rule context
      (createFlushTask frame stable opportunistic cleanerOwned : Prog n blockSize _)
      (fun created Q => created.For frame ∧ Q = created.tokens + stableLatch frame stable latch)
      (stableLatch frame stable latch) := by
  refine (prepareFlushTask_spec frame latch stable opportunistic cleanerOwned).seq ?_
  rintro ⟨result, wasBusy⟩ _ rfl
  match result with
  | .error error => exact ⟨nofun, rfl⟩
  | .ok none => exact ⟨nofun, rfl⟩
  | .ok (some (tag, snapshot)) =>
      refine ensures_silent rfl fun id => ensures_silent rfl fun status => ?_
      cases status with
      | some error =>
          refine (rollBackFlushTask_spec frame tag snapshot cleanerOwned (some error)).call rfl ?_
          rintro _ _ ⟨-, rfl⟩
          exact ⟨nofun, rfl⟩
      | none => exact ⟨fun _ h => by cases h; exact ⟨rfl, rfl⟩, rfl⟩

theorem enqueueFlushTask_spec (task : FlushTask n blockSize)
    (hclear : task.clearDirtyOnSuccess = true) :
    Ensures Rule context (enqueueFlushTask task)
      (fun status Q => Q = if status = ok then 0 else {Shared.parkedTask task})
      {Shared.parkedTask task} := by
  have hrest : Ensures Rule context (act (.enqueueTask task) : Prog n blockSize Status)
      (fun status Q => Q = if status = ok then 0 else {Shared.parkedTask task})
      {Shared.parkedTask task} := by
    refine ensures_last (.handover (.enqueueTask task hclear)) (add_zero _).symm
      (zero_add _).symm ?_
    rintro status _ rfl
    exact add_zero _
  rw [enqueueFlushTask]
  split
  · exact ensures_silent rfl fun _ => hrest
  · exact hrest

theorem tryScheduleFlushTask_spec (frame : Fin n) (latch : Latch)
    (stable opportunistic cleanerOwned : Bool) :
    Ensures Rule context
      (tryScheduleFlushTask frame stable opportunistic cleanerOwned : Prog n blockSize _)
      (fun _ Q => Q = stableLatch frame stable latch) (stableLatch frame stable latch) := by
  refine (createFlushTask_spec frame latch stable opportunistic cleanerOwned).seq ?_
  rintro ⟨result, wasBusy⟩ _ ⟨hfor, rfl⟩
  match result with
  | .error error => exact zero_add _
  | .ok none => exact zero_add _
  | .ok (some task) =>
      obtain ⟨hframe, hclear⟩ := hfor task rfl
      refine (enqueueFlushTask_spec task hclear).call rfl ?_
      rintro status _ rfl
      cases status with
      | some error =>
          subst hframe
          refine (rollBackFlushTask_spec task.frame task.tag task.snapshot cleanerOwned
            (some error)).call rfl ?_
          rintro _ _ ⟨-, rfl⟩
          exact zero_add _
      | none =>
          refine ensures_silent rfl fun _ => ?_
          cases cleanerOwned with
          | true => exact ensures_silent rfl fun _ => zero_add _
          | false => exact zero_add _

theorem beginFlushTask_spec (task : FlushTask n blockSize)
    (hclear : task.clearDirtyOnSuccess = true) :
    Ensures Rule context (beginFlushTask task)
      (fun _ Q => Q = {.writeback task.frame (.begun task.tag task.snapshot)})
      {Shared.parkedTask task} := by
  rw [beginFlushTask, if_pos hclear]
  refine ensures_last (.trade (.beginWriteback task.frame task.tag task.snapshot))
    (add_zero _).symm (zero_add _).symm ?_
  rintro _ _ rfl
  rfl

/-- What the writeback of a task becomes once the write has this status. -/
def FlushTask.ended (task : FlushTask n blockSize) (status : Status) :
    WritebackStage blockSize :=
  if status = ok then .written task.tag task.snapshot else .broken

theorem endWriteback_spec (task : FlushTask n blockSize) (status : Status) :
    Ensures Rule context (endWriteback task.frame status) (fun _ Q => Q = 0)
      {.writeback task.frame (task.ended status)} := by
  -- counting the page and queueing the frame once the writeback has ended
  have hafter : ∀ completion : WritebackCompletion, Ensures Rule context
        (do
          if completion.clearedDirty then act (.addDirtyPages (-1#64))
          if shouldQueueCleanerCandidate completion.word then act (.enqueueCandidate task.frame)
          else if completion.clearedDirty then act (.resetCandidate task.frame) :
          Prog n blockSize Unit)
        (fun _ Q => Q = 0) 0 := by
    intro completion
    refine (addDirtyPages_spec completion.clearedDirty (-1#64) 0).joined ?_
    rintro _ rfl
    exact ensures_of_silent (uses_ite.mpr ⟨fun _ => silent_act rfl rfl,
      fun _ => uses_ite.mpr ⟨fun _ => silent_act rfl rfl, fun _ => trivial⟩⟩)
  cases status with
  | none =>
      refine ensures_silent rfl fun _ => ensures_silent rfl fun _ => ?_
      refine ensures_act (.trade (.completeWriteback task.frame task.tag task.snapshot))
        (add_zero _).symm (zero_add _).symm ?_
      rintro completion _ rfl
      exact hafter completion
  | some error =>
      refine ensures_silent rfl fun _ => ensures_silent rfl fun lsn => ensures_silent rfl fun _ => ?_
      refine ensures_act (.trade (.abandonWriteback task.frame)) (add_zero _).symm
        (zero_add _).symm ?_
      rintro completion _ rfl
      exact hafter completion

theorem finalizeFlushTask_spec (task : FlushTask n blockSize) (status : Status)
    (hclear : task.clearDirtyOnSuccess = true) :
    Ensures Rule context (finalizeFlushTask task status) (fun _ Q => Q = 0)
      {.writeback task.frame (task.ended status)} := by
  refine ensures_after_silent (silent_recordFlushTaskCompletion _ _) fun _ => ?_
  have hend : Ensures Rule context
      (if task.clearDirtyOnSuccess then endWriteback task.frame status else pure ())
      (fun _ Q => Q = 0) {.writeback task.frame (task.ended status)} := by
    rw [if_pos hclear]
    exact endWriteback_spec task status
  refine hend.joined ?_
  rintro _ rfl
  have hcleaner : Ensures Rule context
      (if task.cleanerOwned = true then (do
        act .cleanerFlushFinished
        act (.record (.cleanerFlushFinished task.tag))) else pure () : Prog n blockSize Unit)
      (fun _ Q => Q = 0) 0 := by
    cases task.cleanerOwned with
    | true => exact ensures_silent rfl fun _ => ensures_of_silent (silent_act rfl rfl)
    | false => rfl
  refine hcleaner.joined ?_
  rintro _ rfl
  cases status with
  | some error => rfl
  | none =>
      refine ensures_silent rfl fun recorded => ?_
      have hlast : (do
          act (.record (.diskWrite task.tag))
          act (.record (.dirtyFlush task.tag)) : Prog n blockSize Unit).Uses Action.Silent :=
        uses_seq (silent_act rfl rfl) fun _ => silent_act rfl rfl
      cases recorded with
      | true => exact ensures_of_silent hlast
      | false =>
          refine (syncFiles_spec _).call (zero_add _).symm ?_
          rintro _ _ rfl
          rw [zero_add]
          exact ensures_of_silent hlast

theorem writeFlushTaskDirect_spec (task : FlushTask n blockSize)
    (hclear : task.clearDirtyOnSuccess = true) :
    Ensures Rule context (writeFlushTaskDirect task) (fun _ Q => Q = 0)
      {Shared.parkedTask task} := by
  refine ensures_silent rfl fun _ => ?_
  refine (beginFlushTask_spec task hclear).seq ?_
  rintro _ _ rfl
  refine (submitAndWait_spec (.write task.frame task.tag task.snapshot)
    (.write task.snapshot) task.tag rfl fun _ => rfl).seq ?_
  rintro status _ rfl
  have hfinal := @finalizeFlushTask_spec n blockSize context task status hclear
  cases status with
  | none => exact hfinal.seq fun _ _ h => h
  | some error => exact hfinal.seq fun _ _ h => h

theorem foregroundFlushRound_spec (mode : ForegroundWriteback) (frame : Fin n) (stable : Bool)
    (latch : Latch) :
    Ensures Rule context (foregroundFlushRound mode frame stable : Prog n blockSize (Result Bool))
      (fun _ Q => Q = stableLatch frame stable latch) (stableLatch frame stable latch) := by
  cases mode with
  | queued =>
      refine (tryScheduleFlushTask_spec frame latch stable false false).seq ?_
      rintro ⟨result, wasBusy⟩ _ rfl
      match result with
      | .error error => rfl
      | .ok none => rfl
      | .ok (some task) =>
          refine ensures_silent rfl fun written => ?_
          cases written <;> rfl
  | direct =>
      refine (createFlushTask_spec frame latch stable false false).seq ?_
      rintro ⟨result, wasBusy⟩ _ ⟨hfor, rfl⟩
      match result with
      | .error error => exact zero_add _
      | .ok none => exact zero_add _
      | .ok (some task) =>
          refine (writeFlushTaskDirect_spec task (hfor task rfl).2).call rfl ?_
          rintro written _ rfl
          cases written <;> exact zero_add _

theorem runForegroundFlush_spec (mode : ForegroundWriteback) (frame : Fin n) (stable : Bool)
    (latch : Latch) :
    Ensures Rule context (runForegroundFlush mode frame stable : Prog n blockSize Status)
      (fun _ Q => Q = stableLatch frame stable latch) (stableLatch frame stable latch) := by
  refine ensures_forever (fun Q => Q = stableLatch frame stable latch) rfl ?_
  rintro _ rfl
  refine (foregroundFlushRound_spec mode frame stable latch).seq ?_
  rintro result _ rfl
  match result with
  | .error error => rfl
  | .ok false => rfl
  | .ok true => rfl

theorem flushFrame_spec (mode : ForegroundWriteback) (frame : Fin n) :
    Ensures Rule context (flushFrame mode frame : Prog n blockSize Status) (fun _ Q => Q = 0) 0 :=
  runForegroundFlush_spec mode frame false .reader

theorem flushFrameOnce_spec (mode : ForegroundWriteback) (frame : Fin n) (stable : Bool)
    (latch : Latch) :
    Ensures Rule context (flushFrameOnce mode frame stable : Prog n blockSize Status)
      (fun _ Q => Q = stableLatch frame stable latch) (stableLatch frame stable latch) := by
  refine (foregroundFlushRound_spec mode frame stable latch).seq ?_
  rintro result _ rfl
  cases result <;> rfl

end TelePath
