import TelePath.Manager.IoEngine

/-!
Writing pages back: `buffer_manager_flush.cc`, the release of handles, and the
list of written files.
-/

namespace TelePath.Manager

open FrameControl Logic Program

variable {n blockSize : Nat}

inductive ForegroundWriteback where
  | direct
  | queued
  deriving DecidableEq, Repr

def shouldQueueCleanerCandidate (word : Word) : Bool :=
  isResident word && isDirty word && pins word = 0 && !hasWriteback word

def releaseFrame (frame : Fin n) : Prog n blockSize Unit := do
  match ← act (.unpin frame) with
  | none => return ()
  | some previous =>
      if pins previous = 1 ∧ isDirty previous then act (.enqueueCandidate frame)

def markHandleDirty (frame : Fin n) (tag : BufferTag) (lsn : Lsn) : Prog n blockSize Unit := do
  let becameDirty ← act (.markDirty frame)
  act (.lowerRecLsn frame lsn (some tag))
  if becameDirty.getD false then act (.addDirtyPages 1#64)

def releaseSharedHandle (frame : Fin n) : Prog n blockSize Unit := do
  act (.releaseShared frame)
  releaseFrame frame

def releaseExclusiveHandle (frame : Fin n) (tag : BufferTag) : Prog n blockSize Unit := do
  act (.bumpVersion frame)
  act (.releaseExclusive frame tag)
  releaseFrame frame

def noteWrittenFile (file : FileId) : Prog n blockSize Unit := do
  if !(← act (.recordWrittenFile file)) then act (.noteLocalWrittenFile file)

def syncFiles (files : List FileId) : Prog n blockSize Status := do
  if files = [] then return ok
  let waiter ← act (.newWaiter files.length)
  submit (files.map fun file => ⟨.waiter waiter, .sync, { fileId := file }⟩)
  let status ← wait waiter
  if status ≠ ok then forEach files noteWrittenFile
  return status

def syncWrittenFiles : Prog n blockSize Status := do
  let files ← act .takeLocalWrittenFiles
  let segmentFiles ← act .takeSharedWrittenFiles
  syncFiles (segmentFiles.foldl noteFile files)

def recordFlushTaskCompletion (tag : BufferTag) (status : Status) : Prog n blockSize Unit := do
  act (.record (.flushTaskCompleted tag))
  if status ≠ ok then act (.record (.flushFailure tag))

def waitForPendingFlush (frame : Fin n) : Prog n blockSize Status := do
  let _ ← act (.waitWhile frame .hasWriteback)
  return unpackWritebackError (← act (.loadWritebackError frame))

/-- What `PrepareFlushTask` found: the tag and snapshot to write, if any, and
whether an opportunistic caller should come back later. -/
structure Prepared (blockSize : Nat) where
  result : Result (Option (BufferTag × Page blockSize))
  wasBusy : Bool

/-- The steps between queueing a writeback and holding its snapshot.  The LSN
moves to the writeback before `recLsn` is cleared. -/
def captureFlushSnapshot (frame : Fin n) : Prog n blockSize (BufferTag × Page blockSize) := do
  act (.storeWritebackError frame 0#32)
  act (.storeWritebackRecLsn frame (← act (.loadRecLsn frame)))
  act (.storeRecLsn frame kInvalidLsn)
  let tag ← act (.loadTag frame)
  let snapshot ← act (.copyFrame frame)
  return (tag, snapshot)

/-- The retry loop of `PrepareFlushTask`, under the latch unless `stable`. -/
def queueWriteback (frame : Fin n) (stable opportunistic cleanerOwned : Bool) :
    Prog n blockSize (Prepared blockSize) :=
  forever do
    match ← act (.tryQueueWriteback frame cleanerOwned) with
    | .queued => return some ⟨.ok (some (← captureFlushSnapshot frame)), false⟩
    | .notDirty => return some ⟨.ok none, false⟩
    | .pinned => return some ⟨.ok none, true⟩
    | .pending =>
        if !stable && opportunistic then return some ⟨.ok none, true⟩
        match ← waitForPendingFlush frame with
        | none => return none
        | some error => return some ⟨.error error, false⟩

/-- `stable` callers pass the data of a handle they hold, which is the frame's own
memory, and take no latch here. -/
def prepareFlushTask (frame : Fin n) (stable opportunistic cleanerOwned : Bool) :
    Prog n blockSize (Prepared blockSize) := do
  if stable then queueWriteback frame stable opportunistic cleanerOwned
  else if opportunistic then
    if ← act (.tryAcquireShared frame) then
      let prepared ← queueWriteback frame stable opportunistic cleanerOwned
      act (.releaseShared frame)
      return prepared
    else return ⟨.ok none, true⟩
  else
    act (.acquireShared frame none)
    let prepared ← queueWriteback frame stable opportunistic cleanerOwned
    act (.releaseShared frame)
    return prepared

/-- Withdraws a queued writeback.  The LSN it took goes back to `recLsn` before the
writeback flag is cleared. -/
def rollBackFlushTask (frame : Fin n) (cleanerOwned : Bool) (status : Status) :
    Prog n blockSize Status := do
  if cleanerOwned then act .cleanerFlushFinished
  act (.storeWritebackError frame (packWritebackError status))
  act (.lowerRecLsn frame (← act (.loadWritebackRecLsn frame)) none)
  act (.cancelQueuedWriteback frame)
  recordFlushTaskCompletion (← act (.loadTag frame)) status
  return status

/-- A flush task, if there is something to write, and whether the frame was busy. -/
structure Created (n blockSize : Nat) where
  task : Result (Option (FlushTask n blockSize))
  wasBusy : Bool

def createFlushTask (frame : Fin n) (stable opportunistic cleanerOwned : Bool) :
    Prog n blockSize (Created n blockSize) := do
  let prepared ← prepareFlushTask frame stable opportunistic cleanerOwned
  match prepared.result with
  | .error error => return ⟨.error error, prepared.wasBusy⟩
  | .ok none => return ⟨.ok none, prepared.wasBusy⟩
  | .ok (some (tag, snapshot)) => do
      let id ← act .newTask
      match ← act (.preWriteHook tag snapshot) with
      | some error => do
          let _ ← rollBackFlushTask frame cleanerOwned (some error)
          return ⟨.error error, prepared.wasBusy⟩
      | none =>
          return ⟨.ok (some ⟨id, frame, tag, true, cleanerOwned, snapshot⟩), prepared.wasBusy⟩

def enqueueFlushTask (task : FlushTask n blockSize) : Prog n blockSize Status := do
  if task.cleanerOwned then act .cleanerFlushScheduled
  act (.enqueueTask task)

def tryScheduleFlushTask (frame : Fin n) (stable opportunistic cleanerOwned : Bool) :
    Prog n blockSize (Created n blockSize) := do
  let created ← createFlushTask frame stable opportunistic cleanerOwned
  match created.task with
  | .ok (some task) => do
      match ← enqueueFlushTask task with
      | some error => do
          let _ ← rollBackFlushTask frame cleanerOwned (some error)
          return ⟨.error error, created.wasBusy⟩
      | none => do
          act (.record (.flushTaskScheduled task.tag))
          if cleanerOwned then act (.record (.cleanerFlushScheduled task.tag))
          return created
  | _ => return created

def beginFlushTask (task : FlushTask n blockSize) : Prog n blockSize Unit :=
  if task.clearDirtyOnSuccess then act (.beginWriteback task.frame) else return ()

/-- The descriptor updates of `FinalizeFlushTask`.  A failed write gives its LSN
back to `recLsn` before the writeback flags are cleared. -/
def endWriteback (frame : Fin n) (status : Status) : Prog n blockSize Unit := do
  act (.storeWritebackError frame (packWritebackError status))
  if status = ok then act (.storeWritebackRecLsn frame kInvalidLsn)
  else act (.lowerRecLsn frame (← act (.loadWritebackRecLsn frame)) none)
  let completion ← act (.completeWriteback frame (status = ok))
  if completion.clearedDirty then act (.addDirtyPages (-1#64))
  if shouldQueueCleanerCandidate completion.word then act (.enqueueCandidate frame)
  else if completion.clearedDirty then act (.resetCandidate frame)

def finalizeFlushTask (task : FlushTask n blockSize) (status : Status) :
    Prog n blockSize Unit := do
  recordFlushTaskCompletion task.tag status
  if task.clearDirtyOnSuccess then endWriteback task.frame status
  if task.cleanerOwned then
    act .cleanerFlushFinished
    act (.record (.cleanerFlushFinished task.tag))
  if status = ok then
    if !(← act (.recordWrittenFile task.tag.fileId)) then
      let _ ← syncFiles [task.tag.fileId]
    act (.record (.diskWrite task.tag))
    act (.record (.dirtyFlush task.tag))

def writeFlushTaskDirect (task : FlushTask n blockSize) : Prog n blockSize Status := do
  act (.record (.flushTaskScheduled task.tag))
  beginFlushTask task
  let status ← submitAndWait (.write task.snapshot) task.tag
  finalizeFlushTask task status
  return status

def foregroundFlushRound (mode : ForegroundWriteback) (frame : Fin n) (stable : Bool) :
    Prog n blockSize (Result Bool) := do
  let created ← match mode with
    | .queued => tryScheduleFlushTask frame stable false false
    | .direct => createFlushTask frame stable false false
  match created.task with
  | .error error => return .error error
  | .ok none => return .ok false
  | .ok (some task) => do
      let written ← match mode with
        | .queued => act (.waitTask task.id)
        | .direct => writeFlushTaskDirect task
      match written with
      | some error => return .error error
      | none => return .ok true

/-- `RunForegroundFlush`: rounds until one finds nothing to write. -/
def runForegroundFlush (mode : ForegroundWriteback) (frame : Fin n) (stable : Bool) :
    Prog n blockSize Status :=
  forever do
    match ← foregroundFlushRound mode frame stable with
    | .error error => return some (some error)
    | .ok false => return some ok
    | .ok true => return none

def flushFrame (mode : ForegroundWriteback) (frame : Fin n) : Prog n blockSize Status :=
  runForegroundFlush mode frame false

def flushFrameOnce (mode : ForegroundWriteback) (frame : Fin n) (stable : Bool) :
    Prog n blockSize Status := do
  match ← foregroundFlushRound mode frame stable with
  | .error error => return some error
  | .ok _ => return ok

end TelePath.Manager
