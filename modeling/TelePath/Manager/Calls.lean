import TelePath.Manager.Read

/-!
The calls of `BufferManager` that work on many pages: flushing and
checkpointing, dropping a file's pages, and asynchronous reads.
-/

namespace TelePath.Manager

open FrameControl Logic Program

variable {n blockSize : Nat}

def invalidArgument (message : String) : Error := { code := .invalidArgument, message := message }

/-- Keeps the first error of a sequence. -/
def firstError (first second : Status) : Status := if first = ok then second else first

def waitForScheduledFlushes : List (FlushTask n blockSize) → Status → Prog n blockSize Status
  | [], first => return first
  | task :: rest, first => do
      let status ← act (.waitTask task.id)
      waitForScheduledFlushes rest (firstError first status)

def flushBusyFrames (mode : ForegroundWriteback) :
    List (Fin n) → Status → Prog n blockSize Status
  | [], first => return first
  | frame :: rest, first => do
      let status ← flushFrame mode frame
      flushBusyFrames mode rest (firstError first status)

/-- The scan of `WriteBackFrames`: the tasks it queued and the frames it found busy. -/
def scheduleFrames (selected : Fin n → Prog n blockSize Bool) :
    List (Fin n) → List (FlushTask n blockSize) → List (Fin n) →
      Prog n blockSize (Result (List (FlushTask n blockSize) × List (Fin n)))
  | [], tasks, busy => return .ok (tasks, busy)
  | frame :: rest, tasks, busy => do
      if !(← selected frame) then scheduleFrames selected rest tasks busy
      else
        let created ← tryScheduleFlushTask frame false true false
        match created.task with
        | .error error => return .error error
        | .ok task =>
            if created.wasBusy then scheduleFrames selected rest tasks (busy ++ [frame])
            else scheduleFrames selected rest (tasks ++ task.toList) busy

def writeBackFrames (mode : ForegroundWriteback) (selected : Fin n → Prog n blockSize Bool) :
    Prog n blockSize Status := do
  match ← scheduleFrames selected (List.finRange n) [] [] with
  | .error error => return some error
  | .ok (tasks, busy) => do
      let waited ← waitForScheduledFlushes tasks ok
      let flushed ← flushBusyFrames mode busy ok
      return firstError waited flushed

/-- Runs `call` unless the manager is failed or closed. -/
def whenUsable (call : Prog n blockSize Status) : Prog n blockSize Status := do
  match ← checkUsable with
  | some error => return some error
  | none => call

def flushAll (mode : ForegroundWriteback) : Prog n blockSize Status :=
  whenUsable do
    match ← writeBackFrames mode fun _ => return true with
    | some error => return some error
    | none => syncWrittenFiles

def flushFileBuffers (mode : ForegroundWriteback) (file : FileId) : Prog n blockSize Status :=
  whenUsable (writeBackFrames mode fun frame => do
    return (← act (.loadTag frame)).fileId = file)

def syncFile (file : FileId) : Prog n blockSize Status :=
  whenUsable do
    act (.eraseLocalWrittenFile file)
    act (.eraseSharedWrittenFile file)
    syncFiles [file]

def frameRecLsn (frame : Fin n) : Prog n blockSize Lsn := do
  let pending ← act (.loadRecLsn frame)
  let writing ← act (.loadWritebackRecLsn frame)
  if pending = kInvalidLsn then return writing
  if writing = kInvalidLsn then return pending
  return if pending ≤ writing then pending else writing

def minRecLsnOver : List (Fin n) → Lsn → Prog n blockSize Lsn
  | [], oldest => return oldest
  | frame :: rest, oldest => do
      let recLsn ← frameRecLsn frame
      minRecLsnOver rest
        (if recLsn ≠ kInvalidLsn ∧ (oldest = kInvalidLsn ∨ recLsn < oldest) then recLsn
          else oldest)

def minRecLsn : Prog n blockSize (Option Lsn) := do
  let oldest ← minRecLsnOver (List.finRange n) kInvalidLsn
  return if oldest = kInvalidLsn then none else some oldest

def recLsnBefore (lsn : Lsn) (frame : Fin n) : Prog n blockSize Bool := do
  let recLsn ← frameRecLsn frame
  return recLsn ≠ kInvalidLsn ∧ recLsn < lsn

/-- Writes one frame until nothing before `lsn` is pending on it. -/
def checkpointFrame (mode : ForegroundWriteback) (lsn : Lsn) (frame : Fin n) :
    Prog n blockSize Status :=
  forever do
    if !(← recLsnBefore lsn frame) then return some ok
    match ← foregroundFlushRound mode frame false with
    | .error error => return some (some error)
    | .ok false => return some ok
    | .ok true => return none

def checkpointFrames (mode : ForegroundWriteback) (lsn : Lsn) :
    List (Fin n) → Prog n blockSize Status
  | [] => return ok
  | frame :: rest => do
      match ← checkpointFrame mode lsn frame with
      | some error => return some error
      | none => checkpointFrames mode lsn rest

def checkpointBuffers (mode : ForegroundWriteback) (lsn : Lsn) : Prog n blockSize Status :=
  whenUsable do
    match ← writeBackFrames mode (recLsnBefore lsn) with
    | some error => return some error
    | none => do
        match ← checkpointFrames mode lsn (List.finRange n) with
        | some error => return some error
        | none => syncWrittenFiles

def flushBuffer (mode : ForegroundWriteback) (tag : BufferTag) : Prog n blockSize Status :=
  whenUsable do
    match ← act (.lookupFrameId tag) with
    | none => return ok
    | some frame => do
        if !(← tryPinResidentFrame frame tag false) then return ok
        let status ← flushFrame mode frame
        releaseFrame frame
        return status

def freeDiscarded (frame : Fin n) (tag : BufferTag) (previous : Word) :
    Prog n blockSize Unit := do
  if isDirty previous then act (.addDirtyPages (-1#64))
  act (.storeRecLsn frame kInvalidLsn)
  act (.storeWritebackRecLsn frame kInvalidLsn)
  act (.removeMapping tag frame)
  act (.removeTracked frame)
  act (.storeTag frame {})
  releaseFreeFrame frame

def pageInUse : Error := invalidArgument "a page in the dropped range is in use"

def dropFrame (file : FileId) (firstBlock : BlockId) (frame : Fin n) :
    Prog n blockSize Status :=
  forever do
    let tag ← act (.loadTag frame)
    let word ← act (.loadWord frame)
    if state word = .free ∨ tag.fileId ≠ file ∨ tag.blockId < firstBlock then return some ok
    if state word = .loading then
      waitForLoad frame tag
      return none
    if !(← tryPinResidentFrame frame tag false) then return none
    match ← act (.tryDiscardPinned frame) with
    | (.writeback, _) => do
        releaseFrame frame
        let _ ← waitForPendingFlush frame
        return none
    -- the latch is waited for with the pin still held
    | (.latched, _) => do
        let _ ← act (.waitWhile frame .latched)
        releaseFrame frame
        return none
    | (.busy, _) => do
        releaseFrame frame
        return some (some pageInUse)
    | (.discarded, previous) => do
        freeDiscarded frame tag (previous.getD 0#32)
        return some ok

/-- The last frame in use decides the status; the others are dropped all the same. -/
def dropFrames (file : FileId) (firstBlock : BlockId) :
    List (Fin n) → Status → Prog n blockSize Status
  | [], result => return result
  | frame :: rest, result => do
      let status ← dropFrame file firstBlock frame
      dropFrames file firstBlock rest (if status = ok then result else status)

def dropFileBuffers (file : FileId) (firstBlock : BlockId) : Prog n blockSize Status :=
  whenUsable (dropFrames file firstBlock (List.finRange n) ok)

def appendAsyncLoad (maxRequestBlocks : Nat) (loads : List (AsyncLoad n))
    (operation : Option OperationId) (entry : AsyncLoadEntry n) : List (AsyncLoad n) :=
  match loads.getLast? with
  | none => [⟨operation, [entry]⟩]
  | some last =>
      let extendsLast := last.entries.length < maxRequestBlocks ∧
        last.entries.getLast?.any fun previous =>
          previous.tag.fileId = entry.tag.fileId ∧
            previous.tag.blockId + 1#64 = entry.tag.blockId
      if extendsLast then
        loads.dropLast ++ [{ last with entries := last.entries ++ [entry] }]
      else loads ++ [⟨operation, [entry]⟩]

def prepareLoad (load : AsyncLoad n) : Prog n blockSize (DiskRequest n blockSize) := do
  match load.operation with
  | some operation => act (.addPending operation)
  | none => act .startPrefetch
  let id ← act (.newLoad load)
  let tag := (load.entries.head?.map (·.tag)).getD {}
  return ⟨.load id, .read (load.entries.map (·.reservation.frame)), tag⟩

def prepareLoads : List (AsyncLoad n) → Prog n blockSize (List (DiskRequest n blockSize))
  | [] => return []
  | load :: rest => do
      let request ← prepareLoad load
      return request :: (← prepareLoads rest)

def submitAsyncLoads (loads : List (AsyncLoad n)) : Prog n blockSize Unit := do
  submit (← prepareLoads loads)

/-- Reserves every absent page of the range before any read is submitted. -/
def reservePrefetches (mode : ForegroundWriteback) (maxRequestBlocks : Nat) (file : FileId)
    (block : BlockId) : List Nat → List (AsyncLoad n) →
      Prog n blockSize (List (AsyncLoad n) × Status)
  | [], loads => return (loads, ok)
  | i :: rest, loads => do
      let tag : BufferTag := ⟨file, block + BitVec.ofNat 64 i⟩
      if ← isResidentTag tag then reservePrefetches mode maxRequestBlocks file block rest loads
      else
        match ← reserveFrameForTag mode tag none false with
        | .error error =>
            return (loads, if error.code = .resourceExhausted then ok else some error)
        | .ok none => reservePrefetches mode maxRequestBlocks file block rest loads
        | .ok (some reservation) =>
            reservePrefetches mode maxRequestBlocks file block rest
              (appendAsyncLoad maxRequestBlocks loads none ⟨tag, reservation, i⟩)

def prefetchBuffer (mode : ForegroundWriteback) (maxRequestBlocks : Nat) (file : FileId)
    (block : BlockId) (blockCount : Nat) : Prog n blockSize Status :=
  whenUsable do
    let (loads, status) ←
      reservePrefetches mode maxRequestBlocks file block (List.range blockCount) []
    submitAsyncLoads loads
    return status

/-- The scan of `StartReadBuffers`.  A page that is resident but could not be
pinned, or for which no frame was found, stays deferred to the wait. -/
def startReads (mode : ForegroundWriteback) (maxRequestBlocks : Nat) (operation : OperationId)
    (file : FileId) (block : BlockId) (strategy : Option StrategyId) (recordAccess : Bool) :
    List Nat → ReadBuffersState n → List (AsyncLoad n) →
      Prog n blockSize (ReadBuffersState n × List (AsyncLoad n))
  | [], state, loads => return (state, loads)
  | i :: rest, state, loads => do
      let tag : BufferTag := ⟨file, block + BitVec.ofNat 64 i⟩
      let state := { state with tags := state.tags.set i tag }
      let continueWith := startReads mode maxRequestBlocks operation file block strategy
        recordAccess rest
      match ← tryReadResidentHit tag recordAccess with
      | some frame =>
          continueWith { state with
            frames := state.frames.set i (some frame)
            slots := state.slots.set i .pinned } loads
      | none => do
          if ← isResidentTag tag then continueWith state loads
          else
            match ← reserveFrameForTag mode tag strategy false with
            | .ok (some reservation) => do
                recordReadMiss tag
                continueWith { state with
                  frames := state.frames.set i (some reservation.frame)
                  slots := state.slots.set i .loading }
                  (appendAsyncLoad maxRequestBlocks loads (some operation)
                    ⟨tag, reservation, i⟩)
            | _ => continueWith state loads

/-- `current` is the state that the caller's operation object owns.  The new state
is a fresh one, so a completion of an earlier state never reaches it. -/
def startReadBuffers (mode : ForegroundWriteback) (maxRequestBlocks : Nat)
    (current : Option OperationId) (file : FileId) (block : BlockId) (blockCount : Nat)
    (strategy : Option StrategyId) : Prog n blockSize (Status × Option OperationId) := do
  match ← checkUsable with
  | some error => return (some error, current)
  | none => do
      if current.isSome then
        return (some (invalidArgument "read buffers operation is still in progress"), current)
      let operation ← act .newOperation
      let recordAccess ← recordsAccesses strategy
      let empty : ReadBuffersState n :=
        { strategy := strategy
          tags := List.replicate blockCount {}
          frames := List.replicate blockCount none
          slots := List.replicate blockCount .deferred
          waiter := { pending := 0 } }
      let (state, loads) ← startReads mode maxRequestBlocks operation file block strategy
        recordAccess (List.range blockCount) empty []
      act (.storeOperation operation (some state))
      submitAsyncLoads loads
      return (ok, some operation)

def operationPending (operation : OperationId) : Prog n blockSize Nat := do
  return ((← act (.loadOperation operation)).map (·.waiter.pending)).getD 0

def operationStatus (operation : OperationId) : Prog n blockSize Status := do
  return ((← act (.loadOperation operation)).map (·.waiter.error)).getD ok

/-- Pins the pages that the start left deferred, up to the first failure. -/
def pinDeferred (mode : ForegroundWriteback) :
    List Nat → ReadBuffersState n → Prog n blockSize (ReadBuffersState n × Status)
  | [], state => return (state, ok)
  | i :: rest, state => do
      if state.slots[i]? ≠ some .deferred then pinDeferred mode rest state
      else
        match ← pinPage mode (state.tags.getD i {}) state.strategy .normal with
        | .error error => return (state, some error)
        | .ok (frame, _) =>
            pinDeferred mode rest { state with
              frames := state.frames.set i (some frame)
              slots := state.slots.set i .pinned }

/-- Latches every page the operation holds, or releases it; the handles made. -/
def finishSlots (keep : Bool) (state : ReadBuffersState n) :
    List Nat → Prog n blockSize (List (Fin n × BufferTag))
  | [] => return []
  | i :: rest => do
      match state.slots[i]?, state.frames.getD i none with
      | some .pinned, some frame | some .loading, some frame => do
          if keep then
            act (.acquireShared frame (some (state.tags.getD i {})))
            return (frame, state.tags.getD i {}) :: (← finishSlots keep state rest)
          else
            releaseFrame frame
            finishSlots keep state rest
      | _, _ => finishSlots keep state rest

def finishReadBuffers (mode : ForegroundWriteback) (operation : OperationId)
    (makeHandles : Bool) : Prog n blockSize (List (Fin n × BufferTag) × Status) := do
  let ioStatus ← waitFor (operationPending operation) (operationStatus operation)
  match ← act (.loadOperation operation) with
  | none => return ([], ioStatus)
  | some state => do
      -- the engine stopped with reads in flight: the state is left to their completions
      if !state.waiter.done then return ([], ioStatus)
      let slots := List.range state.slots.length
      let (state, result) ←
        if ioStatus = ok ∧ makeHandles then pinDeferred mode slots state
        else pure (state, ioStatus)
      let handles ← finishSlots (result = ok ∧ makeHandles) state slots
      act (.storeOperation operation none)
      return (handles, result)

def waitReadBuffers (mode : ForegroundWriteback) (current : Option OperationId) :
    Prog n blockSize (List (Fin n × BufferTag) × Status) :=
  match current with
  | none =>
      return ([], some (invalidArgument "read buffers operation is not in progress"))
  | some operation => finishReadBuffers mode operation true

def destroyOperation (mode : ForegroundWriteback) (current : Option OperationId) :
    Prog n blockSize Unit :=
  match current with
  | none => return ()
  | some operation => do
      let _ ← finishReadBuffers mode operation false
      return ()

end TelePath.Manager
