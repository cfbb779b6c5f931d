import TelePath.System

/-!
Runs of the system and what can be seen of them.  Every step leaves one entry: which
thread took it and what it did to frames, handles, requests and calls.
-/

namespace TelePath

open FrameControl Logic Manager

variable {n blockSize threads : Nat}

/-- What one step did.  Steps that nothing below speaks about are `quiet`. -/
inductive Event (n blockSize : Nat) where
  | quiet
  | popped (frame : Fin n)
  | pushed (frame : Fin n)
  | pinned (frame : Fin n)
  | unpinned (frame : Fin n)
  | reserved (frame : Fin n)
  | published (frame : Fin n) (releasePin : Bool)
  | freed (frame : Fin n)
  /-- A resident page was dropped; `onDisk` is what the backend holds of it. -/
  | discarded (frame : Fin n) (tag : BufferTag) (onDisk : Page blockSize) (wasDirty : Bool)
  /-- The latch of a handle on `tag` was taken; `page` is what the handle sees. -/
  | acquiredShared (frame : Fin n) (tag : BufferTag) (page : Page blockSize)
  | acquiredExclusive (frame : Fin n) (tag : BufferTag) (mode : ReadBufferMode)
      (page : Page blockSize)
  /-- An exclusive handle on `tag` was released and left `page`. -/
  | releasedExclusive (frame : Fin n) (tag : BufferTag) (page : Page blockSize)
  /-- A flusher took a shared latch. -/
  | latched (frame : Fin n)
  /-- A shared latch was released. -/
  | unlatched (frame : Fin n)
  /-- A thread that waits for the frame has set its waiters bit. -/
  | parked (frame : Fin n)
  | dirtied (frame : Fin n) (wasClean : Bool)
  | wrote (frame : Fin n) (tag : BufferTag)
  /-- `MarkDirty(lsn)` on a handle on `tag` has recorded its LSN. -/
  | changed (frame : Fin n) (tag : BufferTag) (lsn : Lsn)
  | clearedRecLsn (frame : Fin n)
  | queued (frame : Fin n)
  | snapshot (frame : Fin n) (tag : BufferTag) (page : Page blockSize)
  /-- The pre-write hook allowed a write. -/
  | allowed (tag : BufferTag) (page : Page blockSize)
  | begun (frame : Fin n)
  /-- A writeback that was not submitted was withdrawn. -/
  | withdrawn (frame : Fin n)
  | ended (frame : Fin n) (succeeded clearedDirty : Bool)
  /-- The count of dirty pages was changed. -/
  | counted (amount : BitVec 64)
  /-- The backend accepted a request, and with it the frames of its load. -/
  | submitted (request : DiskRequest n blockSize) (frames : List (Fin n))
  | completed (request : DiskRequest n blockSize) (status : Status)
  /-- A completion was reaped, and with it the frames of its load. -/
  | reaped (frames : List (Fin n))
  | stopped
  | invoked (call : Call n blockSize)
  | returned (call : Call n blockSize) (outcome : Outcome n)

/-- The frames that a request takes along. -/
def Shared.loadFrames (shared : Shared n blockSize) : IoCompletion → List (Fin n)
  | .waiter _ => []
  | .load id => (shared.loads id).entries.map (·.reservation.frame)

/-- The event of an action performed in `shared` with the given reply. -/
def observe (shared : Shared n blockSize) :
    (action : Action n blockSize) → Reply action → Event n blockSize
  | .popFree, reply => reply.elim .quiet .popped
  | .pushFree frame, _ => .pushed frame
  | .tryPinResident frame, pinned => if pinned then .pinned frame else .quiet
  | .unpin frame, _ => .unpinned frame
  | .tryReserve frame _, reply => if reply.1 = .reserved then .reserved frame else .quiet
  | .publishResident frame releasePin, _ => .published frame releasePin
  | .releaseToFree frame, _ => .freed frame
  | .tryDiscardPinned frame, reply =>
      let tag := (shared.descriptors frame).tag
      if reply.1 = .discarded then
        .discarded frame tag (shared.diskPage tag) (isDirty (reply.2.getD 0#32))
      else .quiet
  | .tryAcquireShared frame, acquired => if acquired then .latched frame else .quiet
  | .acquireShared frame handle, _ =>
      handle.elim (.latched frame) fun tag => .acquiredShared frame tag (shared.frameData frame)
  | .releaseShared frame, _ => .unlatched frame
  | .acquireExclusive frame tag mode, _ =>
      .acquiredExclusive frame tag mode (shared.frameData frame)
  | .releaseExclusive frame tag, _ => .releasedExclusive frame tag (shared.frameData frame)
  | .markDirty frame, becameDirty => .dirtied frame (becameDirty.getD false)
  | .addDirtyPages amount, _ => .counted amount
  | .writeFrame frame _, _ => .wrote frame (shared.descriptors frame).tag
  | .lowerRecLsn frame lsn handle, _ => handle.elim .quiet fun tag => .changed frame tag lsn
  | .storeRecLsn frame _, _ => .clearedRecLsn frame
  | .tryQueueWriteback frame _, outcome => if outcome = .queued then .queued frame else .quiet
  | .copyFrame frame, page => .snapshot frame (shared.descriptors frame).tag page
  | .preWriteHook tag page, status => if status = ok then .allowed tag page else .quiet
  | .beginWriteback frame, _ => .begun frame
  | .cancelQueuedWriteback frame, _ => .withdrawn frame
  | .completeWriteback frame succeeded, completion =>
      .ended frame succeeded completion.clearedDirty
  | .submitRequest request, reply =>
      if reply = none then .submitted request (shared.loadFrames request.token) else .quiet
  | .reap, reply => reply.elim .quiet fun completion =>
      .reaped (shared.loadFrames completion.token)
  | _, _ => .quiet

/-- One entry of a trace; a step of the backend has no thread. -/
structure Entry (n blockSize threads : Nat) where
  thread : Option (Fin threads)
  event : Event n blockSize

/-- The entries of a run, the latest first. -/
abbrev Trace (n blockSize threads : Nat) := List (Entry n blockSize threads)

/-- One step of a program: an action, or entering a loop once more. -/
inductive ProgramStep {α : Type} : Shared n blockSize → Prog n blockSize α →
    Event n blockSize → Shared n blockSize → Prog n blockSize α → Prop where
  | act {shared shared' : Shared n blockSize} {choice : Choice n} {action : Action n blockSize}
      {next : Reply action → Prog n blockSize α} {reply : Reply action}
      (enabled : exec shared choice action = some (reply, shared')) :
      ProgramStep shared (.request action next) (observe shared action reply) shared' (next reply)
  | enter {shared : Shared n blockSize} {σ β : Type}
      {body : σ → Prog n blockSize (σ ⊕ β)} {state : σ} {next : β → Prog n blockSize α} :
      ProgramStep shared (.loop body state next) .quiet shared
        (Program.unfoldLoop body state next)

/-- The frame whose control word an action may have to wait for. -/
def Action.waitsOn : Action n blockSize → Option (Fin n)
  | .waitWhile frame _ | .acquireShared frame _ | .acquireExclusive frame _ _ => some frame
  | _ => none

/-- The action a thread is about to perform. -/
def Activity.next? : Activity n blockSize → Option (Action n blockSize)
  | .idle => none
  | .calling _ rest => rest.nextAction
  | .background rest => rest.nextAction

inductive Step (options : Options) : System n blockSize threads →
    Entry n blockSize threads → System n blockSize threads → Prop where
  | invoke {system : System n blockSize threads} {id : Fin threads} {call : Call n blockSize}
      {program : Prog n blockSize (Outcome n)}
      (idle : (system.thread id).activity = .idle)
      (valid : callProgram options (system.thread id).client call = some program) :
      Step options system ⟨id, .invoked call⟩
        (system.setThread id { system.thread id with activity := .calling call program })
  | call {system : System n blockSize threads} {id : Fin threads} {call : Call n blockSize}
      {rest rest' : Prog n blockSize (Outcome n)} {event : Event n blockSize}
      {shared' : Shared n blockSize}
      (calling : (system.thread id).activity = .calling call rest)
      (step : ProgramStep system.shared rest event shared' rest') :
      Step options system ⟨id, event⟩
        ({ system with shared := shared' }.setThread id
          { system.thread id with activity := .calling call rest' })
  | finish {system : System n blockSize threads} {id : Fin threads} {call : Call n blockSize}
      {outcome : Outcome n}
      (calling : (system.thread id).activity = .calling call (.done outcome)) :
      Step options system ⟨id, .returned call outcome⟩
        (system.setThread id
          { client := (system.thread id).client.finish call outcome, activity := .idle })
  | background {system : System n blockSize threads} {id : Fin threads}
      {rest rest' : Prog n blockSize Unit} {event : Event n blockSize}
      {shared' : Shared n blockSize}
      (running : (system.thread id).activity = .background rest)
      (step : ProgramStep system.shared rest event shared' rest') :
      Step options system ⟨id, event⟩
        ({ system with shared := shared' }.setThread id
          { system.thread id with activity := .background rest' })
  -- the CAS of `WaitWhile`; what the word said when it was tested is not looked at again
  | park {system : System n blockSize threads} {id : Fin threads}
      {action : Action n blockSize} {frame : Fin n}
      (next : (system.thread id).activity.next? = some action)
      (waits : action.waitsOn = some frame) :
      Step options system ⟨id, .parked frame⟩
        { system with
          shared := system.shared.setWord frame (system.shared.word frame ||| kWaiters) }
  | complete {system : System n blockSize threads} {index : Nat} {status : Status}
      {left : Fin n → Page blockSize} {request : DiskRequest n blockSize}
      (inFlight : system.shared.inFlight[index]? = some request) :
      Step options system ⟨none, .completed request status⟩
        { system with shared := system.shared.complete index request status left }
  | stopEngine {system : System n blockSize threads} (error : Error) :
      Step options system ⟨none, .stopped⟩
        { system with shared := system.shared.stopEngine error }

/-- A pool that was just created: clients own nothing, and each background thread
is at the start of its loop. -/
structure Initial (system : System n blockSize threads) : Prop where
  shared : ∃ files segment cleaner strategies,
    system.shared = .initial files segment cleaner strategies
  client : ∀ id, (system.thread id).client = {}
  activity : ∀ id, (system.thread id).activity = .idle ∨
    (∃ batchSize burstLimit,
      (system.thread id).activity = .background (flushWorker batchSize burstLimit)) ∨
    (∃ high low, (system.thread id).activity = .background (Manager.cleaner high low)) ∨
    (system.thread id).activity = .background reaper

/-- The system runs from `start` and leaves the trace. -/
inductive Run (options : Options) (start : System n blockSize threads) :
    Trace n blockSize threads → System n blockSize threads → Prop where
  | start : Run options start [] start
  | step {trace : Trace n blockSize threads} {system system' : System n blockSize threads}
      {entry : Entry n blockSize threads} (run : Run options start trace system)
      (next : Step options system entry system') : Run options start (entry :: trace) system'

/-- A run whose steps all meet the condition. -/
inductive RunWhere (condition : System n blockSize threads → System n blockSize threads → Bool)
    (options : Options) (start : System n blockSize threads) :
    Trace n blockSize threads → System n blockSize threads → Prop where
  | start : RunWhere condition options start [] start
  | step {trace : Trace n blockSize threads} {system system' : System n blockSize threads}
      {entry : Entry n blockSize threads} (run : RunWhere condition options start trace system)
      (next : Step options system entry system') (meets : condition system system' = true) :
      RunWhere condition options start (entry :: trace) system'

end TelePath
