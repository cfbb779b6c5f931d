import TelePath.Logic.Program
import TelePath.Buffer.Action

/-!
Giving frames back, publishing loaded frames, and the I/O engine.  A thread that
waits for its own request reaps whatever is ready, so it may run the completion
of a load that another thread started.
-/

namespace TelePath.Manager

open FrameControl Logic Program

variable {n blockSize : Nat}

abbrev Prog (n blockSize : Nat) := Program (Action n blockSize) Reply

/-- One atomic step. -/
abbrev act (action : Action n blockSize) : Prog n blockSize (Reply action) := perform action

def releaseFreeFrame (frame : Fin n) : Prog n blockSize Unit := do
  act (.resetCandidate frame)
  act (.pushFree frame)

def abortLoadReservation (frame : Fin n) (tag : BufferTag) (status : Status) :
    Prog n blockSize Status := do
  act (.removeMapping tag frame)
  act (.removeTracked frame)
  act (.storeTag frame {})
  act (.releaseToFree frame)
  releaseFreeFrame frame
  return status

def recordResidentHit (tag : BufferTag) : Prog n blockSize Unit := act (.record (.hit tag))

def recordJoinedMissHit (tag : BufferTag) : Prog n blockSize Unit := act (.record (.hit tag))

def recordReadMiss (tag : BufferTag) : Prog n blockSize Unit := act (.record (.miss tag))

def recordLoadCompletion (tag : BufferTag) (evictedTag : Option BufferTag) :
    Prog n blockSize Unit := do
  act (.record (.diskRead tag))
  match evictedTag with
  | some evicted => act (.record (.eviction evicted))
  | none => return ()

def recordZeroFill (evictedTag : Option BufferTag) : Prog n blockSize Unit :=
  match evictedTag with
  | some evicted => act (.record (.eviction evicted))
  | none => return ()

def publishLoadedFrame (tag : BufferTag) (reservation : FrameReservation n)
    (readFromDisk releasePin : Bool) : Prog n blockSize Unit := do
  act (.resetCandidate reservation.frame)
  act (.recordLoad reservation.frame)
  act (.publishResident reservation.frame releasePin)
  let evictedTag := if reservation.hadEvictedPage then some reservation.evictedTag else none
  if readFromDisk then recordLoadCompletion tag evictedTag else recordZeroFill evictedTag

/-- Ends one entry of an asynchronous load; a prefetch leaves the page unpinned. -/
def finishAsyncLoadEntry (operation : Option OperationId) (status : Status)
    (entry : AsyncLoadEntry n) : Prog n blockSize Unit :=
  match status with
  | some _ => do
      let _ ← abortLoadReservation entry.reservation.frame entry.tag status
      match operation with
      | some id => act (.failSlot id entry.slot)
      | none => return ()
  | none => publishLoadedFrame entry.tag entry.reservation true operation.isNone

def finishAsyncLoad (load : AsyncLoad n) (status : Status) : Prog n blockSize Unit := do
  forEach load.entries (finishAsyncLoadEntry load.operation status)
  match load.operation with
  | some id => act (.completeOperation id status)
  | none => act .finishPrefetch

def deliver (completion : DiskCompletion) : Prog n blockSize Unit :=
  match completion.token with
  | .waiter id => act (.completeWaiter id completion.status)
  | .load id => do
      let load ← act (.takeLoad id)
      finishAsyncLoad load completion.status

/-- `SubmitTagged`: a request that is not accepted is completed here, and the
ones after it are still submitted. -/
def submit (requests : List (DiskRequest n blockSize)) : Prog n blockSize Unit :=
  forEach requests fun request => do
    match ← act (.submitRequest request) with
    | none => return ()
    | some status => deliver ⟨request.token, status⟩

def reapReady : Prog n blockSize Bool := do
  match ← act .reap with
  | none => return false
  | some completion => do
      deliver completion
      return true

/-- `Wait`, for the completion count that `pending` reads. -/
def waitFor (pending : Prog n blockSize Nat) (status : Prog n blockSize Status) :
    Prog n blockSize Status :=
  forever do
    if (← pending) = 0 then return some (← status)
    if ← reapReady then return none
    return ← act .loadStopped

def wait (waiter : WaiterId) : Prog n blockSize Status :=
  waitFor (act (.loadPending waiter)) (act (.waiterStatus waiter))

def submitAndWait (operation : DiskOperation n blockSize) (tag : BufferTag) :
    Prog n blockSize Status := do
  let waiter ← act (.newWaiter 1)
  submit [⟨.waiter waiter, operation, tag⟩]
  wait waiter

end TelePath.Manager
