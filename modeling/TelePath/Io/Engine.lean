import Mathlib.Logic.Function.Basic
import TelePath.Logic.Machine
import TelePath.Types

/-!
Delivery of completions in `io_engine.cc`.

Submitters, waiters and the reaper thread are modelled access by access, down to the
claim flag, the counter and the wake in `IoWaiter::Complete`.  The disk backend is what its
interface promises: `Submit` accepts a prefix or rejects the first request, and `Reap`
hands out accepted requests in any order, each once, with any status; a blocking `Reap`
may also fail.  Requests carry a number that the code does not have, so that two
requests of one waiter can be told apart.  Counting sleepers in `demand_` decides only
when the reaper runs, which any run may choose here.
-/

namespace TelePath.IoEngine

open Logic

abbrev Token := BitVec 64

def kAsyncTokenTag : Token := 1#64

/-- The address of an `IoCompletion`; the lowest bit of an aligned address is clear. -/
abbrev Address := { address : Token // address &&& kAsyncTokenTag = 0#64 }

inductive DiskSubmitMode where
  | wait
  | async
  deriving DecidableEq, Repr

/-- The token that `Submit` passes on: asynchronous requests are tagged. -/
def DiskSubmitMode.token : DiskSubmitMode → Token → Token
  | .wait, token => token
  | .async, token => token ||| kAsyncTokenTag

/-- The `IoCompletion` that `Deliver` finds in a token. -/
def target (token : Token) : Token := token &&& ~~~kAsyncTokenTag

structure Request where
  number : Nat
  token : Token
  deriving DecidableEq, Repr

structure DiskCompletion where
  request : Request
  status : Status
  deriving DecidableEq, Repr

structure IoWaiter where
  pending : BitVec 32 := 0#32
  errorClaimed : Bool := false
  error : Status := ok
  deriving DecidableEq, Repr

/-- Where a thread stands in `IoWaiter::Complete`: at its call, about to store the
error it has claimed, or about to count the request down. -/
inductive Stage where
  | calling
  | storing
  | counting
  deriving DecidableEq, Repr

/-- Where a thread goes on after it has delivered its completions. -/
inductive Place where
  | idle
  | submitting (requests : List Request)
  | waiting (waiter : Token)
  | running
  deriving DecidableEq, Repr

/-- Where a thread stands: in its own code, in `SubmitTagged`, in `Wait`, in `Run` and
`Stop`, in `Shutdown`, or in `Dispatch`. -/
inductive Phase where
  | at (place : Place)
  | offering (requests : List Request)
  | reaping (waiter : Token)
  | checkingStop (waiter : Token)
  | readingStatus (waiter : Token)
  | stopping (error : Error)
  | storingStopped
  | ended
  | shuttingDown
  | joining
  | delivering (stage : Stage) (completion : DiskCompletion) (rest : List DiskCompletion)
      (next : Place)
  /-- The last request of the waiter is counted down. -/
  | waking (waiter : Token) (rest : List DiskCompletion) (next : Place)
  deriving DecidableEq, Repr

def Phase.dispatching : List DiskCompletion → Place → Phase
  | [], next => .at next
  | completion :: rest, next => .delivering .calling completion rest next

def Phase.counted (last : Bool) (waiter : Token) (rest : List DiskCompletion) (next : Place) :
    Phase :=
  if last then .waking waiter rest next else .dispatching rest next

/-- The engine and its threads; `none` is the reaper.  `promised` counts the requests
of a waiter that were announced to it and not submitted yet, and `waited` the waiters
that somebody waits or has waited for.  The four lists record what has happened:
requests passed to `Submit`, calls of `Complete`, requests counted down, and what
`Wait` has returned.  `late` is set by a call of `Complete` after `Wait` on that waiter
has returned, and `wokenLate` by a wake after that. -/
structure Engine (Thread : Type) where
  waiters : Token → IoWaiter := fun _ => {}
  accepted : List Request := []
  backendShutdown : Bool := false
  stopping : Bool := false
  stopped : Bool := false
  stopStatus : Status :=
    some { code := .unavailable, message := "io engine stopped" }
  phases : Option Thread → Phase
  promised : Token → Nat := fun _ => 0
  waited : List Token := []
  passed : List Request := []
  called : List (Request × Status) := []
  completed : List (Request × Status) := []
  returned : List (Token × Status) := []
  late : Bool := false
  wokenLate : Bool := false

/-- What the backend answers. -/
inductive Reply where
  | accepted (count : Nat)
  | rejected (error : Error)
  | reaped (completions : List DiskCompletion)
  | failed (error : Error)
  deriving DecidableEq, Repr

def internalError : Error := { code := .internal, message := "disk backend accepted no request" }

section Steps

variable {Thread : Type} [DecidableEq Thread]

namespace Engine

def setPhase (engine : Engine Thread) (thread : Option Thread) (phase : Phase) : Engine Thread :=
  { engine with phases := Function.update engine.phases thread phase }

def setWaiter (engine : Engine Thread) (address : Token) (waiter : IoWaiter) : Engine Thread :=
  { engine with waiters := Function.update engine.waiters address waiter }

def dispatch (engine : Engine Thread) (thread : Option Thread)
    (completions : List DiskCompletion) (next : Place) : Engine Thread :=
  engine.setPhase thread (.dispatching completions next)

/-- The backend hands out `completions`. -/
def take (engine : Engine Thread) (completions : List DiskCompletion) : Option (Engine Thread) :=
  let requests := completions.map DiskCompletion.request
  if requests.Nodup ∧ ∀ request ∈ requests, request ∈ engine.accepted then
    some { engine with accepted := engine.accepted.filter (· ∉ requests) }
  else none

/-- `Wait` returns. -/
def leave (engine : Engine Thread) (thread : Option Thread) (waiter : Token) (status : Status) :
    Engine Thread :=
  { engine.setPhase thread (.at .idle) with
    returned := engine.returned ++ [(waiter, status)] }

/-- One access of `IoWaiter::Complete`. -/
def deliver (engine : Engine Thread) (thread : Option Thread) (stage : Stage)
    (completion : DiskCompletion) (rest : List DiskCompletion) (next : Place) : Engine Thread :=
  let address := target completion.request.token
  let waiter := engine.waiters address
  match stage with
  | .calling =>
      let engine := { engine with
        called := engine.called ++ [(completion.request, completion.status)]
        late := engine.late || (engine.returned.map Prod.fst).contains address }
      if completion.status = ok then
        engine.setPhase thread (.delivering .counting completion rest next)
      else
        (engine.setWaiter address { waiter with errorClaimed := true }).setPhase thread
          (.delivering (if waiter.errorClaimed then .counting else .storing) completion rest next)
  | .storing =>
      (engine.setWaiter address { waiter with error := completion.status }).setPhase thread
        (.delivering .counting completion rest next)
  | .counting =>
      { engine.setWaiter address { waiter with pending := waiter.pending - 1#32 } with
        completed := engine.completed ++ [(completion.request, completion.status)] }.setPhase
        thread (.counted (waiter.pending = 1#32) address rest next)

/-- `FutexWakeAll(pending_)`. -/
def wake (engine : Engine Thread) (thread : Option Thread) (waiter : Token)
    (rest : List DiskCompletion) (next : Place) : Engine Thread :=
  { engine with wokenLate :=
      engine.wokenLate || (engine.returned.map Prod.fst).contains waiter }.dispatch thread rest next

def submitTagged (engine : Engine Thread) (thread : Option Thread) (requests : List Request) :
    Engine Thread :=
  if requests = [] then engine.setPhase thread (.at .idle)
  else if engine.stopped then
    engine.dispatch thread (requests.map fun request => ⟨request, engine.stopStatus⟩) .idle
  else engine.setPhase thread (.offering requests)

/-- The submitter delivers the first request, and the rest are tried again. -/
def refuse (engine : Engine Thread) (thread : Option Thread) (requests : List Request)
    (error : Error) : Option (Engine Thread) :=
  match requests with
  | [] => none
  | request :: rest => some (engine.dispatch thread [⟨request, some error⟩] (.submitting rest))

/-- The backend's `Submit`. -/
def offer (engine : Engine Thread) (thread : Option Thread) (requests : List Request) :
    Reply → Option (Engine Thread)
  | .accepted count =>
      if count = 0 then engine.refuse thread requests internalError
      else if count ≤ requests.length ∧ engine.backendShutdown = false then
        some ({ engine with accepted := engine.accepted ++ requests.take count }.setPhase thread
          (.at (.submitting (requests.drop count))))
      else none
  | .rejected error => engine.refuse thread requests error
  | _ => none

def reapReady (engine : Engine Thread) (thread : Option Thread) (waiter : Token) :
    Reply → Option (Engine Thread)
  | .reaped completions =>
      if completions = [] then some (engine.setPhase thread (.checkingStop waiter))
      else (engine.take completions).map fun engine =>
        engine.dispatch thread completions (.waiting waiter)
  | .failed _ => some (engine.setPhase thread (.checkingStop waiter))
  | _ => none

def run (engine : Engine Thread) (thread : Option Thread) : Reply → Option (Engine Thread)
  | .reaped completions =>
      (engine.take completions).map fun engine => engine.dispatch thread completions .running
  | .failed error => some (engine.setPhase thread (.stopping error))
  | _ => none

/-- The next access of a thread inside the engine; `reply` is used where it calls the
backend. -/
def advance (engine : Engine Thread) (thread : Option Thread) (reply : Reply) :
    Option (Engine Thread) :=
  match engine.phases thread with
  | .at .idle => none
  | .at (.submitting requests) => some (engine.submitTagged thread requests)
  | .at (.waiting waiter) =>
      some (engine.setPhase thread
        (if (engine.waiters waiter).pending = 0#32 then .readingStatus waiter else .reaping waiter))
  | .at .running => engine.run thread reply
  | .offering requests => engine.offer thread requests reply
  | .reaping waiter => engine.reapReady thread waiter reply
  | .checkingStop waiter =>
      some (if engine.stopped then engine.leave thread waiter engine.stopStatus
        else engine.setPhase thread (.at (.waiting waiter)))
  | .readingStatus waiter => some (engine.leave thread waiter (engine.waiters waiter).error)
  | .stopping error =>
      some ({ engine with
        stopStatus := if engine.stopping then engine.stopStatus else some error }.setPhase thread
          .storingStopped)
  | .storingStopped => some ({ engine with stopped := true }.setPhase thread .ended)
  | .ended => none
  | .shuttingDown =>
      some ({ engine with backendShutdown := true }.setPhase thread .joining)
  | .joining =>
      if engine.phases none = .ended then
        some ({ engine with stopped := true }.setPhase thread (.at .idle))
      else none
  | .delivering stage completion rest next =>
      some (engine.deliver thread stage completion rest next)
  | .waking waiter rest next => some (engine.wake thread waiter rest next)

def requests (engine : Engine Thread) (mode : DiskSubmitMode) (addresses : List Address) :
    List Request :=
  addresses.zipIdx.map fun (address, index) =>
    ⟨engine.passed.length + index, mode.token address⟩

end Engine

inductive Move where
  /-- `IoWaiter(count)` and `IoWaiter::Add(count)`, before anybody waits for it -/
  | add (waiter : Address) (count : BitVec 32)
  | submit (mode : DiskSubmitMode) (addresses : List Address)
  | wait (waiter : Address)
  | shutdown (reason : Error)
  | advance (reply : Reply)
  deriving DecidableEq, Repr

/-- Decided along the list: the addresses are too many to be tried. -/
instance decidablePromised (addresses : List Address) (promised : Token → Nat) :
    Decidable (∀ address ∈ addresses, addresses.count address ≤ promised address) :=
  List.decidableBAll _ addresses

def step (engine : Engine Thread) : Option Thread × Move → Option (Engine Thread)
  | (thread, .add waiter count) =>
      if engine.phases thread = .at .idle ∧ waiter.1 ∉ engine.waited then
        let counted := engine.waiters waiter
        some { engine.setWaiter waiter { counted with pending := counted.pending + count } with
          promised :=
            Function.update engine.promised waiter (engine.promised waiter + count.toNat) }
      else none
  | (thread, .submit mode addresses) =>
      if engine.phases thread = .at .idle ∧
          ∀ address ∈ addresses, addresses.count address ≤ engine.promised address then
        let requests := engine.requests mode addresses
        some ({ engine with
          passed := engine.passed ++ requests
          promised := fun address =>
            engine.promised address - (addresses.map Subtype.val).count address }.setPhase
            thread (.at (.submitting requests)))
      else none
  | (thread, .wait waiter) =>
      if engine.phases thread = .at .idle then
        some ({ engine with waited := waiter.1 :: engine.waited }.setPhase thread
          (.at (.waiting waiter)))
      else none
  | (thread, .shutdown reason) =>
      if engine.phases thread = .at .idle then
        if engine.stopping then some engine
        else some ({ engine with stopping := true, stopStatus := some reason }.setPhase thread
          .shuttingDown)
      else none
  | (thread, .advance reply) => engine.advance thread reply

/-- No waiter has a request; the reaper runs. -/
def initial (Thread : Type) : Engine Thread where
  phases
    | none => .at .running
    | some _ => .at .idle

end Steps

end TelePath.IoEngine
