import Mathlib.Data.Set.Card
import Mathlib.Logic.Function.Basic
import TelePath.Logic.Machine
import TelePath.Types

/-!
Attaching to and removing a shared-memory segment, after `shared_segment.cc`.

Processes open and leave segments under one name.  Each system call on the name, each
access of the counter `attached` and each store of `MarkReady` is one step.  A step may
be told that its system call fails, that its wait has timed out, that a weak CAS fails
spuriously, or that no process slot is free.  A user here is one `SharedSegment`; a
process that opens the segment twice is two users.  Segments are numbered in the order
of their creation, and remember who created them, who marked them ready and how often
their name was removed.
-/

namespace TelePath.SharedSegment

open Logic

abbrev Size := BitVec 64

def kMagic : BitVec 64 := 0x3147455354504c54#64

def kLayoutVersion : BitVec 32 := 1#32

def kRemoving : BitVec 32 := BitVec.allOnes 32

def kReplacerKindBytes : Nat := 96

def kPageSize : Size := 4096#64

def kCacheLineSize : Size := 64#64

def sizeofHeader : Size := 9408#64

/-- What every attached process must agree on. -/
structure Shape where
  blockSize : Size := 0
  poolSize : Size := 0
  stripeCount : Size := 0
  replacerStateBytes : Size := 0
  replacerKind : List (BitVec 8) := []
  kernelBytes : Size := 0
  deriving DecidableEq, Repr

def alignUp (value alignment : Size) : Size := (value + alignment - 1) &&& ~~~(alignment - 1)

def replacerOffset : Size := alignUp sizeofHeader kCacheLineSize

def kernelOffset (shape : Shape) : Size :=
  alignUp (replacerOffset + shape.replacerStateBytes) kPageSize

def Shape.total (shape : Shape) : Size := kernelOffset shape + shape.kernelBytes

def storedKind (kind : List (BitVec 8)) : List (BitVec 8) :=
  let copied := (kind.takeWhile (· ≠ 0#8)).take (kReplacerKindBytes - 1)
  copied ++ List.replicate (kReplacerKindBytes - copied.length) 0#8

/-- The fields of `Header` that the protocol uses, all zero in a new segment. -/
structure Header where
  magic : BitVec 64 := 0
  layoutVersion : BitVec 32 := 0
  ready : Bool := false
  segmentBytes : Size := 0
  blockSize : Size := 0
  poolSize : Size := 0
  stripeCount : Size := 0
  replacerStateBytes : Size := 0
  kernelBytes : Size := 0
  replacerKind : List (BitVec 8) := []
  attached : BitVec 32 := 0
  deriving DecidableEq, Repr

/-- What the creator makes of the header. -/
def Header.create (shape : Shape) : Header where
  magic := kMagic
  layoutVersion := kLayoutVersion
  segmentBytes := shape.total
  blockSize := shape.blockSize
  poolSize := shape.poolSize
  stripeCount := shape.stripeCount
  replacerStateBytes := shape.replacerStateBytes
  kernelBytes := shape.kernelBytes
  replacerKind := storedKind shape.replacerKind

def Header.shape (header : Header) : Shape where
  blockSize := header.blockSize
  poolSize := header.poolSize
  stripeCount := header.stripeCount
  replacerStateBytes := header.replacerStateBytes
  replacerKind := header.replacerKind.takeWhile (· ≠ 0#8)
  kernelBytes := header.kernelBytes

def Header.sameShape (header : Header) (shape : Shape) (mappedBytes : Size) : Bool :=
  header.segmentBytes = shape.total ∧ header.segmentBytes = mappedBytes ∧
    header.blockSize = shape.blockSize ∧ header.poolSize = shape.poolSize ∧
    header.stripeCount = shape.stripeCount ∧
    header.replacerStateBytes = shape.replacerStateBytes ∧
    header.kernelBytes = shape.kernelBytes ∧ header.replacerKind = storedKind shape.replacerKind

inductive SharedMemoryMode where
  | createOrAttach
  | create
  | attach
  deriving DecidableEq, Repr

/-- The options and the shape that `Open` is called with. -/
structure Request where
  mode : SharedMemoryMode := .createOrAttach
  removeWhenUnused : Bool := true
  shape : Shape := {}
  deriving DecidableEq, Repr

def error (code : ErrorCode) (message : String) (systemError : Int := 0) : Error :=
  { code, message, systemError }

/-- What follows the destructor: `Open` returns an error, `Open` tries again, or the
owner has destroyed its segment. -/
inductive After where
  | failed (error : Error)
  | retry
  | destroyed
  deriving DecidableEq, Repr

/-- Where a process stands in `OpenOnce`, outside of it, or in the destructor. -/
inductive Phase where
  | outside
  | creating
  | opening
  | sizing (segment : Nat)
  | waitingSize (segment : Nat)
  | mapping (segment : Nat) (created : Bool) (bytes : Size)
  | constructing (segment : Nat)
  | waitingReady (segment : Nat) (bytes : Size)
  | comparing (segment : Nat) (bytes : Size)
  | loading (segment : Nat) (created : Bool)
  | attaching (segment : Nat) (created : Bool) (observed : BitVec 32)
  | claiming (segment : Nat) (created : Bool)
  | attached (segment : Nat) (created : Bool)
  | readingState (segment : Nat) (created counted : Bool) (after : After)
  | detaching (segment : Nat) (remove : Bool) (after : After)
  | marking (segment : Nat) (after : After)
  | unlinking (segment : Nat) (after : After)
  | retrying
  deriving DecidableEq, Repr

/-- Where `OpenOnce` starts. -/
def Request.entry (request : Request) : Phase :=
  if request.mode = .attach then .opening else .creating

structure Segment (Process : Type) where
  size : Size := 0
  header : Header := {}
  creator : Option Process := none
  markedBy : Option Process := none
  unlinks : Nat := 0
  deriving DecidableEq, Repr

/-- What `Open` has returned: a segment and whether it was created, or an error. -/
abbrev Outcome := Except Error (Nat × Bool)

structure System (Process : Type) where
  name : Option Nat := none
  segments : Nat → Segment Process := fun _ => {}
  issued : Nat := 0
  phases : Process → Phase := fun _ => .outside
  requests : Process → Request := fun _ => {}
  returned : List (Process × Request × Outcome) := []

namespace System

variable {Process : Type} [DecidableEq Process]

def header (system : System Process) (segment : Nat) : Header := (system.segments segment).header

def setPhase (system : System Process) (process : Process) (phase : Phase) : System Process :=
  { system with phases := Function.update system.phases process phase }

def setSegment (system : System Process) (segment : Nat) (value : Segment Process) :
    System Process :=
  { system with segments := Function.update system.segments segment value }

def setHeader (system : System Process) (segment : Nat) (header : Header) : System Process :=
  system.setSegment segment { system.segments segment with header }

def setAttached (system : System Process) (segment : Nat) (attached : BitVec 32) :
    System Process :=
  system.setHeader segment { system.header segment with attached }

/-- `Open` returns. -/
def finish (system : System Process) (process : Process) (outcome : Outcome)
    (phase : Phase := .outside) : System Process :=
  { system with
    returned := system.returned ++ [(process, system.requests process, outcome)] }.setPhase
      process phase

/-- `OpenOnce` starts. -/
def start (system : System Process) (process : Process) (request : Request) : System Process :=
  { system with requests := Function.update system.requests process request }.setPhase process
    request.entry

/-- What follows the destructor. -/
def leave (system : System Process) (process : Process) : After → System Process
  | .failed error => system.finish process (.error error)
  | .retry => system.setPhase process .retrying
  | .destroyed => system.setPhase process .outside

/-- `shm_unlink`. -/
def unlink (system : System Process) : System Process :=
  match system.name with
  | none => system
  | some segment =>
      { system.setSegment segment
          { system.segments segment with unlinks := (system.segments segment).unlinks + 1 } with
        name := none }

/-- `shm_open` makes a new segment. -/
def create (system : System Process) (process : Process) : System Process :=
  { system.setSegment system.issued { creator := some process } with
    name := some system.issued
    issued := system.issued + 1 }.setPhase process (.sizing system.issued)

/-- The counter has been loaded. -/
def observe (system : System Process) (process : Process) (segment : Nat) (created : Bool) :
    System Process :=
  let observed := (system.header segment).attached
  if observed = kRemoving then system.setPhase process (.readingState segment created false .retry)
  else system.setPhase process (.attaching segment created observed)

/-- The next step of a process; `failure` holds the error number if it fails. -/
def advance (system : System Process) (process : Process) (failure : Option Int) :
    Option (System Process) :=
  let request := system.requests process
  match system.phases process, failure with
  | .outside, _ | .attached .., _ => none
  | .creating, some errno =>
      some (system.finish process (.error (error .ioError "shm_open failed" errno)))
  | .creating, none =>
      match system.name with
      | none => some (system.create process)
      | some _ =>
          if request.mode = .create then
            some (system.finish process
              (.error (error .invalidArgument "shared memory segment already exists")))
          else some (system.setPhase process .opening)
  | .opening, some errno =>
      some (system.finish process (.error (error .ioError "shm_open failed" errno)))
  | .opening, none =>
      match system.name with
      | none =>
          some (system.finish process
            (.error (error .notFound "shared memory segment does not exist")))
      | some segment => some (system.setPhase process (.waitingSize segment))
  | .sizing segment, some errno =>
      some (system.setPhase process (.unlinking segment
        (.failed (error .ioError "failed to size shared memory segment" errno))))
  | .sizing segment, none =>
      some ((system.setSegment segment
        { system.segments segment with size := request.shape.total }).setPhase process
          (.mapping segment true request.shape.total))
  | .waitingSize _, some _ =>
      some (system.finish process
        (.error (error .unavailable "shared memory segment was never initialized")))
  | .waitingSize segment, none =>
      if (system.segments segment).size < sizeofHeader then none
      else some (system.setPhase process
        (.mapping segment false (system.segments segment).size))
  | .mapping segment created _, some errno =>
      let failed := error .ioError "failed to map shared memory segment" errno
      some (if created then system.setPhase process (.unlinking segment (.failed failed))
        else system.finish process (.error failed))
  | .mapping segment created bytes, none =>
      some (system.setPhase process
        (if created then .constructing segment else .waitingReady segment bytes))
  | .constructing segment, _ =>
      some ((system.setHeader segment (.create request.shape)).setPhase process
        (.loading segment true))
  | .waitingReady segment bytes, failure =>
      if (system.header segment).ready then
        some (system.setPhase process (.comparing segment bytes))
      else if failure.isSome then
        some (system.setPhase process (.readingState segment false false
          (.failed (error .unavailable "shared memory segment was never initialized"))))
      else none
  | .comparing segment bytes, _ =>
      let header := system.header segment
      let refused (message : String) : Phase :=
        .readingState segment false false (.failed (error .invalidArgument message))
      some (system.setPhase process
        (if header.magic ≠ kMagic ∨ header.layoutVersion ≠ kLayoutVersion then
          refused "shared memory segment has an unknown layout"
        else if header.sameShape request.shape bytes then .loading segment false
        else refused "shared memory segment was created with a different configuration"))
  | .loading segment created, _ => some (system.observe process segment created)
  | .attaching segment created observed, failure =>
      if (system.header segment).attached = observed ∧ failure = none then
        some ((system.setAttached segment (observed + 1)).setPhase process
          (.claiming segment created))
      else some (system.observe process segment created)
  | .claiming segment created, some _ =>
      some (system.setPhase process (.readingState segment created true
        (.failed (error .resourceExhausted "shared memory segment has no free process slot"))))
  | .claiming segment created, none =>
      some (system.finish process (.ok (segment, created)) (.attached segment created))
  | .readingState segment created counted after, _ =>
      let neverReady := created && !(system.header segment).ready
      some (if counted then system.setPhase process (.detaching segment neverReady after)
        else if neverReady then system.setPhase process (.unlinking segment after)
        else system.leave process after)
  | .detaching segment remove after, _ =>
      let before := (system.header segment).attached
      let next := system.setAttached segment (before - 1)
      some (if before = 1 ∧ request.removeWhenUnused then
          next.setPhase process (.marking segment after)
        else if remove then next.setPhase process (.unlinking segment after)
        else next.leave process after)
  | .marking segment after, _ =>
      some (if (system.header segment).attached = 0 then
          (system.setAttached segment kRemoving).setPhase process (.unlinking segment after)
        else system.leave process after)
  | .unlinking _ after, _ => some (system.unlink.leave process after)
  | .retrying, some _ =>
      some (system.finish process
        (.error (error .unavailable "shared memory segment is stuck being removed")))
  | .retrying, none => some (system.start process request)

end System

inductive Move where
  | open (request : Request)
  | markReady
  | destroy
  | advance (failure : Option Int)
  deriving DecidableEq, Repr

section Steps

variable {Process : Type} [DecidableEq Process]

def step (system : System Process) : Process × Move → Option (System Process)
  | (process, .open request) =>
      if system.phases process = .outside then some (system.start process request) else none
  | (process, .markReady) =>
      match system.phases process with
      | .attached segment true =>
          some (system.setSegment segment { system.segments segment with
            header := { system.header segment with ready := true }
            markedBy := some process })
      | _ => none
  | (process, .destroy) =>
      match system.phases process with
      | .attached segment created =>
          some (system.setPhase process (.readingState segment created true .destroyed))
      | _ => none
  | (process, .advance failure) => system.advance process failure

end Steps

end TelePath.SharedSegment
