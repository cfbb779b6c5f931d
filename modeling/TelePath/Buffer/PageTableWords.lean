import Mathlib.Data.Fintype.Card
import Mathlib.Data.List.Find
import Mathlib.Data.List.Nodup
import Mathlib.Logic.Function.Basic
import Mathlib.Tactic.Common
import TelePath.Logic.Machine
import TelePath.Logic.Program
import TelePath.Types

/-!
The page table of `page_table.cc`, one load and one store at a time.

A thread runs a call as a program over the words of the table.  An access to an index
outside of the arrays has no result.  Beside the words, the state remembers which thread
holds the lock of a stripe, how often its sequence was incremented, which thread has
passed a frame to a call that still runs, how often the sequence had been incremented when
a lookup began its pass, and for every lookup that runs what an atomic walk would have
answered at each instant since its call.
-/

namespace TelePath

def bitCeil (size : Nat) : Nat :=
  2 ^ ((List.range 64).find? fun i => size ≤ 2 ^ i).getD 64

def mixTag (tag : BufferTag) : BitVec 64 :=
  let file := tag.fileId.setWidth 64
  let value := tag.blockId ^^^ (file <<< 40) ^^^ (file >>> 24)
  let value := value ^^^ (value >>> 30)
  let value := value * 0xbf58476d1ce4e5b9#64
  let value := value ^^^ (value >>> 27)
  let value := value * 0x94d049bb133111eb#64
  value ^^^ (value >>> 31)

def bucketFor (frameCapacity : Nat) (tag : BufferTag) : Nat :=
  (mixTag tag).toNat &&& (bitCeil (max frameCapacity 1) - 1)

namespace PageTableWords

open Logic Program

abbrev FrameId := BitVec 32

def kNone : BitVec 32 := BitVec.allOnes 32

/-- The sizes that a table is made with. -/
structure Geometry where
  frameCapacity : Nat
  stripeCount : Nat
  deriving DecidableEq, Repr

namespace Geometry

def bucketCount (table : Geometry) : Nat := bitCeil (max table.frameCapacity 1)

def stripes (table : Geometry) : Nat := max table.stripeCount 1

def bucketFor (table : Geometry) (tag : BufferTag) : Nat :=
  TelePath.bucketFor table.frameCapacity tag

def stripeFor (table : Geometry) (bucket : Nat) : Nat := bucket % table.stripes

end Geometry

structure Memory where
  heads : Nat → FrameId := fun _ => kNone
  next : FrameId → FrameId := fun _ => kNone
  bucketOf : FrameId → BitVec 32 := fun _ => kNone
  keyFileId : FrameId → FileId := fun _ => 0
  keyBlockId : FrameId → BlockId := fun _ => 0
  lock : Nat → BitVec 32 := fun _ => 0
  sequence : Nat → BitVec 32 := fun _ => 0

def Memory.mapsTo (memory : Memory) (frame : FrameId) (tag : BufferTag) : Bool :=
  memory.keyFileId frame = tag.fileId ∧ memory.keyBlockId frame = tag.blockId

def Memory.walk (memory : Memory) (tag : BufferTag) : Nat → FrameId → Option FrameId
  | 0, _ => none
  | steps + 1, frame =>
      if frame = kNone then none
      else if memory.mapsTo frame tag then some frame
      else memory.walk tag steps (memory.next frame)

def Memory.firstMatch (table : Geometry) (memory : Memory) (tag : BufferTag) : Option FrameId :=
  memory.walk tag table.frameCapacity (memory.heads (table.bucketFor tag))

/-- One load or store; `live` is a call of the function that `ReplaceUnlessLive` gets. -/
inductive Access where
  | loadHead (bucket : Nat)
  | storeHead (bucket : Nat) (frame : FrameId)
  | loadNext (frame : FrameId)
  | storeNext (frame value : FrameId)
  | loadBucketOf (frame : FrameId)
  | storeBucketOf (frame : FrameId) (bucket : BitVec 32)
  | loadKeyFileId (frame : FrameId)
  | storeKeyFileId (frame : FrameId) (fileId : FileId)
  | loadKeyBlockId (frame : FrameId)
  | storeKeyBlockId (frame : FrameId) (blockId : BlockId)
  | exchangeLock (stripe : Nat)
  | loadLock (stripe : Nat)
  | clearLock (stripe : Nat)
  | enterSequence (stripe : Nat)
  | loadSequence (stripe : Nat)
  | storeSequence (stripe : Nat) (value : BitVec 32)
  | live (frame : FrameId)
  deriving DecidableEq, Repr

abbrev Access.Reply : Access → Type
  | .loadHead _ | .loadNext _ => FrameId
  | .loadBucketOf _ | .exchangeLock _ | .loadLock _ => BitVec 32
  | .enterSequence _ | .loadSequence _ => BitVec 32
  | .loadKeyFileId _ => FileId
  | .loadKeyBlockId _ => BlockId
  | .live _ => Bool
  | .storeHead .. | .storeNext .. | .storeBucketOf .. | .storeKeyFileId .. => Unit
  | .storeKeyBlockId .. | .clearLock _ | .storeSequence .. => Unit

/-- The access stays inside of the arrays. -/
def Access.InRange (table : Geometry) : Access → Prop
  | .loadHead bucket | .storeHead bucket _ => bucket < table.bucketCount
  | .loadNext frame | .storeNext frame _ | .loadBucketOf frame => frame.toNat < table.frameCapacity
  | .storeBucketOf frame _ | .loadKeyFileId frame => frame.toNat < table.frameCapacity
  | .storeKeyFileId frame _ | .loadKeyBlockId frame => frame.toNat < table.frameCapacity
  | .storeKeyBlockId frame _ | .live frame => frame.toNat < table.frameCapacity
  | .exchangeLock stripe | .loadLock stripe | .clearLock stripe => stripe < table.stripes
  | .enterSequence stripe | .loadSequence stripe => stripe < table.stripes
  | .storeSequence stripe _ => stripe < table.stripes

instance (table : Geometry) (access : Access) : Decidable (access.InRange table) := by
  cases access <;> exact inferInstanceAs (Decidable (_ < _))

/-- What the access does to the words; `choice` is the answer of `live`. -/
def Memory.perform (memory : Memory) (choice : Bool) :
    (access : Access) → access.Reply × Memory
  | .loadHead bucket => (memory.heads bucket, memory)
  | .storeHead bucket frame =>
      ((), { memory with heads := Function.update memory.heads bucket frame })
  | .loadNext frame => (memory.next frame, memory)
  | .storeNext frame value =>
      ((), { memory with next := Function.update memory.next frame value })
  | .loadBucketOf frame => (memory.bucketOf frame, memory)
  | .storeBucketOf frame bucket =>
      ((), { memory with bucketOf := Function.update memory.bucketOf frame bucket })
  | .loadKeyFileId frame => (memory.keyFileId frame, memory)
  | .storeKeyFileId frame fileId =>
      ((), { memory with keyFileId := Function.update memory.keyFileId frame fileId })
  | .loadKeyBlockId frame => (memory.keyBlockId frame, memory)
  | .storeKeyBlockId frame blockId =>
      ((), { memory with keyBlockId := Function.update memory.keyBlockId frame blockId })
  | .exchangeLock stripe =>
      (memory.lock stripe, { memory with lock := Function.update memory.lock stripe 1 })
  | .loadLock stripe => (memory.lock stripe, memory)
  | .clearLock stripe => ((), { memory with lock := Function.update memory.lock stripe 0 })
  | .enterSequence stripe => (memory.sequence stripe, memory)
  | .loadSequence stripe => (memory.sequence stripe, memory)
  | .storeSequence stripe value =>
      ((), { memory with sequence := Function.update memory.sequence stripe value })
  | .live _ => (choice, memory)

/-! ### The calls -/

abbrev Prog (α : Type) := Program Access Access.Reply α

def access (access : Access) : Prog access.Reply := perform access

def lockStripeWord (stripe : Nat) : Prog Unit :=
  forever do
    let word ← access (.exchangeLock stripe)
    if word = 0 then return some ()
    forever (do
      let word ← access (.loadLock stripe)
      if word = 0 then return some () else return none)
    return none

/-- One round of the constructor of `StripeWriter`. -/
def enterStripe (stripe : Nat) : Prog Unit := do
  lockStripeWord stripe
  let sequence ← access (.loadSequence stripe)
  access (.storeSequence stripe (sequence + 1))

/-- One round of the destructor of `StripeWriter`. -/
def leaveStripe (stripe : Nat) : Prog Unit := do
  let sequence ← access (.loadSequence stripe)
  access (.storeSequence stripe (sequence + 1))
  access (.clearLock stripe)

/-- The stripes that a `StripeWriter` locks, in the order in which it locks them. -/
def stripeOrder (first : Nat) (second : Option Nat) : List Nat :=
  match second with
  | none => [first]
  | some second =>
      if second = first then [first]
      else if second < first then [second, first] else [first, second]

/-- A block of code with a `StripeWriter` in scope. -/
def withStripes {α : Type} (stripes : List Nat) (body : Prog α) : Prog α := do
  forEach stripes enterStripe
  let result ← body
  forEach stripes.reverse leaveStripe
  return result

def mapsTo (frame : FrameId) (tag : BufferTag) : Prog Bool := do
  let fileId ← access (.loadKeyFileId frame)
  if fileId = tag.fileId then
    let blockId ← access (.loadKeyBlockId frame)
    return decide (blockId = tag.blockId)
  else return false

section Calls

variable (table : Geometry)

/-- The walk of a lookup, with the number of steps that are left. -/
def walkChain (tag : BufferTag) : Nat → FrameId → Prog (Option FrameId)
  | 0, _ => return none
  | steps + 1, frame =>
      if frame = kNone then return none
      else do
        if ← mapsTo frame tag then return some frame
        let frame ← access (.loadNext frame)
        walkChain tag steps frame

def lookupPass (tag : BufferTag) : Prog (Option (Option FrameId)) := do
  let bucket := table.bucketFor tag
  let before ← access (.enterSequence (table.stripeFor bucket))
  if before.toNat % 2 = 1 then return none
  let frame ← access (.loadHead bucket)
  let found ← walkChain tag table.frameCapacity frame
  let sequence ← access (.loadSequence (table.stripeFor bucket))
  if sequence = before then return some found else return none

def lookupFrameId (tag : BufferTag) : Prog (Option FrameId) :=
  forever (lookupPass table tag)

def link (bucket : Nat) (tag : BufferTag) (frame : FrameId) : Prog Unit := do
  access (.storeKeyFileId frame tag.fileId)
  access (.storeKeyBlockId frame tag.blockId)
  let head ← access (.loadHead bucket)
  access (.storeNext frame head)
  access (.storeBucketOf frame (BitVec.ofNat 32 bucket))
  access (.storeHead bucket frame)

/-- The loop of `Unlink` behind the head of the chain. -/
def unlinkAfter (frame after : FrameId) (current : FrameId) : Prog Unit :=
  repeatUntil (fun current =>
    if current = kNone then return .inr ()
    else do
      let next ← access (.loadNext current)
      if next = frame then
        access (.storeNext current after)
        return .inr ()
      else return .inl next) current

def unlink (frame : FrameId) : Prog Unit := do
  let bucket ← access (.loadBucketOf frame)
  let after ← access (.loadNext frame)
  let current ← access (.loadHead bucket.toNat)
  if current = frame then access (.storeHead bucket.toNat after)
  else unlinkAfter frame after current
  access (.storeNext frame kNone)
  access (.storeBucketOf frame kNone)

def remove (tag : BufferTag) (frame : FrameId) : Prog Unit := do
  let bucket ← access (.loadBucketOf frame)
  if bucket = kNone then return ()
  withStripes (stripeOrder (table.stripeFor bucket.toNat) none) do
    if ← mapsTo frame tag then unlink frame

def replaceStripes (newBucket : Nat) (oldBucket : BitVec 32) : List Nat :=
  stripeOrder (table.stripeFor newBucket)
    (if oldBucket = kNone then none else some (table.stripeFor oldBucket.toNat))

def linkIfUnlinked (bucket : Nat) (tag : BufferTag) (frame : FrameId) : Prog Unit := do
  let linkedIn ← access (.loadBucketOf frame)
  if linkedIn = kNone then link bucket tag frame

def replace (oldTag newTag : BufferTag) (frame : FrameId) : Prog Unit := do
  let oldBucket ← access (.loadBucketOf frame)
  let newBucket := table.bucketFor newTag
  withStripes (replaceStripes table newBucket oldBucket) do
    if oldBucket ≠ kNone then
      if ← mapsTo frame oldTag then unlink frame
      else if !(← mapsTo frame newTag) then unlink frame
    linkIfUnlinked newBucket newTag frame

def install (tag : BufferTag) (frame : FrameId) : Prog Unit := replace table tag tag frame

/-- The search of `ReplaceUnlessLive`, with the number of steps that are left. -/
def findLive (newTag : BufferTag) (frame : FrameId) : Nat → FrameId → Prog (Option FrameId)
  | 0, _ => return none
  | steps + 1, current =>
      if current = kNone then return none
      else do
        if current ≠ frame then
          if ← mapsTo current newTag then
            if ← access (.live current) then return some current
        let current ← access (.loadNext current)
        findLive newTag frame steps current

def replaceUnlessLive (oldTag : Option BufferTag) (newTag : BufferTag) (frame : FrameId) :
    Prog (Option FrameId) := do
  let oldBucket ← access (.loadBucketOf frame)
  let newBucket := table.bucketFor newTag
  withStripes (replaceStripes table newBucket oldBucket) do
    let head ← access (.loadHead newBucket)
    let existing ← findLive newTag frame table.frameCapacity head
    let linkedUnderNew ← if oldBucket = kNone then pure false else mapsTo frame newTag
    if oldBucket ≠ kNone then
      let mapsOld ← match oldTag with
        | none => pure false
        | some oldTag => mapsTo frame oldTag
      if mapsOld || !linkedUnderNew || existing.isSome then unlink frame
    match existing with
    | some other => return some other
    | none =>
        linkIfUnlinked newBucket newTag frame
        return none

end Calls

/-- A call on the table. -/
inductive Call where
  | lookupFrameId (tag : BufferTag)
  | install (tag : BufferTag) (frame : FrameId)
  | remove (tag : BufferTag) (frame : FrameId)
  | replace (oldTag newTag : BufferTag) (frame : FrameId)
  | replaceUnlessLive (oldTag : Option BufferTag) (newTag : BufferTag) (frame : FrameId)
  deriving DecidableEq, Repr

/-- The frame that the caller owns. -/
def Call.frame? : Call → Option FrameId
  | .lookupFrameId _ => none
  | .install _ frame | .remove _ frame | .replace _ _ frame => some frame
  | .replaceUnlessLive _ _ frame => some frame

def Call.tag? : Call → Option BufferTag
  | .lookupFrameId tag => some tag
  | _ => none

def Call.program (table : Geometry) : Call → Prog (Option FrameId)
  | .lookupFrameId tag => PageTableWords.lookupFrameId table tag
  | .install tag frame => do PageTableWords.install table tag frame; return none
  | .remove tag frame => do PageTableWords.remove table tag frame; return none
  | .replace oldTag newTag frame => do
      PageTableWords.replace table oldTag newTag frame
      return none
  | .replaceUnlessLive oldTag newTag frame =>
      PageTableWords.replaceUnlessLive table oldTag newTag frame

/-! ### Threads -/

structure State (Thread : Type) where
  memory : Memory := {}
  holder : Nat → Option Thread := fun _ => none
  increments : Nat → Nat := fun _ => 0
  owner : FrameId → Option Thread := fun _ => none
  entered : Thread → Nat := fun _ => 0
  lookups : Thread → Option BufferTag := fun _ => none
  answers : Thread → List (Option FrameId) := fun _ => []

namespace State

variable {Thread : Type}

/-- Each lookup that runs gets the answer of this instant. -/
def note (table : Geometry) (state : State Thread) : State Thread :=
  { state with
    answers := fun thread =>
      match state.lookups thread with
      | none => state.answers thread
      | some tag => state.memory.firstMatch table tag :: state.answers thread }

variable [DecidableEq Thread]

/-- What an access changes beside the words. -/
def track (state : State Thread) (thread : Thread) : Access → State Thread
  | .exchangeLock stripe =>
      if state.memory.lock stripe = 0 then
        { state with holder := Function.update state.holder stripe (some thread) }
      else state
  | .clearLock stripe => { state with holder := Function.update state.holder stripe none }
  | .enterSequence stripe =>
      { state with
        entered := Function.update state.entered thread (state.increments stripe) }
  | .storeSequence stripe _ =>
      { state with
        increments := Function.update state.increments stripe (state.increments stripe + 1) }
  | _ => state

def after (table : Geometry) (state : State Thread) (thread : Thread) (choice : Bool)
    (access : Access) : State Thread :=
  { state.track thread access with
    memory := (state.memory.perform choice access).2 }.note table

def exec (table : Geometry) (state : State Thread) (thread : Thread) (choice : Bool)
    (access : Access) : Option (access.Reply × State Thread) :=
  if access.InRange table then
    some ((state.memory.perform choice access).1, state.after table thread choice access)
  else none

/-- The call starts. -/
def begin (table : Geometry) (state : State Thread) (thread : Thread) (call : Call) :
    State Thread :=
  { state with
    owner := match call.frame? with
      | none => state.owner
      | some frame => Function.update state.owner frame (some thread)
    lookups := Function.update state.lookups thread call.tag?
    answers := Function.update state.answers thread [] }.note table

/-- The call returns. -/
def finish (state : State Thread) (thread : Thread) (call : Call) : State Thread :=
  { state with
    owner := match call.frame? with
      | none => state.owner
      | some frame => Function.update state.owner frame none
    lookups := Function.update state.lookups thread none }

end State

/-- What a call has returned, and what an atomic walk would have returned at the instants
between call and return. -/
structure Return where
  call : Call
  result : Option FrameId
  answers : List (Option FrameId)
  deriving DecidableEq, Repr

structure System (Thread : Type) where
  state : State Thread := {}
  running : Thread → Option (Call × Prog (Option FrameId)) := fun _ => none
  returned : List Return := []

inductive Move (Thread : Type) where
  | call (thread : Thread) (call : Call)
  | act (thread : Thread) (choice : Bool)
  | leave (thread : Thread)
  deriving DecidableEq, Repr

section Steps

variable {Thread : Type} [DecidableEq Thread]

/-- The frame is in the arrays, and no other call has it. -/
def State.free (table : Geometry) (state : State Thread) (frame : FrameId) : Bool :=
  frame.toNat < table.frameCapacity && state.owner frame = none

def step (table : Geometry) (system : System Thread) : Move Thread → Option (System Thread)
  | .call thread call =>
      match system.running thread with
      | some _ => none
      | none =>
          if call.frame?.all (system.state.free table) then
            some { system with
              state := system.state.begin table thread call
              running := Function.update system.running thread
                (some (call, call.program table)) }
          else none
  | .act thread choice =>
      match system.running thread with
      | some (call, .request access rest) =>
          (system.state.exec table thread choice access).map fun (reply, state) =>
            { system with
              state
              running := Function.update system.running thread (some (call, rest reply)) }
      | some (call, .loop body start rest) =>
          some { system with
            running := Function.update system.running thread
              (some (call, unfoldLoop body start rest)) }
      | _ => none
  | .leave thread =>
      match system.running thread with
      | some (call, .done result) =>
          some { system with
            state := system.state.finish thread call
            running := Function.update system.running thread none
            returned := system.returned ++ [{
              call, result, answers := system.state.answers thread }] }
      | _ => none

end Steps

end PageTableWords

end TelePath
