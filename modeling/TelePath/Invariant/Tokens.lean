import Mathlib.Algebra.Order.Group.Multiset
import Mathlib.Data.Fintype.Pi
import Mathlib.Data.Multiset.Filter
import TelePath.History

/-!
What threads own.  A token stands for one right over a frame, a request, a load or an
operation, together with how far its owner has got.  Rights that a thread has handed on,
to a queued task, a request in flight or an operation, are parked there until somebody
takes them up again.
-/

namespace TelePath

open FrameControl

variable {n blockSize : Nat}

/-- Where the bytes of a frame that is being loaded come from. -/
inductive Fill where
  | empty
  | reading (waiter : WaiterId)
  /-- They are the bytes of the block. -/
  | filled
  /-- The read failed or was given up. -/
  | spoiled
  deriving DecidableEq, Repr

/-- What the frames of a load hold once the status of its request is known. -/
def Fill.ofResult : Option Status → Fill
  | none => .empty
  | some status => if status = ok then .filled else .spoiled

/-- How far a load has got with the frame it reserved. -/
inductive LoadStage where
  /-- From the free list: on no chain. -/
  | fresh
  /-- A victim: still linked under the tag it carries. -/
  | claimed
  /-- A victim whose tag has been read. -/
  | evicting (old : BufferTag)
  /-- The new tag is stored; a victim is still linked under its old one. -/
  | tagged (tag : BufferTag) (old : Option BufferTag)
  | installed (tag : BufferTag) (fill : Fill)
  /-- The replacer tracks the frame; it can be published. -/
  | recorded (tag : BufferTag) (fill : Fill)
  /-- Off its chain, to be freed. -/
  | unmapped
  deriving DecidableEq, Repr

/-- How far the thread that freed or popped a frame has got with it. -/
inductive FreeStage where
  /-- Discarded, and still linked under its tag. -/
  | discarded (tag : BufferTag)
  | unlinked
  deriving DecidableEq, Repr

/-- What the holder of an exclusive latch has done to its page. -/
inductive Mark where
  | clean
  | dirty
  /-- The latch was taken with `kZeroAndLock` before the frame was published. -/
  | zeroed
  deriving DecidableEq, Repr

/-- The right that keeps a page still while its snapshot is taken. -/
inductive Latch where
  | reader
  | writer (mark : Mark)
  deriving DecidableEq, Repr

/-- How far a writeback has got. -/
inductive WritebackStage (blockSize : Nat) where
  | queued
  /-- The tag was read under the latch. -/
  | named (latch : Latch) (tag : BufferTag)
  | copied (tag : BufferTag) (snapshot : Page blockSize)
  | begun (tag : BufferTag) (snapshot : Page blockSize)
  | writing (tag : BufferTag) (snapshot : Page blockSize) (waiter : WaiterId)
  | written (tag : BufferTag) (snapshot : Page blockSize)
  /-- The write failed or was given up. -/
  | broken
  deriving DecidableEq

def WritebackStage.latch? : WritebackStage blockSize → Option Latch
  | .named latch _ => some latch
  | _ => none

/-- Whether the writeback is active, and not just queued, at this stage. -/
def WritebackStage.active : WritebackStage blockSize → Bool
  | .begun _ _ | .writing _ _ _ | .written _ _ | .broken => true
  | _ => false

/-- One slot of an operation and the pin it stands for. -/
structure SlotPin (n : Nat) where
  slot : Nat
  frame : Fin n
  tag : BufferTag
  deriving DecidableEq, Repr

/-- How far the owner of an operation has got with it. -/
inductive OperationStage (n : Nat) where
  | fresh
  /-- Stored, with the loads that have not been counted yet. -/
  | stored (uncounted : List (List (SlotPin n)))
  /-- All loads have been delivered and its pins taken back. -/
  | closing
  deriving DecidableEq, Repr

inductive Token (n blockSize : Nat) where
  /-- A pin whose tag has not been checked. -/
  | rawPin (frame : Fin n)
  | pin (frame : Fin n) (tag : BufferTag)
  | shared (frame : Fin n)
  /-- Comes with a shared latch; lent to a writeback while it takes its snapshot. -/
  | reader (frame : Fin n)
  | exclusive (frame : Fin n)
  /-- Comes with an exclusive latch: the right to change the page. -/
  | writer (frame : Fin n) (mark : Mark)
  | loading (frame : Fin n) (stage : LoadStage)
  | free (frame : Fin n) (stage : FreeStage)
  | writeback (frame : Fin n) (stage : WritebackStage blockSize)
  /-- A load that this thread is to submit or to deliver. -/
  | load (id : LoadId) (load : AsyncLoad n)
  | operation (id : OperationId) (stage : OperationStage n)
  /-- A counted load of an operation, until it has been delivered. -/
  | delivery (id : OperationId) (pins : List (SlotPin n))
  /-- A pin left with an operation. -/
  | deposited (id : OperationId) (pin : SlotPin n)
  /-- A request that its waiter counts, and its status once it is known. -/
  | ticket (waiter : WaiterId) (result : Option Status)
  /-- All requests of the waiter have been delivered. -/
  | settledWaiter (waiter : WaiterId)
  /-- Waits for the sync of some files. -/
  | syncing (waiter : WaiterId)
  deriving DecidableEq

/-- The rights over a frame that its control word accounts for. -/
inductive Right where
  | pin
  | loading
  | free
  | shared
  | reader
  | exclusive
  | writer
  | queued
  | active
  deriving DecidableEq, Repr

def Latch.right : Latch → Right
  | .reader => .reader
  | .writer _ => .writer

namespace Token

def rights : Token n blockSize → List (Right × Fin n)
  | .rawPin frame | .pin frame _ => [(.pin, frame)]
  | .deposited _ left => [(.pin, left.frame)]
  | .shared frame => [(.shared, frame)]
  | .reader frame => [(.reader, frame)]
  | .exclusive frame => [(.exclusive, frame)]
  | .writer frame _ => [(.writer, frame)]
  | .loading frame _ => [(.loading, frame)]
  | .free frame _ => [(.free, frame)]
  | .writeback frame stage =>
      (if stage.active then .active else .queued, frame) ::
        (stage.latch?.map fun latch => (latch.right, frame)).toList
  | _ => []

/-- The mark of a writer's right over a frame, wherever the right is. -/
def mark? (frame : Fin n) : Token n blockSize → Option Mark
  | .writer other mark => if other = frame then some mark else none
  | .writeback other stage =>
      match stage.latch? with
      | some (.writer mark) => if other = frame then some mark else none
      | _ => none
  | _ => none

@[simp] theorem mark?_writer (frame : Fin n) (mark : Mark) :
    (.writer frame mark : Token n blockSize).mark? frame = some mark := if_pos rfl

def isTicket (waiter : WaiterId) : Token n blockSize → Bool
  | .ticket other _ => other = waiter
  | _ => false

def isOperation (operation : OperationId) : Token n blockSize → Bool
  | .operation other _ => other = operation
  | _ => false

def isDelivery (operation : OperationId) : Token n blockSize → Bool
  | .delivery other _ => other = operation
  | _ => false

def promised (operation : OperationId) : Token n blockSize → Multiset (SlotPin n)
  | .operation other (.stored uncounted) => if other = operation then ↑uncounted.flatten else 0
  | .delivery other pins => if other = operation then ↑pins else 0
  | .deposited other left => if other = operation then {left} else 0
  | _ => 0

end Token

theorem mem_own {token : Token n blockSize} {rest : Multiset (Token n blockSize)} :
    token ∈ {token} + rest := by
  simp

theorem mem_rest {token : Token n blockSize} {used rest : Multiset (Token n blockSize)}
    (h : token ∈ rest) : token ∈ used + rest :=
  Multiset.mem_add.mpr (.inr h)

def tally (test : Token n blockSize → Bool) (owned : Multiset (Token n blockSize)) : Nat :=
  owned.countP fun token => test token = true

@[simp] theorem tally_zero (test : Token n blockSize → Bool) : tally test 0 = 0 := rfl

@[simp] theorem tally_add (test : Token n blockSize → Bool)
    (first second : Multiset (Token n blockSize)) :
    tally test (first + second) = tally test first + tally test second :=
  Multiset.countP_add _ _ _

@[simp] theorem tally_singleton (test : Token n blockSize → Bool) (token : Token n blockSize) :
    tally test {token} = if test token then 1 else 0 := by
  rw [tally, ← Multiset.cons_zero, Multiset.countP_cons, Multiset.countP_zero, Nat.zero_add]

@[simp] theorem tally_cons (test : Token n blockSize → Bool) (token : Token n blockSize)
    (owned : Multiset (Token n blockSize)) :
    tally test (token ::ₘ owned) = (if test token then 1 else 0) + tally test owned := by
  rw [← Multiset.singleton_add, tally_add, tally_singleton]

theorem tally_pos {test : Token n blockSize → Bool} {owned : Multiset (Token n blockSize)}
    {token : Token n blockSize} (hmem : token ∈ owned) (htest : test token = true) :
    0 < tally test owned :=
  Multiset.countP_pos.mpr ⟨token, hmem, htest⟩

theorem exists_of_tally_pos {test : Token n blockSize → Bool}
    {owned : Multiset (Token n blockSize)} (hpos : 0 < tally test owned) :
    ∃ token ∈ owned, test token = true :=
  Multiset.countP_pos.mp hpos

theorem tally_eq_zero {test : Token n blockSize → Bool} {owned : Multiset (Token n blockSize)}
    (h : ∀ token ∈ owned, test token = false) : tally test owned = 0 := by
  by_contra hne
  obtain ⟨token, hmem, htest⟩ := exists_of_tally_pos (Nat.pos_of_ne_zero hne)
  rw [h token hmem] at htest
  cases htest

theorem eq_of_tally_le_one {test : Token n blockSize → Bool}
    {owned : Multiset (Token n blockSize)} (hle : tally test owned ≤ 1)
    {first second : Token n blockSize} (hfirst : first ∈ owned) (hsecond : second ∈ owned)
    (hpass : test first = true) (hpass' : test second = true) : first = second := by
  by_contra hne
  obtain ⟨rest, rfl⟩ := Multiset.exists_cons_of_mem hfirst
  have hrest : second ∈ rest := by
    rcases Multiset.mem_cons.mp hsecond with heq | hmem
    · exact absurd heq.symm hne
    · exact hmem
  have hpos : 0 < tally test rest := tally_pos hrest hpass'
  rw [← Multiset.singleton_add, tally_add, tally_singleton, if_pos hpass] at hle
  omega

def held (owned : Multiset (Token n blockSize)) (frame : Fin n) (right : Right) : Nat :=
  tally (fun token => (right, frame) ∈ token.rights) owned

@[simp] theorem held_zero (frame : Fin n) (right : Right) :
    held (0 : Multiset (Token n blockSize)) frame right = 0 := rfl

@[simp] theorem held_add (first second : Multiset (Token n blockSize)) (frame : Fin n)
    (right : Right) : held (first + second) frame right =
      held first frame right + held second frame right :=
  tally_add _ _ _

@[simp] theorem held_singleton (token : Token n blockSize) (frame : Fin n) (right : Right) :
    held {token} frame right = if (right, frame) ∈ token.rights then 1 else 0 := by
  simp [held]

@[simp] theorem held_cons (token : Token n blockSize) (owned : Multiset (Token n blockSize))
    (frame : Fin n) (right : Right) : held (token ::ₘ owned) frame right =
      (if (right, frame) ∈ token.rights then 1 else 0) + held owned frame right := by
  simp [held]

theorem held_pos {owned : Multiset (Token n blockSize)} {frame : Fin n} {right : Right}
    {token : Token n blockSize} (hmem : token ∈ owned) (hright : (right, frame) ∈ token.rights) :
    0 < held owned frame right :=
  tally_pos hmem (by simpa using hright)

def AsyncLoad.frameTokens (load : AsyncLoad n) (fill : Fill) : Multiset (Token n blockSize) :=
  (load.entries.map fun entry =>
    (.loading entry.reservation.frame (.installed entry.tag fill) : Token n blockSize) :
    List (Token n blockSize))

def AsyncLoad.promise (load : AsyncLoad n) : Multiset (Token n blockSize) :=
  match load.operation with
  | some operation => {.delivery operation
      (load.entries.map fun entry => ⟨entry.slot, entry.reservation.frame, entry.tag⟩)}
  | none => 0

/-- What a load owns while it is in flight. -/
def AsyncLoad.tokens (load : AsyncLoad n) (fill : Fill) : Multiset (Token n blockSize) :=
  load.frameTokens fill + load.promise

namespace Shared

/-- The rights that a request or completion takes along. -/
def parkedBy (shared : Shared n blockSize) (result : Option Status) :
    IoCompletion → Multiset (Token n blockSize)
  | .waiter waiter => {.ticket waiter result}
  | .load id => {.load id (shared.loads id)} +
      (shared.loads id).tokens (.ofResult result)

/-- The right over a frame that a queued task takes along. -/
def parkedTask (task : FlushTask n blockSize) : Token n blockSize :=
  .writeback task.frame (.copied task.tag task.snapshot)

/-- Every right that no thread holds at the moment, but those left with operations. -/
def parked (shared : Shared n blockSize) : Multiset (Token n blockSize) :=
  (shared.inFlight.map fun request => shared.parkedBy none request.token).sum +
    (shared.completions.map fun completion =>
      shared.parkedBy (some completion.status) completion.token).sum +
    ↑((shared.foregroundQueue ++ shared.backgroundQueue).map parkedTask)

end Shared

end TelePath
