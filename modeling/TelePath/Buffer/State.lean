import Mathlib.Data.Fintype.Basic
import Mathlib.Logic.Function.Basic
import TelePath.Types
import TelePath.Buffer.FrameControl
import TelePath.Buffer.PageTable

/-!
The memory that the threads of a buffer manager share: frame descriptors and
frame memory, the page table, the free list, the replacer, the files behind the
backend, requests in flight, flush tasks and the list of written files.
-/

namespace TelePath

open FrameControl

/-- The bytes of one block. -/
abbrev Page (blockSize : Nat) := Fin blockSize → BitVec 8

def zeroPage (blockSize : Nat) : Page blockSize := fun _ => 0#8

structure BufferDescriptor where
  control : Word := 0#32
  lastWritebackError : BitVec 32 := 0#32
  version : BitVec 64 := 0#64
  tag : BufferTag := {}
  recLsn : Lsn := kInvalidLsn
  writebackRecLsn : Lsn := kInvalidLsn
  deriving DecidableEq, Repr

/-- A backing file.  Bytes at or past `size` are not part of it. -/
structure BackingFile where
  size : Nat
  byte : Nat → BitVec 8

namespace BackingFile

/-- A file that does not exist yet. -/
def absent : BackingFile where
  size := 0
  byte _ := 0#8

/-- A read past the end is filled with zeros. -/
def readBlock {blockSize : Nat} (file : BackingFile) (block : Nat) : Page blockSize := fun i =>
  let position := block * blockSize + i
  if position < file.size then file.byte position else 0#8

def writeBlock {blockSize : Nat} (file : BackingFile) (block : Nat) (page : Page blockSize) :
    BackingFile where
  size := max file.size (block * blockSize + blockSize)
  byte position :=
    if h : block * blockSize ≤ position ∧ position < block * blockSize + blockSize then
      page ⟨position - block * blockSize, by omega⟩
    else if position < file.size then file.byte position else 0#8

/-- Truncates, or extends with zeros. -/
def resize (file : BackingFile) (size : Nat) : BackingFile where
  size := size
  byte position := if position < file.size then file.byte position else 0#8

variable {blockSize : Nat}

theorem readBlock_apply (file : BackingFile) (block : Nat) (i : Fin blockSize) :
    file.readBlock block i =
      if block * blockSize + i < file.size then file.byte (block * blockSize + i) else 0#8 := rfl

theorem writeBlock_byte_inside (file : BackingFile) (block : Nat) (page : Page blockSize)
    (i : Fin blockSize) : (file.writeBlock block page).byte (block * blockSize + i) = page i := by
  have hi := i.isLt
  have hinside : block * blockSize ≤ block * blockSize + i ∧
      block * blockSize + i < block * blockSize + blockSize := by omega
  simp only [writeBlock, dif_pos hinside, Nat.add_sub_cancel_left]

theorem writeBlock_byte_outside (file : BackingFile) (block : Nat) (page : Page blockSize)
    {position : Nat} (h : ¬(block * blockSize ≤ position ∧
      position < block * blockSize + blockSize)) :
    (file.writeBlock block page).byte position =
      if position < file.size then file.byte position else 0#8 := by
  simp only [writeBlock, dif_neg h]

theorem readBlock_writeBlock_self (file : BackingFile) (block : Nat) (page : Page blockSize) :
    (file.writeBlock block page).readBlock block = page := by
  funext i
  have hi := i.isLt
  have hsize : block * blockSize + i < (file.writeBlock block page).size :=
    lt_of_lt_of_le (by omega) (le_max_right _ _)
  rw [readBlock_apply, if_pos hsize, writeBlock_byte_inside]

theorem position_outside {block other : Nat} (h : other ≠ block) (i : Fin blockSize) :
    ¬(block * blockSize ≤ other * blockSize + i ∧
      other * blockSize + i < block * blockSize + blockSize) := by
  have hi := i.isLt
  rintro ⟨hlow, hhigh⟩
  rcases Nat.lt_or_gt_of_ne h with hlt | hgt
  · have hstep := Nat.mul_le_mul_right blockSize (Nat.succ_le_of_lt hlt)
    rw [Nat.succ_mul] at hstep
    omega
  · have hstep := Nat.mul_le_mul_right blockSize (Nat.succ_le_of_lt hgt)
    rw [Nat.succ_mul] at hstep
    omega

theorem readBlock_writeBlock_of_ne (file : BackingFile) {block other : Nat}
    (page : Page blockSize) (h : other ≠ block) :
    ((file.writeBlock block page).readBlock other : Page blockSize) = file.readBlock other := by
  funext i
  rw [readBlock_apply, readBlock_apply, writeBlock_byte_outside file block page
    (position_outside h i)]
  by_cases hsize : other * blockSize + i < file.size
  · have hgrown : other * blockSize + i < (file.writeBlock block page).size :=
      lt_of_lt_of_le hsize (le_max_left _ _)
    rw [if_pos hgrown, if_pos hsize]
  · simp [hsize]

end BackingFile

abbrev WaiterId := Nat

abbrev LoadId := Nat

abbrev TaskId := Nat

abbrev OperationId := Nat

abbrev StrategyId := Nat

/-- What a request's token points to. -/
inductive IoCompletion where
  | waiter (id : WaiterId)
  | load (id : LoadId)
  deriving DecidableEq, Repr

/-- Counts outstanding requests down to zero and keeps the first error.  The counts are those of
one call: one request, or the loads of one asynchronous read; `Io.Engine` has the 32-bit word. -/
structure IoWaiter where
  pending : Nat := 1
  error : Status := ok
  deriving DecidableEq, Repr

def IoWaiter.done (waiter : IoWaiter) : Bool := waiter.pending = 0

def IoWaiter.complete (waiter : IoWaiter) (status : Status) : IoWaiter where
  pending := waiter.pending - 1
  error := if waiter.error = ok then status else waiter.error

/-- A read names the frames it fills, a write owns the bytes it stores. -/
inductive DiskOperation (n blockSize : Nat) where
  | read (frames : List (Fin n))
  | write (page : Page blockSize)
  | sync

structure DiskRequest (n blockSize : Nat) where
  token : IoCompletion
  operation : DiskOperation n blockSize
  tag : BufferTag

structure DiskCompletion where
  token : IoCompletion
  status : Status
  deriving DecidableEq, Repr

structure FrameReservation (n : Nat) where
  frame : Fin n
  hadEvictedPage : Bool
  evictedTag : BufferTag
  deriving DecidableEq, Repr

structure AsyncLoadEntry (n : Nat) where
  tag : BufferTag
  reservation : FrameReservation n
  slot : Nat
  deriving DecidableEq, Repr

structure AsyncLoad (n : Nat) where
  operation : Option OperationId
  entries : List (AsyncLoadEntry n)
  deriving DecidableEq, Repr

inductive Slot where
  | pinned
  | loading
  | failed
  | deferred
  deriving DecidableEq, Repr

/-- The state a `ReadBuffersOperation` owns between start and wait. -/
structure ReadBuffersState (n : Nat) where
  strategy : Option StrategyId
  tags : List BufferTag
  frames : List (Option (Fin n))
  slots : List Slot
  waiter : IoWaiter
  deriving DecidableEq, Repr

structure FlushTask (n blockSize : Nat) where
  id : TaskId
  frame : Fin n
  tag : BufferTag
  clearDirtyOnSuccess : Bool
  cleanerOwned : Bool
  snapshot : Page blockSize

/-- The cleaner's candidate queue; an entry is stale once its frame's generation
has moved on. -/
structure CleanerState (n : Nat) where
  inflightFlushes : Nat := 0
  queue : List (Fin n × Nat) := []
  enqueued : Fin n → Bool := fun _ => false
  generation : Fin n → Nat := fun _ => 0

namespace CleanerState

variable {n : Nat}

def resetCandidate (cleaner : CleanerState n) (frame : Fin n) : CleanerState n :=
  { cleaner with
    enqueued := Function.update cleaner.enqueued frame false
    generation := Function.update cleaner.generation frame (cleaner.generation frame + 1) }

def enqueueCandidate (cleaner : CleanerState n) (frame : Fin n) : CleanerState n :=
  if cleaner.enqueued frame then cleaner
  else
    { cleaner with
      enqueued := Function.update cleaner.enqueued frame true
      queue := cleaner.queue ++ [(frame, cleaner.generation frame)] }

/-- Pops entries up to and including the first that is still current. -/
def takeFrom (cleaner : CleanerState n) :
    List (Fin n × Nat) → Option (Fin n) × CleanerState n
  | [] => (none, { cleaner with queue := [] })
  | (frame, generation) :: rest =>
      if cleaner.enqueued frame ∧ cleaner.generation frame = generation then
        (some frame,
          { cleaner with queue := rest, enqueued := Function.update cleaner.enqueued frame false })
      else cleaner.takeFrom rest

def onFlushScheduled (cleaner : CleanerState n) : CleanerState n :=
  { cleaner with inflightFlushes := cleaner.inflightFlushes + 1 }

def onFlushFinished (cleaner : CleanerState n) : CleanerState n :=
  { cleaner with inflightFlushes := cleaner.inflightFlushes - 1 }

/-- How many flushes the cleaner may have in flight. -/
def flushBudget (lowWatermark dirtyPages : Nat) : Nat :=
  if lowWatermark < dirtyPages then dirtyPages - lowWatermark else 0

def takeCandidate (cleaner : CleanerState n) : Option (Fin n) × CleanerState n :=
  cleaner.takeFrom cleaner.queue

end CleanerState

inductive BufferAccessStrategyType where
  | normal
  | bulkRead
  deriving DecidableEq, Repr

/-- A ring of frame numbers; `none` is `kInvalidFrameId`. -/
structure BufferAccessStrategy where
  type : BufferAccessStrategyType
  ring : List (Option Nat)
  current : Nat := 0
  deriving DecidableEq, Repr

namespace BufferAccessStrategy

def kDefaultBulkReadRingSize : Nat := 32

def create (type : BufferAccessStrategyType) (ringSize : Nat) : BufferAccessStrategy where
  type := type
  ring := match type with
    | .normal => []
    | .bulkRead => List.replicate (if ringSize = 0 then kDefaultBulkReadRingSize else ringSize) none

def recordsAccesses (strategy : BufferAccessStrategy) : Bool := strategy.type = .normal

def nextRingFrame (strategy : BufferAccessStrategy) : Option Nat × BufferAccessStrategy :=
  if strategy.ring = [] then (none, strategy)
  else
    let current := (strategy.current + 1) % strategy.ring.length
    (strategy.ring.getD current none, { strategy with current := current })

def rememberRingFrame (strategy : BufferAccessStrategy) (frame : Nat) : BufferAccessStrategy :=
  if strategy.ring = [] then strategy
  else { strategy with ring := strategy.ring.set strategy.current (some frame) }

end BufferAccessStrategy

/-- What the observer tells its telemetry sink. -/
inductive TelemetryEvent where
  | hit (tag : BufferTag)
  | miss (tag : BufferTag)
  | diskRead (tag : BufferTag)
  | diskWrite (tag : BufferTag)
  | eviction (tag : BufferTag)
  | dirtyFlush (tag : BufferTag)
  | flushFailure (tag : BufferTag)
  | flushTaskScheduled (tag : BufferTag)
  | flushTaskCompleted (tag : BufferTag)
  | cleanerFlushScheduled (tag : BufferTag)
  | cleanerFlushFinished (tag : BufferTag)
  | cleanerFlushSkipped
  | evictionFailure (tag : BufferTag)
  deriving DecidableEq, Repr

/-- Files the table of a shared segment has room for. -/
def kSharedWrittenFilesCapacity : Nat := 1024

/-- Everything the threads of one buffer manager share. -/
structure Shared (n blockSize : Nat) where
  descriptors : Fin n → BufferDescriptor
  frameData : Fin n → Page blockSize
  pageTable : PageTable n
  freeList : List (Fin n)
  /-- Frames the replacer tracks. -/
  tracked : Fin n → Bool
  files : FileId → BackingFile
  /-- A `size_t`: a subtraction may run ahead of the addition it undoes and wrap. -/
  dirtyPageCount : BitVec 64
  /-- Requests the backend accepted and has not completed. -/
  inFlight : List (DiskRequest n blockSize)
  /-- Completions the backend holds and nobody has reaped. -/
  completions : List DiskCompletion
  waiters : WaiterId → IoWaiter
  loads : LoadId → AsyncLoad n
  operations : OperationId → Option (ReadBuffersState n)
  foregroundQueue : List (FlushTask n blockSize)
  backgroundQueue : List (FlushTask n blockSize)
  /-- The status of each completed flush task. -/
  taskStatus : TaskId → Option Status
  schedulerShutdown : Bool
  writtenFiles : List FileId
  /-- The written files of a shared segment, when the pool lives in one. -/
  segmentFiles : Option (List FileId)
  /-- The cleaner, when the background cleaner is enabled. -/
  cleaner : Option (CleanerState n)
  cleanerShutdown : Bool
  strategies : StrategyId → BufferAccessStrategy
  prefetchesInFlight : Nat
  telemetry : List TelemetryEvent
  nextId : Nat
  failed : Bool
  closed : Bool
  stopped : Bool
  stopStatus : Status

namespace Shared

variable {n blockSize : Nat}

/-- The free list when `SeedFreeFrames` has pushed the first `count` frames. -/
def seedFreeFrames : (count : Nat) → count ≤ n → List (Fin n)
  | 0, _ => []
  | count + 1, h => ⟨count, h⟩ :: seedFreeFrames count (Nat.le_of_succ_le h)

theorem count_seedFreeFrames (frame : Fin n) (count : Nat) (h : count ≤ n) :
    (seedFreeFrames count h).count frame = if frame < count then 1 else 0 := by
  induction count with
  | zero => simp [seedFreeFrames]
  | succ count ih =>
      rw [seedFreeFrames, List.count_cons, ih]
      have hlast : ((⟨count, h⟩ : Fin n) == frame) = decide (count = frame) := by
        rw [beq_eq_decide, decide_eq_decide, Fin.ext_iff]
      grind

/-- The pool after `Initialize`, and the access strategies that its users have made. -/
def initial (files : FileId → BackingFile) (segment cleaner : Bool)
    (strategies : StrategyId → BufferAccessStrategyType × Nat) : Shared n blockSize where
  descriptors _ := {}
  frameData _ := zeroPage blockSize
  pageTable := .empty
  freeList := seedFreeFrames n le_rfl
  tracked _ := false
  files := files
  dirtyPageCount := 0#64
  inFlight := []
  completions := []
  waiters _ := {}
  loads _ := { operation := none, entries := [] }
  operations _ := none
  foregroundQueue := []
  backgroundQueue := []
  taskStatus _ := none
  schedulerShutdown := false
  writtenFiles := []
  segmentFiles := if segment then some [] else none
  cleaner := if cleaner then some {} else none
  cleanerShutdown := false
  strategies id := .create (strategies id).1 (strategies id).2
  prefetchesInFlight := 0
  telemetry := []
  nextId := 0
  failed := false
  closed := false
  stopped := false
  stopStatus := some { code := .unavailable, message := "io engine stopped" }

def word (shared : Shared n blockSize) (frame : Fin n) : Word :=
  (shared.descriptors frame).control

/-- The block behind `tag` as the backend would read it now. -/
def diskPage (shared : Shared n blockSize) (tag : BufferTag) : Page blockSize :=
  (shared.files tag.fileId).readBlock tag.blockId.toNat

def setDescriptor (shared : Shared n blockSize) (frame : Fin n)
    (update : BufferDescriptor → BufferDescriptor) : Shared n blockSize :=
  { shared with
    descriptors := Function.update shared.descriptors frame (update (shared.descriptors frame)) }

def setWord (shared : Shared n blockSize) (frame : Fin n) (word : Word) : Shared n blockSize :=
  shared.setDescriptor frame fun descriptor => { descriptor with control := word }

@[simp] theorem word_setWord_self (shared : Shared n blockSize) (frame : Fin n) (word : Word) :
    (shared.setWord frame word).word frame = word := by
  simp [setWord, setDescriptor, Shared.word]

@[simp] theorem setWord_word (shared : Shared n blockSize) (frame : Fin n) :
    shared.setWord frame (shared.word frame) = shared := by
  simp [setWord, setDescriptor, Shared.word]

theorem word_setWord_of_ne (shared : Shared n blockSize) {frame other : Fin n} (word : Word)
    (h : other ≠ frame) : (shared.setWord frame word).word other = shared.word other := by
  simp [setWord, setDescriptor, Shared.word, h]

end Shared

end TelePath
