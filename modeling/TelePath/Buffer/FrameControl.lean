import Mathlib.Tactic.Common
import TelePath.Types

/-!
The frame control word of `frame_control.h`: one 32-bit word per frame holds its
state, its dirty and writeback flags, its content latch, the waiter bit and its
pin count.  Every transition below is the body of one CAS loop, read as a
function of the word that the successful CAS replaces.  A `Bool` beside the new
word says whether the transition wakes the sleepers on it.
-/

namespace TelePath.FrameControl

/-- Residency state of a frame.  `invalid` is the bit pattern that no
transition stores. -/
inductive BufferFrameState where
  | free
  | loading
  | resident
  | invalid
  deriving DecidableEq, Repr

abbrev Word := BitVec 32

def kStateMask : Word := 0x3#32
def kDirty : Word := 1#32 <<< 2
def kWritebackQueued : Word := 1#32 <<< 3
def kWritebackActive : Word := 1#32 <<< 4
def kPrefetched : Word := 1#32 <<< 5
def kRedirtied : Word := 1#32 <<< 6
def kExclusive : Word := 1#32 <<< 7
def kSharedShift : Nat := 8
def kSharedOne : Word := 1#32 <<< kSharedShift
def kSharedMask : Word := 0xFF#32 <<< kSharedShift
def kMaxShared : Nat := 0xFF
def kWaiters : Word := 1#32 <<< 16
def kPinShift : Nat := 17
def kPinOne : Word := 1#32 <<< kPinShift
def kPinMask : Word := 0x7FFF#32 <<< kPinShift
def kMaxPins : Nat := 0x7FFF
def kWritebackMask : Word := kWritebackQueued ||| kWritebackActive
def kLatchMask : Word := kExclusive ||| kSharedMask

def BufferFrameState.bits : BufferFrameState → Word
  | .free => 0#32
  | .loading => 1#32
  | .resident => 2#32
  | .invalid => 3#32

def BufferFrameState.ofBits : Nat → BufferFrameState
  | 0 => .free
  | 1 => .loading
  | 2 => .resident
  | _ => .invalid

def state (word : Word) : BufferFrameState := .ofBits (word &&& kStateMask).toNat

def withState (word : Word) (state : BufferFrameState) : Word :=
  (word &&& ~~~kStateMask) ||| state.bits

def pins (word : Word) : Nat := ((word &&& kPinMask) >>> kPinShift).toNat

def sharedHolders (word : Word) : Nat := ((word &&& kSharedMask) >>> kSharedShift).toNat

def hasAny (mask word : Word) : Bool := (word &&& mask) != 0#32

def isResident (word : Word) : Bool := state word = .resident

def isDirty (word : Word) : Bool := hasAny kDirty word

def hasWriteback (word : Word) : Bool := hasAny kWritebackMask word

def updateAndWake (next : Word → Word) (wakes : Word → Word → Bool) (word : Word) :
    Word × Bool :=
  let newWord := next word
  let wake := hasAny kWaiters word && wakes word newWord
  (if wake then newWord &&& ~~~kWaiters else newWord, wake)

/-- `none` while the pin count is saturated: the caller yields and retries. -/
def tryPinResident (word : Word) : Option (Bool × Word) :=
  if !isResident word then some (false, word)
  else if pins word = kMaxPins then none
  else some (true, word + kPinOne)

/-- Drops one pin; the reply is the word before the release, or `none` on
underflow. -/
def unpin (word : Word) : Option Word × Word :=
  if pins word = 0 then (none, word) else (some word, word - kPinOne)

inductive ReserveOutcome where
  | reserved
  | needsFlush
  | rejected
  deriving DecidableEq, Repr

/-- Claims a frame for a load.  The reply carries the `observed` word, from
which the caller reads whether the frame still held a page. -/
def tryReserve (poppedFromFreeList : Bool) (word : Word) : (ReserveOutcome × Word) × Word :=
  if state word = .loading then ((.rejected, word), word)
  else if state word = .free ∧ !poppedFromFreeList then ((.rejected, word), word)
  else if pins word ≠ 0 ∨ hasAny (kLatchMask ||| kWritebackMask) word then
    ((.rejected, word), word)
  else if isResident word && isDirty word then ((.needsFlush, word), word)
  else ((.reserved, word), (word &&& kWaiters) ||| kPinOne ||| BufferFrameState.loading.bits)

def publishResident (releasePin : Bool) (word : Word) : Word × Bool :=
  updateAndWake
    (fun word => withState word .resident - (if releasePin then kPinOne else 0#32))
    (fun _ _ => true) word

def releaseToFree (word : Word) : Word × Bool :=
  updateAndWake (fun word => word &&& (kWaiters ||| kLatchMask)) (fun _ _ => true) word

inductive DiscardOutcome where
  | discarded
  | writeback
  | latched
  | busy
  deriving DecidableEq, Repr

/-- Frees a frame whose only pin is the caller's; `previous` is set on success
only. -/
def tryDiscardPinned (word : Word) : (DiscardOutcome × Option Word) × Word × Bool :=
  if hasWriteback word then ((.writeback, none), word, false)
  else if !isResident word ∨ pins word ≠ 1 then ((.busy, none), word, false)
  else if hasAny kLatchMask word then ((.latched, none), word, false)
  else ((.discarded, some word), 0#32, hasAny kWaiters word)

def markDirty (word : Word) : Option Bool × Word :=
  if !isResident word then (none, word)
  else
    let next := word ||| kDirty
    let next := if hasWriteback word then next ||| kRedirtied else next
    if next = word then (some false, word) else (some (!isDirty word), next)

def tryAcquireShared (word : Word) : Bool × Word :=
  if !hasAny kExclusive word ∧ sharedHolders word < kMaxShared then (true, word + kSharedOne)
  else (false, word)

def releaseShared (word : Word) : Word × Bool :=
  updateAndWake (fun word => word - kSharedOne)
    (fun oldWord newWord =>
      sharedHolders newWord = 0 ∨ sharedHolders oldWord = kMaxShared) word

def tryAcquireExclusive (word : Word) : Bool × Word :=
  if !hasAny kLatchMask word then (true, word ||| kExclusive) else (false, word)

def releaseExclusive (word : Word) : Word × Bool :=
  updateAndWake
    (fun word =>
      let next := word &&& ~~~kExclusive
      if hasWriteback word then next ||| kRedirtied else next)
    (fun _ _ => true) word

inductive QueueOutcome where
  | queued
  | notDirty
  | pending
  | pinned
  deriving DecidableEq, Repr

def tryQueueWriteback (skipIfPinned : Bool) (word : Word) : QueueOutcome × Word :=
  if hasWriteback word then (.pending, word)
  else if !isResident word ∨ !isDirty word then (.notDirty, word)
  else if skipIfPinned ∧ pins word ≠ 0 then (.pinned, word)
  else (.queued, (word ||| kWritebackQueued) &&& ~~~kRedirtied)

def beginWriteback (word : Word) : Word × Bool :=
  updateAndWake (fun word => (word &&& ~~~kWritebackQueued) ||| kWritebackActive)
    (fun _ _ => false) word

def cancelQueuedWriteback (word : Word) : Word × Bool :=
  updateAndWake (fun word => word &&& ~~~(kWritebackQueued ||| kRedirtied))
    (fun _ _ => true) word

/-- Whether `CompleteWriteback` on `word` clears the dirty bit. -/
def clearsDirty (succeeded : Bool) (word : Word) : Bool :=
  succeeded && isResident word && isDirty word && !hasAny (kRedirtied ||| kExclusive) word

structure WritebackCompletion where
  clearedDirty : Bool
  word : Word
  deriving DecidableEq, Repr

def completeWriteback (succeeded : Bool) (word : Word) : WritebackCompletion × (Word × Bool) :=
  let update := updateAndWake
    (fun word =>
      let next := word &&& ~~~(kWritebackMask ||| kRedirtied)
      if clearsDirty succeeded word then next &&& ~~~kDirty else next)
    (fun _ _ => true) word
  let remaining := word &&& ~~~(kWritebackMask ||| kRedirtied ||| kWaiters)
  (⟨clearsDirty succeeded word,
    if clearsDirty succeeded word then remaining &&& ~~~kDirty else remaining⟩, update)

/-- The latch condition `AcquireShared` sleeps on. -/
def sharedBlocked (word : Word) : Bool :=
  hasAny kExclusive word || kMaxShared ≤ sharedHolders word

/-- The latch condition `AcquireExclusive` sleeps on. -/
def latched (word : Word) : Bool := hasAny kLatchMask word

/-- Lowers `recLsn` to `lsn` unless it already holds an earlier valid LSN. -/
def lowerRecLsn (recLsn lsn : Lsn) : Lsn :=
  if lsn = kInvalidLsn then recLsn
  else if recLsn = kInvalidLsn ∨ lsn < recLsn then lsn
  else recLsn

def packWritebackError : Status → BitVec 32
  | none => 0#32
  | some error =>
      let code := BitVec.ofNat 32 error.code.toByte &&& 0xFF#32
      let systemError := BitVec.ofNat 32 (min (max error.systemError 0).toNat 0xFFFFFF)
      code ||| (systemError <<< 8)

def unpackWritebackError (packed : BitVec 32) : Status :=
  if packed = 0#32 then ok
  else some
    { code := ErrorCode.ofByte (packed &&& 0xFF#32).toNat
      message := "writeback failed"
      systemError := (packed >>> 8).toNat }

end TelePath.FrameControl
