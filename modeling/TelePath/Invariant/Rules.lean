import TelePath.Logic.Ownership
import TelePath.Invariant.Footprint
import TelePath.Invariant.Tokens

/-!
What every action of the buffer manager trades: the tokens a thread must hold to
perform it, those it gives up and those it has afterwards.
-/

namespace TelePath

open FrameControl Logic

variable {n blockSize : Nat}

/-- What a thread waits for with a waiter of its own. -/
inductive Purpose (n blockSize : Nat) where
  | fill (frame : Fin n) (tag : BufferTag)
  | write (frame : Fin n) (tag : BufferTag) (snapshot : Page blockSize)
  | sync

namespace Purpose

/-- What its owner holds for a request at one stage of it. -/
def token (load : Fill) (write : BufferTag → Page blockSize → WritebackStage blockSize)
    (sync : Multiset (Token n blockSize)) : Purpose n blockSize → Multiset (Token n blockSize)
  | .fill frame tag => {.loading frame (.installed tag load)}
  | .write frame tag snapshot => {.writeback frame (write tag snapshot)}
  | .sync => sync

def ready : Purpose n blockSize → Multiset (Token n blockSize) := token .empty .begun 0

def waiting (waiter : WaiterId) : Purpose n blockSize → Multiset (Token n blockSize) :=
  token (.reading waiter) (.writing · · waiter) {.syncing waiter}

def done : Purpose n blockSize → Multiset (Token n blockSize) := token .filled .written 0

def failed : Purpose n blockSize → Multiset (Token n blockSize) :=
  token .spoiled (fun _ _ => .broken) 0

/-- How many requests serve the purpose. -/
def Counts (pending : Nat) : Purpose n blockSize → Prop
  | .sync => True
  | _ => pending = 1

/-- The requests that serve the purpose. -/
def Asks (waiter : WaiterId) (request : DiskRequest n blockSize) : Purpose n blockSize → Prop
  | .fill frame tag => request = ⟨.waiter waiter, .read [frame], tag⟩
  | .write _ tag snapshot => request = ⟨.waiter waiter, .write snapshot, tag⟩
  | .sync => request.token = .waiter waiter ∧ request.operation = .sync

end Purpose

def Latch.token (frame : Fin n) : Latch → Token n blockSize
  | .reader => .reader frame
  | .writer mark => .writer frame mark

def AsyncLoad.firstTag (load : AsyncLoad n) : BufferTag := (load.entries.head?.map (·.tag)).getD {}

def AsyncLoad.Consecutive (load : AsyncLoad n) : Prop :=
  ∀ (i : Nat) (entry : AsyncLoadEntry n), load.entries[i]? = some entry →
    entry.tag = { load.firstTag with blockId := load.firstTag.blockId + BitVec.ofNat 64 i }

def AsyncLoad.request (load : AsyncLoad n) (id : LoadId) : DiskRequest n blockSize :=
  ⟨.load id, .read (load.entries.map (·.reservation.frame)), load.firstTag⟩

/-- The pin that a slot of an operation holds or waits for. -/
def ReadBuffersState.slotPin (state : ReadBuffersState n) (i : Nat) : Option (SlotPin n) :=
  if state.slots[i]? = some .pinned ∨ state.slots[i]? = some .loading then
    (state.frames.getD i none).map fun frame => ⟨i, frame, state.tags.getD i {}⟩
  else none

def ReadBuffersState.Matched (state : ReadBuffersState n) : Prop :=
  state.frames.length = state.slots.length

def ReadBuffersState.slotPins (state : ReadBuffersState n) : List (SlotPin n) :=
  (List.range state.slots.length).filterMap state.slotPin

def pinTokens (pins : Multiset (SlotPin n)) : Multiset (Token n blockSize) :=
  pins.map fun pin => .pin pin.frame pin.tag

/-- What a completion that was just reaped hands to its reaper. -/
def reapedTokens (load : AsyncLoad n) (status : Status) : IoCompletion →
    Multiset (Token n blockSize)
  | .waiter waiter => {.ticket waiter (some status)}
  | .load id => {.load id load} + load.tokens (.ofResult (some status))

/-- Trades that leave every parked right where it is. -/
inductive Trade : Rules (Action n blockSize) Reply (Multiset (Token n blockSize)) where
  | silent {action : Action n blockSize} (h : action.isSilent = true) :
      Trade action 0 0 fun _ D => D = 0
  -- pins
  | tryPinResident (frame : Fin n) :
      Trade (.tryPinResident frame) 0 0 fun pinned D => D = if pinned then {.rawPin frame} else 0
  | checkTag (frame : Fin n) :
      Trade (.loadTag frame) 0 {.rawPin frame} fun tag D => D = {.pin frame tag}
  | unpin (frame : Fin n) (tag : BufferTag) :
      Trade (.unpin frame) 0 {.pin frame tag} fun _ D => D = 0
  -- latches
  | tryAcquireShared (frame : Fin n) :
      Trade (.tryAcquireShared frame) 0 0 fun acquired D =>
        D = if acquired then {.shared frame} + {.reader frame} else 0
  | acquireShared (frame : Fin n) :
      Trade (.acquireShared frame none) 0 0 fun _ D => D = {.shared frame} + {.reader frame}
  | latchShared (frame : Fin n) (tag : BufferTag) :
      Trade (.acquireShared frame (some tag)) {.pin frame tag} 0 fun _ D =>
        D = {.shared frame} + {.reader frame}
  | releaseShared (frame : Fin n) :
      Trade (.releaseShared frame) 0 ({.shared frame} + {.reader frame}) fun _ D => D = 0
  | latchExclusive (frame : Fin n) (tag : BufferTag) (mode : ReadBufferMode) :
      Trade (.acquireExclusive frame tag mode) {.pin frame tag} 0 fun _ D =>
        D = {.exclusive frame} + {.writer frame .clean}
  | latchZeroed (frame : Fin n) (tag : BufferTag) :
      Trade (.acquireExclusive frame tag .zeroAndLock) {.loading frame (.installed tag .empty)} 0
        fun _ D => D = {.exclusive frame} + {.writer frame .zeroed}
  | releaseExclusive (frame : Fin n) (tag : BufferTag) (mark : Mark) :
      Trade (.releaseExclusive frame tag) {.pin frame tag}
        ({.exclusive frame} + {.writer frame mark}) fun _ D => D = 0
  | markDirty (frame : Fin n) (tag : BufferTag) (mark : Mark) :
      Trade (.markDirty frame) ({.pin frame tag} + {.exclusive frame}) {.writer frame mark}
        fun _ D => D = {.writer frame .dirty}
  | writeFrame (frame : Fin n) (tag : BufferTag) (page : Page blockSize) :
      Trade (.writeFrame frame page) ({.pin frame tag} + {.exclusive frame})
        {.writer frame .dirty} fun _ D => D = {.writer frame .dirty}
  -- reserving, installing and publishing a frame
  | reservePopped (frame : Fin n) :
      Trade (.tryReserve frame true) 0 {.free frame .unlinked} fun reply D =>
        reply.1 ≠ .needsFlush ∧
          if reply.1 = .reserved then isResident reply.2 = false ∧ D = {.loading frame .fresh}
          else D = {.free frame .unlinked}
  | reserveVictim (frame : Fin n) :
      Trade (.tryReserve frame false) 0 0 fun reply D =>
        if reply.1 = .reserved then isResident reply.2 = true ∧ D = {.loading frame .claimed}
        else D = 0
  | loadEvictedTag (frame : Fin n) :
      Trade (.loadTag frame) 0 {.loading frame .claimed} fun tag D =>
        D = {.loading frame (.evicting tag)}
  | tagFresh (frame : Fin n) (tag : BufferTag) :
      Trade (.storeTag frame tag) 0 {.loading frame .fresh} fun _ D =>
        D = {.loading frame (.tagged tag none)}
  | tagVictim (frame : Fin n) (tag old : BufferTag) :
      Trade (.storeTag frame tag) 0 {.loading frame (.evicting old)} fun _ D =>
        D = {.loading frame (.tagged tag (some old))}
  | clearTag (frame : Fin n) (tag : BufferTag) :
      Trade (.storeTag frame tag) 0 {.loading frame .unmapped} fun _ D =>
        D = {.loading frame .unmapped}
  | clearFreeTag (frame : Fin n) (tag : BufferTag) :
      Trade (.storeTag frame tag) 0 {.free frame .unlinked} fun _ D => D = {.free frame .unlinked}
  | install (frame : Fin n) (tag : BufferTag) (old : Option BufferTag) :
      Trade (.replaceUnlessLive old tag frame) 0 {.loading frame (.tagged tag old)}
        fun existing D => D = {.loading frame
          (if existing = none then .installed tag .empty else .unmapped)}
  | unmap (frame : Fin n) (tag : BufferTag) (fill : Fill) (h : ∀ waiter, fill ≠ .reading waiter) :
      Trade (.removeMapping tag frame) 0 {.loading frame (.installed tag fill)} fun _ D =>
        D = {.loading frame .unmapped}
  | unlink (frame : Fin n) (tag : BufferTag) :
      Trade (.removeMapping tag frame) 0 {.free frame (.discarded tag)} fun _ D =>
        D = {.free frame .unlinked}
  | recordLoad (frame : Fin n) (tag : BufferTag) (fill : Fill)
      (h : ∀ waiter, fill ≠ .reading waiter) :
      Trade (.recordLoad frame) 0 {.loading frame (.installed tag fill)} fun _ D =>
        D = {.loading frame (.recorded tag fill)}
  | untrack (frame : Fin n) :
      Trade (.removeTracked frame) 0 {.loading frame .unmapped} fun _ D =>
        D = {.loading frame .unmapped}
  | untrackFree (frame : Fin n) :
      Trade (.removeTracked frame) 0 {.free frame .unlinked} fun _ D =>
        D = {.free frame .unlinked}
  | publish (frame : Fin n) (tag : BufferTag) (releasePin : Bool) :
      Trade (.publishResident frame releasePin) 0 {.loading frame (.recorded tag .filled)}
        fun _ D => D = if releasePin then 0 else {.pin frame tag}
  | publishZeroed (frame : Fin n) (tag : BufferTag) :
      Trade (.publishResident frame false) {.exclusive frame}
        {.loading frame (.recorded tag .empty)} fun _ D => D = {.pin frame tag}
  | releaseToFree (frame : Fin n) :
      Trade (.releaseToFree frame) 0 {.loading frame .unmapped} fun _ D =>
        D = {.free frame .unlinked}
  | zeroFrame (frame : Fin n) (tag : BufferTag) :
      Trade (.zeroFrame frame) 0 {.loading frame (.installed tag .empty)} fun _ D =>
        D = {.loading frame (.installed tag .empty)}
  -- dropping a page, and the free list
  | discard (frame : Fin n) (tag : BufferTag) :
      Trade (.tryDiscardPinned frame) 0 {.pin frame tag} fun reply D =>
        D = if reply.1 = .discarded then {.free frame (.discarded tag)} else {.pin frame tag}
  | pushFree (frame : Fin n) :
      Trade (.pushFree frame) 0 {.free frame .unlinked} fun _ D => D = 0
  | popFree :
      Trade .popFree 0 0 fun popped D => D = popped.elim 0 fun frame => {.free frame .unlinked}
  -- writing a page back
  | queueWriteback (frame : Fin n) (skipIfPinned : Bool) :
      Trade (.tryQueueWriteback frame skipIfPinned) 0 0 fun outcome D =>
        D = if outcome = .queued then {.writeback frame .queued} else 0
  | nameSnapshot (frame : Fin n) (latch : Latch) :
      Trade (.loadTag frame) 0 ({.writeback frame .queued} + {latch.token frame}) fun tag D =>
        D = {.writeback frame (.named latch tag)}
  | takeSnapshot (frame : Fin n) (latch : Latch) (tag : BufferTag) :
      Trade (.copyFrame frame) 0 {.writeback frame (.named latch tag)} fun page D =>
        D = {.writeback frame (.copied tag page)} + {latch.token frame}
  | beginWriteback (frame : Fin n) (tag : BufferTag) (snapshot : Page blockSize) :
      Trade (.beginWriteback frame) 0 {.writeback frame (.copied tag snapshot)} fun _ D =>
        D = {.writeback frame (.begun tag snapshot)}
  | cancelWriteback (frame : Fin n) (tag : BufferTag) (snapshot : Page blockSize) :
      Trade (.cancelQueuedWriteback frame) 0 {.writeback frame (.copied tag snapshot)}
        fun _ D => D = 0
  | completeWriteback (frame : Fin n) (tag : BufferTag) (snapshot : Page blockSize) :
      Trade (.completeWriteback frame true) 0 {.writeback frame (.written tag snapshot)}
        fun _ D => D = 0
  | abandonWriteback (frame : Fin n) :
      Trade (.completeWriteback frame false) 0 {.writeback frame .broken} fun _ D => D = 0
  -- requests and waiters
  | newWaiter (purpose : Purpose n blockSize) (pending : Nat) (h : purpose.Counts pending) :
      Trade (.newWaiter pending) 0 purpose.ready fun waiter D =>
        D = purpose.waiting waiter + Multiset.replicate pending (.ticket waiter none)
  | loadPending (purpose : Purpose n blockSize) (waiter : WaiterId) :
      Trade (.loadPending waiter) (purpose.waiting waiter) 0 fun pending D =>
        D = if pending = 0 then {.settledWaiter waiter} else 0
  | waiterStatus (purpose : Purpose n blockSize) (waiter : WaiterId) :
      Trade (.waiterStatus waiter) 0 ({.settledWaiter waiter} + purpose.waiting waiter)
        fun status D => D = if status = ok then purpose.done else purpose.failed
  | loadStopped (purpose : Purpose n blockSize) (waiter : WaiterId) :
      Trade .loadStopped 0 (purpose.waiting waiter) fun reply D =>
        reply.elim (D = purpose.waiting waiter) fun status => status ≠ ok ∧ D = purpose.failed
  | completeWaiter (waiter : WaiterId) (status : Status) :
      Trade (.completeWaiter waiter status) 0 {.ticket waiter (some status)} fun _ D => D = 0
  -- asynchronous loads and operations
  | takeLoad (id : LoadId) (load : AsyncLoad n) :
      Trade (.takeLoad id) 0 {.load id load} fun reply D => reply = load ∧ D = 0
  | newOperation : Trade .newOperation 0 0 fun id D => D = {.operation id .fresh}
  | addPending (id : OperationId) (pins : List (SlotPin n))
      (uncounted : List (List (SlotPin n))) :
      Trade (.addPending id) 0 {.operation id (.stored (pins :: uncounted))} fun _ D =>
        D = {.operation id (.stored uncounted)} + {.delivery id pins}
  | failSlot (id : OperationId) (pin : SlotPin n) (pins : List (SlotPin n)) :
      Trade (.failSlot id pin.slot) 0 {.delivery id (pin :: pins)} fun _ D =>
        D = {.delivery id pins}
  | closeOperation (id : OperationId) :
      Trade (.storeOperation id none) 0 {.operation id .closing} fun _ D => D = 0

section About

def Token.operation? : Token n blockSize → Option OperationId
  | .operation id _ | .delivery id _ | .deposited id _ => some id
  | _ => none

def Token.isDeposited : Token n blockSize → Bool
  | .deposited _ _ => true
  | _ => false

/-- The waiter whose requests the owner of the token waits for, and what for. -/
def Token.purpose? : Token n blockSize → Option (WaiterId × Purpose n blockSize)
  | .loading frame (.installed tag (.reading waiter)) => some (waiter, .fill frame tag)
  | .writeback frame (.writing tag snapshot waiter) => some (waiter, .write frame tag snapshot)
  | .syncing waiter => some (waiter, .sync)
  | _ => none

def Token.waiter? : Token n blockSize → Option WaiterId
  | .ticket waiter _ | .settledWaiter waiter => some waiter
  | token => token.purpose?.map (·.1)

def Token.isLoad : Token n blockSize → Bool
  | .load _ _ => true
  | _ => false

/-- Whether the token says anything about requests. -/
def Token.onRequests (token : Token n blockSize) : Bool := token.waiter?.isSome || token.isLoad

/-- The actions by which a thread waits for its requests or delivers one. -/
def Action.onWaiters : Action n blockSize → Bool
  | .newWaiter _ | .loadPending _ | .waiterStatus _ | .loadStopped | .completeWaiter _ _
  | .takeLoad _ => true
  | _ => false

/-- The actions by which operations start, count and lose their loads. -/
def Action.onOperationOwner : Action n blockSize → Bool
  | .newOperation | .addPending _ | .failSlot _ _ | .storeOperation _ _ => true
  | _ => false

/-- A token is about what the action deals with. -/
@[mk_iff] structure Token.Fits (action : Action n blockSize) (token : Token n blockSize) : Prop where
  undeposited : token.isDeposited = false
  operations : action.onOperationOwner = false → token.operation? = none
  requests : action.onWaiters = false → token.onRequests = false

attribute [local simp] Token.fits_iff Token.isDeposited Token.operation? Token.onRequests
  Token.waiter? Token.purpose? Token.isLoad Action.onWaiters Action.onOperationOwner
  Purpose.token Purpose.ready Purpose.waiting Purpose.done Purpose.failed

variable {action : Action n blockSize} {seen used D : Multiset (Token n blockSize)}
  {given : Reply action → Multiset (Token n blockSize) → Prop} {reply : Reply action}

theorem Trade.about (htrade : Trade action seen used given) (hgiven : given reply D) :
    ∀ token ∈ used + D, token.Fits action := by
  cases htrade with
  | reservePopped frame =>
      obtain ⟨-, hgiven⟩ := hgiven
      split at hgiven
      · simp [hgiven.2]
      · simp [hgiven]
  | reserveVictim frame =>
      split at hgiven
      · simp [hgiven.2]
      · simp [hgiven]
  | popFree =>
      subst hgiven
      cases reply <;> simp
  | nameSnapshot frame latch | takeSnapshot frame latch tag =>
      subst hgiven
      cases latch <;> simp [Latch.token]
  | install =>
      subst hgiven
      split <;> simp
  | unmap frame tag fill hfill | recordLoad frame tag fill hfill =>
      subst hgiven
      cases fill <;> simp_all
  | newWaiter purpose pending hcounts =>
      subst hgiven
      cases purpose <;> simp [Multiset.mem_replicate]
  | waiterStatus purpose waiter =>
      subst hgiven
      cases purpose <;> split <;> simp
  | loadStopped purpose waiter =>
      cases reply with
      | none =>
          cases hgiven
          cases purpose <;> simp
      | some status =>
          obtain ⟨-, rfl⟩ := hgiven
          cases purpose <;> simp
  | takeLoad id load => simp [hgiven.2]
  | tryPinResident | tryAcquireShared | publish | discard | queueWriteback | loadPending =>
      subst hgiven
      split <;> simp
  | _ =>
      subst hgiven
      simp only [Multiset.mem_add, Multiset.mem_singleton, Multiset.notMem_zero, zero_add, add_zero,
        forall_eq, or_imp, forall_and, false_imp_iff, implies_true, and_self, reduceCtorEq,
        Token.fits_iff, Token.isDeposited, Token.operation?, Token.onRequests, Token.waiter?,
        Token.purpose?, Token.isLoad, Action.onWaiters, Action.onOperationOwner,
        Option.isSome_none, Option.map_none, Bool.or_self]

end About

/-- Trades with a queue, a request or an operation. -/
inductive Handover : Rules (Action n blockSize) Reply (Multiset (Token n blockSize)) where
  | enqueueTask (task : FlushTask n blockSize) (h : task.clearDirtyOnSuccess = true) :
      Handover (.enqueueTask task) 0 {Shared.parkedTask task} fun status D =>
        D = if status = ok then 0 else {Shared.parkedTask task}
  | takeNextBatch (batchSize burstLimit consecutive : Nat) :
      Handover (.takeNextBatch batchSize burstLimit consecutive) 0 0 fun reply D =>
        (∀ task ∈ reply.1, task.clearDirtyOnSuccess = true) ∧
          D = ↑(reply.1.map Shared.parkedTask)
  | submit (purpose : Purpose n blockSize) (waiter : WaiterId)
      (request : DiskRequest n blockSize) (h : purpose.Asks waiter request) :
      Handover (.submitRequest request) (purpose.waiting waiter) {.ticket waiter none}
        fun refusal D => D = refusal.elim 0 fun status => {.ticket waiter (some status)}
  | submitLoad (load : AsyncLoad n) (id : LoadId) :
      Handover (.submitRequest (load.request id)) 0 ({.load id load} + load.tokens .empty)
        fun refusal D => refusal.elim (D = 0) fun status =>
          status ≠ ok ∧ D = {.load id load} + load.tokens .spoiled
  | reap :
      Handover .reap 0 0 fun reply D => reply.elim (D = 0) fun completion =>
        ∃ load, D = reapedTokens load completion.status completion.token
  | newLoad (load : AsyncLoad n) (h : load.Consecutive) :
      Handover (.newLoad load) 0 0 fun id D => D = {.load id load}
  | storeOperation (id : OperationId) (state : ReadBuffersState n)
      (held : Multiset (SlotPin n)) (uncounted : List (List (SlotPin n)))
      (hpending : state.waiter.pending = 0) (hmatched : state.Matched)
      (hslots : (state.slotPins : Multiset (SlotPin n)) = held + ↑uncounted.flatten) :
      Handover (.storeOperation id (some state)) 0 ({.operation id .fresh} + pinTokens held)
        fun _ D => D = {.operation id (.stored uncounted)}
  | completeOperation (id : OperationId) (pins : List (SlotPin n)) (status : Status) :
      Handover (.completeOperation id status) 0 ({.delivery id pins} + pinTokens pins)
        fun _ D => D = 0
  | finishOperation (id : OperationId) :
      Handover (.loadOperation id) 0 {.operation id (.stored [])} fun reply D =>
        ∃ state, reply = some state ∧ state.Matched ∧
          D = if state.waiter.pending = 0 then
              {.operation id .closing} + pinTokens state.slotPins
            else {.operation id (.stored [])}

inductive Rule : Rules (Action n blockSize) Reply (Multiset (Token n blockSize)) where
  | trade {action : Action n blockSize} {seen used : Multiset (Token n blockSize)}
      {given : Reply action → Multiset (Token n blockSize) → Prop}
      (h : Trade action seen used given) : Rule action seen used given
  | handover {action : Action n blockSize} {seen used : Multiset (Token n blockSize)}
      {given : Reply action → Multiset (Token n blockSize) → Prop}
      (h : Handover action seen used given) : Rule action seen used given

end TelePath
