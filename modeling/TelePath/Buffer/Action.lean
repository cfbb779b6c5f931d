import TelePath.Logic.Program
import TelePath.Buffer.State

/-!
The atomic steps of the buffer manager.  One action is one CAS, one load or
store of a word, one critical section of the page table, the free list, the
replacer, the cleaner or the scheduler, one copy of a block, or one call into the
backend.  A wait is an action that is not enabled while its condition holds.
-/

namespace TelePath

open FrameControl

/-- The conditions threads sleep on through `WaitWhile`. -/
inductive WaitCondition where
  | hasWriteback
  | latched
  | loadingTag (tag : BufferTag)
  deriving DecidableEq, Repr

inductive ReadBufferMode where
  | normal
  | zeroAndLock
  deriving DecidableEq, Repr

/-- A latch that is taken for a handle, and an LSN that is lowered for one, carry the
page of that handle; `none` is a flusher's.  Only the events of a run read it. -/
inductive Action (n blockSize : Nat) where
  | loadWord (frame : Fin n)
  | tryPinResident (frame : Fin n)
  | unpin (frame : Fin n)
  | tryReserve (frame : Fin n) (poppedFromFreeList : Bool)
  | publishResident (frame : Fin n) (releasePin : Bool)
  | releaseToFree (frame : Fin n)
  | tryDiscardPinned (frame : Fin n)
  | markDirty (frame : Fin n)
  | tryAcquireShared (frame : Fin n)
  | acquireShared (frame : Fin n) (handle : Option BufferTag)
  | releaseShared (frame : Fin n)
  | acquireExclusive (frame : Fin n) (handle : BufferTag) (mode : ReadBufferMode)
  | releaseExclusive (frame : Fin n) (handle : BufferTag)
  | tryQueueWriteback (frame : Fin n) (skipIfPinned : Bool)
  | beginWriteback (frame : Fin n)
  | cancelQueuedWriteback (frame : Fin n)
  | completeWriteback (frame : Fin n) (succeeded : Bool)
  | waitWhile (frame : Fin n) (condition : WaitCondition)
  | loadTag (frame : Fin n)
  | storeTag (frame : Fin n) (tag : BufferTag)
  | bumpVersion (frame : Fin n)
  | loadRecLsn (frame : Fin n)
  | storeRecLsn (frame : Fin n) (lsn : Lsn)
  | lowerRecLsn (frame : Fin n) (lsn : Lsn) (handle : Option BufferTag)
  | loadWritebackRecLsn (frame : Fin n)
  | storeWritebackRecLsn (frame : Fin n) (lsn : Lsn)
  | loadWritebackError (frame : Fin n)
  | storeWritebackError (frame : Fin n) (packed : BitVec 32)
  | lookupFrameId (tag : BufferTag)
  | replaceUnlessLive (oldTag : Option BufferTag) (newTag : BufferTag) (frame : Fin n)
  | removeMapping (tag : BufferTag) (frame : Fin n)
  | pushFree (frame : Fin n)
  | popFree
  | recordAccess (frame : Fin n)
  | recordLoad (frame : Fin n)
  | removeTracked (frame : Fin n)
  | victim
  | zeroFrame (frame : Fin n)
  | copyFrame (frame : Fin n)
  | writeFrame (frame : Fin n) (page : Page blockSize)
  | addDirtyPages (amount : BitVec 64)
  | loadFailed
  | loadClosed
  | newWaiter (pending : Nat)
  | submitRequest (request : DiskRequest n blockSize)
  | loadPending (waiter : WaiterId)
  | reap
  | completeWaiter (waiter : WaiterId) (status : Status)
  | waiterStatus (waiter : WaiterId)
  | loadStopped
  | takeLoad (load : LoadId)
  | failSlot (operation : OperationId) (slot : Nat)
  | completeOperation (operation : OperationId) (status : Status)
  | finishPrefetch
  | startPrefetch
  | loadPrefetchesInFlight
  | newLoad (load : AsyncLoad n)
  | newOperation
  | loadOperation (operation : OperationId)
  | storeOperation (operation : OperationId) (state : Option (ReadBuffersState n))
  | addPending (operation : OperationId)
  | newTask
  | enqueueTask (task : FlushTask n blockSize)
  | waitTask (task : TaskId)
  | takeNextBatch (batchSize burstLimit consecutive : Nat)
  | completeTask (task : TaskId) (status : Status)
  | recordWrittenFile (file : FileId)
  | noteLocalWrittenFile (file : FileId)
  | takeLocalWrittenFiles
  | takeSharedWrittenFiles
  | eraseLocalWrittenFile (file : FileId)
  | eraseSharedWrittenFile (file : FileId)
  | resetCandidate (frame : Fin n)
  | enqueueCandidate (frame : Fin n)
  | cleanerFlushScheduled
  | cleanerFlushFinished
  | awaitDirtyPages (highWatermark : Nat)
  | awaitFlushBudget (highWatermark lowWatermark : Nat)
  | cleanerTurn (highWatermark lowWatermark : Nat)
  | takeCandidate
  | record (event : TelemetryEvent)
  | loadStrategyRecords (strategy : StrategyId)
  | nextRingFrame (strategy : StrategyId)
  | rememberRingFrame (strategy : StrategyId) (frame : Fin n)
  | preWriteHook (tag : BufferTag) (snapshot : Page blockSize)

/-- What the cleaner finds to do under its latch. -/
inductive CleanerTurn where
  | stop
  | rest
  | awaitBudget
  | seed
  | take
  deriving DecidableEq, Repr

/-- What each action returns to the thread that performs it. -/
@[reducible] def Reply {n blockSize : Nat} : Action n blockSize → Type
  | .loadWord _ => Word
  | .tryPinResident _ => Bool
  | .unpin _ => Option Word
  | .tryReserve _ _ => ReserveOutcome × Word
  | .tryDiscardPinned _ => DiscardOutcome × Option Word
  | .markDirty _ => Option Bool
  | .tryAcquireShared _ => Bool
  | .tryQueueWriteback _ _ => QueueOutcome
  | .completeWriteback _ _ => WritebackCompletion
  | .waitWhile _ _ => Word
  | .loadTag _ => BufferTag
  | .loadRecLsn _ => Lsn
  | .loadWritebackRecLsn _ => Lsn
  | .loadWritebackError _ => BitVec 32
  | .lookupFrameId _ => Option (Fin n)
  | .replaceUnlessLive _ _ _ => Option (Fin n)
  | .popFree => Option (Fin n)
  | .victim => Option (Fin n)
  | .copyFrame _ => Page blockSize
  | .loadFailed => Bool
  | .loadClosed => Bool
  | .recordWrittenFile _ => Bool
  | .newWaiter _ => WaiterId
  | .submitRequest _ => Option Status
  | .loadPending _ => Nat
  | .reap => Option DiskCompletion
  | .waiterStatus _ => Status
  | .loadStopped => Option Status
  | .takeLoad _ => AsyncLoad n
  | .preWriteHook _ _ => Status
  | .awaitDirtyPages _ => Bool
  | .cleanerTurn _ _ => CleanerTurn
  | .takeCandidate => Bool × Option (Fin n)
  | .takeNextBatch _ _ _ => List (FlushTask n blockSize) × Nat
  | .loadPrefetchesInFlight => Nat
  | .newLoad _ => LoadId
  | .newOperation => OperationId
  | .loadOperation _ => Option (ReadBuffersState n)
  | .loadStrategyRecords _ => Bool
  | .nextRingFrame _ => Option Nat
  | .newTask => TaskId
  | .enqueueTask _ => Status
  | .waitTask _ => Status
  | .takeLocalWrittenFiles => List FileId
  | .takeSharedWrittenFiles => List FileId
  | _ => Unit

namespace Shared

variable {n blockSize : Nat}

def isLoadingTag (shared : Shared n blockSize) (frame : Fin n) (tag : BufferTag) : Bool :=
  state (shared.word frame) = .loading ∧ (shared.descriptors frame).tag = tag

def isLiveFor (shared : Shared n blockSize) (tag : BufferTag) (frame : Fin n) : Bool :=
  state (shared.word frame) ≠ .free ∧ (shared.descriptors frame).tag = tag

/-- `FrameEvictionProbe::IsEvictable`. -/
def isEvictable (shared : Shared n blockSize) (frame : Fin n) : Bool :=
  let word := shared.word frame
  isResident word ∧ pins word = 0 ∧ !hasAny (kLatchMask ||| kWritebackMask) word

def blocked (shared : Shared n blockSize) (frame : Fin n) : WaitCondition → Bool
  | .hasWriteback => hasWriteback (shared.word frame)
  | .latched => latched (shared.word frame)
  | .loadingTag tag => shared.isLoadingTag frame tag

end Shared

/-- What the source leaves open: which frame the replacer nominates, whether the
backend accepts a request or a hook allows a write, and which completion a reap
returns. -/
structure Choice (n : Nat) where
  frame : Option (Fin n) := none
  rejection : Status := ok
  completion : Option Nat := none
  deriving DecidableEq, Repr

/-- Adds a file to a list of written files unless it is there already. -/
def noteFile (files : List FileId) (file : FileId) : List FileId :=
  if file ∈ files then files else files ++ [file]

variable {n blockSize : Nat}

/-- The loop of `TakeNextBatch` over both queues: what it takes, what it leaves and
how many foreground tasks in a row the worker has served. -/
def takeBatch (burstLimit : Nat) : (room : Nat) → (consecutive : Nat) →
    (foreground background : List (FlushTask n blockSize)) →
      List (FlushTask n blockSize) × Nat ×
        List (FlushTask n blockSize) × List (FlushTask n blockSize)
  | 0, consecutive, foreground, background => ([], consecutive, foreground, background)
  | room + 1, consecutive, foreground, background =>
      match foreground, background with
      | [], [] => ([], consecutive, [], [])
      | [], task :: rest =>
          let (tasks, left) := takeBatch burstLimit room 0 [] rest
          (task :: tasks, left)
      | task :: rest, [] =>
          let (tasks, left) := takeBatch burstLimit room (consecutive + 1) rest []
          (task :: tasks, left)
      | front :: foreground, back :: background =>
          if burstLimit ≤ consecutive then
            let (tasks, left) := takeBatch burstLimit room 0 (front :: foreground) background
            (back :: tasks, left)
          else
            let (tasks, left) :=
              takeBatch burstLimit room (consecutive + 1) foreground (back :: background)
            (front :: tasks, left)

/-- An update of one control word together with what it returns. -/
def Shared.updateWord {α : Type} (shared : Shared n blockSize) (frame : Fin n)
    (update : Word → α × Word) : α × Shared n blockSize :=
  let (reply, next) := update (shared.word frame)
  (reply, shared.setWord frame next)

theorem Shared.updateWord_eq {α : Type} {shared shared' : Shared n blockSize} {frame : Fin n}
    {update : Word → α × Word} {reply : α}
    (h : some (shared.updateWord frame update) = some (reply, shared')) :
    reply = (update (shared.word frame)).1 ∧
      shared' = shared.setWord frame (update (shared.word frame)).2 := by
  cases h
  exact ⟨rfl, rfl⟩

/-- Performs one action; `none` when it is not enabled. -/
def exec (shared : Shared n blockSize) (choice : Choice n) :
    (action : Action n blockSize) → Option (Reply action × Shared n blockSize)
  | .loadWord frame => some (shared.word frame, shared)
  | .tryPinResident frame =>
      (tryPinResident (shared.word frame)).map fun (pinned, next) =>
        (pinned, shared.setWord frame next)
  | .unpin frame => some (shared.updateWord frame unpin)
  | .tryReserve frame popped => some (shared.updateWord frame (tryReserve popped))
  | .publishResident frame releasePin =>
      some ((), shared.setWord frame (publishResident releasePin (shared.word frame)).1)
  | .releaseToFree frame => some ((), shared.setWord frame (releaseToFree (shared.word frame)).1)
  | .tryDiscardPinned frame =>
      some (shared.updateWord frame fun word =>
        ((tryDiscardPinned word).1, (tryDiscardPinned word).2.1))
  | .markDirty frame => some (shared.updateWord frame markDirty)
  | .tryAcquireShared frame => some (shared.updateWord frame tryAcquireShared)
  | .acquireShared frame _ =>
      match tryAcquireShared (shared.word frame) with
      | (true, next) => some ((), shared.setWord frame next)
      | (false, _) => none
  | .releaseShared frame => some ((), shared.setWord frame (releaseShared (shared.word frame)).1)
  | .acquireExclusive frame _ _ =>
      match tryAcquireExclusive (shared.word frame) with
      | (true, next) => some ((), shared.setWord frame next)
      | (false, _) => none
  | .releaseExclusive frame _ =>
      some ((), shared.setWord frame (releaseExclusive (shared.word frame)).1)
  | .tryQueueWriteback frame skip => some (shared.updateWord frame (tryQueueWriteback skip))
  | .beginWriteback frame => some ((), shared.setWord frame (beginWriteback (shared.word frame)).1)
  | .cancelQueuedWriteback frame =>
      some ((), shared.setWord frame (cancelQueuedWriteback (shared.word frame)).1)
  | .completeWriteback frame succeeded =>
      some (shared.updateWord frame fun word =>
        ((completeWriteback succeeded word).1, (completeWriteback succeeded word).2.1))
  | .waitWhile frame condition =>
      if shared.blocked frame condition then none else some (shared.word frame, shared)
  -- A tag is two relaxed words, stored by the owner of a frame that is loading or free.  Others
  -- load it under a pin, or compare it with a tag the frame had: a mixture of both words then
  -- equals that tag only where they agree, as before the store.
  | .loadTag frame => some ((shared.descriptors frame).tag, shared)
  | .storeTag frame tag => some ((), shared.setDescriptor frame ({ · with tag := tag }))
  | .bumpVersion frame =>
      some ((), shared.setDescriptor frame fun descriptor =>
        { descriptor with version := descriptor.version + 1#64 })
  | .loadRecLsn frame => some ((shared.descriptors frame).recLsn, shared)
  | .storeRecLsn frame lsn => some ((), shared.setDescriptor frame ({ · with recLsn := lsn }))
  | .lowerRecLsn frame lsn _ =>
      some ((), shared.setDescriptor frame fun descriptor =>
        { descriptor with recLsn := lowerRecLsn descriptor.recLsn lsn })
  | .loadWritebackRecLsn frame => some ((shared.descriptors frame).writebackRecLsn, shared)
  | .storeWritebackRecLsn frame lsn =>
      some ((), shared.setDescriptor frame ({ · with writebackRecLsn := lsn }))
  | .loadWritebackError frame => some ((shared.descriptors frame).lastWritebackError, shared)
  | .storeWritebackError frame packed =>
      some ((), shared.setDescriptor frame ({ · with lastWritebackError := packed }))
  | .lookupFrameId tag => some (shared.pageTable.lookupFrameId tag, shared)
  | .replaceUnlessLive oldTag newTag frame =>
      let (existing, table) :=
        shared.pageTable.replaceUnlessLive oldTag newTag frame (shared.isLiveFor newTag)
      some (existing, { shared with pageTable := table })
  | .removeMapping tag frame =>
      some ((), { shared with pageTable := shared.pageTable.remove tag frame })
  | .pushFree frame => some ((), { shared with freeList := frame :: shared.freeList })
  | .popFree => some (shared.freeList.head?, { shared with freeList := shared.freeList.tail })
  -- an access only reorders the replacer's candidates
  | .recordAccess _ => some ((), shared)
  | .recordLoad frame =>
      some ((), { shared with tracked := Function.update shared.tracked frame true })
  | .removeTracked frame =>
      some ((), { shared with tracked := Function.update shared.tracked frame false })
  | .victim =>
      match choice.frame with
      | none => some (none, shared)
      | some frame => if shared.isEvictable frame then some (some frame, shared) else none
  | .zeroFrame frame =>
      some ((), { shared with
        frameData := Function.update shared.frameData frame (zeroPage blockSize) })
  | .copyFrame frame => some (shared.frameData frame, shared)
  | .writeFrame frame page =>
      some ((), { shared with frameData := Function.update shared.frameData frame page })
  | .addDirtyPages amount =>
      some ((), { shared with dirtyPageCount := shared.dirtyPageCount + amount })
  | .loadFailed => some (shared.failed, shared)
  | .loadClosed => some (shared.closed, shared)
  | .newWaiter pending =>
      some (shared.nextId, { shared with
        nextId := shared.nextId + 1
        waiters := Function.update shared.waiters shared.nextId { pending := pending } })
  -- `some status` is a request that was not accepted and is delivered with `status`
  | .submitRequest request =>
      if shared.stopped then some (some shared.stopStatus, shared)
      else if choice.rejection = ok then
        some (none, { shared with inFlight := shared.inFlight ++ [request] })
      else some (some choice.rejection, shared)
  | .loadPending waiter => some ((shared.waiters waiter).pending, shared)
  | .reap =>
      match choice.completion with
      | none => some (none, shared)
      | some index =>
          shared.completions[index]?.map fun completion =>
            (some completion, { shared with completions := shared.completions.eraseIdx index })
  | .completeWaiter waiter status =>
      some ((), { shared with
        waiters := Function.update shared.waiters waiter
          ((shared.waiters waiter).complete status) })
  | .waiterStatus waiter => some ((shared.waiters waiter).error, shared)
  | .loadStopped => some (if shared.stopped then some shared.stopStatus else none, shared)
  | .takeLoad load => some (shared.loads load, shared)
  | .failSlot operation slot =>
      some ((), { shared with
        operations := Function.update shared.operations operation
          ((shared.operations operation).map fun state =>
            { state with slots := state.slots.set slot .failed }) })
  | .completeOperation operation status =>
      some ((), { shared with
        operations := Function.update shared.operations operation
          ((shared.operations operation).map fun state =>
            { state with waiter := state.waiter.complete status }) })
  | .finishPrefetch => some ((), { shared with prefetchesInFlight := shared.prefetchesInFlight - 1 })
  | .startPrefetch => some ((), { shared with prefetchesInFlight := shared.prefetchesInFlight + 1 })
  | .loadPrefetchesInFlight => some (shared.prefetchesInFlight, shared)
  | .newLoad load =>
      some (shared.nextId, { shared with
        nextId := shared.nextId + 1
        loads := Function.update shared.loads shared.nextId load })
  | .newOperation => some (shared.nextId, { shared with nextId := shared.nextId + 1 })
  | .loadOperation operation => some (shared.operations operation, shared)
  | .storeOperation operation state =>
      some ((), { shared with
        operations := Function.update shared.operations operation state })
  | .addPending operation =>
      some ((), { shared with
        operations := Function.update shared.operations operation
          ((shared.operations operation).map fun state =>
            { state with waiter := { state.waiter with
              pending := state.waiter.pending + 1 } }) })
  | .newTask => some (shared.nextId, { shared with nextId := shared.nextId + 1 })
  | .enqueueTask task =>
      if shared.schedulerShutdown then
        some (some { code := .unavailable, message := "flush scheduler is shutting down" }, shared)
      else if task.cleanerOwned then
        some (ok, { shared with backgroundQueue := shared.backgroundQueue ++ [task] })
      else some (ok, { shared with foregroundQueue := shared.foregroundQueue ++ [task] })
  | .waitTask task => (shared.taskStatus task).map fun status => (status, shared)
  -- a worker sleeps while both queues are empty and the scheduler runs
  | .takeNextBatch batchSize burstLimit consecutive =>
      if shared.foregroundQueue = [] ∧ shared.backgroundQueue = [] then
        if shared.schedulerShutdown then some (([], consecutive), shared) else none
      else
        let (tasks, consecutive, foreground, background) :=
          takeBatch burstLimit batchSize consecutive shared.foregroundQueue shared.backgroundQueue
        some ((tasks, consecutive),
          { shared with foregroundQueue := foreground, backgroundQueue := background })
  | .completeTask task status =>
      some ((), { shared with
        taskStatus := Function.update shared.taskStatus task (some status) })
  -- without a segment the process keeps its own list; the segment's table is bounded
  | .recordWrittenFile file =>
      match shared.segmentFiles with
      | none => some (true, { shared with writtenFiles := noteFile shared.writtenFiles file })
      | some files =>
          if file ∈ files then some (true, shared)
          else if files.length = kSharedWrittenFilesCapacity then some (false, shared)
          else some (true, { shared with segmentFiles := some (files ++ [file]) })
  | .noteLocalWrittenFile file =>
      some ((), { shared with writtenFiles := noteFile shared.writtenFiles file })
  | .takeLocalWrittenFiles => some (shared.writtenFiles, { shared with writtenFiles := [] })
  | .takeSharedWrittenFiles =>
      some (shared.segmentFiles.getD [],
        { shared with segmentFiles := shared.segmentFiles.map fun _ => [] })
  | .eraseLocalWrittenFile file =>
      some ((), { shared with writtenFiles := shared.writtenFiles.filter (· ≠ file) })
  | .eraseSharedWrittenFile file =>
      some ((), { shared with
        segmentFiles := shared.segmentFiles.map fun files => files.filter (· ≠ file) })
  | .resetCandidate frame =>
      some ((), { shared with cleaner := shared.cleaner.map (·.resetCandidate frame) })
  | .enqueueCandidate frame =>
      some ((), { shared with cleaner := shared.cleaner.map (·.enqueueCandidate frame) })
  | .cleanerFlushScheduled =>
      some ((), { shared with cleaner := shared.cleaner.map (·.onFlushScheduled) })
  | .cleanerFlushFinished =>
      some ((), { shared with cleaner := shared.cleaner.map (·.onFlushFinished) })
  | .preWriteHook _ _ => some (choice.rejection, shared)
  | .loadStrategyRecords strategy => some ((shared.strategies strategy).recordsAccesses, shared)
  | .nextRingFrame strategy =>
      let (frame, next) := (shared.strategies strategy).nextRingFrame
      some (frame, { shared with strategies := Function.update shared.strategies strategy next })
  | .rememberRingFrame strategy frame =>
      some ((), { shared with
        strategies := Function.update shared.strategies strategy
          ((shared.strategies strategy).rememberRingFrame frame) })
  -- sleeps below the high watermark; the reply is whether the cleaner shuts down
  | .awaitDirtyPages high =>
      if shared.cleanerShutdown then some (true, shared)
      else if high ≤ shared.dirtyPageCount.toNat then some (false, shared)
      else none
  | .awaitFlushBudget high low =>
      let dirty := shared.dirtyPageCount.toNat
      let inflight := (shared.cleaner.map (·.inflightFlushes)).getD 0
      if shared.cleanerShutdown ∨ dirty < high ∨ inflight < CleanerState.flushBudget low dirty then
        some ((), shared)
      else none
  | .cleanerTurn high low =>
      let dirty := shared.dirtyPageCount.toNat
      let budget := CleanerState.flushBudget low dirty
      let cleaner := shared.cleaner.getD {}
      some (if shared.cleanerShutdown then .stop
        else if dirty < high ∨ budget = 0 then .rest
        else if budget ≤ cleaner.inflightFlushes then .awaitBudget
        else if cleaner.queue = [] then .seed
        else .take, shared)
  -- whether the queue was empty, and the candidate taken
  | .takeCandidate =>
      match shared.cleaner with
      | none => some ((true, none), shared)
      | some cleaner =>
          let (frame, next) := cleaner.takeCandidate
          some ((cleaner.queue.isEmpty, frame), { shared with cleaner := some next })
  | .record event => some ((), { shared with telemetry := shared.telemetry ++ [event] })

end TelePath
