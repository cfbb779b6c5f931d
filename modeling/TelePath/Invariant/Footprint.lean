import TelePath.Buffer.Action

/-!
What an action leaves alone: which actions change nothing but counters and lists that
no token speaks about, and which keep requests or operations as they are.
-/

namespace TelePath

open FrameControl

variable {n blockSize : Nat} {shared shared' : Shared n blockSize} {choice : Choice n}
  {action : Action n blockSize} {reply : Reply action}

/-- Actions that change nothing the tokens speak about. -/
def Action.isSilent : Action n blockSize → Bool
  | .loadWord _ | .waitWhile _ _ | .loadTag _ | .bumpVersion _ | .loadRecLsn _ | .storeRecLsn _ _
  | .lowerRecLsn _ _ _ | .loadWritebackRecLsn _ | .storeWritebackRecLsn _ _ | .loadWritebackError _ | .storeWritebackError _ _
  | .lookupFrameId _ | .recordAccess _ | .victim | .addDirtyPages _ | .loadFailed | .loadClosed
  | .finishPrefetch | .startPrefetch | .loadPrefetchesInFlight | .loadOperation _ | .newTask
  | .loadStopped | .waitTask _ | .completeTask _ _ | .recordWrittenFile _ | .noteLocalWrittenFile _
  | .takeLocalWrittenFiles | .takeSharedWrittenFiles | .eraseLocalWrittenFile _
  | .eraseSharedWrittenFile _ | .resetCandidate _ | .enqueueCandidate _
  | .cleanerFlushScheduled | .cleanerFlushFinished | .awaitDirtyPages _ | .awaitFlushBudget _ _
  | .cleanerTurn _ _ | .takeCandidate | .record _ | .loadStrategyRecords _ | .nextRingFrame _
  | .rememberRingFrame _ _ | .preWriteHook _ _ => true
  | _ => false

/-- Silent actions that have to do with the count of dirty pages or of the cleaner's tasks. -/
def Action.isBooked : Action n blockSize → Bool
  | .addDirtyPages _ | .lowerRecLsn _ _ (some _) | .cleanerFlushScheduled
  | .cleanerFlushFinished => true
  | _ => false

/-- Two states agree on everything the tokens speak about. -/
structure Shared.Agrees (shared shared' : Shared n blockSize) : Prop where
  word : ∀ frame, shared'.word frame = shared.word frame
  tag : ∀ frame, (shared'.descriptors frame).tag = (shared.descriptors frame).tag
  frameData : shared'.frameData = shared.frameData
  pageTable : shared'.pageTable = shared.pageTable
  freeList : shared'.freeList = shared.freeList
  tracked : shared'.tracked = shared.tracked
  files : shared'.files = shared.files
  inFlight : shared'.inFlight = shared.inFlight
  completions : shared'.completions = shared.completions
  waiters : shared'.waiters = shared.waiters
  loads : shared'.loads = shared.loads
  operations : shared'.operations = shared.operations
  foregroundQueue : shared'.foregroundQueue = shared.foregroundQueue
  backgroundQueue : shared'.backgroundQueue = shared.backgroundQueue
  stopped : shared'.stopped = shared.stopped
  stopStatus : shared'.stopStatus = shared.stopStatus
  nextId : shared.nextId ≤ shared'.nextId

theorem Shared.Agrees.refl (shared : Shared n blockSize) : shared.Agrees shared := by
  constructor <;> intros <;> rfl

theorem Shared.Agrees.setDescriptor (shared : Shared n blockSize) (frame : Fin n)
    {update : BufferDescriptor → BufferDescriptor}
    (h : ∀ old, (update old).control = old.control ∧ (update old).tag = old.tag) :
    shared.Agrees (shared.setDescriptor frame update) := by
  have hat : ∀ other, (shared.setDescriptor frame update).descriptors other =
      if other = frame then update (shared.descriptors other) else shared.descriptors other := by
    intro other
    by_cases hne : other = frame
    · subst hne
      simp [Shared.setDescriptor]
    · simp [Shared.setDescriptor, hne]
  constructor
  case word => intro other; simp only [Shared.word, hat]; split <;> simp [h]
  case tag => intro other; rw [hat]; split <;> simp [h]
  all_goals rfl

theorem exec_silent (hsilent : action.isSilent = true)
    (hexec : exec shared choice action = some (reply, shared')) : shared.Agrees shared' := by
  cases action
  case bumpVersion frame | storeWritebackError frame _ | storeRecLsn frame _
      | storeWritebackRecLsn frame _ | lowerRecLsn frame _ _ =>
      cases hexec
      exact Shared.Agrees.setDescriptor shared frame fun _ => ⟨rfl, rfl⟩
  case waitWhile frame condition =>
      simp only [exec] at hexec
      split at hexec
      · cases hexec
      · cases hexec
        exact .refl shared
  case victim =>
      simp only [exec] at hexec
      split at hexec
      · cases hexec
        exact .refl shared
      · split at hexec
        · cases hexec
          exact .refl shared
        · cases hexec
  case waitTask task =>
      obtain ⟨status, -, heq⟩ := Option.map_eq_some_iff.mp hexec
      cases heq
      exact .refl shared
  case recordWrittenFile file =>
      simp only [exec] at hexec
      repeat' split at hexec
      all_goals
        cases hexec
        constructor <;> intros <;> rfl
  case awaitDirtyPages high =>
      simp only [exec] at hexec
      repeat' split at hexec
      all_goals
        cases hexec
        try exact .refl shared
  case awaitFlushBudget high low =>
      simp only [exec] at hexec
      split at hexec
      · cases hexec
        exact .refl shared
      · cases hexec
  case takeCandidate =>
      simp only [exec] at hexec
      split at hexec
      all_goals
        cases hexec
        constructor <;> intros <;> rfl
  all_goals first
    | exact Bool.noConfusion hsilent
    | (cases hexec
       constructor <;> intros <;> first | rfl | exact Nat.le_succ _)

def Action.onRequests : Action n blockSize → Bool
  | .newWaiter _ | .submitRequest _ | .reap | .completeWaiter _ _ | .newLoad _ | .enqueueTask _
  | .takeNextBatch _ _ _ => true
  | _ => false

def Action.onOperations : Action n blockSize → Bool
  | .failSlot _ _ | .completeOperation _ _ | .storeOperation _ _ | .addPending _ => true
  | _ => false

structure Shared.SameRequests (shared shared' : Shared n blockSize) : Prop where
  inFlight : shared'.inFlight = shared.inFlight
  completions : shared'.completions = shared.completions
  waiters : shared'.waiters = shared.waiters
  loads : shared'.loads = shared.loads
  foregroundQueue : shared'.foregroundQueue = shared.foregroundQueue
  backgroundQueue : shared'.backgroundQueue = shared.backgroundQueue
  stopped : shared'.stopped = shared.stopped
  stopStatus : shared'.stopStatus = shared.stopStatus
  nextId : shared.nextId ≤ shared'.nextId

def Action.onBytes : Action n blockSize → Bool
  | .zeroFrame _ | .writeFrame _ _ => true
  | _ => false

/-- What an action leaves as it was. -/
structure Action.Keeps (action : Action n blockSize) (shared shared' : Shared n blockSize) :
    Prop where
  requests : action.onRequests = false → shared.SameRequests shared'
  operations : action.onOperations = false → shared'.operations = shared.operations
  frameData : action.onBytes = false → shared'.frameData = shared.frameData
  files : shared'.files = shared.files
  stopped : shared'.stopped = shared.stopped
  nextId : shared.nextId ≤ shared'.nextId

theorem exec_keeps (hexec : exec shared choice action = some (reply, shared')) :
    action.Keeps shared shared' := by
  cases action
  case tryPinResident frame =>
      obtain ⟨_, -, heq⟩ := Option.map_eq_some_iff.mp hexec
      cases heq
      exact ⟨fun _ => by constructor <;> rfl, fun _ => rfl, fun _ => rfl, rfl, rfl, le_rfl⟩
  case waitTask task =>
      obtain ⟨_, -, heq⟩ := Option.map_eq_some_iff.mp hexec
      cases heq
      exact ⟨fun _ => by constructor <;> rfl, fun _ => rfl, fun _ => rfl, rfl, rfl, le_rfl⟩
  case reap =>
      simp only [exec] at hexec
      split at hexec
      · cases hexec
        exact ⟨fun _ => by constructor <;> rfl, fun _ => rfl, fun _ => rfl, rfl, rfl, le_rfl⟩
      · obtain ⟨_, -, heq⟩ := Option.map_eq_some_iff.mp hexec
        cases heq
        exact ⟨fun h => Bool.noConfusion h, fun _ => rfl, fun _ => rfl, rfl, rfl, le_rfl⟩
  all_goals first
    | (cases hexec
       exact ⟨fun h => by first | exact Bool.noConfusion h | constructor <;>
         first | rfl | exact Nat.le_succ _,
         fun h => by first | rfl | exact Bool.noConfusion h,
         fun h => by first | rfl | exact Bool.noConfusion h, rfl, rfl,
         by first | exact le_rfl | exact Nat.le_succ _⟩)
    | (simp only [exec] at hexec
       repeat' split at hexec
       all_goals first
         | (cases hexec; done)
         | (cases hexec
            exact ⟨fun h => by first | exact Bool.noConfusion h | constructor <;> rfl,
              fun h => rfl, fun h => rfl, rfl, rfl, le_rfl⟩))

end TelePath
