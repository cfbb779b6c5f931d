import TelePath.Manager.Calls

/-!
The background threads: flush workers, the cleaner and the reaper.
-/

namespace TelePath.Manager

open FrameControl Logic Program

variable {n blockSize : Nat}

/-- Starts every task of a batch and gives each its own waiter. -/
def startTasks : List (FlushTask n blockSize) →
    Prog n blockSize (List (FlushTask n blockSize × WaiterId))
  | [] => return []
  | task :: rest => do
      beginFlushTask task
      let waiter ← act (.newWaiter 1)
      return (task, waiter) :: (← startTasks rest)

def completeTask (task : FlushTask n blockSize) (status : Status) : Prog n blockSize Unit := do
  finalizeFlushTask task status
  act (.completeTask task.id status)

/-- One turn of `BufferManagerFlushScheduler::Run`; the state counts foreground tasks in a
row. -/
def flushRound (batchSize burstLimit consecutive : Nat) : Prog n blockSize (Nat ⊕ Unit) := do
  let (tasks, consecutive) ← act (.takeNextBatch batchSize burstLimit consecutive)
  if tasks.isEmpty then return .inr ()
  let started ← startTasks tasks
  submit (started.map fun (task, waiter) =>
    ⟨.waiter waiter, .write task.snapshot, task.tag⟩)
  forEach started fun (task, waiter) => do completeTask task (← wait waiter)
  return .inl consecutive

def flushWorker (batchSize burstLimit : Nat) : Prog n blockSize Unit :=
  repeatUntil (flushRound batchSize burstLimit) 0

def scheduleCleanerFlush (frame : Fin n) : Prog n blockSize Unit := do
  let created ← tryScheduleFlushTask frame false true true
  match created.task with
  | .ok (some _) => return ()
  | _ => act (.record .cleanerFlushSkipped)

def seedCleanerCandidates : List (Fin n) → Prog n blockSize Unit
  | [] => return ()
  | frame :: rest => do
      if shouldQueueCleanerCandidate (← act (.loadWord frame)) then act (.enqueueCandidate frame)
      seedCleanerCandidates rest

/-- One turn of the inner loop of `Run`: `some true` ends the thread and
`some false` goes back to sleep. -/
def cleanerRound (high low : Nat) : Prog n blockSize (Option Bool) := do
  match ← act (.cleanerTurn high low) with
  | .stop => return some true
  | .rest => return some false
  | .awaitBudget => do
      act (.awaitFlushBudget high low)
      return none
  | .seed => do
      -- seeding runs without the latch, so the queue is looked at again after it
      seedCleanerCandidates (List.finRange n)
      let (wasEmpty, candidate) ← act .takeCandidate
      if wasEmpty then return some false
      forM candidate scheduleCleanerFlush
      return none
  | .take => do
      let (_, candidate) ← act .takeCandidate
      forM candidate scheduleCleanerFlush
      return none

def cleaner (high low : Nat) : Prog n blockSize Unit :=
  forever do
    if ← act (.awaitDirtyPages high) then return some ()
    if ← forever (cleanerRound high low) then return some ()
    return none

/-- The reaper delivers completions until the engine stops. -/
def reaper : Prog n blockSize Unit :=
  forever do
    if ← reapReady then return none
    return (← act .loadStopped).map fun _ => ()

end TelePath.Manager
