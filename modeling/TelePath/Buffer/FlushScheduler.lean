import Mathlib.Data.Fintype.Basic
import Mathlib.Logic.Function.Basic
import TelePath.Logic.Machine

/-!
The flush scheduler of `flush_scheduler.cc` after `Start`.

Everything done under `latch_` is one step, except that a worker keeps the latch while it
picks its batch task by task.  A worker whose wait finds nothing to do falls asleep in the
same step; `Enqueue` wakes one sleeper if there is one, `Shutdown` wakes them all, and a
worker may also wake up by itself.  The writes of a batch are submitted and waited for
outside of the latch.  Accepted tasks are numbered, which the code does not do, and the log
records what has happened to them.
-/

namespace TelePath.FlushScheduler

structure Task where
  ticket : Nat
  cleanerOwned : Bool
  deriving DecidableEq, Repr

/-- What happens to tasks, and the two ends of `Shutdown`: its flag is set, it returns. -/
inductive Event (workers : Nat) where
  | accepted (task : Task)
  | rejected (cleanerOwned : Bool)
  | taken (worker : Fin workers) (task : Task)
  | started (worker : Fin workers) (task : Task)
  | submitted (worker : Fin workers) (task : Task)
  | notified (worker : Fin workers) (task : Task)
  | completed (worker : Fin workers) (task : Task)
  | stopping
  | stopped
  deriving DecidableEq, Repr

/-- Where a worker stands: at the head of `Run`, asleep in its wait, picking a batch with
the latch held, calling the start callbacks of a batch, waiting for the writes of what is
left of a batch, or between the completion callback of a task and its `Complete`. -/
inductive Phase where
  | waiting
  | asleep
  | picking (batch : List Task)
  | starting (started rest : List Task)
  | completing (rest : List Task)
  | notified (task : Task) (rest : List Task)
  | exited
  deriving DecidableEq, Repr

/-- How far `Shutdown` is: not called, its flag is set, it joins the workers, it has
returned. -/
inductive Closing where
  | running
  | flagged
  | joining (next : Nat)
  | closed
  deriving DecidableEq, Repr

structure Config where
  submitBatchSize : Nat
  foregroundBurstLimit : BitVec 64
  deriving DecidableEq, Repr

structure State (workers : Nat) where
  foreground : List Task := []
  background : List Task := []
  shutdown : Bool := false
  closing : Closing := .running
  latch : Option (Fin workers) := none
  phases : Fin workers → Phase := fun _ => .waiting
  consecutiveForegroundFlushes : Fin workers → BitVec 64 := fun _ => 0
  tickets : Nat := 0
  log : List (Event workers) := []

namespace State

variable {workers : Nat}

def setPhase (state : State workers) (worker : Fin workers) (phase : Phase) : State workers :=
  { state with phases := Function.update state.phases worker phase }

def record (state : State workers) (events : List (Event workers)) : State workers :=
  { state with log := state.log ++ events }

/-- A sleeper goes back to its wait. -/
def wake (state : State workers) (worker : Fin workers) : State workers :=
  if state.phases worker = .asleep then state.setPhase worker .waiting else state

/-- The next task joins the queue of its class. -/
def push (state : State workers) (cleanerOwned : Bool) : State workers :=
  let task : Task := ⟨state.tickets, cleanerOwned⟩
  { state with
    foreground := if cleanerOwned then state.foreground else state.foreground ++ [task]
    background := if cleanerOwned then state.background ++ [task] else state.background
    tickets := state.tickets + 1 }.record [.accepted task]

def enqueue (state : State workers) (cleanerOwned : Bool) (sleeper : Option (Fin workers)) :
    State workers :=
  if state.shutdown then state.record [.rejected cleanerOwned]
  else
    match sleeper with
    | none => state.push cleanerOwned
    | some worker => (state.push cleanerOwned).wake worker

/-- `notify_one` reaches a sleeper if there is one. -/
def MayNotify (state : State workers) : Option (Fin workers) → Prop
  | none => ∀ worker, state.phases worker ≠ .asleep
  | some worker => state.phases worker = .asleep

instance (state : State workers) (sleeper : Option (Fin workers)) :
    Decidable (state.MayNotify sleeper) :=
  match sleeper with
  | none => inferInstanceAs (Decidable (∀ worker, state.phases worker ≠ .asleep))
  | some worker => inferInstanceAs (Decidable (state.phases worker = .asleep))

/-- The wait of `TakeNextBatch` and the check behind it, which ends the worker when the
scheduler is shut down and the queues are empty. -/
def takeNextBatch (state : State workers) (worker : Fin workers) : State workers :=
  if state.foreground.isEmpty && state.background.isEmpty then
    if state.shutdown then state.setPhase worker .exited else state.setPhase worker .asleep
  else { state with latch := some worker }.setPhase worker (.picking [])

def shouldServeBackground (config : Config) (state : State workers) (worker : Fin workers) : Bool :=
  !state.background.isEmpty &&
    config.foregroundBurstLimit ≤ state.consecutiveForegroundFlushes worker

/-- The next task of the background queue joins the batch. -/
def takeBackground (state : State workers) (worker : Fin workers) (batch : List Task) :
    State workers :=
  match state.background with
  | [] => state
  | task :: rest =>
      { state with
        background := rest
        consecutiveForegroundFlushes :=
          Function.update state.consecutiveForegroundFlushes worker 0 }.setPhase worker
            (.picking (batch ++ [task])) |>.record [.taken worker task]

/-- The next task of the foreground queue joins the batch. -/
def takeForeground (state : State workers) (worker : Fin workers) (batch : List Task) :
    State workers :=
  match state.foreground with
  | [] => state
  | task :: rest =>
      { state with
        foreground := rest
        consecutiveForegroundFlushes :=
          Function.update state.consecutiveForegroundFlushes worker
            (state.consecutiveForegroundFlushes worker + 1) }.setPhase worker
            (.picking (batch ++ [task])) |>.record [.taken worker task]

/-- The batch is complete: the latch is released, and `Run` goes on with the batch, or from
its head if the batch is empty. -/
def leaveBatch (state : State workers) (worker : Fin workers) (batch : List Task) :
    State workers :=
  { state with latch := none }.setPhase worker
    (if batch.isEmpty then .waiting else .starting [] batch)

/-- One round of the loop of `TakeNextBatch`. -/
def pick (config : Config) (state : State workers) (worker : Fin workers) (batch : List Task) :
    State workers :=
  if batch.length < config.submitBatchSize then
    if state.shouldServeBackground config worker then state.takeBackground worker batch
    else if !state.foreground.isEmpty then state.takeForeground worker batch
    else if state.background.isEmpty then state.leaveBatch worker batch
    else state.takeBackground worker batch
  else state.leaveBatch worker batch

/-- A worker goes on. -/
def work (config : Config) (state : State workers) (worker : Fin workers) :
    Option (State workers) :=
  match state.phases worker with
  | .waiting => if state.latch = none then some (state.takeNextBatch worker) else none
  | .asleep | .exited => none
  | .picking batch => some (state.pick config worker batch)
  | .starting started (task :: rest) =>
      some ((state.setPhase worker (.starting (started ++ [task]) rest)).record
        [.started worker task])
  | .starting started [] =>
      some ((state.setPhase worker (.completing started)).record
        (started.map (.submitted worker)))
  | .completing (task :: rest) =>
      some ((state.setPhase worker (.notified task rest)).record [.notified worker task])
  | .completing [] => some (state.setPhase worker .waiting)
  | .notified task rest =>
      some ((state.setPhase worker (.completing rest)).record [.completed worker task])

/-- `Shutdown` up to the flag; a second call finds `started_` false and returns. -/
def shutDown (state : State workers) : Option (State workers) :=
  match state.closing with
  | .running =>
      if state.latch = none then
        some ({ state with shutdown := true, closing := .flagged }.record [.stopping])
      else none
  | .closed => some (state.record [.stopped])
  | _ => none

/-- `Shutdown` behind the flag: it wakes all sleepers, joins the workers and returns. -/
def close (state : State workers) : Option (State workers) :=
  match state.closing with
  | .flagged =>
      some { state with
        closing := .joining 0
        phases := fun worker =>
          if state.phases worker = .asleep then .waiting else state.phases worker }
  | .joining next =>
      if h : next < workers then
        if state.phases ⟨next, h⟩ = .exited then
          some { state with closing := .joining (next + 1) }
        else none
      else if state.latch = none then
        some ({ state with closing := .closed }.record [.stopped])
      else none
  | _ => none

end State

inductive Move (workers : Nat) where
  | enqueue (cleanerOwned : Bool) (sleeper : Option (Fin workers))
  | work (worker : Fin workers)
  | wake (worker : Fin workers)
  | shutDown
  | close
  deriving DecidableEq, Repr

def step {workers : Nat} (config : Config) (state : State workers) :
    Move workers → Option (State workers)
  | .enqueue cleanerOwned sleeper =>
      if state.latch = none ∧ state.MayNotify sleeper then
        some (state.enqueue cleanerOwned sleeper)
      else none
  | .work worker => state.work config worker
  | .wake worker => some (state.wake worker)
  | .shutDown => state.shutDown
  | .close => state.close

end TelePath.FlushScheduler
