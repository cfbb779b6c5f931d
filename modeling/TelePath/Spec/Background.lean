import TelePath.Spec.Loads

/-!
What the background threads need and what they leave: nothing, from one round to the next.
-/

namespace TelePath

open FrameControl Logic Manager
open Program (uses_ite uses_seq)

variable {n blockSize : Nat} {context : Multiset (Token n blockSize)}

/-- What a worker waits for when it has started a task. -/
def FlushTask.purpose (task : FlushTask n blockSize) : Purpose n blockSize :=
  .write task.frame task.tag task.snapshot

/-- The writebacks of the tasks that a worker has started. -/
def startedTokens (started : List (FlushTask n blockSize × WaiterId)) :
    Multiset (Token n blockSize) :=
  (started.map fun (task, waiter) => task.purpose.waiting waiter).sum

theorem startTasks_spec (tasks : List (FlushTask n blockSize))
    (hclear : ∀ task ∈ tasks, task.clearDirtyOnSuccess = true) :
    Ensures Rule context (startTasks tasks)
      (fun started Q => (∀ item ∈ started, item.1.clearDirtyOnSuccess = true) ∧
        Q = startedTokens started + (started.map fun (_, waiter) => {.ticket waiter none}).sum)
      (tasks.map Shared.parkedTask : List (Token n blockSize)) := by
  induction tasks with
  | nil => exact ⟨List.forall_mem_nil _, rfl⟩
  | cons task rest ih =>
      have hfirst := hclear task (List.mem_cons_self ..)
      have htasks : (((task :: rest).map Shared.parkedTask : List (Token n blockSize)) :
          Multiset (Token n blockSize)) = {Shared.parkedTask task} +
            (rest.map Shared.parkedTask : List (Token n blockSize)) := rfl
      refine (beginFlushTask_spec task hfirst).call htasks ?_
      rintro _ _ rfl
      refine ensures_act (.trade (.newWaiter task.purpose 1 rfl)) rfl (zero_add _).symm ?_
      rintro waiter _ rfl
      refine (ih fun other hmem => hclear other (List.mem_cons_of_mem _ hmem)).call
        (add_comm _ _) ?_
      rintro started _ ⟨hstarted, rfl⟩
      refine ⟨List.forall_mem_cons.mpr ⟨hfirst, hstarted⟩, ?_⟩
      simp only [startedTokens, List.map_cons, List.sum_cons, Multiset.replicate_one]
      abel

theorem completeTask_spec (task : FlushTask n blockSize) (status : Status)
    (hclear : task.clearDirtyOnSuccess = true) :
    Ensures Rule context (completeTask task status) (fun _ Q => Q = 0)
      {.writeback task.frame (task.ended status)} := by
  refine (finalizeFlushTask_spec task status hclear).seq ?_
  rintro _ _ rfl
  exact ensures_of_silent (silent_act rfl rfl)

theorem submitStarted_spec (started : List (FlushTask n blockSize × WaiterId)) :
    Ensures Rule (context + startedTokens started)
      (submit (started.map fun (task, waiter) =>
        ⟨.waiter waiter, .write task.snapshot, task.tag⟩))
      (fun _ Q => Q = 0) (started.map fun (_, waiter) => {.ticket waiter none}).sum := by
  refine submit_spec started _ _ ?_
  rintro ⟨task, waiter⟩ hmem
  obtain ⟨before, after, rfl⟩ := List.append_of_mem hmem
  have hsplit : context + startedTokens (before ++ (task, waiter) :: after) =
      context + startedTokens (before ++ after) + task.purpose.waiting waiter := by
    simp only [startedTokens, List.map_append, List.map_cons, List.sum_append, List.sum_cons]
    abel
  rw [hsplit]
  exact submitOne_spec task.purpose waiter _ rfl rfl

theorem awaitTask_spec (task : FlushTask n blockSize) (waiter : WaiterId)
    (hclear : task.clearDirtyOnSuccess = true) :
    Ensures Rule context (do completeTask task (← wait waiter)) (fun _ Q => Q = 0)
      (task.purpose.waiting waiter) := by
  refine (wait_spec task.purpose waiter).seq ?_
  rintro status _ rfl
  have hended : (if status = ok then task.purpose.done else task.purpose.failed) =
      {.writeback task.frame (task.ended status)} := by
    rw [FlushTask.ended]
    split <;> rfl
  rw [hended]
  exact completeTask_spec task status hclear

theorem completeStarted_spec (started : List (FlushTask n blockSize × WaiterId))
    (hclear : ∀ item ∈ started, item.1.clearDirtyOnSuccess = true) :
    Ensures Rule context
      (Program.forEach started fun (task, waiter) => do completeTask task (← wait waiter))
      (fun _ Q => Q = 0) (startedTokens started) := by
  induction started with
  | nil => rfl
  | cons item rest ih =>
      obtain ⟨hfirst, hrest⟩ := List.forall_mem_cons.mp hclear
      refine (awaitTask_spec item.1 item.2 hfirst).call rfl ?_
      rintro _ _ rfl
      rw [zero_add]
      exact ih hrest

theorem flushWorker_spec (batchSize burstLimit : Nat) :
    Ensures Rule context (flushWorker batchSize burstLimit : Prog n blockSize Unit)
      (fun _ Q => Q = 0) 0 := by
  refine ensures_loop (fun _ Q => Q = 0) rfl ?_
  rintro consecutive _ rfl
  refine ensures_act (.handover (.takeNextBatch batchSize burstLimit consecutive)) (zero_add _).symm
    (zero_add _).symm ?_
  rintro ⟨tasks, count⟩ _ ⟨hclear, rfl⟩
  cases tasks with
  | nil => rfl
  | cons task rest =>
      rw [add_zero]
      refine (startTasks_spec (task :: rest) hclear).seq ?_
      rintro started _ ⟨hstarted, rfl⟩
      refine (submitStarted_spec started).callLent (add_comm _ _) ?_
      rintro _ _ rfl
      rw [zero_add]
      refine (completeStarted_spec started hstarted).seq ?_
      rintro _ _ rfl
      rfl

theorem scheduleCleanerFlush_spec (frame : Fin n) :
    Ensures Rule context (scheduleCleanerFlush frame : Prog n blockSize Unit)
      (fun _ Q => Q = 0) 0 := by
  refine (tryScheduleFlushTask_spec frame .reader false true true).seq ?_
  rintro ⟨task, wasBusy⟩ _ rfl
  match task with
  | .ok (some task) => rfl
  | .ok none => exact ensures_of_silent (silent_act rfl rfl)
  | .error error => exact ensures_of_silent (silent_act rfl rfl)

theorem cleanerRound_spec (high low : Nat) :
    Ensures Rule context (cleanerRound high low : Prog n blockSize (Option Bool))
      (fun _ Q => Q = 0) 0 := by
  have htake : ∀ candidate : Option (Fin n), Ensures Rule context
      (do
        forM candidate scheduleCleanerFlush
        return none : Prog n blockSize (Option Bool)) (fun _ Q => Q = 0) 0 := by
    intro candidate
    cases candidate with
    | none => rfl
    | some frame =>
        refine (scheduleCleanerFlush_spec frame).seq ?_
        rintro _ _ rfl
        rfl
  refine ensures_silent rfl fun turn => ?_
  cases turn with
  | stop => rfl
  | rest => rfl
  | awaitBudget => exact ensures_silent rfl fun _ => rfl
  | seed =>
      refine ensures_after_silent (silent_seedCleanerCandidates _) fun _ => ?_
      refine ensures_silent rfl fun taken => ?_
      obtain ⟨wasEmpty, candidate⟩ := taken
      cases wasEmpty with
      | true => rfl
      | false => exact htake candidate
  | take => exact ensures_silent rfl fun taken => htake taken.2

theorem cleaner_spec (high low : Nat) :
    Ensures Rule context (Manager.cleaner high low : Prog n blockSize Unit)
      (fun _ Q => Q = 0) 0 := by
  have hrounds : Ensures Rule context
      (Program.forever (cleanerRound high low) : Prog n blockSize Bool) (fun _ Q => Q = 0) 0 := by
    refine ensures_forever (fun Q => Q = 0) rfl ?_
    rintro _ rfl
    refine (cleanerRound_spec high low).mono ?_
    rintro (_ | stop) _ rfl <;> rfl
  refine ensures_forever (fun Q => Q = 0) rfl ?_
  rintro _ rfl
  refine ensures_silent rfl fun shutdown => ?_
  cases shutdown with
  | true => rfl
  | false =>
      refine hrounds.seq ?_
      rintro stop _ rfl
      cases stop <;> rfl

theorem reaper_spec :
    Ensures Rule context (reaper : Prog n blockSize Unit) (fun _ Q => Q = 0) 0 := by
  refine ensures_forever (fun Q => Q = 0) rfl ?_
  rintro _ rfl
  refine reapReady_spec.seq ?_
  rintro reaped _ rfl
  cases reaped with
  | true => rfl
  | false =>
      refine ensures_silent rfl fun stopped => ?_
      cases stopped <;> rfl

end TelePath
