import TelePath.Buffer.CleanerQueue
import TelePath.Schedule

/-!
The cleaner's candidate queue in runs of the buffer manager.
-/

namespace TelePath

open Logic Manager

variable {n blockSize threads : Nat}

def Action.onCleaner : Action n blockSize → Option (CleanerState n) → Option (CleanerState n)
  | .resetCandidate frame, cleaner => cleaner.map (·.resetCandidate frame)
  | .enqueueCandidate frame, cleaner => cleaner.map (·.enqueueCandidate frame)
  | .cleanerFlushScheduled, cleaner => cleaner.map (·.onFlushScheduled)
  | .cleanerFlushFinished, cleaner => cleaner.map (·.onFlushFinished)
  | .takeCandidate, cleaner => cleaner.map (·.takeCandidate.2)
  | _, cleaner => cleaner

theorem exec_cleaner {shared shared' : Shared n blockSize} {choice : Choice n}
    {action : Action n blockSize} {reply : Reply action}
    (hexec : exec shared choice action = some (reply, shared')) :
    shared'.cleaner = action.onCleaner shared.cleaner := by
  cases action
  case waitTask task =>
      obtain ⟨_, -, heq⟩ := Option.map_eq_some_iff.mp hexec
      cases heq
      rfl
  case tryPinResident frame =>
      obtain ⟨_, -, heq⟩ := Option.map_eq_some_iff.mp hexec
      cases heq
      rfl
  case reap =>
      simp only [exec] at hexec
      split at hexec
      · cases hexec
        rfl
      · obtain ⟨_, -, heq⟩ := Option.map_eq_some_iff.mp hexec
        cases heq
        rfl
  case takeCandidate =>
      simp only [exec] at hexec
      split at hexec
      all_goals
        rename_i hcleaner
        cases hexec
        simp [Action.onCleaner, hcleaner]
  all_goals first
    | (cases hexec
       rfl)
    | (simp only [exec] at hexec
       repeat' split at hexec
       all_goals first
         | (cases hexec; done)
         | (cases hexec; rfl))

theorem Step.cleaner {options : Options} {system system' : System n blockSize threads}
    {entry : Entry n blockSize threads} (h : Step options system entry system') :
    ∃ action : Action n blockSize,
      system'.shared.cleaner = action.onCleaner system.shared.cleaner := by
  have hprogram : ∀ {α : Type} {shared shared' : Shared n blockSize}
      {rest rest' : Prog n blockSize α} {event : Event n blockSize},
      ProgramStep shared rest event shared' rest' →
        ∃ action : Action n blockSize, shared'.cleaner = action.onCleaner shared.cleaner := by
    rintro α shared shared' rest rest' event (hexec | _)
    · exact ⟨_, exec_cleaner hexec⟩
    · exact ⟨.loadFailed, rfl⟩
  cases h with
  | call _ hstep => exact hprogram hstep
  | background _ hstep => exact hprogram hstep
  | complete _ =>
      refine ⟨.loadFailed, ?_⟩
      simp only [Shared.complete, Shared.performRequest, Shared.failRequest]
      grind [Action.onCleaner]
  | _ => exact ⟨.loadFailed, rfl⟩

/-- The step resets no frame that is flagged as a candidate. -/
def System.keepsCandidates (system system' : System n blockSize threads) : Bool :=
  match system.shared.cleaner, system'.shared.cleaner with
  | some cleaner, some cleaner' => decide (∀ frame,
      cleaner'.generation frame = cleaner.generation frame ∨ cleaner.enqueued frame = false)
  | _, _ => true

theorem CleanerState.Fresh.onCleaner {cleaner cleaner' : CleanerState n} (h : Fresh cleaner)
    {action : Action n blockSize} (hnext : action.onCleaner (some cleaner) = some cleaner')
    (hkeeps : ∀ frame,
      cleaner'.generation frame = cleaner.generation frame ∨ cleaner.enqueued frame = false) :
    Fresh cleaner' := by
  cases action
  case resetCandidate frame =>
      cases hnext
      refine h.resetCandidate ?_
      simpa using hkeeps frame
  case enqueueCandidate frame =>
      cases hnext
      exact h.enqueueCandidate frame
  case takeCandidate =>
      cases hnext
      exact h.takeCandidate
  case cleanerFlushScheduled | cleanerFlushFinished =>
      cases hnext
      exact ⟨⟨h.made, h.count⟩, h.current⟩
  all_goals
    cases hnext
    exact h

/-- As long as no flagged frame is reset, the queue has at most one entry for each frame. -/
theorem candidate_queue_bounded {options : Options} {start system : System n blockSize threads}
    {trace : Trace n blockSize threads} (hinitial : Initial start)
    (hrun : RunWhere System.keepsCandidates options start trace system)
    {cleaner : CleanerState n} (hcleaner : system.shared.cleaner = some cleaner) :
    cleaner.queue.length ≤ n := by
  suffices hfresh : ∀ cleaner, system.shared.cleaner = some cleaner → cleaner.Fresh from
    (hfresh cleaner hcleaner).length_le
  clear hcleaner
  induction hrun with
  | start =>
      intro cleaner hcleaner
      obtain ⟨files, segment, enabled, strategies, hshared⟩ := hinitial.shared
      rw [hshared, Shared.initial] at hcleaner
      obtain rfl : cleaner = {} := by
        cases enabled <;> simp_all
      exact ⟨⟨nofun, fun _ => rfl⟩, nofun⟩
  | @step trace system system' entry run next meets ih =>
      intro cleaner' hcleaner'
      obtain ⟨action, haction⟩ := next.cleaner
      rw [hcleaner'] at haction
      cases hbefore : system.shared.cleaner with
      | none =>
          rw [hbefore] at haction
          cases action <;> cases haction
      | some cleaner =>
          rw [hbefore] at haction
          rw [System.keepsCandidates, hbefore, hcleaner'] at meets
          exact (ih cleaner hbefore).onCleaner haction.symm (of_decide_eq_true meets)

/-- A pool of two frames with a client and a cleaner whose high watermark is the pool. -/
def cleanedPool : System 2 1 2 where
  shared := .initial (fun _ => .absent) false true fun _ => (.normal, 0)
  thread id := if id = 1 then { activity := .background (Manager.cleaner 2 1) } else {}

theorem cleanedPool_initial : Initial cleanedPool where
  shared := ⟨_, _, _, _, rfl⟩
  client id := by
    by_cases hid : id = 1 <;> simp [cleanedPool, hid]
  activity id := by
    by_cases hid : id = 1
    · exact .inr (.inr (.inl ⟨2, 1, by simp [cleanedPool, hid]⟩))
    · exact .inl (by simp [cleanedPool, hid])

def changePage (steps : Nat) : List (Turn 2 1 2) :=
  .invoke 0 (.readBufferExclusive {} none .zeroAndLock) :: turnsOf 0 steps ++
    .invoke 0 (.mutableData 0) :: turnsOf 0 4 ++ .invoke 0 (.release 0) :: turnsOf 0 5

def flushPage : List (Turn 2 1 2) :=
  .invoke 0 (.flushBuffer {}) :: turnsOf 0 22 ++ .complete 0 ok (fun _ => zeroPage 1) ::
    turnsOf 0 2 ++ .thread 0 { completion := some 0 } :: turnsOf 0 20

/-- A changed page is a candidate. -/
theorem candidate_queue_bounded_changed : ∃ trace system cleaner,
    RunWhere System.keepsCandidates ⟨.direct, 1⟩ cleanedPool trace system ∧
      system.shared.cleaner = some cleaner ∧ cleaner.queue.length = 1 ∧
      cleaner.queue.length ≤ 2 := by
  obtain ⟨trace, system, hrun, htest⟩ := @exists_runWhere_of_play 2 1 2 ⟨.direct, 1⟩
    System.keepsCandidates cleanedPool (changePage 19)
    (fun reached => reached.2.shared.cleaner.any (·.queue.length = 1)) (by decide +kernel)
  obtain ⟨cleaner, hcleaner, hlength⟩ := (Option.any_eq_true _ _).mp htest
  exact ⟨trace, system, cleaner, hrun, hcleaner, of_decide_eq_true hlength,
    candidate_queue_bounded cleanedPool_initial hrun hcleaner⟩

/-- A client that changes and flushes one page in turn leaves an entry each time, while the
cleaner sleeps. -/
theorem candidate_queue_exceeds_pool : ∃ trace system cleaner, Initial cleanedPool ∧
    Run ⟨.direct, 1⟩ cleanedPool trace system ∧ system.shared.dirtyPageCount.toNat < 2 ∧
      system.shared.cleaner = some cleaner ∧ 2 < cleaner.queue.length := by
  obtain ⟨trace, system, hrun, htest⟩ := @exists_run_of_play 2 1 2 ⟨.direct, 1⟩ cleanedPool
    (changePage 19 ++ flushPage ++ changePage 10 ++ flushPage ++ changePage 10)
    (fun reached => reached.2.shared.dirtyPageCount.toNat < 2 ∧
      reached.2.shared.cleaner.any (2 < ·.queue.length)) (by decide +kernel)
  obtain ⟨hdirty, hany⟩ := of_decide_eq_true htest
  obtain ⟨cleaner, hcleaner, hlength⟩ := (Option.any_eq_true _ _).mp hany
  exact ⟨trace, system, cleaner, cleanedPool_initial, hrun, hdirty, hcleaner,
    of_decide_eq_true hlength⟩

end TelePath
