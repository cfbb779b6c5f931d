import Mathlib.Tactic.FinCases
import TelePath.Guarantees.Handles

/-!
What the pool never loses: the pins, latches and frames that calls have taken, and the
bytes of its pages.
-/

namespace TelePath

open FrameControl Logic Manager

variable {n blockSize threads : Nat} {frame : Fin n} {right : Right}

/-- A handle gives a pin and a latch, and no other right that is counted on its own. -/
theorem held_grips_other (handles : List (Handle n))
    (hright : right ∉ [Right.pin, .shared, .exclusive]) :
    held (grips handles : Multiset (Token n blockSize)) frame right = 0 := by
  induction handles with
  | nil => rfl
  | cons handle rest ih =>
      rw [grips_cons, held_add, ih, Handle.grip]
      cases handle.exclusive <;> simp_all [Token.rights]

theorem Rights.held_other {handles : List (Handle n)} {rights : Multiset (Token n blockSize)}
    (h : Rights handles rights) (hright : right ≠ .reader ∧ right ≠ .writer) :
    held rights frame right = 0 := by
  induction h with
  | nil => rfl
  | @cons handle _ _ mark _ _ ih =>
      rw [held_add, ih, Handle.latch]
      cases handle.exclusive <;> simp [Latch.token, Token.rights, hright]

theorem Client.Owns.held_eq {client : Client n} {share : Multiset (Token n blockSize)}
    (h : client.Owns share) (hright : right ≠ .reader ∧ right ≠ .writer) :
    held share frame right =
      held (grips client.handles : Multiset (Token n blockSize)) frame right := by
  obtain ⟨rights, kept, left, hrights, ⟨support, -, rfl⟩, hleft, rfl⟩ := h
  -- operations come with no right over a frame
  have hnone : ∀ tokens : Multiset (Token n blockSize),
      (∀ token ∈ tokens, ∃ id, token = .operation id (.stored [])) →
        held tokens frame right = 0 := by
    intro tokens htokens
    refine tally_eq_zero fun token hmem => ?_
    obtain ⟨id, rfl⟩ := htokens token hmem
    simp [Token.rights]
  rw [held_add, held_add, held_add, hrights.held_other hright, hnone left hleft]
  refine Nat.add_eq_left.mpr (hnone _ fun token hmem => ?_)
  obtain ⟨index, -, hindex⟩ := Multiset.mem_sum.mp hmem
  cases hid : client.operations index <;> simp_all

theorem held_parkedTasks (tasks : List (FlushTask n blockSize)) (frame : Fin n) :
    held ((tasks.map Shared.parkedTask : List (Token n blockSize)) : Multiset (Token n blockSize))
      frame .queued = (tasks.map (·.frame)).count frame := by
  induction tasks with
  | nil => rfl
  | cons task rest ih =>
      rw [List.map_cons, ← Multiset.cons_coe, held_cons, ih, List.map_cons, List.count_cons]
      simp [Shared.parkedTask, Token.rights, WritebackStage.active, WritebackStage.latch?,
        @eq_comm _ frame, Nat.add_comm]

/-- The loops of the background threads, where a round starts. -/
inductive RoundStart : Prog n blockSize Unit → Prop where
  | flushWorker (batchSize burstLimit consecutive : Nat) :
      RoundStart (.repeatUntil (flushRound batchSize burstLimit) consecutive)
  | cleaner (high low : Nat) : RoundStart (Manager.cleaner high low)
  | reaper : RoundStart reaper

def Activity.isIdle : Activity n blockSize → Bool
  | .idle => true
  | _ => false

/-- No call is running, and a background thread is at the start of its loop or waits there for
something to do. -/
def Activity.Rests : Activity n blockSize → Prop
  | .idle => True
  | .calling _ _ => False
  | .background rest => ∃ loop, RoundStart loop ∧ (rest = loop ∨ rest = loop.enter)

/-- What a background thread owns where it rests comes with no right over a frame: it could
end its loop there. -/
theorem RoundStart.held_eq {loop : Prog n blockSize Unit} (h : RoundStart loop)
    {share : Multiset (Token n blockSize)}
    (hshare : Ensures Rule 0 loop.enter (fun _ Q => Q = 0) share) : held share frame right = 0 := by
  cases h with
  | flushWorker batchSize burstLimit consecutive =>
      obtain ⟨_, _, _, kept, _, -, rfl, hrule, hrest⟩ := hshare
      obtain htrade | hhandover := hrule
      · cases htrade with
        | silent hsilent => cases hsilent
      · cases hhandover
        have hkept : 0 + kept = 0 := hrest ([], 0) 0 ⟨by simp, rfl⟩
        rw [hkept]
        rfl
  | cleaner high low =>
      obtain ⟨_, _, _, kept, _, -, rfl, hrule, hrest⟩ := hshare
      obtain htrade | hhandover := hrule
      · cases htrade
        have hkept : 0 + kept = 0 := hrest true 0 rfl
        rw [hkept]
        rfl
      · cases hhandover
  | reaper =>
      obtain ⟨_, _, _, kept, _, -, rfl, hrule, hrest⟩ := hshare
      obtain htrade | hhandover := hrule
      · cases htrade with
        | silent hsilent => cases hsilent
      · cases hhandover
        obtain ⟨_, _, used, kept', _, -, hkept, hrule, hrest⟩ := hrest none 0 rfl
        rw [hkept]
        have stopped : Error := ⟨.unavailable, "", 0⟩
        obtain htrade | hhandover := hrule
        · cases htrade with
          | silent =>
              have hkept' : 0 + kept' = 0 := hrest (some (some stopped)) 0 rfl
              rw [hkept']
              rfl
          | loadStopped purpose waiter =>
              have hkept' : purpose.failed + kept' = 0 :=
                hrest (some (some stopped)) _ ⟨Option.some_ne_none _, rfl⟩
              obtain ⟨hfailed, rfl⟩ := add_eq_zero.mp hkept'
              -- only a thread that syncs is left with nothing
              cases purpose with
              | sync => rfl
              | _ => exact absurd hfailed (Multiset.singleton_ne_zero _)
        · cases hhandover

/-- No call is running, no request or task is pending, and no asynchronous read is open. -/
def System.Quiet (system : System n blockSize threads) : Prop :=
  (∀ id, (system.thread id).activity.Rests) ∧ system.shared.inFlight.isEmpty = true ∧
    system.shared.completions.isEmpty = true ∧
    (system.shared.foregroundQueue ++ system.shared.backgroundQueue).isEmpty = true ∧
    ∀ id < system.shared.nextId, (system.shared.operations id).isNone = true

section Run

variable {options : Options} {start system : System n blockSize threads}
  {trace : Trace n blockSize threads}

theorem held_of_quiet (hinitial : Initial start) (hrun : Run options start trace system)
    (hquiet : system.Quiet) : ∃ all : Multiset (Token n blockSize), Control system.shared all ∧
      ∀ frame right, right ≠ .reader ∧ right ≠ .writer →
        held all frame right =
          held (grips system.liveHandles : Multiset (Token n blockSize)) frame right := by
  obtain ⟨hrests, hsent, hdone, htasks, hclosed⟩ := hquiet
  rw [List.isEmpty_iff] at hsent hdone htasks
  obtain ⟨shares, hsound, -⟩ := hrun.accounted hinitial (fun _ _ _ => True) trivial
    fun _ _ _ _ _ _ _ _ _ _ => trivial
  obtain ⟨-, deposit, hdeposit, hbooks⟩ := hsound.inv
  have hparked : system.shared.parked = 0 := by simp [Shared.parked, hsent, hdone, htasks]
  -- a deposit would belong to an operation that is still open
  have hempty : deposit = 0 := by
    refine Multiset.eq_zero_of_forall_notMem fun token hmem => ?_
    have hall : token ∈ ∑ id, shares id + system.shared.parked + deposit := mem_rest hmem
    cases token with
    | deposited id pin =>
        obtain ⟨stage, hstage⟩ | ⟨uncounted, hopen⟩ := hbooks.operations.owned _ hall id rfl
        · cases hstage
        · obtain ⟨state, hstate, -⟩ := hbooks.operations.stored id uncounted hopen
          have hnone := hclosed id (hbooks.operations.fresh _ hall id rfl)
          simp [hstate] at hnone
    | _ => cases hdeposit _ hmem
  refine ⟨_, hbooks.control, fun frame right hright => ?_⟩
  rw [hparked, hempty, add_zero, add_zero, System.liveHandles, grips_flatMap, ← Fin.sum_univ_def]
  simp only [held, tally, ← Multiset.coe_countPAddMonoidHom, map_sum]
  refine Finset.sum_congr rfl fun id _ => ?_
  have howns := hsound.owns id
  cases hactivity : (system.thread id).activity with
  | idle =>
      rw [Contract.Owns, hactivity] at howns
      rw [Thread.liveHandles, hactivity]
      exact Client.Owns.held_eq howns hright
  | calling => simpa [hactivity, Activity.Rests] using hrests id
  | background rest =>
      rw [Contract.Owns, hactivity] at howns
      rw [Thread.liveHandles, hactivity]
      have hrest := hrests id
      rw [hactivity] at hrest
      obtain ⟨loop, hloop, rfl | rfl⟩ := hrest
      · exact hloop.held_eq howns.enter
      · exact hloop.held_eq howns

theorem Step.thread_eq {system' : System n blockSize threads} {entry : Entry n blockSize threads}
    (h : Step options system entry system') {id : Fin threads} (hother : entry.thread ≠ some id) :
    system'.thread id = system.thread id := by
  have hset : ∀ thread acting, some acting ≠ some id →
      Function.update system.thread acting thread id = system.thread id :=
    fun _ _ hne => Function.update_of_ne (fun heq => hne (congrArg some heq.symm)) _ _
  cases h with
  | park | complete | stopEngine => rfl
  | _ => exact hset _ _ hother

theorem Run.thread_eq (h : Run options start trace system) {id : Fin threads}
    (hother : ∀ entry ∈ trace, entry.thread ≠ some id) : system.thread id = start.thread id := by
  induction h with
  | start => rfl
  | step _ hstep ih =>
      obtain ⟨hentry, hrest⟩ := List.forall_mem_cons.mp hother
      exact (hstep.thread_eq hentry).trans (ih hrest)

/-- A pool with one client, a flush worker and the reaper. -/
def attended : System 2 1 3 where
  shared := (System.fresh fun _ => .absent : System 2 1 3).shared
  thread := ![{}, { activity := .background (flushWorker 1 1) },
    { activity := .background reaper }]

theorem attended_initial : Initial attended := by
  refine ⟨(System.fresh_initial fun _ => .absent : Initial (_ : System 2 1 3)).shared, ?_, ?_⟩
  · intro id
    fin_cases id <;> rfl
  · intro id
    fin_cases id
    · exact .inl rfl
    · exact .inr (.inl ⟨1, 1, rfl⟩)
    · exact .inr (.inr (.inr rfl))

/-- A client holds a new page, which it has marked. -/
theorem exists_run_marked : ∃ (trace : Trace 2 1 3) (system : System 2 1 3),
    Run ⟨.direct, 1⟩ attended trace system ∧ system.Quiet ∧
      Undisturbed trace.events ∧ system.shared.freeList = [0] ∧
        (fields (system.shared.word 1)).exclusive = true := by
  obtain ⟨trace, system, hrun, htest⟩ := @exists_run_of_play 2 1 3 ⟨.direct, 1⟩ attended
    (.invoke 0 (.readBufferExclusive {} none .zeroAndLock) :: turnsOf 0 19 ++
      .invoke 0 (.mutableData 0) :: turnsOf 0 4)
    (fun reached => (∀ entry ∈ reached.1, entry.thread = some 0) ∧
      (reached.2.thread 0).activity.isIdle = true ∧
      reached.2.shared.inFlight.isEmpty = true ∧ reached.2.shared.completions.isEmpty = true ∧
      (reached.2.shared.foregroundQueue ++ reached.2.shared.backgroundQueue).isEmpty = true ∧
      (∀ id < reached.2.shared.nextId, (reached.2.shared.operations id).isNone = true) ∧
      Undisturbed reached.1.events ∧
      reached.2.shared.freeList = [0] ∧ (fields (reached.2.shared.word 1)).exclusive = true)
    (by decide +kernel)
  obtain ⟨hclient, hidle, hsent, hdone, htasks, hclosed, hcalm⟩ := of_decide_eq_true htest
  have hrests : ∀ id, (system.thread id).activity.Rests := by
    intro id
    by_cases hid : id = 0
    · subst hid
      cases hactivity : (system.thread 0).activity <;>
        simp_all [Activity.isIdle, Activity.Rests]
    · have hothers : ∀ entry ∈ trace, entry.thread ≠ some id := fun entry hmem heq =>
        hid (Option.some.inj (heq.symm.trans (hclient _ hmem)))
      rw [hrun.thread_eq hothers]
      fin_cases id
      · exact absurd rfl hid
      · exact ⟨_, .flushWorker 1 1 0, .inl rfl⟩
      · exact ⟨_, .reaper, .inl rfl⟩
  exact ⟨trace, system, hrun, ⟨hrests, hsent, hdone, htasks, hclosed⟩, hcalm⟩

end Run

end TelePath
