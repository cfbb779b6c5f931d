import Mathlib.Data.Fintype.Option
import TelePath.Io.EngineDelivery

/-!
What `IoEngine::Wait` returns, and when.  A waiter that has counted down to zero has no
request anywhere, so nothing touches it any more; only a `Wait` that finds the engine
stopped returns while requests are on their way.
-/

namespace TelePath.IoEngine

open Logic

variable {Thread : Type} [DecidableEq Thread] {engine next : Engine Thread}
  {thread : Option Thread} {phase : Phase}

def Phase.waitsFor : Phase → Option Token
  | .at (.waiting waiter) => some waiter
  | .reaping waiter => some waiter
  | .checkingStop waiter => some waiter
  | .readingStatus waiter => some waiter
  | .delivering _ _ _ (.waiting waiter) => some waiter
  | .waking _ _ (.waiting waiter) => some waiter
  | _ => none

/-- The requests announced to a waiter and not counted down. -/
def Engine.outstanding (engine : Engine Thread) (waiter : Token) : Nat :=
  engine.promised waiter + engine.passed.countP (target ·.token = waiter) -
    engine.completed.countP (fun call => target call.1.token = waiter)

/-- What holds as long as no counter wraps. -/
structure Tight (engine : Engine Thread) : Prop extends Sound engine where
  bounded : ∀ waiter, engine.outstanding waiter < 2 ^ 32

omit [DecidableEq Thread] in
theorem Tight.outstanding_eq (h : Tight engine) {waiter : Token}
    (hzero : (engine.waiters waiter).pending = 0#32) : engine.outstanding waiter = 0 := by
  have hcount := h.counting.pending waiter
  have hle := h.delivery.countP_le waiter
  have hlt := h.bounded waiter
  rw [hzero, BitVec.zero_add] at hcount
  have hmod := congrArg BitVec.toNat hcount
  simp only [BitVec.toNat_ofNat] at hmod
  unfold Engine.outstanding at hlt ⊢
  omega

/-- The waiter whose sleepers a thread is about to wake. -/
def Phase.wakes : Phase → Option Token
  | .waking waiter _ _ => some waiter
  | _ => none

theorem Phase.wakes_dispatching (completions : List DiskCompletion) (place : Place) :
    (Phase.dispatching completions place).wakes = none := by
  cases completions <;> rfl

theorem Phase.waitsFor_dispatching (completions : List DiskCompletion) (place : Place) :
    (Phase.dispatching completions place).waitsFor = (Phase.at place).waitsFor := by
  cases completions with
  | nil => rfl
  | cons completion rest => cases place <;> rfl

/-- All that is recorded of waiters and requests. -/
def Engine.record (engine : Engine Thread) :=
  (engine.waiters, engine.promised, engine.passed, engine.completed, engine.waited,
    engine.returned, engine.late, engine.wokenLate)

/-- A step that neither counts, wakes nor returns. -/
structure Passes (engine next : Engine Thread) (thread : Option Thread) (phase : Phase) :
    Prop where
  moves : Moves engine next thread phase
  record : next.record = engine.record
  wakes : phase.wakes = none
  waits : ∀ waiter ∈ phase.waitsFor, waiter ∈ (engine.phases thread).waitsFor
  reading : ∀ waiter, phase = .readingStatus waiter → (engine.waiters waiter).pending = 0#32

theorem Passes.quit (hmoves : Moves engine next thread phase)
    (hrecord : next.record = engine.record) (hwakes : phase.wakes = none)
    (hphase : phase.waitsFor = none) : Passes engine next thread phase := by
  refine ⟨hmoves, hrecord, hwakes, by simp [hphase], ?_⟩
  rintro waiter rfl
  cases hphase

theorem Passes.dispatch {completions : List DiskCompletion} {place : Place}
    (hmoves : Moves engine next thread (.dispatching completions place))
    (hrecord : next.record = engine.record)
    (hwaits : ∀ waiter ∈ (Phase.at place).waitsFor, waiter ∈ (engine.phases thread).waitsFor) :
    Passes engine next thread (.dispatching completions place) := by
  refine ⟨hmoves, hrecord, Phase.wakes_dispatching completions place, ?_, ?_⟩
  · rw [Phase.waitsFor_dispatching]
    exact hwaits
  · intro waiter hphase
    cases completions <;> cases hphase

theorem Passes.reap {completions : List DiskCompletion} {taken : Engine Thread} {place : Place}
    (hwaits : ∀ waiter ∈ (Phase.at place).waitsFor, waiter ∈ (engine.phases thread).waitsFor)
    (htake : engine.take completions = some taken) :
    Passes engine (taken.dispatch thread completions place) thread
      (.dispatching completions place) := by
  simp only [Engine.take] at htake
  split at htake
  · cases htake
    exact .dispatch rfl rfl hwaits
  · cases htake

theorem passes_offer {requests : List Request} {reply : Reply}
    (hnext : engine.offer thread requests reply = some next) :
    ∃ phase, Passes engine next thread phase := by
  have hrefuse : ∀ {error}, engine.refuse thread requests error = some next →
      ∃ phase, Passes engine next thread phase := by
    intro error hnext
    cases requests with
    | nil => cases hnext
    | cons request rest =>
        cases hnext
        exact ⟨_, .dispatch rfl rfl fun _ hwaiter => by cases hwaiter⟩
  cases reply with
  | accepted count =>
      simp only [Engine.offer] at hnext
      split at hnext
      · exact hrefuse hnext
      · split at hnext
        · cases hnext
          exact ⟨_, .quit rfl rfl rfl rfl⟩
        · cases hnext
  | rejected error => exact hrefuse hnext
  | reaped completions => cases hnext
  | failed error => cases hnext

theorem passes_submitTagged (requests : List Request) :
    ∃ phase, Passes engine (engine.submitTagged thread requests) thread phase := by
  unfold Engine.submitTagged
  split
  · exact ⟨_, .quit rfl rfl rfl rfl⟩
  · split
    · exact ⟨_, .dispatch rfl rfl fun _ hwaiter => by cases hwaiter⟩
    · exact ⟨_, .quit rfl rfl rfl rfl⟩

/-- A thread inside the engine delivers, wakes, returns from `Wait`, or does none of these. -/
theorem advance_cases {reply : Reply} (hnext : engine.advance thread reply = some next) :
    (∃ phase, Passes engine next thread phase) ∨
    (∃ stage completion rest place,
      engine.phases thread = .delivering stage completion rest place ∧
        next = engine.deliver thread stage completion rest place) ∨
    (∃ waiter rest place, engine.phases thread = .waking waiter rest place ∧
      next = engine.wake thread waiter rest place) ∨
    (∃ waiter, engine.phases thread = .readingStatus waiter ∧
      next = engine.leave thread waiter (engine.waiters waiter).error) ∨
    ∃ waiter, engine.phases thread = .checkingStop waiter ∧ engine.stopped = true := by
  unfold Engine.advance at hnext
  split at hnext
  · cases hnext
  · cases hnext
    exact .inl (passes_submitTagged _)
  · rename_i waiter hthread
    cases hnext
    refine .inl ⟨_, rfl, rfl, ?_, ?_, ?_⟩
    · split <;> rfl
    · rw [hthread]
      split <;> exact fun _ hwaiter => hwaiter
    · intro other hphase
      split at hphase
      · cases hphase
        assumption
      · cases hphase
  · cases reply with
    | reaped completions =>
        obtain ⟨taken, htake, rfl⟩ := Option.map_eq_some_iff.mp hnext
        exact .inl ⟨_, .reap (fun _ hwaiter => by cases hwaiter) htake⟩
    | failed error =>
        cases hnext
        exact .inl ⟨_, .quit rfl rfl rfl rfl⟩
    | accepted count => cases hnext
    | rejected error => cases hnext
  · exact .inl (passes_offer hnext)
  · rename_i waiter hthread
    have hwaits : ∀ other ∈ some waiter, other ∈ (engine.phases thread).waitsFor := by
      rw [hthread]
      exact fun _ hother => hother
    cases reply with
    | reaped completions =>
        simp only [Engine.reapReady] at hnext
        split at hnext
        · cases hnext
          exact .inl ⟨_, rfl, rfl, rfl, hwaits, fun _ hphase => by cases hphase⟩
        · obtain ⟨taken, htake, rfl⟩ := Option.map_eq_some_iff.mp hnext
          exact .inl ⟨_, .reap hwaits htake⟩
    | failed error =>
        cases hnext
        exact .inl ⟨_, rfl, rfl, rfl, hwaits, fun _ hphase => by cases hphase⟩
    | accepted count => cases hnext
    | rejected error => cases hnext
  · rename_i waiter hthread
    by_cases hstopped : engine.stopped = true
    · exact .inr (.inr (.inr (.inr ⟨waiter, hthread, hstopped⟩)))
    · rw [if_neg hstopped] at hnext
      cases hnext
      refine .inl ⟨_, rfl, rfl, rfl, ?_, fun _ hphase => by cases hphase⟩
      rw [hthread]
      exact fun _ hwaiter => hwaiter
  · rename_i waiter hthread
    cases hnext
    exact .inr (.inr (.inr (.inl ⟨waiter, hthread, rfl⟩)))
  · cases hnext
    exact .inl ⟨_, .quit rfl rfl rfl rfl⟩
  · cases hnext
    exact .inl ⟨_, .quit rfl rfl rfl rfl⟩
  · cases hnext
  · cases hnext
    exact .inl ⟨_, .quit rfl rfl rfl rfl⟩
  · split at hnext
    · cases hnext
      exact .inl ⟨_, .quit rfl rfl rfl rfl⟩
    · cases hnext
  · rename_i stage completion rest place hthread
    cases hnext
    exact .inr (.inl ⟨stage, completion, rest, place, hthread, rfl⟩)
  · rename_i waiter rest place hthread
    cases hnext
    exact .inr (.inr (.inl ⟨waiter, rest, place, hthread, rfl⟩))

omit [DecidableEq Thread] in
theorem Engine.outstanding_le (hpromised : next.promised = engine.promised)
    (hpassed : next.passed = engine.passed) (hcompleted : engine.completed <+: next.completed)
    (waiter : Token) : next.outstanding waiter ≤ engine.outstanding waiter := by
  rw [Engine.outstanding, Engine.outstanding, hpromised, hpassed]
  exact Nat.sub_le_sub_left hcompleted.sublist.countP_le _

/-- `Wait` does not find the engine stopped. -/
def NotStopped (engine : Engine Thread) (move : Option Thread × Move) : Prop :=
  match engine.phases move.1 with
  | .checkingStop _ => engine.stopped = false
  | _ => True

instance (engine : Engine Thread) (move : Option Thread × Move) :
    Decidable (NotStopped engine move) := by
  unfold NotStopped
  split <;> infer_instance

/-- An `Add` leaves fewer than `2 ^ 32` requests outstanding. -/
def Fits (engine : Engine Thread) (move : Option Thread × Move) : Prop :=
  match move.2 with
  | .add waiter count => engine.outstanding waiter + count.toNat < 2 ^ 32
  | _ => True

instance (engine : Engine Thread) (move : Option Thread × Move) :
    Decidable (Fits engine move) := by
  unfold Fits
  split <;> infer_instance

/-- `Wait` does not find the engine stopped, and no counter wraps. -/
def Orderly (engine : Engine Thread) (move : Option Thread × Move) : Prop :=
  NotStopped engine move ∧ Fits engine move

instance (engine : Engine Thread) (move : Option Thread × Move) :
    Decidable (Orderly engine move) :=
  inferInstanceAs (Decidable (_ ∧ _))

omit [DecidableEq Thread] in
theorem Orderly.not_stopped {move : Move} (h : Orderly engine (thread, move)) {waiter : Token}
    (hthread : engine.phases thread = .checkingStop waiter) : engine.stopped = false := by
  simpa [NotStopped, hthread] using h.1

theorem Tight.step (h : Tight engine) {move : Option Thread × Move} (horderly : Orderly engine move)
    (hnext : step engine move = some next) : Tight next := by
  refine ⟨h.toSound.step hnext, fun other => ?_⟩
  have hle := h.delivery.countP_le other
  have hbound := h.bounded other
  obtain ⟨thread, move⟩ := move
  cases move with
  | add waiter count =>
      simp only [IoEngine.step] at hnext
      split at hnext
      · cases hnext
        by_cases hsame : other = waiter
        · subst hsame
          have hfits := horderly.2
          simp only [Fits, Engine.outstanding, Engine.setWaiter, Function.update_self] at hfits ⊢
          omega
        · simpa [Engine.outstanding, Engine.setWaiter, hsame] using hbound
      · cases hnext
  | submit mode addresses =>
      simp only [IoEngine.step] at hnext
      split at hnext
      · rename_i henabled
        cases hnext
        have hpromised := count_le_promised henabled.2 other
        rw [Engine.outstanding] at hbound ⊢
        simp only [Engine.setPhase, List.countP_append, countP_requests]
        omega
      · cases hnext
  | wait waiter =>
      simp only [IoEngine.step] at hnext
      split at hnext <;> cases hnext
      exact hbound
  | shutdown reason =>
      simp only [IoEngine.step] at hnext
      split at hnext
      · split at hnext <;> cases hnext <;> exact hbound
      · cases hnext
  | advance reply =>
      refine lt_of_le_of_lt ?_ hbound
      rcases advance_cases hnext with ⟨phase, hpasses⟩ | ⟨stage, completion, rest, place, -, rfl⟩ |
        ⟨waiter, rest, place, -, rfl⟩ | ⟨waiter, -, rfl⟩ | ⟨waiter, hthread, hstopped⟩
      · have hrecord := hpasses.record
        simp only [Engine.record, Prod.mk.injEq] at hrecord
        obtain ⟨-, hpromised, hpassed, hcompleted, -⟩ := hrecord
        rw [Engine.outstanding, Engine.outstanding, hpromised, hpassed, hcompleted]
      · cases stage with
        | calling =>
            simp only [Engine.deliver]
            split <;> exact le_rfl
        | storing => exact le_rfl
        | counting =>
            have hcompleted : engine.completed <+:
                (engine.deliver thread .counting completion rest place).completed :=
              List.prefix_append _ _
            exact @Engine.outstanding_le _ engine
              (engine.deliver thread .counting completion rest place) rfl rfl hcompleted other
      · exact le_rfl
      · exact le_rfl
      · exact absurd hstopped (by simp [horderly.not_stopped hthread])

/-- A waiter that `Wait` has returned for, or whose status it is about to read, has
nothing to count, and its status is the one that was returned. -/
structure Settled (engine : Engine Thread) : Prop where
  waits : ∀ thread, ∀ waiter ∈ (engine.phases thread).waitsFor, waiter ∈ engine.waited
  reading : ∀ thread waiter, engine.phases thread = .readingStatus waiter →
    (engine.waiters waiter).pending = 0#32
  returned : ∀ result ∈ engine.returned, result.1 ∈ engine.waited ∧
    (engine.waiters result.1).pending = 0#32 ∧ (engine.waiters result.1).error = result.2
  onTime : engine.late = false

omit [DecidableEq Thread] in
theorem settled_initial : Settled (initial Thread) where
  waits := by
    rintro (_ | _) waiter hwaiter <;> cases hwaiter
  reading := by
    rintro (_ | _) waiter hwaiter <;> cases hwaiter
  returned := fun _ h => by cases h
  onTime := rfl

omit [DecidableEq Thread] in
theorem Tight.target_ne (h : Tight engine) {address : Token}
    (hzero : (engine.waiters address).pending = 0#32) {request : Request}
    (hrequest : engine.Pending request) : target request.token ≠ address := by
  rintro rfl
  have hcount := h.outstanding_eq hzero
  have hlt := h.delivery.countP_lt hrequest
  rw [Engine.outstanding] at hcount
  omega

theorem Settled.goOn (h : Settled engine) (hmoves : Moves engine next thread phase)
    (hwaited : ∀ waiter ∈ engine.waited, waiter ∈ next.waited)
    (hwaiters : ∀ waiter ∈ engine.waited, (engine.waiters waiter).pending = 0#32 →
      next.waiters waiter = engine.waiters waiter)
    (hreturned : ∀ result ∈ next.returned, result ∈ engine.returned ∨
      (result.1 ∈ engine.waited ∧ (engine.waiters result.1).pending = 0#32 ∧
        (engine.waiters result.1).error = result.2))
    (hlate : next.late = false) (hwaits : ∀ waiter ∈ phase.waitsFor, waiter ∈ next.waited)
    (hreading : ∀ waiter, phase = .readingStatus waiter → (next.waiters waiter).pending = 0#32) :
    Settled next where
  waits := by grind [h.waits, hmoves.phases]
  reading := by
    intro other waiter hother
    have hbefore := h.reading other waiter
    have hwaits := h.waits other waiter
    grind [hmoves.phases, Phase.waitsFor]
  returned := by
    intro result hresult
    have hbefore := h.returned result
    have hnew := hreturned result hresult
    grind
  onTime := hlate

theorem Settled.pass (h : Settled engine) (hpasses : Passes engine next thread phase) :
    Settled next := by
  have hrecord := hpasses.record
  simp only [Engine.record, Prod.mk.injEq] at hrecord
  obtain ⟨hwaiters, -, -, -, hwaited, hreturned, hlate, -⟩ := hrecord
  refine h.goOn hpasses.moves (by simp [hwaited]) (by simp [hwaiters])
    (fun _ hmem => .inl (hreturned ▸ hmem)) (hlate.trans h.onTime) ?_ ?_
  · rw [hwaited]
    exact fun waiter hwaiter => h.waits thread waiter (hpasses.waits waiter hwaiter)
  · rw [hwaiters]
    exact hpasses.reading

theorem Phase.waitsFor_counted (last : Bool) (waiter : Token) (rest : List DiskCompletion)
    (place : Place) :
    (Phase.counted last waiter rest place).waitsFor = (Phase.at place).waitsFor := by
  cases last with
  | true => cases place <;> rfl
  | false => exact waitsFor_dispatching rest place

omit [DecidableEq Thread] in
theorem Settled.not_returned (h : Settled engine) (hsound : Tight engine) {request : Request}
    (hpending : engine.Pending request) :
    target request.token ∉ engine.returned.map Prod.fst := by
  intro hmem
  obtain ⟨result, hresult, hsame⟩ := List.mem_map.mp hmem
  exact hsound.target_ne (h.returned result hresult).2.1 hpending hsame.symm

theorem Settled.deliver (h : Settled engine) (hsound : Tight engine) {stage : Stage}
    {completion : DiskCompletion} {rest : List DiskCompletion} {place : Place}
    (hthread : engine.phases thread = .delivering stage completion rest place) :
    Settled (engine.deliver thread stage completion rest place) := by
  have hmine : completion.request ∈ engine.holds (.thread thread) := by
    simp [Engine.holds, hthread, Phase.holds]
  have hpending := hsound.delivery.custody.pending_of_mem hmine
  -- the waiter that is completed is none of the settled ones
  have hwaiters : ∀ waiter changed, (engine.waiters waiter).pending = 0#32 →
      Function.update engine.waiters (target completion.request.token) changed waiter =
        engine.waiters waiter := fun waiter changed hzero =>
    Function.update_of_ne (hsound.target_ne hzero hpending).symm ..
  have hlate : (engine.late || (engine.returned.map Prod.fst).contains
      (target completion.request.token)) = false := by
    rw [h.onTime, Bool.false_or, ← Bool.not_eq_true, List.contains_iff_mem]
    exact h.not_returned hsound hpending
  have hwaits : ∀ waiter ∈ (Phase.at place).waitsFor, waiter ∈ engine.waited := by
    intro waiter hwaiter
    refine h.waits thread waiter ?_
    rw [hthread]
    cases place <;> exact hwaiter
  have hlater : ∀ stage, ∀ waiter ∈ (Phase.delivering stage completion rest place).waitsFor,
      waiter ∈ engine.waited := by
    intro stage waiter hwaiter
    refine hwaits waiter ?_
    cases place <;> exact hwaiter
  cases stage with
  | calling =>
      simp only [Engine.deliver]
      split
      · exact h.goOn rfl (fun _ hmem => hmem) (fun _ _ _ => rfl) (fun _ hmem => .inl hmem) hlate
          (hlater _) fun _ hphase => by cases hphase
      · exact h.goOn rfl (fun _ hmem => hmem) (fun waiter _ => hwaiters waiter _)
          (fun _ hmem => .inl hmem) hlate (hlater _) fun _ hphase => by cases hphase
  | storing =>
      exact h.goOn rfl (fun _ hmem => hmem) (fun waiter _ => hwaiters waiter _)
        (fun _ hmem => .inl hmem) h.onTime (hlater _) fun _ hphase => by cases hphase
  | counting =>
      refine h.goOn rfl (fun _ hmem => hmem) (fun waiter _ => hwaiters waiter _)
        (fun _ hmem => .inl hmem) h.onTime ?_ ?_
      · rw [Phase.waitsFor_counted]
        exact hwaits
      · intro waiter hphase
        rw [Phase.counted] at hphase
        split at hphase
        · cases hphase
        · cases rest <;> cases hphase

theorem Settled.leave (h : Settled engine) {waiter : Token}
    (hthread : engine.phases thread = .readingStatus waiter) :
    Settled (engine.leave thread waiter (engine.waiters waiter).error) := by
  refine h.goOn rfl (fun _ hmem => hmem) (fun _ _ _ => rfl) ?_ h.onTime
    (fun _ hwaiter => by cases hwaiter) fun _ hphase => by cases hphase
  intro result hresult
  rcases List.mem_append.mp hresult with hold | hnew
  · exact .inl hold
  · cases List.mem_singleton.mp hnew
    exact .inr ⟨h.waits thread waiter (by rw [hthread]; rfl), h.reading thread waiter hthread, rfl⟩

theorem Settled.step (h : Settled engine) (hsound : Tight engine) {move : Option Thread × Move}
    (horderly : Orderly engine move) (hnext : step engine move = some next) :
    Settled next := by
  obtain ⟨thread, move⟩ := move
  cases move with
  | add waiter count =>
      simp only [IoEngine.step] at hnext
      split at hnext
      · rename_i henabled
        cases hnext
        have hphases : engine.phases = Function.update engine.phases thread (.at .idle) := by
          rw [← henabled.1, Function.update_eq_self]
        refine h.goOn hphases (fun _ hmem => hmem) ?_ (fun _ hmem => .inl hmem) h.onTime
          (fun _ hwaiter => by cases hwaiter) fun _ hphase => by cases hphase
        intro other hmem _
        refine Function.update_of_ne ?_ ..
        rintro rfl
        exact henabled.2 hmem
      · cases hnext
  | submit mode addresses =>
      simp only [IoEngine.step] at hnext
      split at hnext
      · cases hnext
        exact h.goOn rfl (fun _ hmem => hmem) (fun _ _ _ => rfl) (fun _ hmem => .inl hmem)
          h.onTime (fun _ hwaiter => by cases hwaiter) fun _ hphase => by cases hphase
      · cases hnext
  | wait waiter =>
      simp only [IoEngine.step] at hnext
      split at hnext
      · cases hnext
        refine h.goOn rfl (fun _ hmem => List.mem_cons_of_mem _ hmem) (fun _ _ _ => rfl)
          (fun _ hmem => .inl hmem) h.onTime ?_ fun _ hphase => by cases hphase
        intro other hother
        cases hother
        exact List.mem_cons_self
      · cases hnext
  | shutdown reason =>
      simp only [IoEngine.step] at hnext
      split at hnext
      · split at hnext
        · cases hnext
          exact h
        · cases hnext
          exact h.pass (.quit rfl rfl rfl rfl)
      · cases hnext
  | advance reply =>
      rcases advance_cases hnext with ⟨phase, hpasses⟩ |
        ⟨stage, completion, rest, place, hthread, rfl⟩ | ⟨waiter, rest, place, hthread, rfl⟩ |
        ⟨waiter, hthread, rfl⟩ | ⟨waiter, hthread, hstopped⟩
      · exact h.pass hpasses
      · exact h.deliver hsound hthread
      · refine h.goOn rfl (fun _ hmem => hmem) (fun _ _ _ => rfl) (fun _ hmem => .inl hmem)
          h.onTime ?_ ?_
        · intro other hother
          rw [Phase.waitsFor_dispatching] at hother
          refine h.waits thread other ?_
          rw [hthread]
          cases place <;> exact hother
        · intro other hphase
          cases rest <;> cases hphase
      · exact h.leave hthread
      · exact absurd hstopped (by simp [horderly.not_stopped hthread])

theorem sound_of_run {moves : List (Option Thread × Move)} {final : Engine Thread}
    (hrun : Machine.run step (initial Thread) moves = some final) : Sound final :=
  Machine.invariant_of_run (fun _ _ _ h hnext => h.step hnext) sound_initial hrun

omit [DecidableEq Thread] in
theorem tight_initial : Tight (initial Thread) :=
  ⟨sound_initial, fun _ => Nat.two_pow_pos 32⟩

theorem settled_of_meets {moves : List (Option Thread × Move)} {final : Engine Thread}
    (hmeets : Machine.Meets step Orderly (initial Thread) moves)
    (hrun : Machine.run step (initial Thread) moves = some final) :
    Tight final ∧ Settled final := by
  have hstep : ∀ (engine : Engine Thread) move next, Tight engine ∧ Settled engine →
      Orderly engine move → step engine move = some next → Tight next ∧ Settled next :=
    fun _ _ _ h horderly hnext => ⟨h.1.step horderly hnext, h.2.step h.1 horderly hnext⟩
  exact Machine.invariant_of_meets hstep ⟨tight_initial, settled_initial⟩ hmeets hrun

/-- Neither the backend nor a thread has a request left. -/
def Engine.Drained (engine : Engine Thread) : Prop := ∀ holder, engine.holds holder = []

instance [Fintype Thread] (engine : Engine Thread) : Decidable engine.Drained :=
  decidable_of_iff (engine.accepted = [] ∧ ∀ thread, (engine.phases thread).holds = [])
    ⟨fun h holder => match holder with
      | .backend => h.1
      | .thread thread => h.2 thread,
    fun h => ⟨h .backend, fun thread => h (.thread thread)⟩⟩

omit [DecidableEq Thread] in
/-- When `Wait` has returned, its waiter has nothing to come and reports an error
exactly if one was delivered. -/
theorem Settled.exact (h : Settled engine) (hsound : Tight engine) {result : Token × Status}
    (hresult : result ∈ engine.returned) :
    engine.promised result.1 = 0 ∧
      (∀ request ∈ engine.passed, target request.token = result.1 →
        request ∈ engine.completed.map Prod.fst) ∧
      (result.2 ≠ ok ↔ ∃ call ∈ engine.completed, target call.1.token = result.1 ∧ call.2 ≠ ok) := by
  obtain ⟨-, hzero, herror⟩ := h.returned result hresult
  have hcount := hsound.outstanding_eq hzero
  have hle := hsound.delivery.countP_le result.1
  rw [Engine.outstanding] at hcount
  have hdone : ∀ request ∈ engine.passed, target request.token = result.1 →
      request ∈ engine.completed.map Prod.fst := by
    intro request hpassed htarget
    by_contra hopen
    exact hsound.target_ne hzero ⟨hpassed, hopen⟩ htarget
  refine ⟨by omega, hdone, ?_⟩
  rw [← herror]
  constructor
  · intro hne
    obtain ⟨call, hcall, htarget, herr⟩ := hsound.counting.justified result.1 hne
    -- the call has been counted down, with the status it was made with
    obtain ⟨counted, hcounted, hsame⟩ := List.mem_map.mp (hdone call.1
      (hsound.delivery.calledPassed _ (List.mem_map_of_mem hcall)) htarget)
    have hequal := List.inj_on_of_nodup_map hsound.delivery.calledOnce
      (hsound.delivery.called counted hcounted) hcall hsame
    exact ⟨counted, hcounted, by rw [hequal]; exact htarget, by rw [hequal]; exact herr⟩
  · rintro ⟨call, hcall, htarget, herr⟩
    have hclaimed := hsound.counting.claimed call (hsound.delivery.called call hcall) herr
    rw [htarget] at hclaimed
    refine (hsound.counting.stored result.1 hclaimed).resolve_right ?_
    rintro ⟨thread, completion, hstoring, hsame⟩
    have hheld : completion.request ∈ engine.holds (.thread thread) := by
      simp only [Engine.holds]
      cases hphase : engine.phases thread with
      | delivering stage found rest place =>
          rw [hphase] at hstoring
          cases stage with
          | storing =>
              cases hstoring
              exact List.mem_cons_self
          | calling => cases hstoring
          | counting => cases hstoring
      | _ =>
          rw [hphase] at hstoring
          cases hstoring
    exact hsound.target_ne hzero (hsound.delivery.custody.pending_of_mem hheld) hsame

/-- What the backend promises about a blocking `Reap`: it fails only after `Shutdown`
and when no accepted request is outstanding. -/
def KeepsContract (engine : Engine Thread) : Option Thread × Move → Prop
  | (thread, .advance (.failed _)) => engine.phases thread = .at .running →
      engine.backendShutdown = true ∧ engine.accepted = []
  | _ => True

instance (engine : Engine Thread) (move : Option Thread × Move) :
    Decidable (KeepsContract engine move) := by
  unfold KeepsContract
  split <;> infer_instance

/-- Two waiters, of two threads. -/
def firstWaiter : Address := ⟨16#64, by decide⟩

def secondWaiter : Address := ⟨32#64, by decide⟩

/-- An access whose backend call, if it makes one, reaps nothing. -/
def goOn : Move := .advance (.reaped [])

def reapOne (number : Nat) (address : Address) (status : Status) : Move :=
  .advance (.reaped [⟨⟨number, address⟩, status⟩])

def submitAndWait (thread : Fin 3) (address : Address) : List (Option (Fin 3) × Move) :=
  [.add address 1, .submit .wait [address], goOn, .advance (.accepted 1), goOn,
    .wait address].map (some thread, ·)

def diskError : Error := { code := .ioError, message := "read failed" }

def ownReap : List (Option (Fin 3) × Move) :=
  submitAndWait 0 firstWaiter ++
    [goOn, reapOne 0 firstWaiter (some diskError), goOn, goOn, goOn, goOn, goOn, goOn].map
      (some 0, ·)

/-- The second thread has reaped the first thread's completion and not delivered it
when the engine is shut down.  The backend has nothing outstanding then, so the
reaper's `Reap` fails and the engine stops, and the first thread's `Wait` returns. -/
def shutdownRace : List (Option (Fin 3) × Move) :=
  submitAndWait 0 firstWaiter ++ submitAndWait 1 secondWaiter ++
    [(some 1, goOn), (some 1, reapOne 0 firstWaiter ok),
      (some 2, .shutdown { code := .unavailable, message := "closed" }), (some 2, goOn),
      (none, reapOne 1 secondWaiter ok), (none, goOn), (none, goOn), (none, goOn),
      (none, .advance (.failed { code := .unavailable, message := "shutting down" })),
      (none, goOn), (none, goOn),
      (some 0, goOn), (some 0, goOn), (some 0, goOn)]

/-- `Wait` on a waiter returns after the wake for its last request. -/
def WokenFirst (engine : Engine Thread) (move : Option Thread × Move) : Prop :=
  match engine.phases move.1 with
  | .readingStatus waiter => ∀ thread, (engine.phases thread).wakes ≠ some waiter
  | _ => True

instance [Fintype Thread] (engine : Engine Thread) (move : Option Thread × Move) :
    Decidable (WokenFirst engine move) := by
  unfold WokenFirst
  split <;> infer_instance

/-- Nobody has woken, or will wake, the sleepers of a waiter for which `Wait` has returned. -/
structure Woken (engine : Engine Thread) : Prop where
  onTime : engine.wokenLate = false
  waking : ∀ thread, ∀ waiter ∈ (engine.phases thread).wakes,
    waiter ∉ engine.returned.map Prod.fst

theorem Woken.goOn (h : Woken engine) (hmoves : Moves engine next thread phase)
    (hreturned : next.returned = engine.returned) (hlate : next.wokenLate = false)
    (hwakes : ∀ waiter ∈ phase.wakes, waiter ∉ engine.returned.map Prod.fst) : Woken next where
  onTime := hlate
  waking other waiter := by
    rw [hmoves.phases, hreturned]
    split
    · exact hwakes waiter
    · exact h.waking other waiter

theorem Woken.deliver (h : Woken engine) (hsound : Tight engine) (hsettled : Settled engine)
    {stage : Stage} {completion : DiskCompletion} {rest : List DiskCompletion} {place : Place}
    (hthread : engine.phases thread = .delivering stage completion rest place) :
    Woken (engine.deliver thread stage completion rest place) := by
  have hmine : completion.request ∈ engine.holds (.thread thread) := by
    simp [Engine.holds, hthread, Phase.holds]
  have hopen := hsettled.not_returned hsound (hsound.delivery.custody.pending_of_mem hmine)
  cases stage with
  | calling =>
      simp only [Engine.deliver]
      split
      · exact h.goOn rfl rfl h.onTime fun _ hwaiter => by cases hwaiter
      · exact h.goOn rfl rfl h.onTime fun _ hwaiter => by cases hwaiter
  | storing => exact h.goOn rfl rfl h.onTime fun _ hwaiter => by cases hwaiter
  | counting =>
      refine h.goOn rfl rfl h.onTime fun waiter hwaiter => ?_
      rw [Phase.counted] at hwaiter
      split at hwaiter
      · cases hwaiter
        exact hopen
      · rw [Phase.wakes_dispatching] at hwaiter
        cases hwaiter

theorem Woken.step (h : Woken engine) (hsound : Tight engine) (hsettled : Settled engine)
    {move : Option Thread × Move} (horderly : Orderly engine move)
    (hwoken : WokenFirst engine move) (hnext : step engine move = some next) : Woken next := by
  obtain ⟨thread, move⟩ := move
  cases move with
  | add waiter count =>
      simp only [IoEngine.step] at hnext
      split at hnext <;> cases hnext
      exact ⟨h.onTime, h.waking⟩
  | submit mode addresses =>
      simp only [IoEngine.step] at hnext
      split at hnext <;> cases hnext
      exact h.goOn rfl rfl h.onTime fun _ hwaiter => by cases hwaiter
  | wait waiter =>
      simp only [IoEngine.step] at hnext
      split at hnext <;> cases hnext
      exact h.goOn rfl rfl h.onTime fun _ hwaiter => by cases hwaiter
  | shutdown reason =>
      simp only [IoEngine.step] at hnext
      split at hnext
      · split at hnext <;> cases hnext
        · exact h
        · exact h.goOn rfl rfl h.onTime fun _ hwaiter => by cases hwaiter
      · cases hnext
  | advance reply =>
      rcases advance_cases hnext with ⟨phase, hpasses⟩ |
        ⟨stage, completion, rest, place, hthread, rfl⟩ | ⟨waiter, rest, place, hthread, rfl⟩ |
        ⟨waiter, hthread, rfl⟩ | ⟨waiter, hthread, hstopped⟩
      · have hrecord := hpasses.record
        simp only [Engine.record, Prod.mk.injEq] at hrecord
        obtain ⟨-, -, -, -, -, hreturned, -, hlate⟩ := hrecord
        exact h.goOn hpasses.moves hreturned (hlate.trans h.onTime) (by simp [hpasses.wakes])
      · exact h.deliver hsound hsettled hthread
      · have hopen := h.waking thread waiter (by rw [hthread]; rfl)
        refine h.goOn rfl rfl ?_ (by simp [Phase.wakes_dispatching])
        simpa [Engine.wake, Engine.dispatch, Engine.setPhase, h.onTime] using hopen
      · simp only [WokenFirst, hthread] at hwoken
        refine ⟨h.onTime, fun other found hfound => ?_⟩
        -- the thread itself is idle now, and the others wake another waiter
        have hother : found ∈ (engine.phases other).wakes := by
          by_cases hsame : other = thread
          · subst hsame
            simp [Engine.leave, Engine.setPhase, Phase.wakes] at hfound
          · simpa [Engine.leave, Engine.setPhase, hsame] using hfound
        have hne : found ≠ waiter := by
          rintro rfl
          exact hwoken other hother
        simpa [Engine.leave, hne] using h.waking other found hother
      · exact absurd hstopped (by simp [horderly.not_stopped hthread])

/-- `Wait` does not find the engine stopped and returns after the last wake, and no counter
wraps. -/
def Punctual (engine : Engine Thread) (move : Option Thread × Move) : Prop :=
  Orderly engine move ∧ WokenFirst engine move

instance [Fintype Thread] (engine : Engine Thread) (move : Option Thread × Move) :
    Decidable (Punctual engine move) :=
  inferInstanceAs (Decidable (_ ∧ _))

theorem woken_of_meets {moves : List (Option Thread × Move)} {final : Engine Thread}
    (hmeets : Machine.Meets step Punctual (initial Thread) moves)
    (hrun : Machine.run step (initial Thread) moves = some final) : Woken final := by
  have hstep : ∀ (engine : Engine Thread) move next,
      Tight engine ∧ Settled engine ∧ Woken engine → Punctual engine move →
        step engine move = some next → Tight next ∧ Settled next ∧ Woken next := by
    rintro engine move next ⟨htight, hsettled, hwoken⟩ ⟨horderly, hfirst⟩ hnext
    exact ⟨htight.step horderly hnext, hsettled.step htight horderly hnext,
      hwoken.step htight hsettled horderly hfirst hnext⟩
  have hinitial : Woken (initial Thread) := ⟨rfl, by
    rintro (_ | _) waiter hwaiter <;> cases hwaiter⟩
  exact (Machine.invariant_of_meets hstep ⟨tight_initial, settled_initial, hinitial⟩ hmeets
    hrun).2.2

/-- In every run in which no `Wait` finds the engine stopped and no waiter has `2 ^ 32` requests
outstanding, `Complete` is never called on a waiter after `Wait` on it has returned, and nobody
is left who could.  If moreover `Wait` never returns between the last count and its wake, then
no sleepers of such a waiter are woken either. -/
theorem no_completion_after_wait {moves : List (Option Thread × Move)} {final : Engine Thread}
    (hrun : Machine.run step (initial Thread) moves = some final) :
    (Machine.Meets step Orderly (initial Thread) moves → final.late = false ∧
      ∀ holder, ∀ request ∈ final.holds holder,
        target request.token ∉ final.returned.map Prod.fst) ∧
    (Machine.Meets step Punctual (initial Thread) moves → final.wokenLate = false ∧
      ∀ thread, ∀ waiter ∈ (final.phases thread).wakes,
        waiter ∉ final.returned.map Prod.fst) := by
  refine ⟨fun hmeets => ?_, fun hmeets => ?_⟩
  · obtain ⟨hsound, hsettled⟩ := settled_of_meets hmeets hrun
    exact ⟨hsettled.onTime, fun holder request hheld =>
      hsettled.not_returned hsound (hsound.delivery.custody.pending_of_mem hheld)⟩
  · have hwoken := woken_of_meets hmeets hrun
    exact ⟨hwoken.onTime, hwoken.waking⟩

theorem no_completion_after_wait_ownReap :
    ∃ final, Machine.run step (initial (Fin 3)) ownReap = some final ∧
      Machine.Meets step Punctual (initial (Fin 3)) ownReap ∧ final.late = false ∧
        final.wokenLate = false ∧ final.returned.length = 1 := by
  have hrun : (Machine.run step (initial (Fin 3)) ownReap).map (fun final =>
      final.returned.length) = some 1 := by decide +kernel
  have hmeets : Machine.Meets step Punctual (initial (Fin 3)) ownReap := by decide +kernel
  obtain ⟨final, hfinal, hlength⟩ := Option.map_eq_some_iff.mp hrun
  obtain ⟨hcomplete, hwake⟩ := no_completion_after_wait hfinal
  exact ⟨final, hfinal, hmeets, (hcomplete (by decide +kernel)).1, (hwake hmeets).1, hlength⟩

/-- The second thread counts the first thread's request down, and the first thread's `Wait`
returns before the second thread wakes its sleepers. -/
def lateWake : List (Option (Fin 3) × Move) :=
  submitAndWait 0 firstWaiter ++ submitAndWait 1 secondWaiter ++
    [(some 1, goOn), (some 1, reapOne 0 firstWaiter ok), (some 1, goOn), (some 1, goOn),
      (some 0, goOn), (some 0, goOn), (some 1, goOn)]

example : (Machine.run step (initial (Fin 3)) lateWake).map (fun final =>
    (final.returned.map Prod.fst, final.late, final.wokenLate)) =
      some ([firstWaiter.1], false, true) := by
  decide +kernel

/-- The reaper's `Reap` fails while the first thread's request is outstanding, and the
first thread's `Wait` returns.  The second thread waits for a request of its own and
reaps the late completion. -/
def lateReap : List (Option (Fin 3) × Move) :=
  submitAndWait 0 firstWaiter ++ submitAndWait 1 secondWaiter ++
    [(some 0, goOn), (some 0, goOn),
      (none, .advance (.failed diskError)), (none, goOn), (none, goOn), (some 0, goOn),
      (some 1, goOn), (some 1, reapOne 0 firstWaiter ok), (some 1, goOn)]

/-- `Complete` is called on the first waiter after `Wait` on it has returned. -/
theorem lateReap_late :
    (Machine.run step (initial (Fin 3)) lateReap).map (fun final =>
      (final.returned.map Prod.fst, final.called.map Prod.fst, final.late)) =
      some ([firstWaiter.1], [⟨0, firstWaiter⟩], true) := by
  decide +kernel

end TelePath.IoEngine
