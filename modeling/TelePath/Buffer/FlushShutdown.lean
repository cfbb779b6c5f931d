import TelePath.Buffer.FlushTasks

/-!
Every task that the flush scheduler accepts is run once, by one worker, and before
`Shutdown` returns.
-/

namespace TelePath.FlushScheduler

open Logic

variable {workers : Nat}

/-! ### How the scheduler is shut down -/

/-- How the latch, the sleepers and `Shutdown` hang together. -/
structure Closes (state : State workers) : Prop where
  latch : ∀ worker, state.latch = some worker ↔ ∃ batch, state.phases worker = .picking batch
  flag : state.shutdown = true ↔ state.closing ≠ .running
  exited : ∀ worker, state.phases worker = .exited →
    state.shutdown = true ∧ ∀ cleanerOwned, state.queue cleanerOwned = []
  joined : ∀ count, state.closing = .joining count →
    ∀ worker : Fin workers, worker.val < count → state.phases worker = .exited
  closed : state.closing = .closed → ∀ worker, state.phases worker = .exited
  woken : state.closing ≠ .running → state.closing ≠ .flagged →
    ∀ worker, state.phases worker ≠ .asleep
  awake : ∀ cleanerOwned, state.queue cleanerOwned ≠ [] →
    ∃ worker, state.phases worker ≠ .asleep ∧ state.phases worker ≠ .exited

namespace Closes

variable {state next : State workers} {worker : Fin workers}

theorem initial : Closes ({} : State workers) where
  latch := by simp
  flag := by simp
  exited := by simp
  joined := by simp
  closed := by simp
  woken := by simp
  awake := by
    rintro (_ | _) <;> simp [State.queue]

theorem move (h : Closes state) (phase : Phase) (hexited : state.phases worker ≠ .exited)
    (hlatch : ∀ other, next.latch = some other ↔ ∃ batch, next.phases other = .picking batch)
    (hexit : phase = .exited →
      state.shutdown = true ∧ ∀ cleanerOwned, state.queue cleanerOwned = [])
    (hsleep : phase = .asleep →
      state.shutdown = false ∧ ∀ cleanerOwned, state.queue cleanerOwned = [])
    (hqueue : ∀ cleanerOwned, state.queue cleanerOwned = [] → next.queue cleanerOwned = [])
    (hshutdown : next.shutdown = state.shutdown) (hclosing : next.closing = state.closing)
    (hphases : next.phases = Function.update state.phases worker phase) : Closes next := by
  have hphase := congrFun hphases
  constructor
  · exact hlatch
  · rw [hshutdown, hclosing]
    exact h.flag
  · intro other hother
    have hbefore := h.exited other
    grind
  · intro count hcount other hlt
    have hbefore := h.joined count
    grind
  · intro hclosed other
    have hbefore := h.closed
    grind
  · intro hrunning hflagged other
    have hset := h.flag
    have hbefore := h.woken
    grind
  · intro cleanerOwned hne
    exact ⟨worker, by grind, by grind⟩

theorem latch_move (h : Closes state) {phase : Phase}
    (hbefore : ∀ batch, state.phases worker ≠ .picking batch)
    (hafter : ∀ batch, phase ≠ .picking batch) (hlatch : next.latch = state.latch)
    (hphases : next.phases = Function.update state.phases worker phase) :
    ∀ other, next.latch = some other ↔ ∃ batch, next.phases other = .picking batch := by
  intro other
  rw [hlatch, h.latch other, hphases]
  by_cases heq : other = worker <;> simp_all

theorem picks_alone (h : Closes state) {batch : List Task}
    (hnow : state.phases worker = .picking batch) {other : Fin workers} (hne : other ≠ worker) :
    ∀ batch, state.phases other ≠ .picking batch := by
  intro batch' hother
  have hmine := (h.latch worker).mpr ⟨batch, hnow⟩
  rw [(h.latch other).mpr ⟨batch', hother⟩] at hmine
  exact hne (Option.some.inj hmine)

theorem proceed (h : Closes state) (worker : Fin workers) (phase : Phase)
    (hexited : state.phases worker ≠ .exited)
    (hbefore : ∀ batch, state.phases worker ≠ .picking batch)
    (hafter : ∀ batch, phase ≠ .picking batch) (hexit : phase ≠ .exited)
    (hsleep : phase ≠ .asleep) (hlatch : next.latch = state.latch)
    (hqueue : next.queue = state.queue) (hshutdown : next.shutdown = state.shutdown)
    (hclosing : next.closing = state.closing)
    (hphases : next.phases = Function.update state.phases worker phase) : Closes next :=
  h.move phase hexited (h.latch_move hbefore hafter hlatch hphases)
    (fun heq => absurd heq hexit) (fun heq => absurd heq hsleep)
    (fun cleanerOwned hempty => by rw [hqueue, hempty]) hshutdown hclosing hphases

theorem takeNextBatch (h : Closes state) (hnow : state.phases worker = .waiting)
    (hfree : state.latch = none) : Closes (state.takeNextBatch worker) := by
  have hexited : state.phases worker ≠ .exited := by simp [hnow]
  have hbefore : ∀ batch, state.phases worker ≠ .picking batch := by simp [hnow]
  have hempty : (state.foreground.isEmpty && state.background.isEmpty) = true →
      ∀ cleanerOwned, state.queue cleanerOwned = [] := by
    intro hboth
    simp only [Bool.and_eq_true, List.isEmpty_iff] at hboth
    rintro (_ | _)
    · exact hboth.1
    · exact hboth.2
  unfold State.takeNextBatch
  split
  · rename_i hboth
    split
    · rename_i hshutdown
      exact h.move .exited hexited (h.latch_move hbefore (by simp) rfl rfl)
        (fun _ => ⟨hshutdown, hempty hboth⟩) nofun (fun _ hnil => hnil) rfl rfl rfl
    · rename_i hshutdown
      exact h.move .asleep hexited (h.latch_move hbefore (by simp) rfl rfl) nofun
        (fun _ => ⟨by simpa using hshutdown, hempty hboth⟩) (fun _ hnil => hnil) rfl rfl rfl
  · refine h.move (.picking []) hexited (fun other => ?_) nofun nofun (fun _ hnil => hnil) rfl rfl
      rfl
    have hnobody := h.latch other
    by_cases heq : other = worker
    · simp [State.setPhase, heq]
    · simp_all [State.setPhase, Ne.symm heq]

theorem picked (h : Closes state) {batch later : List Task}
    (hnow : state.phases worker = .picking batch) (hlatch : next.latch = state.latch)
    (hqueue : ∀ cleanerOwned, state.queue cleanerOwned = [] → next.queue cleanerOwned = [])
    (hshutdown : next.shutdown = state.shutdown) (hclosing : next.closing = state.closing)
    (hphases : next.phases = Function.update state.phases worker (.picking later)) :
    Closes next := by
  refine h.move (.picking later) (by simp [hnow]) (fun other => ?_) nofun nofun hqueue hshutdown
    hclosing hphases
  rw [hlatch, h.latch other, hphases]
  by_cases heq : other = worker <;> simp_all

theorem takeBackground (h : Closes state) {batch : List Task}
    (hnow : state.phases worker = .picking batch) : Closes (state.takeBackground worker batch) := by
  unfold State.takeBackground
  split
  · exact h
  · rename_i task rest hfirst
    refine h.picked hnow rfl ?_ rfl rfl rfl
    rintro (_ | _) hempty
    · exact hempty
    · exact nomatch hfirst.symm.trans hempty

theorem takeForeground (h : Closes state) {batch : List Task}
    (hnow : state.phases worker = .picking batch) : Closes (state.takeForeground worker batch) := by
  unfold State.takeForeground
  split
  · exact h
  · rename_i task rest hfirst
    refine h.picked hnow rfl ?_ rfl rfl rfl
    rintro (_ | _) hempty
    · exact nomatch hfirst.symm.trans hempty
    · exact hempty

theorem leaveBatch (h : Closes state) {batch : List Task}
    (hnow : state.phases worker = .picking batch) : Closes (state.leaveBatch worker batch) := by
  refine h.move _ (by simp [hnow]) (fun other => ?_) ?_ ?_ (fun _ hnil => hnil) rfl rfl rfl
  · have halone : other ≠ worker → _ := h.picks_alone hnow
    by_cases heq : other = worker <;> cases batch <;> simp_all [State.leaveBatch, State.setPhase]
  · cases batch <;> simp
  · cases batch <;> simp

theorem pick (h : Closes state) {config : Config} {batch : List Task}
    (hnow : state.phases worker = .picking batch) : Closes (state.pick config worker batch) := by
  unfold State.pick
  split
  · split
    · exact h.takeBackground hnow
    · split
      · exact h.takeForeground hnow
      · split
        · exact h.leaveBatch hnow
        · exact h.takeBackground hnow
  · exact h.leaveBatch hnow

theorem work (h : Closes state) {config : Config} (hstep : state.work config worker = some next) :
    Closes next := by
  unfold State.work at hstep
  split at hstep
  · rename_i hnow
    split at hstep
    · rename_i hfree
      cases hstep
      exact h.takeNextBatch hnow hfree
    · cases hstep
  · cases hstep
  · cases hstep
  · rename_i batch hnow
    cases hstep
    exact h.pick hnow
  all_goals
    rename_i hnow
    cases hstep
    exact h.proceed worker _ (by simp [hnow]) (by simp [hnow]) (by simp) (by simp) (by simp) rfl
      rfl rfl rfl rfl

theorem wake (h : Closes state) (worker : Fin workers) : Closes (state.wake worker) := by
  unfold State.wake
  split
  · rename_i hnow
    exact h.proceed worker .waiting (by simp [hnow]) (by simp [hnow]) nofun nofun nofun rfl rfl rfl
      rfl rfl
  · exact h

theorem push (h : Closes state) (cleanerOwned : Bool) (hopen : state.shutdown = false)
    (hawake : state.phases worker ≠ .asleep) : Closes (state.push cleanerOwned) where
  latch := h.latch
  flag := h.flag
  exited other hother := absurd (h.exited other hother).1 (by simp [hopen])
  joined := h.joined
  closed := h.closed
  woken := h.woken
  awake _ _ := ⟨worker, hawake, fun hexited =>
    absurd (h.exited worker hexited).1 (by simp [hopen])⟩

theorem enqueue (h : Closes state) (hworkers : 0 < workers) (cleanerOwned : Bool)
    {sleeper : Option (Fin workers)} (hnotify : state.MayNotify sleeper) :
    Closes (state.enqueue cleanerOwned sleeper) := by
  unfold State.enqueue
  split
  · exact ⟨h.latch, h.flag, h.exited, h.joined, h.closed, h.woken, h.awake⟩
  · rename_i hshutdown
    have hopen : state.shutdown = false := by simpa using hshutdown
    cases sleeper with
    | none => exact h.push cleanerOwned hopen (hnotify ⟨0, hworkers⟩)
    | some worker =>
        -- The sleeper may as well be woken before the task is queued.
        have hasleep : state.phases worker = .asleep := hnotify
        have hswap : (state.push cleanerOwned).wake worker =
            (state.wake worker).push cleanerOwned := by
          simp [State.wake, State.push, State.record, State.setPhase, hasleep]
        have hwaiting : (state.wake worker).phases worker ≠ .asleep := by
          simp [State.wake, State.setPhase, hasleep]
        have hstill : (state.wake worker).shutdown = false := by
          simp [State.wake, State.setPhase, hasleep, hopen]
        dsimp only
        rw [hswap]
        exact (h.wake worker).push cleanerOwned hstill hwaiting

theorem shutDown (h : Closes state) (hstep : state.shutDown = some next) : Closes next := by
  unfold State.shutDown at hstep
  split at hstep
  · split at hstep
    · cases hstep
      exact
        { latch := h.latch
          flag := by simp [State.record]
          exited := fun worker hexited => ⟨rfl, (h.exited worker hexited).2⟩
          joined := nofun
          closed := nofun
          woken := fun _ hflagged => absurd rfl hflagged
          awake := h.awake }
    · cases hstep
  · cases hstep
    exact ⟨h.latch, h.flag, h.exited, h.joined, h.closed, h.woken, h.awake⟩
  · cases hstep

theorem wakeAll (h : Closes state) (hflagged : state.closing = .flagged) :
    Closes { state with
      closing := .joining 0
      phases := fun worker =>
        if state.phases worker = .asleep then .waiting else state.phases worker } := by
  constructor
  · intro worker
    have hbefore := h.latch worker
    grind
  · have hset : state.shutdown = true := h.flag.mpr (by simp [hflagged])
    simpa using hset
  · intro worker hexited
    exact h.exited worker (by grind)
  · grind
  · nofun
  · grind
  · intro cleanerOwned hne
    obtain ⟨worker, hasleep, hexited⟩ := h.awake cleanerOwned hne
    exact ⟨worker, by simp [hasleep], by simpa [hasleep] using hexited⟩

theorem close (h : Closes state) (hstep : state.close = some next) : Closes next := by
  unfold State.close at hstep
  split at hstep
  · rename_i hflagged
    cases hstep
    exact h.wakeAll hflagged
  · rename_i count hjoining
    have hset : state.shutdown = true := h.flag.mpr (by simp [hjoining])
    have hwoken := h.woken (by simp [hjoining]) (by simp [hjoining])
    split at hstep
    · rename_i hlt
      split at hstep
      · rename_i hexited
        cases hstep
        refine ⟨h.latch, by simpa using hset, h.exited, ?_, nofun, fun _ _ => hwoken, h.awake⟩
        rintro _ ⟨⟩ worker hworker
        rcases Nat.lt_succ_iff_lt_or_eq.mp hworker with hless | heq
        · exact h.joined count hjoining worker hless
        · rwa [show worker = ⟨count, hlt⟩ from Fin.ext heq]
      · cases hstep
    · rename_i hall
      split at hstep
      · cases hstep
        refine ⟨h.latch, by simpa [State.record] using hset, h.exited, nofun, ?_,
          fun _ _ => hwoken, h.awake⟩
        intro _ worker
        exact h.joined count hjoining worker (by omega)
      · cases hstep
  · cases hstep

theorem step (h : Closes state) (hworkers : 0 < workers) {config : Config} {move : Move workers}
    (hstep : FlushScheduler.step config state move = some next) : Closes next := by
  cases move with
  | enqueue cleanerOwned sleeper =>
      simp only [FlushScheduler.step, Option.ite_none_right_eq_some, Option.some.injEq] at hstep
      obtain ⟨⟨-, hnotify⟩, rfl⟩ := hstep
      exact h.enqueue hworkers cleanerOwned hnotify
  | work worker => exact h.work hstep
  | wake worker =>
      cases hstep
      exact h.wake worker
  | shutDown => exact h.shutDown hstep
  | close => exact h.close hstep

theorem exists_work (h : Closes state) (config : Config) (hasleep : state.phases worker ≠ .asleep)
    (hexited : state.phases worker ≠ .exited) :
    ∃ other, (state.work config other).isSome = true := by
  cases hlatch : state.latch with
  | some holder =>
      obtain ⟨batch, hnow⟩ := (h.latch holder).mp hlatch
      exact ⟨holder, by simp [State.work, hnow]⟩
  | none =>
      refine ⟨worker, ?_⟩
      unfold State.work
      split <;> simp_all

end Closes

/-- What the log tells about `Shutdown`. -/
structure Ends (state : State workers) : Prop where
  stopping : .stopping ∈ state.log → state.shutdown = true
  stopped : .stopped ∈ state.log → state.closing = .closed
  rejects : state.log.Pairwise fun earlier later =>
    earlier = .stopping → ∀ task, later ≠ .accepted task
  last : state.log.Pairwise fun earlier later => earlier = .stopped → later.task = none

namespace Ends

variable {state next : State workers} {worker : Fin workers}

theorem initial : Ends ({} : State workers) :=
  ⟨by simp, by simp, .nil, .nil⟩

theorem append (h : Ends state) (events : List (Event workers))
    (hrejects : events.Pairwise fun earlier later =>
      earlier = .stopping → ∀ task, later ≠ .accepted task)
    (hlast : events.Pairwise fun earlier later => earlier = .stopped → later.task = none)
    (haccept : state.shutdown = true → ∀ task, .accepted task ∉ events)
    (htask : state.closing = .closed → ∀ event ∈ events, event.task = none)
    (hstopping : .stopping ∈ events ∨ state.shutdown = true → next.shutdown = true)
    (hstopped : .stopped ∈ events ∨ state.closing = .closed → next.closing = .closed)
    (hlog : next.log = state.log ++ events) : Ends next := by
  constructor <;> rw [hlog]
  · intro hmem
    exact hstopping ((List.mem_append.mp hmem).symm.imp_right h.stopping)
  · intro hmem
    exact hstopped ((List.mem_append.mp hmem).symm.imp_right h.stopped)
  · refine List.pairwise_append.mpr ⟨h.rejects, hrejects, ?_⟩
    rintro _ hearlier later hlater rfl task rfl
    exact haccept (h.stopping hearlier) task hlater
  · refine List.pairwise_append.mpr ⟨h.last, hlast, ?_⟩
    rintro _ hearlier later hlater rfl
    exact htask (h.stopped hearlier) later hlater

/-- What a worker does is about tasks that were accepted before. -/
def Reports (state next : State workers) : Prop :=
  next.shutdown = state.shutdown ∧ next.closing = state.closing ∧
    ∃ events, next.log = state.log ++ events ∧
      ∀ event ∈ events, ∃ task, event.task = some task ∧ event ≠ .accepted task

theorem Reports.silent (hshutdown : next.shutdown = state.shutdown)
    (hclosing : next.closing = state.closing) (hlog : next.log = state.log) :
    Reports state next :=
  ⟨hshutdown, hclosing, [], by simp [hlog], by simp⟩

theorem Reports.pick (config : Config) (batch : List Task) :
    Reports state (state.pick config worker batch) := by
  have hbackground : Reports state (state.takeBackground worker batch) := by
    unfold State.takeBackground
    split
    · exact .silent rfl rfl rfl
    · exact ⟨rfl, rfl, _, rfl, by simp [Event.task]⟩
  have hforeground : Reports state (state.takeForeground worker batch) := by
    unfold State.takeForeground
    split
    · exact .silent rfl rfl rfl
    · exact ⟨rfl, rfl, _, rfl, by simp [Event.task]⟩
  have hleave : Reports state (state.leaveBatch worker batch) := .silent rfl rfl rfl
  grind [State.pick]

theorem Reports.work {config : Config} (hstep : state.work config worker = some next) :
    state.phases worker ≠ .exited ∧ Reports state next := by
  unfold State.work at hstep
  split at hstep <;> rename_i hnow <;> refine ⟨by grind, ?_⟩
  · have hwaits : Reports state (state.takeNextBatch worker) := by
      unfold State.takeNextBatch
      split
      · split <;> exact .silent rfl rfl rfl
      · exact .silent rfl rfl rfl
    grind
  · cases hstep
  · cases hstep
  · cases hstep
    exact .pick config _
  · cases hstep
    exact ⟨rfl, rfl, _, rfl, by simp [Event.task]⟩
  · cases hstep
    exact ⟨rfl, rfl, _, rfl, by simp [Event.task]⟩
  · cases hstep
    exact ⟨rfl, rfl, _, rfl, by simp [Event.task]⟩
  · cases hstep
    exact .silent rfl rfl rfl
  · cases hstep
    exact ⟨rfl, rfl, _, rfl, by simp [Event.task]⟩

theorem work (h : Ends state) (hcloses : Closes state) {config : Config}
    (hstep : state.work config worker = some next) : Ends next := by
  obtain ⟨hexited, hshutdown, hclosing, events, hlog, hevents⟩ := Reports.work hstep
  have hopen : state.closing ≠ .closed := fun hclosed => hexited (hcloses.closed hclosed worker)
  have htask : ∀ event ∈ events, event.task ≠ none ∧ ∀ task, event ≠ .accepted task := by
    intro event hevent
    obtain ⟨task, hsome, hne⟩ := hevents event hevent
    refine ⟨by simp [hsome], ?_⟩
    rintro other rfl
    cases hsome
    exact hne rfl
  refine h.append events ?_ ?_ ?_ (fun hclosed => absurd hclosed hopen) ?_ ?_ hlog
  · exact List.pairwise_of_forall_mem_list fun earlier _ later hlater _ => (htask later hlater).2
  · refine List.pairwise_of_forall_mem_list fun earlier hearlier later _ hstopped => ?_
    exact absurd (by rw [hstopped]; rfl) (htask earlier hearlier).1
  · exact fun _ task hmem => (htask _ hmem).2 task rfl
  · rw [hshutdown]
    exact fun hor => hor.resolve_left fun hmem => (htask _ hmem).1 rfl
  · rw [hclosing]
    exact fun hor => hor.resolve_left fun hmem => (htask _ hmem).1 rfl

theorem silent (h : Ends state) (hlog : next.log = state.log)
    (hshutdown : next.shutdown = state.shutdown)
    (hclosing : state.closing = .closed → next.closing = .closed) : Ends next :=
  h.append [] .nil .nil (by simp) (by simp) (by simp [hshutdown]) (by simpa using hclosing)
    (by simp [hlog])

theorem wake (h : Ends state) (worker : Fin workers) : Ends (state.wake worker) := by
  unfold State.wake
  split
  · exact h.silent rfl rfl id
  · exact h

theorem enqueue (h : Ends state) (hcloses : Closes state) (cleanerOwned : Bool)
    (sleeper : Option (Fin workers)) : Ends (state.enqueue cleanerOwned sleeper) := by
  unfold State.enqueue
  split
  · exact h.append [.rejected cleanerOwned] (List.pairwise_singleton _ _)
      (List.pairwise_singleton _ _) (by simp) (by simp [Event.task]) (by simp [State.record])
      (by simp [State.record]) rfl
  · rename_i hopen
    have hclosing : state.closing ≠ .closed := fun hclosed =>
      hopen (hcloses.flag.mpr (by simp [hclosed]))
    have hpush : Ends (state.push cleanerOwned) :=
      h.append [.accepted ⟨state.tickets, cleanerOwned⟩] (List.pairwise_singleton _ _)
        (List.pairwise_singleton _ _) (fun hset => absurd hset hopen)
        (fun hclosed => absurd hclosed hclosing) (by simp [State.push, State.record])
        (by simp [State.push, State.record]) rfl
    cases sleeper with
    | none => exact hpush
    | some worker => exact hpush.wake worker

theorem shutDown (h : Ends state) (hstep : state.shutDown = some next) : Ends next := by
  unfold State.shutDown at hstep
  split at hstep
  · rename_i hrunning
    split at hstep
    · cases hstep
      exact h.append [.stopping] (List.pairwise_singleton _ _) (List.pairwise_singleton _ _)
        (by simp) (by simp [Event.task]) (fun _ => rfl) (by simp [hrunning]) rfl
    · cases hstep
  · rename_i hclosed
    cases hstep
    exact h.append [.stopped] (List.pairwise_singleton _ _) (List.pairwise_singleton _ _)
      (by simp) (by simp [Event.task]) (by simp [State.record]) (fun _ => hclosed) rfl
  · cases hstep

theorem close (h : Ends state) (hstep : state.close = some next) : Ends next := by
  unfold State.close at hstep
  split at hstep
  · rename_i hflagged
    cases hstep
    exact h.silent rfl rfl (by simp [hflagged])
  · rename_i count hjoining
    split at hstep
    · split at hstep
      · cases hstep
        exact h.silent rfl rfl (by simp [hjoining])
      · cases hstep
    · split at hstep
      · cases hstep
        exact h.append [.stopped] (List.pairwise_singleton _ _) (List.pairwise_singleton _ _)
          (by simp) (by simp [Event.task]) (by simp [State.record]) (fun _ => rfl) rfl
      · cases hstep
  · cases hstep

theorem step (h : Ends state) (hcloses : Closes state) {config : Config} {move : Move workers}
    (hstep : FlushScheduler.step config state move = some next) : Ends next := by
  cases move with
  | enqueue cleanerOwned sleeper =>
      simp only [FlushScheduler.step, Option.ite_none_right_eq_some, Option.some.injEq] at hstep
      obtain ⟨-, rfl⟩ := hstep
      exact h.enqueue hcloses cleanerOwned sleeper
  | work worker => exact h.work hcloses hstep
  | wake worker =>
      cases hstep
      exact h.wake worker
  | shutDown => exact h.shutDown hstep
  | close => exact h.close hstep

end Ends

/-! ### Every accepted task is run once -/

/-- Every task goes its path under one worker, in the order of its class; nothing is accepted
after the flag is set, and nothing is left when `Shutdown` returns.  As long as a task is not
completed a worker can go on, and a `Shutdown` that has begun can go on or waits for one that
can. -/
structure RunsTasksOnce (config : Config) (state : State workers) : Prop where
  once : ∀ task, ∃ worker, about task state.log <+: path worker task .completed
  inOrder : ∀ cleanerOwned, takenOf cleanerOwned state.log <+: acceptedOf cleanerOwned state.log
  rejects : state.log.Pairwise fun earlier later =>
    earlier = .stopping → ∀ task, later ≠ .accepted task
  drained : .stopped ∈ state.log → ∀ task, .accepted task ∈ state.log →
    ∃ worker, about task state.log = path worker task .completed
  last : state.log.Pairwise fun earlier later => earlier = .stopped → later.task = none
  goesOn : ∀ task, .accepted task ∈ state.log →
    (∀ worker, .completed worker task ∉ state.log) →
    ∃ worker, (state.work config worker).isSome = true
  returns : state.closing ≠ .running → state.closing ≠ .closed →
    state.close.isSome = true ∨ ∃ worker, (state.work config worker).isSome = true

namespace RunsTasksOnce

variable {state : State workers} {config : Config}

theorem task_cases (h : Tracks state) (task : Task) :
    (∃ cleanerOwned, task ∈ state.queue cleanerOwned ∧
        about task state.log = [.accepted task]) ∨
      (∃ worker stage, task ∈ (state.phases worker).tasks ∧
        about task state.log = path worker task stage) ∨
      (about task state.log = [] ∨
        ∃ worker, about task state.log = path worker task .completed) := by
  by_cases hheld : ∃ place, task ∈ state.holds place
  · obtain ⟨place, hmem⟩ := hheld
    cases place with
    | queue cleanerOwned => exact .inl ⟨cleanerOwned, hmem, (h.queued cleanerOwned task hmem).2⟩
    | worker worker =>
        obtain ⟨stage, hhand⟩ := Phase.exists_hand hmem
        exact .inr (.inl ⟨worker, stage, hmem, h.handled worker _ hhand⟩)
  · exact .inr (.inr (h.gone task fun place hmem => hheld ⟨place, hmem⟩))

theorem about_ne_nil {task : Task} (hmem : .accepted task ∈ state.log) :
    about task state.log ≠ [] :=
  List.ne_nil_of_mem (mem_about.mpr ⟨hmem, rfl⟩)

theorem of_invariants (hworkers : 0 < workers) (htracks : Tracks state) (hcloses : Closes state)
    (hends : Ends state) : RunsTasksOnce config state where
  once task := by
    rcases task_cases htracks task with ⟨_, _, habout⟩ | ⟨worker, stage, _, habout⟩ |
      habout | ⟨worker, habout⟩
    · exact ⟨⟨0, hworkers⟩, by simp [habout, path]⟩
    · exact ⟨worker, habout ▸ path_isPrefix worker task stage⟩
    · exact ⟨⟨0, hworkers⟩, by simp [habout]⟩
    · exact ⟨worker, habout ▸ List.prefix_rfl⟩
  inOrder cleanerOwned := ⟨_, (htracks.order cleanerOwned).symm⟩
  rejects := hends.rejects
  drained hstopped task haccepted := by
    have hexited := hcloses.closed (hends.stopped hstopped)
    rcases task_cases htracks task with ⟨cleanerOwned, hmem, _⟩ | ⟨worker, _, hmem, _⟩ |
      habout | hdone
    · rw [(hcloses.exited ⟨0, hworkers⟩ (hexited _)).2 cleanerOwned] at hmem
      exact absurd hmem List.not_mem_nil
    · rw [hexited worker] at hmem
      exact absurd hmem List.not_mem_nil
    · exact absurd habout (about_ne_nil haccepted)
    · exact hdone
  last := hends.last
  goesOn task haccepted hopen := by
    rcases task_cases htracks task with ⟨cleanerOwned, hmem, _⟩ | ⟨worker, _, hmem, _⟩ |
      habout | ⟨worker, habout⟩
    · obtain ⟨worker, hasleep, hexited⟩ :=
        hcloses.awake cleanerOwned (List.ne_nil_of_mem hmem)
      exact hcloses.exists_work config hasleep hexited
    · have hasleep : state.phases worker ≠ .asleep := by
        intro hphase
        rw [hphase] at hmem
        exact absurd hmem List.not_mem_nil
      have hexited : state.phases worker ≠ .exited := by
        intro hphase
        rw [hphase] at hmem
        exact absurd hmem List.not_mem_nil
      exact hcloses.exists_work config hasleep hexited
    · exact absurd habout (about_ne_nil haccepted)
    · have hcompleted : .completed worker task ∈ about task state.log := by simp [habout, path]
      exact absurd (mem_about.mp hcompleted).1 (hopen worker)
  returns hrunning hclosed := by
    cases hclosing : state.closing with
    | running => exact absurd hclosing hrunning
    | closed => exact absurd hclosing hclosed
    | flagged => exact .inl (by simp [State.close, hclosing])
    | joining count =>
        by_cases hlt : count < workers
        · by_cases hexited : state.phases ⟨count, hlt⟩ = .exited
          · exact .inl (by simp [State.close, hclosing, hlt, hexited])
          · have hasleep := hcloses.woken hrunning (by simp [hclosing]) ⟨count, hlt⟩
            exact .inr (hcloses.exists_work config hasleep hexited)
        · have hfree : state.latch = none := by
            cases hlatch : state.latch with
            | none => rfl
            | some holder =>
                obtain ⟨batch, hpicking⟩ := (hcloses.latch holder).mp hlatch
                have hexited := hcloses.joined count hclosing holder (by omega)
                cases hpicking.symm.trans hexited
          exact .inl (by simp [State.close, hclosing, hlt, hfree])

end RunsTasksOnce

/-- One worker takes a foreground and a background task in one batch while `Shutdown` sets
its flag; the tasks are completed when it returns. -/
def drainedMoves : List (Move 2) :=
  [.enqueue false none, .enqueue true none, .work 0, .work 0, .work 0, .work 0, .shutDown,
    .enqueue false none, .work 0, .work 0, .work 0, .work 0, .work 0, .work 0, .work 0, .work 0,
    .close, .work 0, .work 1, .close, .close, .close]

end TelePath.FlushScheduler
