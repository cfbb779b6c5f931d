import Mathlib.Data.List.Perm.Basic
import TelePath.Buffer.FlushScheduler
import TelePath.Logic.Custody

/-!
Where the flush scheduler's tasks are, and what its log tells about them.
-/

namespace TelePath.FlushScheduler

open Logic

variable {workers : Nat}

/-! ### What the log tells about a task -/

def Event.task : Event workers → Option Task
  | .accepted task | .taken _ task | .started _ task | .submitted _ task | .notified _ task
  | .completed _ task => some task
  | .rejected _ | .stopping | .stopped => none

def about (task : Task) (log : List (Event workers)) : List (Event workers) :=
  log.filter fun event => event.task = some task

/-- The accepted tasks of one class in the order in which they were enqueued. -/
def acceptedOf (cleanerOwned : Bool) (log : List (Event workers)) : List Task :=
  log.filterMap fun
    | .accepted task => if task.cleanerOwned = cleanerOwned then some task else none
    | _ => none

/-- The tasks of one class in the order in which workers have taken them. -/
def takenOf (cleanerOwned : Bool) (log : List (Event workers)) : List Task :=
  log.filterMap fun
    | .taken _ task => if task.cleanerOwned = cleanerOwned then some task else none
    | _ => none

inductive Stage where
  | taken
  | started
  | submitted
  | notified
  | completed
  deriving DecidableEq, Repr

def path (worker : Fin workers) (task : Task) : Stage → List (Event workers)
  | .taken => [.accepted task, .taken worker task]
  | .started => [.accepted task, .taken worker task, .started worker task]
  | .submitted =>
      [.accepted task, .taken worker task, .started worker task, .submitted worker task]
  | .notified =>
      [.accepted task, .taken worker task, .started worker task, .submitted worker task,
        .notified worker task]
  | .completed =>
      [.accepted task, .taken worker task, .started worker task, .submitted worker task,
        .notified worker task, .completed worker task]

theorem path_isPrefix (worker : Fin workers) (task : Task) (stage : Stage) :
    path worker task stage <+: path worker task .completed := by
  cases stage <;> simp [path]

@[simp] theorem about_nil (task : Task) : about task ([] : List (Event workers)) = [] := rfl

@[simp] theorem about_append (task : Task) (log events : List (Event workers)) :
    about task (log ++ events) = about task log ++ about task events :=
  List.filter_append ..

theorem about_singleton (task : Task) (event : Event workers) :
    about task [event] = if event.task = some task then [event] else [] := by
  simp only [about, List.filter_cons, List.filter_nil, decide_eq_true_eq]

theorem about_append_of_ne {task other : Task} {log : List (Event workers)}
    {event : Event workers} (hevent : event.task = some task) (hne : other ≠ task) :
    about other (log ++ [event]) = about other log := by
  rw [about_append, about_singleton, if_neg, List.append_nil]
  simpa [hevent] using hne.symm

theorem mem_about {task : Task} {log : List (Event workers)} {event : Event workers} :
    event ∈ about task log ↔ event ∈ log ∧ event.task = some task := by
  simp [about]

@[simp] theorem acceptedOf_append (cleanerOwned : Bool) (log events : List (Event workers)) :
    acceptedOf cleanerOwned (log ++ events) =
      acceptedOf cleanerOwned log ++ acceptedOf cleanerOwned events :=
  List.filterMap_append ..

@[simp] theorem takenOf_append (cleanerOwned : Bool) (log events : List (Event workers)) :
    takenOf cleanerOwned (log ++ events) =
      takenOf cleanerOwned log ++ takenOf cleanerOwned events :=
  List.filterMap_append ..

theorem mem_acceptedOf {task : Task} {log : List (Event workers)}
    (h : .accepted task ∈ log) : task ∈ acceptedOf task.cleanerOwned log :=
  List.mem_filterMap.mpr ⟨_, h, by simp⟩

/-! ### Where a task is -/

/-- The tasks of a worker with how far they are. -/
def Phase.hands : Phase → List (Task × Stage)
  | .waiting | .asleep | .exited => []
  | .picking batch => batch.map (·, .taken)
  | .starting started rest => started.map (·, .started) ++ rest.map (·, .taken)
  | .completing rest => rest.map (·, .submitted)
  | .notified task rest => (task, .notified) :: rest.map (·, .submitted)

def Phase.tasks (phase : Phase) : List Task := phase.hands.map Prod.fst

inductive Place (workers : Nat) where
  | queue (cleanerOwned : Bool)
  | worker (worker : Fin workers)
  deriving DecidableEq

namespace State

def queue (state : State workers) : Bool → List Task
  | true => state.background
  | false => state.foreground

def holds (state : State workers) : Place workers → List Task
  | .queue cleanerOwned => state.queue cleanerOwned
  | .worker worker => (state.phases worker).tasks

end State

theorem Phase.exists_hand {phase : Phase} {task : Task} (h : task ∈ phase.tasks) :
    ∃ stage, (task, stage) ∈ phase.hands := by
  obtain ⟨⟨_, stage⟩, hmem, rfl⟩ := List.mem_map.mp h
  exact ⟨stage, hmem⟩

theorem Phase.mem_tasks {phase : Phase} {hand : Task × Stage} (h : hand ∈ phase.hands) :
    hand.1 ∈ phase.tasks :=
  List.mem_map_of_mem h

/-- Every task is in one place, and the log tells where. -/
structure Tracks (state : State workers) : Prop where
  custody : ∃ pending, Custody state.holds pending
  queued : ∀ cleanerOwned, ∀ task ∈ state.queue cleanerOwned,
    task.cleanerOwned = cleanerOwned ∧ about task state.log = [.accepted task]
  handled : ∀ worker, ∀ hand ∈ (state.phases worker).hands,
    about hand.1 state.log = path worker hand.1 hand.2
  gone : ∀ task, (∀ place, task ∉ state.holds place) →
    about task state.log = [] ∨ ∃ worker, about task state.log = path worker task .completed
  fresh : ∀ task, .accepted task ∈ state.log → task.ticket < state.tickets
  order : ∀ cleanerOwned, acceptedOf cleanerOwned state.log =
    takenOf cleanerOwned state.log ++ state.queue cleanerOwned

namespace Tracks

variable {state next : State workers} {worker : Fin workers}

theorem initial : Tracks ({} : State workers) where
  custody := by
    have hempty : ({} : State workers).holds = fun _ => [] := by
      funext place
      rcases place with (_ | _) | _ <;> rfl
    rw [hempty]
    exact ⟨fun _ => False, by simp, by simp, by simp⟩
  queued := by
    rintro (_ | _) <;> simp [State.queue]
  handled := by simp [Phase.hands]
  gone := by simp
  fresh := by simp
  order := by
    rintro (_ | _) <;> rfl

theorem ticket_lt (h : Tracks state) {place : Place workers} {task : Task}
    (hmem : task ∈ state.holds place) : task.ticket < state.tickets := by
  have habout : .accepted task ∈ about task state.log := by
    cases place with
    | queue cleanerOwned => simp [(h.queued cleanerOwned task hmem).2]
    | worker worker =>
        obtain ⟨stage, hhand⟩ := Phase.exists_hand hmem
        rw [h.handled worker _ hhand]
        cases stage <;> simp [path]
  exact h.fresh task (mem_about.mp habout).1

theorem handle (h : Tracks state) (phase : Phase) (events : List (Event workers))
    (done : List Task)
    (hperm : (state.phases worker).tasks.Perm (phase.tasks ++ done))
    (hothers : ∀ task, task ∉ (state.phases worker).tasks → about task events = [])
    (hhands : ∀ hand ∈ phase.hands,
      about hand.1 (state.log ++ events) = path worker hand.1 hand.2)
    (hdone : ∀ task ∈ done, about task (state.log ++ events) = path worker task .completed)
    (hevents : ∀ cleanerOwned,
      acceptedOf cleanerOwned events = [] ∧ takenOf cleanerOwned events = [])
    (hqueue : next.queue = state.queue) (htickets : next.tickets = state.tickets)
    (hphases : next.phases = Function.update state.phases worker phase)
    (hlog : next.log = state.log ++ events) : Tracks next := by
  obtain ⟨pending, hcustody⟩ := h.custody
  have hphase := congrFun hphases
  have hqueues := congrFun hqueue
  have hhold : ∀ place, next.holds place =
      Function.update state.holds (.worker worker) phase.tasks place := by
    intro place
    cases place <;> grind [State.holds]
  have hkeep : ∀ task, task ∉ (state.phases worker).tasks →
      about task (state.log ++ events) = about task state.log := by
    intro task hother
    rw [about_append, hothers task hother, List.append_nil]
  have hforeign : ∀ place ≠ .worker worker, ∀ task ∈ state.holds place,
      task ∉ (state.phases worker).tasks := fun place hne task hmem hmine =>
    hne (hcustody.unique place (.worker worker) task hmem hmine)
  have hmem : ∀ task, task ∈ (state.phases worker).tasks ↔ task ∈ phase.tasks ∨ task ∈ done :=
    fun task => by rw [hperm.mem_iff, List.mem_append]
  constructor
  · have hmine : (state.holds (.worker worker)).Perm (phase.tasks ++ done) := hperm
    exact ⟨_, (hcustody.release (.worker worker) hmine).relabel hhold⟩
  · intro cleanerOwned task hmem
    have hother := hforeign (.queue cleanerOwned) nofun task
    have hbefore := h.queued cleanerOwned task
    grind [State.holds]
  · intro other hand hmem
    have hbefore := h.handled other hand
    by_cases hsame : other = worker
    · grind
    · have hhand : hand ∈ (state.phases other).hands := by grind
      have hother := hforeign (.worker other) (by simpa) hand.1 (Phase.mem_tasks hhand)
      grind
  · intro task hfree
    by_cases hmine : task ∈ (state.phases worker).tasks
    · have hkept := hfree (.worker worker)
      grind [State.holds]
    · rw [hlog, hkeep task hmine]
      exact h.gone task fun place hplace => hfree place (by grind [State.holds])
  · intro task hmem
    have hold := h.fresh task
    have hnew := (hevents task.cleanerOwned).1
    grind [mem_acceptedOf]
  · intro cleanerOwned
    rw [hlog, acceptedOf_append, takenOf_append, (hevents cleanerOwned).1,
      (hevents cleanerOwned).2, List.append_nil, List.append_nil, hqueue]
    exact h.order cleanerOwned

theorem quiet (h : Tracks state) (events : List (Event workers))
    (hevents : ∀ event ∈ events, event.task = none) (hqueue : next.queue = state.queue)
    (htickets : next.tickets = state.tickets)
    (hphases : ∀ worker, (next.phases worker).hands = (state.phases worker).hands)
    (hlog : next.log = state.log ++ events) : Tracks next := by
  have habout : ∀ task, about task next.log = about task state.log := by
    intro task
    have hnone : about task events = [] :=
      List.filter_eq_nil_iff.mpr fun event hevent => by simp [hevents event hevent]
    rw [hlog, about_append, hnone, List.append_nil]
  have hhold : ∀ place, next.holds place = state.holds place := by
    intro place
    cases place <;> simp [State.holds, Phase.tasks, hphases, hqueue]
  have hnone : ∀ cleanerOwned,
      acceptedOf cleanerOwned events = [] ∧ takenOf cleanerOwned events = [] := by
    intro cleanerOwned
    constructor <;> refine List.filterMap_eq_nil_iff.mpr fun event hevent => ?_ <;>
      have htask := hevents event hevent <;> cases event <;> simp_all [Event.task]
  obtain ⟨pending, hcustody⟩ := h.custody
  constructor
  · exact ⟨pending, hcustody.relabel hhold⟩
  · intro cleanerOwned task hmem
    rw [habout]
    exact h.queued cleanerOwned task (hqueue ▸ hmem)
  · intro worker hand hmem
    rw [habout]
    exact h.handled worker hand (hphases worker ▸ hmem)
  · intro task hfree
    rw [habout]
    exact h.gone task fun place hplace => hfree place (hhold place ▸ hplace)
  · intro task hmem
    rw [hlog, List.mem_append] at hmem
    rw [htickets]
    exact h.fresh task (hmem.resolve_right fun hnew => nomatch hevents _ hnew)
  · intro cleanerOwned
    rw [hlog, acceptedOf_append, takenOf_append, (hnone cleanerOwned).1, (hnone cleanerOwned).2,
      List.append_nil, List.append_nil, hqueue]
    exact h.order cleanerOwned

theorem idle (h : Tracks state) (phase : Phase)
    (hhands : phase.hands = (state.phases worker).hands)
    (hqueue : next.queue = state.queue) (htickets : next.tickets = state.tickets)
    (hphases : next.phases = Function.update state.phases worker phase)
    (hlog : next.log = state.log) : Tracks next := by
  refine h.quiet [] (by simp) hqueue htickets (fun other => ?_) (by simp [hlog])
  rw [hphases]
  by_cases heq : other = worker
  · subst heq
    rw [Function.update_self, hhands]
  · rw [Function.update_of_ne heq]

theorem take (h : Tracks state) (cleanerOwned : Bool) {batch rest : List Task} {task : Task}
    (hpicking : state.phases worker = .picking batch)
    (hfirst : state.queue cleanerOwned = task :: rest)
    (hqueue : next.queue = Function.update state.queue cleanerOwned rest)
    (htickets : next.tickets = state.tickets)
    (hphases : next.phases = Function.update state.phases worker (.picking (batch ++ [task])))
    (hlog : next.log = state.log ++ [.taken worker task]) : Tracks next := by
  obtain ⟨pending, hcustody⟩ := h.custody
  have hmem : task ∈ state.holds (.queue cleanerOwned) := by
    simp [State.holds, hfirst]
  obtain ⟨hclass, habout⟩ := h.queued cleanerOwned task hmem
  have hqueues := congrFun hqueue
  have hphase := congrFun hphases
  have hhold : ∀ place, next.holds place =
      Function.update (Function.update state.holds (.queue cleanerOwned) rest) (.worker worker)
        (state.holds (.worker worker) ++ [task]) place := by
    intro place
    cases place <;> grind [State.holds, Phase.tasks, Phase.hands]
  have hperm : (state.holds (.queue cleanerOwned)).Perm (rest ++ [task]) := by
    rw [show state.holds (.queue cleanerOwned) = task :: rest from hfirst]
    exact (List.perm_append_singleton task rest).symm
  have hkeep : ∀ other, other ≠ task → about other next.log = about other state.log := by
    intro other hne
    rw [hlog]
    exact about_append_of_ne rfl hne
  have htask : about task next.log = path worker task .taken := by
    rw [hlog, about_append, habout]
    simp [about_singleton, Event.task, path]
  have hnodup : (task :: rest).Nodup := hfirst ▸ hcustody.nodup (.queue cleanerOwned)
  have halone : ∀ place, place ≠ .queue cleanerOwned → task ∉ state.holds place :=
    fun place hne hplace => hne (hcustody.unique place _ task hplace hmem)
  constructor
  · exact ⟨pending, (hcustody.transfer (.queue cleanerOwned) (.worker worker) nofun hperm).relabel
      hhold⟩
  · intro other waiting hwaiting
    have hbefore := h.queued other waiting
    have hplace := halone (.queue other)
    grind [State.holds]
  · intro other hand hhand
    by_cases heq : hand.1 = task
    · by_cases hworker : other = worker
      · have hstage : hand.2 = .taken := by grind [Phase.hands]
        rw [hworker, heq, hstage]
        exact htask
      · have hold : hand ∈ (state.phases other).hands := by grind
        exact absurd (heq ▸ Phase.mem_tasks hold) (halone (.worker other) nofun)
    · rw [hkeep hand.1 heq]
      exact h.handled other hand (by grind [Phase.hands])
  · intro other hfree
    have hmine := hfree (.worker worker)
    have hne : other ≠ task := by grind
    rw [hkeep other hne]
    exact h.gone other fun place hplace => hfree place (by grind [State.holds])
  · intro other hother
    rw [hlog, List.mem_append] at hother
    rw [htickets]
    exact h.fresh other (hother.resolve_right (by simp))
  · intro other
    rw [hlog, acceptedOf_append, takenOf_append, hqueue, h.order other]
    by_cases heq : other = cleanerOwned
    · subst heq
      simp [acceptedOf, takenOf, hclass, hfirst]
    · have hne : task.cleanerOwned ≠ other := fun hsame => heq (hsame.symm.trans hclass)
      simp [acceptedOf, takenOf, hne, heq]

theorem accept (h : Tracks state) {cleanerOwned : Bool} {task : Task}
    (htask : task = ⟨state.tickets, cleanerOwned⟩)
    (hqueue : next.queue =
      Function.update state.queue cleanerOwned (state.queue cleanerOwned ++ [task]))
    (htickets : next.tickets = state.tickets + 1) (hphases : next.phases = state.phases)
    (hlog : next.log = state.log ++ [.accepted task]) : Tracks next := by
  obtain ⟨pending, hcustody⟩ := h.custody
  have hticket : task.ticket = state.tickets := by rw [htask]
  have hnew : ∀ place, task ∉ state.holds place := by
    intro place hmem
    exact absurd (h.ticket_lt hmem) (by omega)
  have hunheard : about task state.log = [] := by
    rcases h.gone task hnew with hnone | ⟨worker, hpath⟩
    · exact hnone
    · have hmem : .accepted task ∈ about task state.log := by simp [hpath, path]
      exact absurd (h.fresh task (mem_about.mp hmem).1) (by omega)
  have hkeep : ∀ other, other ≠ task → about other next.log = about other state.log := by
    intro other hne
    rw [hlog]
    exact about_append_of_ne rfl hne
  have hqueues := congrFun hqueue
  have hhold : ∀ place, next.holds place = Function.update state.holds (.queue cleanerOwned)
      (state.holds (.queue cleanerOwned) ++ [task]) place := by
    intro place
    cases place <;> grind [State.holds]
  have htaskAbout : about task next.log = [.accepted task] := by
    rw [hlog, about_append, hunheard]
    simp [about_singleton, Event.task]
  constructor
  · refine ⟨_, Custody.relabel (hcustody.receive (.queue cleanerOwned)
      (List.nodup_singleton task) ?_) hhold⟩
    intro item hitem hpending
    obtain ⟨place, hplace⟩ := (hcustody.held_iff item).mpr hpending
    rw [List.mem_singleton.mp hitem] at hplace
    exact hnew place hplace
  · intro other waiting hwaiting
    have hbefore := h.queued other waiting
    have hother := hnew (.queue other)
    grind [State.holds]
  · intro other hand hhand
    rw [hphases] at hhand
    have hne : hand.1 ≠ task := fun heq => hnew (.worker other) (heq ▸ Phase.mem_tasks hhand)
    rw [hkeep hand.1 hne]
    exact h.handled other hand hhand
  · intro other hfree
    have hqueued := hfree (.queue cleanerOwned)
    have hne : other ≠ task := by grind
    rw [hkeep other hne]
    exact h.gone other fun place hplace => hfree place (by grind)
  · intro other hother
    have hbefore := h.fresh other
    grind
  · intro other
    rw [hlog, acceptedOf_append, takenOf_append, hqueue, h.order other]
    by_cases heq : other = cleanerOwned
    · subst heq
      simp [acceptedOf, takenOf, htask]
    · have hne : cleanerOwned ≠ other := fun hsame => heq hsame.symm
      simp [acceptedOf, takenOf, htask, hne, heq]

theorem advance (h : Tracks state) {before after : List (Task × Stage)} {task : Task}
    {now later : Stage} {event : Event workers} (phase : Phase)
    (hnow : (state.phases worker).hands = before ++ (task, now) :: after)
    (hlater : phase.hands = before ++ (task, later) :: after)
    (hpath : path worker task now ++ [event] = path worker task later)
    (hevent : event.task = some task)
    (hevents : ∀ cleanerOwned,
      acceptedOf cleanerOwned [event] = [] ∧ takenOf cleanerOwned [event] = [])
    (hqueue : next.queue = state.queue) (htickets : next.tickets = state.tickets)
    (hphases : next.phases = Function.update state.phases worker phase)
    (hlog : next.log = state.log ++ [event]) : Tracks next := by
  obtain ⟨pending, hcustody⟩ := h.custody
  have htasks : (state.phases worker).tasks =
      before.map Prod.fst ++ task :: after.map Prod.fst := by
    simp [Phase.tasks, hnow]
  have hnodup : (before.map Prod.fst ++ task :: after.map Prod.fst).Nodup :=
    htasks ▸ hcustody.nodup (.worker worker)
  have hmine : task ∈ (state.phases worker).tasks := by
    simp [htasks]
  refine h.handle phase [event] [] ?_ ?_ ?_ (by simp) hevents hqueue htickets hphases hlog
  · rw [htasks]
    simp [Phase.tasks, hlater]
  · intro other hother
    have hne : task ≠ other := fun heq => hother (heq ▸ hmine)
    simpa [about_singleton, hevent] using hne
  · intro hand hmem
    by_cases heq : hand.1 = task
    · have hstage := h.handled worker (task, now) (by simp [hnow])
      have hhand : hand = (task, later) := by
        have hother : hand ∉ before ++ after := fun hold => by
          have hout := (List.nodup_cons.mp (List.nodup_middle.mp hnodup)).1
          rw [← List.map_append] at hout
          exact hout (heq ▸ List.mem_map_of_mem hold)
        grind
      rw [hhand, about_append, hstage, about_singleton, if_pos hevent]
      exact hpath
    · rw [about_append_of_ne hevent heq]
      exact h.handled worker hand (by grind)

theorem submit (h : Tracks state) {started : List Task}
    (hnow : state.phases worker = .starting started [])
    (hqueue : next.queue = state.queue) (htickets : next.tickets = state.tickets)
    (hphases : next.phases = Function.update state.phases worker (.completing started))
    (hlog : next.log = state.log ++ started.map (.submitted worker)) : Tracks next := by
  obtain ⟨pending, hcustody⟩ := h.custody
  have htasks : (state.phases worker).tasks = started := by
    simp [hnow, Phase.tasks, Phase.hands, Function.comp_def]
  have habout : ∀ task, about task (started.map (.submitted worker)) =
      (started.filter (· = task)).map (.submitted worker) := by
    intro task
    simp [about, List.filter_map, Function.comp_def, Event.task]
  refine h.handle (.completing started) _ [] ?_ ?_ ?_ (by simp) ?_ hqueue htickets hphases hlog
  · rw [htasks]
    simp [Phase.tasks, Phase.hands, Function.comp_def]
  · intro task hother
    rw [habout, List.map_eq_nil_iff, List.filter_eq_nil_iff]
    intro other hmem
    simp only [decide_eq_true_eq]
    rintro rfl
    exact hother (htasks ▸ hmem)
  · intro hand hhand
    obtain ⟨task, hmem, rfl⟩ := List.mem_map.mp hhand
    have hstage := h.handled worker (task, .started) (by simpa [hnow, Phase.hands] using hmem)
    have hnodup : started.Nodup := htasks ▸ hcustody.nodup (.worker worker)
    have honce : started.filter (· = task) = [task] := by
      rw [List.filter_eq, List.count_eq_one_of_mem hnodup hmem]
      rfl
    rw [about_append, hstage, habout, honce]
    rfl
  · intro cleanerOwned
    constructor <;> refine List.filterMap_eq_nil_iff.mpr fun event hevent => ?_ <;>
      obtain ⟨task, -, rfl⟩ := List.mem_map.mp hevent <;> rfl

theorem complete (h : Tracks state) {task : Task} {rest : List Task}
    (hnow : state.phases worker = .notified task rest)
    (hqueue : next.queue = state.queue) (htickets : next.tickets = state.tickets)
    (hphases : next.phases = Function.update state.phases worker (.completing rest))
    (hlog : next.log = state.log ++ [.completed worker task]) : Tracks next := by
  obtain ⟨pending, hcustody⟩ := h.custody
  have htasks : (state.phases worker).tasks = task :: rest := by
    simp [hnow, Phase.tasks, Phase.hands, Function.comp_def]
  have hnodup : (task :: rest).Nodup := htasks ▸ hcustody.nodup (.worker worker)
  refine h.handle (.completing rest) _ [task] ?_ ?_ ?_ ?_ (fun _ => ⟨rfl, rfl⟩) hqueue htickets
    hphases hlog
  · rw [htasks]
    simpa [Phase.tasks, Phase.hands, Function.comp_def] using
      (List.perm_append_singleton task rest).symm
  · intro other hother
    have hne : task ≠ other := by
      rintro rfl
      exact hother (by simp [htasks])
    simpa [about_singleton, Event.task] using hne
  · intro hand hhand
    have hne : hand.1 ≠ task := by grind [Phase.hands]
    rw [about_append_of_ne rfl hne]
    exact h.handled worker hand (by grind [Phase.hands])
  · intro other hmem
    rw [List.mem_singleton.mp hmem]
    have hstage := h.handled worker (task, .notified) (by simp [hnow, Phase.hands])
    rw [about_append, hstage]
    simp [about_singleton, Event.task, path]

theorem takeNextBatch (h : Tracks state) (hnow : state.phases worker = .waiting) :
    Tracks (state.takeNextBatch worker) := by
  have hhands : (state.phases worker).hands = [] := by simp [hnow, Phase.hands]
  unfold State.takeNextBatch
  split
  · split
    · exact h.idle .exited hhands.symm rfl rfl rfl rfl
    · exact h.idle .asleep hhands.symm rfl rfl rfl rfl
  · exact h.idle (.picking []) hhands.symm rfl rfl rfl rfl

theorem takeBackground (h : Tracks state) {batch : List Task}
    (hnow : state.phases worker = .picking batch) : Tracks (state.takeBackground worker batch) := by
  unfold State.takeBackground
  split
  · exact h
  · rename_i task rest hfirst
    refine h.take true hnow hfirst ?_ rfl rfl rfl
    funext cleanerOwned
    cases cleanerOwned <;> rfl

theorem takeForeground (h : Tracks state) {batch : List Task}
    (hnow : state.phases worker = .picking batch) : Tracks (state.takeForeground worker batch) := by
  unfold State.takeForeground
  split
  · exact h
  · rename_i task rest hfirst
    refine h.take false hnow hfirst ?_ rfl rfl rfl
    funext cleanerOwned
    cases cleanerOwned <;> rfl

theorem leaveBatch (h : Tracks state) {batch : List Task}
    (hnow : state.phases worker = .picking batch) : Tracks (state.leaveBatch worker batch) := by
  have hhands : (if batch.isEmpty then Phase.waiting else .starting [] batch).hands =
      (state.phases worker).hands := by
    cases batch <;> simp [hnow, Phase.hands]
  exact h.idle _ hhands rfl rfl rfl rfl

theorem pick (h : Tracks state) {config : Config} {batch : List Task}
    (hnow : state.phases worker = .picking batch) : Tracks (state.pick config worker batch) := by
  unfold State.pick
  split
  · split
    · exact h.takeBackground hnow
    · split
      · exact h.takeForeground hnow
      · split
        · exact h.leaveBatch hnow
        · exact h.takeBackground hnow
  · exact h.leaveBatch hnow

theorem work (h : Tracks state) {config : Config} (hstep : state.work config worker = some next) :
    Tracks next := by
  unfold State.work at hstep
  split at hstep
  · rename_i hnow
    split at hstep
    · cases hstep
      exact h.takeNextBatch hnow
    · cases hstep
  · cases hstep
  · cases hstep
  · rename_i batch hnow
    cases hstep
    exact h.pick hnow
  · rename_i started task rest hnow
    cases hstep
    have hhands : (state.phases worker).hands =
        started.map (·, .started) ++ (task, .taken) :: rest.map (·, .taken) := by
      simp [hnow, Phase.hands]
    have hlater : (Phase.starting (started ++ [task]) rest).hands =
        started.map (·, .started) ++ (task, .started) :: rest.map (·, .taken) := by
      simp [Phase.hands]
    exact h.advance _ hhands hlater rfl rfl (fun _ => ⟨rfl, rfl⟩) rfl rfl rfl rfl
  · rename_i started hnow
    cases hstep
    exact h.submit hnow rfl rfl rfl rfl
  · rename_i task rest hnow
    cases hstep
    have hhands : (state.phases worker).hands =
        [] ++ (task, .submitted) :: rest.map (·, .submitted) := by
      simp [hnow, Phase.hands]
    have hlater : (Phase.notified task rest).hands =
        [] ++ (task, .notified) :: rest.map (·, .submitted) := rfl
    exact h.advance _ hhands hlater rfl rfl (fun _ => ⟨rfl, rfl⟩) rfl rfl rfl rfl
  · rename_i hnow
    cases hstep
    exact h.idle .waiting (by simp [hnow, Phase.hands]) rfl rfl rfl rfl
  · rename_i task rest hnow
    cases hstep
    exact h.complete hnow rfl rfl rfl rfl

theorem wake (h : Tracks state) : Tracks (state.wake worker) := by
  unfold State.wake
  split
  · rename_i hasleep
    exact h.idle .waiting (by simp [hasleep, Phase.hands]) rfl rfl rfl rfl
  · exact h

theorem push (h : Tracks state) (cleanerOwned : Bool) : Tracks (state.push cleanerOwned) := by
  refine h.accept rfl ?_ rfl rfl rfl
  funext other
  cases cleanerOwned <;> cases other <;> rfl

theorem enqueue (h : Tracks state) (cleanerOwned : Bool) (sleeper : Option (Fin workers)) :
    Tracks (state.enqueue cleanerOwned sleeper) := by
  unfold State.enqueue
  split
  · exact h.quiet [.rejected cleanerOwned] (by simp [Event.task]) rfl rfl (fun _ => rfl) rfl
  · cases sleeper with
    | none => exact h.push cleanerOwned
    | some worker => exact (h.push cleanerOwned).wake

theorem shutDown (h : Tracks state) (hstep : state.shutDown = some next) : Tracks next := by
  unfold State.shutDown at hstep
  split at hstep
  · split at hstep
    · cases hstep
      exact h.quiet [.stopping] (by simp [Event.task]) rfl rfl (fun _ => rfl) rfl
    · cases hstep
  · cases hstep
    exact h.quiet [.stopped] (by simp [Event.task]) rfl rfl (fun _ => rfl) rfl
  · cases hstep

theorem close (h : Tracks state) (hstep : state.close = some next) : Tracks next := by
  unfold State.close at hstep
  split at hstep
  · cases hstep
    refine h.quiet [] (by simp) rfl rfl (fun worker => ?_) (by simp)
    by_cases hasleep : state.phases worker = .asleep
    · simp [hasleep, Phase.hands]
    · simp [hasleep]
  · split at hstep
    · split at hstep
      · cases hstep
        exact h.quiet [] (by simp) rfl rfl (fun _ => rfl) (by simp)
      · cases hstep
    · split at hstep
      · cases hstep
        exact h.quiet [.stopped] (by simp [Event.task]) rfl rfl (fun _ => rfl) rfl
      · cases hstep
  · cases hstep

theorem step (h : Tracks state) {config : Config} {move : Move workers}
    (hstep : FlushScheduler.step config state move = some next) : Tracks next := by
  cases move with
  | enqueue cleanerOwned sleeper =>
      simp only [FlushScheduler.step, Option.ite_none_right_eq_some, Option.some.injEq] at hstep
      obtain ⟨-, rfl⟩ := hstep
      exact h.enqueue cleanerOwned sleeper
  | work worker => exact h.work hstep
  | wake worker =>
      cases hstep
      exact h.wake
  | shutDown => exact h.shutDown hstep
  | close => exact h.close hstep

end Tracks

end TelePath.FlushScheduler
