import Mathlib.Data.Set.Card
import Mathlib.Logic.Function.Basic
import TelePath.Io.Engine
import TelePath.Io.UringBackend
import TelePath.Logic.Custody
import TelePath.Logic.Machine

/-!
Requests in `posix_disk_backend.cc`, from `Submit` to `Reap`.

Everything done under `latch_` is one step; a thread executes a request outside of it.
A thread in a condition wait goes on in any state in which its predicate holds, so
that runs with lost and with spurious wake-ups are among those considered.  Accepted
requests are numbered, which the code does not do, and `accepted` and `returned` record
what has happened.
-/

namespace TelePath.PosixBackend

open Logic
open IoEngine (DiskSubmitMode)

def kMaxDiskRequestBlocks : Nat := 32

/-- `buffers` are the first `blockCount` pointers, `none` for null. -/
structure DiskRequest where
  token : BitVec 64
  operation : IoUring.DiskOperation
  blockCount : Nat
  buffers : List (Option Nat)
  deriving DecidableEq, Repr

def invalidArgument (message : String) : Error := { code := .invalidArgument, message }

def shuttingDown : Error := { code := .unavailable, message := "disk backend is shutting down" }

def validateDiskRequest (request : DiskRequest) (maxRequestBlocks : Nat) : Status :=
  if request.operation = .sync then ok
  else if request.blockCount = 0 ∨ maxRequestBlocks < request.blockCount then
    some (invalidArgument "disk request block count is out of range")
  else if none ∈ request.buffers.take request.blockCount then
    some (invalidArgument "disk request buffer must not be null")
  else ok

/-- An accepted request. -/
structure Accepted where
  number : Nat
  request : DiskRequest
  deriving DecidableEq, Repr

structure DiskCompletion where
  accepted : Accepted
  status : Status
  deriving DecidableEq, Repr

def DiskCompletion.token (completion : DiskCompletion) : BitVec 64 :=
  completion.accepted.request.token

/-- A call of `Submit`: its arguments, the requests that its loop has still to go
through, and those it has had accepted, of which the code keeps the number. -/
structure Call where
  requests : List DiskRequest
  mode : DiskSubmitMode
  rest : List DiskRequest
  taken : List Accepted
  deriving DecidableEq, Repr

def Call.accepted (call : Call) : Nat := call.taken.length

/-- Who executes a request: a thread in `Submit`, or a worker. -/
inductive Executor where
  | submitter (call : Call)
  | worker
  deriving DecidableEq, Repr

/-- Where a thread stands: outside, at the head of the loop in `Submit`, executing, in
`Reap`, or at the head of `WorkerLoop`. -/
inductive Phase where
  | idle
  | submitting (call : Call)
  | executing (request : Accepted) (executor : Executor)
  | reaping (size : Nat) (wait : Bool)
  | working
  | ended
  deriving DecidableEq, Repr

def Call.take (call : Call) (request : Accepted) : Call :=
  { call with taken := call.taken ++ [request] }

/-- Where a thread goes on when it has executed `request`. -/
def Executor.next (request : Accepted) : Executor → Phase
  | .submitter call => .submitting (call.take request)
  | .worker => .working

def Phase.executes : Phase → List Accepted
  | .executing request _ => [request]
  | _ => []

/-- What `Submit` and `Reap` return, and with the first the call it ends. -/
inductive Outcome where
  | submitted (call : Call) (result : Result Nat)
  | reaped (result : Result (List DiskCompletion))
  deriving DecidableEq, Repr

def Outcome.completions : Outcome → List DiskCompletion
  | .reaped (.ok completions) => completions
  | _ => []

structure Backend (Thread : Type) where
  rootPath : String
  pending : List Accepted := []
  completed : List DiskCompletion := []
  executing : Nat := 0
  shutdown : Bool := false
  phases : Thread → Phase
  accepted : List Accepted := []
  returned : List (Thread × Outcome) := []

namespace Backend

variable {Thread : Type}

def reaped (backend : Backend Thread) : List DiskCompletion :=
  backend.returned.flatMap (·.2.completions)

def isDrainedLocked (backend : Backend Thread) : Bool :=
  backend.shutdown && backend.pending.isEmpty && backend.executing == 0

/-- What `Submit` checks before it takes the latch. -/
def check (backend : Backend Thread) (request : DiskRequest) : Status :=
  if backend.rootPath = "" then
    some (invalidArgument "disk backend root path must not be empty")
  else validateDiskRequest request kMaxDiskRequestBlocks

variable [DecidableEq Thread]

def setPhase (backend : Backend Thread) (thread : Thread) (phase : Phase) : Backend Thread :=
  { backend with phases := Function.update backend.phases thread phase }

/-- A call returns. -/
def finish (backend : Backend Thread) (thread : Thread) (outcome : Outcome) : Backend Thread :=
  { backend with returned := backend.returned ++ [(thread, outcome)] }.setPhase thread .idle

/-- `Submit` leaves its loop early: an error counts only if nothing was accepted. -/
def rejected (call : Call) (error : Error) : Outcome :=
  .submitted call (if call.accepted = 0 then .error error else .ok call.accepted)

/-- One round of the loop in `Submit`. -/
def submitOne (backend : Backend Thread) (thread : Thread) (call : Call)
    (request : DiskRequest) (rest : List DiskRequest) : Backend Thread :=
  let item : Accepted := ⟨backend.accepted.length, request⟩
  match backend.check request with
  | some error => backend.finish thread (rejected call error)
  | none =>
      if backend.shutdown then backend.finish thread (rejected call shuttingDown)
      else match call.mode with
        | .async =>
            { backend with
              pending := backend.pending ++ [item]
              accepted := backend.accepted ++ [item] }.setPhase thread
                (.submitting ({ call with rest }.take item))
        | .wait =>
            { backend with
              executing := backend.executing + 1
              accepted := backend.accepted ++ [item] }.setPhase thread
                (.executing item (.submitter { call with rest }))

def pushCompletion (backend : Backend Thread) (thread : Thread) (request : Accepted)
    (status : Status) (next : Phase) : Backend Thread :=
  { backend with
    completed := backend.completed ++ [(⟨request, status⟩ : DiskCompletion)]
    executing := backend.executing - 1 }.setPhase thread next

def reap (backend : Backend Thread) (thread : Thread) (size : Nat) (wait : Bool) :
    Option (Backend Thread) :=
  if backend.completed.isEmpty then
    if !wait then some (backend.finish thread (.reaped (.ok [])))
    else if backend.isDrainedLocked then
      some (backend.finish thread (.reaped (.error shuttingDown)))
    else none
  else
    some ({ backend with completed := backend.completed.drop size }.finish thread
      (.reaped (.ok (backend.completed.take size))))

/-- One round of `WorkerLoop` up to `Execute`. -/
def work (backend : Backend Thread) (thread : Thread) : Option (Backend Thread) :=
  match backend.pending with
  | [] => if backend.shutdown then some (backend.setPhase thread .ended) else none
  | request :: rest =>
      some ({ backend with
        pending := rest
        executing := backend.executing + 1 }.setPhase thread (.executing request .worker))

/-- A thread goes on; `status` is what `Execute` returns. -/
def advance (backend : Backend Thread) (thread : Thread) (status : Status) :
    Option (Backend Thread) :=
  match backend.phases thread with
  | .idle | .ended => none
  | .submitting call =>
      match call.rest with
      | [] => some (backend.finish thread (.submitted call (.ok call.accepted)))
      | request :: rest => some (backend.submitOne thread call request rest)
  | .executing request executor =>
      some (backend.pushCompletion thread request status (executor.next request))
  | .reaping size wait => backend.reap thread size wait
  | .working => backend.work thread

end Backend

inductive Move where
  | submit (mode : DiskSubmitMode) (requests : List DiskRequest)
  | reap (size : Nat) (wait : Bool)
  | shutdown
  | advance (status : Status)
  deriving DecidableEq, Repr

section Steps

variable {Thread : Type} [DecidableEq Thread]

def step (backend : Backend Thread) : Thread × Move → Option (Backend Thread)
  | (thread, .submit mode requests) =>
      if backend.phases thread = .idle then
        some (backend.setPhase thread (.submitting ⟨requests, mode, requests, []⟩))
      else none
  | (thread, .reap size wait) =>
      if backend.phases thread = .idle then some (backend.setPhase thread (.reaping size wait))
      else none
  | (thread, .shutdown) =>
      if backend.phases thread = .idle then some { backend with shutdown := true } else none
  | (thread, .advance status) => backend.advance thread status

/-- The backend after its constructor: the workers are at the head of their loop, the
other threads outside. -/
def initial (rootPath : String) (isWorker : Thread → Bool) : Backend Thread where
  rootPath := rootPath
  phases thread := if isWorker thread then .working else .idle

end Steps

/-! ### Every accepted request is in one place -/

/-- Where an accepted request can be. -/
inductive Holder (Thread : Type) where
  | pending
  | executing (thread : Thread)
  | completed
  | reaped
  deriving DecidableEq

section Conservation

variable {Thread : Type}

def Backend.holds (backend : Backend Thread) : Holder Thread → List Accepted
  | .pending => backend.pending
  | .executing thread => (backend.phases thread).executes
  | .completed => backend.completed.map (·.accepted)
  | .reaped => backend.reaped.map (·.accepted)

def Backend.Counted (backend : Backend Thread) : Prop :=
  { thread | (backend.phases thread).executes ≠ [] }.encard = backend.executing

def Backend.Refused (backend : Backend Thread) : Prop :=
  ∃ thread error, (thread, Outcome.reaped (.error error)) ∈ backend.returned

structure Sound (backend : Backend Thread) : Prop where
  custody : Custody backend.holds (· ∈ backend.accepted)
  numbered : ∀ item ∈ backend.accepted, item.number < backend.accepted.length
  counted : backend.Counted
  drained : backend.Refused → backend.isDrainedLocked = true ∧ backend.completed = []

theorem sound_initial (rootPath : String) (isWorker : Thread → Bool) :
    Sound (initial rootPath isWorker) := by
  have hexecutes : ∀ thread, ((initial rootPath isWorker).phases thread).executes = [] := by
    intro thread
    simp only [initial]
    split <;> rfl
  have hholds : ∀ holder, (initial rootPath isWorker).holds holder = [] := by
    intro holder
    cases holder with
    | executing thread => exact hexecutes thread
    | _ => rfl
  refine ⟨⟨?_, ?_, ?_⟩, by simp [initial], ?_, ?_⟩
  · intro holder
    rw [hholds]
    exact List.nodup_nil
  · intro holder other item hitem
    rw [hholds] at hitem
    cases hitem
  · intro item
    simp only [hholds]
    simp [initial]
  · simp only [Backend.Counted, hexecutes, ne_eq, not_true_eq_false, Set.ofPred_false]
    exact Set.encard_empty
  · rintro ⟨thread, error, hreturned⟩
    cases hreturned

variable {backend next : Backend Thread}

theorem isDrainedLocked_iff : backend.isDrainedLocked = true ↔
    backend.shutdown = true ∧ backend.pending = [] ∧ backend.executing = 0 := by
  simp [Backend.isDrainedLocked, and_assoc]

theorem Sound.holds_nil (h : Sound backend) (hrefused : backend.Refused) {holder : Holder Thread}
    (hholder : holder ≠ .reaped) : backend.holds holder = [] := by
  obtain ⟨hdrained, hcompleted⟩ := h.drained hrefused
  obtain ⟨-, hpending, hexecuting⟩ := isDrainedLocked_iff.mp hdrained
  cases holder with
  | pending => exact hpending
  | executing thread =>
      have hnobody := h.counted
      rw [Backend.Counted, hexecuting, Nat.cast_zero, Set.encard_eq_zero] at hnobody
      by_contra hexecutes
      exact Set.notMem_empty thread (hnobody ▸ hexecutes)
  | completed => simp [Backend.holds, hcompleted]
  | reaped => exact absurd rfl hholder

variable [DecidableEq Thread] {thread : Thread} {phase : Phase}

theorem counted_goOn (h : backend.Counted)
    (hphases : next.phases = Function.update backend.phases thread phase)
    (hexecuting : next.executing = backend.executing)
    (hbefore : (backend.phases thread).executes = []) (hafter : phase.executes = []) :
    next.Counted := by
  have hset : { other | (next.phases other).executes ≠ [] } =
      { other | (backend.phases other).executes ≠ [] } := by
    ext other
    by_cases hsame : other = thread <;> simp_all
  rw [Backend.Counted, hset, hexecuting, h]

theorem counted_enter (h : backend.Counted)
    (hphases : next.phases = Function.update backend.phases thread phase)
    (hexecuting : next.executing = backend.executing + 1)
    (hbefore : (backend.phases thread).executes = []) (hafter : phase.executes ≠ []) :
    next.Counted := by
  have hset : { other | (next.phases other).executes ≠ [] } =
      insert thread { other | (backend.phases other).executes ≠ [] } := by
    ext other
    by_cases hsame : other = thread <;> simp_all
  rw [Backend.Counted, hset, Set.encard_insert_of_notMem (by simp [hbefore]), h, hexecuting]
  rfl

theorem counted_leave (h : backend.Counted)
    (hphases : next.phases = Function.update backend.phases thread phase)
    (hexecuting : next.executing = backend.executing - 1)
    (hbefore : (backend.phases thread).executes ≠ []) (hafter : phase.executes = []) :
    next.Counted := by
  have hset : { other | (next.phases other).executes ≠ [] } =
      { other | (backend.phases other).executes ≠ [] } \ {thread} := by
    ext other
    by_cases hsame : other = thread <;> simp_all
  rw [Backend.Counted, hset, hexecuting, Set.encard_sdiff_singleton_of_mem hbefore, h]
  rfl

@[grind =]
theorem phases_setPhase (backend : Backend Thread) (other : Thread) :
    (backend.setPhase thread phase).phases other =
      if other = thread then phase else backend.phases other := by
  simp [Backend.setPhase, Function.update_apply]

theorem holds_setPhase (backend : Backend Thread) (holder : Holder Thread) :
    (backend.setPhase thread phase).holds holder =
      if holder = .executing thread then phase.executes else backend.holds holder := by
  cases holder with
  | executing other =>
      simp only [Backend.holds, phases_setPhase]
      grind
  | _ => rfl

omit [DecidableEq Thread] in
theorem Sound.executes_nil (h : Sound backend) (hrefused : backend.Refused) (thread : Thread) :
    (backend.phases thread).executes = [] :=
  h.holds_nil hrefused (show Holder.executing thread ≠ .reaped by simp)

theorem Sound.goOn (h : Sound backend)
    (hphases : next.phases = Function.update backend.phases thread phase)
    (hpending : next.pending = backend.pending) (hcompleted : next.completed = backend.completed)
    (haccepted : next.accepted = backend.accepted)
    (hexecuting : next.executing = backend.executing) (hreaped : next.reaped = backend.reaped)
    (hbefore : (backend.phases thread).executes = []) (hafter : phase.executes = [])
    (hdrained : next.Refused → next.isDrainedLocked = true ∧ next.completed = []) : Sound next := by
  refine ⟨haccepted ▸ h.custody.relabel fun holder => ?_, haccepted ▸ h.numbered,
    counted_goOn h.counted hphases hexecuting hbefore hafter, hdrained⟩
  cases holder with
  | executing other =>
      simp only [Backend.holds, hphases, Function.update_apply]
      grind
  | _ => grind [Backend.holds]

theorem reaped_finish (backend : Backend Thread) (thread : Thread) (outcome : Outcome) :
    (backend.finish thread outcome).reaped = backend.reaped ++ outcome.completions := by
  simp [Backend.reaped, Backend.finish, Backend.setPhase]

theorem refused_finish {outcome : Outcome} (h : (backend.finish thread outcome).Refused) :
    backend.Refused ∨ ∃ error, outcome = .reaped (.error error) := by
  obtain ⟨other, error, hreturned⟩ := h
  rcases List.mem_append.mp hreturned with hold | hnew
  · exact .inl ⟨other, error, hold⟩
  · exact .inr ⟨error, (Prod.mk.inj (List.mem_singleton.mp hnew)).2.symm⟩

theorem Sound.finish (h : Sound backend) {outcome : Outcome}
    (hbefore : (backend.phases thread).executes = []) (hnone : outcome.completions = [])
    (hdrained : ∀ error, outcome = .reaped (.error error) →
      backend.isDrainedLocked = true ∧ backend.completed = []) :
    Sound (backend.finish thread outcome) := by
  refine h.goOn rfl rfl rfl rfl rfl ?_ hbefore rfl ?_
  · rw [reaped_finish, hnone, List.append_nil]
  · intro hrefused
    rcases refused_finish hrefused with hold | ⟨error, herror⟩
    · exact h.drained hold
    · exact hdrained error herror

omit [DecidableEq Thread] in
theorem Sound.fresh (h : Sound backend) (request : DiskRequest) :
    ∀ item ∈ [(⟨backend.accepted.length, request⟩ : Accepted)], item ∉ backend.accepted := by
  intro item hitem haccepted
  obtain rfl := List.mem_singleton.mp hitem
  exact absurd (h.numbered _ haccepted) (lt_irrefl _)

theorem Sound.accept (h : Sound backend) (holder : Holder Thread) (request : DiskRequest)
    (haccepted : next.accepted = backend.accepted ++ [⟨backend.accepted.length, request⟩])
    (hholds : ∀ other, next.holds other = Function.update backend.holds holder
      (backend.holds holder ++ [⟨backend.accepted.length, request⟩]) other)
    (hcounted : next.Counted) (hrefused : ¬next.Refused) : Sound next := by
  refine ⟨?_, ?_, hcounted, fun himpossible => absurd himpossible hrefused⟩
  · have hreceived := h.custody.receive holder (List.nodup_singleton _) (h.fresh request)
    refine (hreceived.congr fun item => ?_).relabel hholds
    rw [haccepted, List.mem_append]
  · intro item hitem
    rw [haccepted] at hitem ⊢
    rw [List.length_append, List.length_singleton]
    rcases List.mem_append.mp hitem with hold | hnew
    · exact (h.numbered item hold).trans (Nat.lt_succ_self _)
    · rw [List.mem_singleton.mp hnew]
      exact Nat.lt_succ_self _

theorem Sound.submitOne (h : Sound backend) {call : Call} {request : DiskRequest}
    {rest : List DiskRequest} (hbefore : (backend.phases thread).executes = []) :
    Sound (backend.submitOne thread call request rest) := by
  have hrejected : ∀ error, Sound (backend.finish thread (Backend.rejected call error)) :=
    fun error => h.finish hbefore rfl nofun
  simp only [Backend.submitOne]
  split
  · exact hrejected _
  split
  · exact hrejected _
  rename_i hopen
  have hnever : ¬backend.Refused := fun hrefused =>
    hopen (isDrainedLocked_iff.mp (h.drained hrefused).1).1
  split
  · refine h.accept .pending request rfl (fun holder => ?_)
      (counted_goOn h.counted rfl rfl hbefore rfl) hnever
    rw [holds_setPhase]
    cases holder <;> grind [Backend.holds, Backend.reaped, Phase.executes]
  · refine h.accept (.executing thread) request rfl (fun holder => ?_)
      (counted_enter h.counted rfl rfl hbefore (by simp [Phase.executes])) hnever
    rw [holds_setPhase]
    cases holder <;> grind [Backend.holds, Backend.reaped, Phase.executes]

theorem Sound.pushCompletion (h : Sound backend) {request : Accepted} {executor : Executor}
    (hthread : backend.phases thread = .executing request executor) (status : Status) :
    Sound (backend.pushCompletion thread request status (executor.next request)) := by
  have hexecutes : (backend.holds (.executing thread)).Perm ([] ++ [request]) := by
    simp [Backend.holds, hthread, Phase.executes]
  have hnext : (executor.next request).executes = [] := by cases executor <;> rfl
  have hnever : ¬backend.Refused := fun hrefused => by
    simpa [hthread, Phase.executes] using h.executes_nil hrefused thread
  refine ⟨?_, h.numbered, ?_, fun hrefused => absurd hrefused hnever⟩
  · refine (h.custody.transfer _ .completed (by simp) hexecutes).relabel fun holder => ?_
    rw [Backend.pushCompletion, holds_setPhase]
    cases holder <;> grind [Backend.holds, Backend.reaped]
  · refine counted_leave h.counted rfl rfl ?_ hnext
    simp [hthread, Phase.executes]

theorem Sound.reap (h : Sound backend) {size : Nat} {wait : Bool}
    (hbefore : (backend.phases thread).executes = [])
    (hnext : backend.reap thread size wait = some next) : Sound next := by
  simp only [Backend.reap] at hnext
  split at hnext
  · rename_i hempty
    split at hnext
    · cases hnext
      exact h.finish hbefore rfl nofun
    split at hnext <;> cases hnext
    rename_i hdrained
    exact h.finish hbefore rfl fun _ _ => ⟨hdrained, List.isEmpty_iff.mp hempty⟩
  · rename_i hnonempty
    cases hnext
    have hnever : ¬backend.Refused := fun hrefused =>
      hnonempty (List.isEmpty_iff.mpr (h.drained hrefused).2)
    have htaken : (backend.holds .completed).Perm
        ((backend.completed.drop size).map (·.accepted) ++
          (backend.completed.take size).map (·.accepted)) := by
      rw [← List.map_append]
      refine List.Perm.map _ ?_
      exact (List.perm_append_comm.trans (.of_eq (List.take_append_drop _ _))).symm
    refine ⟨?_, h.numbered, counted_goOn h.counted rfl rfl hbefore rfl, fun hrefused => ?_⟩
    · refine (h.custody.transfer _ .reaped (by simp) htaken).relabel fun holder => ?_
      rw [Backend.finish, holds_setPhase]
      cases holder <;> grind [Backend.holds, Backend.reaped, Outcome.completions, Phase.executes]
    · rcases refused_finish hrefused with hold | ⟨error, herror⟩
      · exact absurd hold hnever
      · cases herror

theorem Sound.work (h : Sound backend) (hthread : backend.phases thread = .working)
    (hnext : backend.work thread = some next) : Sound next := by
  have hbefore : (backend.phases thread).executes = [] := by rw [hthread]; rfl
  simp only [Backend.work] at hnext
  split at hnext
  · split at hnext <;> cases hnext
    exact h.goOn rfl rfl rfl rfl rfl rfl hbefore rfl h.drained
  · rename_i request rest hpending
    cases hnext
    have hnever : ¬backend.Refused := fun hrefused => by
      simpa [hpending] using (isDrainedLocked_iff.mp (h.drained hrefused).1).2.1
    have htaken : (backend.holds .pending).Perm (rest ++ [request]) := by
      simp only [Backend.holds, hpending]
      exact (List.perm_append_singleton request rest).symm
    refine ⟨?_, h.numbered, ?_, fun hrefused => absurd hrefused hnever⟩
    · refine (h.custody.transfer _ (.executing thread) (by simp) htaken).relabel fun holder => ?_
      rw [holds_setPhase]
      cases holder <;> grind [Backend.holds, Backend.reaped, Phase.executes]
    · exact counted_enter h.counted rfl rfl hbefore (by simp [Phase.executes])

theorem Sound.advance (h : Sound backend) {status : Status}
    (hnext : backend.advance thread status = some next) : Sound next := by
  simp only [Backend.advance] at hnext
  cases hphase : backend.phases thread with
  | submitting call =>
      have hbefore : (backend.phases thread).executes = [] := by rw [hphase]; rfl
      simp only [hphase] at hnext
      split at hnext <;> cases hnext
      · exact h.finish hbefore rfl fun _ himpossible => by cases himpossible
      · exact h.submitOne hbefore
  | executing request executor =>
      simp only [hphase, Option.some.injEq] at hnext
      subst hnext
      exact h.pushCompletion hphase status
  | reaping size wait =>
      simp only [hphase] at hnext
      exact h.reap (by rw [hphase]; rfl) hnext
  | working =>
      simp only [hphase] at hnext
      exact h.work hphase hnext
  | _ => simp [hphase] at hnext

theorem Sound.step (h : Sound backend) {input : Thread × Move}
    (hnext : step backend input = some next) : Sound next := by
  obtain ⟨thread, move⟩ := input
  cases move with
  | submit mode requests =>
      simp only [PosixBackend.step] at hnext
      split at hnext <;> cases hnext
      rename_i hidle
      exact h.goOn rfl rfl rfl rfl rfl rfl (by rw [hidle]; rfl) rfl h.drained
  | reap size wait =>
      simp only [PosixBackend.step] at hnext
      split at hnext <;> cases hnext
      rename_i hidle
      exact h.goOn rfl rfl rfl rfl rfl rfl (by rw [hidle]; rfl) rfl h.drained
  | shutdown =>
      simp only [PosixBackend.step] at hnext
      split at hnext <;> cases hnext
      refine ⟨h.custody, h.numbered, h.counted, fun hrefused => ?_⟩
      obtain ⟨hdrained, hcompleted⟩ := h.drained hrefused
      obtain ⟨-, hpending, hexecuting⟩ := isDrainedLocked_iff.mp hdrained
      exact ⟨isDrainedLocked_iff.mpr ⟨rfl, hpending, hexecuting⟩, hcompleted⟩
  | advance status => exact h.advance hnext

/-! ### What each call has had accepted -/

/-- What a call has had accepted, with the request that its thread executes. -/
def Phase.taken : Phase → List Accepted
  | .submitting call => call.taken
  | .executing request (.submitter call) => (call.take request).taken
  | _ => []

def Outcome.taken : Outcome → List Accepted
  | .submitted call _ => call.taken
  | .reaped _ => []

/-- The requests accepted in the calls of one thread, one call after the other. -/
def Backend.takenBy (backend : Backend Thread) (thread : Thread) :
    List Accepted :=
  (backend.returned.filter (·.1 = thread)).flatMap (·.2.taken) ++ (backend.phases thread).taken

/-- A call has gone through the requests it has had accepted. -/
def Call.Split (call : Call) : Prop :=
  call.requests = call.taken.map (·.request) ++ call.rest

def Phase.Split : Phase → Prop
  | .submitting call => call.Split
  | .executing request (.submitter call) => (call.take request).Split
  | _ => True

/-- `Submit` returns the number of requests accepted, its first ones, or an error when
there are none. -/
def Outcome.Exact : Outcome → Prop
  | .submitted call (.ok count) => call.taken.map (·.request) = call.requests.take count ∧
      call.taken.length = count
  | .submitted call (.error _) => call.taken = []
  | .reaped _ => True

/-- Every accepted request is one of exactly one call, and every call that has returned
`n` has had its first `n` requests accepted and no others. -/
structure Tallied (backend : Backend Thread) : Prop where
  custody : Custody backend.takenBy (· ∈ backend.accepted)
  split : ∀ thread, (backend.phases thread).Split
  exact : ∀ entry ∈ backend.returned, entry.2.Exact

theorem tallied_initial (rootPath : String) (isWorker : Thread → Bool) :
    Tallied (initial rootPath isWorker) := by
  have hphase : ∀ thread, ((initial rootPath isWorker).phases thread).taken = [] ∧
      ((initial rootPath isWorker).phases thread).Split := by
    intro thread
    simp only [initial]
    split <;> exact ⟨rfl, trivial⟩
  have htaken : ∀ thread, (initial rootPath isWorker).takenBy thread = [] :=
    fun thread => (hphase thread).1
  refine ⟨⟨?_, ?_, ?_⟩, fun thread => (hphase thread).2, by simp [initial]⟩
  · intro thread
    rw [htaken]
    exact List.nodup_nil
  · intro thread other item hitem
    rw [htaken] at hitem
    cases hitem
  · intro item
    simp only [htaken]
    simp [initial]

theorem Tallied.goOn (h : Tallied backend)
    (hphases : next.phases = Function.update backend.phases thread phase)
    (hreturned : next.returned = backend.returned) (haccepted : next.accepted = backend.accepted)
    (htaken : phase.taken = (backend.phases thread).taken) (hsplit : phase.Split) :
    Tallied next := by
  refine ⟨haccepted ▸ h.custody.relabel fun other => ?_, fun other => ?_, hreturned ▸ h.exact⟩
  · simp only [Backend.takenBy, hphases, hreturned, Function.update_apply]
    grind
  · simp only [hphases, Function.update_apply]
    grind [h.split]

theorem Tallied.finish (h : Tallied backend) {outcome : Outcome}
    (hphases : next.phases = Function.update backend.phases thread .idle)
    (hreturned : next.returned = backend.returned ++ [(thread, outcome)])
    (haccepted : next.accepted = backend.accepted)
    (htaken : outcome.taken = (backend.phases thread).taken) (hexact : outcome.Exact) :
    Tallied next := by
  refine ⟨haccepted ▸ h.custody.relabel fun other => ?_, fun other => ?_, ?_⟩
  · -- what the call had taken moves from the phase to what has returned
    by_cases hother : other = thread
    · subst hother
      simp [Backend.takenBy, hphases, hreturned, htaken, Phase.taken]
    · have hthread : thread ≠ other := fun hsame => hother hsame.symm
      simp [Backend.takenBy, hphases, hreturned, hother, hthread]
  · have hidle : Phase.idle.Split := trivial
    simp only [hphases, Function.update_apply]
    split
    · exact hidle
    · exact h.split other
  · intro entry hentry
    rw [hreturned] at hentry
    rcases List.mem_append.mp hentry with hold | hnew
    · exact h.exact entry hold
    · rwa [List.mem_singleton.mp hnew]

theorem Tallied.accept (h : Tallied backend) {item : Accepted}
    (hphases : next.phases = Function.update backend.phases thread phase)
    (hreturned : next.returned = backend.returned)
    (haccepted : next.accepted = backend.accepted ++ [item]) (hfresh : item ∉ backend.accepted)
    (htaken : phase.taken = (backend.phases thread).taken ++ [item]) (hsplit : phase.Split) :
    Tallied next := by
  refine ⟨?_, fun other => ?_, hreturned ▸ h.exact⟩
  · have hreceived := h.custody.receive thread (List.nodup_singleton item)
      fun other hother => by rwa [List.mem_singleton.mp hother]
    refine (hreceived.congr fun other => ?_).relabel fun other => ?_
    · rw [haccepted, List.mem_append]
    · simp only [Backend.takenBy, hphases, hreturned, Function.update_apply]
      grind
  · simp only [hphases, Function.update_apply]
    grind [h.split]

omit [DecidableEq Thread] in
theorem exact_rejected {call : Call} (hsplit : call.Split) (error : Error) :
    (Backend.rejected call error).Exact := by
  by_cases hnone : call.taken.length = 0
  · simp only [Backend.rejected, Call.accepted, hnone, if_true]
    exact List.length_eq_zero_iff.mp hnone
  · simp only [Backend.rejected, Call.accepted, hnone, if_false]
    refine ⟨?_, rfl⟩
    rw [hsplit, List.take_left' (List.length_map _)]

theorem Tallied.submitOne (h : Tallied backend) (hsound : Sound backend) {call : Call}
    {request : DiskRequest} {rest : List DiskRequest}
    (hthread : backend.phases thread = .submitting call) (hrest : call.rest = request :: rest) :
    Tallied (backend.submitOne thread call request rest) := by
  have hsplit : (Phase.submitting call).Split := hthread ▸ h.split thread
  have hnext : ({ call with rest }.take ⟨backend.accepted.length, request⟩).Split := by
    simpa [Phase.Split, Call.Split, Call.take, hrest] using hsplit
  have hrejected : ∀ error, Tallied (backend.finish thread (Backend.rejected call error)) :=
    fun error => h.finish rfl rfl rfl (by simp [Backend.rejected, hthread, Outcome.taken,
      Phase.taken]) (exact_rejected hsplit error)
  have hfresh := hsound.fresh request _ (List.mem_singleton_self _)
  simp only [Backend.submitOne]
  split
  · exact hrejected _
  split
  · exact hrejected _
  split
  · exact h.accept rfl rfl rfl hfresh (by simp [hthread, Phase.taken, Call.take]) hnext
  · exact h.accept rfl rfl rfl hfresh (by simp [hthread, Phase.taken, Call.take]) hnext

theorem Tallied.advance (h : Tallied backend) (hsound : Sound backend) {status : Status}
    (hnext : backend.advance thread status = some next) : Tallied next := by
  simp only [Backend.advance] at hnext
  cases hphase : backend.phases thread with
  | submitting call =>
      simp only [hphase] at hnext
      split at hnext <;> cases hnext
      · rename_i hdone
        have hsplit : (Phase.submitting call).Split := hphase ▸ h.split thread
        refine h.finish rfl rfl rfl (by simp [hphase, Outcome.taken, Phase.taken]) ⟨?_, rfl⟩
        rw [Phase.Split, Call.Split] at hsplit
        rw [hsplit, hdone, Call.accepted, List.take_left' (List.length_map _)]
      · rename_i hrest
        exact h.submitOne hsound hphase hrest
  | executing request executor =>
      simp only [hphase, Option.some.injEq] at hnext
      subst hnext
      have hsplit := h.split thread
      refine h.goOn rfl rfl rfl ?_ ?_ <;> cases executor <;>
        simp_all [Executor.next, Phase.taken, Phase.Split]
  | reaping size wait =>
      simp only [hphase, Backend.reap] at hnext
      split at hnext
      · split at hnext
        · cases hnext
          exact h.finish rfl rfl rfl (by simp [hphase, Outcome.taken, Phase.taken]) trivial
        · split at hnext <;> cases hnext
          exact h.finish rfl rfl rfl (by simp [hphase, Outcome.taken, Phase.taken]) trivial
      · cases hnext
        exact h.finish rfl rfl rfl (by simp [hphase, Outcome.taken, Phase.taken]) trivial
  | working =>
      simp only [hphase, Backend.work] at hnext
      split at hnext
      · split at hnext <;> cases hnext
        exact h.goOn rfl rfl rfl (by simp [hphase, Phase.taken]) trivial
      · cases hnext
        exact h.goOn rfl rfl rfl (by simp [hphase, Phase.taken]) trivial
  | _ => simp [hphase] at hnext

theorem Tallied.step (h : Tallied backend) (hsound : Sound backend) {input : Thread × Move}
    (hnext : step backend input = some next) : Tallied next := by
  obtain ⟨thread, move⟩ := input
  cases move with
  | submit mode requests =>
      simp only [PosixBackend.step] at hnext
      split at hnext <;> cases hnext
      rename_i hidle
      exact h.goOn rfl rfl rfl (by rw [hidle]; rfl) rfl
  | reap size wait =>
      simp only [PosixBackend.step] at hnext
      split at hnext <;> cases hnext
      rename_i hidle
      exact h.goOn rfl rfl rfl (by rw [hidle]; rfl) trivial
  | shutdown =>
      simp only [PosixBackend.step] at hnext
      split at hnext <;> cases hnext
      exact ⟨h.custody, h.split, h.exact⟩
  | advance status => exact h.advance hsound hnext

theorem shutdown_step {input : Thread × Move} (hnext : step backend input = some next)
    (hshutdown : backend.shutdown = true) :
    next.shutdown = true ∧ next.accepted = backend.accepted := by
  obtain ⟨thread, move⟩ := input
  cases move with
  | advance status =>
      simp only [PosixBackend.step, Backend.advance] at hnext
      split at hnext <;> grind [Backend.submitOne, DiskSubmitMode, Backend.reap, Backend.work,
        Backend.finish, Backend.setPhase, Backend.pushCompletion]
  | _ => grind [PosixBackend.step, Backend.setPhase]

/-- In every run each accepted request is in exactly one place, once: pending, executed
by one thread, completed, or reaped; and it is one of exactly one `Submit`, which has
had its first `n` requests accepted when it returns `n`, and none when it fails.  When a
`Reap` has failed, `Shutdown` has been called and every accepted request has been returned
by `Reap` exactly once.  After `Shutdown` nothing is accepted. -/
theorem posix_conserves {rootPath : String} {isWorker : Thread → Bool}
    {inputs : List (Thread × Move)} {final : Backend Thread}
    (hrun : Machine.run step (initial rootPath isWorker) inputs = some final) :
    Custody final.holds (· ∈ final.accepted) ∧
      Custody final.takenBy (· ∈ final.accepted) ∧
      (∀ thread call count, (thread, .submitted call (.ok count)) ∈ final.returned →
        call.taken.map (·.request) = call.requests.take count ∧ call.taken.length = count) ∧
      (∀ thread call error, (thread, .submitted call (.error error)) ∈ final.returned →
        call.taken = []) ∧
      (∀ thread error, (thread, .reaped (.error error)) ∈ final.returned →
        final.shutdown = true ∧ ∀ request, (final.reaped.map (·.accepted)).count request =
          if request ∈ final.accepted then 1 else 0) ∧
      (final.shutdown = true → ∀ later state, Machine.run step final later = some state →
        state.accepted = final.accepted) := by
  have hstep : ∀ (before : Backend Thread) input after, Sound before ∧ Tallied before →
      step before input = some after → Sound after ∧ Tallied after :=
    fun _ _ _ h hnext => ⟨h.1.step hnext, h.2.step h.1 hnext⟩
  obtain ⟨hsound, htallied⟩ := Machine.invariant_of_run hstep
    ⟨sound_initial rootPath isWorker, tallied_initial rootPath isWorker⟩ hrun
  refine ⟨hsound.custody, htallied.custody, fun _ _ _ hreturned => htallied.exact _ hreturned,
    fun _ _ _ hreturned => htallied.exact _ hreturned, ?_, ?_⟩
  · intro thread error hreturned
    have hrefused : final.Refused := ⟨thread, error, hreturned⟩
    refine ⟨(isDrainedLocked_iff.mp (hsound.drained hrefused).1).1, fun request => ?_⟩
    have hreaped : request ∈ final.holds .reaped ↔ request ∈ final.accepted := by
      rw [← hsound.custody.held_iff]
      refine ⟨fun hmem => ⟨.reaped, hmem⟩, ?_⟩
      rintro ⟨holder, hmem⟩
      by_cases hholder : holder = .reaped
      · rwa [hholder] at hmem
      · rw [hsound.holds_nil hrefused hholder] at hmem
        cases hmem
    split
    · rename_i haccepted
      exact List.count_eq_one_of_mem (hsound.custody.nodup .reaped) (hreaped.mpr haccepted)
    · rename_i hforeign
      exact List.count_eq_zero_of_not_mem fun hmem => hforeign (hreaped.mp hmem)
  · intro hshutdown later state hlater
    have hkept : ∀ (before : Backend Thread) input after,
        before.shutdown = true ∧ before.accepted = final.accepted →
          step before input = some after →
            after.shutdown = true ∧ after.accepted = final.accepted := by
      rintro before input after ⟨hdown, hsame⟩ hnext
      obtain ⟨hdown', hsame'⟩ := shutdown_step hnext hdown
      exact ⟨hdown', hsame'.trans hsame⟩
    exact (Machine.invariant_of_run hkept ⟨hshutdown, rfl⟩ hlater).2

/-- A thread submits a synchronous and an asynchronous read, and another shuts the
backend down while the worker executes the second. -/
def shutdownDuringRead : List (Fin 3 × Move) :=
  let read (token : BitVec 64) : DiskRequest := ⟨token, .read, 1, [some 0]⟩
  [(0, .submit .wait [read 1]), (0, .advance ok), (0, .advance ok), (0, .advance ok),
    (0, .submit .async [read 2]), (0, .advance ok), (0, .advance ok),
    (1, .advance ok), (2, .reap 4 true), (2, .advance ok), (0, .shutdown),
    (2, .reap 4 true), (1, .advance ok), (2, .advance ok),
    (2, .reap 4 true), (2, .advance ok)]

theorem posix_conserves_shutdownDuringRead :
    ∃ final, Machine.run step (initial "root" (· = 1)) shutdownDuringRead = some final ∧
      final.reaped.map (·.token) = [1, 2] ∧ final.shutdown = true ∧
      Custody final.takenBy (· ∈ final.accepted) ∧
      (∀ request, (final.reaped.map (·.accepted)).count request =
        if request ∈ final.accepted then 1 else 0) := by
  have hlast : (Machine.run step (initial "root" (· = 1)) shutdownDuringRead).map
      (fun final => (final.reaped.map (·.token), final.returned.getLast?)) =
      some ([1, 2], some (2, .reaped (.error shuttingDown))) := by
    decide +kernel
  obtain ⟨final, hfinal, hsame⟩ := Option.map_eq_some_iff.mp hlast
  obtain ⟨htokens, hreturned⟩ := Prod.mk.inj hsame
  obtain ⟨-, htaken, -, -, hrefused, -⟩ := posix_conserves hfinal
  obtain ⟨hshutdown, hcount⟩ := hrefused 2 shuttingDown (List.mem_of_getLast? hreturned)
  exact ⟨final, hfinal, htokens, hshutdown, htaken, hcount⟩

end Conservation

end TelePath.PosixBackend
