import Mathlib.Data.List.Count
import Mathlib.Data.List.Perm.Subperm
import TelePath.Io.Engine
import TelePath.Logic.Custody

/-!
Exactly-once delivery in the I/O engine.  Every request that was passed to `Submit` and
is not counted down is in exactly one pair of hands: with the thread that submits it,
with the backend, or with the thread that delivers its completion.  The waiters count
the requests to come, and their error is the first one claimed.
-/

namespace TelePath.IoEngine

open Logic

def Place.holds : Place → List Request
  | .submitting requests => requests
  | _ => []

/-- The requests whose completion a thread still has to count down. -/
def Phase.holds : Phase → List Request
  | .at place => place.holds
  | .offering requests => requests
  | .delivering _ completion rest next =>
      completion.request :: (rest.map DiskCompletion.request ++ next.holds)
  | .waking _ rest next => rest.map DiskCompletion.request ++ next.holds
  | _ => []

/-- Those of them for which `Complete` is still to be called. -/
def Phase.uncalled : Phase → List Request
  | .delivering .calling completion rest next =>
      completion.request :: (rest.map DiskCompletion.request ++ next.holds)
  | .delivering _ _ rest next => rest.map DiskCompletion.request ++ next.holds
  | phase => phase.holds

/-- The completion whose `Complete` call has begun. -/
def Phase.inCall : Phase → Option DiskCompletion
  | .delivering .calling _ _ _ => none
  | .delivering _ completion _ _ => some completion
  | _ => none

/-- The completion whose error the thread has claimed and not stored. -/
def Phase.storing : Phase → Option DiskCompletion
  | .delivering .storing completion _ _ => some completion
  | _ => none

inductive Holder (Thread : Type) where
  | backend
  | thread (thread : Option Thread)
  deriving DecidableEq

variable {Thread : Type}

def Engine.holds (engine : Engine Thread) : Holder Thread → List Request
  | .backend => engine.accepted
  | .thread thread => (engine.phases thread).holds

def Engine.uncalled (engine : Engine Thread) : Holder Thread → List Request
  | .backend => engine.accepted
  | .thread thread => (engine.phases thread).uncalled

/-- Passed to `Submit` and not counted down. -/
def Engine.Pending (engine : Engine Thread) (request : Request) : Prop :=
  request ∈ engine.passed ∧ request ∉ engine.completed.map Prod.fst

/-- The numbers of the requests tell them apart. -/
structure Numbered (passed : List Request) : Prop where
  nodup : passed.Nodup
  lt : ∀ request ∈ passed, request.number < passed.length

/-- Every pending request is in one pair of hands, and `Complete` is called when a
thread takes it up from there. -/
structure Delivery (engine : Engine Thread) : Prop where
  custody : Custody engine.holds engine.Pending
  numbered : Numbered engine.passed
  calledPassed : ∀ request ∈ engine.called.map Prod.fst, request ∈ engine.passed
  completedOnce : (engine.completed.map Prod.fst).Nodup
  calledOnce : (engine.called.map Prod.fst).Nodup
  called : ∀ call ∈ engine.completed, call ∈ engine.called
  inCall : ∀ thread, ∀ completion ∈ (engine.phases thread).inCall,
    (completion.request, completion.status) ∈ engine.called
  uncalled : ∀ holder, ∀ request ∈ engine.uncalled holder,
    request ∉ engine.called.map Prod.fst

theorem Delivery.completed {engine : Engine Thread} (h : Delivery engine) {request : Request}
    (hrequest : request ∈ engine.completed.map Prod.fst) : request ∈ engine.passed := by
  obtain ⟨call, hcall, rfl⟩ := List.mem_map.mp hrequest
  exact h.calledPassed call.1 (List.mem_map_of_mem (h.called call hcall))

section DeliverySteps

variable [DecidableEq Thread] {engine : Engine Thread} {thread : Option Thread}

theorem Phase.holds_dispatching (completions : List DiskCompletion) (next : Place) :
    (Phase.dispatching completions next).holds =
      completions.map DiskCompletion.request ++ next.holds := by
  cases completions <;> rfl

theorem Phase.uncalled_dispatching (completions : List DiskCompletion) (next : Place) :
    (Phase.dispatching completions next).uncalled =
      completions.map DiskCompletion.request ++ next.holds := by
  cases completions with
  | nil => cases next <;> rfl
  | cons completion rest => rfl

theorem Phase.inCall_dispatching (completions : List DiskCompletion) (next : Place) :
    (Phase.dispatching completions next).inCall = none := by
  cases completions <;> rfl

theorem Phase.holds_counted (last : Bool) (waiter : Token) (rest : List DiskCompletion)
    (next : Place) : (Phase.counted last waiter rest next).holds =
      rest.map DiskCompletion.request ++ next.holds := by
  cases last with
  | true => rfl
  | false => exact holds_dispatching rest next

theorem Phase.uncalled_counted (last : Bool) (waiter : Token) (rest : List DiskCompletion)
    (next : Place) : (Phase.counted last waiter rest next).uncalled =
      rest.map DiskCompletion.request ++ next.holds := by
  cases last with
  | true => rfl
  | false => exact uncalled_dispatching rest next

theorem Phase.inCall_counted (last : Bool) (waiter : Token) (rest : List DiskCompletion)
    (next : Place) : (Phase.counted last waiter rest next).inCall = none := by
  cases last with
  | true => rfl
  | false => exact inCall_dispatching rest next

theorem Phase.uncalled_subset (phase : Phase) {request : Request}
    (h : request ∈ phase.uncalled) : request ∈ phase.holds := by
  fun_cases Phase.uncalled phase <;> simp_all [Phase.holds, Phase.uncalled]

omit [DecidableEq Thread] in
theorem Engine.uncalled_subset (engine : Engine Thread) {holder : Holder Thread} {request : Request}
    (h : request ∈ engine.uncalled holder) : request ∈ engine.holds holder := by
  cases holder with
  | backend => exact h
  | thread thread => exact (engine.phases thread).uncalled_subset h

def Moves (engine next : Engine Thread) (thread : Option Thread) (phase : Phase) : Prop :=
  next.phases = Function.update engine.phases thread phase

variable {next : Engine Thread} {phase : Phase}

theorem Moves.phases (hmoves : Moves engine next thread phase) (other : Option Thread) :
    next.phases other = if other = thread then phase else engine.phases other := by
  rw [hmoves, Function.update_apply]

theorem Moves.holds (hmoves : Moves engine next thread phase) :
    next.holds = Function.update (Function.update engine.holds (.thread thread) phase.holds)
      .backend next.accepted := by
  funext holder
  cases holder <;> grind [Engine.holds, hmoves.phases]

theorem Moves.uncalled (hmoves : Moves engine next thread phase) (holder : Holder Thread) :
    next.uncalled holder = if holder = .backend then next.accepted
      else if holder = .thread thread then phase.uncalled else engine.uncalled holder := by
  cases holder <;> grind [Engine.uncalled, hmoves.phases]

theorem Delivery.shift (h : Delivery engine) (hmoves : Moves engine next thread phase)
    (hpassed : next.passed = engine.passed) (hcompleted : next.completed = engine.completed)
    (hcalled : next.called = engine.called)
    (hcustody : Custody (Function.update
      (Function.update engine.holds (.thread thread) phase.holds) .backend next.accepted)
      engine.Pending)
    (huncalled : ∀ request, request ∈ next.accepted ∨ request ∈ phase.uncalled →
      ∃ holder, request ∈ engine.uncalled holder)
    (hinCall : ∀ completion ∈ phase.inCall, completion ∈ (engine.phases thread).inCall) :
    Delivery next where
  custody := by
    rw [hmoves.holds]
    exact hcustody.congr fun request => by simp [Engine.Pending, hpassed, hcompleted]
  numbered := hpassed ▸ h.numbered
  calledPassed := by grind [h.calledPassed]
  completedOnce := hcompleted ▸ h.completedOnce
  calledOnce := hcalled ▸ h.calledOnce
  called := by grind [h.called]
  inCall := by grind [h.inCall, hmoves.phases]
  uncalled := by grind [h.uncalled, hmoves.uncalled]

theorem Delivery.goOn (h : Delivery engine) (hmoves : Moves engine next thread phase)
    (haccepted : next.accepted = engine.accepted) (hpassed : next.passed = engine.passed)
    (hcompleted : next.completed = engine.completed) (hcalled : next.called = engine.called)
    (hholds : phase.holds = (engine.phases thread).holds)
    (huncalled : phase.uncalled = (engine.phases thread).uncalled)
    (hinCall : ∀ completion ∈ phase.inCall, completion ∈ (engine.phases thread).inCall) :
    Delivery next := by
  refine h.shift hmoves hpassed hcompleted hcalled (h.custody.relabel fun holder => ?_) ?_ hinCall
  · cases holder <;> grind [Engine.holds]
  · rintro request (hmem | hmem)
    · exact ⟨.backend, show request ∈ engine.accepted by rwa [← haccepted]⟩
    · exact ⟨.thread thread, show request ∈ (engine.phases thread).uncalled by rwa [← huncalled]⟩

theorem Delivery.accept (h : Delivery engine) {requests : List Request}
    (hthread : engine.phases thread = .offering requests) (count : Nat) :
    Delivery ({ engine with accepted := engine.accepted ++ requests.take count }.setPhase thread
      (.at (.submitting (requests.drop count)))) := by
  have hmine : engine.holds (.thread thread) = requests := by
    simp [Engine.holds, hthread, Phase.holds]
  have huncalled : engine.uncalled (.thread thread) = requests := by
    simp [Engine.uncalled, hthread, Phase.uncalled, Phase.holds]
  refine h.shift rfl rfl rfl rfl ?_ ?_ nofun
  · have hperm : (engine.holds (.thread thread)).Perm
        (requests.drop count ++ requests.take count) := by
      rw [hmine]
      nth_rewrite 1 [← List.take_append_drop count requests]
      exact List.perm_append_comm
    exact h.custody.transfer (.thread thread) .backend (by simp) hperm
  · intro request hmem
    by_cases hold : request ∈ engine.accepted
    · exact ⟨.backend, hold⟩
    · refine ⟨.thread thread, huncalled ▸ ?_⟩
      grind [Engine.setPhase, Phase.uncalled, Phase.holds, Place.holds, List.mem_of_mem_take,
        List.mem_of_mem_drop]

theorem perm_filter_append {accepted requests : List Request} (haccepted : accepted.Nodup)
    (hrequests : requests.Nodup) (hsubset : ∀ request ∈ requests, request ∈ accepted) :
    accepted.Perm (accepted.filter (· ∉ requests) ++ requests) := by
  refine (List.perm_ext_iff_of_nodup haccepted ?_).mpr ?_
  · exact List.nodup_append.mpr ⟨haccepted.filter _, hrequests, by grind⟩
  · grind

theorem Delivery.reap (h : Delivery engine) {completions : List DiskCompletion}
    {taken : Engine Thread} {place : Place} (hempty : (engine.phases thread).holds = [])
    (hplace : place.holds = []) (htake : engine.take completions = some taken) :
    Delivery (taken.dispatch thread completions place) := by
  simp only [Engine.take] at htake
  split at htake
  · rename_i hvalid
    cases htake
    have hmine : engine.holds (.thread thread) = [] := hempty
    have hperm := perm_filter_append (h.custody.nodup .backend) hvalid.1 hvalid.2
    have hphase : (Phase.dispatching completions place).holds =
        completions.map DiskCompletion.request := by
      rw [Phase.holds_dispatching, hplace, List.append_nil]
    refine h.shift rfl rfl rfl rfl ?_ ?_ (by simp [Phase.inCall_dispatching])
    · have htransfer := h.custody.transfer .backend (.thread thread) (by simp) hperm
      rw [Function.update_comm (by simp), hmine, List.nil_append] at htransfer
      rw [hphase]
      exact htransfer
    · rintro request (hmem | hmem)
      · exact ⟨.backend, List.mem_of_mem_filter hmem⟩
      · rw [Phase.uncalled_dispatching, hplace, List.append_nil] at hmem
        exact ⟨.backend, hvalid.2 request hmem⟩
  · cases htake

theorem Delivery.call (h : Delivery engine) {completion : DiskCompletion}
    {rest : List DiskCompletion} {place : Place} {stage : Stage}
    (hthread : engine.phases thread = .delivering .calling completion rest place)
    (hstage : stage ≠ .calling)
    (hmoves : Moves engine next thread (.delivering stage completion rest place))
    (haccepted : next.accepted = engine.accepted) (hpassed : next.passed = engine.passed)
    (hcompleted : next.completed = engine.completed)
    (hcalled : next.called = engine.called ++ [(completion.request, completion.status)]) :
    Delivery next := by
  have huncalled : engine.uncalled (.thread thread) =
      completion.request :: (rest.map DiskCompletion.request ++ place.holds) := by
    simp [Engine.uncalled, hthread, Phase.uncalled]
  have hholds : engine.holds (.thread thread) =
      completion.request :: (rest.map DiskCompletion.request ++ place.holds) := by
    simp [Engine.holds, hthread, Phase.holds]
  have hmine : completion.request ∈ engine.holds (.thread thread) := by simp [hholds]
  have hfresh := h.uncalled (.thread thread) completion.request (by simp [huncalled])
  have hlater : (Phase.delivering stage completion rest place).uncalled =
      rest.map DiskCompletion.request ++ place.holds := by
    cases stage <;> simp_all [Phase.uncalled]
  have hnodup := h.custody.nodup (.thread thread)
  rw [hholds, List.nodup_cons] at hnodup
  have hcustody : Custody next.holds engine.Pending := h.custody.relabel fun holder => by
    cases holder <;> grind [Engine.holds, hmoves.phases, Phase.holds]
  have hothers : ∀ holder ≠ .thread thread, completion.request ∉ engine.uncalled holder :=
    fun holder hne hmem => hne (h.custody.unique holder _ _ (engine.uncalled_subset hmem) hmine)
  exact {
    custody := hcustody.congr fun request => by simp [Engine.Pending, hpassed, hcompleted]
    numbered := hpassed ▸ h.numbered
    calledPassed := by grind [h.calledPassed, (h.custody.pending_of_mem hmine).1]
    completedOnce := hcompleted ▸ h.completedOnce
    calledOnce := by
      rw [hcalled, List.map_append]
      exact List.nodup_append.mpr ⟨h.calledOnce, List.nodup_singleton _, by grind⟩
    called := by grind [h.called]
    inCall := by
      have hmade : (Phase.delivering stage completion rest place).inCall = some completion := by
        cases stage <;> simp_all [Phase.inCall]
      grind [h.inCall, hmoves.phases]
    uncalled := by
      intro holder request hmem
      have hbefore := h.uncalled holder request
      rw [hmoves.uncalled] at hmem
      cases holder <;> grind [Engine.uncalled] }

theorem Delivery.count (h : Delivery engine) {completion : DiskCompletion}
    {rest : List DiskCompletion} {place : Place} {last : Bool} {waiter : Token}
    (hthread : engine.phases thread = .delivering .counting completion rest place)
    (hmoves : Moves engine next thread (.counted last waiter rest place))
    (haccepted : next.accepted = engine.accepted) (hpassed : next.passed = engine.passed)
    (hcompleted : next.completed = engine.completed ++ [(completion.request, completion.status)])
    (hcalled : next.called = engine.called) : Delivery next := by
  have hholds : engine.holds (.thread thread) =
      completion.request :: (rest.map DiskCompletion.request ++ place.holds) := by
    simp [Engine.holds, hthread, Phase.holds]
  have hmine : completion.request ∈ engine.holds (.thread thread) := by simp [hholds]
  have hpending := h.custody.pending_of_mem hmine
  have hperm : (engine.holds (.thread thread)).Perm
      ((Phase.counted last waiter rest place).holds ++ [completion.request]) := by
    rw [hholds, Phase.holds_counted]
    exact (List.perm_append_singleton _ _).symm
  have hcustody := (h.custody.release (.thread thread) hperm).relabel fun holder =>
    show next.holds holder = _ by cases holder <;> grind [Engine.holds, hmoves.phases]
  have hdone : next.completed.map Prod.fst =
      engine.completed.map Prod.fst ++ [completion.request] := by simp [hcompleted]
  have huncalled : engine.uncalled (.thread thread) =
      (Phase.counted last waiter rest place).uncalled := by
    rw [Phase.uncalled_counted, Engine.uncalled, hthread]
    rfl
  exact {
    custody := hcustody.congr fun request => by
      rw [Engine.Pending, Engine.Pending, hpassed, hdone, List.mem_append]
      tauto
    numbered := hpassed ▸ h.numbered
    calledPassed := by grind [h.calledPassed]
    completedOnce := by
      rw [hdone]
      exact List.nodup_append.mpr ⟨h.completedOnce, List.nodup_singleton _, by grind [hpending.2]⟩
    calledOnce := hcalled ▸ h.calledOnce
    called := by grind [h.called, h.inCall thread completion (by simp [hthread, Phase.inCall])]
    inCall := by grind [h.inCall, hmoves.phases, Phase.inCall_counted]
    uncalled := by
      intro holder request hmem
      have hbefore := h.uncalled holder request
      rw [hmoves.uncalled] at hmem
      cases holder <;> grind [Engine.uncalled] }

omit [DecidableEq Thread] in
theorem Engine.requests_numbers (engine : Engine Thread) (mode : DiskSubmitMode)
    (addresses : List Address) : (engine.requests mode addresses).map Request.number =
      (List.range addresses.length).map (engine.passed.length + ·) := by
  apply List.ext_getElem <;> simp [Engine.requests]

omit [DecidableEq Thread] in
theorem Engine.requests_nodup (engine : Engine Thread) (mode : DiskSubmitMode)
    (addresses : List Address) : (engine.requests mode addresses).Nodup := by
  have hnumbers : ((engine.requests mode addresses).map Request.number).Nodup := by
    rw [requests_numbers]
    exact List.nodup_range.map fun _ _ h => Nat.add_left_cancel h
  exact hnumbers.of_map _

omit [DecidableEq Thread] in
theorem Engine.number_of_mem_requests {mode : DiskSubmitMode} {addresses : List Address}
    {request : Request} (h : request ∈ engine.requests mode addresses) :
    engine.passed.length ≤ request.number ∧
      request.number < engine.passed.length + (engine.requests mode addresses).length := by
  have hnumber : request.number ∈ (engine.requests mode addresses).map Request.number :=
    List.mem_map_of_mem h
  rw [requests_numbers] at hnumber
  obtain ⟨index, hindex, hsame⟩ := List.mem_map.mp hnumber
  have hlength : (engine.requests mode addresses).length = addresses.length := by
    simp [Engine.requests]
  rw [List.mem_range] at hindex
  omega

theorem Delivery.submit (h : Delivery engine) {requests : List Request}
    (hempty : (engine.phases thread).holds = [])
    (hmoves : Moves engine next thread (.at (.submitting requests)))
    (haccepted : next.accepted = engine.accepted)
    (hpassed : next.passed = engine.passed ++ requests)
    (hcompleted : next.completed = engine.completed) (hcalled : next.called = engine.called)
    (hnodup : requests.Nodup)
    (hnumbers : ∀ request ∈ requests, engine.passed.length ≤ request.number ∧
      request.number < engine.passed.length + requests.length) : Delivery next := by
  have hlt := h.numbered.lt
  have hnew : ∀ request ∈ requests, request ∉ engine.passed := by grind
  have huncompleted : ∀ request ∈ requests, request ∉ engine.completed.map Prod.fst :=
    fun request hrequest hdone => hnew request hrequest (h.completed hdone)
  have hreceive := (h.custody.receive (.thread thread) hnodup
    fun request hrequest hpending => hnew request hrequest hpending.1).relabel fun holder =>
      show next.holds holder = _ by
        cases holder <;> grind [Engine.holds, hmoves.phases, Phase.holds, Place.holds]
  exact {
    custody := hreceive.congr fun request => by
      rw [Engine.Pending, Engine.Pending, hpassed, hcompleted, List.mem_append]
      grind
    numbered := by
      rw [hpassed]
      exact ⟨List.nodup_append.mpr ⟨h.numbered.nodup, hnodup, by grind⟩, by grind⟩
    calledPassed := by grind [h.calledPassed]
    completedOnce := hcompleted ▸ h.completedOnce
    calledOnce := hcalled ▸ h.calledOnce
    called := by grind [h.called]
    inCall := by grind [h.inCall, hmoves.phases, Phase.inCall]
    uncalled := by
      intro holder request hmem
      have hbefore := h.uncalled holder request
      have hpassedBefore := h.calledPassed request
      rw [hmoves.uncalled] at hmem
      cases holder <;> grind [Engine.uncalled, Phase.uncalled, Phase.holds, Place.holds] }

end DeliverySteps

/-- The waiters count the requests to come, in 32 bits, and an error is claimed, stored and known
to have been delivered. -/
structure Counting (engine : Engine Thread) : Prop where
  pending : ∀ address, (engine.waiters address).pending +
      BitVec.ofNat 32 (engine.completed.countP (fun call => target call.1.token = address)) =
    BitVec.ofNat 32 (engine.promised address + engine.passed.countP (target ·.token = address))
  claimed : ∀ call ∈ engine.called, call.2 ≠ ok →
    (engine.waiters (target call.1.token)).errorClaimed = true
  stored : ∀ address, (engine.waiters address).errorClaimed = true →
    (engine.waiters address).error ≠ ok ∨ ∃ thread, ∃ completion ∈ (engine.phases thread).storing,
      target completion.request.token = address
  storing : ∀ thread, ∀ completion ∈ (engine.phases thread).storing, completion.status ≠ ok
  justified : ∀ address, (engine.waiters address).error ≠ ok →
    ∃ call ∈ engine.called, target call.1.token = address ∧ call.2 ≠ ok

section CountingSteps

variable [DecidableEq Thread] {engine next : Engine Thread} {thread : Option Thread}
  {phase : Phase}

theorem Phase.storing_dispatching (completions : List DiskCompletion) (place : Place) :
    (Phase.dispatching completions place).storing = none := by
  cases completions <;> rfl

theorem Phase.storing_counted (last : Bool) (waiter : Token) (rest : List DiskCompletion)
    (place : Place) : (Phase.counted last waiter rest place).storing = none := by
  cases last with
  | true => rfl
  | false => exact storing_dispatching rest place

/-- Some thread is about to store an error for `address`. -/
def Engine.Storing (engine : Engine Thread) (address : Token) : Prop :=
  ∃ thread, ∃ completion ∈ (engine.phases thread).storing,
    target completion.request.token = address

theorem Moves.storing (hmoves : Moves engine next thread phase) {address : Token}
    (h : engine.Storing address) (hbefore : (engine.phases thread).storing = none) :
    next.Storing address := by
  obtain ⟨other, completion, hcompletion, haddress⟩ := h
  exact ⟨other, completion, by grind [hmoves.phases], haddress⟩

/-- A step that neither calls, stores nor counts a completion, and that adds requests
to what is promised or passes promised ones. -/
theorem Counting.goOn (h : Counting engine) (hmoves : Moves engine next thread phase)
    (hbefore : (engine.phases thread).storing = none) (hstoring : phase.storing = none)
    (hcompleted : next.completed = engine.completed) (hcalled : next.called = engine.called)
    (hclaimed : ∀ address, (next.waiters address).errorClaimed =
      (engine.waiters address).errorClaimed)
    (herror : ∀ address, (next.waiters address).error = (engine.waiters address).error)
    (hpending : ∀ address, (next.waiters address).pending + BitVec.ofNat 32
        (engine.promised address + engine.passed.countP (target ·.token = address)) =
      (engine.waiters address).pending + BitVec.ofNat 32
        (next.promised address + next.passed.countP (target ·.token = address))) :
    Counting next where
  pending address := by
    have hold := h.pending address
    have hnew := hpending address
    rw [hcompleted]
    rw [← hold] at hnew
    grind
  claimed call hcall herr := (hclaimed _).trans (h.claimed call (hcalled ▸ hcall) herr)
  stored address haddress := (h.stored address (hclaimed address ▸ haddress)).imp
    (fun hne => (herror address).trans_ne hne) fun hstores => hmoves.storing hstores hbefore
  storing := by grind [h.storing, hmoves.phases]
  justified := by grind [h.justified]

theorem Counting.call (h : Counting engine) {completion : DiskCompletion}
    {rest : List DiskCompletion} {place : Place}
    (hthread : engine.phases thread = .delivering .calling completion rest place) :
    Counting (engine.deliver thread .calling completion rest place) := by
  have hbefore : (engine.phases thread).storing = none := by rw [hthread]; rfl
  obtain ⟨request, status⟩ := completion
  obtain ⟨address, haddress⟩ : ∃ address, address = target request.token := ⟨_, rfl⟩
  have hjustified : ∀ other, (engine.waiters other).error ≠ ok →
      ∃ call ∈ engine.called ++ [(request, status)], target call.1.token = other ∧ call.2 ≠ ok :=
    fun other hne => (h.justified other hne).imp fun call hcall =>
      ⟨List.mem_append_left _ hcall.1, hcall.2⟩
  simp only [Engine.deliver, Engine.setPhase, Engine.setWaiter, ← haddress]
  split
  · refine { h with claimed := ?_, stored := ?_, storing := ?_, justified := hjustified }
    · dsimp only
      intro call hcall herr
      have hclaimed := h.claimed call
      grind
    · refine fun other hother => (h.stored other hother).imp id ?_
      rintro ⟨keeper, found, hfound, htarget⟩
      exact ⟨keeper, found, by grind, htarget⟩
    · dsimp only
      grind [h.storing, Phase.storing]
  · rename_i herr
    refine ⟨?_, ?_, ?_, ?_, ?_⟩ <;> dsimp only
    · intro other
      have hpending := h.pending other
      grind
    · intro call hcall hcallErr
      have hclaimed := h.claimed call
      grind
    · intro other hclaimed
      by_cases hold : (engine.waiters other).errorClaimed = true
      · refine (h.stored other hold).imp (by grind) ?_
        rintro ⟨keeper, found, hfound, htarget⟩
        exact ⟨keeper, found, by grind, htarget⟩
      · -- the claim is new, so this thread is about to store the error
        obtain rfl : other = address := by grind
        exact .inr ⟨thread, ⟨request, status⟩, by simp [hold, Phase.storing], haddress.symm⟩
    · grind [h.storing, Phase.storing]
    · exact fun other hother => hjustified other (by grind)

theorem Counting.store (h : Counting engine) (hdelivery : Delivery engine)
    {completion : DiskCompletion} {rest : List DiskCompletion} {place : Place}
    (hthread : engine.phases thread = .delivering .storing completion rest place) :
    Counting (engine.deliver thread .storing completion rest place) := by
  obtain ⟨address, haddress⟩ : ∃ address, address = target completion.request.token := ⟨_, rfl⟩
  have hmine : (engine.phases thread).storing = some completion := by rw [hthread]; rfl
  have herr : completion.status ≠ ok := h.storing thread completion hmine
  have hcalled := hdelivery.inCall thread completion (by simp [hthread, Phase.inCall])
  simp only [Engine.deliver, Engine.setPhase, Engine.setWaiter, ← haddress]
  refine ⟨?_, ?_, ?_, ?_, ?_⟩ <;> dsimp only
  · intro other
    have hpending := h.pending other
    grind
  · intro call hcall hcallErr
    have hclaimed := h.claimed call
    grind
  · intro other hclaimed
    by_cases hsame : other = address
    · exact .inl (by grind)
    · refine (h.stored other (by grind)).imp (by grind) ?_
      rintro ⟨keeper, found, hfound, htarget⟩
      exact ⟨keeper, found, by grind, htarget⟩
  · grind [h.storing, Phase.storing]
  · intro other hother
    by_cases hsame : other = address
    · exact ⟨_, hcalled, by grind, herr⟩
    · exact h.justified other (by grind)

omit [DecidableEq Thread] in
theorem Delivery.countP_lt (h : Delivery engine) {request : Request}
    (hrequest : engine.Pending request) :
    engine.completed.countP (fun call => target call.1.token = target request.token) <
      engine.passed.countP (target ·.token = target request.token) := by
  have hsubperm : (request :: engine.completed.map Prod.fst).Subperm engine.passed := by
    refine List.Nodup.subperm (List.nodup_cons.mpr ⟨hrequest.2, h.completedOnce⟩) ?_
    intro other hother
    rcases List.mem_cons.mp hother with rfl | hdone
    · exact hrequest.1
    · exact h.completed hdone
  have hle := hsubperm.countP_le fun other => decide (target other.token = target request.token)
  rw [List.countP_cons, List.countP_map] at hle
  simp only [decide_true, if_true] at hle
  exact hle

omit [DecidableEq Thread] in
theorem Delivery.countP_le (h : Delivery engine) (address : Token) :
    engine.completed.countP (fun call => target call.1.token = address) ≤
      engine.passed.countP (target ·.token = address) := by
  have hsubperm : (engine.completed.map Prod.fst).Subperm engine.passed :=
    h.completedOnce.subperm fun _ hdone => h.completed hdone
  have hle := hsubperm.countP_le fun other => decide (target other.token = address)
  rw [List.countP_map] at hle
  exact hle

theorem Counting.count (h : Counting engine) {completion : DiskCompletion}
    {rest : List DiskCompletion} {place : Place}
    (hthread : engine.phases thread = .delivering .counting completion rest place) :
    Counting (engine.deliver thread .counting completion rest place) := by
  obtain ⟨address, haddress⟩ : ∃ address, address = target completion.request.token := ⟨_, rfl⟩
  have hbefore : (engine.phases thread).storing = none := by rw [hthread]; rfl
  have hmoves : Moves engine (engine.deliver thread .counting completion rest place) thread
    (.counted ((engine.waiters (target completion.request.token)).pending = 1#32)
      (target completion.request.token) rest place) := rfl
  simp only [Engine.deliver, Engine.setPhase, Engine.setWaiter, ← haddress] at hmoves ⊢
  have hless := BitVec.sub_add_cancel (engine.waiters address).pending 1#32
  generalize (engine.waiters address).pending - 1#32 = less,
    decide ((engine.waiters address).pending = 1#32) = last at *
  refine ⟨?_, ?_, ?_, ?_, ?_⟩ <;> dsimp only
  · intro other
    have hold := h.pending other
    rw [List.countP_append, List.countP_singleton, BitVec.ofNat_add]
    by_cases hsame : other = address
    · subst hsame
      simp only [Function.update_self, ← haddress, decide_true, if_true]
      rw [← hold, ← hless, BitVec.add_comm (BitVec.ofNat 32 _) (BitVec.ofNat 32 1),
        BitVec.add_assoc]
    · rw [Function.update_of_ne hsame, if_neg (by simpa [← haddress] using Ne.symm hsame)]
      simpa using hold
  all_goals clear hless
  · intro call hcall herr
    have hclaimed := h.claimed call
    grind
  · exact fun other hother => (h.stored other (by grind)).imp (by grind) fun hstores =>
      hmoves.storing hstores hbefore
  · grind [h.storing, Phase.storing_counted]
  · exact fun other hother => h.justified other (by grind)

/-- What holds in every state of every run. -/
structure Sound (engine : Engine Thread) : Prop where
  delivery : Delivery engine
  counting : Counting engine

omit [DecidableEq Thread] in
theorem sound_initial : Sound (initial Thread) where
  delivery :=
    { custody :=
        { nodup := by
            rintro (_ | _ | _) <;> exact List.nodup_nil
          unique := by
            rintro (_ | _ | _) other request hrequest <;> cases hrequest
          held_iff := by
            intro request
            constructor
            · rintro ⟨_ | _ | _, hrequest⟩ <;> cases hrequest
            · rintro ⟨hrequest, -⟩
              cases hrequest }
      numbered := ⟨List.nodup_nil, fun _ h => by cases h⟩
      calledPassed := fun _ h => by cases h
      completedOnce := List.nodup_nil
      calledOnce := List.nodup_nil
      called := fun _ h => by cases h
      inCall := by
        rintro (_ | _) completion hcompletion <;> cases hcompletion
      uncalled := by
        rintro (_ | _ | _) request hrequest <;> cases hrequest }
  counting :=
    { pending := fun _ => rfl
      claimed := fun _ h => by cases h
      stored := fun _ h => by cases h
      storing := by
        rintro (_ | _) completion hcompletion <;> cases hcompletion
      justified := fun _ h => absurd rfl h }

/-- All that the invariant speaks about but the phases. -/
def Engine.books (engine : Engine Thread) :=
  (engine.accepted, engine.passed, engine.completed, engine.called, engine.waiters,
    engine.promised)

theorem Sound.goOn (h : Sound engine) (hmoves : Moves engine next thread phase)
    (hbooks : next.books = engine.books)
    (hholds : phase.holds = (engine.phases thread).holds)
    (huncalled : phase.uncalled = (engine.phases thread).uncalled)
    (hinCall : phase.inCall = none) (hstoring : phase.storing = none)
    (hbefore : (engine.phases thread).storing = none) : Sound next := by
  simp only [Engine.books, Prod.mk.injEq] at hbooks
  obtain ⟨haccepted, hpassed, hcompleted, hcalled, hwaiters, hpromised⟩ := hbooks
  refine ⟨h.delivery.goOn hmoves haccepted hpassed hcompleted hcalled hholds huncalled
    (by simp [hinCall]), h.counting.goOn hmoves hbefore hstoring hcompleted hcalled ?_ ?_ ?_⟩ <;>
    simp [hwaiters, hpromised, hpassed]

theorem Sound.deliver (h : Sound engine) {stage : Stage} {completion : DiskCompletion}
    {rest : List DiskCompletion} {place : Place}
    (hthread : engine.phases thread = .delivering stage completion rest place) :
    Sound (engine.deliver thread stage completion rest place) := by
  cases stage with
  | calling =>
      refine ⟨?_, h.counting.call hthread⟩
      simp only [Engine.deliver]
      split
      · exact h.delivery.call hthread (by decide) rfl rfl rfl rfl rfl
      · exact h.delivery.call hthread (by split <;> decide) rfl rfl rfl rfl rfl
  | storing =>
      refine ⟨h.delivery.goOn rfl rfl rfl rfl rfl ?_ ?_ ?_, h.counting.store h.delivery hthread⟩
      · rw [hthread]
        rfl
      · rw [hthread]
        rfl
      · rw [hthread]
        exact fun _ hcall => hcall
  | counting =>
      exact ⟨h.delivery.count hthread rfl rfl rfl rfl rfl, h.counting.count hthread⟩

theorem Sound.accept (h : Sound engine) {requests : List Request}
    (hthread : engine.phases thread = .offering requests) (count : Nat) :
    Sound ({ engine with accepted := engine.accepted ++ requests.take count }.setPhase thread
      (.at (.submitting (requests.drop count)))) where
  delivery := h.delivery.accept hthread count
  counting := h.counting.goOn rfl (by rw [hthread]; rfl) rfl rfl rfl (fun _ => rfl) (fun _ => rfl)
    fun _ => rfl

theorem Sound.reap (h : Sound engine) {completions : List DiskCompletion} {taken : Engine Thread}
    {place : Place} (hempty : (engine.phases thread).holds = [])
    (hbefore : (engine.phases thread).storing = none) (hplace : place.holds = [])
    (htake : engine.take completions = some taken) :
    Sound (taken.dispatch thread completions place) := by
  refine ⟨h.delivery.reap hempty hplace htake, ?_⟩
  simp only [Engine.take] at htake
  split at htake
  · cases htake
    exact h.counting.goOn rfl hbefore (Phase.storing_dispatching completions place) rfl rfl
      (fun _ => rfl) (fun _ => rfl) fun _ => rfl
  · cases htake

theorem Sound.hand (h : Sound engine) {completions : List DiskCompletion} {place : Place}
    (hholds : (engine.phases thread).holds =
      completions.map DiskCompletion.request ++ place.holds)
    (huncalled : (engine.phases thread).uncalled = (engine.phases thread).holds)
    (hbefore : (engine.phases thread).storing = none) :
    Sound (engine.dispatch thread completions place) :=
  h.goOn rfl rfl
    ((Phase.holds_dispatching completions place).trans hholds.symm)
    ((Phase.uncalled_dispatching completions place).trans (huncalled.trans hholds).symm)
    (Phase.inCall_dispatching completions place) (Phase.storing_dispatching completions place)
    hbefore

theorem Sound.refuse (h : Sound engine) {requests : List Request} {error : Error}
    (hthread : engine.phases thread = .offering requests)
    (hnext : engine.refuse thread requests error = some next) : Sound next := by
  cases requests with
  | nil => cases hnext
  | cons request rest =>
      cases hnext
      exact h.hand (by rw [hthread]; rfl) (by rw [hthread]; rfl) (by rw [hthread]; rfl)

/-- A phase without requests. -/
structure Phase.Plain (phase : Phase) : Prop where
  holds : phase.holds = []
  inCall : phase.inCall = none
  storing : phase.storing = none

theorem Phase.Plain.uncalled {phase : Phase} (h : phase.Plain) : phase.uncalled = [] :=
  List.eq_nil_iff_forall_not_mem.mpr fun request hrequest => by
    have hheld := phase.uncalled_subset hrequest
    rw [h.holds] at hheld
    cases hheld

theorem Sound.pass (h : Sound engine) (hthread : (engine.phases thread).Plain)
    (hphase : phase.Plain) (hmoves : Moves engine next thread phase)
    (hbooks : next.books = engine.books) : Sound next :=
  h.goOn hmoves hbooks (hphase.holds.trans hthread.holds.symm)
    (hphase.uncalled.trans hthread.uncalled.symm)
    hphase.inCall hphase.storing hthread.storing

theorem Sound.submitTagged (h : Sound engine) {requests : List Request}
    (hthread : engine.phases thread = .at (.submitting requests)) :
    Sound (engine.submitTagged thread requests) := by
  have hholds : (engine.phases thread).holds = requests := by rw [hthread]; rfl
  have huncalled : (engine.phases thread).uncalled = requests := by rw [hthread]; rfl
  have hstoring : (engine.phases thread).storing = none := by rw [hthread]; rfl
  unfold Engine.submitTagged
  split
  · rename_i hempty
    subst hempty
    exact h.goOn rfl rfl hholds.symm huncalled.symm rfl rfl hstoring
  · split
    · refine h.hand ?_ (huncalled.trans hholds.symm) hstoring
      rw [hholds, List.map_map]
      exact (List.map_id requests).symm.trans (List.append_nil _).symm
    · exact h.goOn rfl rfl hholds.symm huncalled.symm rfl rfl hstoring

theorem Sound.offer (h : Sound engine) {requests : List Request} {reply : Reply}
    (hthread : engine.phases thread = .offering requests)
    (hnext : engine.offer thread requests reply = some next) : Sound next := by
  cases reply with
  | accepted count =>
      simp only [Engine.offer] at hnext
      split at hnext
      · exact h.refuse hthread hnext
      · split at hnext
        · cases hnext
          exact h.accept hthread count
        · cases hnext
  | rejected error => exact h.refuse hthread hnext
  | reaped completions => cases hnext
  | failed error => cases hnext

theorem Sound.advance (h : Sound engine) {reply : Reply}
    (hnext : engine.advance thread reply = some next) : Sound next := by
  unfold Engine.advance at hnext
  split at hnext
  · cases hnext
  · rename_i hthread
    cases hnext
    exact h.submitTagged hthread
  · rename_i waiter hthread
    cases hnext
    refine h.pass (hthread ▸ ⟨rfl, rfl, rfl⟩) ?_ rfl rfl
    split <;> exact ⟨rfl, rfl, rfl⟩
  · rename_i hthread
    cases reply with
    | reaped completions =>
        obtain ⟨taken, htake, rfl⟩ := Option.map_eq_some_iff.mp hnext
        exact h.reap (by rw [hthread]; rfl) (by rw [hthread]; rfl) rfl htake
    | failed error =>
        cases hnext
        exact h.pass (hthread ▸ ⟨rfl, rfl, rfl⟩) ⟨rfl, rfl, rfl⟩ rfl rfl
    | accepted count => cases hnext
    | rejected error => cases hnext
  · rename_i requests hthread
    exact h.offer hthread hnext
  · rename_i waiter hthread
    cases reply with
    | reaped completions =>
        simp only [Engine.reapReady] at hnext
        split at hnext
        · cases hnext
          exact h.pass (hthread ▸ ⟨rfl, rfl, rfl⟩) ⟨rfl, rfl, rfl⟩ rfl rfl
        · obtain ⟨taken, htake, rfl⟩ := Option.map_eq_some_iff.mp hnext
          exact h.reap (by rw [hthread]; rfl) (by rw [hthread]; rfl) rfl htake
    | failed error =>
        cases hnext
        exact h.pass (hthread ▸ ⟨rfl, rfl, rfl⟩) ⟨rfl, rfl, rfl⟩ rfl rfl
    | accepted count => cases hnext
    | rejected error => cases hnext
  · rename_i waiter hthread
    cases hnext
    split
    · exact h.pass (hthread ▸ ⟨rfl, rfl, rfl⟩) ⟨rfl, rfl, rfl⟩ rfl rfl
    · exact h.pass (hthread ▸ ⟨rfl, rfl, rfl⟩) ⟨rfl, rfl, rfl⟩ rfl rfl
  · rename_i waiter hthread
    cases hnext
    exact h.pass (hthread ▸ ⟨rfl, rfl, rfl⟩) ⟨rfl, rfl, rfl⟩ rfl rfl
  · rename_i error hthread
    cases hnext
    exact h.pass (hthread ▸ ⟨rfl, rfl, rfl⟩) ⟨rfl, rfl, rfl⟩ rfl rfl
  · rename_i hthread
    cases hnext
    exact h.pass (hthread ▸ ⟨rfl, rfl, rfl⟩) ⟨rfl, rfl, rfl⟩ rfl rfl
  · cases hnext
  · rename_i hthread
    cases hnext
    exact h.pass (hthread ▸ ⟨rfl, rfl, rfl⟩) ⟨rfl, rfl, rfl⟩ rfl rfl
  · rename_i hthread
    split at hnext
    · cases hnext
      exact h.pass (hthread ▸ ⟨rfl, rfl, rfl⟩) ⟨rfl, rfl, rfl⟩ rfl rfl
    · cases hnext
  · rename_i stage completion rest place hthread
    cases hnext
    exact h.deliver hthread
  · rename_i waiter rest place hthread
    cases hnext
    exact h.goOn rfl rfl (by rw [hthread, Phase.holds_dispatching]; rfl)
      (by rw [hthread, Phase.uncalled_dispatching]; rfl) (Phase.inCall_dispatching rest place)
      (Phase.storing_dispatching rest place) (by rw [hthread]; rfl)

end CountingSteps

/-! ### Requests come in through `Submit` -/

theorem and_compl_tag (address : Address) : address.1 &&& ~~~kAsyncTokenTag = address.1 := by
  have hsplit : address.1 &&& (kAsyncTokenTag ||| ~~~kAsyncTokenTag) =
      (address.1 &&& kAsyncTokenTag) ||| (address.1 &&& ~~~kAsyncTokenTag) :=
    BitVec.and_or_distrib_left
  rw [address.2, BitVec.zero_or, show kAsyncTokenTag ||| ~~~kAsyncTokenTag = BitVec.allOnes 64 by
    decide, BitVec.and_allOnes] at hsplit
  exact hsplit.symm

theorem target_token (mode : DiskSubmitMode) (address : Address) :
    target (mode.token address) = address := by
  cases mode with
  | wait => exact and_compl_tag address
  | async =>
      rw [target, DiskSubmitMode.token, BitVec.and_or_distrib_right, and_compl_tag,
        show kAsyncTokenTag &&& ~~~kAsyncTokenTag = 0#64 by decide, BitVec.or_zero]

theorem countP_requests (engine : Engine Thread) (mode : DiskSubmitMode) (addresses : List Address)
    (address : Token) :
    (engine.requests mode addresses).countP (target ·.token = address) =
      (addresses.map Subtype.val).count address := by
  have hmap : (engine.requests mode addresses).map (target ·.token) =
      addresses.map Subtype.val := by
    apply List.ext_getElem
    · simp [Engine.requests]
    · intro index _ _
      simp [Engine.requests, target_token]
  rw [← hmap, List.count_eq_countP, List.countP_map]
  congr 1

theorem count_le_promised {addresses : List Address} {promised : Token → Nat}
    (h : ∀ address ∈ addresses, addresses.count address ≤ promised address) (address : Token) :
    (addresses.map Subtype.val).count address ≤ promised address := by
  by_cases hmem : address ∈ addresses.map Subtype.val
  · obtain ⟨found, hfound, rfl⟩ := List.mem_map.mp hmem
    rw [List.count_map_of_injective _ _ Subtype.val_injective]
    exact h found hfound
  · rw [List.count_eq_zero.mpr hmem]
    exact Nat.zero_le _

section Runs

variable [DecidableEq Thread] {engine next : Engine Thread} {thread : Option Thread}
  {phase : Phase}

theorem Sound.submit (h : Sound engine) {mode : DiskSubmitMode} {addresses : List Address}
    (hthread : engine.phases thread = .at .idle)
    (hpromised : ∀ address ∈ addresses, addresses.count address ≤ engine.promised address) :
    Sound ({ engine with
      passed := engine.passed ++ engine.requests mode addresses
      promised := fun address =>
        engine.promised address - (addresses.map Subtype.val).count address }.setPhase
        thread (.at (.submitting (engine.requests mode addresses)))) := by
  refine ⟨h.delivery.submit (by rw [hthread]; rfl) rfl rfl rfl rfl rfl
    (engine.requests_nodup mode addresses) fun _ => Engine.number_of_mem_requests, ?_⟩
  refine h.counting.goOn rfl (by rw [hthread]; rfl) rfl rfl rfl (fun _ => rfl) (fun _ => rfl) ?_
  intro address
  have hle := count_le_promised hpromised address
  have htotal : engine.promised address - (addresses.map Subtype.val).count address +
      (engine.passed.countP (target ·.token = address) +
        (addresses.map Subtype.val).count address) =
      engine.promised address + engine.passed.countP (target ·.token = address) := by omega
  simp only [Engine.setPhase, List.countP_append, countP_requests, htotal]

theorem Sound.add (h : Sound engine) {waiter : Token} (hthread : engine.phases thread = .at .idle)
    (count : BitVec 32) :
    Sound { engine.setWaiter waiter { engine.waiters waiter with
        pending := (engine.waiters waiter).pending + count } with
      promised :=
        Function.update engine.promised waiter (engine.promised waiter + count.toNat) } := by
  have hphases : engine.phases = Function.update engine.phases thread (.at .idle) := by
    rw [← hthread, Function.update_eq_self]
  have hplain : (engine.phases thread).Plain := hthread ▸ ⟨rfl, rfl, rfl⟩
  constructor
  · exact h.delivery.goOn hphases rfl rfl rfl rfl hplain.holds.symm hplain.uncalled.symm
      fun _ hcall => by cases hcall
  · refine h.counting.goOn hphases hplain.storing rfl rfl rfl
      (fun other => ?_) (fun other => ?_) fun other => ?_
    · by_cases hsame : other = waiter <;> simp [Engine.setWaiter, hsame]
    · by_cases hsame : other = waiter <;> simp [Engine.setWaiter, hsame]
    · by_cases hsame : other = waiter
      · subst hsame
        simp only [Engine.setWaiter, Function.update_self, BitVec.ofNat_add, BitVec.ofNat_toNat,
          BitVec.setWidth_eq]
        grind
      · simp [Engine.setWaiter, hsame]

theorem Sound.step (h : Sound engine) {move : Option Thread × Move}
    (hnext : step engine move = some next) : Sound next := by
  obtain ⟨thread, move⟩ := move
  cases move with
  | add waiter count =>
      simp only [IoEngine.step] at hnext
      split at hnext
      · rename_i henabled
        cases hnext
        exact h.add henabled.1 count
      · cases hnext
  | submit mode addresses =>
      simp only [IoEngine.step] at hnext
      split at hnext
      · rename_i henabled
        cases hnext
        exact h.submit henabled.1 henabled.2
      · cases hnext
  | wait waiter =>
      simp only [IoEngine.step] at hnext
      split at hnext
      · rename_i hthread
        cases hnext
        exact h.pass (hthread ▸ ⟨rfl, rfl, rfl⟩) ⟨rfl, rfl, rfl⟩ rfl rfl
      · cases hnext
  | shutdown reason =>
      simp only [IoEngine.step] at hnext
      split at hnext
      · rename_i hthread
        split at hnext
        · cases hnext
          exact h
        · cases hnext
          exact h.pass (hthread ▸ ⟨rfl, rfl, rfl⟩) ⟨rfl, rfl, rfl⟩ rfl rfl
      · cases hnext
  | advance reply => exact h.advance hnext

end Runs

end TelePath.IoEngine
