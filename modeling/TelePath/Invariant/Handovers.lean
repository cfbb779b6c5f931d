import Mathlib.Data.List.Perm.Basic
import Mathlib.Tactic.Abel
import TelePath.Invariant.Operations
import TelePath.Invariant.Pages

/-!
Handovers: what passes between threads, the queues of the flush scheduler, requests in
flight and operations.  Each one moves rights without changing what they say about frames.
-/

namespace TelePath

open FrameControl

variable {n blockSize : Nat}

theorem sum_map_eraseIdx {α M : Type*} [AddCommMonoid M] (f : α → M) {items : List α}
    {index : Nat} {item : α} (h : items[index]? = some item) :
    (items.map f).sum = ((items.eraseIdx index).map f).sum + f item := by
  obtain ⟨hlt, rfl⟩ := List.getElem?_eq_some_iff.mp h
  have hperm := ((List.getElem_cons_eraseIdx_perm hlt).map f).sum_eq
  rw [← hperm, List.map_cons, List.sum_cons, add_comm]

theorem mem_sum_map {α β : Type*} (f : α → Multiset β) {items : List α} {item : α}
    (hitem : item ∈ items) {value : β} (hvalue : value ∈ f item) : value ∈ (items.map f).sum := by
  obtain ⟨index, hindex⟩ := List.getElem?_of_mem hitem
  rw [sum_map_eraseIdx f hindex]
  exact Multiset.mem_add.mpr (.inr hvalue)

theorem exists_of_mem_sum_map {α β : Type*} {f : α → Multiset β} {items : List α} {value : β}
    (h : value ∈ (items.map f).sum) : ∃ item ∈ items, value ∈ f item := by
  induction items with
  | nil => cases h
  | cons item items ih =>
      rcases Multiset.mem_add.mp h with h | h
      · exact ⟨item, List.mem_cons_self, h⟩
      · obtain ⟨other, hother, hvalue⟩ := ih h
        exact ⟨other, List.mem_cons_of_mem _ hother, hvalue⟩

theorem takeBatch_perm (burstLimit room consecutive : Nat)
    (foreground background : List (FlushTask n blockSize)) :
    ((takeBatch burstLimit room consecutive foreground background).1 ++
      ((takeBatch burstLimit room consecutive foreground background).2.2.1 ++
        (takeBatch burstLimit room consecutive foreground background).2.2.2)).Perm
      (foreground ++ background) := by
  fun_induction takeBatch burstLimit room consecutive foreground background with
  | case1 consecutive foreground background => exact .refl _
  | case2 consecutive room => exact .refl _
  | case3 consecutive room task rest tasks left heq ih =>
      rw [heq] at ih
      exact ih.cons task
  | case4 consecutive room task rest tasks left heq ih =>
      rw [heq] at ih
      exact ih.cons task
  | case5 consecutive room front foreground back background hburst tasks left heq ih =>
      rw [heq] at ih
      exact (ih.cons back).trans List.perm_middle.symm
  | case6 consecutive room front foreground back background hburst tasks left heq ih =>
      rw [heq] at ih
      exact ih.cons front

section Parked

variable {shared shared' : Shared n blockSize}

theorem Shared.parked_congr (hinFlight : shared'.inFlight = shared.inFlight)
    (hcompletions : shared'.completions = shared.completions)
    (hloads : shared'.loads = shared.loads)
    (hforeground : shared'.foregroundQueue = shared.foregroundQueue)
    (hbackground : shared'.backgroundQueue = shared.backgroundQueue) :
    shared'.parked = shared.parked := by
  have hby : ∀ result, shared'.parkedBy result = shared.parkedBy result := by
    intro result
    funext token
    cases token with
    | waiter waiter => rfl
    | load id => simp only [Shared.parkedBy, hloads]
  simp only [Shared.parked, hinFlight, hcompletions, hforeground, hbackground, hby]

theorem Shared.parked_operations (shared : Shared n blockSize)
    (operations : OperationId → Option (ReadBuffersState n)) :
    ({ shared with operations := operations } : Shared n blockSize).parked = shared.parked :=
  Shared.parked_congr rfl rfl rfl rfl rfl

theorem Shared.mem_parked_inFlight (shared : Shared n blockSize)
    {request : DiskRequest n blockSize}
    (hrequest : request ∈ shared.inFlight) {token : Token n blockSize}
    (htoken : token ∈ shared.parkedBy none request.token) : token ∈ shared.parked :=
  Multiset.mem_add.mpr (.inl (Multiset.mem_add.mpr (.inl
    (mem_sum_map (fun request => shared.parkedBy none request.token) hrequest htoken))))

theorem Shared.mem_parked_completions {completion : DiskCompletion}
    (hcompletion : completion ∈ shared.completions) {token : Token n blockSize}
    (htoken : token ∈ shared.parkedBy (some completion.status) completion.token) :
    token ∈ shared.parked :=
  Multiset.mem_add.mpr (.inl (Multiset.mem_add.mpr (.inr
    (mem_sum_map (fun completion => shared.parkedBy (some completion.status) completion.token)
      hcompletion htoken))))

theorem Shared.parked_send (shared : Shared n blockSize) (request : DiskRequest n blockSize) :
    ({ shared with inFlight := shared.inFlight ++ [request] } : Shared n blockSize).parked =
      shared.parked + shared.parkedBy none request.token := by
  have hby : ∀ result token,
      ({ shared with inFlight := shared.inFlight ++ [request] } : Shared n blockSize).parkedBy
        result token = shared.parkedBy result token := by
    intro result token
    cases token <;> rfl
  simp only [Shared.parked, hby, List.map_append, List.sum_append, List.map_singleton,
    List.sum_singleton]
  abel

theorem Shared.parked_reap (shared : Shared n blockSize) {index : Nat}
    {completion : DiskCompletion} (h : shared.completions[index]? = some completion) :
    shared.parked =
      ({ shared with completions := shared.completions.eraseIdx index } :
        Shared n blockSize).parked +
        shared.parkedBy (some completion.status) completion.token := by
  have hby : ∀ result token,
      ({ shared with completions := shared.completions.eraseIdx index } :
        Shared n blockSize).parkedBy result token = shared.parkedBy result token := by
    intro result token
    cases token <;> rfl
  simp only [Shared.parked, hby]
  rw [sum_map_eraseIdx _ h]
  abel

theorem Shared.parked_queues (shared : Shared n blockSize)
    {foreground background tasks : List (FlushTask n blockSize)}
    (h : (tasks ++ (foreground ++ background)).Perm
      (shared.foregroundQueue ++ shared.backgroundQueue)) :
    shared.parked =
      ({ shared with foregroundQueue := foreground, backgroundQueue := background } :
        Shared n blockSize).parked + ↑(tasks.map Shared.parkedTask) := by
  have hby : ∀ result token,
      ({ shared with foregroundQueue := foreground, backgroundQueue := background } :
        Shared n blockSize).parkedBy result token = shared.parkedBy result token := by
    intro result token
    cases token <;> rfl
  have htasks : (↑((shared.foregroundQueue ++ shared.backgroundQueue).map Shared.parkedTask) :
      Multiset (Token n blockSize)) = ↑(tasks.map Shared.parkedTask) +
        ↑((foreground ++ background).map Shared.parkedTask) := by
    rw [Multiset.coe_add, ← List.map_append, Multiset.coe_eq_coe]
    exact (h.map _).symm
  simp only [Shared.parked, hby, htasks]
  abel

theorem Shared.parked_newLoad (shared : Shared n blockSize) (load : AsyncLoad n)
    (h : ∀ id old, .load id old ∈ shared.parked → id < shared.nextId) :
    ({ shared with
        nextId := shared.nextId + 1
        loads := Function.update shared.loads shared.nextId load } : Shared n blockSize).parked =
      shared.parked := by
  have hold : ∀ result token, (∀ id, token = .load id → id ≠ shared.nextId) →
      ({ shared with
          nextId := shared.nextId + 1
          loads := Function.update shared.loads shared.nextId load } :
        Shared n blockSize).parkedBy result token = shared.parkedBy result token := by
    intro result token hne
    cases token with
    | waiter waiter => rfl
    | load id => simp only [Shared.parkedBy, Function.update_of_ne (hne id rfl)]
  have hload : ∀ result token, (∀ right ∈ shared.parkedBy result token, right ∈ shared.parked) →
      ∀ id, token = .load id → id ≠ shared.nextId := by
    rintro result _ hright id rfl
    exact Nat.ne_of_lt (h id (shared.loads id) (hright _ (by simp [Shared.parkedBy])))
  simp only [Shared.parked]
  congr 2
  · congr 1
    refine List.map_congr_left fun request hrequest => hold none request.token ?_
    exact hload none request.token fun _ => shared.mem_parked_inFlight hrequest
  · congr 1
    refine List.map_congr_left fun completion hcompletion => hold _ completion.token ?_
    exact hload _ completion.token fun _ => Shared.mem_parked_completions hcompletion

end Parked

/-- What a handover does to the state and to all tokens there are. -/
inductive Moved (shared : Shared n blockSize) : Shared n blockSize →
    Multiset (Token n blockSize) → Multiset (Token n blockSize) → Prop where
  | stay {all : Multiset (Token n blockSize)} : Moved shared shared all all
  | queue {all : Multiset (Token n blockSize)}
      (foreground background : List (FlushTask n blockSize))
      (h : ∀ task ∈ foreground ++ background, task.clearDirtyOnSuccess = true) :
      Moved shared
        { shared with foregroundQueue := foreground, backgroundQueue := background } all all
  | send {all : Multiset (Token n blockSize)} (purpose : Purpose n blockSize) (waiter : WaiterId)
      (request : DiskRequest n blockSize) (hasks : purpose.Asks waiter request)
      (howner : ∀ token ∈ purpose.waiting waiter, token ∈ all)
      (hticket : .ticket waiter none ∈ all) :
      Moved shared { shared with inFlight := shared.inFlight ++ [request] } all all
  | sendLoad {all : Multiset (Token n blockSize)} (id : LoadId) (load : AsyncLoad n)
      (hload : .load id load ∈ all) :
      Moved shared { shared with inFlight := shared.inFlight ++ [load.request id] } all all
  | refuse (rest : Multiset (Token n blockSize)) (waiter : WaiterId) (status : Status)
      (hstatus : status ≠ ok) :
      Moved shared shared ({.ticket waiter none} + rest) ({.ticket waiter (some status)} + rest)
  | refuseLoad (rest : Multiset (Token n blockSize)) (load : AsyncLoad n) :
      Moved shared shared (load.frameTokens .empty + rest) (load.frameTokens .spoiled + rest)
  | reap {all : Multiset (Token n blockSize)} (completions : List DiskCompletion) :
      Moved shared { shared with completions := completions } all all
  | newLoad {all : Multiset (Token n blockSize)} (load : AsyncLoad n) (h : load.Consecutive) :
      Moved shared
        { shared with
          nextId := shared.nextId + 1
          loads := Function.update shared.loads shared.nextId load }
        all ({.load shared.nextId load} + all)
  | storeOperation (rest : Multiset (Token n blockSize)) (id : OperationId)
      (state : ReadBuffersState n) (held : Multiset (SlotPin n))
      (uncounted : List (List (SlotPin n))) (hpending : state.waiter.pending = 0)
      (hmatched : state.Matched)
      (hslots : (state.slotPins : Multiset (SlotPin n)) = held + ↑uncounted.flatten) :
      Moved shared
        { shared with operations := Function.update shared.operations id (some state) }
        (({.operation id .fresh} + pinTokens held) + rest)
        (({.operation id (.stored uncounted)} + depositTokens id held) + rest)
  | completeOperation (rest : Multiset (Token n blockSize)) (id : OperationId)
      (pins : List (SlotPin n)) (status : Status) :
      Moved shared
        { shared with
          operations := Function.update shared.operations id
            ((shared.operations id).map fun state =>
              { state with waiter := state.waiter.complete status }) }
        (({.delivery id pins} + pinTokens pins) + rest) (depositTokens id pins + rest)
  | finishOperation (rest : Multiset (Token n blockSize)) (id : OperationId)
      (pins : Multiset (SlotPin n)) (state : ReadBuffersState n)
      (hrest : ∀ pin, .deposited id pin ∉ rest) (hstate : shared.operations id = some state)
      (hpending : state.waiter.pending = 0) :
      Moved shared shared (({.operation id (.stored [])} + depositTokens id pins) + rest)
        (({.operation id .closing} + pinTokens pins) + rest)

theorem Moved.of_eq {shared shared' : Shared n blockSize}
    {before after before' after' : Multiset (Token n blockSize)}
    (h : Moved shared shared' before after) (hbefore : before' = before)
    (hafter : after' = after) : Moved shared shared' before' after' := by
  rwa [hbefore, hafter]

theorem exists_deposit_split {deposit : Multiset (Token n blockSize)}
    (h : ∀ token ∈ deposit, token.isDeposited = true) (id : OperationId) :
    ∃ pins rest, deposit = depositTokens id pins + rest ∧
      (∀ token ∈ rest, token.isDeposited = true) ∧ ∀ pin, .deposited id pin ∉ rest := by
  induction deposit using Multiset.induction_on with
  | empty => exact ⟨0, 0, rfl, by simp, by simp⟩
  | cons token deposit ih =>
      obtain ⟨pins, rest, rfl, hrest, hnone⟩ :=
        ih fun other hmem => h other (Multiset.mem_cons_of_mem hmem)
      have htoken := h token (Multiset.mem_cons_self _ _)
      cases token with
      | deposited other pin =>
          by_cases heq : other = id
          · subst heq
            refine ⟨pin ::ₘ pins, rest, ?_, hrest, hnone⟩
            rw [depositTokens, depositTokens, Multiset.map_cons, Multiset.cons_add]
          · refine ⟨pins, .deposited other pin ::ₘ rest, ?_, ?_, ?_⟩
            · rw [Multiset.add_cons]
            · intro token hmem
              rcases Multiset.mem_cons.mp hmem with rfl | hmem
              · rfl
              · exact hrest token hmem
            · intro pin' hmem
              rcases Multiset.mem_cons.mp hmem with hpin | hmem
              · exact heq (Token.deposited.inj hpin).1.symm
              · exact hnone pin' hmem
      | _ => cases htoken

theorem Purpose.Asks.token {purpose : Purpose n blockSize} {waiter : WaiterId}
    {request : DiskRequest n blockSize} (h : purpose.Asks waiter request) :
    request.token = .waiter waiter := by
  cases purpose with
  | fill | write => rw [h]
  | sync => exact h.1

section Handover

variable {shared shared' : Shared n blockSize} {action : Action n blockSize}
  {seen used others deposit : Multiset (Token n blockSize)}
  {given : Reply action → Multiset (Token n blockSize) → Prop} {choice : Choice n}
  {reply : Reply action}

theorem deposited_depositTokens (id : OperationId) (pins : Multiset (SlotPin n)) :
    ∀ token ∈ (depositTokens id pins : Multiset (Token n blockSize)), token.isDeposited = true := by
  intro token hmem
  obtain ⟨pin, -, rfl⟩ := operation?_of_mem_depositTokens hmem
  rfl

theorem undeposited_loadTokens (load : AsyncLoad n) (fill : Fill) :
    ∀ token ∈ (load.tokens fill : Multiset (Token n blockSize)), token.isDeposited = false := by
  intro token hmem
  rcases Multiset.mem_add.mp hmem with hmem | hmem
  · obtain ⟨entry, -, rfl⟩ := List.mem_map.mp (Multiset.mem_coe.mp hmem)
    rfl
  · unfold AsyncLoad.promise at hmem
    split at hmem
    · rw [Multiset.mem_singleton.mp hmem]
      rfl
    · cases hmem

theorem undeposited_parkedBy (result : Option Status) (completion : IoCompletion) :
    ∀ token ∈ shared.parkedBy result completion, token.isDeposited = false := by
  intro token hmem
  cases completion with
  | waiter waiter =>
      rw [Multiset.mem_singleton.mp hmem]
      rfl
  | load id =>
      rcases Multiset.mem_add.mp hmem with hmem | hmem
      · rw [Multiset.mem_singleton.mp hmem]
        rfl
      · exact undeposited_loadTokens _ _ token hmem

theorem undeposited_parked : ∀ token ∈ shared.parked, token.isDeposited = false := by
  intro token hmem
  rcases Multiset.mem_add.mp hmem with hmem | hmem
  · rcases Multiset.mem_add.mp hmem with hmem | hmem
    · obtain ⟨request, -, htoken⟩ := exists_of_mem_sum_map hmem
      exact undeposited_parkedBy _ _ token htoken
    · obtain ⟨completion, -, htoken⟩ := exists_of_mem_sum_map hmem
      exact undeposited_parkedBy _ _ token htoken
  · obtain ⟨task, -, rfl⟩ := List.mem_map.mp (Multiset.mem_coe.mp hmem)
    rfl

theorem moved_enqueue {task : FlushTask n blockSize} (hclear : task.clearDirtyOnSuccess = true)
    {foreground background : List (FlushTask n blockSize)}
    (hqueued : ([task] ++ (shared.foregroundQueue ++ shared.backgroundQueue)).Perm
      (foreground ++ background))
    (hrequests : Requests shared ((({Shared.parkedTask task} + others) + shared.parked) + deposit)) :
    Moved shared { shared with foregroundQueue := foreground, backgroundQueue := background }
      ((({Shared.parkedTask task} + others) + shared.parked) + deposit)
      (((0 + others) + ({ shared with
        foregroundQueue := foreground, backgroundQueue := background } :
          Shared n blockSize).parked) + deposit) := by
  have hparked := Shared.parked_queues
    { shared with foregroundQueue := foreground, backgroundQueue := background } hqueued
  have hall : ((0 + others) + ({ shared with
      foregroundQueue := foreground, backgroundQueue := background } :
        Shared n blockSize).parked) + deposit =
      (({Shared.parkedTask task} + others) + shared.parked) + deposit := by
    rw [hparked]
    change ((0 + others) + (shared.parked + {Shared.parkedTask task})) + deposit = _
    abel
  rw [hall]
  refine .queue foreground background fun other hmem => ?_
  rcases List.mem_append.mp (hqueued.mem_iff.mpr hmem) with hnew | hold
  · rw [List.mem_singleton.mp hnew]
    exact hclear
  · exact hrequests.tasks other hold

theorem Handover.moved (hhandover : Handover action seen used given)
    (hrequests : Requests shared ((used + (seen + others)) + shared.parked + deposit))
    (hoperations : Operations shared ((used + (seen + others)) + shared.parked + deposit))
    (howned : ∀ token ∈ used + (seen + others), token.isDeposited = false)
    (hdeposit : ∀ token ∈ deposit, token.isDeposited = true)
    (hexec : exec shared choice action = some (reply, shared')) :
    ∃ D deposit', given reply D ∧ (∀ token ∈ D, token.isDeposited = false) ∧
      (∀ token ∈ deposit', token.isDeposited = true) ∧
      Moved shared shared' ((used + (seen + others)) + shared.parked + deposit)
        ((D + (seen + others)) + shared'.parked + deposit') := by
  have hnone : ∀ token ∈ (0 : Multiset (Token n blockSize)), token.isDeposited = false := by simp
  cases hhandover with
  | enqueueTask task hclear =>
      simp only [exec] at hexec
      split at hexec
      · cases hexec
        refine ⟨{Shared.parkedTask task}, deposit, (if_neg (by simp [ok])).symm, ?_, hdeposit, .stay⟩
        exact fun token hmem => howned token (Multiset.mem_add.mpr (.inl hmem))
      · split at hexec
        · cases hexec
          refine ⟨0, deposit, (if_pos rfl).symm, hnone, hdeposit,
            moved_enqueue hclear ?_ hrequests⟩
          rw [← List.append_assoc shared.foregroundQueue]
          exact List.perm_append_comm
        · cases hexec
          refine ⟨0, deposit, (if_pos rfl).symm, hnone, hdeposit,
            moved_enqueue hclear ?_ hrequests⟩
          rw [← List.append_assoc]
          exact List.perm_append_comm.append_right _
  | takeNextBatch batchSize burstLimit consecutive =>
      simp only [exec] at hexec
      split at hexec
      · split at hexec
        · cases hexec
          exact ⟨0, deposit, ⟨by simp, rfl⟩, hnone, hdeposit, .stay⟩
        · cases hexec
      · cases hexec
        have hperm := takeBatch_perm burstLimit batchSize consecutive shared.foregroundQueue
          shared.backgroundQueue
        have hparked := shared.parked_queues hperm
        refine ⟨_, deposit, ⟨fun task hmem => hrequests.tasks task ?_, rfl⟩, ?_, hdeposit, ?_⟩
        · exact hperm.mem_iff.mp (List.mem_append.mpr (.inl hmem))
        · intro token hmem
          obtain ⟨task, -, rfl⟩ := List.mem_map.mp (Multiset.mem_coe.mp hmem)
          rfl
        · refine Moved.of_eq (.queue _ _ fun task hmem => hrequests.tasks task ?_) rfl ?_
          · exact hperm.mem_iff.mp (List.mem_append.mpr (.inr hmem))
          · rw [hparked]
            abel
  | submit purpose waiter request hasks =>
      have htoken := hasks.token
      have hrefuse : ∀ status, status ≠ ok → Moved shared shared
          ((({.ticket waiter none} + (purpose.waiting waiter + others)) + shared.parked) + deposit)
          ((({.ticket waiter (some status)} + (purpose.waiting waiter + others)) +
            shared.parked) + deposit) := by
        intro status hstatus
        exact (Moved.refuse _ waiter status hstatus).of_eq
          (by rw [add_assoc, add_assoc]) (by rw [add_assoc, add_assoc])
      have hticket : ∀ status : Status,
          ∀ token ∈ ({.ticket waiter (some status)} : Multiset (Token n blockSize)),
            token.isDeposited = false := by
        intro status token hmem
        rw [Multiset.mem_singleton.mp hmem]
        rfl
      simp only [exec] at hexec
      split at hexec
      · cases hexec
        exact ⟨_, deposit, rfl, hticket _, hdeposit, hrefuse _ hrequests.refused⟩
      · split at hexec
        · cases hexec
          refine ⟨0, deposit, rfl, hnone, hdeposit, ?_⟩
          refine Moved.of_eq (.send purpose waiter request hasks ?_ ?_) rfl ?_
          · intro token hmem
            simp [hmem]
          · simp
          · rw [shared.parked_send, htoken, Shared.parkedBy]
            abel
        · cases hexec
          exact ⟨_, deposit, rfl, hticket _, hdeposit, hrefuse _ ‹_›⟩
  | submitLoad load id =>
      have hloads : shared.loads id = load := (hrequests.load id load (by simp)).2.1
      have hrefuse : ∀ status, status ≠ ok → ∃ D deposit', (status ≠ ok ∧
          D = {.load id load} + load.tokens .spoiled) ∧
          (∀ token ∈ D, token.isDeposited = false) ∧
          (∀ token ∈ deposit', token.isDeposited = true) ∧
          Moved shared shared
            (((({.load id load} + load.tokens .empty) + (0 + others)) + shared.parked) + deposit)
            (((D + (0 + others)) + shared.parked) + deposit') := by
        intro status hstatus
        refine ⟨_, deposit, ⟨hstatus, rfl⟩, ?_, hdeposit, ?_⟩
        · intro token hmem
          rcases Multiset.mem_add.mp hmem with hmem | hmem
          · rw [Multiset.mem_singleton.mp hmem]
            rfl
          · exact undeposited_loadTokens load .spoiled token hmem
        · refine Moved.of_eq (.refuseLoad ({.load id load} + load.promise + others +
            shared.parked + deposit) load) ?_ ?_
          · rw [AsyncLoad.tokens]
            abel
          · rw [AsyncLoad.tokens]
            abel
      simp only [exec] at hexec
      split at hexec
      · cases hexec
        exact hrefuse _ hrequests.refused
      · split at hexec
        · cases hexec
          refine ⟨0, deposit, rfl, hnone, hdeposit, ?_⟩
          refine Moved.of_eq (.sendLoad id load (by simp)) rfl ?_
          rw [shared.parked_send, AsyncLoad.request, Shared.parkedBy, hloads, Fill.ofResult]
          abel
        · cases hexec
          exact hrefuse _ ‹_›
  | reap =>
      simp only [exec] at hexec
      split at hexec
      · cases hexec
        exact ⟨0, deposit, rfl, hnone, hdeposit, .stay⟩
      · obtain ⟨completion, hcompletion, heq⟩ := Option.map_eq_some_iff.mp hexec
        cases heq
        refine ⟨shared.parkedBy (some completion.status) completion.token, deposit, ?_, ?_,
          hdeposit, Moved.of_eq (.reap _) rfl ?_⟩
        · obtain ⟨token, status⟩ := completion
          cases token with
          | waiter waiter => exact ⟨⟨none, []⟩, rfl⟩
          | load id => exact ⟨shared.loads id, rfl⟩
        · exact undeposited_parkedBy _ _
        · rw [shared.parked_reap hcompletion]
          abel
  | newLoad load hconsecutive =>
      cases hexec
      refine ⟨{.load shared.nextId load}, deposit, rfl, by simp [Token.isDeposited], hdeposit, ?_⟩
      refine Moved.of_eq (.newLoad load hconsecutive) rfl ?_
      rw [shared.parked_newLoad]
      · abel
      · intro id old hmem
        exact (hrequests.load id old (by simp [hmem])).1
  | storeOperation id state held uncounted hpending hmatched hslots =>
      cases hexec
      refine ⟨_, depositTokens id held + deposit, rfl, by simp [Token.isDeposited], ?_, ?_⟩
      · intro token hmem
        rcases Multiset.mem_add.mp hmem with hmem | hmem
        · exact deposited_depositTokens id held token hmem
        · exact hdeposit token hmem
      · rw [shared.parked_operations (Function.update shared.operations id (some state))]
        refine Moved.of_eq (.storeOperation (others + shared.parked + deposit) id state held
          uncounted hpending hmatched hslots) ?_ ?_
        · abel
        · abel
  | completeOperation id pins status =>
      cases hexec
      refine ⟨0, depositTokens id pins + deposit, rfl, hnone, ?_, ?_⟩
      · intro token hmem
        rcases Multiset.mem_add.mp hmem with hmem | hmem
        · exact deposited_depositTokens id pins token hmem
        · exact hdeposit token hmem
      · rw [shared.parked_operations (Function.update shared.operations id _)]
        refine Moved.of_eq (.completeOperation (others + shared.parked + deposit) id pins status)
          ?_ ?_
        · abel
        · abel
  | finishOperation id =>
      cases hexec
      obtain ⟨state, hstate, hmatched, -, -⟩ := hoperations.stored id [] (by simp)
      by_cases hpending : state.waiter.pending = 0
      · obtain ⟨pins, left, rfl, hleft, hrest⟩ := exists_deposit_split hdeposit id
        have hsplit : (({.operation id (.stored [])} + (0 + others)) + shared.parked) +
            (depositTokens id pins + left) =
            ({.operation id (.stored [])} + depositTokens id pins) +
              (others + shared.parked + left) := by
          abel
        have hnot : ∀ pin, .deposited id pin ∉ others + shared.parked + left := by
          intro pin hmem
          simp only [Multiset.mem_add] at hmem
          rcases hmem with (hmem | hmem) | hmem
          · exact Bool.noConfusion (howned (.deposited id pin) (by simp [hmem]))
          · exact Bool.noConfusion (undeposited_parked _ hmem)
          · exact hrest pin hmem
        rw [hsplit] at hoperations
        obtain ⟨hpins, -⟩ := hoperations.finishOperation hnot hstate hpending
        refine ⟨_, left, ⟨state, hstate, hmatched, (if_pos hpending).symm⟩, ?_, hleft, ?_⟩
        · intro token hmem
          rcases Multiset.mem_add.mp hmem with hmem | hmem
          · rw [Multiset.mem_singleton.mp hmem]
            rfl
          · obtain ⟨pin, -, rfl⟩ := Multiset.mem_map.mp hmem
            rfl
        · rw [hsplit, ← hpins]
          refine Moved.of_eq (.finishOperation _ id pins state hnot hstate hpending) rfl ?_
          abel
      · refine ⟨_, deposit, ⟨state, hstate, hmatched, (if_neg hpending).symm⟩, ?_, hdeposit, .stay⟩
        simp [Token.isDeposited]

end Handover

section Kept

attribute [local grind cases] Requests

variable {shared shared' : Shared n blockSize} {before after : Multiset (Token n blockSize)}

theorem mem_frameTokens {load : AsyncLoad n} {fill : Fill} {token : Token n blockSize}
    (h : token ∈ load.frameTokens fill) : ∃ entry ∈ load.entries,
      token = .loading entry.reservation.frame (.installed entry.tag fill) := by
  obtain ⟨entry, hentry, rfl⟩ := List.mem_map.mp (Multiset.mem_coe.mp h)
  exact ⟨entry, hentry, rfl⟩

theorem frameTokens_mem {load : AsyncLoad n} {entry : AsyncLoadEntry n}
    (h : entry ∈ load.entries) (fill : Fill) :
    (.loading entry.reservation.frame (.installed entry.tag fill) : Token n blockSize) ∈
      load.frameTokens fill :=
  Multiset.mem_coe.mpr (List.mem_map.mpr ⟨entry, h, rfl⟩)

theorem held_frameTokens (load : AsyncLoad n) (fill fill' : Fill) (frame : Fin n)
    (right : Right) :
    held (load.frameTokens fill : Multiset (Token n blockSize)) frame right =
      held (load.frameTokens fill' : Multiset (Token n blockSize)) frame right := by
  rw [AsyncLoad.frameTokens, AsyncLoad.frameTokens]
  induction load.entries with
  | nil => rfl
  | cons entry entries ih =>
      simp only [List.map_cons, ← Multiset.cons_coe, held_cons, ih]
      rfl

theorem held_depositTokens (id : OperationId) (pins : Multiset (SlotPin n)) (frame : Fin n)
    (right : Right) :
    held (depositTokens id pins : Multiset (Token n blockSize)) frame right =
      held (pinTokens pins : Multiset (Token n blockSize)) frame right := by
  induction pins using Multiset.induction_on with
  | empty => rfl
  | cons pin pins ih =>
      rw [depositTokens, pinTokens, Multiset.map_cons, Multiset.map_cons, held_cons, held_cons]
      exact congrArg (_ + ·) ih

theorem mem_pinTokens {pins : Multiset (SlotPin n)} {pin : SlotPin n} (h : pin ∈ pins) :
    (.pin pin.frame pin.tag : Token n blockSize) ∈ pinTokens pins :=
  Multiset.mem_map.mpr ⟨pin, h, rfl⟩

theorem Control.deposit {first rest : Multiset (Token n blockSize)}
    {pins : Multiset (SlotPin n)} (h : Control shared ((first + pinTokens pins) + rest))
    (id : OperationId) (second : Multiset (Token n blockSize))
    (hrights : ∀ frame right, held second frame right = held first frame right)
    (hholds : ∀ token ∈ second, token.Holds shared) :
    Control shared ((second + depositTokens id pins) + rest) := by
  refine h.retoken (fun frame right => ?_) fun token hmem => ?_
  · rw [held_add, held_add, hrights, held_depositTokens]
  · rcases Multiset.mem_add.mp hmem with hmem | hmem
    · exact hholds token hmem
    · obtain ⟨pin, hpin, rfl⟩ := operation?_of_mem_depositTokens hmem
      exact h.tag_of_pin (by simp [mem_pinTokens hpin])

theorem Control.withdraw {first second rest : Multiset (Token n blockSize)}
    {pins : Multiset (SlotPin n)} {id : OperationId}
    (h : Control shared ((first + depositTokens id pins) + rest))
    (hrights : ∀ frame right, held second frame right = held first frame right)
    (hholds : ∀ token ∈ second, token.Holds shared) :
    Control shared ((second + pinTokens pins) + rest) := by
  refine h.retoken (fun frame right => ?_) fun token hmem => ?_
  · rw [held_add, held_add, hrights, held_depositTokens]
  · rcases Multiset.mem_add.mp hmem with hmem | hmem
    · exact hholds token hmem
    · obtain ⟨pin, hpin, rfl⟩ := Multiset.mem_map.mp hmem
      have hleft : .deposited id pin ∈ (first + depositTokens id pins) + rest := by
        simp [depositTokens, hpin]
      exact h.holds (.deposited id pin) hleft

theorem Control.moved (hmoved : Moved shared shared' before after) (h : Control shared before) :
    Control shared' after := by
  cases hmoved with
  | stay => exact h
  | queue | send | sendLoad | reap => exact h.elsewhere rfl rfl rfl rfl
  | refuse rest waiter status hstatus =>
      exact h.retoken (by simp [Token.rights]) (by simp [Token.Holds])
  | refuseLoad rest load =>
      refine h.retoken (held_frameTokens load _ _) fun token hmem => ?_
      obtain ⟨entry, hentry, rfl⟩ := mem_frameTokens hmem
      exact h.holds (.loading entry.reservation.frame (.installed entry.tag .empty))
        (Multiset.mem_add.mpr (.inl (frameTokens_mem hentry .empty)))
  | newLoad load hconsecutive =>
      rw [← zero_add before] at h
      refine Control.retoken (h.elsewhere rfl rfl rfl rfl) ?_ ?_
      · simp [Token.rights]
      · simp [Token.Holds]
  | storeOperation rest id state pins uncounted hpending hmatched hslots =>
      have hdeposit := h.deposit id {.operation id (.stored uncounted)}
        (by simp [Token.rights]) (by simp [Token.Holds])
      exact hdeposit.elsewhere rfl rfl rfl rfl
  | completeOperation rest id pins status =>
      have hdeposit := h.deposit id 0 (by simp [Token.rights]) (by simp)
      rw [zero_add] at hdeposit
      exact hdeposit.elsewhere rfl rfl rfl rfl
  | finishOperation rest id pins state hrest hstate hpending =>
      refine h.withdraw ?_ ?_
      · simp [Token.rights]
      · simp [Token.Holds]

theorem Moved.pages (hmoved : Moved shared shared' before after) :
    shared'.pages = shared.pages := by
  cases hmoved <;> rfl

/-- A token that says nothing about bytes or writebacks and nothing about what requests
have done. -/
structure Token.Idle (token : Token n blockSize) : Prop where
  unwatched : token.Unwatched
  purpose : token.purpose? = none
  ticket : ∀ waiter, token ≠ .ticket waiter (some ok)
  writeback : ∀ frame stage, token ≠ .writeback frame stage

theorem idle_frameTokens (load : AsyncLoad n) :
    ∀ token ∈ (load.frameTokens .spoiled : Multiset (Token n blockSize)), token.Idle := by
  intro token hmem
  obtain ⟨entry, -, rfl⟩ := mem_frameTokens hmem
  exact ⟨rfl, rfl, by simp, nofun⟩

theorem idle_pinTokens (pins : Multiset (SlotPin n)) :
    ∀ token ∈ (pinTokens pins : Multiset (Token n blockSize)), token.Idle := by
  intro token hmem
  obtain ⟨pin, -, rfl⟩ := Multiset.mem_map.mp hmem
  exact ⟨trivial, rfl, by simp, nofun⟩

theorem idle_depositTokens (id : OperationId) (pins : Multiset (SlotPin n)) :
    ∀ token ∈ (depositTokens id pins : Multiset (Token n blockSize)), token.Idle := by
  intro token hmem
  obtain ⟨pin, -, rfl⟩ := operation?_of_mem_depositTokens hmem
  exact ⟨trivial, rfl, by simp, nofun⟩

theorem idle_operation (id : OperationId) (stage : OperationStage n) :
    ∀ token ∈ ({.operation id stage} : Multiset (Token n blockSize)), token.Idle := by
  intro token hmem
  rw [Multiset.mem_singleton.mp hmem]
  exact ⟨trivial, rfl, by simp, nofun⟩

theorem Moved.idle (hmoved : Moved shared shared' before after) :
    ∀ token ∈ after, token ∈ before ∨ token.Idle := by
  have hexchange : ∀ {used given rest : Multiset (Token n blockSize)},
      (∀ token ∈ given, token.Idle) → ∀ token ∈ given + rest, token ∈ used + rest ∨ token.Idle := by
    intro used given rest hgiven token hmem
    rcases Multiset.mem_add.mp hmem with hmem | hmem
    · exact .inr (hgiven token hmem)
    · exact .inl (mem_rest hmem)
  have hadd : ∀ {first second : Multiset (Token n blockSize)}, (∀ token ∈ first, token.Idle) →
      (∀ token ∈ second, token.Idle) → ∀ token ∈ first + second, token.Idle := by
    intro first second hfirst hsecond token hmem
    exact (Multiset.mem_add.mp hmem).elim (hfirst token) (hsecond token)
  cases hmoved with
  | stay | queue | send | sendLoad | reap => exact fun token hmem => .inl hmem
  | refuse rest waiter status hstatus =>
      refine hexchange fun token hmem => ?_
      rw [Multiset.mem_singleton.mp hmem]
      exact ⟨trivial, rfl, by simp [hstatus], nofun⟩
  | refuseLoad rest load => exact hexchange (idle_frameTokens load)
  | newLoad load hconsecutive =>
      intro token hmem
      rcases Multiset.mem_add.mp hmem with hmem | hmem
      · rw [Multiset.mem_singleton.mp hmem]
        exact .inr ⟨trivial, rfl, by simp, nofun⟩
      · exact .inl hmem
  | storeOperation rest id state pins uncounted hpending hmatched hslots =>
      exact hexchange (hadd (idle_operation id _) (idle_depositTokens id pins))
  | completeOperation rest id pins status => exact hexchange (idle_depositTokens id _)
  | finishOperation rest id pins state hrest hstate hpending =>
      exact hexchange (hadd (idle_operation id _) (idle_pinTokens pins))

theorem Token.Unwatched.mark {token : Token n blockSize} (h : token.Unwatched) (frame : Fin n) :
    token.mark? frame = none := by
  cases token with
  | writer => exact h.elim
  | writeback other stage => exact Marked.mark?_writeback_none h.1 other frame
  | _ => rfl

theorem Marked.moved (hmoved : Moved shared shared' before after)
    (h : Marked shared.pages before) : Marked shared'.pages after := by
  intro token hmem
  rw [hmoved.pages]
  rcases hmoved.idle token hmem with hold | hidle
  · exact h token hold
  · exact Token.Marked.of_none hidle.unwatched.mark

theorem Data.moved {bytes : BufferTag → Page blockSize} {unwritten : Fin n → Bool}
    (hmoved : Moved shared shared' before after) (h : Data bytes unwritten shared.pages before) :
    Data bytes unwritten shared'.pages after := by
  rw [hmoved.pages]
  refine ⟨h.disk, h.resident, fun token hmem frame => ?_⟩
  rcases hmoved.idle token hmem with hold | hidle
  · exact h.reports token hold frame
  · exact Data.reports_of_unwatched hidle.unwatched

theorem frameTokens_offOperations (load : AsyncLoad n) (fill : Fill) :
    OffOperations (load.frameTokens fill : Multiset (Token n blockSize)) := by
  intro token hmem
  obtain ⟨entry, -, rfl⟩ := mem_frameTokens hmem
  rfl

theorem Operations.moved (hmoved : Moved shared shared' before after)
    (h : Operations shared before) : Operations shared' after := by
  cases hmoved with
  | stay => exact h
  | queue | send | sendLoad | reap => exact h.agree rfl le_rfl
  | refuse rest waiter status hstatus => exact h.exchange (.singleton rfl) (.singleton rfl)
  | refuseLoad rest load =>
      exact h.exchange (frameTokens_offOperations load _) (frameTokens_offOperations load _)
  | newLoad load hconsecutive =>
      rw [← zero_add before] at h
      exact (h.exchange .zero (.singleton rfl)).agree rfl (Nat.le_succ _)
  | storeOperation rest id state held uncounted hpending hmatched hslots =>
      exact h.storeOperation hpending hmatched hslots
  | completeOperation rest id pins status => exact h.completeOperation
  | finishOperation rest id pins state hrest hstate hpending =>
      exact (h.finishOperation hrest hstate hpending).2

theorem pinTokens_offRequests (pins : Multiset (SlotPin n)) :
    OffRequests (pinTokens pins : Multiset (Token n blockSize)) := by
  intro token hmem
  obtain ⟨pin, -, rfl⟩ := Multiset.mem_map.mp hmem
  rfl

theorem depositTokens_offRequests (id : OperationId) (pins : Multiset (SlotPin n)) :
    OffRequests (depositTokens id pins : Multiset (Token n blockSize)) := by
  intro token hmem
  obtain ⟨pin, -, rfl⟩ := operation?_of_mem_depositTokens hmem
  rfl

theorem frameTokens_offRequests (load : AsyncLoad n) {fill : Fill}
    (h : ∀ waiter, fill ≠ .reading waiter) :
    OffRequests (load.frameTokens fill : Multiset (Token n blockSize)) := by
  intro token hmem
  obtain ⟨entry, -, rfl⟩ := mem_frameTokens hmem
  exact offRequests_installed _ _ h

theorem Requests.purpose_unique (h : Requests shared before) {purpose purpose' : Purpose n blockSize}
    {waiter : WaiterId} (howner : ∀ token ∈ purpose.waiting waiter, token ∈ before)
    {token : Token n blockSize} (hmem : token ∈ before)
    (htoken : token.purpose? = some (waiter, purpose')) : purpose' = purpose := by
  obtain ⟨owner, howned, hpurpose⟩ := purpose.exists_owner waiter
  obtain rfl := eq_of_tally_le_one (h.owner waiter) (howner owner (by simp [howned])) hmem
    (Token.awaits_of_purpose? hpurpose) (Token.awaits_of_purpose? htoken)
  rw [hpurpose] at htoken
  exact (Prod.mk.inj (Option.some.inj htoken)).2.symm

theorem Requests.addRequest (h : Requests shared before) {request : DiskRequest n blockSize}
    (hasks : ∀ token ∈ before, ∀ waiter purpose, request.token = .waiter waiter →
      token.purpose? = some (waiter, purpose) → purpose.Asks waiter request)
    (hticketed : ∀ waiter, request.token = .waiter waiter → .ticket waiter none ∈ before)
    (hclaimed : ∀ waiter, request.token = .waiter waiter →
      ∃ token ∈ before, token.awaits waiter = true)
    (hloading : ∀ id, request.token = .load id → request = (shared.loads id).request id) :
    Requests { shared with inFlight := shared.inFlight ++ [request] } before := by
  constructor <;> grind

theorem Requests.send (h : Requests shared before) {purpose : Purpose n blockSize}
    {waiter : WaiterId} {request : DiskRequest n blockSize} (hasks : purpose.Asks waiter request)
    (howner : ∀ token ∈ purpose.waiting waiter, token ∈ before)
    (hticket : .ticket waiter none ∈ before) :
    Requests { shared with inFlight := shared.inFlight ++ [request] } before := by
  have hone : ∀ other, request.token = .waiter other → other = waiter := by
    simp [hasks.token, eq_comm]
  obtain ⟨owner, howned, hpurpose⟩ := purpose.exists_owner waiter
  refine h.addRequest ?_ ?_ ?_ (by simp [hasks.token])
  · intro token hmem other purpose' hother hpurpose'
    rw [hone other hother] at hpurpose' ⊢
    rw [h.purpose_unique howner hmem hpurpose']
    exact hasks
  · intro other hother
    rw [hone other hother]
    exact hticket
  · intro other hother
    rw [hone other hother]
    exact ⟨owner, howner owner (by simp [howned]), Token.awaits_of_purpose? hpurpose⟩

theorem Requests.sendLoad (h : Requests shared before) {id : LoadId} {load : AsyncLoad n}
    (hload : .load id load ∈ before) :
    Requests { shared with inFlight := shared.inFlight ++ [load.request id] } before := by
  refine h.addRequest (fun _ _ _ _ hwaiter => nomatch hwaiter) nofun nofun ?_
  rintro _ ⟨⟩
  rw [(h.load id load hload).2.1]

theorem Requests.setTicket {rest : Multiset (Token n blockSize)} {waiter : WaiterId}
    {result : Option Status} (h : Requests shared ({.ticket waiter result} + rest))
    (result' : Option Status)
    (hticketed : ∀ request ∈ shared.inFlight, ∀ other, request.token = .waiter other →
      .ticket other none ∈ ({.ticket waiter result'} : Multiset (Token n blockSize)) + rest) :
    Requests shared ({.ticket waiter result'} + rest) := by
  have htickets : ∀ other,
      tally (Token.isTicket other)
          (({.ticket waiter result'} : Multiset (Token n blockSize)) + rest) =
        tally (Token.isTicket other) ({.ticket waiter result} + rest) := by
    intro other
    simp
  have howners : ∀ other, tally (Token.awaits other)
        (({.ticket waiter result'} : Multiset (Token n blockSize)) + rest) =
      tally (Token.awaits other) ({.ticket waiter result} + rest) := by
    intro other
    simp
  have hsplit : ∀ result token, token ∈ {Token.ticket waiter result} + rest ↔
      token = .ticket waiter result ∨ token ∈ rest := by
    simp
  have hwaiter : waiter < shared.nextId := h.fresh (.ticket waiter result) mem_own waiter rfl
  constructor <;> grind [Token.waiter?, Token.purpose?, Token.awaits_ticket]

theorem Requests.newLoad (h : Requests shared before)
    (hparked : ∀ token ∈ shared.parked, token ∈ before) {load : AsyncLoad n}
    (hconsecutive : load.Consecutive) :
    Requests { shared with
        nextId := shared.nextId + 1
        loads := Function.update shared.loads shared.nextId load }
      ({.load shared.nextId load} + before) := by
  have hsplit : ∀ token, token ∈ {Token.load shared.nextId load} + before ↔
      token = .load shared.nextId load ∨ token ∈ before := by
    simp
  have htallies : ∀ test : Token n blockSize → Bool, test (.load shared.nextId load) = false →
      tally test ({.load shared.nextId load} + before) = tally test before := by
    intro test htest
    rw [tally_add, tally_singleton, if_neg (by simp [htest]), Nat.zero_add]
  have hloads : ∀ id, Function.update shared.loads shared.nextId load id =
      if id = shared.nextId then load else shared.loads id := Function.update_apply _ _ _
  have hfresh : ∀ request ∈ shared.inFlight, ∀ id, request.token = .load id → id < shared.nextId :=
    fun request hrequest id hid => (h.load id (shared.loads id) (hparked _
      (shared.mem_parked_inFlight hrequest (by simp [hid, Shared.parkedBy])))).1
  have htickets := fun waiter => htallies (Token.isTicket waiter) rfl
  have howners := fun waiter => htallies (Token.awaits waiter) rfl
  constructor <;> grind [Token.waiter?, Token.purpose?]

theorem Requests.moved (hmoved : Moved shared shared' before after)
    (hbefore : ∀ token ∈ shared.parked, token ∈ before)
    (hafter : ∀ token ∈ shared'.parked, token ∈ after)
    (h : Requests shared before) : Requests shared' after := by
  have hsame : ∀ (operations : OperationId → Option (ReadBuffersState n)),
      shared.SameRequests { shared with operations := operations } := fun _ =>
    ⟨rfl, rfl, rfl, rfl, rfl, rfl, rfl, rfl, le_rfl⟩
  cases hmoved with
  | stay => exact h
  | queue foreground background htasks =>
      exact ⟨h.fresh, h.owner, h.pending, h.single, h.settled, h.asks, h.ticketed, h.claimed,
        h.load, h.loading, h.refused, htasks⟩
  | reap completions =>
      exact ⟨h.fresh, h.owner, h.pending, h.single, h.settled, h.asks, h.ticketed, h.claimed,
        h.load, h.loading, h.refused, h.tasks⟩
  | send purpose waiter request hasks howner hticket => exact h.send hasks howner hticket
  | sendLoad id load hload => exact h.sendLoad hload
  | refuse rest waiter status hstatus =>
      refine h.setTicket _ fun request hrequest other hother => hafter _ ?_
      exact shared.mem_parked_inFlight hrequest (by simp [hother, Shared.parkedBy])
  | refuseLoad rest load =>
      exact h.exchange (frameTokens_offRequests load nofun) (frameTokens_offRequests load nofun)
  | newLoad load hconsecutive => exact h.newLoad hbefore hconsecutive
  | storeOperation rest id state held uncounted hpending hmatched hslots =>
      have hexchange := h.exchange (.add (.singleton rfl) (pinTokens_offRequests held))
        (.add (.singleton rfl) (depositTokens_offRequests id held) :
          OffRequests ({.operation id (.stored uncounted)} + depositTokens id held))
      exact hexchange.agree (hsame _)
  | completeOperation rest id pins status =>
      have hexchange := h.exchange (.add (.singleton rfl) (pinTokens_offRequests _))
        (depositTokens_offRequests id (↑pins : Multiset (SlotPin n)))
      exact hexchange.agree (hsame _)
  | finishOperation rest id pins state hrest hstate hpending =>
      exact h.exchange (.add (.singleton rfl) (depositTokens_offRequests id pins))
        (.add (.singleton rfl) (pinTokens_offRequests pins))

theorem Moved.waiters (hmoved : Moved shared shared' before after) :
    shared'.waiters = shared.waiters := by
  cases hmoved <;> rfl

theorem Landed.moved {effect effect' : Purpose n blockSize → Prop}
    (hmoved : Moved shared shared' before after) (h : Landed effect shared before)
    (hstable : ∀ token ∈ before, ∀ waiter purpose, token.purpose? = some (waiter, purpose) →
      effect purpose → effect' purpose) :
    Landed effect' shared' after := by
  refine h.mono hmoved.waiters (fun token hmem hsome => ?_) (fun waiter hmem => ?_) hstable
  · refine (hmoved.idle token hmem).resolve_right fun hidle => ?_
    rw [hidle.purpose] at hsome
    cases hsome
  · exact (hmoved.idle _ hmem).resolve_right fun hidle => hidle.ticket waiter rfl

end Kept

end TelePath
