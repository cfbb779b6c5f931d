import TelePath.Spec.Silent

/-!
What the programs of `Manager/IoEngine` need and what they leave.
-/

namespace TelePath

open FrameControl Logic Manager

variable {n blockSize : Nat} {context : Multiset (Token n blockSize)}

theorem releaseFreeFrame_spec (frame : Fin n) :
    Ensures Rule context (releaseFreeFrame frame : Prog n blockSize Unit) (fun _ Q => Q = 0)
      {.free frame .unlinked} := by
  refine ensures_silent rfl fun _ => ?_
  refine ensures_last (.trade (.pushFree frame)) (add_zero _).symm (zero_add _).symm ?_
  rintro _ _ rfl
  rfl

theorem free_unmapped_spec (frame : Fin n) {α : Type} {rest : Prog n blockSize α}
    {post : α → Multiset (Token n blockSize) → Prop}
    (hrest : Ensures Rule context rest post 0) :
    Ensures Rule context (do
        act (.removeTracked frame)
        act (.storeTag frame {})
        act (.releaseToFree frame)
        releaseFreeFrame frame
        rest) post {.loading frame .unmapped} := by
  refine ensures_act (.trade (.untrack frame)) (add_zero _).symm (zero_add _).symm ?_
  rintro _ _ rfl
  refine ensures_act (.trade (.clearTag frame {})) rfl (zero_add _).symm ?_
  rintro _ _ rfl
  refine ensures_act (.trade (.releaseToFree frame)) rfl (zero_add _).symm ?_
  rintro _ _ rfl
  refine (releaseFreeFrame_spec frame).call rfl ?_
  rintro _ _ rfl
  rwa [zero_add]

theorem abortLoadReservation_spec (frame : Fin n) (tag : BufferTag) (status : Status)
    (fill : Fill) (hfill : ∀ waiter, fill ≠ .reading waiter) :
    Ensures Rule context (abortLoadReservation frame tag status)
      (fun result Q => result = status ∧ Q = 0) {.loading frame (.installed tag fill)} := by
  refine ensures_act (.trade (.unmap frame tag fill hfill)) (add_zero _).symm (zero_add _).symm ?_
  rintro _ _ rfl
  rw [add_zero]
  exact free_unmapped_spec frame (ensures_done.mpr ⟨rfl, rfl⟩)

theorem publishLoadedFrame_spec (tag : BufferTag) (reservation : FrameReservation n)
    (readFromDisk releasePin : Bool) :
    Ensures Rule context (publishLoadedFrame tag reservation readFromDisk releasePin)
      (fun _ Q => Q = if releasePin then 0 else {.pin reservation.frame tag})
      {.loading reservation.frame (.installed tag .filled)} := by
  refine ensures_silent rfl fun _ => ?_
  refine ensures_act (.trade (.recordLoad reservation.frame tag .filled nofun)) (add_zero _).symm
    (zero_add _).symm ?_
  rintro _ _ rfl
  refine ensures_act (.trade (.publish reservation.frame tag releasePin)) rfl (zero_add _).symm ?_
  rintro _ _ rfl
  rw [add_zero]
  exact ensures_of_silent (silent_recordPublished _ _ _)

theorem publishZeroed_spec (tag : BufferTag) (reservation : FrameReservation n)
    (readFromDisk : Bool) :
    Ensures Rule (context + {.exclusive reservation.frame})
      (publishLoadedFrame tag reservation readFromDisk false)
      (fun _ Q => Q = {.pin reservation.frame tag})
      {.loading reservation.frame (.installed tag .empty)} := by
  refine ensures_silent rfl fun _ => ?_
  refine ensures_act (.trade (.recordLoad reservation.frame tag .empty nofun)) (add_zero _).symm
    (zero_add _).symm ?_
  rintro _ _ rfl
  refine ensures_act (.trade (.publishZeroed reservation.frame tag)) rfl
    (by rw [add_zero, add_comm]) ?_
  rintro _ _ rfl
  rw [add_zero]
  exact ensures_of_silent (silent_recordPublished _ _ _)

def entryPins (entries : List (AsyncLoadEntry n)) : List (SlotPin n) :=
  entries.map fun entry => ⟨entry.slot, entry.reservation.frame, entry.tag⟩

def entryTokens (entries : List (AsyncLoadEntry n)) (fill : Fill) :
    Multiset (Token n blockSize) :=
  (entries.map fun entry =>
    (.loading entry.reservation.frame (.installed entry.tag fill) : Token n blockSize) :
    List (Token n blockSize))

@[simp] theorem entryTokens_cons (entry : AsyncLoadEntry n) (rest : List (AsyncLoadEntry n))
    (fill : Fill) : (entryTokens (entry :: rest) fill : Multiset (Token n blockSize)) =
      {.loading entry.reservation.frame (.installed entry.tag fill)} + entryTokens rest fill :=
  rfl

theorem entryPins_append (first second : List (AsyncLoadEntry n)) :
    entryPins (first ++ second) = entryPins first ++ entryPins second :=
  List.map_append

theorem pinTokens_add (first second : Multiset (SlotPin n)) :
    (pinTokens (first + second) : Multiset (Token n blockSize)) =
      pinTokens first + pinTokens second :=
  Multiset.map_add _ _ _

theorem abortEntries_spec (operation : Option OperationId) (error : Error)
    (entries : List (AsyncLoadEntry n)) :
    Ensures Rule context
      (Program.forEach entries (finishAsyncLoadEntry operation (some error)) :
        Prog n blockSize Unit)
      (fun _ Q => Q = operation.elim 0 fun id => {.delivery id []})
      (entryTokens entries .spoiled +
        operation.elim 0 fun id => {.delivery id (entryPins entries)}) := by
  refine ensures_forEach (fun items Q => Q = entryTokens items .spoiled +
    operation.elim 0 fun id => {.delivery id (entryPins items)}) rfl ?_ |>.mono ?_
  · rintro entry rest _ rfl
    refine (abortLoadReservation_spec _ _ _ .spoiled nofun).call
      (by rw [entryTokens_cons, add_assoc]) ?_
    rintro _ _ ⟨-, rfl⟩
    rw [zero_add]
    cases operation with
    | none => rfl
    | some id =>
        refine ensures_last (.trade (.failSlot id
          ⟨entry.slot, entry.reservation.frame, entry.tag⟩ (entryPins rest))) (add_comm _ _)
          (zero_add _).symm ?_
        rintro _ _ rfl
        exact add_comm _ _
  · rintro _ _ rfl
    exact zero_add _

theorem publishEntries_spec (operation : Option OperationId)
    (entries : List (AsyncLoadEntry n)) :
    Ensures Rule context
      (Program.forEach entries (finishAsyncLoadEntry operation none) : Prog n blockSize Unit)
      (fun _ Q => Q = operation.elim 0 fun _ => pinTokens (entryPins entries))
      (entryTokens entries .filled) := by
  refine ensures_forEach (fun items Q => ∃ finished, finished ++ items = entries ∧
    Q = entryTokens items .filled + operation.elim 0 fun _ => pinTokens (entryPins finished))
    ⟨[], rfl, ?_⟩ ?_ |>.mono ?_
  · cases operation <;> exact (add_zero _).symm
  · rintro entry rest _ ⟨finished, rfl, rfl⟩
    rw [entryTokens_cons, add_assoc]
    refine ((publishLoadedFrame_spec entry.tag entry.reservation true operation.isNone).frame
      _).mono ?_
    rintro _ _ ⟨_, rfl, rfl⟩
    refine ⟨finished ++ [entry], by simp, ?_⟩
    cases operation with
    | none => rfl
    | some id =>
        rw [entryPins_append, ← Multiset.coe_add, pinTokens_add]
        change {.pin entry.reservation.frame entry.tag} + (_ + _) =
          entryTokens rest .filled + (_ + {.pin entry.reservation.frame entry.tag})
        rw [add_comm, add_assoc]
        rfl
  · rintro _ _ ⟨finished, rfl, rfl⟩
    rw [List.append_nil]
    exact zero_add _

theorem finishAsyncLoad_spec (load : AsyncLoad n) (status : Status) :
    Ensures Rule context (finishAsyncLoad load status : Prog n blockSize Unit) (fun _ Q => Q = 0)
      (load.tokens (.ofResult (some status))) := by
  -- the load is counted off with the pins of the entries it has published
  have hlast : ∀ pins : List (SlotPin n), Ensures Rule context
      (load.operation.elim (act .finishPrefetch) fun id => act (.completeOperation id status))
      (fun _ Q => Q = 0)
      (load.operation.elim 0 fun id => pinTokens pins + {.delivery id pins}) := by
    intro pins
    cases load.operation with
    | none => exact ensures_of_silent (silent_act rfl rfl)
    | some id =>
        refine ensures_last (.handover (.completeOperation id pins status))
          (by rw [add_zero]; exact add_comm _ _) (zero_add _).symm ?_
        rintro _ _ rfl
        rfl
  have hpromise : load.promise = load.operation.elim (0 : Multiset (Token n blockSize))
      fun id => {.delivery id (entryPins load.entries)} := by
    rw [AsyncLoad.promise]
    cases load.operation <;> rfl
  rw [AsyncLoad.tokens, hpromise]
  cases status with
  | some error =>
      refine (abortEntries_spec load.operation error load.entries).seq ?_
      rintro _ _ rfl
      have hnone := hlast []
      cases hoperation : load.operation <;> rw [hoperation] at hnone <;> exact hnone
  | none =>
      refine (publishEntries_spec load.operation load.entries).call rfl ?_
      rintro _ _ rfl
      have hall := hlast (entryPins load.entries)
      cases hoperation : load.operation <;> rw [hoperation] at hall <;> exact hall

theorem deliver_spec (load : AsyncLoad n) (completion : DiskCompletion) :
    Ensures Rule context (deliver completion : Prog n blockSize Unit) (fun _ Q => Q = 0)
      (reapedTokens load completion.status completion.token) := by
  obtain ⟨token, status⟩ := completion
  cases token with
  | waiter id =>
      refine ensures_last (.trade (.completeWaiter id status)) (add_zero _).symm
        (zero_add _).symm ?_
      rintro _ _ rfl
      rfl
  | load id =>
      refine ensures_act (.trade (.takeLoad id load)) rfl (zero_add _).symm ?_
      rintro _ _ ⟨rfl, rfl⟩
      rw [zero_add]
      exact finishAsyncLoad_spec _ status

theorem reapReady_spec :
    Ensures Rule context (reapReady : Prog n blockSize Bool) (fun _ Q => Q = 0) 0 := by
  refine ensures_act (.handover .reap) (zero_add _).symm (zero_add _).symm ?_
  intro reply D hgiven
  cases reply with
  | none =>
      cases hgiven
      rfl
  | some completion =>
      obtain ⟨load, rfl⟩ := hgiven
      refine (deliver_spec load completion).call rfl ?_
      rintro _ _ rfl
      rfl

theorem submit_spec {ι : Type} (items : List ι) (request : ι → DiskRequest n blockSize)
    (tokens : ι → Multiset (Token n blockSize))
    (hone : ∀ item ∈ items,
      Ensures Rule context (submit [request item]) (fun _ Q => Q = 0) (tokens item)) :
    Ensures Rule context (submit (items.map request)) (fun _ Q => Q = 0)
      (items.map tokens).sum := by
  induction items with
  | nil => rfl
  | cons item rest ih =>
      have hfirst := ensures_bind.mp (hone item (List.mem_cons_self ..))
      refine (hfirst.frame _).seq ?_
      rintro _ _ ⟨_, rfl, rfl⟩
      rw [zero_add]
      exact ih fun other hmem => hone other (List.mem_cons_of_mem _ hmem)

theorem submitOne_spec (purpose : Purpose n blockSize) (waiter : WaiterId)
    (request : DiskRequest n blockSize) (hasks : purpose.Asks waiter request)
    (htoken : request.token = .waiter waiter) :
    Ensures Rule (context + purpose.waiting waiter) (submit [request]) (fun _ Q => Q = 0)
      {.ticket waiter none} := by
  refine ensures_bind.mpr ?_
  refine ensures_act (.handover (.submit purpose waiter request hasks)) (add_zero _).symm
    (by rw [add_zero, add_comm]) ?_
  rintro refusal _ rfl
  cases refusal with
  | none => rfl
  | some status =>
      rw [htoken]
      exact deliver_spec (⟨none, []⟩ : AsyncLoad n) ⟨.waiter waiter, status⟩

theorem submitLoad_spec (load : AsyncLoad n) (id : LoadId) :
    Ensures Rule context (submit [load.request id] : Prog n blockSize Unit) (fun _ Q => Q = 0)
      ({.load id load} + load.tokens .empty) := by
  refine ensures_bind.mpr ?_
  refine ensures_act (.handover (.submitLoad load id)) (add_zero _).symm (zero_add _).symm ?_
  intro refusal D hgiven
  cases refusal with
  | none =>
      cases hgiven
      rfl
  | some status =>
      obtain ⟨hstatus, rfl⟩ := hgiven
      have hspoiled : Fill.ofResult (some status) = .spoiled := if_neg hstatus
      rw [add_zero, ← hspoiled]
      exact deliver_spec load ⟨.load id, status⟩

theorem waitFor_spec {pending : Prog n blockSize Nat} {status : Prog n blockSize Status}
    {W : Multiset (Token n blockSize)} {post : Status → Multiset (Token n blockSize) → Prop}
    (hpending : Ensures Rule context pending (fun count Q =>
      if count = 0 then Ensures Rule context status post Q else Q = W) W)
    (hstopped : Ensures Rule context (act .loadStopped : Prog n blockSize (Option Status))
      (fun reply Q => reply.elim (Q = W) (post · Q)) W) :
    Ensures Rule context (waitFor pending status) post W := by
  refine ensures_forever (fun Q => Q = W) rfl ?_
  rintro _ rfl
  refine hpending.seq fun count Q hcount => ?_
  split at hcount
  · rename_i hzero
    rw [if_pos hzero]
    exact hcount.seq fun _ _ hpost => hpost
  · rename_i hzero
    subst hcount
    rw [if_neg hzero]
    refine reapReady_spec.call (zero_add _).symm ?_
    rintro reaped _ rfl
    rw [zero_add]
    cases reaped with
    | true => rfl
    | false => exact hstopped

theorem wait_spec (purpose : Purpose n blockSize) (waiter : WaiterId) :
    Ensures Rule context (wait waiter : Prog n blockSize Status)
      (fun status Q => Q = if status = ok then purpose.done else purpose.failed)
      (purpose.waiting waiter) := by
  refine waitFor_spec ?_ ?_
  · refine ensures_last (.trade (.loadPending purpose waiter)) (zero_add _).symm
      (add_comm context _) ?_
    rintro pending _ rfl
    split
    · refine ensures_last (.trade (.waiterStatus purpose waiter)) (add_zero _).symm
        (zero_add _).symm ?_
      rintro status _ rfl
      exact add_zero _
    · exact zero_add _
  · refine ensures_last (.trade (.loadStopped purpose waiter)) (add_zero _).symm
      (zero_add _).symm ?_
    intro reply D hgiven
    rw [add_zero]
    cases reply with
    | none => exact hgiven
    | some status =>
        obtain ⟨hstatus, rfl⟩ := hgiven
        exact (if_neg hstatus).symm

theorem submitAndWait_spec (purpose : Purpose n blockSize)
    (operation : DiskOperation n blockSize) (tag : BufferTag) (hcounts : purpose.Counts 1)
    (hasks : ∀ waiter, purpose.Asks waiter ⟨.waiter waiter, operation, tag⟩) :
    Ensures Rule context (submitAndWait operation tag)
      (fun status Q => Q = if status = ok then purpose.done else purpose.failed)
      purpose.ready := by
  refine ensures_act (.trade (.newWaiter purpose 1 hcounts)) (add_zero _).symm
    (zero_add _).symm ?_
  rintro waiter _ rfl
  refine (submitOne_spec purpose waiter _ (hasks waiter) rfl).callLent
    (by rw [add_zero, add_comm]; rfl) ?_
  rintro _ _ rfl
  rw [zero_add]
  exact wait_spec purpose waiter

end TelePath
