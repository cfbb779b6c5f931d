import TelePath.Invariant.Snapshots

/-!
All that is known of the shared state, put together.  `Books` ranges over every token there
is; `Accounted` leaves those that are parked or deposited to the state itself, so that it can
be asked of what the threads own.
-/

namespace TelePath

open FrameControl Logic

variable {n blockSize : Nat}

/-- The invariant, with `all` every token there is. -/
structure Books (start : BufferTag → Page blockSize) (events : Events n blockSize)
    (shared : Shared n blockSize) (all : Multiset (Token n blockSize)) : Prop where
  control : Control shared all
  operations : Operations shared all
  requests : Requests shared all
  marked : Marked shared.pages all
  snapshots : [Fact (n ≤ 2 ^ 31)] → Snapshots events all
  calm : [Fact (n ≤ 2 ^ 31)] → Undisturbed events → shared.stopped = false ∧
    Data (content start events) (unwrittenZero events) shared.pages all ∧
      Landed (Purpose.Done shared.pages) shared all

/-- The invariant, with `owned` what the threads own. -/
def Accounted (start : BufferTag → Page blockSize) (events : Events n blockSize)
    (shared : Shared n blockSize) (owned : Multiset (Token n blockSize)) : Prop :=
  (∀ token ∈ owned, token.isDeposited = false) ∧
    ∃ deposit, (∀ token ∈ deposit, token.isDeposited = true) ∧
      Books start events shared (owned + shared.parked + deposit)

section Trade

variable {start : BufferTag → Page blockSize} {events : Events n blockSize}
  {shared shared' : Shared n blockSize} {action : Action n blockSize}
  {seen used others D : Multiset (Token n blockSize)}
  {given : Reply action → Multiset (Token n blockSize) → Prop} {choice : Choice n}
  {reply : Reply action}

theorem reply_reservePopped {frame : Fin n} {reply : ReserveOutcome × Word}
    {rest : Multiset (Token n blockSize)}
    (hcontrol : Control shared ({.free frame .unlinked} + rest))
    (hexec : exec shared choice (.tryReserve frame true) = some (reply, shared')) :
    reply.1 ≠ .needsFlush ∧ (reply.1 = .reserved → isResident reply.2 = false) := by
  have hstate : state (shared.word frame) = .free := hcontrol.state_of_free mem_own
  have hresident : isResident (shared.word frame) = false := by
    simp [isResident, hstate]
  obtain ⟨rfl, -⟩ := Shared.updateWord_eq hexec
  simp only [tryReserve, hstate, hresident]
  split
  · simp
  · simp only [Bool.not_true, Bool.false_eq_true, and_false, if_false, Bool.false_and]
    split <;> simp [hresident]

theorem reply_reserveVictim {frame : Fin n} {reply : ReserveOutcome × Word}
    {rest : Multiset (Token n blockSize)} (hcontrol : Control shared rest)
    (hexec : exec shared choice (.tryReserve frame false) = some (reply, shared'))
    (hreserved : reply.1 = .reserved) : isResident reply.2 = true := by
  obtain ⟨rfl, -⟩ := Shared.updateWord_eq hexec
  rcases hreserve : tryReserve false (shared.word frame) with ⟨⟨outcome, observed⟩, next⟩
  rw [hreserve] at hreserved
  obtain rfl : outcome = .reserved := hreserved
  obtain ⟨rfl, hfree, hloading, -⟩ := tryReserve_reserved hreserve
  rw [isResident_iff]
  have hvalid := (hcontrol.counts frame).valid
  cases hstate : (fields (shared.word frame)).state with
  | resident => rfl
  | free => exact absurd (hfree hstate) (by decide)
  | loading => exact absurd hstate hloading
  | invalid => exact absurd hstate hvalid

theorem Trade.exists_given (htrade : Trade action seen used given)
    (hcontrol : Control shared (used + (seen + others)))
    (hrequests : Requests shared (used + (seen + others)))
    (hexec : exec shared choice action = some (reply, shared')) : ∃ D, given reply D := by
  cases htrade with
  | reservePopped frame =>
      obtain ⟨hclean, hresident⟩ := reply_reservePopped hcontrol hexec
      by_cases hreserved : reply.1 = .reserved
      · exact ⟨_, hclean, by rw [if_pos hreserved]; exact ⟨hresident hreserved, rfl⟩⟩
      · exact ⟨_, hclean, by rw [if_neg hreserved]⟩
  | reserveVictim frame =>
      by_cases hreserved : reply.1 = .reserved
      · refine ⟨{.loading frame .claimed}, ?_⟩
        simp only [if_pos hreserved, and_true]
        exact reply_reserveVictim hcontrol hexec hreserved
      · refine ⟨0, ?_⟩
        simp only [if_neg hreserved]
  | loadStopped purpose waiter =>
      cases hexec
      cases hstopped : shared.stopped with
      | false => exact ⟨_, rfl⟩
      | true => exact ⟨_, hrequests.refused, rfl⟩
  | takeLoad id load =>
      cases hexec
      exact ⟨0, (hrequests.load id load (by simp)).2.1, rfl⟩
  | _ => exact ⟨_, rfl⟩

theorem Trade.undeposited (htrade : Trade action seen used given) (hgiven : given reply D) :
    ∀ token ∈ D, token.isDeposited = false :=
  fun _ hmem => (htrade.about hgiven _ (mem_rest hmem)).undeposited

theorem Trade.parked (htrade : Trade action seen used given)
    (hexec : exec shared choice action = some (reply, shared')) :
    shared'.parked = shared.parked := by
  cases htrade with
  | silent hsilent =>
      have hagrees := exec_silent hsilent hexec
      exact Shared.parked_congr hagrees.inFlight hagrees.completions hagrees.loads
        hagrees.foregroundQueue hagrees.backgroundQueue
  | newWaiter | completeWaiter =>
      cases hexec
      rfl
  | _ =>
      have hsame := (exec_keeps hexec).requests rfl
      exact Shared.parked_congr hsame.inFlight hsame.completions hsame.loads
        hsame.foregroundQueue hsame.backgroundQueue

theorem Books.trade (htrade : Trade action seen used given)
    (h : Books start events shared (used + (seen + others)))
    (hexec : exec shared choice action = some (reply, shared')) (hgiven : given reply D) :
    Books start (observe shared action reply :: events) shared' (D + (seen + others)) where
  control := h.control.trade htrade hexec hgiven
  operations := h.operations.trade htrade hexec hgiven
  requests := h.requests.trade htrade hexec hgiven
  marked := h.marked.trade htrade h.control hexec hgiven
  snapshots := h.snapshots.trade htrade h.control hexec hgiven
  calm hcalm := by
    obtain ⟨hrunning, hdata, hlanded⟩ := h.calm hcalm.tail
    refine ⟨?_, hdata.trade htrade h.control h.marked h.requests hlanded hcalm hexec hgiven,
      hlanded.trade htrade h.requests hexec hgiven trivial
        (htrade.keepsDone h.control hexec)⟩
    rw [(exec_keeps hexec).stopped, hrunning]

theorem Books.handover {before after : Multiset (Token n blockSize)}
    (hhandover : Handover action seen used given) (hmoved : Moved shared shared' before after)
    (hbefore : ∀ token ∈ used + seen + shared.parked, token ∈ before)
    (hafter : ∀ token ∈ shared'.parked, token ∈ after)
    (h : Books start events shared before)
    (hexec : exec shared choice action = some (reply, shared')) :
    Books start (observe shared action reply :: events) shared' after := by
  have hsnapshots [Fact (n ≤ 2 ^ 31)] : Snapshots (observe shared action reply :: events) after :=
    h.snapshots.handover hhandover hmoved
      (fun token hmem => hbefore token (Multiset.mem_add.mpr (.inl hmem))) h.control
  have hquiet : action.movesBytes = false := by cases hhandover <;> rfl
  refine ⟨h.control.moved hmoved, h.operations.moved hmoved, h.requests.moved hmoved ?_ hafter,
    h.marked.moved hmoved, hsnapshots, fun hcalm => ?_⟩
  · exact fun token hmem => hbefore token (mem_rest hmem)
  · obtain ⟨hrunning, hdata, hlanded⟩ := h.calm hcalm.tail
    refine ⟨by rw [(exec_keeps hexec).stopped, hrunning], ?_, ?_⟩
    · rw [content_cons (observe_movesBytes hquiet shared reply),
        unwrittenZero_cons (observe_movesBytes hquiet shared reply)]
      exact hdata.moved hmoved
    · rw [hmoved.pages]
      exact hlanded.moved hmoved fun _ _ _ _ _ hdone => hdone

end Trade

section Step

variable {start : BufferTag → Page blockSize} {events : Events n blockSize}
  {shared shared' : Shared n blockSize} {all rest : Multiset (Token n blockSize)}

theorem Books.idle (h : Books start events shared all) {event : Event n blockSize}
    (hsnaps : ∀ tag, ¬event.snaps tag) (hbytes : event.movesBytes = false)
    (hsubmitted : ∀ request frames, event ≠ .submitted request frames)
    (hcontrol : Control shared' all) (hsame : shared'.pages = shared.pages)
    (hrequests : shared.SameRequests shared')
    (hoperations : shared'.operations = shared.operations) :
    Books start (event :: events) shared' all := by
  refine ⟨hcontrol, h.operations.agree hoperations hrequests.nextId, h.requests.agree hrequests,
    hsame ▸ h.marked, h.snapshots.quiet h.control hsnaps hsubmitted fun _ _ hmem => hmem,
    fun hcalm => ?_⟩
  obtain ⟨hrunning, hdata, hlanded⟩ := h.calm hcalm.tail
  rw [content_cons hbytes, unwrittenZero_cons hbytes, hsame, hrequests.stopped]
  exact ⟨hrunning, hdata, hlanded.mono hrequests.waiters (fun _ hmem _ => hmem)
    (fun _ hmem => hmem) fun _ _ _ _ _ hdone => hdone⟩

theorem Books.park (h : Books start events shared all) (frame : Fin n) :
    Books start (.parked frame :: events)
      (shared.setWord frame (shared.word frame ||| kWaiters)) all := by
  have hfields := fields_or_waiters (shared.word frame)
  have hcounts := h.control.counts frame
  have hcontrol : Control (shared.setWord frame (shared.word frame ||| kWaiters)) (0 + all) := by
    have hall : Control shared (0 + all) := by rw [zero_add]; exact h.control
    refine hall.setWord_sameState (by rw [hfields]) ?_ (fun _ _ _ => rfl) (by simp)
    rw [hfields, zero_add]
    exact hcounts.repin hcounts.pins hcounts.pinned fun _ _ => rfl
  refine h.idle (fun _ => id) rfl nofun (by rwa [zero_add] at hcontrol) ?_ ?_ rfl
  · exact shared.pages_setWord_same frame (by rw [hfields]; rfl)
  · exact ⟨rfl, rfl, rfl, rfl, rfl, rfl, rfl, rfl, Nat.le_refl _⟩

theorem Books.stop (h : Books start events shared all) (error : Error) :
    Books start (.stopped :: events) (shared.stopEngine error) all where
  control := h.control.elsewhere rfl rfl rfl rfl
  operations := h.operations.agree rfl (Nat.le_refl _)
  requests := { h.requests with claimed := nofun, refused := nofun }
  marked := h.marked
  snapshots := h.snapshots.quiet h.control (fun _ => id) nofun fun _ _ hmem => hmem
  calm := False.elim

theorem Books.complete {index : Nat} {request : DiskRequest n blockSize} {status : Status}
    {left : Fin n → Page blockSize}
    (h : Books start events shared (shared.parkedBy none request.token + rest))
    (hmem : request ∈ shared.inFlight)
    (hafter : ∀ token ∈ (shared.complete index request status left).parked,
      token ∈ shared.parkedBy (some status) request.token + rest) :
    Books start (.completed request status :: events)
      (shared.complete index request status left)
      (shared.parkedBy (some status) request.token + rest) := by
  refine ⟨h.control.complete, h.operations.complete, h.requests.complete hafter,
    h.marked.complete, h.snapshots.complete h.control, fun hcalm => ?_⟩
  obtain ⟨hrunning, hdata, hlanded⟩ := h.calm hcalm
  refine ⟨?_, hdata.completeRequest h.control h.marked h.requests hrunning hmem,
    hlanded.complete h.control h.requests hrunning hmem⟩
  rw [shared.complete_eq]
  exact hrunning

end Step

section Initial

variable (files : FileId → BackingFile) (segment cleaner : Bool)
  (strategies : StrategyId → BufferAccessStrategyType × Nat)

theorem fields_initial (frame : Fin n) :
    fields ((.initial files segment cleaner strategies : Shared n blockSize).word frame) =
      ⟨.free, false, false, false, false, false, false, 0, false, 0⟩ := by
  have hword : (.initial files segment cleaner strategies : Shared n blockSize).word frame = 0#32 :=
    rfl
  rw [hword]
  decide

theorem control_initial :
    Control (.initial files segment cleaner strategies : Shared n blockSize) 0 := by
  refine ⟨fun frame => ?_, by simp, fun frame hresident => ?_, fun _ _ _ => PageTable.tagOf_empty _,
    ?_⟩
  · rw [fields_initial]
    exact {
      valid := by decide
      pins := rfl
      shared := rfl
      exclusive := rfl
      latch := by simp
      loading := rfl
      free := by simp [Shared.initial, Shared.count_seedFreeFrames]
      pinned := by simp
      readers := rfl
      writers := rfl
      queued := rfl
      active := rfl
      single := by simp
      writing := by simp [ControlFields.writeback]
      clean := by simp }
  · rw [fields_initial] at hresident
    cases hresident
  · intro _ frame _ htag
    cases (PageTable.tagOf_empty frame).symm.trans htag

theorem books_initial :
    Books (.initial files segment cleaner strategies : Shared n blockSize).diskPage []
    (.initial files segment cleaner strategies : Shared n blockSize) 0 where
  control := control_initial files segment cleaner strategies
  operations := ⟨by simp, by simp, by simp, by simp⟩
  requests := by
    constructor <;> simp [Shared.initial, ok]
  marked := by simp [Marked]
  snapshots := ⟨by simp, by simp [At]⟩
  calm _ := by
    refine ⟨rfl, ⟨fun _ => .inl rfl, fun frame hresident => ?_, by simp⟩, by simp [Landed]⟩
    have hstate := congrArg ControlFields.state
      (@fields_initial n blockSize files segment cleaner strategies frame)
    exact absurd (hstate.symm.trans hresident) (by decide)

end Initial

/-- The steps of a program, as the rules see them. -/
def Performs (state : Events n blockSize × Shared n blockSize) (action : Action n blockSize)
    (reply : Reply action) (state' : Events n blockSize × Shared n blockSize) : Prop :=
  ∃ choice, exec state.2 choice action = some (reply, state'.2) ∧
    state'.1 = observe state.2 action reply :: state.1

theorem rulesSound (start : BufferTag → Page blockSize) :
    RulesSound (@Performs n blockSize)
      (fun state => Accounted start state.1 state.2) Rule := by
  rintro action seen used given hrule ⟨events, shared⟩ others reply ⟨events', shared'⟩
    ⟨howned, deposit, hdeposit, hbooks⟩ ⟨choice, hexec, rfl⟩
  cases hrule with
  | trade htrade =>
      have hregroup : ∀ X : Multiset (Token n blockSize),
          X + (seen + others) + shared.parked + deposit =
            X + (seen + (others + shared.parked + deposit)) := fun X => by
        simp only [add_assoc]
      rw [hregroup] at hbooks
      obtain ⟨D, hgiven⟩ := htrade.exists_given hbooks.control hbooks.requests hexec
      refine ⟨D, hgiven, fun token hmem => ?_, deposit, hdeposit, ?_⟩
      · rcases Multiset.mem_add.mp hmem with hnew | hold
        · exact htrade.undeposited hgiven token hnew
        · exact howned token (mem_rest hold)
      · rw [htrade.parked hexec, hregroup]
        exact hbooks.trade htrade hexec hgiven
  | handover hhandover =>
      obtain ⟨D, deposit', hgiven, hD, hdeposit', hmoved⟩ :=
        hhandover.moved hbooks.requests hbooks.operations howned hdeposit hexec
      refine ⟨D, hgiven, fun token hmem => ?_, deposit', hdeposit', ?_⟩
      · rcases Multiset.mem_add.mp hmem with hnew | hold
        · exact hD token hnew
        · exact howned token (mem_rest hold)
      · refine hbooks.handover hhandover hmoved (fun token hmem => ?_) (fun token hmem => ?_) hexec
        · simp only [Multiset.mem_add] at hmem ⊢
          tauto
        · simp only [Multiset.mem_add]
          tauto

end TelePath
