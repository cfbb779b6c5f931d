import TelePath.Invariant.Backend

/-!
Snapshots and the writes that carry them.  A writeback knows where in the run its snapshot
was taken, and no other one of the page is taken until it has ended.
-/

namespace TelePath

open FrameControl

variable {n blockSize : Nat}

def LastSnapshot (events : Events n blockSize) (tag : BufferTag) (taken : Nat) : Prop :=
  ∀ position event, taken < position → At events position event → ¬event.snaps tag

theorem LastSnapshot.cons {events : Events n blockSize} {tag : BufferTag} {taken : Nat}
    (h : LastSnapshot events tag taken) {event : Event n blockSize} (hevent : ¬event.snaps tag) :
    LastSnapshot (event :: events) tag taken := by
  intro position later hlt hat
  rcases hat.of_cons with hat | ⟨-, rfl⟩
  · exact h position later hlt hat
  · exact hevent

def SentInOrder (events : Events n blockSize) (position : Nat) (request : DiskRequest n blockSize) :
    Prop :=
  ∀ page, request.operation = .write page → ∃ frame taken, taken < position ∧
    At events taken (.snapshot frame request.tag page) ∧
      ∀ between event, taken < between → between < position → At events between event →
        ¬event.snaps request.tag

theorem SentInOrder.cons {events : Events n blockSize} {position : Nat}
    {request : DiskRequest n blockSize} (h : SentInOrder events position request)
    (hlt : position ≤ events.length) (event : Event n blockSize) :
    SentInOrder (event :: events) position request := by
  intro page hwrite
  obtain ⟨frame, taken, htaken, hat, hlast⟩ := h page hwrite
  refine ⟨frame, taken, htaken, hat.cons event, fun between later hafter hbefore hbetween => ?_⟩
  rcases hbetween.of_cons with hbetween | ⟨heq, -⟩
  · exact hlast between later hafter hbefore hbetween
  · omega

/-- The invariant, with `owned` all tokens there are. -/
structure Snapshots (events : Events n blockSize) (owned : Multiset (Token n blockSize)) :
    Prop where
  copied : ∀ frame stage tag page, .writeback frame stage ∈ owned →
    stage.snapshot? = some (tag, page) → ∃ taken,
      At events taken (.snapshot frame tag page) ∧ LastSnapshot events tag taken
  ordered : ∀ position request frames, At events position (.submitted request frames) →
    SentInOrder events position request

/-- What a step may do to snapshots.  Its thread gives up `used` for `given`. -/
structure Snaps (event : Event n blockSize) (used given : Multiset (Token n blockSize)) :
    Prop where
  named : ∀ tag, event.snaps tag → ∃ frame latch, .writeback frame (.named latch tag) ∈ used
  kept : ∀ frame stage tag page, .writeback frame stage ∈ given →
    stage.snapshot? = some (tag, page) → event = .snapshot frame tag page ∨
      ∃ old, .writeback frame old ∈ used ∧ old.snapshot? = some (tag, page)

namespace Snapshots

variable {events : Events n blockSize} {shared : Shared n blockSize}
  {event : Event n blockSize} {used given rest : Multiset (Token n blockSize)}

theorem undisturbed [Fact (n ≤ 2 ^ 31)]
    (hcontrol : Control shared (used + rest)) (hsnaps : Snaps event used given)
    {frame : Fin n} {stage : WritebackStage blockSize} {tag : BufferTag} {page : Page blockSize}
    (hmem : .writeback frame stage ∈ used + rest) (hstage : stage.snapshot? = some (tag, page)) :
    ¬event.snaps tag := by
  intro hevent
  obtain ⟨other, latch, hnamed⟩ := hsnaps.named tag hevent
  obtain ⟨-, rfl⟩ := hcontrol.writeback_of_tag (Multiset.mem_add.mpr (.inl hnamed)) hmem rfl
    (WritebackStage.tag?_of_snapshot? hstage)
  cases hstage

theorem step [Fact (n ≤ 2 ^ 31)]
    (h : Snapshots events (used + rest)) (hcontrol : Control shared (used + rest))
    (hsnaps : Snaps event used given)
    (hsubmitted : ∀ request frames, event = .submitted request frames →
      ∀ page, request.operation = .write page → ∃ frame stage,
        .writeback frame stage ∈ used + rest ∧ stage.snapshot? = some (request.tag, page)) :
    Snapshots (event :: events) (given + rest) := by
  have hold : ∀ frame stage tag page, .writeback frame stage ∈ used + rest →
      stage.snapshot? = some (tag, page) → ∃ taken,
        At (event :: events) taken (.snapshot frame tag page) ∧
          LastSnapshot (event :: events) tag taken := by
    intro frame stage tag page hmem hstage
    obtain ⟨taken, hat, hlast⟩ := h.copied frame stage tag page hmem hstage
    exact ⟨taken, hat.cons event, hlast.cons (undisturbed hcontrol hsnaps hmem hstage)⟩
  refine ⟨fun frame stage tag page hmem hstage => ?_, fun position request frames hat => ?_⟩
  · rcases Multiset.mem_add.mp hmem with hgiven | hrest
    · rcases hsnaps.kept frame stage tag page hgiven hstage with rfl | ⟨old, hused, hstage⟩
      · refine ⟨events.length, At.head _ _, fun position later hlt hat => ?_⟩
        exact absurd hat.lt (by simp; omega)
      · exact hold frame old tag page (Multiset.mem_add.mpr (.inl hused)) hstage
    · exact hold frame stage tag page (mem_rest hrest) hstage
  · rcases hat.of_cons with hat | ⟨rfl, heq⟩
    · exact (h.ordered position request frames hat).cons hat.lt.le event
    · intro page hwrite
      obtain ⟨frame, stage, hmem, hstage⟩ := hsubmitted request frames heq.symm page hwrite
      obtain ⟨taken, hat, hlast⟩ := h.copied frame stage request.tag page hmem hstage
      refine ⟨frame, taken, hat.lt, hat.cons event, fun between later hafter hbefore hbetween => ?_⟩
      rcases hbetween.of_cons with hbetween | ⟨rfl, -⟩
      · exact hlast between later hafter hbetween
      · exact absurd hbefore (by omega)

theorem quiet [Fact (n ≤ 2 ^ 31)]
    {all all' : Multiset (Token n blockSize)} (h : Snapshots events all)
    (hcontrol : Control shared all) (hevent : ∀ tag, ¬event.snaps tag)
    (hsubmitted : ∀ request frames, event ≠ .submitted request frames)
    (hkept : ∀ frame stage, .writeback frame stage ∈ all' → .writeback frame stage ∈ all) :
    Snapshots (event :: events) all' := by
  rw [← add_zero all] at h hcontrol
  rw [← add_zero all']
  refine h.step hcontrol ⟨fun tag hsnaps => absurd hsnaps (hevent tag), ?_⟩
    fun request frames heq => absurd heq (hsubmitted request frames)
  exact fun frame stage _ _ hmem hstage => .inr ⟨stage, hkept frame stage hmem, hstage⟩

end Snapshots

section Exec

variable {events : Events n blockSize} {shared shared' : Shared n blockSize}
  {action : Action n blockSize} {seen used others D : Multiset (Token n blockSize)}
  {given : Reply action → Multiset (Token n blockSize) → Prop} {choice : Choice n}
  {reply : Reply action}

theorem observe_submitted {request : DiskRequest n blockSize} {frames : List (Fin n)}
    (h : observe shared action reply = .submitted request frames) :
    action = .submitRequest request ∧ HEq reply (none : Option Status) := by
  cases action with
  | submitRequest other =>
      simp only [observe] at h
      split at h
      · rename_i hnone
        cases h
        exact ⟨rfl, heq_of_eq hnone⟩
      · cases h
  | popFree | reap => cases reply <;> cases h
  | acquireShared frame handle | lowerRecLsn frame lsn handle => cases handle <;> cases h
  | tryPinResident | tryReserve | tryDiscardPinned | tryAcquireShared | tryQueueWriteback
  | preWriteHook =>
      simp only [observe] at h
      split at h <;> cases h
  | _ => cases h

theorem observe_snaps {tag : BufferTag} (h : (observe shared action reply).snaps tag) :
    ∃ frame, action = .copyFrame frame ∧ (shared.descriptors frame).tag = tag := by
  cases action with
  | copyFrame frame => exact ⟨frame, rfl, h⟩
  | popFree | reap => cases reply <;> cases h
  | acquireShared frame handle | lowerRecLsn frame lsn handle => cases handle <;> cases h
  | tryPinResident | tryReserve | tryDiscardPinned | tryAcquireShared | tryQueueWriteback
  | preWriteHook | submitRequest =>
      simp only [observe] at h
      split at h <;> cases h
  | _ => cases h

theorem Trade.kept_snapshot (htrade : Trade action seen used given)
    (hcontrol : Control shared (used + (seen + others)))
    (hexec : exec shared choice action = some (reply, shared')) (hgiven : given reply D)
    {frame : Fin n} {stage : WritebackStage blockSize} {tag : BufferTag} {page : Page blockSize}
    (hmem : .writeback frame stage ∈ D) (hstage : stage.snapshot? = some (tag, page)) :
    observe shared action reply = .snapshot frame tag page ∨
      ∃ old, .writeback frame old ∈ used ∧ old.snapshot? = some (tag, page) := by
  cases htrade with
  | silent | takeLoad => simp [hgiven] at hmem
  | takeSnapshot other latch known =>
      subst hgiven
      have htag : (shared.descriptors other).tag = known := hcontrol.holds _ mem_own known rfl
      rcases Multiset.mem_add.mp hmem with hmem | hmem
      · cases Multiset.mem_singleton.mp hmem
        cases hstage
        rw [← htag]
        exact .inl rfl
      · cases latch <;> cases Multiset.mem_singleton.mp hmem
  | beginWriteback other known copy =>
      subst hgiven
      cases Multiset.mem_singleton.mp hmem
      exact .inr ⟨_, Multiset.mem_singleton_self _, hstage⟩
  | newWaiter purpose pending hcounts =>
      subst hgiven
      rcases Multiset.mem_add.mp hmem with hmem | hmem
      · cases purpose <;> cases Multiset.mem_singleton.mp hmem
        exact .inr ⟨_, Multiset.mem_singleton_self _, hstage⟩
      · cases Multiset.eq_of_mem_replicate hmem
  | waiterStatus purpose waiter =>
      subst hgiven
      cases purpose with
      | sync => split at hmem <;> cases hmem
      | fill other known => split at hmem <;> cases Multiset.mem_singleton.mp hmem
      | write other known copy =>
          split at hmem <;> cases Multiset.mem_singleton.mp hmem
          · exact .inr ⟨_, mem_rest (Multiset.mem_singleton_self _), hstage⟩
          · cases hstage
  | loadStopped purpose waiter =>
      cases reply with
      | none =>
          cases hgiven
          exact .inr ⟨stage, hmem, hstage⟩
      | some status =>
          obtain ⟨-, rfl⟩ := hgiven
          cases purpose with
          | sync => cases hmem
          | fill => cases Multiset.mem_singleton.mp hmem
          | write =>
              cases Multiset.mem_singleton.mp hmem
              cases hstage
  | reservePopped other =>
      have hnone := hgiven.2
      split at hnone
      · cases Multiset.mem_singleton.mp (hnone.2 ▸ hmem)
      · cases Multiset.mem_singleton.mp (hnone ▸ hmem)
  | reserveVictim other =>
      split at hgiven
      · cases Multiset.mem_singleton.mp (hgiven.2 ▸ hmem)
      · simp [hgiven] at hmem
  | popFree =>
      subst hgiven
      cases reply <;> simp at hmem
  | queueWriteback =>
      subst hgiven
      split at hmem <;> simp at hmem
      cases hmem.2 ▸ hstage
  | tryPinResident | tryAcquireShared | loadPending | publish | discard =>
      subst hgiven
      split at hmem <;> simp at hmem
  | nameSnapshot =>
      subst hgiven
      cases Multiset.mem_singleton.mp hmem
      cases hstage
  | _ =>
      subst hgiven
      simp at hmem

theorem Snapshots.trade [Fact (n ≤ 2 ^ 31)] (htrade : Trade action seen used given)
    (hcontrol : Control shared (used + (seen + others)))
    (h : Snapshots events (used + (seen + others)))
    (hexec : exec shared choice action = some (reply, shared')) (hgiven : given reply D) :
    Snapshots (observe shared action reply :: events) (D + (seen + others)) := by
  refine h.step hcontrol ⟨fun tag hsnaps => ?_, fun frame stage tag page =>
    htrade.kept_snapshot hcontrol hexec hgiven⟩ fun request frames hevent => ?_
  · obtain ⟨frame, rfl, htag⟩ := observe_snaps hsnaps
    cases htrade with
    | silent hsilent => cases hsilent
    | takeSnapshot frame latch known =>
        obtain rfl : known = tag := (hcontrol.holds _ mem_own known rfl).symm.trans htag
        exact ⟨frame, latch, Multiset.mem_singleton_self _⟩
  · obtain ⟨rfl, -⟩ := observe_submitted hevent
    cases htrade with
    | silent hsilent => cases hsilent

theorem Handover.submits {request : DiskRequest n blockSize}
    {given : Reply (.submitRequest request) → Multiset (Token n blockSize) → Prop}
    (hhandover : Handover (.submitRequest request) seen used given) {page : Page blockSize}
    (hwrite : request.operation = .write page) :
    ∃ frame stage, .writeback frame stage ∈ used + seen ∧
      stage.snapshot? = some (request.tag, page) := by
  cases hhandover with
  | submit purpose waiter request hasks =>
      cases purpose with
      | fill frame tag =>
          subst hasks
          cases hwrite
      | write frame tag copy =>
          subst hasks
          cases hwrite
          exact ⟨frame, .writing tag page waiter, mem_rest (Multiset.mem_singleton_self _), rfl⟩
      | sync => cases hasks.2.symm.trans hwrite
  | submitLoad load id => cases hwrite

theorem Snapshots.handover [Fact (n ≤ 2 ^ 31)] (hhandover : Handover action seen used given)
    {before after : Multiset (Token n blockSize)}
    (hmoved : Moved shared shared' before after)
    (hbefore : ∀ token ∈ used + seen, token ∈ before)
    (hcontrol : Control shared before) (h : Snapshots events before) :
    Snapshots (observe shared action reply :: events) after := by
  rw [← add_zero before] at hcontrol h
  rw [← add_zero after]
  refine h.step hcontrol ⟨fun tag hsnaps => ?_, fun frame stage tag page hmem hstage => ?_⟩
    fun request frames hevent page hwrite => ?_
  · obtain ⟨frame, rfl, -⟩ := observe_snaps hsnaps
    cases hhandover
  · have hold := (hmoved.idle _ hmem).resolve_right fun hidle => hidle.writeback frame stage rfl
    exact .inr ⟨stage, hold, hstage⟩
  · obtain ⟨rfl, -⟩ := observe_submitted hevent
    obtain ⟨frame, stage, hmem, hstage⟩ := hhandover.submits hwrite
    exact ⟨frame, stage, Multiset.mem_add.mpr (.inl (hbefore _ hmem)), hstage⟩

end Exec

theorem Snapshots.complete [Fact (n ≤ 2 ^ 31)]
    {events : Events n blockSize} {shared : Shared n blockSize}
    {request : DiskRequest n blockSize} {status : Status} {rest : Multiset (Token n blockSize)}
    (hcontrol : Control shared (shared.parkedBy none request.token + rest))
    (h : Snapshots events (shared.parkedBy none request.token + rest)) :
    Snapshots (.completed request status :: events)
      (shared.parkedBy (some status) request.token + rest) := by
  refine h.quiet hcontrol (fun _ => id) nofun fun frame stage hmem => ?_
  rcases Multiset.mem_add.mp hmem with hgiven | hrest
  · rcases mem_parkedBy hgiven with ⟨_, _, hfalse⟩ | ⟨_, _, _, _, hfalse⟩ | ⟨_, _, hfalse⟩ |
      ⟨_, _, hfalse⟩ <;> cases hfalse
  · exact mem_rest hrest

end TelePath
