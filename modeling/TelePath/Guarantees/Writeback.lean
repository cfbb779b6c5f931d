import TelePath.Adequacy
import TelePath.Schedule

/-!
Writing pages back: one writer per page, in the order of its snapshots.
-/

namespace TelePath

open FrameControl Logic

variable {n blockSize threads : Nat}

section Run

variable {options : Options} {start system : System n blockSize threads}
  {trace : Trace n blockSize threads}

theorem Run.not_stopped (hinitial : Initial start) (hrun : Run options start trace system)
    (hreap : .stopped ∉ trace.events) : system.shared.stopped = false := by
  have hstart : start.shared.stopped = false := by
    obtain ⟨files, segment, cleaner, strategies, hshared⟩ := hinitial.shared
    rw [hshared]
    rfl
  obtain ⟨-, -, hrunning⟩ := hrun.accounted hinitial
    (fun trace shared _ => .stopped ∉ trace.events → shared.stopped = false) (fun _ => hstart)
    fun trace shared shares entry shared' shares' _ _ hbefore hmove hevents => by
      have hrunning := hbefore fun hmem => hevents (List.mem_cons_of_mem _ hmem)
      cases hmove with
      | act rule share gives enabled => exact (exec_keeps enabled).stopped.trans hrunning
      | idle | park => exact hrunning
      | @complete index request inFlight status left =>
          rw [shared.complete_eq]
          exact hrunning
      | stop error => exact absurd (List.mem_cons_self ..) hevents
  exact hrunning hreap

end Run

/-- No two writes of one page are with the backend. -/
def Shared.SingleWriter (shared : Shared n blockSize) : Prop :=
  ∀ (first second : Nat) (request request' : DiskRequest n blockSize)
    (page page' : Page blockSize), shared.inFlight[first]? = some request →
      shared.inFlight[second]? = some request' → request.operation = .write page →
        request'.operation = .write page' → request.tag = request'.tag → first = second

/-- Of two writes of a page the one submitted later carries the later snapshot; each
carries the latest there was when it was submitted. -/
def OrderedWriters (events : Events n blockSize) : Prop :=
  ∀ (position later : Nat) (request request' : DiskRequest n blockSize)
    (frames frames' : List (Fin n)) (page page' : Page blockSize), position < later →
      At events position (.submitted request frames) →
      At events later (.submitted request' frames') →
      request.operation = .write page → request'.operation = .write page' →
      request.tag = request'.tag →
        ∃ frame frame' taken taken', taken ≤ taken' ∧ taken < position ∧ taken' < later ∧
          At events taken (.snapshot frame request.tag page) ∧
          At events taken' (.snapshot frame' request.tag page') ∧
          (∀ between event, taken < between → between < position → At events between event →
            ¬event.snaps request.tag) ∧
          ∀ between event, taken' < between → between < later → At events between event →
            ¬event.snaps request.tag

def Event.isStopped : Event n blockSize → Bool
  | .stopped => true
  | _ => false

def Event.isSubmitted : Event n blockSize → Bool
  | .submitted _ _ => true
  | _ => false

section Single

variable {shared : Shared n blockSize} {owned deposit : Multiset (Token n blockSize)}
  {first second : Nat} {request request' : DiskRequest n blockSize}

theorem two_tickets {waiter : WaiterId} (hfirst : shared.inFlight[first]? = some request)
    (hsecond : shared.inFlight[second]? = some request') (hne : first ≠ second)
    (htoken : request.token = .waiter waiter) (htoken' : request'.token = .waiter waiter) :
    2 ≤ tally (Token.isTicket waiter) shared.parked := by
  -- were the first one completed, the second would still hold its ticket
  let after := shared.complete first request ok fun _ => zeroPage blockSize
  obtain ⟨core, hbefore, hafter⟩ := Shared.parked_complete hfirst ok fun _ => zeroPage blockSize
  have hmem : request' ∈ after.inFlight := List.mem_eraseIdx_iff_getElem?.mpr ⟨second, hne.symm, hsecond⟩
  have hticket : .ticket waiter none ∈ after.parked :=
    after.mem_parked_inFlight hmem (by rw [htoken']; exact Multiset.mem_singleton_self _)
  have hcore : .ticket waiter none ∈ core := by
    rw [show after.parked = _ from hafter, htoken] at hticket
    rcases Multiset.mem_add.mp hticket with hown | hcore
    · exact absurd (Multiset.mem_singleton.mp hown) (by simp [ok])
    · exact hcore
  have hone : 0 < tally (Token.isTicket waiter) core := tally_pos hcore (by simp)
  rw [hbefore, htoken, tally_add]
  have htwo : tally (Token.isTicket waiter) (shared.parkedBy none (.waiter waiter)) = 1 := by
    simp [Shared.parkedBy]
  omega

theorem Books.single_writer [Fact (n ≤ 2 ^ 31)]
    {bytes : BufferTag → Page blockSize} {events : Events n blockSize}
    (h : Books bytes events shared (owned + shared.parked + deposit))
    (hrunning : shared.stopped = false) {page page' : Page blockSize}
    (hfirst : shared.inFlight[first]? = some request)
    (hsecond : shared.inFlight[second]? = some request')
    (hwrite : request.operation = .write page) (hwrite' : request'.operation = .write page')
    (htag : request.tag = request'.tag) : first = second := by
  by_contra hne
  obtain ⟨frame, waiter, htoken, hwriting⟩ :=
    h.requests.writes hrunning (List.mem_of_getElem? hfirst) hwrite
  obtain ⟨frame', waiter', htoken', hwriting'⟩ :=
    h.requests.writes hrunning (List.mem_of_getElem? hsecond) hwrite'
  rw [← htag] at hwriting'
  obtain ⟨rfl, hstage⟩ := h.control.writeback_of_tag hwriting hwriting' rfl rfl
  cases hstage
  have htwo := two_tickets hfirst hsecond hne htoken htoken'
  obtain hsync | hone := h.requests.single _ hwriting waiter _ rfl
  · cases hsync
  · rw [tally_add, tally_add] at hone
    omega

end Single

section Run

variable {options : Options} {start system : System n blockSize threads}
  {trace : Trace n blockSize threads}

/-- The page that a request writes. -/
def DiskRequest.writes? (request : DiskRequest n blockSize) : Option BufferTag :=
  match request.operation with
  | .write _ => some request.tag
  | _ => none

theorem DiskRequest.of_writes {request : DiskRequest n blockSize} {tag : BufferTag}
    (h : request.writes? = some tag) :
    request.tag = tag ∧ ∃ page, request.operation = .write page := by
  rw [writes?] at h
  split at h
  · exact ⟨Option.some.inj h, _, ‹_›⟩
  · cases h

end Run

end TelePath
