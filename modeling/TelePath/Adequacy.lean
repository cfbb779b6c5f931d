import TelePath.Invariant.Accounts
import TelePath.Spec.Client

/-!
Every run of the system keeps the books: each thread owns its share, every step of a
program goes by a rule, and the invariant holds in every state that is reached.
-/

namespace TelePath

open FrameControl Logic Manager

variable {n blockSize threads : Nat} {R : Type} [AddCommMonoid R]

def Trace.events (trace : Trace n blockSize threads) : Events n blockSize := trace.map (·.event)

/-- The call a thread is in, and how far the run had come when it was invoked. -/
def Trace.current (id : Fin threads) : Trace n blockSize threads → Option (Nat × Call n blockSize)
  | [] => none
  | entry :: earlier =>
      match entry.event with
      | .invoked call =>
          if entry.thread = some id then some (earlier.length, call) else current id earlier
      | .returned _ _ => if entry.thread = some id then none else current id earlier
      | _ => current id earlier

/-- Events of steps that leave the shared state alone. -/
def Event.isIdle : Event n blockSize → Bool
  | .quiet | .invoked _ | .returned _ _ => true
  | _ => false

/-- Events of clients. -/
def Event.isCall : Event n blockSize → Bool
  | .invoked _ | .returned _ _ => true
  | _ => false

theorem Trace.current_cons {id : Fin threads} {entry : Entry n blockSize threads}
    (h : entry.thread ≠ some id ∨ entry.event.isCall = false) (trace : Trace n blockSize threads) :
    Trace.current id (entry :: trace) = trace.current id := by
  rcases h with hother | hevent
  · rw [Trace.current]
    split
    · rw [if_neg hother]
    · rw [if_neg hother]
    · rfl
  · rw [Trace.current]
    split
    · rename_i hcall
      rw [hcall] at hevent
      cases hevent
    · rename_i hcall
      rw [hcall] at hevent
      cases hevent
    · rfl

theorem observe_isCall (shared : Shared n blockSize) (action : Action n blockSize)
    (reply : Reply action) : (observe shared action reply).isCall = false := by
  cases action with
  | popFree => cases reply <;> rfl
  | tryPinResident frame => cases reply <;> rfl
  | tryReserve frame popped =>
      simp only [observe]
      split <;> rfl
  | tryDiscardPinned frame =>
      simp only [observe]
      split <;> rfl
  | tryAcquireShared frame => cases reply <;> rfl
  | acquireShared frame handle => cases handle <;> rfl
  | lowerRecLsn frame lsn handle => cases handle <;> rfl
  | tryQueueWriteback frame skip =>
      simp only [observe]
      split <;> rfl
  | preWriteHook tag page =>
      simp only [observe]
      split <;> rfl
  | submitRequest request =>
      simp only [observe]
      split <;> rfl
  | reap => cases reply <;> rfl
  | _ => rfl

/-- What threads own, by which rules they act, and what their calls come to. -/
structure Contract (n blockSize : Nat) (R : Type) [AddCommMonoid R] where
  rule : Rules (Action n blockSize) Reply R
  inv : Events n blockSize → Shared n blockSize → R → Prop
  /-- What a client owns between calls. -/
  owns : Client n → R → Prop
  /-- What the context of a running call holds on to. -/
  keeps : Client n → Call n blockSize → R → Prop
  /-- What a call that was invoked at a position comes to. -/
  post : Nat → Client n → Call n blockSize → Outcome n → R → Prop
  /-- How the share of a thread may change when it invokes a call or returns from one. -/
  same : R → R → Prop

namespace Contract

/-- The contract can be met: its rules are sound, and all programs go by them. -/
structure Valid (contract : Contract n blockSize R) (options : Options) : Prop where
  rules : RulesSound (@Performs n blockSize) (fun state => contract.inv state.1 state.2)
    contract.rule
  idle : ∀ events shared owned event, contract.inv events shared owned →
    event.isIdle = true → contract.inv (event :: events) shared owned
  park : ∀ events shared owned frame, contract.inv events shared owned →
    contract.inv (.parked frame :: events)
      (shared.setWord frame (shared.word frame ||| kWaiters)) owned
  complete : ∀ events shared owned index request status left, contract.inv events shared owned →
    shared.inFlight[index]? = some request →
      contract.inv (.completed request status :: events)
        (shared.complete index request status left) owned
  stop : ∀ events shared owned error, contract.inv events shared owned →
    contract.inv (.stopped :: events) (shared.stopEngine error) owned
  invoke : ∀ events shared client call program share others, contract.owns client share →
    callProgram options client call = some program →
      contract.inv events shared (share + others) →
        ∃ context P, contract.same share (P + context) ∧ contract.keeps client call context ∧
          contract.inv (.invoked call :: events) shared (P + context + others) ∧
            Ensures contract.rule context program
              (fun outcome Q => contract.post events.length client call outcome (Q + context)) P
  finish : ∀ events shared position client call outcome share others,
    contract.post position client call outcome share →
      contract.inv events shared (share + others) →
        ∃ share', contract.same share share' ∧
          contract.owns (client.finish call outcome) share' ∧
            contract.inv (.returned call outcome :: events) shared (share' + others)
  refl : ∀ share, contract.same share share
  fresh : contract.owns {} 0
  worker : ∀ batchSize burstLimit,
    Ensures contract.rule 0 (flushWorker batchSize burstLimit) (fun _ Q => Q = 0) 0
  cleaner : ∀ high low, Ensures contract.rule 0 (Manager.cleaner high low) (fun _ Q => Q = 0) 0
  reaper : Ensures contract.rule 0 Manager.reaper (fun _ Q => Q = 0) 0

variable (contract : Contract n blockSize R)

def Owns (trace : Trace n blockSize threads) (id : Fin threads) (thread : Thread n blockSize)
    (share : R) : Prop :=
  match thread.activity with
  | .idle => contract.owns thread.client share
  | .calling call rest => ∃ position context P, trace.current id = some (position, call) ∧
      share = P + context ∧ contract.keeps thread.client call context ∧
        Ensures contract.rule context rest
          (fun outcome Q => contract.post position thread.client call outcome (Q + context)) P
  | .background rest => Ensures contract.rule 0 rest (fun _ Q => Q = 0) share

/-- The shares of all threads account for the shared state. -/
structure Sound (trace : Trace n blockSize threads) (system : System n blockSize threads)
    (shares : Fin threads → R) : Prop where
  owns : ∀ id, contract.Owns trace id (system.thread id) (shares id)
  inv : contract.inv trace.events system.shared (∑ id, shares id)

/-- What a step does to the shared state and to the shares. -/
inductive Move (shared : Shared n blockSize) (shares : Fin threads → R) :
    Entry n blockSize threads → Shared n blockSize → (Fin threads → R) → Prop where
  | act {id : Fin threads} {action : Action n blockSize} {seen used rest D : R}
      {given : Reply action → R → Prop} {choice : Choice n} {reply : Reply action}
      {shared' : Shared n blockSize} (rule : contract.rule action seen used given)
      (share : shares id = used + (seen + rest)) (gives : given reply D)
      (enabled : exec shared choice action = some (reply, shared')) :
      Move shared shares ⟨id, observe shared action reply⟩ shared'
        (Function.update shares id (D + (seen + rest)))
  | idle {id : Fin threads} {event : Event n blockSize} {share : R}
      (quiet : event.isIdle = true) (same : contract.same (shares id) share) :
      Move shared shares ⟨id, event⟩ shared (Function.update shares id share)
  | park {id : Fin threads} (frame : Fin n) :
      Move shared shares ⟨id, .parked frame⟩
        (shared.setWord frame (shared.word frame ||| kWaiters)) shares
  | complete {index : Nat} {request : DiskRequest n blockSize}
      (inFlight : shared.inFlight[index]? = some request) (status : Status)
      (left : Fin n → Page blockSize) :
      Move shared shares ⟨none, .completed request status⟩
        (shared.complete index request status left) shares
  | stop (error : Error) :
      Move shared shares ⟨none, .stopped⟩ (shared.stopEngine error) shares

variable {contract} {options : Options} {trace : Trace n blockSize threads}
  {system system' : System n blockSize threads} {shares : Fin threads → R}
  {entry : Entry n blockSize threads}

theorem Owns.cons {id : Fin threads} {thread : Thread n blockSize} {share : R}
    (h : contract.Owns trace id thread share)
    (hentry : entry.thread ≠ some id ∨ entry.event.isCall = false) :
    contract.Owns (entry :: trace) id thread share := by
  cases hactivity : thread.activity with
  | idle => simpa [Owns, hactivity] using h
  | background rest => simpa [Owns, hactivity] using h
  | calling call rest =>
      simp only [Owns, hactivity] at h ⊢
      rwa [Trace.current_cons hentry]

theorem sum_update (shares : Fin threads → R) (id : Fin threads) (share : R) :
    ∑ other, Function.update shares id share other =
      share + ∑ other ∈ Finset.univ.erase id, shares other := by
  rw [← Finset.add_sum_erase _ _ (Finset.mem_univ id), Function.update_self]
  congr 1
  refine Finset.sum_congr rfl fun other hother => ?_
  rw [Function.update_of_ne (Finset.ne_of_mem_erase hother)]

theorem sum_split (shares : Fin threads → R) (id : Fin threads) :
    ∑ other, shares other = shares id + ∑ other ∈ Finset.univ.erase id, shares other :=
  (Finset.add_sum_erase _ _ (Finset.mem_univ id)).symm

theorem Sound.owns_update (h : contract.Sound trace system shares) {id : Fin threads}
    (hentry : entry.thread = some id) {thread : Thread n blockSize} {share : R}
    (howns : contract.Owns (entry :: trace) id thread share) (other : Fin threads) :
    contract.Owns (entry :: trace) other
      (Function.update system.thread id thread other) (Function.update shares id share other) := by
  by_cases hother : other = id
  · subst hother
    rwa [Function.update_self, Function.update_self]
  · rw [Function.update_of_ne hother, Function.update_of_ne hother]
    refine (h.owns other).cons (.inl ?_)
    rw [hentry]
    exact fun heq => hother (Option.some.inj heq).symm

theorem Valid.programStep (hvalid : contract.Valid options) {α : Type}
    {program program' : Prog n blockSize α} {post : α → R → Prop} {context P others : R}
    {events : Events n blockSize} {event : Event n blockSize} {shared shared' : Shared n blockSize}
    (hensures : Ensures contract.rule context program post P)
    (hinv : contract.inv events shared (P + (context + others)))
    (hstep : ProgramStep shared program event shared' program') :
    ∃ P', Ensures contract.rule context program' post P' ∧
      contract.inv (event :: events) shared' (P' + (context + others)) ∧
      (event = .quiet ∧ shared' = shared ∧ P' = P ∨
        ∃ (action : Action n blockSize) (seen used rest D : R) (given : Reply action → R → Prop)
          (choice : Choice n) (reply : Reply action), contract.rule action seen used given ∧
            P + context = used + (seen + rest) ∧ P' + context = D + (seen + rest) ∧
              given reply D ∧ exec shared choice action = some (reply, shared') ∧
                event = observe shared action reply) := by
  cases hstep with
  | enter => exact ⟨P, hensures.unfoldLoop, hvalid.idle _ _ _ _ hinv rfl, .inl ⟨rfl, rfl, rfl⟩⟩
  | @act _ choice action next reply henabled =>
      have hperforms : Performs (events, shared) action reply
          (observe shared action reply :: events, shared') := ⟨choice, henabled, rfl⟩
      obtain ⟨seen, hidden, used, kept, given, D, hseen, rfl, hrule, hgives, hinv', hnext⟩ :=
        hensures.step hvalid.rules hinv hperforms
      have hsplit : ∀ X : R, X + kept + context = X + (seen + hidden) := by
        intro X
        rw [add_assoc, add_comm kept, hseen]
      exact ⟨D + kept, hnext, hinv', .inr ⟨_, seen, used, hidden, D, given, _, _, hrule,
        hsplit used, hsplit D, hgives, henabled, rfl⟩⟩

theorem Valid.step (hvalid : contract.Valid options) (h : contract.Sound trace system shares)
    (hstep : Step options system entry system') :
    ∃ shares', contract.Move system.shared shares entry system'.shared shares' ∧
      contract.Sound (entry :: trace) system' shares' := by
  cases hstep with
  | @invoke id call program hidle hcall =>
      have howns := h.owns id
      simp only [Owns, hidle] at howns
      have hinv := h.inv
      rw [sum_split shares id] at hinv
      obtain ⟨context, P, hsame, hkeeps, hinv', hensures⟩ :=
        hvalid.invoke _ _ _ _ _ _ _ howns hcall hinv
      refine ⟨Function.update shares id (P + context), .idle rfl hsame, ?_, ?_⟩
      · refine h.owns_update rfl ⟨_, context, P, ?_, rfl, hkeeps, hensures⟩
        simp [Trace.current, Trace.events]
      · rw [sum_update]
        exact hinv'
  | @call id call rest rest' event shared' hcalling hprogram =>
      have howns := h.owns id
      simp only [Owns, hcalling] at howns
      obtain ⟨position, context, P, hcurrent, hshare, hkeeps, hensures⟩ := howns
      have hinv := h.inv
      rw [sum_split shares id, hshare, add_assoc] at hinv
      obtain ⟨P', hensures', hinv', hmove⟩ := hvalid.programStep hensures hinv hprogram
      have hcall : event.isCall = false := by
        rcases hmove with ⟨rfl, -⟩ | ⟨action, _, _, _, _, _, _, reply, _, _, _, _, _, rfl⟩
        · rfl
        · exact observe_isCall _ _ _
      refine ⟨Function.update shares id (P' + context), ?_, ?_, ?_⟩
      · rcases hmove with ⟨rfl, rfl, rfl⟩ |
          ⟨action, seen, used, rest, D, given, choice, reply, hrule, hused, hD, hgives, hexec, rfl⟩
        · exact .idle rfl (by rw [hshare]; exact hvalid.refl _)
        · rw [hD]
          exact .act hrule (hshare.trans hused) hgives hexec
      · refine h.owns_update rfl ⟨position, context, P', ?_, rfl, hkeeps, hensures'⟩
        rw [Trace.current_cons (.inr hcall), hcurrent]
      · rw [sum_update, add_assoc]
        exact hinv'
  | @finish id call outcome hcalling =>
      have howns := h.owns id
      simp only [Owns, hcalling] at howns
      obtain ⟨position, context, P, -, hshare, -, hpost⟩ := howns
      have hinv := h.inv
      rw [sum_split shares id, hshare] at hinv
      obtain ⟨share, hsame, howns', hinv'⟩ := hvalid.finish _ _ _ _ _ _ _ _ hpost hinv
      refine ⟨Function.update shares id share, .idle rfl (hshare ▸ hsame), ?_, ?_⟩
      · exact h.owns_update rfl howns'
      · rw [sum_update]
        exact hinv'
  | @background id rest rest' event shared' hrunning hprogram =>
      have howns := h.owns id
      simp only [Owns, hrunning] at howns
      have hinv := h.inv
      have hsplit : ∀ X : R, X + ∑ other ∈ Finset.univ.erase id, shares other =
          X + (0 + ∑ other ∈ Finset.univ.erase id, shares other) := by
        intro X
        rw [zero_add]
      rw [sum_split shares id, hsplit] at hinv
      obtain ⟨P', hensures', hinv', hmove⟩ := hvalid.programStep howns hinv hprogram
      refine ⟨Function.update shares id P', ?_, ?_, ?_⟩
      · rcases hmove with ⟨rfl, rfl, rfl⟩ |
          ⟨action, seen, used, rest, D, given, choice, reply, hrule, hused, hD, hgives, hexec, rfl⟩
        · exact .idle rfl (hvalid.refl _)
        · rw [add_zero] at hused hD
          rw [hD]
          exact .act hrule hused hgives hexec
      · exact h.owns_update rfl hensures'
      · rw [sum_update, hsplit]
        exact hinv'
  | @park id action frame hnext hwaits =>
      exact ⟨shares, .park frame, fun other => (h.owns other).cons (.inr rfl),
        hvalid.park _ _ _ _ h.inv⟩
  | @complete index status left request hinFlight =>
      exact ⟨shares, .complete hinFlight status left, fun other => (h.owns other).cons (.inr rfl),
        hvalid.complete _ _ _ _ _ _ _ h.inv hinFlight⟩
  | stopEngine error =>
      exact ⟨shares, .stop error, fun other => (h.owns other).cons (.inr rfl),
        hvalid.stop _ _ _ _ h.inv⟩

variable {start : System n blockSize threads}

theorem Valid.initial (hvalid : contract.Valid options) (hinitial : Initial start)
    (hinv : contract.inv [] start.shared 0) : contract.Sound [] start fun _ => 0 where
  inv := by
    rw [Finset.sum_const_zero]
    exact hinv
  owns id := by
    rcases hinitial.activity id with hidle | ⟨batchSize, burstLimit, hworker⟩ |
      ⟨high, low, hcleaner⟩ | hreaper
    · simp only [Owns, hidle, hinitial.client id]
      exact hvalid.fresh
    · simp only [Owns, hworker]
      exact hvalid.worker batchSize burstLimit
    · simp only [Owns, hcleaner]
      exact hvalid.cleaner high low
    · simp only [Owns, hreaper]
      exact hvalid.reaper

/-- What holds at the start and is kept by every move of a sound system holds of every
run, together with the invariant. -/
theorem Valid.run (hvalid : contract.Valid options) (hinitial : Initial start)
    (hinv : contract.inv [] start.shared 0)
    {holds : Trace n blockSize threads → Shared n blockSize → (Fin threads → R) → Prop}
    (hstart : holds [] start.shared fun _ => 0)
    (hmove : ∀ trace shared shares entry shared' shares',
      contract.inv trace.events shared (∑ id, shares id) →
        contract.inv (entry.event :: trace.events) shared' (∑ id, shares' id) →
          holds trace shared shares → contract.Move shared shares entry shared' shares' →
            holds (entry :: trace) shared' shares')
    (hrun : Run options start trace system) :
    ∃ shares, contract.Sound trace system shares ∧ holds trace system.shared shares := by
  induction hrun with
  | start => exact ⟨fun _ => 0, hvalid.initial hinitial hinv, hstart⟩
  | step _ hstep ih =>
      obtain ⟨shares, hsound, hholds⟩ := ih
      obtain ⟨shares', hmoved, hsound'⟩ := hvalid.step hsound hstep
      exact ⟨shares', hsound', hmove _ _ _ _ _ _ hsound.inv hsound'.inv hholds hmoved⟩

end Contract

/-! ### Tokens -/

section Accounted

variable {start : BufferTag → Page blockSize} {events : Events n blockSize}
  {shared : Shared n blockSize} {owned : Multiset (Token n blockSize)}

theorem Accounted.idle (h : Accounted start events shared owned) {event : Event n blockSize}
    (hidle : event.isIdle = true) : Accounted start (event :: events) shared owned := by
  obtain ⟨howned, deposit, hdeposit, hbooks⟩ := h
  have hevent : (∀ tag, ¬event.snaps tag) ∧ event.movesBytes = false ∧
      ∀ request frames, event ≠ .submitted request frames := by
    cases event with
    | quiet | invoked | returned => exact ⟨fun _ => id, rfl, nofun⟩
    | _ => cases hidle
  exact ⟨howned, deposit, hdeposit, hbooks.idle hevent.1 hevent.2.1 hevent.2.2 hbooks.control rfl
    ⟨rfl, rfl, rfl, rfl, rfl, rfl, rfl, rfl, le_rfl⟩ rfl⟩

theorem Accounted.park (h : Accounted start events shared owned) (frame : Fin n) :
    Accounted start (.parked frame :: events)
      (shared.setWord frame (shared.word frame ||| kWaiters)) owned := by
  obtain ⟨howned, deposit, hdeposit, hbooks⟩ := h
  exact ⟨howned, deposit, hdeposit, hbooks.park frame⟩

theorem Accounted.stop (h : Accounted start events shared owned) (error : Error) :
    Accounted start (.stopped :: events) (shared.stopEngine error) owned := by
  obtain ⟨howned, deposit, hdeposit, hbooks⟩ := h
  exact ⟨howned, deposit, hdeposit, hbooks.stop error⟩

theorem Accounted.complete (h : Accounted start events shared owned) {index : Nat}
    {request : DiskRequest n blockSize} (hrequest : shared.inFlight[index]? = some request)
    (status : Status) (left : Fin n → Page blockSize) :
    Accounted start (.completed request status :: events)
      (shared.complete index request status left) owned := by
  obtain ⟨howned, deposit, hdeposit, hbooks⟩ := h
  obtain ⟨core, hbefore, hafter⟩ := Shared.parked_complete hrequest status left
  have hregroup : ∀ parked : Multiset (Token n blockSize),
      owned + (parked + core) + deposit = parked + (owned + core + deposit) := by
    intro parked
    abel
  rw [hbefore, hregroup] at hbooks
  refine ⟨howned, deposit, hdeposit, ?_⟩
  rw [hafter, hregroup]
  refine hbooks.complete (List.mem_of_getElem? hrequest) ?_
  intro token hmem
  rw [hafter] at hmem
  simp only [Multiset.mem_add] at hmem ⊢
  tauto

end Accounted

def tokenContract (start : BufferTag → Page blockSize) :
    Contract n blockSize (Multiset (Token n blockSize)) where
  rule := Rule
  inv := Accounted start
  owns := Client.Owns
  keeps client call context := grips (call.keeps client.handles) ≤ context
  post _ client call outcome share := (client.finish call outcome).Owns share
  same := Eq

theorem tokenContract_valid (start : BufferTag → Page blockSize) (options : Options) :
    (tokenContract (n := n) start).Valid options where
  rules := rulesSound start
  idle _ _ _ _ h hidle := h.idle hidle
  park _ _ _ frame h := h.park frame
  complete _ _ _ _ _ status left h hrequest := h.complete hrequest status left
  stop _ _ _ error h := h.stop error
  invoke events shared client call program share others howns hcall hinv := by
    obtain ⟨context, P, rfl, hkeeps, hensures⟩ := callProgram_runs howns hcall
    exact ⟨context, P, rfl, hkeeps, hinv.idle rfl, hensures⟩
  finish _ _ _ _ _ _ share _ hpost hinv := ⟨share, rfl, hpost, hinv.idle rfl⟩
  refl _ := rfl
  fresh := client_owns_nothing
  worker batchSize burstLimit := flushWorker_spec batchSize burstLimit
  cleaner high low := cleaner_spec high low
  reaper := reaper_spec

section Run

variable {options : Options} {start system : System n blockSize threads}
  {trace : Trace n blockSize threads}

theorem Initial.accounted (hinitial : Initial start) :
    Accounted start.shared.diskPage [] start.shared 0 := by
  obtain ⟨files, segment, cleaner, strategies, hshared⟩ := hinitial.shared
  have hparked : (.initial files segment cleaner strategies : Shared n blockSize).parked = 0 := rfl
  refine ⟨by simp, 0, by simp, ?_⟩
  rw [hshared, hparked, add_zero, add_zero]
  exact books_initial files segment cleaner strategies

theorem Run.accounted (hinitial : Initial start) (hrun : Run options start trace system)
    (holds : Trace n blockSize threads → Shared n blockSize →
      (Fin threads → Multiset (Token n blockSize)) → Prop)
    (hstart : holds [] start.shared fun _ => 0)
    (hmove : ∀ trace shared shares entry shared' shares',
      Accounted start.shared.diskPage trace.events shared (∑ id, shares id) →
        Accounted start.shared.diskPage (entry.event :: trace.events) shared' (∑ id, shares' id) →
          holds trace shared shares →
            (tokenContract start.shared.diskPage).Move shared shares entry shared' shares' →
              holds (entry :: trace) shared' shares') :
    ∃ shares, (tokenContract start.shared.diskPage).Sound trace system shares ∧
      holds trace system.shared shares :=
  (tokenContract_valid start.shared.diskPage options).run hinitial hinitial.accounted hstart
    hmove hrun

theorem Run.books (hinitial : Initial start) (hrun : Run options start trace system) :
    ∃ all, Books start.shared.diskPage trace.events system.shared all := by
  obtain ⟨shares, hsound, -⟩ := hrun.accounted hinitial (fun _ _ _ => True) trivial
    fun _ _ _ _ _ _ _ _ _ _ => trivial
  obtain ⟨-, deposit, -, hbooks⟩ := hsound.inv
  exact ⟨_, hbooks⟩

theorem Accounted.split {bytes : BufferTag → Page blockSize} {events : Events n blockSize}
    {shared : Shared n blockSize} {shares : Fin threads → Multiset (Token n blockSize)}
    (h : Accounted bytes events shared (∑ id, shares id)) {id : Fin threads}
    {used seen rest : Multiset (Token n blockSize)} (hshare : shares id = used + (seen + rest)) :
    ∃ others, Books bytes events shared (used + (seen + others)) := by
  obtain ⟨-, deposit, -, hbooks⟩ := h
  refine ⟨rest + ∑ other ∈ Finset.univ.erase id, shares other + shared.parked + deposit, ?_⟩
  rw [Contract.sum_split shares id, hshare] at hbooks
  have hregroup : ∀ others : Multiset (Token n blockSize),
      used + (seen + rest) + others + shared.parked + deposit =
        used + (seen + (rest + others + shared.parked + deposit)) := by
    intro others
    abel
  rwa [hregroup] at hbooks

end Run

end TelePath
