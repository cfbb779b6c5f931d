import TelePath.Invariant.Rules

/-!
The invariant of requests and waiters: every waiter counts its tickets, every request in
flight serves the purpose of the thread that waits for it, and a load is the one its
request was built from.
-/

namespace TelePath

open FrameControl

variable {n blockSize : Nat}

namespace Token

def awaits (waiter : WaiterId) (token : Token n blockSize) : Bool :=
  token.purpose?.any fun (other, _) => other = waiter

@[simp] theorem isTicket_ticket (waiter other : WaiterId) (result : Option Status) :
    (.ticket waiter result : Token n blockSize).isTicket other = decide (waiter = other) := rfl

@[simp] theorem awaits_ticket (waiter other : WaiterId) (result : Option Status) :
    (.ticket waiter result : Token n blockSize).awaits other = false := rfl

theorem waiter?_of_purpose? {token : Token n blockSize} {waiter : WaiterId}
    {purpose : Purpose n blockSize} (h : token.purpose? = some (waiter, purpose)) :
    token.waiter? = some waiter := by
  cases token <;> simp_all [waiter?, purpose?]

theorem waiter?_of_isTicket {token : Token n blockSize} {waiter : WaiterId}
    (h : token.isTicket waiter = true) : token.waiter? = some waiter := by
  cases token <;> simp_all [isTicket, waiter?]

theorem waiter?_of_awaits {token : Token n blockSize} {waiter : WaiterId}
    (h : token.awaits waiter = true) : token.waiter? = some waiter := by
  obtain ⟨⟨other, purpose⟩, hpurpose, heq⟩ := (Option.any_eq_true _ _).mp h
  rw [waiter?_of_purpose? hpurpose]
  simpa using heq

theorem awaits_of_purpose? {token : Token n blockSize} {waiter : WaiterId}
    {purpose : Purpose n blockSize} (h : token.purpose? = some (waiter, purpose)) :
    token.awaits waiter = true := by
  simp [awaits, h]

theorem waiter?_of_offRequests {token : Token n blockSize} (h : token.onRequests = false) :
    token.waiter? = none := by
  simp only [onRequests, Bool.or_eq_false_iff] at h
  exact Option.not_isSome_iff_eq_none.mp (by simp [h.1])

end Token

/-- The invariant, with `owned` all tokens there are. -/
structure Requests (shared : Shared n blockSize) (owned : Multiset (Token n blockSize)) :
    Prop where
  fresh : ∀ token ∈ owned, ∀ waiter, token.waiter? = some waiter → waiter < shared.nextId
  owner : ∀ waiter, tally (Token.awaits waiter) owned ≤ 1
  pending : ∀ token ∈ owned, ∀ waiter purpose, token.purpose? = some (waiter, purpose) →
    (shared.waiters waiter).pending = tally (Token.isTicket waiter) owned
  single : ∀ token ∈ owned, ∀ waiter purpose, token.purpose? = some (waiter, purpose) →
    purpose = .sync ∨ tally (Token.isTicket waiter) owned ≤ 1
  settled : ∀ waiter, .settledWaiter waiter ∈ owned → tally (Token.isTicket waiter) owned = 0
  asks : ∀ request ∈ shared.inFlight, ∀ token ∈ owned, ∀ waiter purpose,
    request.token = .waiter waiter → token.purpose? = some (waiter, purpose) →
      purpose.Asks waiter request
  ticketed : ∀ request ∈ shared.inFlight, ∀ waiter, request.token = .waiter waiter →
    .ticket waiter none ∈ owned
  claimed : shared.stopped = false → ∀ request ∈ shared.inFlight, ∀ waiter,
    request.token = .waiter waiter → ∃ token ∈ owned, token.awaits waiter = true
  load : ∀ id load, .load id load ∈ owned →
    id < shared.nextId ∧ shared.loads id = load ∧ load.Consecutive
  loading : ∀ request ∈ shared.inFlight, ∀ id, request.token = .load id →
    request = (shared.loads id).request id
  refused : shared.stopStatus ≠ ok
  tasks : ∀ task ∈ shared.foregroundQueue ++ shared.backgroundQueue,
    task.clearDirtyOnSuccess = true

/-- What waiting threads may rely on: a request that succeeded has had its effect. -/
def Landed (effect : Purpose n blockSize → Prop) (shared : Shared n blockSize)
    (owned : Multiset (Token n blockSize)) : Prop :=
  ∀ token ∈ owned, ∀ waiter purpose, token.purpose? = some (waiter, purpose) →
    (.ticket waiter (some ok) ∈ owned → effect purpose) ∧
      ((shared.waiters waiter).pending = 0 → (shared.waiters waiter).error = ok → effect purpose)

attribute [local grind cases] Requests

section Exchange

variable {used given rest : Multiset (Token n blockSize)}

theorem tally_replicate (test : Token n blockSize → Bool) (count : Nat)
    (token : Token n blockSize) :
    tally test (Multiset.replicate count token) = if test token then count else 0 := by
  induction count with
  | zero => simp
  | succ count ih =>
      rw [Multiset.replicate_succ, tally_cons, ih]
      split <;> omega

/-- Tokens that say nothing about requests. -/
def OffRequests (owned : Multiset (Token n blockSize)) : Prop :=
  ∀ token ∈ owned, token.onRequests = false

theorem OffRequests.tickets (h : OffRequests used) (waiter : WaiterId) :
    tally (Token.isTicket waiter) used = 0 := by
  refine tally_eq_zero fun token hmem => ?_
  by_contra hticket
  have hwaiter := Token.waiter?_of_isTicket (by simpa using hticket)
  rw [Token.waiter?_of_offRequests (h token hmem)] at hwaiter
  cases hwaiter

theorem OffRequests.awaits (h : OffRequests used) (waiter : WaiterId) :
    tally (Token.awaits waiter) used = 0 := by
  refine tally_eq_zero fun token hmem => ?_
  by_contra hawaits
  have hwaiter := Token.waiter?_of_awaits (by simpa using hawaits)
  rw [Token.waiter?_of_offRequests (h token hmem)] at hwaiter
  cases hwaiter

theorem OffRequests.mem_rest (h : OffRequests given) {token : Token n blockSize}
    (hmem : token ∈ given + rest) (htoken : token.onRequests = true) : token ∈ rest := by
  rcases Multiset.mem_add.mp hmem with hgiven | hrest
  · rw [h token hgiven] at htoken
    cases htoken
  · exact hrest

theorem Token.onRequests_of_waiter? {token : Token n blockSize} {waiter : WaiterId}
    (h : token.waiter? = some waiter) : token.onRequests = true := by
  simp [Token.onRequests, h]

theorem Token.onRequests_of_purpose? {token : Token n blockSize} {waiter : WaiterId}
    {purpose : Purpose n blockSize} (h : token.purpose? = some (waiter, purpose)) :
    token.onRequests = true :=
  Token.onRequests_of_waiter? (Token.waiter?_of_purpose? h)

theorem Requests.agree {shared shared' : Shared n blockSize} {owned : Multiset (Token n blockSize)}
    (h : Requests shared owned) (hsame : shared.SameRequests shared') :
    Requests shared' owned := by
  obtain ⟨hinFlight, -, hwaiters, hloads, hforeground, hbackground, hstopped, hstatus, hnext⟩ :=
    hsame
  constructor <;> grind

/-- Tokens may go as long as no ticket goes and no request in flight loses its owner. -/
theorem Requests.shrink {shared : Shared n blockSize} {owned owned' : Multiset (Token n blockSize)}
    (h : Requests shared owned)
    (hmem : ∀ token ∈ owned', token.onRequests = true → token ∈ owned)
    (htickets : ∀ waiter, tally (Token.isTicket waiter) owned' =
      tally (Token.isTicket waiter) owned)
    (hkept : ∀ waiter result, .ticket waiter result ∈ owned → .ticket waiter result ∈ owned')
    (howner : ∀ waiter, tally (Token.awaits waiter) owned' ≤ tally (Token.awaits waiter) owned)
    (hclaimed : shared.stopped = false → ∀ request ∈ shared.inFlight, ∀ waiter,
      request.token = .waiter waiter → ∃ token ∈ owned', token.awaits waiter = true) :
    Requests shared owned' := by
  have hload : ∀ id load, (.load id load : Token n blockSize).onRequests = true := fun _ _ => rfl
  have hsettled : ∀ waiter, (.settledWaiter waiter : Token n blockSize).onRequests = true :=
    fun _ => rfl
  constructor <;> grind [Token.onRequests_of_waiter?, Token.onRequests_of_purpose?]

theorem Requests.exchange {shared : Shared n blockSize} (h : Requests shared (used + rest))
    (hused : OffRequests used) (hgiven : OffRequests given) :
    Requests shared (given + rest) := by
  refine h.shrink ?_ ?_ ?_ ?_ ?_
  · intro token hmem hon
    exact Multiset.mem_add.mpr (.inr (hgiven.mem_rest hmem hon))
  · intro waiter
    rw [tally_add, tally_add, hused.tickets, hgiven.tickets]
  · intro waiter result hmem
    exact Multiset.mem_add.mpr (.inr (hused.mem_rest hmem rfl))
  · intro waiter
    rw [tally_add, tally_add, hused.awaits, hgiven.awaits]
  · intro hstopped request hrequest waiter hwaiter
    obtain ⟨token, hmem, hawaits⟩ := h.claimed hstopped request hrequest waiter hwaiter
    exact ⟨token, Multiset.mem_add.mpr (.inr (hused.mem_rest hmem
      (Token.onRequests_of_waiter? (Token.waiter?_of_awaits hawaits)))), hawaits⟩

theorem Landed.mono {effect effect' : Purpose n blockSize → Prop}
    {shared shared' : Shared n blockSize} {owned owned' : Multiset (Token n blockSize)}
    (h : Landed effect shared owned) (hwaiters : shared'.waiters = shared.waiters)
    (howner : ∀ token ∈ owned', token.purpose?.isSome → token ∈ owned)
    (hticket : ∀ waiter, .ticket waiter (some ok) ∈ owned' → .ticket waiter (some ok) ∈ owned)
    (hstable : ∀ token ∈ owned, ∀ waiter purpose, token.purpose? = some (waiter, purpose) →
      effect purpose → effect' purpose) :
    Landed effect' shared' owned' := by
  intro token htoken waiter purpose hpurpose
  have hold : token ∈ owned := howner token htoken (by simp [hpurpose])
  obtain ⟨hdone, hsettled⟩ := h token hold waiter purpose hpurpose
  refine ⟨fun hmem => ?_, fun hpending herror => ?_⟩
  · exact hstable token hold waiter purpose hpurpose (hdone (hticket waiter hmem))
  · rw [hwaiters] at hpending herror
    exact hstable token hold waiter purpose hpurpose (hsettled hpending herror)

theorem Landed.exchange {effect effect' : Purpose n blockSize → Prop}
    {shared shared' : Shared n blockSize} (h : Landed effect shared (used + rest))
    (hwaiters : shared'.waiters = shared.waiters) (hgiven : OffRequests given)
    (hstable : ∀ token ∈ used + rest, ∀ waiter purpose,
      token.purpose? = some (waiter, purpose) → effect purpose → effect' purpose) :
    Landed effect' shared' (given + rest) := by
  refine h.mono hwaiters (fun token hmem hsome => ?_) (fun waiter hmem => ?_) hstable
  · obtain ⟨⟨waiter, purpose⟩, hpurpose⟩ := Option.isSome_iff_exists.mp hsome
    exact Multiset.mem_add.mpr
      (.inr (hgiven.mem_rest hmem (Token.onRequests_of_purpose? hpurpose)))
  · exact Multiset.mem_add.mpr (.inr (hgiven.mem_rest hmem rfl))

end Exchange

theorem Purpose.exists_owner (purpose : Purpose n blockSize) (waiter : WaiterId) :
    ∃ token : Token n blockSize, purpose.waiting waiter = {token} ∧
      token.purpose? = some (waiter, purpose) := by
  cases purpose with
  | fill frame tag => exact ⟨_, rfl, rfl⟩
  | write frame tag snapshot => exact ⟨_, rfl, rfl⟩
  | sync => exact ⟨_, rfl, rfl⟩

theorem Landed.settled {effect : Purpose n blockSize → Prop} {shared : Shared n blockSize}
    {owned : Multiset (Token n blockSize)} (h : Landed effect shared owned)
    (hrequests : Requests shared owned) {purpose : Purpose n blockSize} {waiter : WaiterId}
    (hsettled : .settledWaiter waiter ∈ owned)
    (hwaiting : ∀ token ∈ purpose.waiting waiter, token ∈ owned)
    (hok : (shared.waiters waiter).error = ok) : effect purpose := by
  obtain ⟨owner, howned, howner⟩ := purpose.exists_owner waiter
  have hmem : owner ∈ owned := hwaiting owner (by simp [howned])
  refine (h owner hmem waiter purpose howner).2 ?_ hok
  rw [hrequests.pending owner hmem waiter purpose howner]
  exact hrequests.settled waiter hsettled

theorem Token.isTicket_of_purpose? {token : Token n blockSize} {waiter : WaiterId}
    {purpose : Purpose n blockSize} (h : token.purpose? = some (waiter, purpose))
    (other : WaiterId) : token.isTicket other = false := by
  cases token <;> simp_all [Token.purpose?, Token.isTicket]

theorem Token.awaits_eq {token : Token n blockSize} {waiter : WaiterId}
    {purpose : Purpose n blockSize} (h : token.purpose? = some (waiter, purpose))
    (other : WaiterId) : token.awaits other = decide (waiter = other) := by
  simp [Token.awaits, h]

theorem Purpose.offRequests_ready (purpose : Purpose n blockSize) : OffRequests purpose.ready := by
  intro token hmem
  cases purpose <;> simp_all [Purpose.ready, Purpose.token, Token.onRequests, Token.waiter?,
    Token.purpose?, Token.isLoad]

theorem Purpose.offRequests_done (purpose : Purpose n blockSize) : OffRequests purpose.done := by
  intro token hmem
  cases purpose <;> simp_all [Purpose.done, Purpose.token, Token.onRequests, Token.waiter?,
    Token.purpose?, Token.isLoad]

theorem Purpose.offRequests_failed (purpose : Purpose n blockSize) :
    OffRequests purpose.failed := by
  intro token hmem
  cases purpose <;> simp_all [Purpose.failed, Purpose.token, Token.onRequests, Token.waiter?,
    Token.purpose?, Token.isLoad]

namespace Requests

variable {shared shared' : Shared n blockSize} {used given rest : Multiset (Token n blockSize)}

theorem newWaiter (h : Requests shared rest) {purpose : Purpose n blockSize} {pending : Nat}
    (hcounts : purpose.Counts pending) :
    Requests { shared with
        nextId := shared.nextId + 1
        waiters := Function.update shared.waiters shared.nextId { pending := pending } }
      ((purpose.waiting shared.nextId +
        Multiset.replicate pending (.ticket shared.nextId none)) + rest) := by
  obtain ⟨owner, hwaiting, howner⟩ := purpose.exists_owner shared.nextId
  rw [hwaiting]
  have hrest : ∀ token ∈ rest, ∀ waiter, token.waiter? = some waiter → waiter ≠ shared.nextId :=
    fun token hmem waiter hwaiter => (h.fresh token hmem waiter hwaiter).ne
  have hmem : ∀ token ∈ ({owner} + Multiset.replicate pending (.ticket shared.nextId none)) + rest,
      token = owner ∨ token = .ticket shared.nextId none ∨ token ∈ rest := by
    intro token htoken
    simp only [Multiset.mem_add, Multiset.mem_singleton] at htoken
    grind [Multiset.eq_of_mem_replicate]
  have hkept : ∀ token ∈ rest,
      token ∈ ({owner} + Multiset.replicate pending (.ticket shared.nextId none)) + rest :=
    fun token htoken => Multiset.mem_add.mpr (.inr htoken)
  have htickets : ∀ waiter, tally (Token.isTicket waiter)
      (({owner} + Multiset.replicate pending (.ticket shared.nextId none)) + rest) =
        (if shared.nextId = waiter then pending else 0) +
          tally (Token.isTicket waiter) rest := by
    intro waiter
    simp [tally_replicate, Token.isTicket_of_purpose? howner]
  have hnoTickets : tally (Token.isTicket shared.nextId) rest = 0 :=
    tally_eq_zero fun token htoken => by
      by_contra hticket
      exact hrest token htoken _ (Token.waiter?_of_isTicket (by simpa using hticket)) rfl
  have hnoOwner : tally (Token.awaits shared.nextId) rest = 0 :=
    tally_eq_zero fun token htoken => by
      by_contra hawaits
      exact hrest token htoken _ (Token.waiter?_of_awaits (by simpa using hawaits)) rfl
  have hsingle : purpose = .sync ∨ pending ≤ 1 := by
    cases purpose with
    | sync => exact .inl rfl
    | fill | write => exact .inr (le_of_eq hcounts)
  have hpendings : ∀ waiter, (Function.update shared.waiters shared.nextId { pending := pending }
      waiter).pending = if waiter = shared.nextId then pending else (shared.waiters waiter).pending := by
    intro waiter
    by_cases heq : waiter = shared.nextId <;> simp [heq]
  have hwaiter := Token.waiter?_of_purpose? howner
  have hsilent : (.ticket shared.nextId none : Token n blockSize).purpose? = none := rfl
  have hticket : (.ticket shared.nextId none : Token n blockSize).waiter? = some shared.nextId := rfl
  constructor
  case owner =>
      intro waiter
      have hold := h.owner waiter
      by_cases heq : shared.nextId = waiter
      · subst heq
        simp [Token.awaits_eq howner, tally_replicate, hnoOwner]
      · simpa [Token.awaits_eq howner, tally_replicate, heq] using hold
  all_goals grind [Token.waiter?_of_purpose?, Token.waiter?, Token.purpose?]

theorem settle (h : Requests shared rest) {purpose : Purpose n blockSize} {waiter : WaiterId}
    (hwaiting : ∀ token ∈ purpose.waiting waiter, token ∈ rest)
    (hpending : (shared.waiters waiter).pending = 0) :
    Requests shared ({.settledWaiter waiter} + rest) := by
  obtain ⟨owner, howned, howner⟩ := purpose.exists_owner waiter
  have hmem : owner ∈ rest := hwaiting owner (by simp [howned])
  have hnone : tally (Token.isTicket waiter) rest = 0 :=
    (h.pending owner hmem waiter purpose howner).symm.trans hpending
  have htickets : ∀ other, tally (Token.isTicket other) ({Token.settledWaiter waiter} + rest) =
      tally (Token.isTicket other) rest := by
    simp [Token.isTicket]
  have hsplit : ∀ token, token ∈ {Token.settledWaiter waiter} + rest ↔
      token = .settledWaiter waiter ∨ token ∈ rest := by
    simp
  have hwaiter : waiter < shared.nextId := h.fresh owner hmem _ (Token.waiter?_of_purpose? howner)
  constructor
  case owner =>
      intro other
      simpa [Token.awaits, Token.purpose?] using h.owner other
  all_goals grind [Token.waiter?, Token.purpose?]

theorem unown (h : Requests shared (used + rest)) {purpose : Purpose n blockSize}
    {waiter : WaiterId} {kept : Multiset (Token n blockSize)}
    (hused : used = kept + purpose.waiting waiter)
    (hkept : ∀ token ∈ kept, token = .settledWaiter waiter) (hgiven : OffRequests given)
    (hover : .settledWaiter waiter ∈ used ∨ shared.stopped = true) :
    Requests shared (given + rest) := by
  subst hused
  obtain ⟨owner, howned, howner⟩ := purpose.exists_owner waiter
  rw [howned] at h hover
  have hticket : ∀ other, tally (Token.isTicket other) kept = 0 := by
    intro other
    refine tally_eq_zero fun token hmem => ?_
    rw [hkept token hmem]
    rfl
  refine h.shrink ?_ ?_ ?_ ?_ ?_
  · intro token hmem hon
    exact Multiset.mem_add.mpr (.inr (hgiven.mem_rest hmem hon))
  · intro other
    simp [hgiven.tickets, hticket, Token.isTicket_of_purpose? howner]
  · intro other result hmem
    refine Multiset.mem_add.mpr (.inr ?_)
    rcases Multiset.mem_add.mp hmem with hmem | hmem
    · rcases Multiset.mem_add.mp hmem with hmem | hmem
      · cases hkept _ hmem
      · rw [← Multiset.mem_singleton.mp hmem] at howner
        cases howner
    · exact hmem
  · intro other
    simp only [tally_add, hgiven.awaits]
    omega
  · intro hstopped request hrequest other hother
    obtain ⟨token, hmem, hawaits⟩ := h.claimed hstopped request hrequest other hother
    rcases Multiset.mem_add.mp hmem with hmem | hmem
    · exfalso
      -- only the owner itself could be meant, and none of its requests is in flight
      have hsettled := hover.resolve_right (by simp [hstopped])
      rcases Multiset.mem_add.mp hmem with hmem | hmem
      · rw [hkept token hmem] at hawaits
        cases hawaits
      · rw [Multiset.mem_singleton.mp hmem, Token.awaits_eq howner] at hawaits
        obtain rfl : waiter = other := by simpa using hawaits
        have hnone := h.settled waiter (Multiset.mem_add.mpr (.inl hsettled))
        have hpos : 0 < tally (Token.isTicket waiter) (kept + {owner} + rest) :=
          tally_pos (h.ticketed request hrequest waiter hother) (by simp [Token.isTicket])
        omega
    · exact ⟨token, Multiset.mem_add.mpr (.inr hmem), hawaits⟩

theorem completeWaiter {waiter : WaiterId} {status : Status}
    (h : Requests shared ({.ticket waiter (some status)} + rest)) :
    Requests { shared with
        waiters := Function.update shared.waiters waiter
          ((shared.waiters waiter).complete status) } rest := by
  have htickets : ∀ other, tally (Token.isTicket other) ({.ticket waiter (some status)} + rest) =
      (if waiter = other then 1 else 0) + tally (Token.isTicket other) rest := by
    intro other
    simp
  have hsplit : ∀ token, token ∈ {Token.ticket waiter (some status)} + rest ↔
      token = .ticket waiter (some status) ∨ token ∈ rest := by
    simp
  have hpendings : ∀ other, (Function.update shared.waiters waiter
      ((shared.waiters waiter).complete status) other).pending =
        (shared.waiters other).pending - if waiter = other then 1 else 0 := by
    intro other
    by_cases heq : other = waiter
    · subst heq
      simp [IoWaiter.complete]
    · simp [Ne.symm heq, heq]
  constructor
  case owner =>
      intro other
      simpa [Token.awaits, Token.purpose?] using h.owner other
  all_goals grind [Token.awaits_ticket]

theorem dropLoad {id : LoadId} {load : AsyncLoad n}
    (h : Requests shared ({.load id load} + rest)) : Requests shared rest := by
  have hsplit : ∀ token, token ∈ {Token.load id load} + rest ↔
      token = .load id load ∨ token ∈ rest := by
    simp
  have hidle : ∀ waiter, (.load id load : Token n blockSize).awaits waiter = false := fun _ => rfl
  refine h.shrink ?_ (by simp [Token.isTicket]) ?_ (by simp) ?_ <;> grind

end Requests

section Trade

variable {shared shared' : Shared n blockSize} {action : Action n blockSize}
  {seen used others D : Multiset (Token n blockSize)}
  {given : Reply action → Multiset (Token n blockSize) → Prop} {choice : Choice n}
  {reply : Reply action}

theorem OffRequests.zero : OffRequests (0 : Multiset (Token n blockSize)) := by
  intro token hmem
  cases hmem

theorem OffRequests.singleton {token : Token n blockSize} (h : token.onRequests = false) :
    OffRequests {token} := by
  intro other hmem
  rw [Multiset.mem_singleton.mp hmem]
  exact h

theorem OffRequests.add {first second : Multiset (Token n blockSize)} (h : OffRequests first)
    (h' : OffRequests second) : OffRequests (first + second) := by
  intro token hmem
  rcases Multiset.mem_add.mp hmem with hmem | hmem
  · exact h token hmem
  · exact h' token hmem

theorem offRequests_installed (frame : Fin n) (tag : BufferTag) {fill : Fill}
    (h : ∀ waiter, fill ≠ .reading waiter) :
    (.loading frame (.installed tag fill) : Token n blockSize).onRequests = false := by
  cases fill with
  | reading waiter => exact absurd rfl (h waiter)
  | _ => rfl

theorem Trade.offRequests (htrade : Trade action seen used given)
    (haction : action.onWaiters = false) (hgiven : given reply D) :
    OffRequests used ∧ OffRequests D :=
  ⟨fun _ hmem => (htrade.about hgiven _ (Multiset.mem_add.mpr (.inl hmem))).requests haction,
    fun _ hmem => (htrade.about hgiven _ (mem_rest hmem)).requests haction⟩

theorem Trade.sameRequests (htrade : Trade action seen used given)
    (haction : action.onWaiters = false)
    (hexec : exec shared choice action = some (reply, shared')) :
    shared.SameRequests shared' := by
  refine (exec_keeps hexec).requests ?_
  cases htrade with
  | silent hsilent => cases action <;> first | rfl | exact Bool.noConfusion hsilent
  | newWaiter | completeWaiter => exact Bool.noConfusion haction
  | _ => rfl

theorem Requests.trade (htrade : Trade action seen used given)
    (h : Requests shared (used + (seen + others)))
    (hexec : exec shared choice action = some (reply, shared')) (hgiven : given reply D) :
    Requests shared' (D + (seen + others)) := by
  cases haction : action.onWaiters with
  | false =>
      obtain ⟨hused, hD⟩ := htrade.offRequests haction hgiven
      exact (h.exchange hused hD).agree (htrade.sameRequests haction hexec)
  | true =>
      cases htrade with
      | silent hsilent =>
          subst hgiven
          exact h.agree ((exec_keeps hexec).requests (by
            cases action <;> first | rfl | exact Bool.noConfusion hsilent))
      | newWaiter purpose pending hcounts =>
          subst hgiven
          cases hexec
          have hrest : Requests shared (0 + (0 + others)) :=
            h.exchange purpose.offRequests_ready .zero
          simp only [zero_add] at hrest ⊢
          exact hrest.newWaiter hcounts
      | loadPending purpose waiter =>
          subst hgiven
          cases hexec
          split
          · rename_i hpending
            rw [zero_add] at h
            exact h.settle (fun token hmem => Multiset.mem_add.mpr (.inl hmem)) hpending
          · exact h
      | waiterStatus purpose waiter =>
          subst hgiven
          cases hexec
          refine h.unown rfl (by simp) ?_ (.inl (by simp))
          split
          · exact purpose.offRequests_done
          · exact purpose.offRequests_failed
      | loadStopped purpose waiter =>
          cases hexec
          cases hstopped : shared.stopped with
          | false =>
              simp only [hstopped] at hgiven
              subst hgiven
              exact h
          | true =>
              simp only [hstopped] at hgiven
              obtain ⟨-, rfl⟩ := hgiven
              exact h.unown (zero_add _).symm (by simp) purpose.offRequests_failed
                (.inr hstopped)
      | completeWaiter waiter status =>
          subst hgiven
          cases hexec
          rw [zero_add]
          exact h.completeWaiter
      | takeLoad id load =>
          obtain ⟨-, rfl⟩ := hgiven
          cases hexec
          rw [zero_add]
          exact h.dropLoad
      | _ => exact Bool.noConfusion haction

theorem Landed.newWaiter {effect effect' : Purpose n blockSize → Prop}
    {rest : Multiset (Token n blockSize)} {purpose : Purpose n blockSize} {pending : Nat}
    (h : Landed effect shared (purpose.ready + rest))
    (hrequests : Requests shared (purpose.ready + rest)) (hcounts : purpose.Counts pending)
    (hsync : effect' .sync)
    (hstable : ∀ token ∈ purpose.ready + rest, ∀ waiter purpose,
      token.purpose? = some (waiter, purpose) → effect purpose → effect' purpose) :
    Landed effect' { shared with
        nextId := shared.nextId + 1
        waiters := Function.update shared.waiters shared.nextId { pending := pending } }
      ((purpose.waiting shared.nextId +
        Multiset.replicate pending (.ticket shared.nextId none)) + rest) := by
  obtain ⟨owner, hwaiting, howner⟩ := purpose.exists_owner shared.nextId
  have hrest : ∀ {token : Token n blockSize}, token ∈ rest → token ∈ purpose.ready + rest :=
    fun hmem => Multiset.mem_add.mpr (.inr hmem)
  have hticket : ∀ waiter, .ticket waiter (some ok) ∈ (purpose.waiting shared.nextId +
      Multiset.replicate pending (.ticket shared.nextId none)) + rest →
        .ticket waiter (some ok) ∈ rest := by
    intro waiter hmem
    rw [hwaiting] at hmem
    simp only [Multiset.mem_add, Multiset.mem_singleton] at hmem
    rcases hmem with (heq | hmem) | hmem
    · rw [← heq] at howner
      cases howner
    · cases Multiset.eq_of_mem_replicate hmem
    · exact hmem
  intro token hmem waiter purpose' hpurpose
  by_cases hold : token ∈ rest
  · have hne : waiter ≠ shared.nextId :=
      (hrequests.fresh token (hrest hold) waiter (Token.waiter?_of_purpose? hpurpose)).ne
    obtain ⟨hdone, hsettled⟩ := h token (hrest hold) waiter purpose' hpurpose
    have hkeep := hstable token (hrest hold) waiter purpose' hpurpose
    refine ⟨fun hmem => hkeep (hdone (hrest (hticket waiter hmem))), ?_⟩
    simp only [Function.update_of_ne hne]
    exact fun hpending herror => hkeep (hsettled hpending herror)
  · -- the new waiter has no ticket that came back, and counts at least one
    rw [hwaiting] at hmem
    simp only [Multiset.mem_add, Multiset.mem_singleton, hold, or_false] at hmem
    rcases hmem with rfl | hmem
    · rw [howner] at hpurpose
      cases hpurpose
      refine ⟨fun hmem => ?_, fun hpending _ => ?_⟩
      · exact absurd rfl (hrequests.fresh _ (hrest (hticket _ hmem)) _ rfl).ne
      · simp only [Function.update_self] at hpending
        cases purpose with
        | sync => exact hsync
        | fill frame tag => exact absurd (hpending.symm.trans hcounts) (by decide)
        | write frame tag snapshot => exact absurd (hpending.symm.trans hcounts) (by decide)
    · rw [Multiset.eq_of_mem_replicate hmem] at hpurpose
      cases hpurpose

theorem Landed.completeWaiter {effect effect' : Purpose n blockSize → Prop}
    {rest : Multiset (Token n blockSize)} {waiter : WaiterId} {status : Status}
    (h : Landed effect shared ({.ticket waiter (some status)} + rest))
    (hstable : ∀ token ∈ {.ticket waiter (some status)} + rest, ∀ waiter purpose,
      token.purpose? = some (waiter, purpose) → effect purpose → effect' purpose) :
    Landed effect' { shared with
        waiters := Function.update shared.waiters waiter
          ((shared.waiters waiter).complete status) } rest := by
  have hrest : ∀ {token : Token n blockSize}, token ∈ rest →
      token ∈ {.ticket waiter (some status)} + rest :=
    fun hmem => Multiset.mem_add.mpr (.inr hmem)
  intro token hmem other purpose hpurpose
  obtain ⟨hdone, hsettled⟩ := h token (hrest hmem) other purpose hpurpose
  have hkeep := hstable token (hrest hmem) other purpose hpurpose
  refine ⟨fun hticket => hkeep (hdone (hrest hticket)), ?_⟩
  by_cases heq : other = waiter
  · subst heq
    simp only [Function.update_self, IoWaiter.complete]
    intro _ herror
    split at herror
    · rw [herror] at hdone
      exact hkeep (hdone mem_own)
    · exact absurd herror ‹_›
  · simp only [Function.update_of_ne heq]
    exact fun hpending herror => hkeep (hsettled hpending herror)

theorem Landed.trade {effect effect' : Purpose n blockSize → Prop}
    (htrade : Trade action seen used given) (hrequests : Requests shared (used + (seen + others)))
    (h : Landed effect shared (used + (seen + others)))
    (hexec : exec shared choice action = some (reply, shared')) (hgiven : given reply D)
    (hsync : effect' .sync)
    (hstable : ∀ token ∈ used + (seen + others), ∀ waiter purpose,
      token.purpose? = some (waiter, purpose) → effect purpose → effect' purpose) :
    Landed effect' shared' (D + (seen + others)) := by
  cases haction : action.onWaiters with
  | false =>
      obtain ⟨hused, hD⟩ := htrade.offRequests haction hgiven
      exact h.exchange (htrade.sameRequests haction hexec).waiters hD hstable
  | true =>
      cases htrade with
      | silent hsilent =>
          subst hgiven
          exact h.exchange ((exec_silent hsilent hexec).waiters) .zero hstable
      | newWaiter purpose pending hcounts =>
          subst hgiven
          cases hexec
          exact h.newWaiter hrequests hcounts hsync hstable
      | loadPending purpose waiter =>
          subst hgiven
          cases hexec
          refine h.mono rfl (fun token hmem hsome => ?_) (fun other hmem => ?_) hstable
          · split at hmem
            · rcases Multiset.mem_add.mp hmem with hsettled | hold
              · rw [Multiset.mem_singleton.mp hsettled] at hsome
                cases hsome
              · exact Multiset.mem_add.mpr (.inr hold)
            · exact hmem
          · split at hmem
            · rcases Multiset.mem_add.mp hmem with hsettled | hold
              · cases Multiset.mem_singleton.mp hsettled
              · exact Multiset.mem_add.mpr (.inr hold)
            · exact hmem
      | waiterStatus purpose waiter =>
          subst hgiven
          cases hexec
          refine h.exchange rfl ?_ hstable
          split
          · exact purpose.offRequests_done
          · exact purpose.offRequests_failed
      | loadStopped purpose waiter =>
          cases hexec
          cases hstopped : shared.stopped with
          | false =>
              simp only [hstopped] at hgiven
              subst hgiven
              exact h.mono rfl (fun _ hmem _ => hmem) (fun _ hmem => hmem) hstable
          | true =>
              simp only [hstopped] at hgiven
              obtain ⟨-, rfl⟩ := hgiven
              exact h.exchange rfl purpose.offRequests_failed hstable
      | completeWaiter waiter status =>
          subst hgiven
          cases hexec
          rw [zero_add]
          exact h.completeWaiter hstable
      | takeLoad id load =>
          obtain ⟨-, rfl⟩ := hgiven
          cases hexec
          exact h.exchange rfl .zero hstable
      | _ => exact Bool.noConfusion haction

end Trade

end TelePath
