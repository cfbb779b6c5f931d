import Mathlib.Tactic.Choose
import Mathlib.Tactic.TypeStar
import TelePath.Logic.Program

/-!
Rely-guarantee reasoning for programs that run concurrently.

Threads share a state.  An invariant holds at all times, and each thread relies on
what the steps of the other threads leave alone.  An assertion of a thread is stable if
it survives such steps.  A program upholds a protocol if stable assertions lead from
each of its actions to the next, every action keeps the invariant, and no action breaks
what other threads rely on.
-/

namespace TelePath.Logic

open Program hiding bind

structure Protocol (Thread Action : Type) (Reply : Action → Type) (S : Type) where
  /-- What holds at all times. -/
  invariant : S → Prop
  /-- What the steps of other threads look like to a thread. -/
  rely : Thread → S → S → Prop
  /-- An action makes sense in a state. -/
  permits : Action → S → Prop
  /-- What an action of a thread does. -/
  performs : Thread → (action : Action) → S → Reply action → S → Prop

namespace Protocol

variable {Thread Action S : Type} {Reply : Action → Type} {α β γ σ : Type}

section Definitions

variable (protocol : Protocol Thread Action Reply S) (thread : Thread)

/-- The assertion survives the steps of other threads. -/
def Stable (assertion : S → Prop) : Prop :=
  ∀ state next, protocol.invariant state → protocol.invariant next →
    protocol.rely thread state next → assertion state → assertion next

/-- A step of the thread that the other threads can live with. -/
def Guarantees (state next : S) : Prop :=
  protocol.invariant next ∧ ∀ other, other ≠ thread → protocol.rely other state next

/-- Started where `assertion` holds, the program performs permitted actions only, each of
which the other threads can live with, and whenever it stops, `post` holds. -/
def Upholds : {α : Type} → Program Action Reply α → (α → S → Prop) → (S → Prop) → Prop
  | _, .done value, post, assertion =>
      protocol.Stable thread assertion ∧
        ∀ state, protocol.invariant state → assertion state → post value state
  | _, .request action next, post, assertion =>
      protocol.Stable thread assertion ∧ ∃ after : Reply action → S → Prop,
        (∀ state, protocol.invariant state → assertion state →
          protocol.permits action state ∧ ∀ reply state',
            protocol.performs thread action state reply state' →
              protocol.Guarantees thread state state' ∧ after reply state') ∧
        ∀ reply, Upholds (next reply) post (after reply)
  | _, .loop (σ := σ) (β := β) body start next, post, assertion =>
      protocol.Stable thread assertion ∧
        ∃ (before : σ → S → Prop) (left : β → S → Prop),
          (∀ state, protocol.invariant state → assertion state → before start state) ∧
          (∀ value, Upholds (body value) (Sum.elim before left) (before value)) ∧
          ∀ result, Upholds (next result) post (left result)

/-- A program that is somewhere in the middle of upholding the protocol. -/
def Running (program : Program Action Reply α) (post : α → S → Prop) (state : S) : Prop :=
  ∃ assertion, protocol.Upholds thread program post assertion ∧ assertion state

end Definitions

variable {protocol : Protocol Thread Action Reply S} {thread : Thread}

/-! ### Assertions -/

theorem Stable.and {first second : S → Prop} (hfirst : protocol.Stable thread first)
    (hsecond : protocol.Stable thread second) :
    protocol.Stable thread fun state => first state ∧ second state :=
  fun state next hstate hnext hrely h =>
    ⟨hfirst state next hstate hnext hrely h.1, hsecond state next hstate hnext hrely h.2⟩

theorem Stable.exists {ι : Sort*} {assertion : ι → S → Prop}
    (h : ∀ i, protocol.Stable thread (assertion i)) :
    protocol.Stable thread fun state => ∃ i, assertion i state :=
  fun state next hstate hnext hrely ⟨i, hi⟩ => ⟨i, h i state next hstate hnext hrely hi⟩

theorem stable_pure (fact : Prop) : protocol.Stable thread fun _ => fact :=
  fun _ _ _ _ _ h => h

/-! ### Rules -/

theorem Upholds.stable {program : Program Action Reply α} {post : α → S → Prop}
    {assertion : S → Prop} (h : protocol.Upholds thread program post assertion) :
    protocol.Stable thread assertion := by
  cases program with
  | done value => exact h.1
  | request action next => exact h.1
  | loop body start next => exact h.1

/-- The program may start from a stronger assertion. -/
theorem Upholds.strengthen {program : Program Action Reply α} {post : α → S → Prop}
    {weak strong : S → Prop} (h : protocol.Upholds thread program post weak)
    (hstable : protocol.Stable thread strong)
    (himp : ∀ state, protocol.invariant state → strong state → weak state) :
    protocol.Upholds thread program post strong := by
  cases program with
  | done value =>
      exact ⟨hstable, fun state hstate hstrong => h.2 state hstate (himp state hstate hstrong)⟩
  | request action next =>
      obtain ⟨-, after, haction, hnext⟩ := h
      exact ⟨hstable, after, fun state hstate hstrong =>
        haction state hstate (himp state hstate hstrong), hnext⟩
  | loop body start next =>
      obtain ⟨-, before, left, hstart, hbody, hnext⟩ := h
      exact ⟨hstable, before, left, fun state hstate hstrong =>
        hstart state hstate (himp state hstate hstrong), hbody, hnext⟩

theorem Upholds.mono {program : Program Action Reply α} {post post' : α → S → Prop}
    {assertion : S → Prop} (h : protocol.Upholds thread program post assertion)
    (himp : ∀ value state, protocol.invariant state → post value state → post' value state) :
    protocol.Upholds thread program post' assertion := by
  induction program generalizing assertion with
  | done value =>
      exact ⟨h.1, fun state hstate hpre => himp value state hstate (h.2 state hstate hpre)⟩
  | request action next ih =>
      obtain ⟨hstable, after, haction, hnext⟩ := h
      exact ⟨hstable, after, haction, fun reply => ih reply (hnext reply) himp⟩
  | loop body start next _ ih =>
      obtain ⟨hstable, before, left, hstart, hbody, hnext⟩ := h
      exact ⟨hstable, before, left, hstart, hbody, fun result => ih result (hnext result) himp⟩

/-- The program may start from any one of a family of assertions. -/
theorem Upholds.exists {ι : Sort*} {program : Program Action Reply α} {post : α → S → Prop}
    {assertion : ι → S → Prop} (h : ∀ i, protocol.Upholds thread program post (assertion i)) :
    protocol.Upholds thread program post fun state => ∃ i, assertion i state := by
  have hstable := Stable.exists fun i => (h i).stable
  induction program generalizing assertion with
  | done value => exact ⟨hstable, fun state hstate ⟨i, hi⟩ => (h i).2 state hstate hi⟩
  | request action next ih =>
      choose after haction hnext using fun i => (h i).2
      refine ⟨hstable, fun reply state => ∃ i, after i reply state, ?_, fun reply =>
        ih reply (fun i => hnext i reply) (Stable.exists fun i => (hnext i reply).stable)⟩
      rintro state hstate ⟨i, hi⟩
      obtain ⟨hpermits, hperforms⟩ := haction i state hstate hi
      refine ⟨hpermits, fun reply state' hstep => ?_⟩
      obtain ⟨hguarantees, hafter⟩ := hperforms reply state' hstep
      exact ⟨hguarantees, i, hafter⟩
  | loop body start next ihBody ih =>
      choose before left hstart hbody hnext using fun i => (h i).2
      refine ⟨hstable, fun value state => ∃ i, before i value state,
        fun result state => ∃ i, left i result state, ?_, fun value => ?_, fun result =>
        ih result (fun i => hnext i result) (Stable.exists fun i => (hnext i result).stable)⟩
      · rintro state hstate ⟨i, hi⟩
        exact ⟨i, hstart i state hstate hi⟩
      · refine ihBody value (fun i => (hbody i value).mono ?_)
          (Stable.exists fun i => (hbody i value).stable)
        rintro (value | result) state hstate hpost
        · exact ⟨i, hpost⟩
        · exact ⟨i, hpost⟩

/-- A fact that the assertion implies may be assumed. -/
theorem Upholds.assume {program : Program Action Reply α} {post : α → S → Prop}
    {assertion : S → Prop} {fact : Prop} (hstable : protocol.Stable thread assertion)
    (hfact : ∀ state, protocol.invariant state → assertion state → fact)
    (h : fact → protocol.Upholds thread program post assertion) :
    protocol.Upholds thread program post assertion :=
  (Upholds.exists h).strengthen hstable fun state hstate hassertion =>
    ⟨hfact state hstate hassertion, hassertion⟩

theorem Upholds.bind {program : Program Action Reply α} {rest : α → Program Action Reply β}
    {between : α → S → Prop} {post : β → S → Prop} {assertion : S → Prop}
    (h : protocol.Upholds thread program between assertion)
    (hrest : ∀ value, protocol.Upholds thread (rest value) post (between value)) :
    protocol.Upholds thread (program.bind rest) post assertion := by
  induction program generalizing assertion with
  | done value => exact (hrest value).strengthen h.1 h.2
  | request action next ih =>
      obtain ⟨hstable, after, haction, hnext⟩ := h
      exact ⟨hstable, after, haction, fun reply => ih reply (hnext reply) hrest⟩
  | loop body start next _ ih =>
      obtain ⟨hstable, before, left, hstart, hbody, hnext⟩ := h
      exact ⟨hstable, before, left, hstart, hbody, fun result => ih result (hnext result) hrest⟩

theorem upholds_pure {value : α} {post : α → S → Prop} {assertion : S → Prop}
    (hstable : protocol.Stable thread assertion)
    (hpost : ∀ state, protocol.invariant state → assertion state → post value state) :
    protocol.Upholds thread (pure value) post assertion :=
  ⟨hstable, hpost⟩

theorem Upholds.seq {program : Program Action Reply α} {rest : α → Program Action Reply β}
    {between : α → S → Prop} {post : β → S → Prop} {assertion : S → Prop}
    (h : protocol.Upholds thread program between assertion)
    (hrest : ∀ value, protocol.Upholds thread (rest value) post (between value)) :
    protocol.Upholds thread (program >>= rest) post assertion :=
  h.bind hrest

theorem upholds_ite {condition : Prop} [Decidable condition] {first second : Program Action Reply α}
    {post : α → S → Prop} {assertion : S → Prop}
    (hfirst : protocol.Upholds thread first post assertion)
    (hsecond : protocol.Upholds thread second post assertion) :
    protocol.Upholds thread (if condition then first else second) post assertion := by
  split
  · exact hfirst
  · exact hsecond

/-- The two sides of a branch are followed by the same program. -/
theorem upholds_ite_seq {condition : Prop} [Decidable condition]
    {first second : Program Action Reply α} {rest : α → Program Action Reply β}
    {between : α → S → Prop} {post : β → S → Prop} {assertion : S → Prop}
    (hfirst : protocol.Upholds thread first between assertion)
    (hsecond : protocol.Upholds thread second between assertion)
    (hrest : ∀ value, protocol.Upholds thread (rest value) post (between value)) :
    protocol.Upholds thread (if condition then first >>= rest else second >>= rest) post
      assertion :=
  upholds_ite (hfirst.bind hrest) (hsecond.bind hrest)

/-- One action. -/
theorem upholds_perform {action : Action} {post : Reply action → S → Prop} {assertion : S → Prop}
    (hstable : protocol.Stable thread assertion)
    (hpost : ∀ reply, protocol.Stable thread (post reply))
    (haction : ∀ state, protocol.invariant state → assertion state →
      protocol.permits action state ∧ ∀ reply state',
        protocol.performs thread action state reply state' →
          protocol.Guarantees thread state state' ∧ post reply state') :
    protocol.Upholds thread (perform action) post assertion :=
  ⟨hstable, post, haction, fun reply => ⟨hpost reply, fun _ _ h => h⟩⟩

/-- A loop with an invariant of its own. -/
theorem upholds_repeatUntil {body : σ → Program Action Reply (σ ⊕ α)} {start : σ}
    {before : σ → S → Prop} {post : α → S → Prop}
    (hpost : ∀ value, protocol.Stable thread (post value))
    (hbody : ∀ value, protocol.Upholds thread (body value) (Sum.elim before post) (before value)) :
    protocol.Upholds thread (repeatUntil body start) post (before start) :=
  ⟨(hbody start).stable, before, post, fun _ _ h => h, hbody,
    fun result => ⟨hpost result, fun _ _ h => h⟩⟩

/-- A body that is repeated until it returns something. -/
theorem upholds_forever {body : Program Action Reply (Option α)} {assertion : S → Prop}
    {post : α → S → Prop} (hpost : ∀ value, protocol.Stable thread (post value))
    (hbody : protocol.Upholds thread body (fun result state =>
      match result with
      | none => assertion state
      | some value => post value state) assertion) :
    protocol.Upholds thread (forever body) post assertion := by
  refine ⟨hbody.stable, fun _ => assertion, post, fun _ _ h => h, fun _ => ?_,
    fun result => ⟨hpost result, fun _ _ h => h⟩⟩
  refine hbody.bind fun result => ?_
  cases result with
  | none => exact ⟨hbody.stable, fun _ _ h => h⟩
  | some value => exact ⟨hpost value, fun _ _ h => h⟩

/-! ### Threads that run -/

theorem Running.others {program : Program Action Reply α} {post : α → S → Prop} {state next : S}
    (h : protocol.Running thread program post state) (hstate : protocol.invariant state)
    (hnext : protocol.invariant next) (hrely : protocol.rely thread state next) :
    protocol.Running thread program post next := by
  obtain ⟨assertion, hprogram, hassertion⟩ := h
  exact ⟨assertion, hprogram, hprogram.stable state next hstate hnext hrely hassertion⟩

theorem Running.permits {action : Action} {rest : Reply action → Program Action Reply α}
    {post : α → S → Prop} {state : S}
    (h : protocol.Running thread (.request action rest) post state)
    (hstate : protocol.invariant state) : protocol.permits action state := by
  obtain ⟨assertion, ⟨-, after, haction, -⟩, hassertion⟩ := h
  exact (haction state hstate hassertion).1

theorem Running.request {action : Action} {rest : Reply action → Program Action Reply α}
    {post : α → S → Prop} {state next : S} {reply : Reply action}
    (h : protocol.Running thread (.request action rest) post state)
    (hstate : protocol.invariant state)
    (hperforms : protocol.performs thread action state reply next) :
    protocol.Guarantees thread state next ∧ protocol.Running thread (rest reply) post next := by
  obtain ⟨assertion, ⟨-, after, haction, hrest⟩, hassertion⟩ := h
  obtain ⟨hguarantees, hafter⟩ := (haction state hstate hassertion).2 reply next hperforms
  exact ⟨hguarantees, after reply, hrest reply, hafter⟩

theorem Running.loop {body : σ → Program Action Reply (σ ⊕ β)} {start : σ}
    {rest : β → Program Action Reply α} {post : α → S → Prop} {state : S}
    (h : protocol.Running thread (.loop body start rest) post state)
    (hstate : protocol.invariant state) :
    protocol.Running thread (unfoldLoop body start rest) post state := by
  obtain ⟨assertion, ⟨hstable, before, left, hstart, hbody, hrest⟩, hassertion⟩ := h
  refine ⟨before start, (hbody start).bind ?_, hstart state hstate hassertion⟩
  rintro (value | result)
  · exact ⟨(hbody value).stable, before, left, fun _ _ h => h, hbody, hrest⟩
  · exact hrest result

theorem Running.done {value : α} {post : α → S → Prop} {state : S}
    (h : protocol.Running thread (.done value) post state) (hstate : protocol.invariant state) :
    post value state := by
  obtain ⟨assertion, ⟨-, hpost⟩, hassertion⟩ := h
  exact hpost state hstate hassertion

end Protocol

end TelePath.Logic
