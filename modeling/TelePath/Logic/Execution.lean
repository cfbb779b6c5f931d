import Mathlib.Data.List.Basic
import TelePath.Logic.Program

/-!
Executions of programs in an arbitrary environment, and what they let out.

An execution lists the actions that a program performs, each with the reply it
got; any reply is possible.  `Emits` is a Hoare-style triple for the part of an
execution that an observer sees.
-/

namespace TelePath.Logic

variable {Action : Type} {Reply : Action → Type} {α β γ σ : Type}

/-- The program performs the actions of the list, gets the replies next to them and
ends with the value. -/
inductive Execution {α : Type} : Program Action Reply α → List (Sigma Reply) → α → Prop where
  | done (value : α) : Execution (.done value) [] value
  | request {action : Action} {next : Reply action → Program Action Reply α}
      {trace : List (Sigma Reply)} {value : α} (reply : Reply action)
      (rest : Execution (next reply) trace value) :
      Execution (.request action next) (⟨action, reply⟩ :: trace) value
  | loop {σ β : Type} {body : σ → Program Action Reply (σ ⊕ β)} {state : σ}
      {next : β → Program Action Reply α} {trace : List (Sigma Reply)} {value : α}
      (rest : Execution (Program.unfoldLoop body state next) trace value) :
      Execution (.loop body state next) trace value

namespace Execution

open Program

/-- An execution of a composition is one of each part. -/
theorem of_bind {program : Program Action Reply α} {rest : α → Program Action Reply β}
    {trace : List (Sigma Reply)} {value : β}
    (h : Execution (Program.bind program rest) trace value) :
    ∃ first second middle, trace = first ++ second ∧ Execution program first middle ∧
      Execution (rest middle) second value := by
  generalize hwhole : Program.bind program rest = whole at h
  induction h generalizing program with
  | done value =>
      cases program with
      | done middle =>
          refine ⟨[], [], middle, rfl, .done middle, ?_⟩
          rw [show rest middle = .done value from hwhole]
          exact .done value
      | request action next => cases hwhole
      | loop body state next => cases hwhole
  | @request action next trace value reply hrest ih =>
      cases program with
      | done middle =>
          refine ⟨[], _, middle, rfl, .done middle, ?_⟩
          rw [show rest middle = .request action next from hwhole]
          exact .request reply hrest
      | request action next =>
          cases hwhole
          obtain ⟨first, second, middle, rfl, hfirst, hsecond⟩ := ih rfl
          exact ⟨_ :: first, second, middle, rfl, .request reply hfirst, hsecond⟩
      | loop body state next => cases hwhole
  | @loop _ _ body state next trace value hrest ih =>
      cases program with
      | done middle =>
          refine ⟨[], _, middle, rfl, .done middle, ?_⟩
          rw [show rest middle = .loop body state next from hwhole]
          exact .loop hrest
      | request action next => cases hwhole
      | loop body state inner =>
          cases hwhole
          obtain ⟨first, second, middle, rfl, hfirst, hsecond⟩ :=
            ih (unfoldLoop_bind _ _ _ rest).symm
          exact ⟨first, second, middle, rfl, .loop hfirst, hsecond⟩

theorem of_request {action : Action} {next : Reply action → Program Action Reply α}
    {trace : List (Sigma Reply)} {value : α} (h : Execution (.request action next) trace value) :
    ∃ reply later, trace = ⟨action, reply⟩ :: later ∧ Execution (next reply) later value := by
  cases h with
  | request reply hrest => exact ⟨reply, _, rfl, hrest⟩

theorem of_done {value result : α} {trace : List (Sigma Reply)}
    (h : Execution (.done value : Program Action Reply α) trace result) :
    trace = [] ∧ result = value := by
  cases h
  exact ⟨rfl, rfl⟩

/-- The turns of a loop: all but the last one go around again. -/
inductive Turns (body : σ → Program Action Reply (σ ⊕ β)) :
    σ → List (Sigma Reply) → β → Prop where
  | last {state : σ} {trace : List (Sigma Reply)} {result : β}
      (turn : Execution (body state) trace (.inr result)) : Turns body state trace result
  | again {state state' : σ} {first rest : List (Sigma Reply)} {result : β}
      (turn : Execution (body state) first (.inl state')) (turns : Turns body state' rest result) :
      Turns body state (first ++ rest) result

/-- What is left of a loop after the turn that `program` is the rest of. -/
def AfterTurn (body : σ → Program Action Reply (σ ⊕ β)) (next : β → Program Action Reply α)
    (program : Program Action Reply (σ ⊕ β)) (trace : List (Sigma Reply)) (value : α) : Prop :=
  (∃ first state rest result last, trace = first ++ rest ++ last ∧
    Execution program first (.inl state) ∧ Turns body state rest result ∧
      Execution (next result) last value) ∨
  ∃ first result last, trace = first ++ last ∧ Execution program first (.inr result) ∧
    Execution (next result) last value

theorem AfterTurn.request {body : σ → Program Action Reply (σ ⊕ β)}
    {next : β → Program Action Reply α} {action : Action}
    {rest : Reply action → Program Action Reply (σ ⊕ β)} {trace : List (Sigma Reply)} {value : α}
    {reply : Reply action} (h : AfterTurn body next (rest reply) trace value) :
    AfterTurn body next (.request action rest) (⟨action, reply⟩ :: trace) value := by
  rcases h with ⟨first, state, turns, result, last, rfl, hturn, hturns, hlast⟩ |
    ⟨first, result, last, rfl, hturn, hlast⟩
  · exact .inl ⟨_ :: first, state, turns, result, last, rfl, .request reply hturn, hturns, hlast⟩
  · exact .inr ⟨_ :: first, result, last, rfl, .request reply hturn, hlast⟩

theorem AfterTurn.loop {body : σ → Program Action Reply (σ ⊕ β)}
    {next : β → Program Action Reply α} {τ : Type}
    {inner : τ → Program Action Reply (τ ⊕ γ)} {state : τ}
    {rest : γ → Program Action Reply (σ ⊕ β)} {trace : List (Sigma Reply)} {value : α}
    (h : AfterTurn body next (unfoldLoop inner state rest) trace value) :
    AfterTurn body next (.loop inner state rest) trace value := by
  rcases h with ⟨first, state, turns, result, last, rfl, hturn, hturns, hlast⟩ |
    ⟨first, result, last, rfl, hturn, hlast⟩
  · exact .inl ⟨first, state, turns, result, last, rfl, .loop hturn, hturns, hlast⟩
  · exact .inr ⟨first, result, last, rfl, .loop hturn, hlast⟩

theorem AfterTurn.leave {body : σ → Program Action Reply (σ ⊕ β)}
    {next : β → Program Action Reply α} {result : β} {trace : List (Sigma Reply)} {value : α}
    (h : Execution (next result) trace value) :
    AfterTurn body next (.done (.inr result)) trace value :=
  .inr ⟨[], result, trace, rfl, .done _, h⟩

theorem AfterTurn.again {body : σ → Program Action Reply (σ ⊕ β)}
    {next : β → Program Action Reply α} {state : σ} {trace : List (Sigma Reply)} {value : α}
    (h : AfterTurn body next (body state) trace value) :
    AfterTurn body next (.done (.inl state)) trace value := by
  rcases h with ⟨first, after, turns, result, last, rfl, hturn, hturns, hlast⟩ |
    ⟨first, result, last, rfl, hturn, hlast⟩
  · exact .inl ⟨[], state, first ++ turns, result, last, rfl, .done _, .again hturn hturns, hlast⟩
  · exact .inl ⟨[], state, first, result, last, rfl, .done _, .last hturn, hlast⟩

/-- An execution that starts in the middle of a turn. -/
theorem of_turn {body : σ → Program Action Reply (σ ⊕ β)} {next : β → Program Action Reply α}
    {program : Program Action Reply (σ ⊕ β)} {trace : List (Sigma Reply)} {value : α}
    (h : Execution (Program.bind program fun
      | .inl state => .loop body state next
      | .inr result => next result) trace value) : AfterTurn body next program trace value := by
  generalize hwhole : Program.bind program _ = whole at h
  induction h generalizing program with
  | done value =>
      match program, hwhole with
      | .done (.inr result), hwhole =>
          exact .leave (by rw [show next result = .done value from hwhole]; exact .done value)
  | @request action rest trace value reply hrest ih =>
      match program, hwhole with
      | .done (.inr result), hwhole =>
          refine .leave ?_
          rw [show next result = .request action rest from hwhole]
          exact .request reply hrest
      | .request action rest, hwhole =>
          cases hwhole
          exact (ih rfl).request
  | @loop _ _ inner state rest trace value hrest ih =>
      match program, hwhole with
      | .done (.inl state), hwhole =>
          cases hwhole
          exact (ih rfl).again
      | .done (.inr result), hwhole =>
          refine .leave ?_
          rw [show next result = .loop inner state rest from hwhole]
          exact .loop hrest
      | .loop inner state rest, hwhole =>
          cases hwhole
          exact (ih (unfoldLoop_bind _ _ _ _).symm).loop

/-- An execution of a loop is its turns and what follows it. -/
theorem of_loop {body : σ → Program Action Reply (σ ⊕ β)} {state : σ}
    {next : β → Program Action Reply α} {trace : List (Sigma Reply)} {value : α}
    (h : Execution (.loop body state next) trace value) :
    ∃ turns result last, trace = turns ++ last ∧ Turns body state turns result ∧
      Execution (next result) last value := by
  cases h with
  | loop hrest =>
      rcases of_turn hrest with ⟨first, after, turns, result, last, rfl, hturn, hturns, hlast⟩ |
        ⟨first, result, last, rfl, hturn, hlast⟩
      · exact ⟨first ++ turns, result, last, rfl, .again hturn hturns, hlast⟩
      · exact ⟨first, result, last, rfl, .last hturn, hlast⟩

end Execution

/-- In every execution of the program, its value and what `out` shows of its actions
are related by `post`. -/
def Emits (out : (action : Action) → Reply action → List γ) (program : Program Action Reply α)
    (post : α → List γ → Prop) : Prop :=
  ∀ trace value, Execution program trace value →
    post value (trace.flatMap fun entry => out entry.1 entry.2)

section Emits

open Program

variable {out : (action : Action) → Reply action → List γ} {program : Program Action Reply α}
  {post : α → List γ → Prop}

theorem emits_done {value : α} (h : post value []) :
    Emits out (.done value : Program Action Reply α) post := by
  intro trace result hexecution
  obtain ⟨rfl, rfl⟩ := hexecution.of_done
  exact h

theorem emits_request {action : Action} {next : Reply action → Program Action Reply α}
    (h : ∀ reply, Emits out (next reply) fun value later =>
      post value (out action reply ++ later)) :
    Emits out (.request action next) post := by
  intro trace value hexecution
  obtain ⟨reply, later, rfl, hlater⟩ := hexecution.of_request
  exact h reply later value hlater

theorem emits_act {action : Action} {rest : Reply action → Program Action Reply α}
    (h : ∀ reply, Emits out (rest reply) fun value later =>
      post value (out action reply ++ later)) :
    Emits out (perform action >>= rest) post :=
  emits_request h

/-- An action that shows nothing. -/
theorem emits_quiet {action : Action} {rest : Reply action → Program Action Reply α}
    (hout : ∀ reply, out action reply = []) (h : ∀ reply, Emits out (rest reply) post) :
    Emits out (perform action >>= rest) post := by
  refine emits_act fun reply => ?_
  rw [hout reply]
  exact h reply

theorem Emits.mono {weaker : α → List γ → Prop} (h : Emits out program post)
    (hpost : ∀ value emitted, post value emitted → weaker value emitted) :
    Emits out program weaker :=
  fun trace value hexecution => hpost _ _ (h trace value hexecution)

theorem Emits.seq {rest : α → Program Action Reply β} {final : β → List γ → Prop}
    (h : Emits out program post)
    (hrest : ∀ value emitted, post value emitted →
      Emits out (rest value) fun result later => final result (emitted ++ later)) :
    Emits out (program >>= rest) final := by
  intro trace result hexecution
  obtain ⟨first, second, middle, rfl, hfirst, hsecond⟩ := hexecution.of_bind
  rw [List.flatMap_append]
  exact hrest middle _ (h first middle hfirst) second result hsecond

/-- A loop over a list shows what its rounds show, one after the other. -/
theorem emits_forEach {items : List σ} {body : σ → Program Action Reply Unit}
    {shown : σ → List γ}
    (h : ∀ item ∈ items, Emits out (body item) fun _ emitted => emitted = shown item) :
    Emits out (forEach items body) fun _ emitted => emitted = items.flatMap shown := by
  induction items with
  | nil => exact emits_done rfl
  | cons item rest ih =>
      refine (h item List.mem_cons_self).seq ?_
      rintro _ _ rfl
      refine (ih fun other hother => h other (List.mem_cons_of_mem _ hother)).mono ?_
      rintro _ _ rfl
      rfl

theorem emits_turns {body : σ → Program Action Reply (σ ⊕ β)} {left : β → List γ → Prop}
    (h : ∀ state, Emits out (body state) fun turn emitted =>
      turn.elim (fun _ => emitted = []) fun result => left result emitted)
    {state : σ} {trace : List (Sigma Reply)} {result : β}
    (hturns : Execution.Turns body state trace result) :
    left result (trace.flatMap fun entry => out entry.1 entry.2) := by
  induction hturns with
  | last hturn => exact h _ _ _ hturn
  | again hturn _ ih =>
      have hnothing : List.flatMap _ _ = [] := h _ _ _ hturn
      rw [List.flatMap_append, hnothing]
      exact ih

/-- A turn of the loop shows nothing unless it is the last one. -/
theorem emits_forever {body : Program Action Reply (Option α)}
    (h : Emits out body fun turn emitted =>
      turn.elim (emitted = []) fun value => post value emitted) :
    Emits out (forever body) post := by
  intro trace value hexecution
  obtain ⟨turns, result, last, rfl, hturns, hlast⟩ := hexecution.of_loop
  obtain ⟨rfl, rfl⟩ := hlast.of_done
  rw [List.append_nil]
  refine emits_turns (fun _ => h.seq fun turn emitted hturn => ?_) hturns
  cases turn with
  | none => exact emits_done (by simpa using hturn)
  | some value => exact emits_done (by simpa using hturn)

/-- A program whose actions show nothing. -/
theorem emits_of_uses (h : program.Uses fun action => ∀ reply, out action reply = []) :
    Emits out program fun _ emitted => emitted = [] := by
  induction program with
  | done value => exact emits_done rfl
  | request action next ih =>
      refine emits_request fun reply => ?_
      rw [h.1 reply]
      exact ih reply (h.2 reply)
  | loop body state next ihBody ih =>
      intro trace value hexecution
      obtain ⟨turns, result, last, rfl, hturns, hlast⟩ := hexecution.of_loop
      have hbody : ∀ state, Emits out (body state) fun turn emitted =>
          turn.elim (fun _ => emitted = []) fun _ => emitted = [] := by
        intro state
        refine (ihBody state (h.1 state)).mono fun turn emitted hemitted => ?_
        cases turn <;> exact hemitted
      have hnothing : List.flatMap _ turns = [] := emits_turns hbody hturns
      rw [List.flatMap_append, hnothing]
      exact ih result (h.2 result) last value hlast

theorem emits_after_uses {rest : α → Program Action Reply β} {final : β → List γ → Prop}
    (h : program.Uses fun action => ∀ reply, out action reply = [])
    (hrest : ∀ value, Emits out (rest value) final) : Emits out (program >>= rest) final := by
  refine (emits_of_uses h).seq ?_
  rintro value _ rfl
  exact hrest value

end Emits

end TelePath.Logic
