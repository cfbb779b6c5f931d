import TelePath.Logic.Program

/-!
Programs that one thread runs alone on a state.

`handle` performs one action, or has no result when the action is not possible; a
program that meets such an action does not get further.  `Reaches` is total
correctness: the program ends, and what it returns and leaves is as stated.
-/

namespace TelePath.Logic

open Program

variable {Action : Type} {Reply : Action → Type} {α β σ : Type}

/-- The program turns the state into the final one and returns the value. -/
inductive Evaluates (handle : σ → (action : Action) → Option (Reply action × σ)) {α : Type} :
    Program Action Reply α → σ → α → σ → Prop where
  | done (value : α) (state : σ) : Evaluates handle (.done value) state value state
  | request {action : Action} {next : Reply action → Program Action Reply α}
      {state middle final : σ} {reply : Reply action} {value : α}
      (step : handle state action = some (reply, middle))
      (rest : Evaluates handle (next reply) middle value final) :
      Evaluates handle (.request action next) state value final
  | loop {τ γ : Type} {body : τ → Program Action Reply (τ ⊕ γ)} {start : τ}
      {next : γ → Program Action Reply α} {state final : σ} {value : α}
      (rest : Evaluates handle (unfoldLoop body start next) state value final) :
      Evaluates handle (.loop body start next) state value final

section Evaluates

variable {handle : σ → (action : Action) → Option (Reply action × σ)}
  {program : Program Action Reply α} {state middle final : σ} {value : α}

/-- A program has at most one outcome. -/
theorem Evaluates.unique {value' : α} {final' : σ} (h : Evaluates handle program state value final)
    (h' : Evaluates handle program state value' final') : value = value' ∧ final = final' := by
  induction h with
  | done value state =>
      cases h'
      exact ⟨rfl, rfl⟩
  | request step _ ih =>
      cases h' with
      | request step' rest' =>
          obtain ⟨rfl, rfl⟩ := Prod.mk.inj (Option.some.inj (step.symm.trans step'))
          exact ih rest'
  | loop _ ih =>
      cases h' with
      | loop rest' => exact ih rest'

theorem Evaluates.bind {rest : α → Program Action Reply β} {result : β}
    (h : Evaluates handle program state value middle)
    (hrest : Evaluates handle (rest value) middle result final) :
    Evaluates handle (Program.bind program rest) state result final := by
  induction h with
  | done value state => exact hrest
  | request step _ ih => exact .request step (ih hrest)
  | @loop _ _ body start next state middle value _ ih =>
      refine .loop ?_
      rw [unfoldLoop_bind]
      exact ih hrest

end Evaluates

/-- The program ends with a value and a state as in `post`. -/
def Reaches (handle : σ → (action : Action) → Option (Reply action × σ))
    (program : Program Action Reply α) (state : σ) (post : α → σ → Prop) : Prop :=
  ∃ value final, Evaluates handle program state value final ∧ post value final

section Reaches

variable {handle : σ → (action : Action) → Option (Reply action × σ)}
  {program : Program Action Reply α} {state : σ} {post : α → σ → Prop}

theorem reaches_done {value : α} (h : post value state) :
    Reaches handle (.done value) state post :=
  ⟨value, state, .done value state, h⟩

theorem reaches_act {action : Action} {rest : Reply action → Program Action Reply α}
    {reply : Reply action} {next : σ} (hstep : handle state action = some (reply, next))
    (h : Reaches handle (rest reply) next post) :
    Reaches handle (perform action >>= rest) state post := by
  obtain ⟨value, final, hrest, hpost⟩ := h
  exact ⟨value, final, .request hstep hrest, hpost⟩

theorem Reaches.seq {rest : α → Program Action Reply β} {final : β → σ → Prop}
    (h : Reaches handle program state post)
    (hrest : ∀ value next, post value next → Reaches handle (rest value) next final) :
    Reaches handle (program >>= rest) state final := by
  obtain ⟨value, next, hfirst, hpost⟩ := h
  obtain ⟨result, last, hsecond, hfinal⟩ := hrest value next hpost
  exact ⟨result, last, hfirst.bind hsecond, hfinal⟩

theorem Reaches.mono {weaker : α → σ → Prop} (h : Reaches handle program state post)
    (hpost : ∀ value final, post value final → weaker value final) :
    Reaches handle program state weaker := by
  obtain ⟨value, final, hrun, hvalue⟩ := h
  exact ⟨value, final, hrun, hpost value final hvalue⟩

theorem reaches_if_pos {condition : Prop} [Decidable condition]
    {other : Program Action Reply α} (hcondition : condition)
    (h : Reaches handle program state post) :
    Reaches handle (if condition then program else other) state post := by
  rwa [if_pos hcondition]

theorem reaches_if_neg {condition : Prop} [Decidable condition]
    {other : Program Action Reply α} (hcondition : ¬condition)
    (h : Reaches handle program state post) :
    Reaches handle (if condition then other else program) state post := by
  rwa [if_neg hcondition]

/-- A loop that is entered once. -/
theorem reaches_loop {τ γ : Type} {body : τ → Program Action Reply (τ ⊕ γ)} {start : τ}
    {next : γ → Program Action Reply α}
    (h : Reaches handle (body start) state fun turn middle =>
      turn.elim (fun again => Reaches handle (.loop body again next) middle post)
        fun result => Reaches handle (next result) middle post) :
    Reaches handle (.loop body start next) state post := by
  obtain ⟨turn, middle, hturn, hrest⟩ := h
  cases turn with
  | inl again =>
      obtain ⟨value, final, hloop, hpost⟩ := hrest
      exact ⟨value, final, .loop (hturn.bind hloop), hpost⟩
  | inr result =>
      obtain ⟨value, final, hnext, hpost⟩ := hrest
      exact ⟨value, final, .loop (hturn.bind hnext), hpost⟩

/-- A `forever` whose first turn is the last one. -/
theorem reaches_forever {body : Program Action Reply (Option α)}
    (h : Reaches handle body state fun turn final => ∃ value, turn = some value ∧ post value final) :
    Reaches handle (forever body) state post := by
  refine reaches_loop (h.seq ?_)
  rintro _ final ⟨value, rfl, hpost⟩
  exact reaches_done (reaches_done hpost)

end Reaches

end TelePath.Logic
