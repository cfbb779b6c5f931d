import TelePath.Logic.Program

/-!
Programs that follow a discipline.

A discipline is a state machine over actions: in which states an action may be performed,
and to which state its reply leads.  A program obeys it when it performs every action in a
state that allows it, and when it stops, and each turn of a loop, at rest.
-/

namespace TelePath.Logic

variable {Action : Type} {Reply : Action → Type} {σ α β τ : Type}

structure Discipline (Action : Type) (Reply : Action → Type) (σ : Type) where
  rest : σ
  Allows : σ → Action → Prop
  next : σ → (action : Action) → Reply action → σ

namespace Discipline

/-- From one state on, the program performs allowed actions only, whatever the replies
are, and stops in the final state. -/
def Leads (discipline : Discipline Action Reply σ) (final : σ) :
    {α : Type} → σ → Program Action Reply α → Prop
  | _, state, .done _ => state = final
  | _, state, .request action next => discipline.Allows state action ∧
      ∀ reply, Leads discipline final (discipline.next state action reply) (next reply)
  | _, state, .loop body _ next => state = discipline.rest ∧
      (∀ turn, Leads discipline discipline.rest discipline.rest (body turn)) ∧
        ∀ result, Leads discipline final discipline.rest (next result)

/-- From the given state on, the program obeys the discipline and stops at rest. -/
abbrev Obeys (discipline : Discipline Action Reply σ) (state : σ)
    (program : Program Action Reply α) : Prop :=
  discipline.Leads discipline.rest state program

/-- An action that is allowed at rest and leaves the thread there. -/
def Neutral (discipline : Discipline Action Reply σ) (action : Action) : Prop :=
  discipline.Allows discipline.rest action ∧
    ∀ reply, discipline.next discipline.rest action reply = discipline.rest

variable {discipline : Discipline Action Reply σ} {state middle final : σ}
  {program : Program Action Reply α}

theorem Leads.bind {rest : α → Program Action Reply β}
    (hprogram : discipline.Leads middle state program)
    (hrest : ∀ value, discipline.Leads final middle (rest value)) :
    discipline.Leads final state (program.bind rest) := by
  induction program generalizing state with
  | done value =>
      have hstate : state = middle := hprogram
      rw [hstate]
      exact hrest value
  | request action next ih =>
      exact ⟨hprogram.1, fun reply => ih reply (hprogram.2 reply) hrest⟩
  | loop body turn next _ ih =>
      exact ⟨hprogram.1, hprogram.2.1, fun result => ih result (hprogram.2.2 result) hrest⟩

theorem Leads.unfoldLoop {body : τ → Program Action Reply (τ ⊕ β)} {turn : τ}
    {next : β → Program Action Reply α} (h : discipline.Leads final state (.loop body turn next)) :
    discipline.Leads final state (Program.unfoldLoop body turn next) := by
  obtain ⟨hstate, hbody, hnext⟩ := h
  rw [hstate]
  refine (hbody turn).bind fun result => ?_
  cases result with
  | inl turn => exact ⟨rfl, hbody, hnext⟩
  | inr result => exact hnext result

/-- A program of neutral actions stays at rest. -/
theorem obeys_of_uses (h : program.Uses discipline.Neutral) :
    discipline.Obeys discipline.rest program := by
  induction program with
  | done value => rfl
  | request action next ih =>
      refine ⟨h.1.1, fun reply => ?_⟩
      rw [h.1.2 reply]
      exact ih reply (h.2 reply)
  | loop body turn next ihBody ih =>
      exact ⟨rfl, fun turn => ihBody turn (h.1 turn), fun result => ih result (h.2 result)⟩

theorem leads_seq {rest : α → Program Action Reply β}
    (hprogram : discipline.Leads middle state program)
    (hrest : ∀ value, discipline.Leads final middle (rest value)) :
    discipline.Leads final state (program >>= rest) :=
  hprogram.bind hrest

theorem leads_perform {action : Action} {rest : Reply action → Program Action Reply α}
    (hallowed : discipline.Allows state action)
    (hrest : ∀ reply, discipline.Leads final (discipline.next state action reply) (rest reply)) :
    discipline.Leads final state (Program.perform action >>= rest) :=
  ⟨hallowed, hrest⟩

theorem leads_ite {condition : Prop} [Decidable condition]
    {first second : Program Action Reply α}
    (hfirst : condition → discipline.Leads final state first)
    (hsecond : ¬condition → discipline.Leads final state second) :
    discipline.Leads final state (if condition then first else second) := by
  split
  · exact hfirst ‹_›
  · exact hsecond ‹_›

/-- Blocks that obey the discipline make programs that do. -/
theorem obeys_of_built {block : ∀ ⦃α : Type⦄, Program Action Reply α → Prop}
    (hblock : ∀ {α : Type} {program : Program Action Reply α}, block program →
      discipline.Obeys discipline.rest program) (h : program.Built block) :
    discipline.Obeys discipline.rest program := by
  induction h with
  | block h => exact hblock h
  | done value => rfl
  | seq _ _ ihFirst ihSecond => exact ihFirst.bind ihSecond
  | loop state _ ih => exact ⟨rfl, ih, fun _ => rfl⟩

theorem obeys_forever {body : Program Action Reply (Option α)}
    (h : discipline.Obeys discipline.rest body) :
    discipline.Obeys discipline.rest (Program.forever body) :=
  obeys_of_built id (Program.built_forever
    (.block h : body.Built fun _ => discipline.Obeys discipline.rest))

theorem obeys_forEach {items : List τ} {body : τ → Program Action Reply Unit}
    (h : ∀ item, discipline.Obeys discipline.rest (body item)) :
    discipline.Obeys discipline.rest (Program.forEach items body) :=
  obeys_of_built id (Program.built_forEach fun item =>
    (.block (h item) : (body item).Built fun _ => discipline.Obeys discipline.rest))

end Discipline

end TelePath.Logic
