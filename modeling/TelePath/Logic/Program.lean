import Mathlib.Order.Basic

/-!
Sequential programs over a set of atomic actions.

A program is the tree of what one thread does next: it stops with a value,
performs one atomic action and continues with the reply, or repeats a body.
Threads interleave between requests, so everything inside one action is atomic
and everything else is not.
-/

namespace TelePath.Logic

/-- A program that performs actions from `Action`; the reply to `action` has
type `Reply action`.  `loop` repeats its body, threading a state, until the
body leaves it with a result. -/
inductive Program (Action : Type) (Reply : Action → Type) : Type → Type 1 where
  | done {α : Type} (value : α) : Program Action Reply α
  | request {α : Type} (action : Action)
      (next : Reply action → Program Action Reply α) : Program Action Reply α
  | loop {α σ β : Type} (body : σ → Program Action Reply (σ ⊕ β)) (state : σ)
      (next : β → Program Action Reply α) : Program Action Reply α

namespace Program

variable {Action : Type} {Reply : Action → Type} {α β γ σ : Type}

/-- Sequential composition. -/
def bind : Program Action Reply α → (α → Program Action Reply β) →
    Program Action Reply β
  | .done value, rest => rest value
  | .request action next, rest => .request action fun reply => bind (next reply) rest
  | .loop body state next, rest => .loop body state fun result => bind (next result) rest

instance : Monad (Program Action Reply) where
  pure := .done
  bind := bind

@[simp] theorem pure_eq (value : α) :
    (pure value : Program Action Reply α) = .done value := rfl

@[simp] theorem bind_eq (program : Program Action Reply α)
    (rest : α → Program Action Reply β) : program >>= rest = bind program rest := rfl

@[simp] theorem map_eq (f : α → β) (program : Program Action Reply α) :
    f <$> program = bind program fun value => .done (f value) := rfl

@[simp] theorem done_bind (value : α) (rest : α → Program Action Reply β) :
    bind (.done value) rest = rest value := rfl

@[simp] theorem request_bind (action : Action)
    (next : Reply action → Program Action Reply α)
    (rest : α → Program Action Reply β) :
    bind (.request action next) rest =
      .request action fun reply => bind (next reply) rest := rfl

@[simp] theorem loop_bind (body : σ → Program Action Reply (σ ⊕ γ)) (state : σ)
    (next : γ → Program Action Reply α) (rest : α → Program Action Reply β) :
    bind (.loop body state next) rest =
      .loop body state fun result => bind (next result) rest := rfl

theorem bind_assoc (program : Program Action Reply α)
    (first : α → Program Action Reply β) (second : β → Program Action Reply γ) :
    bind (bind program first) second = bind program fun value => bind (first value) second := by
  induction program with
  | done value => rfl
  | request action next ih =>
      simp only [request_bind, Program.request.injEq, heq_eq_eq, true_and]
      exact funext fun reply => ih reply first
  | loop body state next _ ih =>
      simp only [loop_bind]
      congr 1
      exact funext fun result => ih result first

/-- Perform one action and return its reply. -/
def perform (action : Action) : Program Action Reply (Reply action) :=
  .request action .done

@[simp] theorem perform_bind (action : Action)
    (rest : Reply action → Program Action Reply β) :
    bind (perform action) rest = .request action rest := rfl

/-- Repeat `body` until it leaves the loop with a result. -/
def repeatUntil (body : σ → Program Action Reply (σ ⊕ α)) (state : σ) :
    Program Action Reply α :=
  .loop body state .done

/-- Repeat `body` until it returns a result: the source's `while (true)`. -/
def forever (body : Program Action Reply (Option α)) : Program Action Reply α :=
  .loop (fun _ : Unit => bind body fun
    | none => .done (.inl ())
    | some result => .done (.inr result)) () .done

/-- Run `body` on every element in order. -/
def forEach (items : List σ) (body : σ → Program Action Reply Unit) :
    Program Action Reply Unit :=
  match items with
  | [] => .done ()
  | item :: rest => bind (body item) fun _ => forEach rest body

/-- Entering a loop once: what the program does next when it starts with one. -/
def unfoldLoop (body : σ → Program Action Reply (σ ⊕ β)) (state : σ)
    (next : β → Program Action Reply α) : Program Action Reply α :=
  bind (body state) fun
    | .inl state => .loop body state next
    | .inr result => next result

/-- A program that starts with a loop, one step into it. -/
def enter : Program Action Reply α → Program Action Reply α
  | .loop body state next => unfoldLoop body state next
  | program => program

theorem unfoldLoop_bind (body : σ → Program Action Reply (σ ⊕ γ)) (state : σ)
    (next : γ → Program Action Reply α) (rest : α → Program Action Reply β) :
    unfoldLoop body state (fun result => bind (next result) rest) =
      bind (unfoldLoop body state next) rest := by
  unfold unfoldLoop
  rw [bind_assoc]
  congr 1
  funext turn
  cases turn <;> rfl

/-- The next action of a program, if it is about to perform one. -/
def nextAction : Program Action Reply α → Option Action
  | .request action _ => some action
  | _ => none

/-- The program stops after at most `count` actions, whatever the replies are. -/
def Within : {α : Type} → Program Action Reply α → Nat → Prop
  | _, .done _, _ => True
  | _, .request _ _, 0 => False
  | _, .request _ next, count + 1 => ∀ reply, Within (next reply) count
  | _, .loop _ _ _, _ => False

/-- Every action the program can ever perform satisfies `allowed`. -/
def Uses (allowed : Action → Prop) : {α : Type} → Program Action Reply α → Prop
  | _, .done _ => True
  | _, .request action next => allowed action ∧ ∀ reply, Uses allowed (next reply)
  | _, .loop body _ next =>
      (∀ state, Uses allowed (body state)) ∧ ∀ result, Uses allowed (next result)

theorem Uses.bind {allowed : Action → Prop} {program : Program Action Reply α}
    {rest : α → Program Action Reply β} (hprogram : program.Uses allowed)
    (hrest : ∀ value, (rest value).Uses allowed) :
    (Program.bind program rest).Uses allowed := by
  induction program with
  | done value => exact hrest value
  | request action next ih =>
      exact ⟨hprogram.1, fun reply => ih reply (hprogram.2 reply) hrest⟩
  | loop body state next _ ih =>
      exact ⟨hprogram.1, fun result => ih result (hprogram.2 result) hrest⟩

theorem Uses.mono {allowed other : Action → Prop} {program : Program Action Reply α}
    (hprogram : program.Uses allowed) (h : ∀ action, allowed action → other action) :
    program.Uses other := by
  induction program with
  | done value => trivial
  | request action next ih => exact ⟨h action hprogram.1, fun reply => ih reply (hprogram.2 reply)⟩
  | loop body state next ihBody ih =>
      exact ⟨fun state => ihBody state (hprogram.1 state),
        fun result => ih result (hprogram.2 result)⟩

theorem Within.mono {program : Program Action Reply α} {count more : Nat}
    (h : program.Within count) (hle : count ≤ more) : program.Within more := by
  induction program generalizing count more with
  | done value => trivial
  | request action next ih =>
      cases count with
      | zero => exact h.elim
      | succ count =>
          obtain ⟨more, rfl⟩ := Nat.exists_eq_add_of_le' (Nat.zero_lt_of_lt hle)
          exact fun reply => ih reply (h reply) (Nat.le_of_succ_le_succ hle)
  | loop body state next _ _ => exact h.elim

theorem Within.bind {program : Program Action Reply α} {rest : α → Program Action Reply β}
    {count more : Nat} (hprogram : program.Within count)
    (hrest : ∀ value, (rest value).Within more) :
    (Program.bind program rest).Within (count + more) := by
  induction program generalizing count with
  | done value => exact (hrest value).mono (Nat.le_add_left more count)
  | request action next ih =>
      cases count with
      | zero => exact hprogram.elim
      | succ count =>
          rw [Nat.add_right_comm]
          exact fun reply => ih reply (hprogram reply) hrest
  | loop body state next _ _ => exact hprogram.elim

theorem uses_ite {allowed : Action → Prop} {condition : Prop} [Decidable condition]
    {first second : Program Action Reply α} :
    (if condition then first else second).Uses allowed ↔
      (condition → first.Uses allowed) ∧ (¬condition → second.Uses allowed) := by
  split <;> simp [*]

theorem uses_seq {allowed : Action → Prop} {program : Program Action Reply α}
    {rest : α → Program Action Reply β} (hprogram : program.Uses allowed)
    (hrest : ∀ value, (rest value).Uses allowed) : (program >>= rest).Uses allowed :=
  hprogram.bind hrest

@[grind ←] theorem uses_pure {allowed : Action → Prop} (value : α) :
    (pure value : Program Action Reply α).Uses allowed := trivial

@[grind ←] theorem uses_perform {allowed : Action → Prop} {action : Action}
    (h : allowed action) : (perform action : Program Action Reply (Reply action)).Uses allowed :=
  ⟨h, fun _ => trivial⟩

/-- One of the parts of a composition is to blame. -/
@[grind →] theorem not_uses_seq {allowed : Action → Prop} {program : Program Action Reply α}
    {rest : α → Program Action Reply β} (h : ¬(program >>= rest).Uses allowed) :
    ¬program.Uses allowed ∨ ∃ value, ¬(rest value).Uses allowed := by
  by_contra hparts
  simp only [not_or, not_exists, not_not] at hparts
  exact h (uses_seq hparts.1 hparts.2)

@[grind ←] theorem uses_forever {allowed : Action → Prop} {body : Program Action Reply (Option α)}
    (h : body.Uses allowed) : (forever body).Uses allowed := by
  refine ⟨fun _ => h.bind fun turn => ?_, fun _ => trivial⟩
  cases turn <;> trivial

@[grind ←] theorem uses_forEach {allowed : Action → Prop} {items : List σ}
    {body : σ → Program Action Reply Unit} (h : ∀ item, (body item).Uses allowed) :
    (forEach items body).Uses allowed := by
  induction items with
  | nil => trivial
  | cons item rest ih => exact (h item).bind fun _ => ih

/-- Programs that are put together from blocks. -/
inductive Built (block : ∀ ⦃α : Type⦄, Program Action Reply α → Prop) :
    ∀ ⦃α : Type⦄, Program Action Reply α → Prop where
  | block {α : Type} {program : Program Action Reply α} (h : block program) :
      Built block program
  | done {α : Type} (value : α) : Built block (.done value)
  | seq {α β : Type} {program : Program Action Reply α} {rest : α → Program Action Reply β}
      (first : Built block program) (second : ∀ value, Built block (rest value)) :
      Built block (program.bind rest)
  | loop {α σ : Type} {body : σ → Program Action Reply (σ ⊕ α)} (state : σ)
      (turn : ∀ state, Built block (body state)) : Built block (repeatUntil body state)

section Built

variable {block : ∀ ⦃α : Type⦄, Program Action Reply α → Prop}

attribute [grind ←] Built.loop

@[grind ←] theorem built_pure (value : α) :
    Built block (pure value : Program Action Reply α) := .done value

@[grind →] theorem not_built_seq {program : Program Action Reply α}
    {rest : α → Program Action Reply β} (h : ¬Built block (program >>= rest)) :
    ¬Built block program ∨ ∃ value, ¬Built block (rest value) := by
  by_contra hparts
  simp only [not_or, not_exists, not_not] at hparts
  exact h (.seq hparts.1 hparts.2)

@[grind ←] theorem built_forever {body : Program Action Reply (Option α)}
    (h : Built block body) : Built block (forever body) := by
  refine .loop () fun _ => .seq h fun turn => ?_
  cases turn <;> exact .done _

@[grind ←] theorem built_forEach {items : List σ} {body : σ → Program Action Reply Unit}
    (h : ∀ item, Built block (body item)) : Built block (forEach items body) := by
  induction items with
  | nil => exact .done ()
  | cons item rest ih => exact .seq (h item) fun _ => ih

/-- A program whose actions are blocks. -/
theorem Uses.built {allowed : Action → Prop} {program : Program Action Reply α}
    (h : program.Uses allowed)
    (hblock : ∀ action, allowed action →
      block (perform action : Program Action Reply (Reply action))) :
    Built block program := by
  induction program with
  | done value => exact .done value
  | request action next ih =>
      exact .seq (.block (hblock action h.1)) fun reply => ih reply (h.2 reply)
  | loop body state next ihBody ih =>
      exact .seq (.loop state fun state => ihBody state (h.1 state)) fun result =>
        ih result (h.2 result)

end Built

end Program

end TelePath.Logic
