import Mathlib.Algebra.BigOperators.Group.Finset.Basic
import TelePath.Logic.Program

/-!
Ownership reasoning for programs that run concurrently.

Each thread owns a share of a commutative monoid of resources.  A rule says
which resources an action needs to see, which it uses up and which it hands back
for each reply.  A program that only acts through rules keeps every invariant the
rules keep, no matter how its actions are interleaved with those of other threads.

Part of what a thread owns is its context: resources it lets its actions see but
never gives up while the program runs.
-/

namespace TelePath.Logic

open Program hiding bind

variable {Action : Type} {Reply : Action → Type} {R : Type} [AddCommMonoid R]
variable {α β γ σ : Type}

/-- `rule action seen used given` holds when a thread that owns `seen` and `used` may
perform `action`, and then owns `seen` and some `D` with `given reply D`. -/
abbrev Rules (Action : Type) (Reply : Action → Type) (R : Type) :=
  (action : Action) → (seen used : R) → (Reply action → R → Prop) → Prop

/-- Started with the resources `P` beside its context, the program performs actions by
the rules only, and whenever it stops, its value and its resources satisfy `post`. -/
def Ensures (rule : Rules Action Reply R) (context : R) :
    {α : Type} → Program Action Reply α → (α → R → Prop) → R → Prop
  | _, .done value, post, P => post value P
  | _, .request action next, post, P =>
      ∃ seen hidden used kept given, context + kept = seen + hidden ∧ P = used + kept ∧
        rule action seen used given ∧
          ∀ reply D, given reply D → Ensures rule context (next reply) post (D + kept)
  | _, .loop (σ := σ) body state next, post, P =>
      ∃ invariant : σ → R → Prop, invariant state P ∧
        ∀ state P, invariant state P →
          Ensures rule context (body state)
            (Sum.elim invariant fun result => Ensures rule context (next result) post) P

variable {rule : Rules Action Reply R} {context : R}

@[simp] theorem ensures_done {value : α} {post : α → R → Prop} {P : R} :
    Ensures rule context (.done value) post P ↔ post value P := Iff.rfl

theorem ensures_bind {program : Program Action Reply α} {rest : α → Program Action Reply β}
    {post : β → R → Prop} {P : R} :
    Ensures rule context (program.bind rest) post P ↔
      Ensures rule context program (fun value P => Ensures rule context (rest value) post P) P := by
  induction program generalizing P with
  | done value => rfl
  | request action next ih => simp only [request_bind, Ensures, ih]
  | loop body state next _ ih =>
      have hnext : (fun result => Ensures rule context ((next result).bind rest) post) =
          fun result => Ensures rule context (next result)
            fun value => Ensures rule context (rest value) post :=
        funext fun result => funext fun P => propext (ih result)
      simp only [loop_bind, Ensures, hnext]

theorem Ensures.mono {program : Program Action Reply α} {post post' : α → R → Prop} {P : R}
    (h : Ensures rule context program post P) (himp : ∀ value P, post value P → post' value P) :
    Ensures rule context program post' P := by
  induction program generalizing P with
  | done value => exact himp _ _ h
  | request action next ih =>
      obtain ⟨seen, hidden, used, kept, given, hseen, hP, hrule, hnext⟩ := h
      exact ⟨seen, hidden, used, kept, given, hseen, hP, hrule,
        fun reply D hD => ih reply (hnext reply D hD) himp⟩
  | loop body state next ihBody ih =>
      obtain ⟨invariant, hstate, hbody⟩ := h
      refine ⟨invariant, hstate, fun state P hP => ihBody state (hbody state P hP) ?_⟩
      rintro (state | result) P hexit
      · exact hexit
      · exact ih result hexit himp

theorem Ensures.of_eq {program : Program Action Reply α} {post : α → R → Prop} {P P' : R}
    (h : Ensures rule context program post P) (heq : P' = P) :
    Ensures rule context program post P' :=
  heq ▸ h

/-- Resources a program does not need stay untouched beside it. -/
theorem Ensures.frame {program : Program Action Reply α} {post : α → R → Prop} {P : R}
    (h : Ensures rule context program post P) (extra : R) :
    Ensures rule context program (fun value P => ∃ Q, P = Q + extra ∧ post value Q)
      (P + extra) := by
  induction program generalizing P with
  | done value => exact ⟨P, rfl, h⟩
  | request action next ih =>
      obtain ⟨seen, hidden, used, kept, given, hseen, rfl, hrule, hnext⟩ := h
      refine ⟨seen, hidden + extra, used, kept + extra, given, ?_, add_assoc _ _ _, hrule,
        fun reply D hD => ?_⟩
      · rw [← add_assoc, hseen, add_assoc]
      · rw [← add_assoc]
        exact ih reply (hnext reply D hD)
  | loop body state next ihBody ih =>
      obtain ⟨invariant, hstate, hbody⟩ := h
      refine ⟨fun state P => ∃ Q, P = Q + extra ∧ invariant state Q, ⟨P, rfl, hstate⟩, ?_⟩
      rintro state _ ⟨P, rfl, hP⟩
      refine (ihBody state (hbody state P hP)).mono ?_
      rintro (state | result) _ ⟨Q, rfl, hexit⟩
      · exact ⟨Q, rfl, hexit⟩
      · exact ih result hexit

/-- What a program holds on to throughout may as well be context. -/
theorem Ensures.lend {program : Program Action Reply α} {post : α → R → Prop} {P lent : R}
    (h : Ensures rule (context + lent) program post P) :
    Ensures rule context program (fun value P => ∃ Q, P = Q + lent ∧ post value Q)
      (P + lent) := by
  induction program generalizing P with
  | done value => exact ⟨P, rfl, h⟩
  | request action next ih =>
      obtain ⟨seen, hidden, used, kept, given, hseen, rfl, hrule, hnext⟩ := h
      refine ⟨seen, hidden, used, kept + lent, given, ?_, add_assoc _ _ _, hrule,
        fun reply D hD => ?_⟩
      · rw [← hseen, add_comm kept, add_assoc]
      · rw [← add_assoc]
        exact ih reply (hnext reply D hD)
  | loop body state next ihBody ih =>
      obtain ⟨invariant, hstate, hbody⟩ := h
      refine ⟨fun state P => ∃ Q, P = Q + lent ∧ invariant state Q, ⟨P, rfl, hstate⟩, ?_⟩
      rintro state _ ⟨P, rfl, hP⟩
      refine (ihBody state (hbody state P hP)).mono ?_
      rintro (state | result) _ ⟨Q, rfl, hexit⟩
      · exact ⟨Q, rfl, hexit⟩
      · exact ih result hexit

/-- The next action goes by a rule; what the rule does not use is kept. -/
theorem ensures_act {action : Action} {rest : Reply action → Program Action Reply α}
    {post : α → R → Prop} {seen hidden used kept P : R} {given : Reply action → R → Prop}
    (hrule : rule action seen used given) (hP : P = used + kept)
    (hseen : context + kept = seen + hidden)
    (hrest : ∀ reply D, given reply D → Ensures rule context (rest reply) post (D + kept)) :
    Ensures rule context (perform action >>= rest) post P :=
  ⟨seen, hidden, used, kept, given, hseen, hP, hrule, hrest⟩

theorem ensures_last {action : Action} {post : Reply action → R → Prop}
    {seen hidden used kept P : R} {given : Reply action → R → Prop}
    (hrule : rule action seen used given) (hP : P = used + kept)
    (hseen : context + kept = seen + hidden)
    (hpost : ∀ reply D, given reply D → post reply (D + kept)) :
    Ensures rule context (perform action) post P :=
  ⟨seen, hidden, used, kept, given, hseen, hP, hrule, hpost⟩

theorem Ensures.seq {program : Program Action Reply α} {rest : α → Program Action Reply β}
    {mid : α → R → Prop} {post : β → R → Prop} {P : R}
    (h : Ensures rule context program mid P)
    (hrest : ∀ value Q, mid value Q → Ensures rule context (rest value) post Q) :
    Ensures rule context (program >>= rest) post P :=
  ensures_bind.mpr (h.mono hrest)

/-- A branch without an else, and what follows it. -/
theorem Ensures.joined {condition : Prop} [Decidable condition]
    {program : Program Action Reply Unit} {rest : Unit → Program Action Reply β}
    {mid : Unit → R → Prop} {post : β → R → Prop} {P : R}
    (h : Ensures rule context (if condition then program else pure ()) mid P)
    (hrest : ∀ Q, mid () Q → Ensures rule context (rest ()) post Q) :
    Ensures rule context (if condition then program >>= rest else rest ()) post P := by
  by_cases hcondition : condition
  · rw [if_pos hcondition] at h ⊢
    exact h.seq fun _ Q hQ => hrest Q hQ
  · rw [if_neg hcondition] at h ⊢
    exact hrest P h

/-- A call leaves what it is not given beside it. -/
theorem Ensures.call {program : Program Action Reply α} {rest : α → Program Action Reply β}
    {mid : α → R → Prop} {post : β → R → Prop} {P P' extra : R}
    (h : Ensures rule context program mid P) (hP : P' = P + extra)
    (hrest : ∀ value Q, mid value Q → Ensures rule context (rest value) post (Q + extra)) :
    Ensures rule context (program >>= rest) post P' := by
  subst hP
  refine (h.frame extra).seq ?_
  rintro value _ ⟨Q, rfl, hmid⟩
  exact hrest value Q hmid

/-- A call that may look at part of what it is not given. -/
theorem Ensures.callLent {program : Program Action Reply α} {rest : α → Program Action Reply β}
    {mid : α → R → Prop} {post : β → R → Prop} {P P' lent : R}
    (h : Ensures rule (context + lent) program mid P) (hP : P' = P + lent)
    (hrest : ∀ value Q, mid value Q → Ensures rule context (rest value) post (Q + lent)) :
    Ensures rule context (program >>= rest) post P' := by
  subst hP
  refine h.lend.seq ?_
  rintro value _ ⟨Q, rfl, hmid⟩
  exact hrest value Q hmid

/-- A loop keeps its invariant until its body leaves it. -/
theorem ensures_loop {body : σ → Program Action Reply (σ ⊕ β)} {state : σ}
    {next : β → Program Action Reply α} {post : α → R → Prop} {P : R}
    (invariant : σ → R → Prop) (hstate : invariant state P)
    (hbody : ∀ state P, invariant state P →
      Ensures rule context (body state)
        (Sum.elim invariant fun result => Ensures rule context (next result) post) P) :
    Ensures rule context (.loop body state next) post P :=
  ⟨invariant, hstate, hbody⟩

theorem ensures_forever {body : Program Action Reply (Option α)} {post : α → R → Prop} {P : R}
    (invariant : R → Prop) (hP : invariant P)
    (hbody : ∀ P, invariant P →
      Ensures rule context body (fun exit P => exit.elim (invariant P) (post · P)) P) :
    Ensures rule context (forever body) post P := by
  refine ensures_loop (fun _ => invariant) hP fun _ P hP => ?_
  rw [ensures_bind]
  refine (hbody P hP).mono ?_
  rintro (_ | result) Q hexit <;> exact hexit

theorem ensures_forEach {items : List σ} {body : σ → Program Action Reply Unit}
    {P : R} (invariant : List σ → R → Prop) (hP : invariant items P)
    (hbody : ∀ item rest P, invariant (item :: rest) P →
      Ensures rule context (body item) (fun _ P => invariant rest P) P) :
    Ensures rule context (forEach items body) (fun _ P => invariant [] P) P := by
  induction items generalizing P with
  | nil => exact hP
  | cons item rest ih =>
      rw [forEach, ensures_bind]
      exact (hbody item rest P hP).mono fun _ Q hQ => ih (P := Q) hQ

/-- Entering a loop needs nothing. -/
theorem Ensures.unfoldLoop {body : σ → Program Action Reply (σ ⊕ β)} {state : σ}
    {next : β → Program Action Reply α} {post : α → R → Prop} {P : R}
    (h : Ensures rule context (.loop body state next) post P) :
    Ensures rule context (unfoldLoop body state next) post P := by
  obtain ⟨invariant, hstate, hbody⟩ := h
  rw [Program.unfoldLoop, ensures_bind]
  refine (hbody state P hstate).mono ?_
  rintro (state | result) Q hexit
  · exact ⟨invariant, hexit, hbody⟩
  · exact hexit

theorem Ensures.enter {program : Program Action Reply α} {post : α → R → Prop} {P : R}
    (h : Ensures rule context program post P) : Ensures rule context program.enter post P := by
  cases program with
  | loop body state next => exact h.unfoldLoop
  | _ => exact h

section Soundness

variable {S : Type*}

/-- Every rule keeps the invariant, whatever the other threads own. -/
def RulesSound (exec : S → (action : Action) → Reply action → S → Prop)
    (inv : S → R → Prop) (rule : Rules Action Reply R) : Prop :=
  ∀ action seen used given, rule action seen used given →
    ∀ s others reply s', inv s (used + (seen + others)) → exec s action reply s' →
      ∃ D, given reply D ∧ inv s' (D + (seen + others))

/-- One action of a program trades by a rule, keeps the invariant and leaves a program
that still acts by the rules. -/
theorem Ensures.step {exec : S → (action : Action) → Reply action → S → Prop}
    {inv : S → R → Prop} (hsound : RulesSound exec inv rule)
    {action : Action} {next : Reply action → Program Action Reply α}
    {post : α → R → Prop} {s s' : S} {P others : R} {reply : Reply action}
    (h : Ensures rule context (.request action next) post P)
    (hinv : inv s (P + (context + others))) (hexec : exec s action reply s') :
    ∃ seen hidden used kept given D, context + kept = seen + hidden ∧ P = used + kept ∧
      rule action seen used given ∧ given reply D ∧ inv s' (D + kept + (context + others)) ∧
        Ensures rule context (next reply) post (D + kept) := by
  obtain ⟨seen, hidden, used, kept, given, hseen, rfl, hrule, hnext⟩ := h
  have hsplit : ∀ D : R, D + kept + (context + others) = D + (seen + (hidden + others)) := by
    intro D
    rw [← add_assoc seen, ← hseen, add_assoc, ← add_assoc kept, add_comm kept, add_assoc]
  rw [hsplit] at hinv
  obtain ⟨D, hD, hinv'⟩ := hsound action seen used given hrule s _ reply s' hinv hexec
  refine ⟨seen, hidden, used, kept, given, D, hseen, rfl, hrule, hD, ?_, hnext reply D hD⟩
  rw [hsplit]
  exact hinv'

end Soundness

end TelePath.Logic
