import Mathlib.Data.List.Nodup
import Mathlib.Logic.Function.Basic

/-!
Lists that are linked through an array.

`next` gives the node behind a node, and `stop` is the value that ends a list.
-/

namespace TelePath.Logic

variable {ι : Type}

/-- Following `next` from `start` on visits `nodes` and then meets `stop`. -/
def Linked (next : ι → ι) (stop : ι) : ι → List ι → Prop
  | start, [] => start = stop
  | start, node :: nodes => start = node ∧ node ≠ stop ∧ Linked next stop (next node) nodes

namespace Linked

variable {next next' : ι → ι} {stop start node : ι} {nodes others before after : List ι}

theorem unique (h : Linked next stop start nodes) (h' : Linked next stop start others) :
    nodes = others := by
  induction nodes generalizing start others with
  | nil =>
      cases others with
      | nil => rfl
      | cons other others => exact absurd (h'.1.symm.trans h) h'.2.1
  | cons node nodes ih =>
      cases others with
      | nil => exact absurd (h.1.symm.trans h') h.2.1
      | cons other others =>
          obtain ⟨rfl, -, hrest⟩ := h
          obtain ⟨rfl, -, hrest'⟩ := h'
          rw [ih hrest hrest']

/-- Links outside of the list do not matter. -/
theorem congr (h : Linked next stop start nodes) (hnext : ∀ node ∈ nodes, next' node = next node) :
    Linked next' stop start nodes := by
  induction nodes generalizing start with
  | nil => exact h
  | cons node nodes ih =>
      refine ⟨h.1, h.2.1, ?_⟩
      rw [hnext node List.mem_cons_self]
      exact ih h.2.2 fun other hother => hnext other (List.mem_cons_of_mem node hother)

/-- The rest of a list is a list. -/
theorem suffix (h : Linked next stop start (before ++ after)) :
    ∃ middle, Linked next stop middle after := by
  induction before generalizing start with
  | nil => exact ⟨start, h⟩
  | cons node before ih => exact ih h.2.2

/-- No node is visited twice: what follows it would be longer than itself. -/
theorem nodup (h : Linked next stop start nodes) : nodes.Nodup := by
  induction nodes generalizing start with
  | nil => exact List.nodup_nil
  | cons node nodes ih =>
      obtain ⟨-, hnode, hrest⟩ := h
      refine List.nodup_cons.mpr ⟨fun hmem => ?_, ih hrest⟩
      obtain ⟨before, after, rfl⟩ := List.append_of_mem hmem
      obtain ⟨middle, hmiddle⟩ := hrest.suffix
      obtain ⟨rfl, -, hafter⟩ := hmiddle
      have hlength := congrArg List.length (hrest.unique hafter)
      simp only [List.length_append, List.length_cons] at hlength
      omega

/-- A node is not met again. -/
theorem notMem (h : Linked next stop start (before ++ node :: after)) : node ∉ before ++ after :=
  (List.nodup_cons.mp (List.nodup_middle.mp h.nodup)).1

theorem start_eq (h : Linked next stop start nodes) : start = nodes.headD stop := by
  cases nodes with
  | nil => exact h
  | cons node nodes => exact h.1

theorem start_ne {previous : ι} (h : Linked next stop start (before ++ previous :: node :: after)) :
    start ≠ node := by
  have hnot : node ∉ before ++ [previous] ++ after := notMem (List.append_cons .. ▸ h)
  rintro rfl
  cases before with
  | nil => exact hnot (by simp [h.1])
  | cons first before => exact hnot (by simp [h.1])

theorem ne_stop (h : Linked next stop start nodes) (hmem : node ∈ nodes) : node ≠ stop := by
  induction nodes generalizing start with
  | nil => cases hmem
  | cons other nodes ih =>
      rcases List.mem_cons.mp hmem with rfl | hrest
      · exact h.2.1
      · exact ih h.2.2 hrest

/-- Behind a node of the list comes the rest of the list. -/
theorem next_linked (h : Linked next stop start (before ++ node :: after)) :
    Linked next stop (next node) after := by
  obtain ⟨middle, -, -, hafter⟩ := h.suffix
  exact hafter

/-- A list that starts at a node starts with it. -/
theorem eq_cons (h : Linked next stop start nodes) (hstart : start ≠ stop) :
    ∃ rest, nodes = start :: rest := by
  cases nodes with
  | nil => exact absurd h hstart
  | cons other rest => exact ⟨rest, by rw [h.1]⟩

/-- The part behind a node is replaced. -/
theorem splice {target : ι} (h : Linked next stop start (before ++ node :: after))
    (hothers : Linked next' stop target others) (hnext : ∀ other ∈ before, next' other = next other)
    (hnode : next' node = target) : Linked next' stop start (before ++ node :: others) := by
  induction before generalizing start with
  | nil => exact ⟨h.1, h.2.1, hnode ▸ hothers⟩
  | cons first before ih =>
      refine ⟨h.1, h.2.1, ?_⟩
      rw [hnext first List.mem_cons_self]
      exact ih h.2.2 fun other hother => hnext other (List.mem_cons_of_mem first hother)

variable [DecidableEq ι]

/-- A node is put in front. -/
theorem push (h : Linked next stop start nodes) (hnode : node ∉ nodes) (hstop : node ≠ stop) :
    Linked (Function.update next node start) stop node (node :: nodes) := by
  refine ⟨rfl, hstop, ?_⟩
  rw [Function.update_self]
  refine h.congr fun other hother => Function.update_of_ne ?_ ..
  rintro rfl
  exact hnode hother

/-- Taking out the node behind `node`. -/
theorem skip {victim : ι} (h : Linked next stop start (before ++ node :: victim :: after)) :
    Linked (Function.update next node (next victim)) stop start (before ++ node :: after) := by
  have hnode : ∀ other, other ∈ before ++ victim :: after → other ≠ node := by
    rintro other hother rfl
    exact h.notMem hother
  have hafter : Linked (Function.update next node (next victim)) stop (next victim) after :=
    h.next_linked.2.2.congr fun other hother =>
      Function.update_of_ne (hnode other (by simp [hother])) ..
  exact h.splice hafter (fun other hother =>
    Function.update_of_ne (hnode other (List.mem_append_left _ hother)) ..) (Function.update_self ..)

/-- Taking out a node, with the one before it at hand. -/
theorem erase {previous : ι} (h : Linked next stop start (before ++ node :: after))
    (hprevious : previous = before.reverse.headD stop) :
    Linked (if previous ≠ stop then Function.update next previous (next node) else next) stop
      (if previous ≠ stop then start else next node) (before ++ after) := by
  subst hprevious
  rcases List.eq_nil_or_concat' before with rfl | ⟨front, last, rfl⟩
  · simpa using h.2.2
  · have hlast : last ≠ stop := h.ne_stop (by simp)
    rw [List.reverse_append, List.reverse_singleton, List.singleton_append, List.headD_cons,
      if_pos hlast, if_pos hlast]
    simp only [List.append_assoc, List.singleton_append] at h ⊢
    exact h.skip

end Linked

end TelePath.Logic
