import Mathlib.Data.List.Nodup
import Mathlib.Logic.Function.Basic

/-!
Items that are always in exactly one pair of hands.

Holders keep lists of items.  `Custody holds pending` says that the pending items,
and no others, are held, each by exactly one holder and once.  The rules below say
how items come into custody, change hands and leave it; what a run does to the items
is a chain of them.
-/

namespace TelePath.Logic

variable {η ι : Type}

structure Custody (holds : η → List ι) (pending : ι → Prop) : Prop where
  nodup : ∀ holder, (holds holder).Nodup
  unique : ∀ holder other, ∀ item ∈ holds holder, item ∈ holds other → holder = other
  held_iff : ∀ item, (∃ holder, item ∈ holds holder) ↔ pending item

namespace Custody

variable {holds : η → List ι} {pending : ι → Prop}

theorem pending_of_mem (h : Custody holds pending) {holder : η} {item : ι}
    (hmem : item ∈ holds holder) : pending item :=
  (h.held_iff item).mp ⟨holder, hmem⟩

theorem congr {next : ι → Prop} (h : Custody holds pending)
    (hsame : ∀ item, pending item ↔ next item) : Custody holds next :=
  ⟨h.nodup, h.unique, fun item => (h.held_iff item).trans (hsame item)⟩

theorem relabel {next : η → List ι} (h : Custody holds pending)
    (hnext : ∀ holder, next holder = holds holder) : Custody next pending :=
  funext hnext ▸ h

variable [DecidableEq η] (holder : η)

/-- One holder's items become `items`: some of those it held, or ones that nobody
held. -/
theorem update (h : Custody holds pending) (items : List ι) (hnodup : items.Nodup)
    (hfree : ∀ item ∈ items, ∀ other, other ≠ holder → item ∉ holds other) :
    Custody (Function.update holds holder items)
      fun item => item ∈ items ∨ (pending item ∧ item ∉ holds holder) where
  nodup := by grind [h.nodup]
  unique := by grind [h.unique]
  held_iff item := by
    have hitem := h.held_iff item
    constructor
    · grind [h.unique, h.pending_of_mem]
    · rintro (hmine | ⟨hpending, hother⟩)
      · exact ⟨holder, by simpa using hmine⟩
      · obtain ⟨other, hold⟩ := hitem.mpr hpending
        exact ⟨other, by grind⟩

/-- New items come into the custody of one holder. -/
theorem receive (h : Custody holds pending) {items : List ι} (hnodup : items.Nodup)
    (hnew : ∀ item ∈ items, ¬pending item) :
    Custody (Function.update holds holder (holds holder ++ items))
      fun item => pending item ∨ item ∈ items := by
  have hold : ∀ {item other}, item ∈ holds other → item ∉ items := fun hother hitem =>
    hnew _ hitem (h.pending_of_mem hother)
  refine (h.update holder (holds holder ++ items) ?_ ?_).congr ?_
  · exact List.nodup_append.mpr ⟨h.nodup holder, hnodup, by grind⟩
  · grind [h.unique]
  · grind [h.pending_of_mem]

/-- A holder lets some of its items go. -/
theorem release (h : Custody holds pending) {kept gone : List ι}
    (hperm : (holds holder).Perm (kept ++ gone)) :
    Custody (Function.update holds holder kept) fun item => pending item ∧ item ∉ gone := by
  have hnodup := List.nodup_append.mp (hperm.nodup_iff.mp (h.nodup holder))
  have hmem : ∀ item, item ∈ holds holder ↔ item ∈ kept ∨ item ∈ gone := fun item => by
    rw [hperm.mem_iff, List.mem_append]
  refine (h.update holder kept hnodup.1 ?_).congr ?_
  · grind [h.unique]
  · grind [h.pending_of_mem]

/-- Items change hands. -/
theorem transfer (h : Custody holds pending) (taker : η) (hne : taker ≠ holder)
    {kept given : List ι} (hperm : (holds holder).Perm (kept ++ given)) :
    Custody (Function.update (Function.update holds holder kept) taker (holds taker ++ given))
      pending := by
  have hgiven : ∀ item ∈ given, pending item := fun item hitem =>
    h.pending_of_mem (hperm.mem_iff.mpr (List.mem_append_right _ hitem))
  have hnodup := (List.nodup_append.mp (hperm.nodup_iff.mp (h.nodup holder))).2.1
  have hreceived := (h.release holder hperm).receive taker hnodup
    fun item hitem hpending => hpending.2 hitem
  rw [Function.update_of_ne hne] at hreceived
  exact hreceived.congr fun item => by grind

end Custody

end TelePath.Logic
