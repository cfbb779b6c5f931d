import TelePath.Buffer.FrameFields
import TelePath.Invariant.Rules

/-!
The invariant that ties every control word to the rights that threads and parked
objects own, and the page table to the frames.
-/

namespace TelePath

open FrameControl

variable {n blockSize : Nat}

/-- The record of one frame's word counts exactly the rights there are over it. -/
structure Counts (record : ControlFields) (freeCount : Nat) (held : Right → Nat) : Prop where
  valid : record.state ≠ .invalid
  pins : record.pins = held .pin + held .loading
  shared : record.shared = held .shared
  exclusive : held .exclusive = if record.exclusive then 1 else 0
  latch : record.exclusive = true → record.shared = 0
  loading : held .loading = if record.state = .loading then 1 else 0
  free : held .free + freeCount = if record.state = .free then 1 else 0
  pinned : 0 < held .pin → record.state = .resident
  readers : held .reader = held .shared
  writers : held .writer = held .exclusive
  queued : held .queued = if record.queued then 1 else 0
  active : held .active = if record.active then 1 else 0
  single : held .queued + held .active ≤ 1
  writing : record.writeback = true → record.state = .resident ∧ record.dirty = true
  clean : record.dirty = true → record.state = .resident

/-- Where a frame stands in the page table while it is being loaded. -/
def LoadStage.Holds (table : PageTable n) (frame : Fin n) (tag : BufferTag) (tracked : Bool) :
    LoadStage → Prop
  | .fresh => table.Maps frame none
  | .claimed => table.Maps frame (some tag)
  | .evicting old => table.Maps frame (some old) ∧ tag = old
  | .tagged new old => tag = new ∧ table.Keyed frame old
  | .installed new _ => table.Maps frame (some new) ∧ tag = new
  | .recorded new _ => table.Maps frame (some new) ∧ tag = new ∧ tracked = true
  | .unmapped => table.Maps frame none

def FreeStage.Holds (table : PageTable n) (frame : Fin n) : FreeStage → Prop
  | .discarded old => table.Keyed frame (some old)
  | .unlinked => table.Maps frame none

/-- The page a writeback knows its frame to carry. -/
def WritebackStage.tag? : WritebackStage blockSize → Option BufferTag
  | .named _ tag | .copied tag _ | .begun tag _ | .writing tag _ _ | .written tag _ => some tag
  | _ => none

/-- What holding a token says about frames and the page table. -/
def Token.Holds (shared : Shared n blockSize) : Token n blockSize → Prop
  | .pin frame tag => (shared.descriptors frame).tag = tag
  | .deposited _ left => (shared.descriptors left.frame).tag = left.tag
  | .loading frame stage =>
      stage.Holds shared.pageTable frame (shared.descriptors frame).tag (shared.tracked frame)
  | .free frame stage => stage.Holds shared.pageTable frame
  | .writeback frame stage => ∀ tag, stage.tag? = some tag → (shared.descriptors frame).tag = tag
  | _ => True

theorem Token.Holds.congr {shared shared' : Shared n blockSize} {token : Token n blockSize}
    (h : token.Holds shared)
    (htag : ∀ frame, (shared'.descriptors frame).tag = (shared.descriptors frame).tag)
    (htable : shared'.pageTable = shared.pageTable) (htracked : shared'.tracked = shared.tracked) :
    token.Holds shared' := by
  cases token with
  | pin frame tag => exact (htag frame).trans h
  | deposited id left => exact (htag left.frame).trans h
  | loading frame stage =>
      rw [Token.Holds, htag, htable, htracked]
      exact h
  | free frame stage =>
      rw [Token.Holds, htable]
      exact h
  | writeback frame stage => exact fun tag htagged => (htag frame).trans (h tag htagged)
  | _ => trivial

/-- A resident frame is tracked and linked under its own tag. -/
structure ResidentLinked (shared : Shared n blockSize) (frame : Fin n) : Prop where
  tracked : shared.tracked frame = true
  linked : shared.pageTable.Maps frame (some (shared.descriptors frame).tag)

/-- The invariant, with `owned` all tokens there are. -/
structure Control (shared : Shared n blockSize) (owned : Multiset (Token n blockSize)) :
    Prop where
  counts : ∀ frame, Counts (fields (shared.word frame)) (shared.freeList.count frame)
    (held owned frame)
  holds : ∀ token ∈ owned, token.Holds shared
  resident : ∀ frame, (fields (shared.word frame)).state = .resident →
    ResidentLinked shared frame
  freeUnlinked : ∀ frame ∈ shared.freeList, shared.pageTable.Maps frame none
  coherent : shared.pageTable.Coherent shared.isLiveFor

namespace Control

variable {shared : Shared n blockSize} {owned used given rest : Multiset (Token n blockSize)}
  {frame : Fin n}

theorem resident_of_pin (h : Control shared owned) (tag : BufferTag)
    (hpin : .pin frame tag ∈ owned) : (fields (shared.word frame)).state = .resident :=
  (h.counts frame).pinned (held_pos hpin (by simp [Token.rights]))

theorem tag_of_pin (h : Control shared owned) {tag : BufferTag}
    (hpin : .pin frame tag ∈ owned) : (shared.descriptors frame).tag = tag :=
  h.holds _ hpin

theorem state_of_loading (h : Control shared owned) {stage : LoadStage}
    (hloading : .loading frame stage ∈ owned) :
    (fields (shared.word frame)).state = .loading := by
  have hpos : 0 < held owned frame .loading := held_pos hloading (by simp [Token.rights])
  have hcount := (h.counts frame).loading
  by_contra hstate
  rw [if_neg hstate] at hcount
  omega

theorem state_of_free (h : Control shared owned) {stage : FreeStage}
    (hfree : .free frame stage ∈ owned) : (fields (shared.word frame)).state = .free := by
  have hpos : 0 < held owned frame .free := held_pos hfree (by simp [Token.rights])
  have hcount := (h.counts frame).free
  by_contra hstate
  rw [if_neg hstate] at hcount
  omega

theorem of_writeback (h : Control shared owned) {stage : WritebackStage blockSize}
    (hwriteback : .writeback frame stage ∈ owned) :
    (fields (shared.word frame)).writeback = true ∧
      (fields (shared.word frame)).state = .resident ∧
      (fields (shared.word frame)).dirty = true := by
  have hbit : (fields (shared.word frame)).writeback = true := by
    have hcounts := h.counts frame
    cases hactive : stage.active with
    | false =>
        have hpos : 0 < held owned frame .queued :=
          held_pos hwriteback (by simp [Token.rights, hactive])
        by_contra hoff
        simp only [ControlFields.writeback, Bool.or_eq_true, not_or] at hoff
        have hcount := hcounts.queued
        rw [if_neg hoff.1] at hcount
        omega
    | true =>
        have hpos : 0 < held owned frame .active :=
          held_pos hwriteback (by simp [Token.rights, hactive])
        by_contra hoff
        simp only [ControlFields.writeback, Bool.or_eq_true, not_or] at hoff
        have hcount := hcounts.active
        rw [if_neg hoff.2] at hcount
        omega
  exact ⟨hbit, (h.counts frame).writing hbit⟩

theorem of_exclusive (h : Control shared owned) (hexclusive : .exclusive frame ∈ owned) :
    (fields (shared.word frame)).exclusive = true ∧ held owned frame .exclusive = 1 ∧
      held owned frame .shared = 0 := by
  have hpos : 0 < held owned frame .exclusive := held_pos hexclusive (by simp [Token.rights])
  have hcount := (h.counts frame).exclusive
  have hbit : (fields (shared.word frame)).exclusive = true := by
    by_contra hoff
    rw [if_neg hoff] at hcount
    omega
  rw [if_pos hbit] at hcount
  exact ⟨hbit, hcount, (h.counts frame).shared ▸ (h.counts frame).latch hbit⟩

theorem congr {shared' : Shared n blockSize} (h : Control shared owned)
    (hword : ∀ frame, shared'.word frame = shared.word frame)
    (htag : ∀ frame, (shared'.descriptors frame).tag = (shared.descriptors frame).tag)
    (htable : shared'.pageTable = shared.pageTable)
    (hfree : shared'.freeList = shared.freeList) (htracked : shared'.tracked = shared.tracked) :
    Control shared' owned := by
  refine ⟨fun frame => ?_, fun token hmem => ?_, fun frame hstate => ?_, ?_, ?_⟩
  · rw [hword, hfree]
    exact h.counts frame
  · exact (h.holds token hmem).congr htag htable htracked
  · rw [hword] at hstate
    obtain ⟨htr, hlinked⟩ := h.resident frame hstate
    exact ⟨by rwa [htracked], by rwa [htable, htag]⟩
  · rw [htable, hfree]
    exact h.freeUnlinked
  · have hlive : shared'.isLiveFor = shared.isLiveFor := by
      funext tag frame
      simp only [Shared.isLiveFor, hword, htag]
    rw [htable, hlive]
    exact h.coherent

theorem retoken (h : Control shared (used + rest))
    (hrights : ∀ frame right, held given frame right = held used frame right)
    (hholds : ∀ token ∈ given, token.Holds shared) : Control shared (given + rest) := by
  refine ⟨fun frame => ?_, fun token hmem => ?_, h.resident, h.freeUnlinked, h.coherent⟩
  · have hheld : held (given + rest) frame = held (used + rest) frame := by
      funext right
      rw [held_add, held_add, hrights]
    rw [hheld]
    exact h.counts frame
  · rcases Multiset.mem_add.mp hmem with hgiven | hrest
    · exact hholds token hgiven
    · exact h.holds token (Multiset.mem_add.mpr (.inr hrest))

end Control

theorem tag_setWord (shared : Shared n blockSize) (frame other : Fin n) (word : Word) :
    ((shared.setWord frame word).descriptors other).tag = (shared.descriptors other).tag := by
  by_cases hother : other = frame
  · subst hother
    simp [Shared.setWord, Shared.setDescriptor]
  · simp [Shared.setWord, Shared.setDescriptor, hother]

/-- Changing one control word and the rights over its frame keeps the invariant when
the new word counts the new rights.  `hlive` says that a frame comes back to life only
while it is on no chain, so the page table stays coherent. -/
theorem Control.setWord {shared : Shared n blockSize}
    {used given rest : Multiset (Token n blockSize)}
    (h : Control shared (used + rest)) (frame : Fin n) (word : Word)
    (hcounts : Counts (fields word) (shared.freeList.count frame) (held (given + rest) frame))
    (hothers : ∀ other, other ≠ frame → ∀ right, held given other right = held used other right)
    (hholds : ∀ token ∈ given, token.Holds shared)
    (hresident : (fields word).state = .resident → ResidentLinked shared frame)
    (hlive : (fields word).state ≠ .free →
      (fields (shared.word frame)).state ≠ .free ∨ shared.pageTable.Maps frame none) :
    Control (shared.setWord frame word) (given + rest) := by
  have hword : ∀ other, other ≠ frame →
      (shared.setWord frame word).word other = shared.word other :=
    fun other hne => shared.word_setWord_of_ne word hne
  have hlinked : ∀ other, ResidentLinked shared other →
      ResidentLinked (shared.setWord frame word) other := by
    rintro other ⟨htracked, hmaps⟩
    exact ⟨htracked, by rwa [tag_setWord]⟩
  refine ⟨fun other => ?_, fun token hmem => ?_, fun other hstate => ?_, h.freeUnlinked, ?_⟩
  · by_cases hne : other = frame
    · subst hne
      rw [Shared.word_setWord_self]
      exact hcounts
    · have hheld : held (given + rest) other = held (used + rest) other := by
        funext right
        rw [held_add, held_add, hothers other hne]
      rw [hword other hne, hheld]
      exact h.counts other
  · refine Token.Holds.congr ?_ (tag_setWord shared frame · word) rfl rfl
    rcases Multiset.mem_add.mp hmem with hgiven | hrest
    · exact hholds token hgiven
    · exact h.holds token (Multiset.mem_add.mpr (.inr hrest))
  · by_cases hne : other = frame
    · subst hne
      rw [Shared.word_setWord_self] at hstate
      exact hlinked other (hresident hstate)
    · rw [hword other hne] at hstate
      exact hlinked other (h.resident other hstate)
  · intro hsmall other tag htag hother
    refine h.coherent hsmall other tag htag ?_
    simp only [Shared.isLiveFor, decide_eq_true_eq, tag_setWord] at hother ⊢
    refine ⟨?_, hother.2⟩
    by_cases hne : other = frame
    · subst hne
      rw [Shared.word_setWord_self] at hother
      refine (hlive hother.1).resolve_right fun hunmapped => ?_
      cases (hunmapped hsmall).symm.trans htag
    · rw [hword other hne] at hother
      exact hother.1

end TelePath
