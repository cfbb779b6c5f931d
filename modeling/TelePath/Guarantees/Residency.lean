import TelePath.Adequacy
import TelePath.Schedule

/-!
Where pages are: a page is in one frame at most, and a lookup finds it there.
-/

namespace TelePath

open FrameControl Logic

variable {n blockSize threads : Nat}

def Shared.Houses (shared : Shared n blockSize) (frame : Fin n) (tag : BufferTag) : Prop :=
  (shared.descriptors frame).tag = tag ∧
    (state (shared.word frame) = .resident ∨
      state (shared.word frame) = .loading ∧ shared.pageTable.tagOf frame = some tag)

def PageTable.Before (table : PageTable n) (tag : BufferTag) (frame other : Fin n) : Prop :=
  let chain := table.chain (bucketFor n tag)
  chain.idxOf (frameId frame) < chain.idxOf (frameId other)

theorem PageTable.before_of_lookup {table : PageTable n} (hsmall : n ≤ 2 ^ 31) {tag : BufferTag}
    {frame other : Fin n} (h : table.lookupFrameId tag = some frame) (hne : other ≠ frame)
    (hother : table.tagOf other = some tag) : table.Before tag frame other := by
  obtain ⟨mappings, hwords⟩ := table.represents hsmall
  have hbucket : bucketFor n tag < PageTableWords.Geometry.bucketCount ⟨n, 1⟩ :=
    PageTableWords.bucketFor_lt ⟨n, 1⟩ tag
  rw [tagOf_eq hwords hsmall] at hother
  have hmem := PageTableWords.Mappings.mem_of_tagOf hother
  have hid : frameId other ≠ frameId frame := mt (frameId_inj hsmall).mp hne
  have hfind : ((mappings.chain ⟨n, 1⟩ (bucketFor n tag)).find? fun id =>
      true && table.memory.mapsTo id tag) = some (frameId frame) :=
    (hwords.find_chain tag fun _ => true).trans ((lookupFrameId_iff hwords hsmall).mp h)
  obtain ⟨-, ahead, behind, hchain, hahead⟩ := List.find?_eq_some_iff_append.mp hfind
  have hnodup := (hwords.frames.sublist (List.filter_sublist.map Prod.fst) :
    (mappings.chain ⟨n, 1⟩ (bucketFor n tag)).Nodup)
  have hframe : frameId frame ∉ ahead := by
    rw [hchain] at hnodup
    exact fun hmem => (List.disjoint_of_nodup_append hnodup) hmem (List.mem_cons_self ..)
  have hbehind : frameId other ∉ ahead := fun hmem' => by
    simpa [hwords.mapsTo hmem] using hahead _ hmem'
  rw [Before, chain_eq hwords hbucket, hchain, List.idxOf_append_of_notMem hframe,
    List.idxOf_append_of_notMem hbehind, List.idxOf_cons_self, List.idxOf_cons_ne _ hid.symm]
  omega

section Control

variable {shared : Shared n blockSize} {owned : Multiset (Token n blockSize)} {frame other : Fin n}
  {tag : BufferTag}

theorem Control.linked_of_houses (h : Control shared owned) (hhouses : shared.Houses frame tag) :
    (fields (shared.word frame)).state ≠ .free ∧ shared.pageTable.Maps frame (some tag) := by
  obtain ⟨htag, hresident | ⟨hloading, hlinked⟩⟩ := hhouses
  · exact ⟨fun hfree => absurd (hfree.symm.trans hresident) (by decide),
      htag ▸ (h.resident frame hresident).linked⟩
  · exact ⟨fun hfree => absurd (hfree.symm.trans hloading) (by decide), fun _ => hlinked⟩

theorem Control.lookup_of_houses (h : Control shared owned) (hsmall : n ≤ 2 ^ 31)
    (hhouses : shared.Houses frame tag) : shared.pageTable.lookupFrameId tag = some frame := by
  obtain ⟨hstate, hlinked⟩ := h.linked_of_houses hhouses
  refine h.coherent hsmall frame tag (hlinked hsmall) ?_
  simpa [Shared.isLiveFor] using ⟨hstate, hhouses.1⟩

theorem Control.stale_entry (h : Control shared owned) (hsmall : n ≤ 2 ^ 31)
    (hlookup : shared.pageTable.lookupFrameId tag = some frame) (hne : other ≠ frame)
    (hlinked : shared.pageTable.tagOf other = some tag) :
    state (shared.word other) = .free ∨ (shared.descriptors other).tag ≠ tag := by
  by_contra hlive
  rw [not_or, not_not] at hlive
  have hfound := h.coherent hsmall other tag hlinked (by simpa [Shared.isLiveFor] using hlive)
  rw [hlookup] at hfound
  exact hne (Option.some.inj hfound).symm

end Control

section Run

variable {options : Options} {start system : System n blockSize threads}
  {trace : Trace n blockSize threads}

/-- A page is being dropped: its frame is free but still linked.  Meanwhile another client
loads the page into the other frame. -/
def dropRace : List (Turn 2 1 2) :=
  [.invoke 0 (.readBufferExclusive {} none .zeroAndLock)] ++ turnsOf 0 19 ++
    [.invoke 0 (.release 0)] ++ turnsOf 0 4 ++ [.invoke 0 (.dropFileBuffers 0 0)] ++ turnsOf 0 11 ++
    [.invoke 1 (.readBufferExclusive {} none .zeroAndLock)] ++ turnsOf 1 21

end Run

end TelePath
