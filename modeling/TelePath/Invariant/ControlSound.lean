import TelePath.Invariant.ControlTrades

/-!
The owner of a frame that is not resident may change its tag, its chain and whether the
replacer tracks it.  With the transitions of the control word this covers every trade.
-/

namespace TelePath

open FrameControl

variable {n blockSize : Nat}

/-- Two states agree on what tokens say about a frame. -/
structure Shared.SameFrame (shared shared' : Shared n blockSize) (frame : Fin n) : Prop where
  tag : (shared'.descriptors frame).tag = (shared.descriptors frame).tag
  mapped : n ≤ 2 ^ 31 → shared'.pageTable.tagOf frame = shared.pageTable.tagOf frame
  tracked : shared'.tracked frame = shared.tracked frame

theorem Shared.SameFrame.maps {shared shared' : Shared n blockSize} {frame : Fin n}
    (hsame : shared.SameFrame shared' frame) (tag : Option BufferTag) :
    shared'.pageTable.Maps frame tag ↔ shared.pageTable.Maps frame tag :=
  forall_congr' fun hsmall => by rw [hsame.mapped hsmall]

theorem Shared.SameFrame.keyed {shared shared' : Shared n blockSize} {frame : Fin n}
    (hsame : shared.SameFrame shared' frame) (tag : Option BufferTag) :
    shared'.pageTable.Keyed frame tag ↔ shared.pageTable.Keyed frame tag :=
  forall_congr' fun hsmall => by rw [hsame.mapped hsmall]

theorem LoadStage.Holds.same {shared shared' : Shared n blockSize} {frame : Fin n}
    {stage : LoadStage} (hsame : shared.SameFrame shared' frame)
    (h : stage.Holds shared.pageTable frame (shared.descriptors frame).tag
      (shared.tracked frame)) :
    stage.Holds shared'.pageTable frame (shared'.descriptors frame).tag
      (shared'.tracked frame) := by
  cases stage <;>
    simpa only [LoadStage.Holds, hsame.tag, hsame.maps, hsame.keyed, hsame.tracked] using h

theorem FreeStage.Holds.same {shared shared' : Shared n blockSize} {frame : Fin n}
    {stage : FreeStage} (hsame : shared.SameFrame shared' frame)
    (h : stage.Holds shared.pageTable frame) : stage.Holds shared'.pageTable frame := by
  cases stage <;> simpa only [FreeStage.Holds, hsame.maps, hsame.keyed] using h

/-- The frame that a token says something about. -/
def Token.subject : Token n blockSize → Option (Fin n)
  | .pin frame _ | .loading frame _ | .free frame _ | .writeback frame _ => some frame
  | .deposited _ left => some left.frame
  | _ => none

theorem Token.Holds.same {shared shared' : Shared n blockSize} {token : Token n blockSize}
    (h : token.Holds shared)
    (hsame : ∀ frame, token.subject = some frame → shared.SameFrame shared' frame) :
    token.Holds shared' := by
  cases token with
  | pin frame tag => exact (hsame frame rfl).tag.trans h
  | deposited id left => exact (hsame left.frame rfl).tag.trans h
  | loading frame stage => exact LoadStage.Holds.same (hsame frame rfl) h
  | free frame stage => exact FreeStage.Holds.same (hsame frame rfl) h
  | writeback frame stage =>
      exact fun tag htagged => (hsame frame rfl).tag.trans (h tag htagged)
  | _ => trivial

namespace Control

variable {shared shared' : Shared n blockSize} {used given rest : Multiset (Token n blockSize)}
  {frame : Fin n} {old new : Token n blockSize}

theorem agrees (h : Control shared rest) (hagrees : shared.Agrees shared') :
    Control shared' rest :=
  h.congr hagrees.word hagrees.tag hagrees.pageTable hagrees.freeList hagrees.tracked

theorem elsewhere (h : Control shared rest) (hdescriptors : shared'.descriptors = shared.descriptors)
    (htable : shared'.pageTable = shared.pageTable)
    (hlist : shared'.freeList = shared.freeList) (htracked : shared'.tracked = shared.tracked) :
    Control shared' rest :=
  h.congr (fun frame => by rw [Shared.word, hdescriptors, Shared.word])
    (fun frame => by rw [hdescriptors]) htable hlist htracked

theorem owner_loading (frame : Fin n) (stage : LoadStage) :
    held {(.loading frame stage : Token n blockSize)} frame .loading +
      held {(.loading frame stage : Token n blockSize)} frame .free = 1 := by
  simp [Token.rights]

theorem owner_free (frame : Fin n) (stage : FreeStage) :
    held {(.free frame stage : Token n blockSize)} frame .loading +
      held {(.free frame stage : Token n blockSize)} frame .free = 1 := by
  simp [Token.rights]

theorem subject_ne (h : Control shared ({old} + rest))
    (howner : held {old} frame .loading + held {old} frame .free = 1)
    {token : Token n blockSize} (hmem : token ∈ rest) : token.subject ≠ some frame := by
  have hcounts := h.counts frame
  have hloading := hcounts.loading
  have hfree := hcounts.free
  rw [held_add] at hloading hfree
  have hstate : (fields (shared.word frame)).state ≠ .resident := by
    intro hstate
    simp only [hstate, reduceCtorEq, if_false] at hloading hfree
    omega
  have hall : token ∈ {old} + rest := Multiset.mem_add.mpr (.inr hmem)
  intro hsubject
  cases token with
  | pin other tag =>
      cases hsubject
      exact hstate (h.resident_of_pin tag hall)
  | deposited id left =>
      cases hsubject
      exact hstate (hcounts.pinned (held_pos hall (by simp [Token.rights])))
  | writeback other stage =>
      cases hsubject
      exact hstate (h.of_writeback hall).2.1
  | loading other stage =>
      cases hsubject
      have hpos : 0 < held rest frame .loading := held_pos hmem (by simp [Token.rights])
      simp only [h.state_of_loading hall, reduceCtorEq, if_true, if_false] at hloading hfree
      omega
  | free other stage =>
      cases hsubject
      have hpos : 0 < held rest frame .free := held_pos hmem (by simp [Token.rights])
      simp only [h.state_of_free hall, reduceCtorEq, if_true, if_false] at hloading hfree
      omega
  | _ => cases hsubject

theorem setOwned (h : Control shared ({old} + rest))
    (howner : held {old} frame .loading + held {old} frame .free = 1)
    (hword : ∀ other, shared'.word other = shared.word other)
    (hlist : shared'.freeList = shared.freeList)
    (hothers : ∀ other, other ≠ frame → shared.SameFrame shared' other)
    (hrights : new.rights = old.rights) (hholds : new.Holds shared')
    (hcoherent : shared'.pageTable.Coherent shared'.isLiveFor) :
    Control shared' ({new} + rest) := by
  have hcounts := h.counts frame
  have hloading := hcounts.loading
  have hfree := hcounts.free
  rw [held_add] at hloading hfree
  refine ⟨fun other => ?_, fun token hmem => ?_, fun other hstate => ?_, fun other hmem => ?_,
    hcoherent⟩
  · have hheld : held ({new} + rest) other = held ({old} + rest) other := by
      funext right
      simp only [held_add, held_singleton, hrights]
    rw [hword, hlist, hheld]
    exact h.counts other
  · rcases Multiset.mem_add.mp hmem with hnew | hrest
    · rw [Multiset.mem_singleton.mp hnew]
      exact hholds
    · refine (h.holds token (Multiset.mem_add.mpr (.inr hrest))).same fun other hsubject => ?_
      exact hothers other fun heq => h.subject_ne howner hrest (heq ▸ hsubject)
  · rw [hword] at hstate
    have hne : other ≠ frame := by
      rintro rfl
      simp only [hstate, reduceCtorEq, if_false] at hloading hfree
      omega
    have hsame := hothers other hne
    obtain ⟨htracked, hlinked⟩ := h.resident other hstate
    exact ⟨by rwa [hsame.tracked], by rwa [hsame.maps, hsame.tag]⟩
  · rw [hlist] at hmem
    have hne : other ≠ frame := by
      rintro rfl
      have hpos := List.count_pos_iff.mpr hmem
      by_cases hstate : (fields (shared.word other)).state = .free
      · simp only [hstate, reduceCtorEq, if_true, if_false] at hloading hfree
        omega
      · rw [if_neg hstate] at hfree
        omega
    exact ((hothers other hne).maps none).mpr (h.freeUnlinked other hmem)

theorem storeTag (h : Control shared ({old} + rest))
    (howner : held {old} frame .loading + held {old} frame .free = 1)
    (hlive : n ≤ 2 ^ 31 → ∀ key, shared.pageTable.tagOf frame = some key →
      shared.isLiveFor key frame = true) (tag : BufferTag)
    (hrights : new.rights = old.rights)
    (hholds : new.Holds (shared.setDescriptor frame ({ · with tag := tag }))) :
    Control (shared.setDescriptor frame ({ · with tag := tag })) ({new} + rest) := by
  have hword : ∀ other,
      (shared.setDescriptor frame ({ · with tag := tag })).word other = shared.word other := by
    intro other
    by_cases hne : other = frame
    · subst hne
      simp [Shared.word, Shared.setDescriptor]
    · simp [Shared.word, Shared.setDescriptor, hne]
  have htag : ∀ other, other ≠ frame →
      ((shared.setDescriptor frame ({ · with tag := tag })).descriptors other).tag =
        (shared.descriptors other).tag := by
    intro other hne
    simp [Shared.setDescriptor, hne]
  refine h.setOwned howner hword rfl (fun other hne => ⟨htag other hne, fun _ => rfl, rfl⟩)
    hrights hholds ?_
  intro hsmall other key hkey hother
  refine h.coherent hsmall other key hkey ?_
  by_cases hne : other = frame
  · subst hne
    exact hlive hsmall key hkey
  · rw [Shared.isLiveFor, hword, htag other hne] at hother
    exact hother

theorem storeTagUnlinked (h : Control shared ({old} + rest))
    (howner : held {old} frame .loading + held {old} frame .free = 1)
    (hunlinked : shared.pageTable.Maps frame none) (tag : BufferTag)
    (hrights : new.rights = old.rights)
    (hholds : new.Holds (shared.setDescriptor frame ({ · with tag := tag }))) :
    Control (shared.setDescriptor frame ({ · with tag := tag })) ({new} + rest) :=
  h.storeTag howner (fun hsmall _ hkey => nomatch hunlinked.keyed hsmall _ hkey) tag hrights hholds

theorem setTable (h : Control shared ({old} + rest))
    (howner : held {old} frame .loading + held {old} frame .free = 1) {table : PageTable n}
    {tag : Option BufferTag}
    (hrelinks : shared.pageTable.Relinks table frame tag shared.isLiveFor)
    (hrights : new.rights = old.rights)
    (hholds : new.Holds { shared with pageTable := table }) :
    Control { shared with pageTable := table } ({new} + rest) :=
  h.setOwned howner (fun _ => rfl) rfl
    (fun other hne => ⟨rfl, fun hsmall => hrelinks.others hsmall other hne, rfl⟩) hrights hholds
    hrelinks.coherent

theorem setTracked (h : Control shared ({old} + rest))
    (howner : held {old} frame .loading + held {old} frame .free = 1) (tracked : Bool)
    (hrights : new.rights = old.rights)
    (hholds : new.Holds
      { shared with tracked := Function.update shared.tracked frame tracked }) :
    Control { shared with tracked := Function.update shared.tracked frame tracked }
      ({new} + rest) :=
  h.setOwned howner (fun _ => rfl) rfl
    (fun _ hne => ⟨rfl, fun _ => rfl, Function.update_of_ne hne _ _⟩) hrights hholds h.coherent

theorem install {tag : BufferTag} {oldTag : Option BufferTag}
    (h : Control shared ({.loading frame (.tagged tag oldTag)} + rest)) :
    Control { shared with
        pageTable := (shared.pageTable.replaceUnlessLive oldTag tag frame
          (shared.isLiveFor tag)).2 }
      ({.loading frame (if (shared.pageTable.replaceUnlessLive oldTag tag frame
          (shared.isLiveFor tag)).1 = none then .installed tag .empty else .unmapped)} + rest) := by
  obtain ⟨htag, hkeyed⟩ := h.holds _ mem_own
  have hrelinks := @PageTable.replaceUnlessLive_relinks _ _ _ tag _ _ hkeyed h.coherent
  refine h.setTable (owner_loading frame _) hrelinks rfl ?_
  have hself := hrelinks.self
  split at hself
  · rename_i hnone
    rw [if_pos hnone]
    exact ⟨hself, htag⟩
  · rename_i hsome
    rw [if_neg hsome]
    exact hself

theorem removeMapping (h : Control shared ({old} + rest))
    (howner : held {old} frame .loading + held {old} frame .free = 1) {tag : BufferTag}
    (hkeyed : shared.pageTable.Keyed frame (some tag)) (hrights : new.rights = old.rights)
    (hholds : (shared.pageTable.remove tag frame).Maps frame none →
      new.Holds { shared with pageTable := shared.pageTable.remove tag frame }) :
    Control { shared with pageTable := shared.pageTable.remove tag frame } ({new} + rest) :=
  have hrelinks := PageTable.remove_relinks hkeyed h.coherent
  h.setTable howner hrelinks hrights (hholds hrelinks.self)

theorem setFreeList (h : Control shared (used + rest)) {freeList : List (Fin n)}
    (hfree : ∀ other, held given other .free + freeList.count other =
      held used other .free + shared.freeList.count other)
    (hrights : ∀ other right, right ≠ .free → held given other right = held used other right)
    (hholds : ∀ token ∈ given, token.Holds shared)
    (hunlinked : ∀ other ∈ freeList, shared.pageTable.Maps other none) :
    Control { shared with freeList := freeList } (given + rest) := by
  refine ⟨fun other => ?_, fun token hmem => ?_, fun other hstate => ?_, hunlinked, h.coherent⟩
  · refine (h.counts other).refree ?_ fun right hne => ?_
    · have hmoved := hfree other
      simp only [held_add]
      omega
    · simp only [held_add, hrights other right hne]
  · refine Token.Holds.congr ?_ (fun _ => rfl) rfl rfl
    rcases Multiset.mem_add.mp hmem with hgiven | hrest
    · exact hholds token hgiven
    · exact h.holds token (Multiset.mem_add.mpr (.inr hrest))
  · obtain ⟨htracked, hlinked⟩ := h.resident other hstate
    exact ⟨htracked, hlinked⟩

theorem pushFree (h : Control shared ({.free frame .unlinked} + rest)) :
    Control { shared with freeList := frame :: shared.freeList } (0 + rest) := by
  have hunlinked : shared.pageTable.Maps frame none := h.holds _ mem_own
  refine h.setFreeList ?_ ?_ (by simp) ?_
  · intro other
    by_cases hne : frame = other
    · subst hne
      simp [Token.rights, Nat.add_comm]
    · simp [Token.rights, hne, Ne.symm hne]
  · intro other right hne
    simp [Token.rights, hne]
  · intro other hmem
    rcases List.mem_cons.mp hmem with rfl | hmem
    · exact hunlinked
    · exact h.freeUnlinked other hmem

theorem popFree (h : Control shared (0 + rest)) :
    Control { shared with freeList := shared.freeList.tail }
      ((shared.freeList.head?.elim 0 fun frame => {.free frame .unlinked}) + rest) := by
  have hlist := h.freeUnlinked
  refine h.setFreeList ?_ ?_ ?_ ?_
  · intro other
    cases hpopped : shared.freeList with
    | nil => simp
    | cons frame others =>
        by_cases hne : frame = other
        · subst hne
          simp [Token.rights, Nat.add_comm]
        · simp [Token.rights, hne, Ne.symm hne]
  · intro other right hne
    cases shared.freeList <;> simp [Token.rights, hne]
  · intro token hmem
    cases hpopped : shared.freeList with
    | nil => simp [hpopped] at hmem
    | cons frame others =>
        obtain rfl : token = .free frame .unlinked := by simpa [hpopped] using hmem
        exact hlist frame (by simp [hpopped])
  · exact fun other hmem => hlist other (List.mem_of_mem_tail hmem)

theorem held_of_rights {old new : Token n blockSize} (h : new.rights = old.rights)
    (other : Fin n) (right : Right) : held {new} other right = held {old} other right := by
  simp only [held_singleton, h]

theorem held_lent (frame : Fin n) {stage : WritebackStage blockSize} {latch : Latch}
    (hlatch : stage.latch? = some latch) (hactive : stage.active = false) (other : Fin n)
    (right : Right) : held {(.writeback frame stage : Token n blockSize)} other right =
      held {(.writeback frame .queued : Token n blockSize)} other right +
        held {(latch.token frame : Token n blockSize)} other right := by
  have hrights : (.writeback frame stage : Token n blockSize).rights =
      [(.queued, frame), (latch.right, frame)] := by
    rw [Token.rights, hlatch, hactive]
    rfl
  have hqueued : (.writeback frame .queued : Token n blockSize).rights = [(.queued, frame)] := rfl
  have htoken : (latch.token frame : Token n blockSize).rights = [(latch.right, frame)] := by
    cases latch <;> rfl
  simp only [held_singleton, hrights, hqueued, htoken]
  by_cases hright : right = .queued
  · cases latch <;> simp [hright, Latch.right]
  · cases latch <;> simp [hright, Latch.right]

theorem held_purpose (purpose : Purpose n blockSize) {fill : Fill}
    {sync : Multiset (Token n blockSize)}
    {write : BufferTag → Page blockSize → WritebackStage blockSize}
    (hactive : ∀ tag snapshot, (write tag snapshot).active = true)
    (hlatch : ∀ tag snapshot, (write tag snapshot).latch? = none)
    (hsync : ∀ other right, held sync other right = 0) (other : Fin n) (right : Right) :
    held (purpose.token fill write sync) other right = held purpose.failed other right := by
  cases purpose with
  | fill frame tag => exact held_of_rights rfl other right
  | write frame tag snapshot =>
      refine held_of_rights ?_ other right
      rw [Token.rights, hactive, hlatch]
      rfl
  | sync => exact hsync other right

theorem held_waiting (purpose : Purpose n blockSize) (waiter : WaiterId) (other : Fin n)
    (right : Right) :
    held (purpose.waiting waiter) other right = held purpose.failed other right :=
  held_purpose purpose (fun _ _ => rfl) (fun _ _ => rfl) (by simp [Token.rights]) other right

theorem held_ready (purpose : Purpose n blockSize) (other : Fin n) (right : Right) :
    held purpose.ready other right = held purpose.failed other right :=
  held_purpose purpose (fun _ _ => rfl) (fun _ _ => rfl) (by simp) other right

theorem held_done (purpose : Purpose n blockSize) (other : Fin n) (right : Right) :
    held purpose.done other right = held purpose.failed other right :=
  held_purpose purpose (fun _ _ => rfl) (fun _ _ => rfl) (by simp) other right

theorem holds_purpose (purpose : Purpose n blockSize) {fill fill' : Fill}
    {write write' : BufferTag → Page blockSize → WritebackStage blockSize}
    {sync sync' : Multiset (Token n blockSize)}
    (h : ∀ token ∈ purpose.token fill write sync, token.Holds shared)
    (htag : ∀ tag snapshot, (write' tag snapshot).tag? = none ∨
      (write' tag snapshot).tag? = (write tag snapshot).tag?)
    (hsync : ∀ token ∈ sync', token.Holds shared) :
    ∀ token ∈ purpose.token fill' write' sync', token.Holds shared := by
  intro token hmem
  cases purpose with
  | fill frame tag =>
      rw [Multiset.mem_singleton.mp hmem]
      exact h (.loading frame (.installed tag fill)) (Multiset.mem_singleton_self _)
  | write frame tag snapshot =>
      rw [Multiset.mem_singleton.mp hmem]
      intro known hknown
      rcases htag tag snapshot with hnone | hsame
      · rw [hnone] at hknown
        cases hknown
      · exact h _ (Multiset.mem_singleton_self _) known (hsame ▸ hknown)
  | sync => exact hsync token hmem

theorem held_replicate (count : Nat) (token : Token n blockSize) (other : Fin n) (right : Right) :
    held (Multiset.replicate count token) other right =
      count * held {token} other right := by
  induction count with
  | zero => simp
  | succ count ih => rw [Multiset.replicate_succ, held_cons, ih, held_singleton, Nat.succ_mul,
      Nat.add_comm]

variable {action : Action n blockSize} {seen others D : Multiset (Token n blockSize)}
  {given : Reply action → Multiset (Token n blockSize) → Prop} {choice : Choice n}
  {reply : Reply action}

theorem trade (htrade : Trade action seen used given)
    (h : Control shared (used + (seen + others)))
    (hexec : exec shared choice action = some (reply, shared')) (hgiven : given reply D) :
    Control shared' (D + (seen + others)) := by
  -- the replies and the state after, where they are plain
  cases htrade with ((try subst hgiven); first
    | obtain ⟨rfl, rfl⟩ := Shared.updateWord_eq hexec | cases hexec | skip)
  | silent hsilent => exact h.agrees (exec_silent hsilent hexec)
  | tryPinResident frame =>
      obtain ⟨⟨pinned, next⟩, hpin, heq⟩ := Option.map_eq_some_iff.mp hexec
      obtain ⟨rfl, rfl⟩ := Prod.mk.inj heq
      cases pinned with
      | true => exact h.tryPinResident hpin
      | false =>
          obtain ⟨-, rfl, -⟩ | ⟨hfalse, -⟩ := tryPinResident_cases hpin
          · simpa using h
          · cases hfalse
  | checkTag frame => exact h.retoken (by simp [Token.rights]) (by simp [Token.Holds])
  | unpin frame tag => exact h.unpin
  | tryAcquireShared frame =>
      rcases hacquire : FrameControl.tryAcquireShared (shared.word frame) with ⟨acquired, next⟩
      cases acquired with
      | true => exact h.acquireShared hacquire
      | false =>
          rw [tryAcquireShared_unchanged hacquire]
          simpa using h
  | acquireShared | latchShared =>
      simp only [exec] at hexec
      split at hexec
      · cases hexec
        exact h.acquireShared ‹_›
      · cases hexec
  | releaseShared frame => exact h.releaseShared
  | latchExclusive frame tag mode =>
      simp only [exec] at hexec
      split at hexec
      · cases hexec
        exact h.acquireExclusive .clean ‹_›
      · cases hexec
  | latchZeroed frame tag =>
      simp only [exec] at hexec
      split at hexec
      · cases hexec
        exact h.acquireExclusive .zeroed ‹_›
      · cases hexec
  | releaseExclusive frame tag mark => exact h.releaseExclusive
  | markDirty frame tag mark => exact h.markDirty (h.resident_of_pin tag (by simp))
  | reservePopped frame =>
      rcases hreserve : tryReserve true (shared.word frame) with ⟨⟨outcome, observed⟩, next⟩
      rw [hreserve] at hgiven
      by_cases hreserved : outcome = .reserved
      · subst hreserved
        obtain ⟨-, -, rfl⟩ := hgiven
        exact h.reservePopped hreserve
      · rw [if_neg hreserved] at hgiven
        rw [hgiven.2, tryReserve_unchanged hreserve hreserved, Shared.setWord_word]
        exact h
  | reserveVictim frame =>
      rcases hreserve : tryReserve false (shared.word frame) with ⟨⟨outcome, observed⟩, next⟩
      rw [hreserve] at hgiven
      by_cases hreserved : outcome = .reserved
      · subst hreserved
        obtain ⟨-, rfl⟩ := hgiven
        exact h.reserveVictim hreserve
      · rw [if_neg hreserved] at hgiven
        rw [hgiven, tryReserve_unchanged hreserve hreserved, Shared.setWord_word]
        exact h
  | loadEvictedTag frame =>
      have hlinked : shared.pageTable.Maps frame (some (shared.descriptors frame).tag) :=
        h.holds _ mem_own
      exact h.retoken (by simp [Token.rights]) (by simp [Token.Holds, LoadStage.Holds, hlinked])
  | tagFresh frame tag =>
      have hunlinked : shared.pageTable.Maps frame none := h.holds _ mem_own
      refine h.storeTagUnlinked (owner_loading frame _) hunlinked tag rfl ?_
      exact ⟨by simp [Shared.setDescriptor], hunlinked.keyed⟩
  | tagVictim frame tag old =>
      obtain ⟨hlinked, htag⟩ := h.holds _ mem_own
      refine h.storeTag (owner_loading frame _) (fun hsmall key hkey => ?_) tag rfl ?_
      · have hstate : state (shared.word frame) = .loading := h.state_of_loading mem_own
        obtain rfl : old = key := Option.some.inj (hlinked.keyed hsmall key hkey)
        simp [Shared.isLiveFor, hstate, htag]
      · exact ⟨by simp [Shared.setDescriptor], hlinked.keyed⟩
  | clearTag frame tag =>
      have hunlinked : shared.pageTable.Maps frame none := h.holds _ mem_own
      exact h.storeTagUnlinked (owner_loading frame _) hunlinked tag rfl hunlinked
  | clearFreeTag frame tag =>
      have hunlinked : shared.pageTable.Maps frame none := h.holds _ mem_own
      exact h.storeTagUnlinked (owner_free frame _) hunlinked tag rfl hunlinked
  | install frame tag old => exact h.install
  | unmap frame tag fill hfill =>
      obtain ⟨hlinked, -⟩ := h.holds _ mem_own
      exact h.removeMapping (owner_loading frame _) hlinked.keyed rfl id
  | unlink frame tag =>
      exact h.removeMapping (owner_free frame _) (h.holds _ mem_own) rfl id
  | recordLoad frame tag fill hfill =>
      obtain ⟨hlinked, htag⟩ := h.holds _ mem_own
      refine h.setTracked (owner_loading frame _) true rfl ?_
      simp [Token.Holds, LoadStage.Holds, hlinked, htag]
  | untrack frame =>
      exact h.setTracked (owner_loading frame _) false rfl (h.holds _ mem_own)
  | untrackFree frame =>
      exact h.setTracked (owner_free frame _) false rfl (h.holds _ mem_own)
  | publish | publishZeroed => exact h.publish _
  | releaseToFree frame => exact h.releaseToFree
  | writeFrame | zeroFrame => exact h.elsewhere rfl rfl rfl rfl
  | discard frame tag =>
      rcases hdiscard : tryDiscardPinned (shared.word frame) with
        ⟨⟨outcome, previous⟩, next, wake⟩
      by_cases hdiscarded : outcome = .discarded
      · subst hdiscarded
        exact h.discard hdiscard
      · rw [if_neg hdiscarded, tryDiscardPinned_unchanged hdiscard hdiscarded,
          Shared.setWord_word]
        exact h
  | pushFree frame => exact h.pushFree
  | popFree => exact h.popFree
  | queueWriteback frame skip =>
      rcases hqueue : tryQueueWriteback skip (shared.word frame) with ⟨outcome, next⟩
      by_cases hqueued : outcome = .queued
      · subst hqueued
        exact h.queueWriteback hqueue
      · rw [if_neg hqueued, tryQueueWriteback_unchanged hqueue hqueued, Shared.setWord_word]
        exact h
  | nameSnapshot frame latch =>
      refine h.retoken (fun other right => ?_) (by simp [Token.Holds, WritebackStage.tag?])
      rw [held_add, held_lent frame rfl rfl]
  | takeSnapshot frame latch tag =>
      have htag : (shared.descriptors frame).tag = tag := h.holds _ mem_own tag rfl
      refine h.retoken (fun other right => ?_) ?_
      · have hlent : held {(.writeback frame (.named latch tag) : Token n blockSize)} other right =
            _ := held_lent frame rfl rfl other right
        rw [held_add, hlent]
        exact congrArg (· + _) (held_of_rights rfl other right)
      · cases latch <;> simp [Token.Holds, WritebackStage.tag?, Latch.token, htag]
  | beginWriteback frame tag snapshot => exact h.beginWriteback
  | cancelWriteback frame tag snapshot => exact h.cancelWriteback
  | completeWriteback frame tag snapshot => exact h.completeWriteback true rfl
  | abandonWriteback frame => exact h.completeWriteback false rfl
  | newWaiter purpose pending hcounts =>
      have hready : ∀ token ∈ purpose.ready, token.Holds shared :=
        fun token hmem => h.holds token (by simp [hmem])
      refine Control.retoken (h.elsewhere rfl rfl rfl rfl) (fun other right => ?_) ?_
      · rw [held_add, held_replicate, held_waiting, held_ready]
        simp [Token.rights]
      · intro token hmem
        rcases Multiset.mem_add.mp hmem with hwaiting | hticket
        · refine holds_purpose purpose hready ?_ ?_ token hwaiting
          · exact fun _ _ => .inr rfl
          · simp [Token.Holds]
        · rw [Multiset.eq_of_mem_replicate hticket]
          trivial
  | loadPending purpose waiter =>
      refine h.retoken (fun other right => ?_) ?_ <;> split <;> simp [Token.rights, Token.Holds]
  | waiterStatus purpose waiter =>
      have hwaiting : ∀ token ∈ purpose.waiting waiter, token.Holds shared :=
        fun token hmem => h.holds token (by simp [hmem])
      refine h.retoken (fun other right => ?_) ?_
      · rw [held_add, held_waiting]
        split
        · rw [held_done]
          simp [Token.rights]
        · simp [Token.rights]
      · split
        · exact holds_purpose purpose hwaiting (fun _ _ => .inr rfl) (by simp)
        · exact holds_purpose purpose hwaiting (fun _ _ => .inl rfl) (by simp)
  | loadStopped purpose waiter =>
      have hwaiting : ∀ token ∈ purpose.waiting waiter, token.Holds shared :=
        fun token hmem => h.holds token (by simp [hmem])
      cases hstopped : shared.stopped with
      | false =>
          simp only [hstopped] at hgiven
          subst hgiven
          exact h
      | true =>
          simp only [hstopped] at hgiven
          obtain ⟨-, rfl⟩ := hgiven
          refine h.retoken (fun other right => ?_) ?_
          · rw [held_waiting]
          · exact holds_purpose purpose hwaiting (fun _ _ => .inl rfl) (by simp)
  | takeLoad id load =>
      obtain ⟨-, rfl⟩ := hgiven
      exact h.retoken (by simp [Token.rights]) (by simp)
  | completeWaiter | newOperation | addPending | failSlot | closeOperation =>
      refine Control.retoken (h.elsewhere rfl rfl rfl rfl) ?_ ?_ <;>
        simp [Token.rights, Token.Holds]

end Control

end TelePath
