import Mathlib.Algebra.BigOperators.Fin
import Mathlib.Algebra.Order.BigOperators.Group.Finset
import TelePath.Guarantees.FrameRecord

/-!
What a handle may rely on while it lives, and what it sees of its page.
-/

namespace TelePath

open FrameControl Logic

variable {n blockSize threads : Nat}

/-! ### Live handles -/

/-- The handles of a thread that have been returned to it and that it is not releasing. -/
def Thread.liveHandles (thread : Thread n blockSize) : List (Handle n) :=
  match thread.activity with
  | .idle => thread.client.handles
  | .calling call _ => call.keeps thread.client.handles
  | .background _ => []

def System.liveHandles (system : System n blockSize threads) : List (Handle n) :=
  (List.finRange threads).flatMap fun id => (system.thread id).liveHandles

def System.handlesOn (system : System n blockSize threads) (frame : Fin n) : List (Handle n) :=
  system.liveHandles.filter (·.frame = frame)

theorem held_mono {first second : Multiset (Token n blockSize)} (h : first ≤ second)
    (frame : Fin n) (right : Right) : held first frame right ≤ held second frame right :=
  Multiset.countP_le_of_le _ h

section Grips

variable (handles : List (Handle n)) (frame : Fin n)

theorem grips_cons (handle : Handle n) :
    (grips (handle :: handles) : Multiset (Token n blockSize)) = handle.grip + grips handles := rfl

theorem held_grips_pin : held (grips handles : Multiset (Token n blockSize)) frame .pin =
    (handles.filter (·.frame = frame)).length := by
  induction handles with
  | nil => rfl
  | cons handle rest ih =>
      rw [grips_cons, held_add, ih, Handle.grip, List.filter_cons]
      by_cases hframe : handle.frame = frame <;> cases handle.exclusive <;>
        simp [Token.rights, @eq_comm _ frame, hframe, Nat.add_comm]

theorem held_grips_latch (exclusive : Bool) :
    held (grips handles : Multiset (Token n blockSize)) frame
        (if exclusive then .exclusive else .shared) =
      ((handles.filter (·.frame = frame)).filter (·.exclusive = exclusive)).length := by
  induction handles with
  | nil => rfl
  | cons handle rest ih =>
      rw [grips_cons, held_add, ih, Handle.grip, List.filter_cons]
      by_cases hframe : handle.frame = frame <;> cases hexclusive : handle.exclusive <;>
        cases exclusive <;>
          simp [Token.rights, @eq_comm _ frame, hframe, hexclusive, Nat.add_comm]

end Grips

theorem Contract.Owns.grips_le {bytes : BufferTag → Page blockSize}
    {trace : Trace n blockSize threads} {id : Fin threads} {thread : Thread n blockSize}
    {share : Multiset (Token n blockSize)}
    (h : (tokenContract bytes).Owns trace id thread share) :
    grips thread.liveHandles ≤ share := by
  cases hactivity : thread.activity with
  | idle =>
      simp only [Contract.Owns, Thread.liveHandles, hactivity] at h ⊢
      exact Client.Owns.grips_le h
  | calling call rest =>
      simp only [Contract.Owns, Thread.liveHandles, hactivity] at h ⊢
      obtain ⟨position, context, P, -, rfl, hkeeps, -⟩ := h
      exact le_trans hkeeps (Multiset.le_add_left _ _)
  | background rest =>
      simp only [Thread.liveHandles, hactivity]
      exact Multiset.zero_le _

theorem grips_flatMap {ι : Type} (items : List ι) (handles : ι → List (Handle n)) :
    (grips (items.flatMap handles) : Multiset (Token n blockSize)) =
      (items.map fun item => grips (handles item)).sum := by
  induction items with
  | nil => rfl
  | cons item rest ih => rw [List.flatMap_cons, grips_append, ih, List.map_cons, List.sum_cons]

theorem Contract.Sound.grips_le {bytes : BufferTag → Page blockSize}
    {trace : Trace n blockSize threads} {system : System n blockSize threads}
    {shares : Fin threads → Multiset (Token n blockSize)}
    (h : (tokenContract bytes).Sound trace system shares) :
    grips system.liveHandles ≤ ∑ id, shares id := by
  rw [System.liveHandles, grips_flatMap, ← Fin.sum_univ_def]
  exact Finset.sum_le_sum fun id _ => (h.owns id).grips_le

/-- What a handle may rely on while it lives: its frame holds its page, and there are a
pin and a latch of the right kind for each handle on the frame. -/
structure Handle.Safe (handle : Handle n) (system : System n blockSize threads) : Prop where
  resident : state (system.shared.word handle.frame) = .resident
  tag : (system.shared.descriptors handle.frame).tag = handle.tag
  pin : (system.handlesOn handle.frame).length ≤ pins (system.shared.word handle.frame)
  latch : if handle.exclusive then hasAny kExclusive (system.shared.word handle.frame) = true
    else ((system.handlesOn handle.frame).filter (·.exclusive = false)).length ≤
      sharedHolders (system.shared.word handle.frame)

/-- While an exclusive handle lives nobody else has a latch on its frame, and the frame
can be neither reserved nor discarded. -/
structure Handle.Alone (handle : Handle n) (events : Events n blockSize)
    (system : System n blockSize threads) : Prop where
  handles : system.handlesOn handle.frame = [handle]
  readers : sharedHolders (system.shared.word handle.frame) = 0
  sharedOwners : owners Event.sharedChange events handle.frame = 0
  exclusiveOwners : owners Event.exclusiveChange events handle.frame = 1
  unreservable : ∀ popped,
    (tryReserve popped (system.shared.word handle.frame)).1.1 ≠ .reserved
  undroppable : (tryDiscardPinned (system.shared.word handle.frame)).1.1 ≠ .discarded

section Safe

variable {options : Options} {start system : System n blockSize threads}
  {trace : Trace n blockSize threads} {handle : Handle n}

theorem grip_mem {handles : List (Handle n)} (h : handle ∈ handles) {token : Token n blockSize}
    (htoken : token ∈ handle.grip) : token ∈ grips handles := by
  induction handles with
  | nil => cases h
  | cons first rest ih =>
      rw [grips_cons]
      rcases List.mem_cons.mp h with rfl | hrest
      · exact Multiset.mem_add.mpr (.inl htoken)
      · exact Multiset.mem_add.mpr (.inr (ih hrest))

variable {all : Multiset (Token n blockSize)}

theorem Control.handle_safe (h : Control system.shared all)
    (hgrips : grips system.liveHandles ≤ all) (hlive : handle ∈ system.liveHandles) :
    handle.Safe system := by
  have hpin : .pin handle.frame handle.tag ∈ all :=
    Multiset.mem_of_le hgrips (grip_mem hlive (by simp [Handle.grip]))
  refine ⟨h.resident_of_pin _ hpin, h.tag_of_pin hpin, ?_, ?_⟩
  · have hpins := (h.counts handle.frame).pins
    have hheld := held_mono hgrips handle.frame .pin
    rw [held_grips_pin] at hheld
    calc (system.handlesOn handle.frame).length
      _ ≤ held all handle.frame .pin := hheld
      _ ≤ (fields (system.shared.word handle.frame)).pins := by omega
  · split
    · rename_i hexclusive
      have hlatch : .exclusive handle.frame ∈ all :=
        Multiset.mem_of_le hgrips (grip_mem hlive (by simp [Handle.grip, hexclusive]))
      exact (h.of_exclusive hlatch).1
    · have hheld := held_mono hgrips handle.frame .shared
      have hcount : held (grips system.liveHandles : Multiset (Token n blockSize)) handle.frame
          .shared = ((system.handlesOn handle.frame).filter (·.exclusive = false)).length :=
        held_grips_latch system.liveHandles handle.frame false
      rw [hcount] at hheld
      exact hheld.trans_eq (h.counts handle.frame).shared.symm

theorem latched_unclaimed {word : Word} (h : latched word = true) :
    (∀ popped, (tryReserve popped word).1.1 ≠ .reserved) ∧
      (tryDiscardPinned word).1.1 ≠ .discarded := by
  constructor
  · intro popped hreserved
    have htry : tryReserve popped word =
        ((.reserved, (tryReserve popped word).1.2), (tryReserve popped word).2) :=
      Prod.ext (Prod.ext hreserved rfl) rfl
    obtain ⟨-, -, -, -, -, hfree, -⟩ := tryReserve_reserved htry
    exact absurd (h.symm.trans hfree) (by decide)
  · intro hdiscarded
    have htry : tryDiscardPinned word = ((.discarded, (tryDiscardPinned word).1.2),
        (tryDiscardPinned word).2.1, (tryDiscardPinned word).2.2) :=
      Prod.ext (Prod.ext hdiscarded rfl) rfl
    obtain ⟨-, -, -, -, -, -, hfree⟩ := tryDiscardPinned_discarded htry
    exact absurd (h.symm.trans hfree) (by decide)

theorem Control.handlesOn_exclusive (h : Control system.shared all)
    (hgrips : grips system.liveHandles ≤ all) (hlive : handle ∈ system.liveHandles)
    (hexclusive : handle.exclusive = true) : system.handlesOn handle.frame = [handle] := by
  have hlatch : .exclusive handle.frame ∈ all :=
    Multiset.mem_of_le hgrips (grip_mem hlive (by simp [Handle.grip, hexclusive]))
  obtain ⟨-, hone, hnone⟩ := h.of_exclusive hlatch
  have hwriters : ((system.handlesOn handle.frame).filter (·.exclusive = true)).length ≤ 1 := by
    have hheld := held_mono hgrips handle.frame .exclusive
    rw [hone] at hheld
    exact (held_grips_latch system.liveHandles handle.frame true).symm.le.trans hheld
  have hreaders : ((system.handlesOn handle.frame).filter (·.exclusive = false)).length ≤ 0 := by
    have hheld := held_mono hgrips handle.frame .shared
    rw [hnone] at hheld
    exact (held_grips_latch system.liveHandles handle.frame false).symm.le.trans hheld
  have hlength : (system.handlesOn handle.frame).length ≤ 1 := by
    rw [List.length_eq_length_filter_add (·.exclusive = true)]
    simp only [Bool.decide_eq_true, Bool.decide_eq_false] at hwriters hreaders ⊢
    omega
  have hmem : handle ∈ system.handlesOn handle.frame :=
    List.mem_filter.mpr ⟨hlive, by simp⟩
  obtain ⟨only, hlist⟩ := List.length_eq_one_iff.mp
    (le_antisymm hlength (List.length_pos_of_mem hmem))
  rw [hlist, List.mem_singleton] at hmem
  rw [hlist, hmem]

end Safe

/-! ### What handles see -/

def Events.before (events : Events n blockSize) (position : Nat) : Events n blockSize :=
  events.drop (events.length - position)

theorem Events.before_length (events : Events n blockSize) :
    Events.before events events.length = events := by
  rw [before, Nat.sub_self]
  rfl

theorem Events.before_cons {events : Events n blockSize} {position : Nat}
    (h : position ≤ events.length) (event : Event n blockSize) :
    Events.before (event :: events) position = Events.before events position := by
  rw [before, before, List.length_cons, Nat.sub_add_comm h, List.drop_succ_cons]

/-- The bytes that the last exclusive handle on a page left when it was released, or the
initial bytes. -/
def lastReleased (start : BufferTag → Page blockSize) :
    Events n blockSize → BufferTag → Page blockSize
  | [] => start
  | .releasedExclusive _ tag page :: earlier => Function.update (lastReleased start earlier) tag page
  | _ :: earlier => lastReleased start earlier

def Event.isDiscarded : Event n blockSize → Bool
  | .discarded _ _ _ _ => true
  | _ => false

theorem content_eq_lastReleased (start : BufferTag → Page blockSize) {events : Events n blockSize}
    (h : ∀ event ∈ events, event.isDiscarded = false) :
    content start events = lastReleased start events := by
  induction events with
  | nil => rfl
  | cons event earlier ih =>
      have hearlier := ih fun event hmem => h event (List.mem_cons_of_mem _ hmem)
      cases event with
      | releasedExclusive frame tag page => simp only [content, lastReleased, hearlier]
      | discarded frame tag page wasDirty => cases h _ (List.mem_cons_self ..)
      | _ => exact hearlier

/-- The latch of a handle on a page was taken, and the handle sees `seen`. -/
def Event.Sees (tag : BufferTag) (seen : Page blockSize) : Event n blockSize → Prop
  | .acquiredShared _ other page => other = tag ∧ page = seen
  | .acquiredExclusive _ other mode page => mode ≠ .zeroAndLock ∧ other = tag ∧ page = seen
  | _ => False

section Coherence

variable {options : Options} {start system : System n blockSize threads}
  {trace : Trace n blockSize threads} {tag : BufferTag} {seen : Page blockSize}

theorem action_of_sees {shared : Shared n blockSize} {action : Action n blockSize}
    {reply : Reply action} (h : (observe shared action reply).Sees tag seen) :
    ∃ frame, seen = shared.frameData frame ∧ (action = .acquireShared frame (some tag) ∨
      ∃ mode, mode ≠ .zeroAndLock ∧ action = .acquireExclusive frame tag mode) := by
  cases action
  case acquireShared frame handle =>
      cases handle with
      | none => exact h.elim
      | some other =>
          obtain ⟨rfl, rfl⟩ := h
          exact ⟨frame, rfl, .inl rfl⟩
  case acquireExclusive frame other mode =>
      obtain ⟨hmode, rfl, rfl⟩ := h
      exact ⟨frame, rfl, .inr ⟨mode, hmode, rfl⟩⟩
  case popFree => cases reply <;> exact h.elim
  case tryPinResident frame => cases reply <;> exact h.elim
  case tryAcquireShared frame => cases reply <;> exact h.elim
  case lowerRecLsn frame lsn handle => cases handle <;> exact h.elim
  case reap => cases reply <;> exact h.elim
  case tryReserve | tryDiscardPinned | tryQueueWriteback | preWriteHook | submitRequest =>
      simp only [observe] at h
      split at h <;> exact h.elim
  all_goals exact h.elim

theorem Books.sees [Fact (n ≤ 2 ^ 31)]
    {bytes : BufferTag → Page blockSize} {events : Events n blockSize}
    {shared shared' : Shared n blockSize} {action : Action n blockSize}
    {lent used others : Multiset (Token n blockSize)}
    {given : Reply action → Multiset (Token n blockSize) → Prop} {choice : Choice n}
    {reply : Reply action} (h : Books bytes events shared (used + (lent + others)))
    (hrule : Rule action lent used given) (hcalm : Undisturbed events)
    (hexec : exec shared choice action = some (reply, shared'))
    (hsees : (observe shared action reply).Sees tag seen) : seen = content bytes events tag := by
  obtain ⟨-, hdata, -⟩ := h.calm hcalm
  -- the thread has pinned the page, and nobody holds its exclusive latch
  have hbytes : ∀ frame, .pin frame tag ∈ used + (lent + others) →
      (fields (shared.word frame)).exclusive = false →
        shared.frameData frame = content bytes events tag := by
    intro frame hpin hfree
    have htag := h.control.tag_of_pin hpin
    rw [← htag]
    exact hdata.resident frame (h.control.resident_of_pin tag hpin) hfree
  obtain ⟨frame, rfl, rfl | ⟨mode, hmode, rfl⟩⟩ := action_of_sees hsees
  · simp only [exec] at hexec
    split at hexec
    · rename_i next htry
      cases hrule with
      | trade htrade =>
          cases htrade with
          | silent hsilent => cases hsilent
          | latchShared =>
              exact hbytes frame (mem_rest (by simp)) (tryAcquireShared_true htry).1
      | handover hhandover => cases hhandover
    · cases hexec
  · simp only [exec] at hexec
    split at hexec
    · rename_i next htry
      have hfree := (unlatched_fields (tryAcquireExclusive_true htry).1).1
      cases hrule with
      | trade htrade =>
          cases htrade with
          | silent hsilent => cases hsilent
          | latchExclusive => exact hbytes frame (mem_rest (by simp)) hfree
          | latchZeroed => exact absurd rfl hmode
      | handover hhandover => cases hhandover
    · cases hexec

theorem Contract.Move.sees [Fact (n ≤ 2 ^ 31)]
    {bytes : BufferTag → Page blockSize} {events : Events n blockSize}
    {shared shared' : Shared n blockSize} {shares shares' : Fin threads → Multiset (Token n blockSize)}
    {entry : Entry n blockSize threads}
    (h : Accounted bytes events shared (∑ id, shares id))
    (hmove : (tokenContract bytes).Move shared shares entry shared' shares')
    (hcalm : Undisturbed events) (hsees : entry.event.Sees tag seen) :
    seen = content bytes events tag := by
  cases hmove with
  | act rule share gives enabled =>
      obtain ⟨others, hbooks⟩ := h.split share
      exact hbooks.sees rule hcalm enabled hsees
  | @idle id event share quiet same =>
      cases event with
      | quiet | invoked | returned => exact hsees.elim
      | _ => cases quiet
  | park | complete | stop => exact hsees.elim

def Event.shown? : Event n blockSize → Option (Fin n × BufferTag × Page blockSize)
  | .acquiredShared frame tag page => some (frame, tag, page)
  | _ => none

end Coherence

end TelePath
