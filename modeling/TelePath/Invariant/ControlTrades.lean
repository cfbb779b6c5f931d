import TelePath.Invariant.Control

/-!
Every trade keeps the control invariant.  One lemma per transition of the control word,
the page table, the tags, the replacer and the free list.
-/

namespace TelePath

open FrameControl

variable {n blockSize : Nat}

namespace Counts

variable {record : ControlFields} {freeCount : Nat} {held held' : Right → Nat}

theorem repin (h : Counts record freeCount held) {pins : Nat} {waiters : Bool}
    (hpins : pins = held' .pin + held' .loading)
    (hpinned : 0 < held' .pin → record.state = .resident)
    (hsame : ∀ right, right ≠ .pin → held' right = held right) :
    Counts { record with pins := pins, waiters := waiters } freeCount held' where
  valid := h.valid
  pins := hpins
  shared := (hsame .shared (by decide)).symm ▸ h.shared
  exclusive := (hsame .exclusive (by decide)).trans h.exclusive
  latch := h.latch
  loading := (hsame .loading (by decide)).trans h.loading
  free := (congrArg (· + freeCount) (hsame .free (by decide))).trans h.free
  pinned := hpinned
  readers := by rw [hsame .reader (by decide), hsame .shared (by decide), h.readers]
  writers := by rw [hsame .writer (by decide), hsame .exclusive (by decide), h.writers]
  queued := (hsame .queued (by decide)).trans h.queued
  active := (hsame .active (by decide)).trans h.active
  single := by rw [hsame .queued (by decide), hsame .active (by decide)]; exact h.single
  writing := h.writing
  clean := h.clean

theorem relatch (h : Counts record freeCount held) {shared : Nat}
    {exclusive redirtied waiters : Bool} (hshared : shared = held' .shared)
    (hexclusive : held' .exclusive = if exclusive then 1 else 0)
    (hlatch : exclusive = true → shared = 0) (hreaders : held' .reader = held' .shared)
    (hwriters : held' .writer = held' .exclusive)
    (hsame : ∀ right, right = .pin ∨ right = .loading ∨ right = .free ∨ right = .queued ∨
      right = .active → held' right = held right) :
    Counts { record with
      shared := shared
      exclusive := exclusive
      redirtied := redirtied
      waiters := waiters } freeCount held' where
  valid := h.valid
  pins := by rw [hsame .pin (by decide), hsame .loading (by decide)]; exact h.pins
  shared := hshared
  exclusive := hexclusive
  latch := hlatch
  loading := (hsame .loading (by decide)).trans h.loading
  free := (congrArg (· + freeCount) (hsame .free (by decide))).trans h.free
  pinned := by rw [hsame .pin (by decide)]; exact h.pinned
  readers := hreaders
  writers := hwriters
  queued := (hsame .queued (by decide)).trans h.queued
  active := (hsame .active (by decide)).trans h.active
  single := by rw [hsame .queued (by decide), hsame .active (by decide)]; exact h.single
  writing := h.writing
  clean := h.clean

theorem rewriteBack (h : Counts record freeCount held)
    {dirty queued active redirtied waiters : Bool}
    (hqueued : held' .queued = if queued then 1 else 0)
    (hactive : held' .active = if active then 1 else 0)
    (hsingle : held' .queued + held' .active ≤ 1)
    (hwriting : (queued || active) = true → record.state = .resident ∧ dirty = true)
    (hclean : dirty = true → record.state = .resident)
    (hsame : ∀ right, right ≠ .queued → right ≠ .active → held' right = held right) :
    Counts { record with
      dirty := dirty
      queued := queued
      active := active
      redirtied := redirtied
      waiters := waiters } freeCount held' where
  valid := h.valid
  pins := by rw [hsame .pin (by decide) (by decide), hsame .loading (by decide) (by decide)]; exact h.pins
  shared := (hsame .shared (by decide) (by decide)).symm ▸ h.shared
  exclusive := (hsame .exclusive (by decide) (by decide)).trans h.exclusive
  latch := h.latch
  loading := (hsame .loading (by decide) (by decide)).trans h.loading
  free := (congrArg (· + freeCount) (hsame .free (by decide) (by decide))).trans h.free
  pinned := by rw [hsame .pin (by decide) (by decide)]; exact h.pinned
  readers := by rw [hsame .reader (by decide) (by decide), hsame .shared (by decide) (by decide), h.readers]
  writers := by rw [hsame .writer (by decide) (by decide), hsame .exclusive (by decide) (by decide), h.writers]
  queued := hqueued
  active := hactive
  single := hsingle
  writing := hwriting
  clean := hclean

theorem reserve (h : Counts record freeCount held) (hpins : record.pins = 0)
    (hexclusive : record.exclusive = false) (hshared : record.shared = 0)
    (hwriteback : record.writeback = false) {waiters : Bool}
    (hfree : held' .free + freeCount = 0) (hloading : held' .loading = held .loading + 1)
    (hsame : ∀ right, right ≠ .free → right ≠ .loading → held' right = held right) :
    Counts { state := .loading, dirty := false, queued := false, active := false,
             prefetched := false, redirtied := false, exclusive := false, shared := 0,
             waiters := waiters, pins := 1 } freeCount held' := by
  have hpinned := h.pins
  have hqueued := h.queued
  have hactive := h.active
  have hexclusives := h.exclusive
  have hshareds := h.shared
  simp only [ControlFields.writeback, Bool.or_eq_false_iff] at hwriteback
  simp only [hwriteback, hexclusive, Bool.false_eq_true, if_false] at hqueued hactive hexclusives
  have hpin := hsame .pin (by decide) (by decide)
  have hshared' := hsame .shared (by decide) (by decide)
  have hexclusive' := hsame .exclusive (by decide) (by decide)
  have hreader := hsame .reader (by decide) (by decide)
  have hwriter := hsame .writer (by decide) (by decide)
  have hqueued' := hsame .queued (by decide) (by decide)
  have hactive' := hsame .active (by decide) (by decide)
  have hreaders := h.readers
  have hwriters := h.writers
  constructor <;> (try simp [ControlFields.writeback]) <;> omega

theorem publish (h : Counts record freeCount held) (hstate : record.state = .loading)
    {pins : Nat} {waiters : Bool} (hloading : held' .loading = 0) (hpins : held' .pin = pins)
    (hsame : ∀ right, right ≠ .pin → right ≠ .loading → held' right = held right) :
    Counts { record with state := .resident, waiters := waiters, pins := pins }
      freeCount held' where
  valid := by simp
  pins := by simp [hloading, hpins]
  shared := (hsame .shared (by decide) (by decide)).symm ▸ h.shared
  exclusive := (hsame .exclusive (by decide) (by decide)).trans h.exclusive
  latch := h.latch
  loading := by simp [hloading]
  free := by
    have hfree := h.free
    rw [hsame .free (by decide) (by decide)]
    simpa [hstate] using hfree
  pinned := by simp
  readers := by
    rw [hsame .reader (by decide) (by decide), hsame .shared (by decide) (by decide), h.readers]
  writers := by
    rw [hsame .writer (by decide) (by decide), hsame .exclusive (by decide) (by decide),
      h.writers]
  queued := (hsame .queued (by decide) (by decide)).trans h.queued
  active := (hsame .active (by decide) (by decide)).trans h.active
  single := by
    rw [hsame .queued (by decide) (by decide), hsame .active (by decide) (by decide)]
    exact h.single
  writing := fun hwriteback => ⟨rfl, (h.writing hwriteback).2⟩
  clean := fun _ => rfl

theorem release (h : Counts record freeCount held) (hwriteback : record.writeback = false)
    {waiters : Bool} (hloading : held' .loading = 0) (hpin : held' .pin = 0)
    (hfree : held' .free + freeCount = 1)
    (hsame : ∀ right, right ≠ .pin → right ≠ .loading → right ≠ .free →
      held' right = held right) :
    Counts { state := .free, dirty := false, queued := false, active := false,
             prefetched := false, redirtied := false, exclusive := record.exclusive,
             shared := record.shared, waiters := waiters, pins := 0 } freeCount held' := by
  have hqueued := h.queued
  have hactive := h.active
  simp only [ControlFields.writeback, Bool.or_eq_false_iff] at hwriteback
  simp only [hwriteback, Bool.false_eq_true, if_false] at hqueued hactive
  have hqueued' := hsame .queued (by decide) (by decide) (by decide)
  have hactive' := hsame .active (by decide) (by decide) (by decide)
  have hshared := hsame .shared (by decide) (by decide) (by decide)
  have hexclusive := hsame .exclusive (by decide) (by decide) (by decide)
  have hreader := hsame .reader (by decide) (by decide) (by decide)
  have hwriter := hsame .writer (by decide) (by decide) (by decide)
  constructor
  case shared => rw [hshared]; exact h.shared
  case exclusive => rw [hexclusive]; exact h.exclusive
  case latch => exact h.latch
  case readers => rw [hreader, hshared, h.readers]
  case writers => rw [hwriter, hexclusive, h.writers]
  all_goals (try simp [ControlFields.writeback]) <;> omega

theorem refree (h : Counts record freeCount held) {freeCount' : Nat}
    (hfree : held' .free + freeCount' = held .free + freeCount)
    (hsame : ∀ right, right ≠ .free → held' right = held right) :
    Counts record freeCount' held' where
  valid := h.valid
  pins := by rw [hsame .pin (by decide), hsame .loading (by decide), h.pins]
  shared := by rw [hsame .shared (by decide), h.shared]
  exclusive := by rw [hsame .exclusive (by decide), h.exclusive]
  latch := h.latch
  loading := by rw [hsame .loading (by decide), h.loading]
  free := hfree.trans h.free
  pinned := by rw [hsame .pin (by decide)]; exact h.pinned
  readers := by rw [hsame .reader (by decide), hsame .shared (by decide), h.readers]
  writers := by rw [hsame .writer (by decide), hsame .exclusive (by decide), h.writers]
  queued := by rw [hsame .queued (by decide), h.queued]
  active := by rw [hsame .active (by decide), h.active]
  single := by rw [hsame .queued (by decide), hsame .active (by decide)]; exact h.single
  writing := h.writing
  clean := h.clean

end Counts

namespace Control

variable {shared : Shared n blockSize} {used given rest : Multiset (Token n blockSize)}
  {frame : Fin n} {next : Word}

theorem setWord_sameState (h : Control shared (used + rest))
    (hstate : (fields next).state = (fields (shared.word frame)).state)
    (hcounts : Counts (fields next) (shared.freeList.count frame) (held (given + rest) frame))
    (hothers : ∀ other, other ≠ frame → ∀ right, held given other right = held used other right)
    (hholds : ∀ token ∈ given, token.Holds shared) :
    Control (shared.setWord frame next) (given + rest) :=
  h.setWord frame next hcounts hothers hholds
    (fun hresident => h.resident frame (hstate ▸ hresident)) fun hfree => .inl (hstate ▸ hfree)

theorem tryPinResident (h : Control shared (0 + rest))
    (hpin : FrameControl.tryPinResident (shared.word frame) = some (true, next)) :
    Control (shared.setWord frame next) ({.rawPin frame} + rest) := by
  obtain ⟨hfalse, -⟩ | ⟨-, hstate, -, hnext⟩ := tryPinResident_cases hpin
  · cases hfalse
  refine h.setWord_sameState (by rw [hnext]) ?_ ?_ ?_
  · have hcounts := h.counts frame
    have hpins := hcounts.pins
    rw [hnext]
    refine hcounts.repin ?_ (fun _ => hstate) fun right hne => ?_
    · simp [Token.rights] at hpins ⊢
      omega
    · simp [Token.rights, hne]
  · intro other hne right
    simp [Token.rights, hne]
  · simp [Token.Holds]

theorem unpin {tag : BufferTag} (h : Control shared ({.pin frame tag} + rest)) :
    Control (shared.setWord frame (FrameControl.unpin (shared.word frame)).2) (0 + rest) := by
  have hcounts := h.counts frame
  have hpins := hcounts.pins
  simp [Token.rights] at hpins
  have hnext := (unpin_of_pinned (shared.word frame) (by omega)).2
  refine h.setWord_sameState (by rw [hnext]) ?_ ?_ (by simp)
  · have hresident := h.resident_of_pin tag mem_own
    rw [hnext]
    refine hcounts.repin ?_ (fun _ => hresident) fun right hne => ?_
    · simp
      omega
    · simp [Token.rights, hne]
  · intro other hne right
    simp [Token.rights, hne]

theorem acquireShared (h : Control shared (0 + rest))
    (hacquire : tryAcquireShared (shared.word frame) = (true, next)) :
    Control (shared.setWord frame next) (({.shared frame} + {.reader frame}) + rest) := by
  obtain ⟨hexclusive, -, hnext⟩ := tryAcquireShared_true hacquire
  refine h.setWord_sameState (by rw [hnext]) ?_ ?_ ?_
  · have hcounts := h.counts frame
    have hshared := hcounts.shared
    have hexclusives := hcounts.exclusive
    have hreaders := hcounts.readers
    have hwriters := hcounts.writers
    simp only [zero_add] at hshared hexclusives hreaders hwriters
    rw [hnext]
    refine hcounts.relatch ?_ ?_ ?_ ?_ ?_ ?_
    · simp [Token.rights]
      omega
    · simpa [Token.rights] using hexclusives
    · simp [hexclusive]
    · simp [Token.rights, hreaders]
    · simp [Token.rights, hwriters]
    · rintro _ (rfl | rfl | rfl | rfl | rfl) <;> simp [Token.rights]
  · intro other hne right
    simp [Token.rights, hne]
  · simp [Token.Holds]

theorem releaseShared (h : Control shared (({.shared frame} + {.reader frame}) + rest)) :
    Control (shared.setWord frame (FrameControl.releaseShared (shared.word frame)).1)
      (0 + rest) := by
  have hcounts := h.counts frame
  have hshared := hcounts.shared
  have hexclusives := hcounts.exclusive
  have hreaders := hcounts.readers
  have hwriters := hcounts.writers
  simp [Token.rights] at hshared hexclusives hreaders hwriters
  have hnext := fields_releaseShared (shared.word frame) (by omega)
  refine h.setWord_sameState (by rw [hnext]) ?_ ?_ (by simp)
  · rw [hnext]
    refine hcounts.relatch ?_ ?_ ?_ ?_ ?_ ?_
    · simp
      omega
    · simpa using hexclusives
    · intro hexclusive
      have := hcounts.latch hexclusive
      omega
    · simp
      omega
    · simpa using hwriters
    · rintro _ (rfl | rfl | rfl | rfl | rfl) <;> simp [Token.rights]
  · intro other hne right
    simp [Token.rights, hne]

theorem acquireExclusive (h : Control shared (0 + rest)) (mark : Mark)
    (hacquire : tryAcquireExclusive (shared.word frame) = (true, next)) :
    Control (shared.setWord frame next)
      (({.exclusive frame} + {.writer frame mark}) + rest) := by
  obtain ⟨hlatched, hnext⟩ := tryAcquireExclusive_true hacquire
  rw [latched_eq] at hlatched
  simp only [Bool.or_eq_false_iff, decide_eq_false_iff_not, not_not] at hlatched
  refine h.setWord_sameState (by rw [hnext]) ?_ ?_ ?_
  · have hcounts := h.counts frame
    have hshared := hcounts.shared
    have hexclusives := hcounts.exclusive
    have hreaders := hcounts.readers
    have hwriters := hcounts.writers
    simp only [zero_add, hlatched] at hshared hexclusives hreaders hwriters
    rw [hnext]
    refine hcounts.relatch ?_ ?_ ?_ ?_ ?_ ?_
    · simp [Token.rights, hlatched, hshared]
    · simp [Token.rights, hexclusives]
    · simp [hlatched]
    · simp [Token.rights, hreaders]
    · simp [Token.rights, hwriters]
    · rintro _ (rfl | rfl | rfl | rfl | rfl) <;> simp [Token.rights]
  · intro other hne right
    simp [Token.rights, hne]
  · simp [Token.Holds]

theorem releaseExclusive {mark : Mark}
    (h : Control shared (({.exclusive frame} + {.writer frame mark}) + rest)) :
    Control (shared.setWord frame (FrameControl.releaseExclusive (shared.word frame)).1)
      (0 + rest) := by
  have hnext := fields_releaseExclusive (shared.word frame)
  obtain ⟨-, hone, hnone⟩ := h.of_exclusive (Multiset.mem_add.mpr (.inl mem_own))
  have hcounts := h.counts frame
  have hreaders := hcounts.readers
  have hwriters := hcounts.writers
  have hshared := hcounts.shared
  simp [Token.rights] at hone hnone hreaders hwriters hshared
  refine h.setWord_sameState (by rw [hnext]) ?_ ?_ (by simp)
  · rw [hnext]
    refine hcounts.relatch ?_ ?_ ?_ ?_ ?_ ?_
    · simpa using hshared
    · simpa using hone
    · simp
    · simpa using hreaders
    · simp
      omega
    · rintro _ (rfl | rfl | rfl | rfl | rfl) <;> simp [Token.rights]
  · intro other hne right
    simp [Token.rights, hne]

theorem markDirty {mark : Mark} (h : Control shared ({.writer frame mark} + rest))
    (hresident : (fields (shared.word frame)).state = .resident) :
    Control (shared.setWord frame (FrameControl.markDirty (shared.word frame)).2)
      ({.writer frame .dirty} + rest) := by
  have hnext := (fields_markDirty (shared.word frame) hresident).2
  have hcounts := h.counts frame
  have hqueued := hcounts.queued
  have hactive := hcounts.active
  have hsingle := hcounts.single
  refine h.setWord_sameState (by rw [hnext]) ?_ ?_ (by simp [Token.Holds])
  · rw [hnext]
    refine hcounts.rewriteBack ?_ ?_ ?_ (fun _ => ⟨hresident, rfl⟩) (fun _ => hresident) ?_
    · simpa [Token.rights] using hqueued
    · simpa [Token.rights] using hactive
    · simpa [Token.rights] using hsingle
    · intro right _ _
      simp [Token.rights]
  · intro other _ right
    simp [Token.rights]

theorem queueWriteback {skipIfPinned : Bool} (h : Control shared (0 + rest))
    (hqueue : tryQueueWriteback skipIfPinned (shared.word frame) = (.queued, next)) :
    Control (shared.setWord frame next) ({.writeback frame .queued} + rest) := by
  obtain ⟨hidle, hresident, hdirty, -, hnext⟩ := tryQueueWriteback_queued hqueue
  have hcounts := h.counts frame
  have hqueued := hcounts.queued
  have hactive := hcounts.active
  rw [hasWriteback_eq, ControlFields.writeback, Bool.or_eq_false_iff] at hidle
  simp [hidle] at hqueued hactive
  refine h.setWord_sameState (by rw [hnext]) ?_ ?_ ?_
  · rw [hnext]
    refine hcounts.rewriteBack ?_ ?_ ?_ (fun _ => ⟨hresident, hdirty⟩) (fun _ => hresident) ?_
    · simp [Token.rights, WritebackStage.latch?, WritebackStage.active, hqueued]
    · simp [Token.rights, WritebackStage.latch?, WritebackStage.active, hactive, hidle]
    · simp [Token.rights, WritebackStage.latch?, WritebackStage.active, hqueued, hactive]
    · intro right hne _
      simp [Token.rights, WritebackStage.latch?, WritebackStage.active, hne]
  · intro other hne right
    simp [Token.rights, WritebackStage.latch?, hne]
  · simp [Token.Holds, WritebackStage.tag?]

theorem beginWriteback {tag : BufferTag} {snapshot : Page blockSize}
    (h : Control shared ({.writeback frame (.copied tag snapshot)} + rest)) :
    Control (shared.setWord frame (FrameControl.beginWriteback (shared.word frame)).1)
      ({.writeback frame (.begun tag snapshot)} + rest) := by
  have hnext := fields_beginWriteback (shared.word frame)
  obtain ⟨-, hresident, hdirty⟩ := h.of_writeback mem_own
  have htag : (shared.descriptors frame).tag = tag := h.holds _ mem_own tag rfl
  have hcounts := h.counts frame
  have hsingle := hcounts.single
  simp [Token.rights, WritebackStage.latch?, WritebackStage.active] at hsingle
  refine h.setWord_sameState (by rw [hnext]) ?_ ?_ ?_
  · rw [hnext]
    refine hcounts.rewriteBack ?_ ?_ ?_ (fun _ => ⟨hresident, hdirty⟩) (fun _ => hresident) ?_
    · simp [Token.rights, WritebackStage.latch?, WritebackStage.active]
      omega
    · simp [Token.rights, WritebackStage.latch?, WritebackStage.active]
      omega
    · simp [Token.rights, WritebackStage.latch?, WritebackStage.active]
      omega
    · intro right hne hne'
      simp [Token.rights, WritebackStage.latch?, WritebackStage.active, hne, hne']
  · intro other hne right
    simp [Token.rights, WritebackStage.latch?, hne]
  · simp [Token.Holds, WritebackStage.tag?, htag]

theorem endWriteback {stage : WritebackStage blockSize} {dirty active redirtied waiters : Bool}
    (h : Control shared ({.writeback frame stage} + rest)) (hlatch : stage.latch? = none)
    (hactive : active = true → stage.active = false ∧ (fields (shared.word frame)).active = true)
    (hnext : fields next = { fields (shared.word frame) with
      dirty := dirty
      queued := false
      active := active
      redirtied := redirtied
      waiters := waiters }) :
    Control (shared.setWord frame next) (0 + rest) := by
  obtain ⟨-, hresident, -⟩ := h.of_writeback mem_own
  have hcounts := h.counts frame
  have hsingle := hcounts.single
  have hold := hcounts.active
  have hnone : held rest frame .queued = 0 ∧ held rest frame .active = 0 := by
    cases hstage : stage.active <;> simp [Token.rights, hlatch, hstage] at hsingle <;> omega
  have hoff : active = false := by
    by_contra hon
    obtain ⟨hstage, hbit⟩ := hactive (by simpa using hon)
    simp [Token.rights, hlatch, hstage, hbit, hnone] at hold
  subst hoff
  refine h.setWord_sameState (by rw [hnext]) ?_ ?_ (by simp)
  · rw [hnext]
    refine hcounts.rewriteBack ?_ ?_ ?_ (by simp) (fun _ => hresident) ?_
    · simp [hnone]
    · simp [hnone]
    · simp [hnone]
    · intro right hne hne'
      cases hstage : stage.active <;> simp [Token.rights, hlatch, hstage, hne, hne']
  · intro other hne right
    simp [Token.rights, hlatch, hne]

theorem cancelWriteback {tag : BufferTag} {snapshot : Page blockSize}
    (h : Control shared ({.writeback frame (.copied tag snapshot)} + rest)) :
    Control (shared.setWord frame (cancelQueuedWriteback (shared.word frame)).1) (0 + rest) :=
  h.endWriteback rfl (fun hactive => ⟨rfl, hactive⟩)
    (fields_cancelQueuedWriteback (shared.word frame))

theorem completeWriteback {stage : WritebackStage blockSize} (succeeded : Bool)
    (h : Control shared ({.writeback frame stage} + rest)) (hlatch : stage.latch? = none) :
    Control (shared.setWord frame (FrameControl.completeWriteback succeeded
      (shared.word frame)).2.1) (0 + rest) :=
  h.endWriteback hlatch (fun hfalse => Bool.noConfusion hfalse)
    (fields_completeWriteback succeeded (shared.word frame)).2

theorem reserve (h : Control shared (used + rest)) {stage : LoadStage} {observed : Word}
    {popped : Bool}
    (hreserve : tryReserve popped (shared.word frame) = ((.reserved, observed), next))
    (hused : ∀ other right, (other ≠ frame ∨ right ≠ .free) → held used other right = 0)
    (hfree : held rest frame .free + shared.freeList.count frame = 0)
    (hholds : Token.Holds shared (.loading frame stage))
    (hlive : (fields (shared.word frame)).state ≠ .free ∨
      shared.pageTable.Maps frame none) :
    Control (shared.setWord frame next) ({.loading frame stage} + rest) := by
  obtain ⟨-, -, -, -, hpins, hlatched, hwriteback, hnext⟩ := tryReserve_reserved hreserve
  rw [latched_eq] at hlatched
  simp only [Bool.or_eq_false_iff, decide_eq_false_iff_not, not_not] at hlatched
  rw [hasWriteback_eq] at hwriteback
  refine h.setWord frame next ?_ ?_ ?_ ?_ fun _ => hlive
  · rw [hnext]
    refine (h.counts frame).reserve hpins hlatched.1 hlatched.2 hwriteback ?_ ?_ ?_
    · simpa [Token.rights] using hfree
    · simp [Token.rights, hused frame .loading (.inr (by decide))]
      omega
    · intro right hne hne'
      simp [Token.rights, hne', hused frame right (.inr hne)]
  · intro other hne right
    simp [Token.rights, hne, hused other right (.inl hne)]
  · simpa using hholds
  · rw [hnext]
    intro hstate
    cases hstate

theorem reservePopped (h : Control shared ({.free frame .unlinked} + rest)) {observed : Word}
    {popped : Bool}
    (hreserve : tryReserve popped (shared.word frame) = ((.reserved, observed), next)) :
    Control (shared.setWord frame next) ({.loading frame .fresh} + rest) := by
  have hunlinked : shared.pageTable.Maps frame none := h.holds _ mem_own
  have hfree := (h.counts frame).free
  simp [Token.rights, h.state_of_free mem_own] at hfree
  refine h.reserve hreserve ?_ ?_ hunlinked (.inr hunlinked)
  · rintro other right (hne | hne) <;> simp [Token.rights, hne]
  · omega

theorem reserveVictim (h : Control shared (0 + rest)) {observed : Word}
    (hreserve : tryReserve false (shared.word frame) = ((.reserved, observed), next)) :
    Control (shared.setWord frame next) ({.loading frame .claimed} + rest) := by
  obtain ⟨-, hpopped, hloading, -⟩ := tryReserve_reserved hreserve
  have hcounts := h.counts frame
  have hstate : (fields (shared.word frame)).state = .resident := by
    have hvalid := hcounts.valid
    have hnotFree : (fields (shared.word frame)).state ≠ .free := fun hfree =>
      Bool.noConfusion (hpopped hfree)
    cases hcase : (fields (shared.word frame)).state <;> simp_all
  have hfree := hcounts.free
  simp [hstate] at hfree
  refine h.reserve hreserve (by simp) (by omega) (h.resident frame hstate).linked (.inl ?_)
  rw [hstate]
  decide

theorem held_of_loading {stage : LoadStage} (h : Control shared ({.loading frame stage} + rest)) :
    held rest frame .loading = 0 ∧ held rest frame .pin = 0 := by
  have hstate := h.state_of_loading mem_own
  have hloading := (h.counts frame).loading
  have hpinned := (h.counts frame).pinned
  simp [Token.rights, hstate] at hloading hpinned
  exact ⟨by omega, by omega⟩

theorem publish {tag : BufferTag} {fill : Fill} (releasePin : Bool)
    (h : Control shared ({.loading frame (.recorded tag fill)} + rest)) :
    Control (shared.setWord frame (publishResident releasePin (shared.word frame)).1)
      ((if releasePin then 0 else {.pin frame tag}) + rest) := by
  have hstate := h.state_of_loading mem_own
  obtain ⟨hlinked, htag, htracked⟩ := h.holds _ mem_own
  obtain ⟨hloading, hpin⟩ := h.held_of_loading
  have hpins := (h.counts frame).pins
  simp [Token.rights, hloading, hpin] at hpins
  have hnext := fields_publishResident releasePin (shared.word frame) hpins
  refine h.setWord frame _ ?_ ?_ ?_ ?_ fun _ => .inl (by rw [hstate]; decide)
  · rw [hnext]
    refine (h.counts frame).publish hstate ?_ ?_ ?_
    · cases releasePin <;> simp [Token.rights, hloading]
    · cases releasePin <;> simp [Token.rights, hpin]
    · intro right hne hne'
      cases releasePin <;> simp [Token.rights, hne, hne']
  · intro other hne right
    cases releasePin <;> simp [Token.rights, hne]
  · cases releasePin <;> simp [Token.Holds, htag]
  · exact fun _ => ⟨htracked, htag.symm ▸ hlinked⟩

theorem releaseToFree (h : Control shared ({.loading frame .unmapped} + rest)) :
    Control (shared.setWord frame (FrameControl.releaseToFree (shared.word frame)).1)
      ({.free frame .unlinked} + rest) := by
  have hstate := h.state_of_loading mem_own
  have hunlinked : shared.pageTable.Maps frame none := h.holds _ mem_own
  obtain ⟨hloading, hpin⟩ := h.held_of_loading
  have hcounts := h.counts frame
  have hfree := hcounts.free
  simp [Token.rights, hstate] at hfree
  have hidle : (fields (shared.word frame)).writeback = false := by
    by_contra hon
    have hresident := (hcounts.writing (by simpa using hon)).1
    rw [hstate] at hresident
    cases hresident
  have hnext := fields_releaseToFree (shared.word frame)
  refine h.setWord frame _ ?_ ?_ ?_ ?_ fun _ => .inr hunlinked
  · rw [hnext]
    refine hcounts.release hidle ?_ ?_ ?_ ?_
    · simp [Token.rights, hloading]
    · simp [Token.rights, hpin]
    · simp [Token.rights]
      omega
    · intro right hne hne' hne''
      simp [Token.rights, hne', hne'']
  · intro other hne right
    simp [Token.rights, hne]
  · simp [Token.Holds, FreeStage.Holds, hunlinked]
  · rw [hnext]
    intro hresident
    cases hresident

theorem discard {tag : BufferTag} (h : Control shared ({.pin frame tag} + rest))
    {previous : Option Word} {wake : Bool}
    (hdiscard : tryDiscardPinned (shared.word frame) = ((.discarded, previous), next, wake)) :
    Control (shared.setWord frame next) ({.free frame (.discarded tag)} + rest) := by
  obtain ⟨-, rfl, -, hstate, hone, hidle, hlatched⟩ := tryDiscardPinned_discarded hdiscard
  rw [hasWriteback_eq] at hidle
  rw [latched_eq] at hlatched
  simp only [Bool.or_eq_false_iff, decide_eq_false_iff_not, not_not] at hlatched
  have htag : (shared.descriptors frame).tag = tag := h.holds _ mem_own
  have hlinked := htag ▸ (h.resident frame hstate).linked
  have hcounts := h.counts frame
  have hpins := hcounts.pins
  have hfree := hcounts.free
  have hloading := hcounts.loading
  simp [Token.rights, hstate, hone] at hpins hfree hloading
  have hzero : fields (0#32) =
      { state := .free, dirty := false, queued := false, active := false,
        prefetched := false, redirtied := false,
        exclusive := (fields (shared.word frame)).exclusive,
        shared := (fields (shared.word frame)).shared, waiters := false, pins := 0 } := by
    rw [hlatched.1, hlatched.2]
    decide
  refine h.setWord frame _ ?_ ?_ ?_ ?_ ?_
  · rw [hzero]
    refine hcounts.release hidle ?_ ?_ ?_ ?_
    · simpa [Token.rights] using hloading
    · simp [Token.rights]
      omega
    · simp [Token.rights]
      omega
    · intro right hne hne' hne''
      simp [Token.rights, hne, hne'']
  · intro other hne right
    simp [Token.rights, hne]
  · intro token hmem
    rw [Multiset.mem_singleton.mp hmem]
    exact hlinked.keyed
  · rw [hzero]
    intro hresident
    cases hresident
  · rw [hzero]
    intro hfree
    exact absurd rfl hfree

end Control

end TelePath
