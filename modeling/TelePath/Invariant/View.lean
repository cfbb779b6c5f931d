import TelePath.Invariant.ControlSound

/-!
Pages as the invariants on data see them: which frame holds a page, whether it is dirty, and
what the holder of its exclusive latch has done.
-/

namespace TelePath

open FrameControl

variable {n blockSize : Nat}

/-- What a control word says about the page in its frame. -/
structure FrameView where
  state : BufferFrameState
  dirty : Bool
  redirtied : Bool
  exclusive : Bool
  deriving DecidableEq, Repr

def FrameControl.ControlFields.view (record : ControlFields) : FrameView :=
  ⟨record.state, record.dirty, record.redirtied, record.exclusive⟩

def Shared.view (shared : Shared n blockSize) (frame : Fin n) : FrameView :=
  (fields (shared.word frame)).view

theorem Shared.view_setWord (shared : Shared n blockSize) (frame : Fin n) (word : Word) :
    (shared.setWord frame word).view = Function.update shared.view frame (fields word).view := by
  funext other
  by_cases hne : other = frame
  · subst hne
    rw [Function.update_self, Shared.view, Shared.word_setWord_self]
  · rw [Function.update_of_ne hne, Shared.view, Shared.word_setWord_of_ne shared word hne,
      Shared.view]

theorem Shared.view_setDescriptor (shared : Shared n blockSize) (frame : Fin n)
    {update : BufferDescriptor → BufferDescriptor}
    (h : ∀ old, (update old).control = old.control) :
    (shared.setDescriptor frame update).view = shared.view := by
  funext other
  by_cases hne : other = frame
  · subst hne
    simp [Shared.view, Shared.word, Shared.setDescriptor, h]
  · simp [Shared.view, Shared.word, Shared.setDescriptor, hne]

/-- Everything there is to know about pages: what each frame holds and what the backend
holds. -/
structure Pages (n blockSize : Nat) where
  view : Fin n → FrameView
  tag : Fin n → BufferTag
  data : Fin n → Page blockSize
  disk : BufferTag → Page blockSize

def Shared.pages (shared : Shared n blockSize) : Pages n blockSize where
  view := shared.view
  tag frame := (shared.descriptors frame).tag
  data := shared.frameData
  disk := shared.diskPage

theorem Shared.pages_setWord (shared : Shared n blockSize) (frame : Fin n) (word : Word) :
    (shared.setWord frame word).pages =
      { shared.pages with view := Function.update shared.view frame (fields word).view } := by
  have hat : ∀ other, ((shared.setWord frame word).descriptors other).tag =
        (shared.descriptors other).tag := by
    intro other
    by_cases hne : other = frame
    · subst hne
      simp [Shared.setWord, Shared.setDescriptor]
    · simp [Shared.setWord, Shared.setDescriptor, hne]
  simp only [Shared.pages, Shared.view_setWord, hat]
  rfl

theorem Shared.pages_setWord_same (shared : Shared n blockSize) (frame : Fin n) {word : Word}
    (h : (fields word).view = (fields (shared.word frame)).view) :
    (shared.setWord frame word).pages = shared.pages := by
  rw [Shared.pages_setWord, h]
  change ({ shared.pages with view := Function.update shared.view frame (shared.view frame) } :
    Pages n blockSize) = _
  rw [Function.update_eq_self]
  rfl

/-- `frame` holds `tag`, with changes that its writeback has not cleared. -/
structure DirtyFrame (pages : Pages n blockSize) (frame : Fin n) (tag : BufferTag) : Prop where
  resident : (pages.view frame).state = .resident
  dirty : (pages.view frame).dirty = true
  tag : pages.tag frame = tag

namespace Control

variable {shared : Shared n blockSize} {owned used rest : Multiset (Token n blockSize)}
  {frame other : Fin n} {tag : BufferTag}

section Small

-- with more frames the page table can lose frames that it has linked
variable [small : Fact (n ≤ 2 ^ 31)]

theorem unique (h : Control shared owned)
    (hstate : (fields (shared.word frame)).state ≠ .free)
    (hlinked : shared.pageTable.Maps frame (some tag)) (htag : (shared.descriptors frame).tag = tag)
    (hstate' : (fields (shared.word other)).state ≠ .free)
    (hlinked' : shared.pageTable.Maps other (some tag))
    (htag' : (shared.descriptors other).tag = tag) : frame = other := by
  refine h.coherent.unique small.out (hlinked small.out) ?_ (hlinked' small.out) ?_
  · simpa [Shared.isLiveFor] using ⟨hstate, htag⟩
  · simpa [Shared.isLiveFor] using ⟨hstate', htag'⟩

theorem resident_unique (h : Control shared owned)
    (hstate : (shared.view frame).state = .resident)
    (hstate' : (shared.view other).state = .resident)
    (htag : (shared.descriptors frame).tag = (shared.descriptors other).tag) :
    frame = other := by
  refine h.unique ?_ (htag ▸ (h.resident frame hstate).linked) htag ?_
    (h.resident other hstate').linked rfl
  · exact fun hfree => absurd (hfree.symm.trans hstate) (by decide)
  · exact fun hfree => absurd (hfree.symm.trans hstate') (by decide)

theorem not_resident_of_installed (h : Control shared owned) {stage : LoadStage} {fill : Fill}
    (hmem : .loading frame stage ∈ owned)
    (hstage : stage = .installed tag fill ∨ stage = .recorded tag fill)
    (htag : (shared.descriptors other).tag = tag) :
    (shared.view other).state ≠ .resident := by
  intro hresident
  have hloading := h.state_of_loading hmem
  have hholds := h.holds _ hmem
  obtain ⟨hlinked, hown⟩ : shared.pageTable.Maps frame (some tag) ∧
      (shared.descriptors frame).tag = tag := by
    rcases hstage with rfl | rfl
    · exact hholds
    · exact ⟨hholds.1, hholds.2.1⟩
  obtain rfl : frame = other := by
    refine h.unique ?_ hlinked hown ?_ (htag ▸ (h.resident other hresident).linked) htag
    · rw [hloading]
      decide
    · exact fun hfree => absurd (hfree.symm.trans hresident) (by decide)
  exact absurd (hloading.symm.trans hresident) (by decide)

end Small

theorem not_resident_of_owner {owner : Token n blockSize} (h : Control shared ({owner} + rest))
    (howner : held {owner} frame .loading + held {owner} frame .free = 1) :
    (shared.view frame).state ≠ .resident := by
  intro hstate
  have hloading := (h.counts frame).loading
  have hfree := (h.counts frame).free
  change (fields (shared.word frame)).state = .resident at hstate
  rw [held_add] at hloading hfree
  simp only [hstate, reduceCtorEq, if_false] at hloading hfree
  omega

theorem pins_of_loading (h : Control shared owned) {stage : LoadStage}
    (hmem : .loading frame stage ∈ owned) : (fields (shared.word frame)).pins = 1 := by
  obtain ⟨rest, rfl⟩ := Multiset.exists_cons_of_mem hmem
  rw [← Multiset.singleton_add] at h
  obtain ⟨hloading, hpin⟩ := h.held_of_loading
  have hpins := (h.counts frame).pins
  simpa [Token.rights, hloading, hpin] using hpins

theorem held_of_writeback {stage : WritebackStage blockSize} (hmem : .writeback frame stage ∈ owned) :
    0 < held owned frame .queued + held owned frame .active := by
  cases hactive : stage.active with
  | false =>
      have hpos : 0 < held owned frame .queued :=
        held_pos hmem (by simp [Token.rights, hactive])
      omega
  | true =>
      have hpos : 0 < held owned frame .active :=
        held_pos hmem (by simp [Token.rights, hactive])
      omega

theorem writeback_unique (h : Control shared (used + rest))
    {stage : WritebackStage blockSize} (hused : .writeback frame stage ∈ used)
    (stage' : WritebackStage blockSize) : .writeback frame stage' ∉ rest := by
  intro hmem
  have hsingle := (h.counts frame).single
  have hfirst := held_of_writeback hused
  have hsecond := held_of_writeback hmem
  rw [held_add, held_add] at hsingle
  omega

theorem right_of_mark {mark : Mark} {token : Token n blockSize}
    (h : token.mark? frame = some mark) : (.writer, frame) ∈ token.rights := by
  cases token with
  | writer holder held =>
      by_cases heq : holder = frame
      · simp [Token.rights, heq]
      · simp [Token.mark?, heq] at h
  | writeback holder stage =>
      cases hlatch : stage.latch? with
      | none => simp [Token.mark?, hlatch] at h
      | some latch =>
          cases latch with
          | reader => simp [Token.mark?, hlatch] at h
          | writer held =>
              by_cases heq : holder = frame
              · simp [Token.rights, hlatch, Latch.right, heq]
              · simp [Token.mark?, hlatch, heq] at h
  | _ => cases h

theorem exclusive_of_mark (h : Control shared owned) {mark : Mark} {token : Token n blockSize}
    (hmem : token ∈ owned) (hmark : token.mark? frame = some mark) :
    (shared.view frame).exclusive = true := by
  have hpos := held_pos hmem (right_of_mark hmark)
  have hcounts := h.counts frame
  rw [hcounts.writers, hcounts.exclusive] at hpos
  by_contra hoff
  have hbit : (shared.view frame).exclusive = false := by simpa using hoff
  change (fields (shared.word frame)).exclusive = false at hbit
  rw [hbit] at hpos
  simp at hpos

theorem mark_unique {mark : Mark} {writer : Token n blockSize}
    (h : Control shared (used + rest)) (hwriter : writer ∈ used)
    (hmark : writer.mark? frame = some mark) {token : Token n blockSize} (hmem : token ∈ rest) :
    token.mark? frame = none := by
  by_contra hsome
  obtain ⟨other, hother⟩ := Option.ne_none_iff_exists'.mp hsome
  have hfirst := held_pos hwriter (right_of_mark hmark)
  have hsecond := held_pos hmem (right_of_mark hother)
  have hcounts := h.counts frame
  have hwriters := hcounts.writers
  rw [hcounts.exclusive, held_add] at hwriters
  split at hwriters <;> omega

end Control

section Words

/-! How each transition changes the view. -/

variable {word next : Word}

theorem view_tryPinResident {pinned : Bool}
    (h : tryPinResident word = some (pinned, next)) : (fields next).view = (fields word).view := by
  obtain ⟨-, rfl, -⟩ | ⟨-, -, -, hnext⟩ := tryPinResident_cases h
  · rfl
  · rw [hnext]
    rfl

theorem view_unpin (h : 0 < (fields word).pins) :
    (fields (unpin word).2).view = (fields word).view := by
  rw [(unpin_of_pinned word h).2]
  rfl

theorem view_tryAcquireShared {acquired : Bool} (h : tryAcquireShared word = (acquired, next)) :
    (fields next).view = (fields word).view := by
  cases acquired with
  | true =>
      rw [(tryAcquireShared_true h).2.2]
      rfl
  | false => rw [tryAcquireShared_unchanged h]

theorem view_releaseShared (h : 0 < (fields word).shared) :
    (fields (releaseShared word).1).view = (fields word).view := by
  rw [fields_releaseShared word h]
  rfl

theorem view_tryAcquireExclusive (h : tryAcquireExclusive word = (true, next)) :
    (fields word).view.exclusive = false ∧
      (fields next).view = { (fields word).view with exclusive := true } := by
  obtain ⟨hfree, hnext⟩ := tryAcquireExclusive_true h
  rw [latched_eq, Bool.or_eq_false_iff] at hfree
  refine ⟨hfree.1, ?_⟩
  rw [hnext]
  rfl

theorem view_releaseExclusive (word : Word) :
    (fields (releaseExclusive word).1).view =
      { (fields word).view with
        exclusive := false
        redirtied := (fields word).redirtied || hasWriteback word } := by
  rw [fields_releaseExclusive]
  rfl

theorem view_markDirty (h : (fields word).state = .resident) :
    (fields (markDirty word).2).view =
      { (fields word).view with
        dirty := true
        redirtied := (fields word).redirtied || hasWriteback word } := by
  rw [(fields_markDirty word h).2]
  rfl

theorem view_tryReserve {popped : Bool} {observed : Word}
    (h : tryReserve popped word = ((.reserved, observed), next)) :
    ((fields word).view.state = .resident → (fields word).view.dirty = false) ∧
      (fields word).view.exclusive = false ∧
      (fields next).view = ⟨.loading, false, false, false⟩ := by
  obtain ⟨-, -, -, hclean, -, hlatched, -, hnext⟩ := tryReserve_reserved h
  rw [latched_eq, Bool.or_eq_false_iff] at hlatched
  refine ⟨hclean, hlatched.1, ?_⟩
  rw [hnext]
  rfl

theorem view_publishResident (releasePin : Bool) (h : (fields word).pins = 1) :
    (fields (publishResident releasePin word).1).view =
      { (fields word).view with state := .resident } := by
  rw [fields_publishResident releasePin word h]
  rfl

theorem view_releaseToFree (word : Word) :
    (fields (releaseToFree word).1).view =
      ⟨.free, false, false, (fields word).exclusive⟩ := by
  rw [fields_releaseToFree]
  rfl

theorem view_tryDiscardPinned {previous : Option Word} {wake : Bool}
    (h : tryDiscardPinned word = ((.discarded, previous), next, wake)) :
    (fields word).view.exclusive = false ∧ (fields next).view = ⟨.free, false, false, false⟩ := by
  obtain ⟨-, rfl, -, -, -, -, hlatched⟩ := tryDiscardPinned_discarded h
  rw [latched_eq, Bool.or_eq_false_iff] at hlatched
  exact ⟨hlatched.1, by decide⟩

theorem view_tryQueueWriteback {skipIfPinned : Bool}
    (h : tryQueueWriteback skipIfPinned word = (.queued, next)) :
    (fields next).view = { (fields word).view with redirtied := false } := by
  rw [(tryQueueWriteback_queued h).2.2.2.2]
  rfl

theorem view_cancelQueuedWriteback (word : Word) :
    (fields (cancelQueuedWriteback word).1).view =
      { (fields word).view with redirtied := false } := by
  rw [fields_cancelQueuedWriteback]
  rfl

theorem view_completeWriteback (succeeded : Bool) (word : Word) :
    (fields (completeWriteback succeeded word).2.1).view =
      { (fields word).view with
        dirty := (fields word).dirty && !clearsDirty succeeded word
        redirtied := false } := by
  rw [(fields_completeWriteback succeeded word).2]
  rfl

end Words

def Action.changesPages : Action n blockSize → Bool
  | .tryReserve _ _ | .publishResident _ _ | .releaseToFree _ | .tryDiscardPinned _
  | .markDirty _ | .acquireExclusive _ _ _ | .releaseExclusive _ _ | .tryQueueWriteback _ _
  | .cancelQueuedWriteback _ | .completeWriteback _ _ | .storeTag _ _ | .zeroFrame _
  | .writeFrame _ _ => true
  | _ => false

theorem Shared.Agrees.pages {shared shared' : Shared n blockSize} (h : shared.Agrees shared') :
    shared'.pages = shared.pages := by
  have hview : shared'.view = shared.view := by
    funext frame
    rw [Shared.view, h.word, Shared.view]
  have hdisk : shared'.diskPage = shared.diskPage := by
    funext tag
    rw [Shared.diskPage, h.files, Shared.diskPage]
  simp only [Shared.pages, hview, h.tag, h.frameData, hdisk]

section Exec

/-! How the remaining actions change pages. -/

variable {shared shared' : Shared n blockSize} {choice : Choice n} {frame : Fin n}

theorem pages_acquireExclusive {tag : BufferTag} {mode : ReadBufferMode}
    (h : exec shared choice (.acquireExclusive frame tag mode) = some ((), shared')) :
    (shared.view frame).exclusive = false ∧
      shared'.pages = { shared.pages with
        view := Function.update shared.view frame
          { shared.view frame with exclusive := true } } := by
  simp only [exec] at h
  split at h
  · rename_i next hacquire
    cases h
    obtain ⟨hfree, hnext⟩ := view_tryAcquireExclusive hacquire
    exact ⟨hfree, by rw [Shared.pages_setWord, hnext]; rfl⟩
  · cases h

theorem pages_releaseExclusive {tag : BufferTag}
    (h : exec shared choice (.releaseExclusive frame tag) = some ((), shared')) :
    shared'.pages = { shared.pages with
      view := Function.update shared.view frame
        { shared.view frame with
          exclusive := false
          redirtied := (shared.view frame).redirtied || hasWriteback (shared.word frame) } } := by
  cases h
  rw [Shared.pages_setWord, view_releaseExclusive]
  rfl

theorem pages_markDirty {reply : Option Bool}
    (h : exec shared choice (.markDirty frame) = some (reply, shared'))
    (hresident : (shared.view frame).state = .resident) :
    shared'.pages = { shared.pages with
      view := Function.update shared.view frame
        { shared.view frame with
          dirty := true
          redirtied := (shared.view frame).redirtied || hasWriteback (shared.word frame) } } := by
  obtain ⟨rfl, rfl⟩ := Shared.updateWord_eq h
  rw [Shared.pages_setWord, view_markDirty hresident]
  rfl

theorem pages_tryReserve {popped : Bool} {reply : ReserveOutcome × Word}
    (h : exec shared choice (.tryReserve frame popped) = some (reply, shared')) :
    if reply.1 = .reserved then
      ((shared.view frame).state = .resident → (shared.view frame).dirty = false) ∧
        (shared.view frame).exclusive = false ∧
        shared'.pages = { shared.pages with
          view := Function.update shared.view frame ⟨.loading, false, false, false⟩ }
    else shared' = shared := by
  obtain ⟨rfl, rfl⟩ := Shared.updateWord_eq h
  rcases hreserve : tryReserve popped (shared.word frame) with ⟨⟨outcome, observed⟩, next⟩
  by_cases hreserved : outcome = .reserved
  · subst hreserved
    obtain ⟨hclean, hfree, hnext⟩ := view_tryReserve hreserve
    rw [if_pos rfl, Shared.pages_setWord, hnext]
    exact ⟨hclean, hfree, rfl⟩
  · rw [if_neg hreserved, tryReserve_unchanged hreserve hreserved, Shared.setWord_word]

theorem pages_publishResident {releasePin : Bool}
    (h : exec shared choice (.publishResident frame releasePin) = some ((), shared'))
    (hpins : (fields (shared.word frame)).pins = 1) :
    shared'.pages = { shared.pages with
      view := Function.update shared.view frame
        { shared.view frame with state := .resident } } := by
  cases h
  rw [Shared.pages_setWord, view_publishResident releasePin hpins]
  rfl

theorem pages_releaseToFree
    (h : exec shared choice (.releaseToFree frame) = some ((), shared')) :
    shared'.pages = { shared.pages with
      view := Function.update shared.view frame
        ⟨.free, false, false, (shared.view frame).exclusive⟩ } := by
  cases h
  rw [Shared.pages_setWord, view_releaseToFree]
  rfl

theorem pages_tryDiscardPinned {reply : DiscardOutcome × Option Word}
    (h : exec shared choice (.tryDiscardPinned frame) = some (reply, shared')) :
    if reply.1 = .discarded then
      hasWriteback (shared.word frame) = false ∧ (shared.view frame).exclusive = false ∧
        shared'.pages = { shared.pages with
          view := Function.update shared.view frame ⟨.free, false, false, false⟩ }
    else shared' = shared := by
  obtain ⟨rfl, rfl⟩ := Shared.updateWord_eq h
  rcases hdiscard : tryDiscardPinned (shared.word frame) with ⟨⟨outcome, previous⟩, next, wake⟩
  by_cases hdiscarded : outcome = .discarded
  · subst hdiscarded
    obtain ⟨hfree, hnext⟩ := view_tryDiscardPinned hdiscard
    rw [if_pos rfl, Shared.pages_setWord, hnext]
    exact ⟨(tryDiscardPinned_discarded hdiscard).2.2.2.2.2.1, hfree, rfl⟩
  · rw [if_neg hdiscarded, tryDiscardPinned_unchanged hdiscard hdiscarded, Shared.setWord_word]

theorem pages_tryQueueWriteback {skipIfPinned : Bool} {reply : QueueOutcome}
    (h : exec shared choice (.tryQueueWriteback frame skipIfPinned) = some (reply, shared')) :
    if reply = .queued then
      hasWriteback (shared.word frame) = false ∧
        shared'.pages = { shared.pages with
          view := Function.update shared.view frame
            { shared.view frame with redirtied := false } }
    else shared' = shared := by
  obtain ⟨rfl, rfl⟩ := Shared.updateWord_eq h
  rcases hqueue : tryQueueWriteback skipIfPinned (shared.word frame) with ⟨outcome, next⟩
  by_cases hqueued : outcome = .queued
  · subst hqueued
    rw [if_pos rfl, Shared.pages_setWord, view_tryQueueWriteback hqueue]
    exact ⟨(tryQueueWriteback_queued hqueue).1, rfl⟩
  · rw [if_neg hqueued, tryQueueWriteback_unchanged hqueue hqueued, Shared.setWord_word]

theorem pages_cancelQueuedWriteback
    (h : exec shared choice (.cancelQueuedWriteback frame) = some ((), shared')) :
    shared'.pages = { shared.pages with
      view := Function.update shared.view frame { shared.view frame with redirtied := false } } := by
  cases h
  rw [Shared.pages_setWord, view_cancelQueuedWriteback]
  rfl

theorem pages_completeWriteback {succeeded : Bool} {reply : WritebackCompletion}
    (h : exec shared choice (.completeWriteback frame succeeded) = some (reply, shared')) :
    shared'.pages = { shared.pages with
      view := Function.update shared.view frame
        { shared.view frame with
          dirty := (shared.view frame).dirty && !clearsDirty succeeded (shared.word frame)
          redirtied := false } } := by
  obtain ⟨rfl, rfl⟩ := Shared.updateWord_eq h
  rw [Shared.pages_setWord, view_completeWriteback]
  rfl

theorem Shared.pages_setDescriptor (shared : Shared n blockSize) (frame : Fin n)
    {update : BufferDescriptor → BufferDescriptor}
    (h : ∀ old, (update old).control = old.control) :
    (shared.setDescriptor frame update).pages =
      { shared.pages with
        tag := Function.update shared.pages.tag frame (update (shared.descriptors frame)).tag } := by
  have htag : (fun other => ((shared.setDescriptor frame update).descriptors other).tag) =
      Function.update shared.pages.tag frame (update (shared.descriptors frame)).tag := by
    funext other
    by_cases hne : other = frame
    · subst hne
      simp [Shared.setDescriptor]
    · simp [Shared.setDescriptor, Shared.pages, hne]
  simp only [Shared.pages, shared.view_setDescriptor frame h, htag]
  rfl

end Exec

section Trade

variable {shared shared' : Shared n blockSize} {action : Action n blockSize}
  {seen used others : Multiset (Token n blockSize)}
  {given : Reply action → Multiset (Token n blockSize) → Prop} {choice : Choice n}
  {reply : Reply action}

theorem Trade.samePages (htrade : Trade action seen used given)
    (hcontrol : Control shared (used + (seen + others)))
    (haction : action.changesPages = false)
    (hexec : exec shared choice action = some (reply, shared')) :
    shared'.pages = shared.pages := by
  cases htrade with
  | silent hsilent => exact (exec_silent hsilent hexec).pages
  | tryPinResident frame =>
      obtain ⟨⟨pinned, next⟩, hpin, heq⟩ := Option.map_eq_some_iff.mp hexec
      obtain ⟨rfl, rfl⟩ := Prod.mk.inj heq
      exact shared.pages_setWord_same frame (view_tryPinResident hpin)
  | unpin frame tag =>
      obtain ⟨rfl, rfl⟩ := Shared.updateWord_eq hexec
      refine shared.pages_setWord_same frame (view_unpin ?_)
      have hpins := (hcontrol.counts frame).pins
      have hpos : 0 < held ({.pin frame tag} + (0 + others)) frame .pin :=
        held_pos mem_own (by simp [Token.rights])
      omega
  | tryAcquireShared frame =>
      obtain ⟨rfl, rfl⟩ := Shared.updateWord_eq hexec
      exact shared.pages_setWord_same frame (view_tryAcquireShared rfl)
  | acquireShared frame | latchShared frame tag =>
      simp only [exec] at hexec
      split at hexec
      · cases hexec
        exact shared.pages_setWord_same frame (view_tryAcquireShared ‹_›)
      · cases hexec
  | releaseShared frame =>
      cases hexec
      refine shared.pages_setWord_same frame (view_releaseShared ?_)
      have hshared := (hcontrol.counts frame).shared
      simp [Token.rights] at hshared
      omega
  | beginWriteback frame tag snapshot =>
      cases hexec
      refine shared.pages_setWord_same frame ?_
      rw [fields_beginWriteback]
      rfl
  | latchExclusive | latchZeroed | releaseExclusive | markDirty | writeFrame | reservePopped
  | reserveVictim | tagFresh | tagVictim | clearTag | clearFreeTag | publish | publishZeroed
  | releaseToFree | zeroFrame | discard | queueWriteback | cancelWriteback | completeWriteback
  | abandonWriteback =>
      exact Bool.noConfusion haction
  | _ =>
      cases hexec
      rfl

end Trade

/-- The holder of an exclusive latch finds its page resident, and dirty once it has said
that it changes it. -/
def Token.Marked (pages : Pages n blockSize) (token : Token n blockSize) : Prop :=
  ∀ frame mark, token.mark? frame = some mark →
    (mark ≠ .zeroed → (pages.view frame).state = .resident) ∧
      (mark = .dirty → (pages.view frame).dirty = true)

def Marked (pages : Pages n blockSize) (owned : Multiset (Token n blockSize)) : Prop :=
  ∀ token ∈ owned, token.Marked pages

theorem Token.Marked.of_none {pages : Pages n blockSize} {token : Token n blockSize}
    (h : ∀ frame, token.mark? frame = none) : token.Marked pages := by
  intro frame mark hmark
  rw [h] at hmark
  cases hmark

theorem Token.Marked.writer {pages : Pages n blockSize} {frame : Fin n} {mark : Mark}
    (hresident : mark ≠ .zeroed → (pages.view frame).state = .resident)
    (hdirty : mark = .dirty → (pages.view frame).dirty = true) :
    (.writer frame mark : Token n blockSize).Marked pages := by
  intro other mark' hmark
  by_cases heq : frame = other
  · subst heq
    obtain rfl : mark = mark' := by simpa [Token.mark?] using hmark
    exact ⟨hresident, hdirty⟩
  · simp [Token.mark?, heq] at hmark

namespace Marked

variable {pages pages' : Pages n blockSize} {shared shared' : Shared n blockSize}
  {owned used given rest : Multiset (Token n blockSize)} {frame : Fin n} {view : FrameView}

theorem exchange (h : Marked pages (used + rest))
    (hrest : ∀ token ∈ rest, token.Marked pages → token.Marked pages')
    (hgiven : ∀ token ∈ given, token.Marked pages') : Marked pages' (given + rest) := by
  intro token hmem
  rcases Multiset.mem_add.mp hmem with hmem | hmem
  · exact hgiven token hmem
  · exact hrest token hmem (h token (Multiset.mem_add.mpr (.inr hmem)))

theorem setView (h : Marked shared.pages (used + rest)) (hcontrol : Control shared (used + rest))
    (hpages : pages' = { shared.pages with view := Function.update shared.view frame view })
    (hkeep : (shared.view frame).exclusive = true → (shared.view frame).state = .resident →
      view.state = .resident ∧ ((shared.view frame).dirty = true → view.dirty = true))
    (hgiven : ∀ token ∈ given, token.Marked pages') : Marked pages' (given + rest) := by
  refine h.exchange (fun token hmem hmarked other mark hmark => ?_) hgiven
  obtain ⟨hresident, hdirty⟩ := hmarked other mark hmark
  subst hpages
  by_cases hne : other = frame
  · subst hne
    have hexclusive := hcontrol.exclusive_of_mark (Multiset.mem_add.mpr (.inr hmem)) hmark
    simp only [Function.update_self]
    refine ⟨fun hmark => (hkeep hexclusive (hresident hmark)).1, fun hmark => ?_⟩
    exact (hkeep hexclusive (hresident (by rw [hmark]; decide))).2 (hdirty hmark)
  · simp only [Function.update_of_ne hne]
    exact ⟨hresident, hdirty⟩

theorem quiet (h : Marked pages (used + rest)) (hview : pages'.view = pages.view)
    (hgiven : ∀ token ∈ given, ∀ frame mark, token.mark? frame = some mark →
      ∃ old ∈ used, old.mark? frame = some mark) : Marked pages' (given + rest) := by
  have hkeep : ∀ token : Token n blockSize, token.Marked pages → token.Marked pages' := by
    intro token hmarked frame mark hmark
    rw [hview]
    exact hmarked frame mark hmark
  refine h.exchange (fun token _ => hkeep token) fun token hmem frame mark hmark => ?_
  obtain ⟨old, hold, hmark'⟩ := hgiven token hmem frame mark hmark
  exact hkeep old (h old (Multiset.mem_add.mpr (.inl hold))) frame mark hmark'

variable {action : Action n blockSize} {seen others D : Multiset (Token n blockSize)}
  {result : Reply action → Multiset (Token n blockSize) → Prop} {choice : Choice n}
  {reply : Reply action}

theorem mark?_latch (latch : Latch) (frame other : Fin n) :
    (latch.token frame : Token n blockSize).mark? other =
      match latch with
      | .reader => none
      | .writer mark => if frame = other then some mark else none := by
  cases latch <;> rfl

theorem mark?_writeback {stage : WritebackStage blockSize} {latch : Latch}
    (h : stage.latch? = some latch) (frame other : Fin n) :
    (.writeback frame stage : Token n blockSize).mark? other =
      (latch.token frame : Token n blockSize).mark? other := by
  rw [mark?_latch]
  cases latch <;> simp [Token.mark?, h]

theorem mark?_writeback_none {stage : WritebackStage blockSize} (h : stage.latch? = none)
    (frame other : Fin n) : (.writeback frame stage : Token n blockSize).mark? other = none := by
  simp [Token.mark?, h]

/-- None of the tokens is a writer's right. -/
def Unmarked (owned : Multiset (Token n blockSize)) : Prop :=
  ∀ token ∈ owned, ∀ frame, token.mark? frame = none

theorem Unmarked.zero : Unmarked (0 : Multiset (Token n blockSize)) := by
  simp [Unmarked]

theorem Unmarked.singleton {token : Token n blockSize} (h : ∀ frame, token.mark? frame = none) :
    Unmarked {token} := by
  simpa [Unmarked] using h

theorem Unmarked.marked (h : Unmarked given) : ∀ token ∈ given, token.Marked pages :=
  fun token hmem => Token.Marked.of_none (h token hmem)

theorem purpose_unmarked {load : Fill}
    {write : BufferTag → Page blockSize → WritebackStage blockSize}
    {sync : Multiset (Token n blockSize)} (hwrite : ∀ tag page, (write tag page).latch? = none)
    (hsync : Unmarked sync) (purpose : Purpose n blockSize) :
    Unmarked (purpose.token load write sync) := by
  cases purpose with
  | fill frame tag => exact .singleton fun _ => rfl
  | write frame tag snapshot =>
      exact .singleton (mark?_writeback_none (hwrite tag snapshot) frame)
  | sync => exact hsync

theorem plain (h : Marked pages (used + rest)) (hview : pages'.view = pages.view)
    (hgiven : Unmarked given) : Marked pages' (given + rest) :=
  h.quiet hview fun token hmem other mark hmark => by
    rw [hgiven token hmem other] at hmark
    cases hmark

theorem reserved (h : Marked shared.pages (used + rest)) (hcontrol : Control shared (used + rest))
    {popped : Bool} {stage : LoadStage} {reply : ReserveOutcome × Word}
    (hexec : exec shared choice (.tryReserve frame popped) = some (reply, shared'))
    (hreserved : reply.1 = .reserved) : Marked shared'.pages ({.loading frame stage} + rest) := by
  have hpages := pages_tryReserve hexec
  rw [if_pos hreserved] at hpages
  refine h.setView hcontrol hpages.2.2 (fun hexclusive => ?_)
    (Unmarked.marked (.singleton fun _ => rfl))
  exact absurd (hexclusive.symm.trans hpages.2.1) (by decide)

theorem notReserved (h : Marked shared.pages owned) {popped : Bool}
    {reply : ReserveOutcome × Word}
    (hexec : exec shared choice (.tryReserve frame popped) = some (reply, shared'))
    (hreserved : reply.1 ≠ .reserved) : Marked shared'.pages owned := by
  have hpages := pages_tryReserve hexec
  rw [if_neg hreserved] at hpages
  exact hpages ▸ h

theorem trade (htrade : Trade action seen used result)
    (hcontrol : Control shared (used + (seen + others)))
    (h : Marked shared.pages (used + (seen + others)))
    (hexec : exec shared choice action = some (reply, shared')) (hgiven : result reply D) :
    Marked shared'.pages (D + (seen + others)) := by
  have hsame : action.changesPages = false → shared'.pages.view = shared.pages.view :=
    fun haction => congrArg Pages.view (htrade.samePages hcontrol haction hexec)
  cases htrade with
  | silent hsilent =>
      subst hgiven
      exact h.plain (congrArg Pages.view (exec_silent hsilent hexec).pages) .zero
  | latchExclusive frame tag mode =>
      subst hgiven
      obtain ⟨-, hpages⟩ := pages_acquireExclusive hexec
      have hresident : (shared.view frame).state = .resident :=
        hcontrol.resident_of_pin tag (by simp)
      refine h.setView hcontrol hpages (fun _ hstate => ⟨hstate, id⟩) ?_
      rintro token hmem
      rcases Multiset.mem_add.mp hmem with hmem | hmem
      · exact Unmarked.marked (.singleton fun _ => rfl) token hmem
      · rw [Multiset.mem_singleton.mp hmem]
        refine .writer (fun _ => ?_) (fun hmark => by cases hmark)
        simpa [hpages] using hresident
  | latchZeroed frame tag =>
      subst hgiven
      obtain ⟨-, hpages⟩ := pages_acquireExclusive hexec
      refine h.setView hcontrol hpages (fun _ hstate => ⟨hstate, id⟩) ?_
      rintro token hmem
      rcases Multiset.mem_add.mp hmem with hmem | hmem
      · exact Unmarked.marked (.singleton fun _ => rfl) token hmem
      · rw [Multiset.mem_singleton.mp hmem]
        exact .writer (fun hmark => absurd rfl hmark) (fun hmark => by cases hmark)
  | releaseExclusive frame tag mark =>
      subst hgiven
      exact h.setView hcontrol (pages_releaseExclusive hexec) (fun _ hstate => ⟨hstate, id⟩)
        (Unmarked.marked .zero)
  | markDirty frame tag mark =>
      subst hgiven
      have hresident : (shared.view frame).state = .resident :=
        hcontrol.resident_of_pin tag (by simp)
      have hpages := pages_markDirty hexec hresident
      refine h.setView hcontrol hpages (fun _ hstate => ⟨hstate, fun _ => rfl⟩) ?_
      rintro token hmem
      rw [Multiset.mem_singleton.mp hmem]
      refine .writer (fun _ => ?_) (fun _ => ?_)
      · simpa [hpages] using hresident
      · simp [hpages]
  | writeFrame frame tag page =>
      subst hgiven
      cases hexec
      exact h.quiet rfl fun token hmem other mark hmark => ⟨token, hmem, hmark⟩
  | reservePopped frame =>
      obtain ⟨-, hgiven⟩ := hgiven
      split at hgiven
      · obtain ⟨-, rfl⟩ := hgiven
        exact h.reserved hcontrol hexec ‹_›
      · subst hgiven
        exact h.notReserved hexec ‹_›
  | reserveVictim frame =>
      split at hgiven
      · obtain ⟨-, rfl⟩ := hgiven
        exact h.reserved hcontrol hexec ‹_›
      · subst hgiven
        exact h.notReserved hexec ‹_›
  | publish frame tag releasePin =>
      subst hgiven
      refine h.setView hcontrol (pages_publishResident hexec (hcontrol.pins_of_loading mem_own))
        (fun _ _ => ⟨rfl, id⟩) (Unmarked.marked ?_)
      cases releasePin
      · exact .singleton fun _ => rfl
      · exact .zero
  | publishZeroed frame tag =>
      subst hgiven
      exact h.setView hcontrol (pages_publishResident hexec (hcontrol.pins_of_loading mem_own))
        (fun _ _ => ⟨rfl, id⟩) (Unmarked.marked (.singleton fun _ => rfl))
  | releaseToFree frame =>
      subst hgiven
      refine h.setView hcontrol (pages_releaseToFree hexec) (fun _ hresident => ?_)
        (Unmarked.marked (.singleton fun _ => rfl))
      exact absurd ((hcontrol.state_of_loading mem_own).symm.trans hresident) (by decide)
  | discard frame tag =>
      subst hgiven
      have hpages := pages_tryDiscardPinned hexec
      split at hpages
      · rename_i hdiscarded
        rw [if_pos hdiscarded]
        refine h.setView hcontrol hpages.2.2 (fun hexclusive => ?_)
          (Unmarked.marked (.singleton fun _ => rfl))
        exact absurd (hexclusive.symm.trans hpages.2.1) (by decide)
      · rename_i hdiscarded
        rw [if_neg hdiscarded, hpages]
        exact h
  | queueWriteback frame skipIfPinned =>
      subst hgiven
      have hpages := pages_tryQueueWriteback hexec
      split at hpages
      · rename_i hqueued
        rw [if_pos hqueued]
        exact h.setView hcontrol hpages.2 (fun _ hstate => ⟨hstate, id⟩)
          (Unmarked.marked (.singleton fun _ => rfl))
      · rename_i hqueued
        rw [if_neg hqueued, hpages]
        exact h
  | cancelWriteback frame =>
      subst hgiven
      exact h.setView hcontrol (pages_cancelQueuedWriteback hexec) (fun _ hstate => ⟨hstate, id⟩)
        (Unmarked.marked .zero)
  | completeWriteback frame tag snapshot | abandonWriteback frame =>
      subst hgiven
      refine h.setView hcontrol (pages_completeWriteback hexec) (fun hexclusive hstate => ?_)
        (Unmarked.marked .zero)
      refine ⟨hstate, fun hdirty => ?_⟩
      rw [clearsDirty_of_exclusive hexclusive, hdirty]
      rfl
  | nameSnapshot frame latch =>
      subst hgiven
      refine h.quiet (hsame rfl) fun token hmem other mark hmark => ?_
      rw [Multiset.mem_singleton.mp hmem, mark?_writeback rfl] at hmark
      exact ⟨latch.token frame, by simp, hmark⟩
  | takeSnapshot frame latch tag =>
      subst hgiven
      refine h.quiet (hsame rfl) fun token hmem other mark hmark => ?_
      rcases Multiset.mem_add.mp hmem with hmem | hmem
      · rw [Multiset.mem_singleton.mp hmem, mark?_writeback_none rfl] at hmark
        cases hmark
      · rw [Multiset.mem_singleton.mp hmem] at hmark
        exact ⟨_, Multiset.mem_singleton_self _, by rw [mark?_writeback rfl, hmark]⟩
  | tryPinResident | tryAcquireShared | loadPending =>
      subst hgiven
      refine h.plain (hsame rfl) ?_
      split
      · simp [Unmarked, Token.mark?]
      · exact .zero
  | tagFresh | tagVictim | clearTag | clearFreeTag =>
      subst hgiven
      cases hexec
      exact h.plain (shared.view_setDescriptor _ fun _ => rfl) (.singleton fun _ => rfl)
  | zeroFrame =>
      subst hgiven
      cases hexec
      exact h.plain rfl (.singleton fun _ => rfl)
  | popFree =>
      subst hgiven
      refine h.plain (hsame rfl) ?_
      cases reply
      · exact .zero
      · exact .singleton fun _ => rfl
  | newWaiter purpose pending hcounts =>
      subst hgiven
      refine h.plain (hsame rfl) fun token hmem => ?_
      rcases Multiset.mem_add.mp hmem with hmem | hmem
      · exact purpose_unmarked (fun _ _ => rfl) (.singleton fun _ => rfl) purpose token hmem
      · rw [Multiset.eq_of_mem_replicate hmem]
        exact fun _ => rfl
  | waiterStatus purpose waiter =>
      subst hgiven
      refine h.plain (hsame rfl) ?_
      split <;> exact purpose_unmarked (fun _ _ => rfl) .zero purpose
  | loadStopped purpose waiter =>
      cases reply with
      | none =>
          cases hgiven
          refine h.plain (hsame rfl) ?_
          exact purpose_unmarked (fun _ _ => rfl) (.singleton fun _ => rfl) purpose
      | some status =>
          obtain ⟨-, rfl⟩ := hgiven
          exact h.plain (hsame rfl) (purpose_unmarked (fun _ _ => rfl) .zero purpose)
  | takeLoad id load =>
      obtain ⟨-, rfl⟩ := hgiven
      exact h.plain (hsame rfl) .zero
  | _ =>
      subst hgiven
      refine h.plain (hsame rfl) ?_
      simp [Unmarked, Token.mark?, WritebackStage.latch?]

end Marked

end TelePath
