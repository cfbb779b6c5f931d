import TelePath.Invariant.View
import TelePath.Invariant.Requests

/-!
The invariant on the bytes of pages.  A page is as it should be on disk unless a dirty
frame holds it, and in its frame unless somebody holds the exclusive latch there.
-/

namespace TelePath

open FrameControl

variable {n blockSize : Nat}

def WritebackStage.snapshot? : WritebackStage blockSize → Option (BufferTag × Page blockSize)
  | .copied tag snapshot | .begun tag snapshot | .writing tag snapshot _ | .written tag snapshot =>
      some (tag, snapshot)
  | _ => none

/-- Whether the copy is known to be on disk. -/
def WritebackStage.landed : WritebackStage blockSize → Bool
  | .written _ _ => true
  | _ => false

/-- The page whose bytes a frame that is being loaded is known to have. -/
def LoadStage.filled? : LoadStage → Option BufferTag
  | .installed tag .filled | .recorded tag .filled => some tag
  | _ => none

/-- What the owner of a token knows about the bytes of a frame, when every page should hold
`bytes` and `unwritten` says which exclusive handles have a zeroed page to fill. -/
structure Token.Reports (bytes : BufferTag → Page blockSize) (unwritten : Fin n → Bool)
    (pages : Pages n blockSize) (token : Token n blockSize) (frame : Fin n) : Prop where
  clean : token.mark? frame = some .clean → pages.data frame = bytes (pages.tag frame)
  zeroed : token.mark? frame = some .zeroed → unwritten frame = true
  copied : ∀ stage tag snapshot, token = .writeback frame stage →
    stage.snapshot? = some (tag, snapshot) → (pages.view frame).redirtied = true ∨
      (pages.view frame).exclusive = true ∨ snapshot = bytes tag
  landed : ∀ stage tag snapshot, token = .writeback frame stage →
    stage.snapshot? = some (tag, snapshot) → stage.landed = true → pages.disk tag = snapshot
  filled : ∀ stage tag, token = .loading frame stage → stage.filled? = some tag →
    pages.data frame = pages.disk tag

/-- The invariant, with `owned` all tokens there are. -/
structure Data (bytes : BufferTag → Page blockSize) (unwritten : Fin n → Bool)
    (pages : Pages n blockSize) (owned : Multiset (Token n blockSize)) : Prop where
  disk : ∀ tag, pages.disk tag = bytes tag ∨ ∃ frame, DirtyFrame pages frame tag
  resident : ∀ frame, (pages.view frame).state = .resident →
    (pages.view frame).exclusive = false → pages.data frame = bytes (pages.tag frame)
  reports : ∀ token ∈ owned, ∀ frame, token.Reports bytes unwritten pages frame

/-- What a successful request has done for its owner. -/
def Purpose.Done (pages : Pages n blockSize) : Purpose n blockSize → Prop
  | .fill frame tag => pages.data frame = pages.disk tag
  | .write _ tag snapshot => pages.disk tag = snapshot
  | .sync => True

/-- A token that says nothing about bytes. -/
def Token.Unwatched : Token n blockSize → Prop
  | .writer _ _ => False
  | .writeback _ stage => stage.latch? = none ∧ stage.snapshot? = none
  | .loading _ stage => stage.filled? = none
  | _ => True

namespace Data

variable {bytes bytes' : BufferTag → Page blockSize} {unwritten unwritten' : Fin n → Bool}
  {pages pages' : Pages n blockSize} {shared shared' : Shared n blockSize}
  {used given rest : Multiset (Token n blockSize)} {token : Token n blockSize} {frame : Fin n}

theorem reports_of_copy {other : Fin n} {stage : WritebackStage blockSize}
    (hmark : (.writeback other stage : Token n blockSize).mark? frame = none)
    (hcopied : ∀ tag snapshot, stage.snapshot? = some (tag, snapshot) →
      (pages.view other).redirtied = true ∨ (pages.view other).exclusive = true ∨
        snapshot = bytes tag)
    (hlanded : ∀ tag snapshot, stage.snapshot? = some (tag, snapshot) → stage.landed = true →
      pages.disk tag = snapshot) :
    (.writeback other stage : Token n blockSize).Reports bytes unwritten pages frame where
  clean h := by simp [hmark] at h
  zeroed h := by simp [hmark] at h
  copied := by
    rintro _ tag snapshot ⟨⟩
    exact hcopied tag snapshot
  landed := by
    rintro _ tag snapshot ⟨⟩
    exact hlanded tag snapshot
  filled _ _ h := by cases h

theorem reports_of_mark (hwriteback : ∀ stage, token ≠ .writeback frame stage)
    (hloading : ∀ stage, token ≠ .loading frame stage)
    (hclean : token.mark? frame = some .clean → pages.data frame = bytes (pages.tag frame))
    (hzeroed : token.mark? frame = some .zeroed → unwritten frame = true) :
    token.Reports bytes unwritten pages frame where
  clean := hclean
  zeroed := hzeroed
  copied stage _ _ h := absurd h (hwriteback stage)
  landed stage _ _ h := absurd h (hwriteback stage)
  filled stage _ h := absurd h (hloading stage)

theorem reports_loading {other : Fin n} {stage : LoadStage}
    (h : ∀ tag, stage.filled? = some tag → pages.data other = pages.disk tag) :
    (.loading other stage : Token n blockSize).Reports bytes unwritten pages frame where
  clean h := by cases h
  zeroed h := by cases h
  copied _ _ _ h := by cases h
  landed _ _ _ h := by cases h
  filled := by
    rintro _ tag ⟨⟩
    exact h tag

theorem reports_of_unwatched (h : token.Unwatched) :
    token.Reports bytes unwritten pages frame := by
  cases token with
  | writer other mark => exact h.elim
  | writeback other stage =>
      refine reports_of_copy (Marked.mark?_writeback_none h.1 other frame) ?_ ?_
      all_goals simp [h.2]
  | loading other stage =>
      refine reports_loading fun tag hstage => ?_
      exact absurd (hstage.symm.trans h) (by simp)
  | _ => exact reports_of_mark (by simp) (by simp) (by simp [Token.mark?]) (by simp [Token.mark?])

theorem reports_one (h : ∀ frame, token.Reports bytes unwritten pages frame) :
    ∀ other ∈ ({token} : Multiset (Token n blockSize)), ∀ frame,
      other.Reports bytes unwritten pages frame :=
  fun _ hmem => Multiset.mem_singleton.mp hmem ▸ h

theorem reports_unwatched (h : token.Unwatched) :
    ∀ other ∈ ({token} : Multiset (Token n blockSize)), ∀ frame,
      other.Reports bytes unwritten pages frame :=
  reports_one fun _ => reports_of_unwatched h

theorem reports_same (hcontrol : Control shared rest) (hmarked : Marked shared.pages rest)
    (hmem : token ∈ rest) (h : token.Reports bytes unwritten shared.pages frame)
    (hview : pages'.view frame = shared.view frame)
    (htag : pages'.tag frame = shared.pages.tag frame)
    (hdata : pages'.data frame = shared.pages.data frame)
    (hdisk : pages'.disk = shared.pages.disk)
    (hunwritten : unwritten' frame = unwritten frame)
    (hbytes : (shared.view frame).state = .resident →
      bytes' (shared.pages.tag frame) = bytes (shared.pages.tag frame)) :
    token.Reports bytes' unwritten' pages' frame where
  clean hmark := by
    have hresident := (hmarked token hmem frame .clean hmark).1 (by decide)
    rw [hdata, htag, hbytes hresident]
    exact h.clean hmark
  zeroed hmark := by
    rw [hunwritten]
    exact h.zeroed hmark
  copied stage tag snapshot htoken hstage := by
    have hknown : shared.pages.tag frame = tag := by
      subst htoken
      refine hcontrol.holds _ hmem tag ?_
      cases stage <;> simp_all [WritebackStage.snapshot?, WritebackStage.tag?]
    have hresident : (shared.view frame).state = .resident :=
      (hcontrol.of_writeback (htoken ▸ hmem)).2.1
    rw [hview, ← hknown, hbytes hresident, hknown]
    exact h.copied stage tag snapshot htoken hstage
  landed stage tag snapshot htoken hstage hlanded := by
    rw [hdisk]
    exact h.landed stage tag snapshot htoken hstage hlanded
  filled stage tag htoken hstage := by
    rw [hdisk, hdata]
    exact h.filled stage tag htoken hstage

theorem touch [Fact (n ≤ 2 ^ 31)] (h : Data bytes unwritten shared.pages (used + rest))
    (hcontrol : Control shared (used + rest)) (hmarked : Marked shared.pages (used + rest))
    (frame : Fin n) (hview : ∀ other, other ≠ frame → pages'.view other = shared.view other)
    (htag : ∀ other, other ≠ frame → pages'.tag other = shared.pages.tag other)
    (hdata : ∀ other, other ≠ frame → pages'.data other = shared.pages.data other)
    (hdisk : pages'.disk = shared.pages.disk)
    (hunwritten : ∀ other, other ≠ frame → unwritten' other = unwritten other)
    (hbytes : ∀ tag, bytes' tag = bytes tag ∨
      (shared.view frame).state = .resident ∧ shared.pages.tag frame = tag)
    (hpage : (shared.view frame).state = .resident →
      (shared.view frame).dirty = true ∨
        bytes' (shared.pages.tag frame) ≠ bytes (shared.pages.tag frame) →
      shared.pages.disk (shared.pages.tag frame) = bytes' (shared.pages.tag frame) ∨
        DirtyFrame pages' frame (shared.pages.tag frame))
    (hresident : (pages'.view frame).state = .resident →
      (pages'.view frame).exclusive = false → pages'.data frame = bytes' (pages'.tag frame))
    (hrest : ∀ token ∈ rest, token.Reports bytes unwritten shared.pages frame →
      token.Reports bytes' unwritten' pages' frame)
    (hgiven : ∀ token ∈ given, ∀ frame, token.Reports bytes' unwritten' pages' frame) :
    Data bytes' unwritten' pages' (given + rest) where
  disk tag := by
    rw [hdisk]
    rcases h.disk tag with hclean | ⟨other, hdirty⟩
    · rcases hbytes tag with heq | ⟨hstate, rfl⟩
      · exact .inl (hclean.trans heq.symm)
      · by_cases heq : bytes' (shared.pages.tag frame) = bytes (shared.pages.tag frame)
        · exact .inl (hclean.trans heq.symm)
        · exact (hpage hstate (.inr heq)).imp_right fun hdirty => ⟨frame, hdirty⟩
    · by_cases hne : other = frame
      · obtain ⟨hstate, hset, rfl⟩ := hdirty
        subst hne
        exact (hpage hstate (.inl hset)).imp_right fun hdirty => ⟨other, hdirty⟩
      · refine .inr ⟨other, ?_, ?_, ?_⟩
        · rw [hview other hne]
          exact hdirty.resident
        · rw [hview other hne]
          exact hdirty.dirty
        · rw [htag other hne]
          exact hdirty.tag
  resident other hstate hexclusive := by
    by_cases hne : other = frame
    · subst hne
      exact hresident hstate hexclusive
    · rw [hview other hne] at hstate hexclusive
      rw [hdata other hne, htag other hne, h.resident other hstate hexclusive]
      rcases hbytes (shared.pages.tag other) with heq | ⟨hstate', heq⟩
      · exact heq.symm
      · exact absurd (hcontrol.resident_unique hstate hstate' heq.symm) hne
  reports token hmem other := by
    rcases Multiset.mem_add.mp hmem with hmem | hmem
    · exact hgiven token hmem other
    · have hall : token ∈ used + rest := Multiset.mem_add.mpr (.inr hmem)
      by_cases hne : other = frame
      · subst hne
        exact hrest token hmem (h.reports token hall other)
      · refine reports_same hcontrol hmarked hall (h.reports token hall other) (hview other hne)
          (htag other hne) (hdata other hne) hdisk (hunwritten other hne) fun hstate => ?_
        rcases hbytes (shared.pages.tag other) with heq | ⟨hstate', heq⟩
        · exact heq
        · exact absurd (hcontrol.resident_unique hstate hstate' heq.symm) hne

theorem setView [Fact (n ≤ 2 ^ 31)]
    {view : FrameView} (h : Data bytes unwritten shared.pages (used + rest))
    (hcontrol : Control shared (used + rest)) (hmarked : Marked shared.pages (used + rest))
    (hpages : pages' = { shared.pages with view := Function.update shared.view frame view })
    (hdirty : (shared.view frame).state = .resident → (shared.view frame).dirty = true →
      shared.pages.disk (shared.pages.tag frame) = bytes (shared.pages.tag frame) ∨
        view.state = .resident ∧ view.dirty = true)
    (hresident : view.state = .resident → view.exclusive = false →
      shared.pages.data frame = bytes (shared.pages.tag frame))
    (hcopied : ∀ stage, .writeback frame stage ∈ rest →
      (shared.view frame).redirtied = true ∨ (shared.view frame).exclusive = true →
        view.redirtied = true ∨ view.exclusive = true)
    (hgiven : ∀ token ∈ given, ∀ frame, token.Reports bytes unwritten pages' frame) :
    Data bytes unwritten pages' (given + rest) := by
  have hself : pages'.view frame = view := by simp [hpages]
  refine h.touch hcontrol hmarked frame (fun other hne => ?_) (fun _ _ => by rw [hpages])
    (fun _ _ => by rw [hpages]) (by rw [hpages]) (fun _ _ => rfl) (fun _ => .inl rfl)
    (fun hstate hchanged => ?_) (fun hstate hexclusive => ?_) (fun token hmem hreports => ?_)
    hgiven
  · simp [hpages, hne]
  · refine (hdirty hstate (hchanged.resolve_right fun hne => hne rfl)).imp_right fun hkept => ?_
    exact ⟨hself ▸ hkept.1, hself ▸ hkept.2, by rw [hpages]⟩
  · rw [hself] at hstate hexclusive
    rw [hpages]
    exact hresident hstate hexclusive
  · refine ⟨fun hmark => ?_, hreports.zeroed, fun stage tag snapshot htoken hstage => ?_, ?_, ?_⟩
    · rw [hpages]
      exact hreports.clean hmark
    · rw [hself]
      rcases hreports.copied stage tag snapshot htoken hstage with hset | hset | heq
      · exact (hcopied stage (htoken ▸ hmem) (.inl hset)).imp_right .inl
      · exact (hcopied stage (htoken ▸ hmem) (.inr hset)).imp_right .inl
      · exact .inr (.inr heq)
    · rw [hpages]
      exact hreports.landed
    · rw [hpages]
      exact hreports.filled

theorem quiet (h : Data bytes unwritten pages (used + rest)) (hview : pages'.view = pages.view)
    (htag : pages'.tag = pages.tag) (hdata : pages'.data = pages.data)
    (hdisk : pages'.disk = pages.disk)
    (hgiven : ∀ token ∈ given, ∀ frame, token.Reports bytes unwritten pages frame) :
    Data bytes unwritten pages' (given + rest) where
  disk tag := by
    rw [hdisk]
    refine (h.disk tag).imp_right fun ⟨frame, hstate, hdirty, hown⟩ => ⟨frame, ?_, ?_, ?_⟩
    · rwa [hview]
    · rwa [hview]
    · rwa [htag]
  resident frame := by
    rw [hview, htag, hdata]
    exact h.resident frame
  reports token hmem frame := by
    have hreports : token.Reports bytes unwritten pages frame := by
      rcases Multiset.mem_add.mp hmem with hmem | hmem
      · exact hgiven token hmem frame
      · exact h.reports token (Multiset.mem_add.mpr (.inr hmem)) frame
    obtain ⟨hclean, hzeroed, hcopied, hlanded, hfilled⟩ := hreports
    refine ⟨?_, hzeroed, ?_, ?_, ?_⟩
    · rwa [hdata, htag]
    · rwa [hview]
    · rwa [hdisk]
    · rwa [hdata, hdisk]

end Data

/-- Events that say what bytes pages should hold. -/
def Event.movesBytes : Event n blockSize → Bool
  | .releasedExclusive _ _ _ | .discarded _ _ _ _ | .acquiredExclusive _ _ _ _ | .wrote _ _ => true
  | _ => false

theorem content_cons {event : Event n blockSize} (h : event.movesBytes = false)
    (start : BufferTag → Page blockSize) (events : Events n blockSize) :
    content start (event :: events) = content start events := by
  cases event <;> first | rfl | exact Bool.noConfusion h

theorem unwrittenZero_cons {event : Event n blockSize} (h : event.movesBytes = false)
    (events : Events n blockSize) : unwrittenZero (event :: events) = unwrittenZero events := by
  funext frame
  cases event <;> first | rfl | exact Bool.noConfusion h

def Action.movesBytes : Action n blockSize → Bool
  | .releaseExclusive _ _ | .tryDiscardPinned _ | .acquireExclusive _ _ _ | .writeFrame _ _ => true
  | _ => false

theorem observe_movesBytes {action : Action n blockSize} (h : action.movesBytes = false)
    (shared : Shared n blockSize) (reply : Reply action) :
    (observe shared action reply).movesBytes = false := by
  cases action
  case popFree => cases reply <;> rfl
  case reap => cases reply <;> rfl
  case acquireShared frame handle => cases handle <;> rfl
  case lowerRecLsn frame lsn handle => cases handle <;> rfl
  case tryReserve | submitRequest | tryPinResident | tryAcquireShared | tryQueueWriteback
      | preWriteHook =>
      simp only [observe]
      split <;> rfl
  all_goals first | rfl | exact Bool.noConfusion h

theorem Action.movesBytes_of_silent {action : Action n blockSize} (h : action.isSilent = true) :
    action.movesBytes = false := by
  cases action <;> first | rfl | exact Bool.noConfusion h

theorem Control.not_writeback {shared : Shared n blockSize} {owned : Multiset (Token n blockSize)}
    {frame : Fin n} (h : Control shared owned) (hoff : hasWriteback (shared.word frame) = false)
    (stage : WritebackStage blockSize) : .writeback frame stage ∉ owned := by
  intro hmem
  rw [hasWriteback_eq, (h.of_writeback hmem).1] at hoff
  cases hoff

theorem Control.mark_none {shared : Shared n blockSize} {owned : Multiset (Token n blockSize)}
    {frame : Fin n} (h : Control shared owned) (hoff : (shared.view frame).exclusive = false)
    {token : Token n blockSize} (hmem : token ∈ owned) : token.mark? frame = none := by
  by_contra hsome
  obtain ⟨mark, hmark⟩ := Option.ne_none_iff_exists'.mp hsome
  exact absurd ((h.exclusive_of_mark hmem hmark).symm.trans hoff) (by decide)

namespace Data

section Steps

variable {start : BufferTag → Page blockSize} {events : Events n blockSize}
  {shared shared' : Shared n blockSize} {choice : Choice n} {frame : Fin n} {tag : BufferTag}
  {used given rest : Multiset (Token n blockSize)} {token : Token n blockSize}
  {pages pages' : Pages n blockSize} {bytes bytes' : BufferTag → Page blockSize}
  {unwritten unwritten' : Fin n → Bool}

theorem reports_unmarked (h : token.Reports bytes unwritten pages frame)
    (hmark : token.mark? frame = none) (hdata : pages'.data frame = pages.data frame)
    (hdisk : pages'.disk = pages.disk)
    (hcopied : ∀ stage, token = .writeback frame stage →
      (pages'.view frame).redirtied = true ∨ (pages'.view frame).exclusive = true) :
    token.Reports bytes' unwritten' pages' frame where
  clean hclean := by simp [hmark] at hclean
  zeroed hzeroed := by simp [hmark] at hzeroed
  copied stage _ _ htoken _ := (hcopied stage htoken).imp_right .inl
  landed := by
    rw [hdisk]
    exact h.landed
  filled := by
    rw [hdata, hdisk]
    exact h.filled

theorem reports_writer {mark : Mark}
    (hclean : mark = .clean → pages.data frame = bytes (pages.tag frame))
    (hzeroed : mark = .zeroed → unwritten frame = true) (other : Fin n) :
    (.writer frame mark : Token n blockSize).Reports bytes unwritten pages other := by
  by_cases hne : frame = other
  · subst hne
    exact reports_of_mark (by simp) (by simp) (by simpa using hclean) (by simpa using hzeroed)
  · exact reports_of_mark (by simp) (by simp) (by simp [Token.mark?, hne])
      (by simp [Token.mark?, hne])

theorem latch [Fact (n ≤ 2 ^ 31)] {mode : ReadBufferMode} {mark : Mark} {page : Page blockSize}
    (h : Data (content start events) (unwrittenZero events) shared.pages (used + rest))
    (hcontrol : Control shared (used + rest)) (hmarked : Marked shared.pages (used + rest))
    (hexec : exec shared choice (.acquireExclusive frame tag mode) = some ((), shared'))
    (hclean : mark = .clean → (shared.view frame).state = .resident)
    (hzeroed : mark = .zeroed → mode = .zeroAndLock) :
    Data (content start (.acquiredExclusive frame tag mode page :: events))
      (unwrittenZero (.acquiredExclusive frame tag mode page :: events)) shared'.pages
      (({.exclusive frame} + {.writer frame mark}) + rest) := by
  obtain ⟨hfree, hpages⟩ := pages_acquireExclusive hexec
  have hself : shared'.pages.view frame = { shared.view frame with exclusive := true } := by
    simp [hpages]
  refine h.touch hcontrol hmarked frame (fun other hne => ?_) (fun _ _ => by rw [hpages])
    (fun _ _ => by rw [hpages]) (by rw [hpages]) (fun other hne => ?_) (fun _ => .inl rfl)
    (fun hstate hchanged => ?_) (fun hstate hexclusive => ?_) (fun token hmem hreports => ?_)
    (fun token hmem other => ?_)
  · simp [hpages, hne]
  · simp [unwrittenZero, Ne.symm hne]
  · refine .inr ⟨?_, ?_, by rw [hpages]⟩
    · rwa [hself]
    · rw [hself]
      exact hchanged.resolve_right fun hne => hne rfl
  · rw [hself] at hexclusive
    cases hexclusive
  · refine reports_unmarked hreports ?_ (by rw [hpages]) (by rw [hpages]) fun _ _ => .inr ?_
    · exact hcontrol.mark_none hfree (mem_rest hmem)
    · rw [hself]
  · rcases Multiset.mem_add.mp hmem with hmem | hmem
    · rw [Multiset.mem_singleton.mp hmem]
      exact reports_of_unwatched trivial
    · rw [Multiset.mem_singleton.mp hmem]
      refine reports_writer (fun hmark => ?_) (fun hmark => ?_) other
      · rw [hpages]
        exact h.resident frame (hclean hmark) hfree
      · simp [unwrittenZero, hzeroed hmark]

theorem unlatch [Fact (n ≤ 2 ^ 31)] {mark : Mark}
    (h : Data (content start events) (unwrittenZero events) shared.pages
      (({.exclusive frame} + {.writer frame mark}) + ({.pin frame tag} + rest)))
    (hcontrol : Control shared
      (({.exclusive frame} + {.writer frame mark}) + ({.pin frame tag} + rest)))
    (hmarked : Marked shared.pages
      (({.exclusive frame} + {.writer frame mark}) + ({.pin frame tag} + rest)))
    (hexec : exec shared choice (.releaseExclusive frame tag) = some ((), shared'))
    (hcalm : unwrittenZero events frame = false) :
    Data (content start (.releasedExclusive frame tag (shared.frameData frame) :: events))
      (unwrittenZero (.releasedExclusive frame tag (shared.frameData frame) :: events))
      shared'.pages (0 + ({.pin frame tag} + rest)) := by
  have hpages := pages_releaseExclusive hexec
  have htag : shared.pages.tag frame = tag := hcontrol.tag_of_pin (by simp)
  have hresident : (shared.view frame).state = .resident :=
    hcontrol.resident_of_pin tag (by simp)
  have hwriter : (.writer frame mark : Token n blockSize) ∈
      ({.exclusive frame} + {.writer frame mark}) + ({.pin frame tag} + rest) := by simp
  have hmark : (.writer frame mark : Token n blockSize).mark? frame = some mark :=
    Token.mark?_writer frame mark
  have hself : (shared'.pages.view frame).state = (shared.view frame).state ∧
      (shared'.pages.view frame).dirty = (shared.view frame).dirty ∧
      (shared'.pages.view frame).redirtied =
        ((shared.view frame).redirtied || hasWriteback (shared.word frame)) := by
    simp [hpages]
  refine h.touch hcontrol hmarked frame (fun other hne => ?_) (fun _ _ => by rw [hpages])
    (fun _ _ => by rw [hpages]) (by rw [hpages]) (fun _ _ => rfl) (fun other => ?_)
    (fun hstate hchanged => ?_) (fun _ _ => ?_) (fun token hmem hreports => ?_)
    (fun token hmem => by cases hmem)
  · simp [hpages, hne]
  · by_cases heq : tag = other
    · exact .inr ⟨hresident, htag.trans heq⟩
    · exact .inl (by simp [content, Ne.symm heq])
  · refine .inr ⟨hself.1.trans hresident, ?_, by rw [hpages]⟩
    rw [hself.2.1]
    refine hchanged.elim id fun hchanged => (hmarked _ hwriter frame mark hmark).2 ?_
    cases mark with
    | clean =>
        refine absurd ?_ hchanged
        rw [htag, content, Function.update_self, ← htag]
        exact (h.reports _ hwriter frame).clean hmark
    | dirty => rfl
    | zeroed => exact absurd ((h.reports _ hwriter frame).zeroed hmark) (by simp [hcalm])
  · rw [hpages]
    change shared.frameData frame = _
    rw [htag, content, Function.update_self]
  · refine reports_unmarked hreports ?_ (by rw [hpages]) (by rw [hpages]) fun stage htoken => ?_
    · exact hcontrol.mark_unique (by simp) hmark hmem
    · subst htoken
      rw [hself.2.2, hasWriteback_eq, (hcontrol.of_writeback (mem_rest hmem)).1, Bool.or_true]
      exact .inl rfl

theorem discard [Fact (n ≤ 2 ^ 31)] {reply : DiscardOutcome × Option Word} {wasDirty : Bool}
    (h : Data (content start events) (unwrittenZero events) shared.pages
      ({.pin frame tag} + rest))
    (hcontrol : Control shared ({.pin frame tag} + rest))
    (hmarked : Marked shared.pages ({.pin frame tag} + rest))
    (hexec : exec shared choice (.tryDiscardPinned frame) = some (reply, shared'))
    (hdiscarded : reply.1 = .discarded) :
    Data (content start (.discarded frame tag (shared.diskPage tag) wasDirty :: events))
      (unwrittenZero (.discarded frame tag (shared.diskPage tag) wasDirty :: events))
      shared'.pages ({.free frame (.discarded tag)} + rest) := by
  have hpages := pages_tryDiscardPinned hexec
  rw [if_pos hdiscarded] at hpages
  obtain ⟨hidle, hfree, hpages⟩ := hpages
  have htag : shared.pages.tag frame = tag := hcontrol.tag_of_pin (by simp)
  have hresident : (shared.view frame).state = .resident :=
    hcontrol.resident_of_pin tag (by simp)
  have hself : shared'.pages.view frame = ⟨.free, false, false, false⟩ := by simp [hpages]
  refine h.touch hcontrol hmarked frame (fun other hne => ?_) (fun _ _ => by rw [hpages])
    (fun _ _ => by rw [hpages]) (by rw [hpages]) (fun _ _ => rfl) (fun other => ?_)
    (fun _ _ => .inl ?_) (fun hstate => ?_) (fun token hmem hreports => ?_)
    (fun token hmem other => ?_)
  · simp [hpages, hne]
  · by_cases heq : tag = other
    · exact .inr ⟨hresident, htag.trans heq⟩
    · exact .inl (by simp [content, Ne.symm heq])
  · rw [htag, content, Function.update_self]
    rfl
  · rw [hself] at hstate
    cases hstate
  · refine reports_unmarked hreports ?_ (by rw [hpages]) (by rw [hpages]) fun stage htoken => ?_
    · exact hcontrol.mark_none hfree (mem_rest hmem)
    · subst htoken
      exact absurd (mem_rest hmem) (hcontrol.not_writeback hidle stage)
  · rw [Multiset.mem_singleton.mp hmem]
    exact reports_of_unwatched trivial

theorem write [Fact (n ≤ 2 ^ 31)] {page : Page blockSize} {written : BufferTag}
    (h : Data (content start events) (unwrittenZero events) shared.pages
      ({.writer frame .dirty} + (({.pin frame tag} + {.exclusive frame}) + rest)))
    (hcontrol : Control shared
      ({.writer frame .dirty} + (({.pin frame tag} + {.exclusive frame}) + rest)))
    (hmarked : Marked shared.pages
      ({.writer frame .dirty} + (({.pin frame tag} + {.exclusive frame}) + rest)))
    (hpages : pages' =
      { shared.pages with data := Function.update shared.frameData frame page }) :
    Data (content start (.wrote frame written :: events))
      (unwrittenZero (.wrote frame written :: events)) pages'
      ({.writer frame .dirty} + (({.pin frame tag} + {.exclusive frame}) + rest)) := by
  have hresident : (shared.view frame).state = .resident :=
    hcontrol.resident_of_pin tag (by simp)
  have hexclusive : (shared.view frame).exclusive = true := (hcontrol.of_exclusive (by simp)).1
  have hview : pages'.view = shared.view := by rw [hpages]; rfl
  refine h.touch hcontrol hmarked frame (fun other hne => ?_) (fun _ _ => by rw [hpages])
    (fun other hne => ?_) (by rw [hpages]) (fun other hne => ?_) (fun _ => .inl rfl)
    (fun hstate hchanged => ?_) (fun _ hoff => ?_) (fun token hmem hreports => ?_)
    (fun token hmem other => ?_)
  · rw [hview]
  · simp [hpages, hne]
    rfl
  · simp [unwrittenZero, Ne.symm hne]
  · refine .inr ⟨?_, ?_, by rw [hpages]⟩
    · rwa [hview]
    · rw [hview]
      exact hchanged.resolve_right fun hne => hne rfl
  · rw [hview, hexclusive] at hoff
    cases hoff
  · have hmark := hcontrol.mark_unique (Multiset.mem_singleton_self _)
      (Token.mark?_writer frame .dirty) hmem
    refine ⟨fun hclean => ?_, fun hzeroed => ?_, fun stage _ _ _ _ => .inr (.inl ?_), ?_, ?_⟩
    · simp [hmark] at hclean
    · simp [hmark] at hzeroed
    · rwa [hview]
    · rw [hpages]
      exact hreports.landed
    · intro stage tag htoken
      subst htoken
      have hloading := hcontrol.state_of_loading (mem_rest hmem)
      exact absurd (hloading.symm.trans hresident) (by decide)
  · rw [Multiset.mem_singleton.mp hmem]
    exact reports_writer (fun hmark => by cases hmark) (fun hmark => by cases hmark) other

theorem setOwned [Fact (n ≤ 2 ^ 31)] {old : Token n blockSize}
    (h : Data bytes unwritten shared.pages ({old} + rest))
    (hcontrol : Control shared ({old} + rest)) (hmarked : Marked shared.pages ({old} + rest))
    (frame : Fin n) (howner : held {old} frame .loading + held {old} frame .free = 1)
    (hview : pages'.view = shared.view)
    (htag : ∀ other, other ≠ frame → pages'.tag other = shared.pages.tag other)
    (hdata : ∀ other, other ≠ frame → pages'.data other = shared.pages.data other)
    (hdisk : pages'.disk = shared.pages.disk)
    (hgiven : ∀ token ∈ given, ∀ frame, token.Reports bytes unwritten pages' frame) :
    Data bytes unwritten pages' (given + rest) := by
  have hstate : (shared.view frame).state ≠ .resident := hcontrol.not_resident_of_owner howner
  refine h.touch hcontrol hmarked frame (fun other _ => by rw [hview]) htag hdata hdisk
    (fun _ _ => rfl) (fun _ => .inl rfl) (fun hresident => absurd hresident hstate)
    (fun hresident => absurd (hview ▸ hresident) hstate) (fun token hmem hreports => ?_) hgiven
  have hsubject := hcontrol.subject_ne howner hmem
  refine ⟨fun hmark => ?_, hreports.zeroed, ?_, ?_, ?_⟩
  · exact absurd ((hmarked token (mem_rest hmem) frame .clean hmark).1 (by decide)) hstate
  · rintro stage _ _ rfl
    exact absurd rfl hsubject
  · rintro stage _ _ rfl
    exact absurd rfl hsubject
  · rintro stage _ rfl
    exact absurd rfl hsubject

theorem setTag [Fact (n ≤ 2 ^ 31)] {old : Token n blockSize}
    (h : Data bytes unwritten shared.pages ({old} + rest))
    (hcontrol : Control shared ({old} + rest)) (hmarked : Marked shared.pages ({old} + rest))
    (howner : held {old} frame .loading + held {old} frame .free = 1)
    (hgiven : ∀ token ∈ given, token.Unwatched) :
    Data bytes unwritten (shared.setDescriptor frame ({ · with tag := tag })).pages
      (given + rest) := by
  have hpages := shared.pages_setDescriptor frame
    (show ∀ old : BufferDescriptor, { old with tag := tag }.control = old.control from fun _ => rfl)
  refine h.setOwned hcontrol hmarked frame howner (by rw [hpages]; rfl) (fun other hne => ?_)
    (fun _ _ => by rw [hpages]) (by rw [hpages]) fun token hmem _ =>
      reports_of_unwatched (hgiven token hmem)
  rw [hpages]
  exact Function.update_of_ne hne _ _

theorem publish [Fact (n ≤ 2 ^ 31)] {releasePin : Bool}
    (h : Data bytes unwritten shared.pages ({.loading frame (.recorded tag .filled)} + rest))
    (hcontrol : Control shared ({.loading frame (.recorded tag .filled)} + rest))
    (hmarked : Marked shared.pages ({.loading frame (.recorded tag .filled)} + rest))
    (hexec : exec shared choice (.publishResident frame releasePin) = some ((), shared'))
    (hgiven : ∀ token ∈ given, ∀ frame, token.Reports bytes unwritten shared'.pages frame) :
    Data bytes unwritten shared'.pages (given + rest) := by
  have hloading := hcontrol.state_of_loading mem_own
  have htag : shared.pages.tag frame = tag := (hcontrol.holds _ mem_own).2.1
  refine h.setView hcontrol hmarked (pages_publishResident hexec (hcontrol.pins_of_loading mem_own))
    (fun hresident => ?_) (fun _ _ => ?_) (fun _ _ hset => hset) hgiven
  · exact absurd (hloading.symm.trans hresident) (by decide)
  · have hfilled := (h.reports _ mem_own frame).filled _ tag rfl rfl
    rw [hfilled, htag]
    refine (h.disk tag).resolve_right ?_
    rintro ⟨other, hresident, -, hother⟩
    exact hcontrol.not_resident_of_installed mem_own (.inr rfl) hother hresident

theorem complete [Fact (n ≤ 2 ^ 31)] {snapshot : Page blockSize} {reply : WritebackCompletion}
    (h : Data bytes unwritten shared.pages ({.writeback frame (.written tag snapshot)} + rest))
    (hcontrol : Control shared ({.writeback frame (.written tag snapshot)} + rest))
    (hmarked : Marked shared.pages ({.writeback frame (.written tag snapshot)} + rest))
    (hexec : exec shared choice (.completeWriteback frame true) = some (reply, shared')) :
    Data bytes unwritten shared'.pages (0 + rest) := by
  have htag : shared.pages.tag frame = tag := hcontrol.holds _ mem_own tag rfl
  have hreports := h.reports _ mem_own frame
  refine h.setView hcontrol hmarked (pages_completeWriteback hexec) (fun hstate hdirty => ?_)
    (fun hstate hexclusive => h.resident frame hstate hexclusive) (fun stage hmem => ?_)
    (fun token hmem => by cases hmem)
  · cases hclears : clearsDirty true (shared.word frame) with
    | false => exact .inr ⟨hstate, by rw [hdirty]; rfl⟩
    | true =>
        -- nothing has changed the page since its copy was taken
        obtain ⟨-, -, -, hredirtied, hexclusive⟩ := (clearsDirty_iff _ _).mp hclears
        refine .inl ?_
        rw [htag, hreports.landed _ tag snapshot rfl rfl rfl]
        rcases hreports.copied _ tag snapshot rfl rfl with hset | hset | heq
        · exact absurd (hset.symm.trans hredirtied) (by decide)
        · exact absurd (hset.symm.trans hexclusive) (by decide)
        · exact heq
  · exact absurd hmem (hcontrol.writeback_unique (Multiset.mem_singleton_self _) stage)

theorem snapshot {latch : Latch}
    (h : Data bytes unwritten shared.pages ({.writeback frame (.named latch tag)} + rest))
    (hcontrol : Control shared ({.writeback frame (.named latch tag)} + rest)) :
    Data bytes unwritten shared.pages
      (({.writeback frame (.copied tag (shared.frameData frame))} + {latch.token frame}) +
        rest) := by
  have htag : shared.pages.tag frame = tag := hcontrol.holds _ mem_own tag rfl
  have hresident := (hcontrol.of_writeback mem_own).2.1
  have hreports := h.reports _ mem_own
  refine h.quiet rfl rfl rfl rfl fun token hmem other => ?_
  rcases Multiset.mem_add.mp hmem with hmem | hmem
  · rw [Multiset.mem_singleton.mp hmem]
    refine reports_of_copy (Marked.mark?_writeback_none rfl frame other) ?_
      fun _ _ _ hlanded => by cases hlanded
    rintro known copy ⟨⟩
    by_cases hexclusive : (shared.view frame).exclusive = true
    · exact .inr (.inl hexclusive)
    · refine .inr (.inr ?_)
      rw [← htag]
      exact h.resident frame hresident (Bool.eq_false_iff.mpr hexclusive)
  · rw [Multiset.mem_singleton.mp hmem]
    have hsame : (latch.token frame : Token n blockSize).mark? other =
        (.writeback frame (.named latch tag) : Token n blockSize).mark? other :=
      (Marked.mark?_writeback rfl frame other).symm
    refine reports_of_mark ?_ ?_ (hsame ▸ (hreports other).clean) (hsame ▸ (hreports other).zeroed)
    all_goals cases latch <;> simp [Latch.token]

theorem reserve [Fact (n ≤ 2 ^ 31)]
    {popped : Bool} {stage : LoadStage} {reply : ReserveOutcome × Word}
    (h : Data bytes unwritten shared.pages (used + rest)) (hcontrol : Control shared (used + rest))
    (hmarked : Marked shared.pages (used + rest))
    (hexec : exec shared choice (.tryReserve frame popped) = some (reply, shared'))
    (hreserved : reply.1 = .reserved) (hstage : stage.filled? = none) :
    Data bytes unwritten shared'.pages ({.loading frame stage} + rest) := by
  have hpages := pages_tryReserve hexec
  rw [if_pos hreserved] at hpages
  obtain ⟨hclean, hfree, hpages⟩ := hpages
  refine h.setView hcontrol hmarked hpages (fun hstate hdirty => ?_) (fun hstate => by cases hstate)
    (fun stage hmem _ => ?_) (reports_unwatched hstage)
  · exact absurd (hdirty.symm.trans (hclean hstate)) (by decide)
  · obtain ⟨-, hstate, hdirty⟩ := hcontrol.of_writeback (mem_rest hmem)
    exact absurd (hdirty.symm.trans (hclean hstate)) (by decide)

theorem reports_lent {old : Token n blockSize} {stage : WritebackStage blockSize} {latch : Latch}
    {other : Fin n} (h : old.Reports bytes unwritten pages other)
    (hlatch : stage.latch? = some latch) (hsnapshot : stage.snapshot? = none)
    (hold : old.mark? other = (latch.token frame : Token n blockSize).mark? other) :
    (.writeback frame stage : Token n blockSize).Reports bytes unwritten pages other := by
  have hmark := Marked.mark?_writeback hlatch frame other
  rw [← hold] at hmark
  refine ⟨fun hclean => h.clean (hmark ▸ hclean), fun hzeroed => h.zeroed (hmark ▸ hzeroed),
    ?_, ?_, ?_⟩
  · rintro stage' tag copy htoken hstage
    obtain ⟨rfl, rfl⟩ := Token.writeback.inj htoken
    simp [hsnapshot] at hstage
  · rintro stage' tag copy htoken hstage
    obtain ⟨rfl, rfl⟩ := Token.writeback.inj htoken
    simp [hsnapshot] at hstage
  · rintro stage' tag htoken
    cases htoken

theorem reports_copy {stage stage' : WritebackStage blockSize} {copy : Page blockSize}
    (h : (.writeback frame stage : Token n blockSize).Reports bytes unwritten pages frame)
    (hcopy : stage.snapshot? = some (tag, copy)) (hcopy' : stage'.snapshot? = some (tag, copy))
    (hlatch : stage'.latch? = none) (hlanded : stage'.landed = true → pages.disk tag = copy)
    (other : Fin n) :
    (.writeback frame stage' : Token n blockSize).Reports bytes unwritten pages other := by
  refine reports_of_copy (Marked.mark?_writeback_none hlatch frame other) ?_ ?_
  · rintro known found hstage
    obtain ⟨rfl, rfl⟩ := Prod.mk.inj (Option.some.inj (hcopy'.symm.trans hstage))
    exact h.copied stage tag copy rfl hcopy
  · rintro known found hstage hland
    obtain ⟨rfl, rfl⟩ := Prod.mk.inj (Option.some.inj (hcopy'.symm.trans hstage))
    exact hlanded hland

theorem reports_waiting {purpose : Purpose n blockSize} (waiter : WaiterId)
    (h : ∀ token ∈ purpose.ready, ∀ frame, token.Reports bytes unwritten pages frame) :
    ∀ token ∈ purpose.waiting waiter, ∀ frame, token.Reports bytes unwritten pages frame := by
  cases purpose with
  | fill frame tag => exact reports_unwatched rfl
  | write frame tag copy =>
      exact reports_one (reports_copy (h _ (Multiset.mem_singleton_self _) frame) rfl rfl rfl
        fun hlanded => by cases hlanded)
  | sync => exact reports_unwatched trivial

theorem reports_done {purpose : Purpose n blockSize} (waiter : WaiterId)
    (hdone : purpose.Done pages)
    (h : ∀ token ∈ purpose.waiting waiter, ∀ frame, token.Reports bytes unwritten pages frame) :
    ∀ token ∈ purpose.done, ∀ frame, token.Reports bytes unwritten pages frame := by
  cases purpose with
  | fill frame tag =>
      refine reports_one fun _ => reports_loading fun known hknown => ?_
      obtain rfl := Option.some.inj hknown
      exact hdone
  | write frame tag copy =>
      exact reports_one (reports_copy (h _ (Multiset.mem_singleton_self _) frame) rfl rfl rfl
        fun _ => hdone)
  | sync => exact nofun

theorem reports_failed (purpose : Purpose n blockSize) :
    ∀ token ∈ purpose.failed, ∀ frame, token.Reports bytes unwritten pages frame := by
  cases purpose with
  | fill frame tag => exact reports_unwatched rfl
  | write frame tag copy => exact reports_unwatched ⟨rfl, rfl⟩
  | sync => exact nofun

end Steps

section Trade

variable {start : BufferTag → Page blockSize} {events : Events n blockSize}
  {shared shared' : Shared n blockSize} {action : Action n blockSize}
  {seen used others D : Multiset (Token n blockSize)}
  {result : Reply action → Multiset (Token n blockSize) → Prop} {choice : Choice n}
  {reply : Reply action}

theorem trade [Fact (n ≤ 2 ^ 31)] (htrade : Trade action seen used result)
    (hcontrol : Control shared (used + (seen + others)))
    (hmarked : Marked shared.pages (used + (seen + others)))
    (hrequests : Requests shared (used + (seen + others)))
    (hlanded : Landed (Purpose.Done shared.pages) shared (used + (seen + others)))
    (hcalm : Undisturbed (observe shared action reply :: events))
    (h : Data (content start events) (unwrittenZero events) shared.pages
      (used + (seen + others)))
    (hexec : exec shared choice action = some (reply, shared')) (hgiven : result reply D) :
    Data (content start (observe shared action reply :: events))
      (unwrittenZero (observe shared action reply :: events)) shared'.pages
      (D + (seen + others)) := by
  have hbytes : action.movesBytes = false →
      content start (observe shared action reply :: events) = content start events ∧
        unwrittenZero (observe shared action reply :: events) = unwrittenZero events :=
    fun hquiet => ⟨content_cons (observe_movesBytes hquiet shared reply) start events,
      unwrittenZero_cons (observe_movesBytes hquiet shared reply) events⟩
  -- trades that leave pages alone
  have hsame : action.changesPages = false → action.movesBytes = false →
      (∀ token ∈ D, ∀ frame,
        token.Reports (content start events) (unwrittenZero events) shared.pages frame) →
      Data (content start (observe shared action reply :: events))
        (unwrittenZero (observe shared action reply :: events)) shared'.pages
        (D + (seen + others)) := by
    intro hchanges hmoves hD
    rw [(hbytes hmoves).1, (hbytes hmoves).2, htrade.samePages hcontrol hchanges hexec]
    exact h.quiet rfl rfl rfl rfl hD
  cases htrade with
  | latchExclusive frame tag mode =>
      subst hgiven
      refine h.latch hcontrol hmarked hexec (fun _ => ?_) (by simp)
      exact hcontrol.resident_of_pin tag (by simp)
  | latchZeroed frame tag =>
      subst hgiven
      exact h.latch hcontrol hmarked hexec (by simp) (fun _ => rfl)
  | releaseExclusive frame tag mark =>
      subst hgiven
      exact h.unlatch hcontrol hmarked hexec hcalm.1
  | markDirty frame tag mark =>
      subst hgiven
      have hresident : (shared.view frame).state = .resident :=
        hcontrol.resident_of_pin tag (by simp)
      have hexclusive : (shared.view frame).exclusive = true := (hcontrol.of_exclusive (by simp)).1
      refine h.setView hcontrol hmarked (pages_markDirty hexec hresident)
        (fun _ _ => .inr ⟨hresident, rfl⟩) (fun _ hoff => ?_) (fun _ _ hset => ?_)
        fun token hmem other => ?_
      · exact absurd (hexclusive.symm.trans hoff) (by decide)
      · exact .inr hexclusive
      · rw [Multiset.mem_singleton.mp hmem]
        exact reports_writer (fun hmark => by cases hmark) (fun hmark => by cases hmark) other
  | writeFrame frame tag page =>
      subst hgiven
      cases hexec
      exact h.write hcontrol hmarked rfl
  | reservePopped frame =>
      rw [(hbytes rfl).1, (hbytes rfl).2]
      obtain ⟨-, hgiven⟩ := hgiven
      split at hgiven
      · obtain ⟨-, rfl⟩ := hgiven
        exact h.reserve hcontrol hmarked hexec ‹_› rfl
      · subst hgiven
        have hpages := pages_tryReserve hexec
        rw [if_neg ‹_›] at hpages
        exact hpages ▸ h
  | reserveVictim frame =>
      rw [(hbytes rfl).1, (hbytes rfl).2]
      split at hgiven
      · obtain ⟨-, rfl⟩ := hgiven
        exact h.reserve hcontrol hmarked hexec ‹_› rfl
      · subst hgiven
        have hpages := pages_tryReserve hexec
        rw [if_neg ‹_›] at hpages
        exact hpages ▸ h
  | tagFresh frame tag | tagVictim frame tag | clearTag frame tag | clearFreeTag frame tag =>
      subst hgiven
      cases hexec
      refine h.setTag hcontrol hmarked (by simp [Token.rights]) fun token hmem => ?_
      rw [Multiset.mem_singleton.mp hmem]
      trivial
  | zeroFrame frame tag =>
      subst hgiven
      cases hexec
      refine h.setOwned hcontrol hmarked frame (by simp [Token.rights]) rfl (fun _ _ => rfl)
        (fun other hne => Function.update_of_ne hne _ _) rfl (reports_unwatched rfl)
  | publish frame tag releasePin =>
      subst hgiven
      cases releasePin with
      | false => exact h.publish hcontrol hmarked hexec (reports_unwatched trivial)
      | true => exact h.publish hcontrol hmarked hexec (by simp)
  | publishZeroed frame tag =>
      subst hgiven
      have hloading := hcontrol.state_of_loading mem_own
      have hexclusive : (shared.view frame).exclusive = true := (hcontrol.of_exclusive (by simp)).1
      refine h.setView hcontrol hmarked
        (pages_publishResident hexec (hcontrol.pins_of_loading mem_own)) (fun hstate => ?_)
        (fun _ hoff => ?_) (fun _ _ hset => hset) (reports_unwatched trivial)
      · exact absurd (hloading.symm.trans hstate) (by decide)
      · exact absurd (hexclusive.symm.trans hoff) (by decide)
  | releaseToFree frame =>
      subst hgiven
      have hloading := hcontrol.state_of_loading mem_own
      refine h.setView hcontrol hmarked (pages_releaseToFree hexec) (fun hstate => ?_)
        (fun hstate => by cases hstate) (fun stage hmem => ?_) (reports_unwatched trivial)
      · exact absurd (hloading.symm.trans hstate) (by decide)
      · exact absurd (hloading.symm.trans (hcontrol.of_writeback (mem_rest hmem)).2.1) (by decide)
  | discard frame tag =>
      subst hgiven
      have htag : (shared.descriptors frame).tag = tag := hcontrol.tag_of_pin mem_own
      have hpages := pages_tryDiscardPinned hexec
      by_cases hdiscarded : reply.1 = .discarded
      · have hevent : observe shared (.tryDiscardPinned frame) reply =
            .discarded frame tag (shared.diskPage tag) (isDirty (reply.2.getD 0#32)) := by
          simp only [observe, htag]
          exact if_pos hdiscarded
        rw [hevent, if_pos hdiscarded]
        exact h.discard hcontrol hmarked hexec hdiscarded
      · have hevent : observe shared (.tryDiscardPinned frame) reply = .quiet := if_neg hdiscarded
        rw [if_neg hdiscarded] at hpages
        rw [hevent, if_neg hdiscarded, hpages]
        exact h
  | queueWriteback frame skipIfPinned =>
      subst hgiven
      have hpages := pages_tryQueueWriteback hexec
      rw [(hbytes rfl).1, (hbytes rfl).2]
      split at hpages
      · rw [if_pos ‹_›]
        refine h.setView hcontrol hmarked hpages.2 (fun hstate hdirty => .inr ⟨hstate, hdirty⟩)
          (h.resident frame) (fun stage hmem => ?_) (reports_unwatched ⟨rfl, rfl⟩)
        exact absurd (mem_rest hmem) (hcontrol.not_writeback hpages.1 stage)
      · rw [if_neg ‹_›, hpages]
        exact h
  | nameSnapshot frame latch =>
      subst hgiven
      exact hsame rfl rfl (reports_one fun other =>
        reports_lent (h.reports (latch.token frame) (by simp) other) rfl rfl rfl)
  | takeSnapshot frame latch tag =>
      subst hgiven
      cases hexec
      exact h.snapshot hcontrol
  | beginWriteback frame tag copy =>
      subst hgiven
      exact hsame rfl rfl (reports_one (reports_copy (h.reports _ mem_own frame) rfl rfl rfl
        fun hlanded => by cases hlanded))
  | cancelWriteback frame tag copy =>
      subst hgiven
      exact h.setView hcontrol hmarked (pages_cancelQueuedWriteback hexec)
        (fun hstate hdirty => .inr ⟨hstate, hdirty⟩) (h.resident frame)
        (fun stage hmem => absurd hmem (hcontrol.writeback_unique (Multiset.mem_singleton_self _) stage))
        fun token hmem => by cases hmem
  | completeWriteback frame tag copy =>
      subst hgiven
      exact h.complete hcontrol hmarked hexec
  | abandonWriteback frame =>
      subst hgiven
      refine h.setView hcontrol hmarked (pages_completeWriteback hexec)
        (fun hstate hdirty => .inr ⟨hstate, ?_⟩) (h.resident frame)
        (fun stage hmem => absurd hmem (hcontrol.writeback_unique (Multiset.mem_singleton_self _) stage))
        fun token hmem => by cases hmem
      have hkeep : clearsDirty false (shared.word frame) = false := rfl
      rw [hdirty, hkeep]
      rfl
  | recordLoad frame tag fill =>
      subst hgiven
      refine hsame rfl rfl fun token hmem other => ?_
      rw [Multiset.mem_singleton.mp hmem]
      refine reports_loading fun known hknown => (h.reports _ mem_own frame).filled _ known rfl ?_
      cases fill <;> exact hknown
  | newWaiter purpose pending hcounts =>
      subst hgiven
      refine hsame rfl rfl fun token hmem other => ?_
      rcases Multiset.mem_add.mp hmem with hmem | hmem
      · exact reports_waiting _ (fun token hmem =>
          h.reports token (Multiset.mem_add.mpr (.inl hmem))) token hmem other
      · rw [Multiset.eq_of_mem_replicate hmem]
        exact reports_of_unwatched trivial
  | waiterStatus purpose waiter =>
      subst hgiven
      refine hsame rfl rfl ?_
      split
      · rename_i hok
        cases hexec
        refine reports_done waiter ?_ fun token hmem => h.reports token ?_
        · exact hlanded.settled hrequests (by simp) (fun token hmem => by simp [hmem]) hok
        · exact Multiset.mem_add.mpr (.inl (Multiset.mem_add.mpr (.inr hmem)))
      · exact reports_failed purpose
  | loadStopped purpose waiter =>
      cases reply with
      | none =>
          cases hgiven
          exact hsame rfl rfl fun token hmem =>
            h.reports token (Multiset.mem_add.mpr (.inl hmem))
      | some status =>
          obtain ⟨-, rfl⟩ := hgiven
          exact hsame rfl rfl (reports_failed purpose)
  | silent hsilent =>
      subst hgiven
      rw [(hbytes (Action.movesBytes_of_silent hsilent)).1,
        (hbytes (Action.movesBytes_of_silent hsilent)).2, (exec_silent hsilent hexec).pages]
      exact h.quiet rfl rfl rfl rfl fun token hmem => by cases hmem
  | tryPinResident | tryAcquireShared | loadPending =>
      subst hgiven
      refine hsame rfl rfl fun token hmem other => reports_of_unwatched ?_
      split at hmem
      · simp only [Multiset.mem_add, Multiset.mem_singleton] at hmem
        rcases hmem with rfl | rfl <;> trivial
      · cases hmem
  | popFree =>
      subst hgiven
      cases reply with
      | none => exact hsame rfl rfl (by simp)
      | some frame => exact hsame rfl rfl (reports_unwatched trivial)
  | install frame tag old =>
      subst hgiven
      refine hsame rfl rfl (reports_unwatched ?_)
      split <;> rfl
  | takeLoad id load =>
      obtain ⟨-, rfl⟩ := hgiven
      exact hsame rfl rfl fun token hmem => by cases hmem
  | unpin | releaseShared | pushFree | completeWaiter | closeOperation =>
      subst hgiven
      exact hsame rfl rfl fun token hmem => by cases hmem
  | acquireShared | latchShared | addPending =>
      subst hgiven
      refine hsame rfl rfl fun token hmem other => reports_of_unwatched ?_
      simp only [Multiset.mem_add, Multiset.mem_singleton] at hmem
      rcases hmem with rfl | rfl <;> trivial
  | unmap | loadEvictedTag | untrack =>
      subst hgiven
      exact hsame rfl rfl (reports_unwatched rfl)
  | checkTag | unlink | untrackFree | newOperation | failSlot =>
      subst hgiven
      exact hsame rfl rfl (reports_unwatched trivial)

end Trade

end Data

section Landed

variable {shared shared' : Shared n blockSize} {action : Action n blockSize}
  {seen used others D : Multiset (Token n blockSize)}
  {result : Reply action → Multiset (Token n blockSize) → Prop} {choice : Choice n}
  {reply : Reply action}

theorem Purpose.Done.mono {pages pages' : Pages n blockSize} {purpose : Purpose n blockSize}
    (h : purpose.Done pages) (hdisk : pages'.disk = pages.disk)
    (hdata : ∀ frame tag, purpose = .fill frame tag → pages'.data frame = pages.data frame) :
    purpose.Done pages' := by
  cases purpose with
  | fill frame tag =>
      rw [Purpose.Done, hdisk, hdata frame tag rfl]
      exact h
  | write frame tag copy =>
      rw [Purpose.Done, hdisk]
      exact h
  | sync => trivial

theorem Token.fill_of_purpose? {token : Token n blockSize} {waiter : WaiterId} {frame : Fin n}
    {tag : BufferTag} (h : token.purpose? = some (waiter, .fill frame tag)) :
    token = .loading frame (.installed tag (.reading waiter)) := by
  cases token with
  | loading other stage =>
      cases stage with
      | installed known fill =>
          cases fill with
          | reading waiter' =>
              cases h
              rfl
          | _ => cases h
      | _ => cases h
  | writeback other stage => cases stage <;> cases h
  | _ => cases h

theorem Token.write_of_purpose? {token : Token n blockSize} {waiter : WaiterId} {frame : Fin n}
    {tag : BufferTag} {copy : Page blockSize}
    (h : token.purpose? = some (waiter, .write frame tag copy)) :
    token = .writeback frame (.writing tag copy waiter) := by
  cases token with
  | loading other stage =>
      cases stage with
      | installed known fill => cases fill <;> cases h
      | _ => cases h
  | writeback other stage =>
      cases stage with
      | writing known found waiter' =>
          cases h
          rfl
      | _ => cases h
  | _ => cases h

theorem Trade.keepsDone (htrade : Trade action seen used result)
    (hcontrol : Control shared (used + (seen + others)))
    (hexec : exec shared choice action = some (reply, shared')) (token : Token n blockSize)
    (hmem : token ∈ used + (seen + others)) (waiter : WaiterId) (purpose : Purpose n blockSize)
    (hpurpose : token.purpose? = some (waiter, purpose)) (hdone : purpose.Done shared.pages) :
    purpose.Done shared'.pages := by
  have hkeeps := exec_keeps hexec
  have hdisk : shared'.pages.disk = shared.pages.disk := by
    funext tag
    change shared'.diskPage tag = shared.diskPage tag
    rw [Shared.diskPage, hkeeps.files, Shared.diskPage]
  refine hdone.mono hdisk ?_
  rintro frame tag rfl
  obtain rfl := Token.fill_of_purpose? hpurpose
  cases haction : action.onBytes with
  | false => exact congrFun (hkeeps.frameData haction) frame
  | true =>
      cases htrade with
      | writeFrame other tag' page =>
          cases hexec
          refine Function.update_of_ne ?_ _ _
          rintro rfl
          have hloading := hcontrol.state_of_loading hmem
          have hresident : (fields (shared.word frame)).state = .resident :=
            hcontrol.resident_of_pin tag' (by simp)
          exact absurd (hloading.symm.trans hresident) (by decide)
      | zeroFrame other tag' =>
          cases hexec
          refine Function.update_of_ne ?_ _ _
          rintro rfl
          rcases Multiset.mem_add.mp hmem with hmem | hmem
          · cases Multiset.mem_singleton.mp hmem
          · exact hcontrol.subject_ne (by simp [Token.rights]) hmem rfl
      | silent hsilent => cases action <;> cases haction <;> cases hsilent
      | _ => cases haction

end Landed

end TelePath
