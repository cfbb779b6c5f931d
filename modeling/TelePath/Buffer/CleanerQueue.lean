import Mathlib.Data.List.Count
import Mathlib.Data.Fintype.Card
import TelePath.Buffer.State

/-!
The candidate queue of `cleaner_controller.cc`: which entries are current, and in which order
candidates are taken.
-/

namespace TelePath.CleanerState

variable {n : Nat}

/-- The calls that the queue gets. -/
inductive Call where
  | enqueueCandidate (frameId : Nat)
  | resetCandidate (frameId : Nat)
  | takeCandidate
  deriving DecidableEq, Repr

/-- The answer to a call and the state after it; other ids than those of frames are ignored. -/
def call (cleaner : CleanerState n) : Call → Option (Fin n) × CleanerState n
  | .enqueueCandidate frameId =>
      (none, if h : frameId < n then cleaner.enqueueCandidate ⟨frameId, h⟩ else cleaner)
  | .resetCandidate frameId =>
      (none, if h : frameId < n then cleaner.resetCandidate ⟨frameId, h⟩ else cleaner)
  | .takeCandidate => cleaner.takeCandidate

def after : List Call → CleanerState n
  | [] => {}
  | latest :: earlier => ((after earlier).call latest).2

@[simp, grind =]
theorem generation_resetCandidate (cleaner : CleanerState n) (frame other : Fin n) :
    (cleaner.resetCandidate frame).generation other =
      if other = frame then cleaner.generation frame + 1 else cleaner.generation other :=
  Function.update_apply ..

@[simp, grind =]
theorem enqueued_resetCandidate (cleaner : CleanerState n) (frame other : Fin n) :
    (cleaner.resetCandidate frame).enqueued other =
      if other = frame then false else cleaner.enqueued other :=
  Function.update_apply ..

@[simp, grind =]
theorem enqueued_enqueueCandidate (cleaner : CleanerState n) (frame other : Fin n) :
    (cleaner.enqueueCandidate frame).enqueued other =
      if other = frame then true else cleaner.enqueued other := by
  unfold enqueueCandidate
  split
  · split <;> simp_all
  · exact Function.update_apply ..

@[simp]
theorem queue_resetCandidate (cleaner : CleanerState n) (frame : Fin n) :
    (cleaner.resetCandidate frame).queue = cleaner.queue := rfl

/-- The entry was made since the last reset of its frame. -/
def IsCurrent (cleaner : CleanerState n) (entry : Fin n × Nat) : Prop :=
  entry.2 = cleaner.generation entry.1

instance (cleaner : CleanerState n) (entry : Fin n × Nat) : Decidable (cleaner.IsCurrent entry) :=
  inferInstanceAs (Decidable (_ = _))

/-- The flags say which frames have a current entry, and no frame has two. -/
structure Exact (cleaner : CleanerState n) : Prop where
  made : ∀ entry ∈ cleaner.queue, entry.2 ≤ cleaner.generation entry.1
  count : ∀ frame, cleaner.queue.count (frame, cleaner.generation frame) =
    if cleaner.enqueued frame then 1 else 0

namespace Exact

variable {cleaner : CleanerState n} {frame : Fin n}

theorem enqueued_of_mem (h : Exact cleaner) {entry : Fin n × Nat} (hmem : entry ∈ cleaner.queue)
    (hcurrent : cleaner.IsCurrent entry) : cleaner.enqueued entry.1 = true := by
  have hcount := h.count entry.1
  rw [← show entry.2 = _ from hcurrent] at hcount
  have hpos := List.count_pos_iff.mpr hmem
  by_contra hnot
  rw [if_neg hnot] at hcount
  exact hpos.ne' hcount

theorem mem_of_enqueued (h : Exact cleaner) (hflag : cleaner.enqueued frame = true) :
    (frame, cleaner.generation frame) ∈ cleaner.queue := by
  rw [← List.count_pos_iff, h.count, if_pos hflag]
  exact Nat.one_pos

theorem enqueueCandidate (h : Exact cleaner) (frame : Fin n) :
    Exact (cleaner.enqueueCandidate frame) := by
  unfold CleanerState.enqueueCandidate
  split
  · exact h
  · rename_i hflag
    refine ⟨?_, fun other => ?_⟩
    · intro entry hmem
      rcases List.mem_append.mp hmem with hold | hnew
      · exact h.made entry hold
      · rw [List.mem_singleton.mp hnew]
    · have hbefore := h.count other
      dsimp only
      rw [List.count_append, hbefore, List.count_singleton]
      grind [Function.update_apply]

theorem resetCandidate (h : Exact cleaner) (frame : Fin n) :
    Exact (cleaner.resetCandidate frame) := by
  refine ⟨fun entry hmem => ?_, fun other => ?_⟩
  · have hbefore := h.made entry hmem
    grind
  · by_cases heq : other = frame
    · subst heq
      -- No entry has a generation that the frame has not reached.
      have hnone : (other, cleaner.generation other + 1) ∉ cleaner.queue :=
        fun hmem => absurd (h.made _ hmem) (Nat.not_succ_le_self _)
      simp [List.count_eq_zero_of_not_mem hnone]
    · simpa [heq] using h.count other

theorem takeFrom {queue : List (Fin n × Nat)} (h : Exact { cleaner with queue }) :
    Exact (cleaner.takeFrom queue).2 ∧
      (cleaner.takeFrom queue).2.queue <:+ queue ∧
      (cleaner.takeFrom queue).2.generation = cleaner.generation ∧
      (∀ other, (cleaner.takeFrom queue).2.enqueued other =
        (cleaner.enqueued other && (cleaner.takeFrom queue).1 ≠ some other)) ∧
      (cleaner.takeFrom queue).1 = (queue.find? (cleaner.IsCurrent ·)).map Prod.fst := by
  induction queue with
  | nil => exact ⟨h, List.suffix_refl _, rfl, by simp [CleanerState.takeFrom], rfl⟩
  | cons entry queue ih =>
      obtain ⟨frame, generation⟩ := entry
      have hcounts : ∀ other, queue.count (other, cleaner.generation other) +
          (if frame = other ∧ generation = cleaner.generation other then 1 else 0) =
            if cleaner.enqueued other then 1 else 0 := by
        intro other
        rw [← h.count other, List.count_cons]
        congr 1
        simp
      rw [CleanerState.takeFrom]
      split
      · rename_i hcurrent
        refine ⟨⟨fun entry hmem => h.made entry (.tail _ hmem), fun other => ?_⟩,
          List.suffix_cons _ _, rfl, fun other => ?_, by simp [IsCurrent, hcurrent.2]⟩
        · have hother := hcounts other
          dsimp only
          grind [Function.update_apply]
        · grind [Function.update_apply]
      · rename_i hstale
        have hnot : generation ≠ cleaner.generation frame := by
          have hhead := hcounts frame
          grind
        have hrest : Exact { cleaner with queue } := by
          refine ⟨fun entry hmem => h.made entry (.tail _ hmem), fun other => ?_⟩
          have hother := hcounts other
          grind
        obtain ⟨hexact, hsuffix, hgeneration, hflags, hanswer⟩ := ih hrest
        refine ⟨hexact, hsuffix.trans (List.suffix_cons _ _), hgeneration, hflags, ?_⟩
        have hskip : ¬cleaner.IsCurrent (frame, generation) := hnot
        rw [hanswer, List.find?_cons, decide_eq_false hskip]

theorem takeCandidate (h : Exact cleaner) : Exact cleaner.takeCandidate.2 :=
  (takeFrom h).1

theorem call (h : Exact cleaner) (latest : Call) : Exact (cleaner.call latest).2 := by
  cases latest with
  | enqueueCandidate frameId =>
      simp only [CleanerState.call]
      split
      · exact h.enqueueCandidate _
      · exact h
  | resetCandidate frameId =>
      simp only [CleanerState.call]
      split
      · exact h.resetCandidate _
      · exact h
  | takeCandidate => exact h.takeCandidate

end Exact

theorem exact_after (calls : List Call) : Exact (after calls : CleanerState n) := by
  induction calls with
  | nil => exact ⟨nofun, fun _ => rfl⟩
  | cons latest earlier ih => exact ih.call latest

theorem generation_after (calls : List Call) (frame : Fin n) :
    (after calls : CleanerState n).generation frame = calls.count (.resetCandidate frame) := by
  induction calls with
  | nil => rfl
  | cons latest earlier ih =>
      rw [after, List.count_cons]
      cases latest with
      | enqueueCandidate frameId =>
          simp only [call]
          grind [enqueueCandidate]
      | resetCandidate frameId =>
          simp only [call]
          split
          · rw [generation_resetCandidate]
            grind
          · grind
      | takeCandidate =>
          rw [call, CleanerState.takeCandidate, (Exact.takeFrom (exact_after earlier)).2.2.1]
          simpa using ih

/-! ### The order of the candidates -/

def FlaggedSince (frame : Fin n) (earlier calls : List Call) : Prop :=
  earlier <:+ calls ∧ ∀ between, earlier <:+ between → between <:+ calls →
    (after between : CleanerState n).enqueued frame = true

section Order

variable {frame other : Fin n} {earlier calls : List Call} {latest : Call}

theorem FlaggedSince.enqueued (h : FlaggedSince frame earlier calls) :
    (after calls : CleanerState n).enqueued frame = true :=
  h.2 calls h.1 (List.suffix_refl _)

theorem flaggedSince_cons : FlaggedSince frame earlier (latest :: calls) ↔
    (after (latest :: calls) : CleanerState n).enqueued frame = true ∧
      (earlier = latest :: calls ∨ FlaggedSince frame earlier calls) := by
  constructor
  · rintro ⟨hsuffix, hall⟩
    refine ⟨hall _ hsuffix (List.suffix_refl _), ?_⟩
    rcases List.suffix_cons_iff.mp hsuffix with heq | hbefore
    · exact .inl heq
    · exact .inr ⟨hbefore, fun between hge hle =>
        hall between hge (hle.trans (List.suffix_cons _ _))⟩
  · rintro ⟨hnow, rfl | ⟨hsuffix, hall⟩⟩
    · refine ⟨List.suffix_refl _, fun between hge hle => ?_⟩
      rw [hle.eq_of_length_le hge.length_le]
      exact hnow
    · refine ⟨hsuffix.trans (List.suffix_cons _ _), fun between hge hle => ?_⟩
      rcases List.suffix_cons_iff.mp hle with rfl | hbefore
      · exact hnow
      · exact hall between hge hbefore

/-- Of two current entries the first belongs to the frame that was flagged first. -/
def Ordered (n : Nat) (calls : List Call) : Prop :=
  (after calls : CleanerState n).queue.Pairwise fun first second =>
    (after calls).IsCurrent first → (after calls).IsCurrent second →
      ∀ earlier, FlaggedSince second.1 earlier calls → FlaggedSince first.1 earlier calls

theorem ordered_cons
    (h : (after (latest :: calls) : CleanerState n).queue.Pairwise fun first second =>
      (after (latest :: calls)).IsCurrent first → (after (latest :: calls)).IsCurrent second →
        ∀ earlier, FlaggedSince second.1 earlier calls → FlaggedSince first.1 earlier calls) :
    Ordered n (latest :: calls) := by
  refine h.imp_of_mem fun {first second} hfirst _ hpair hcurrent hcurrent' earlier hsince => ?_
  have hflag := (exact_after (latest :: calls)).enqueued_of_mem hfirst hcurrent
  rw [flaggedSince_cons] at hsince ⊢
  exact ⟨hflag, hsince.2.imp_right (hpair hcurrent hcurrent' earlier)⟩

theorem ordered (calls : List Call) : Ordered n calls := by
  induction calls with
  | nil => exact List.Pairwise.nil
  | cons latest calls ih =>
      have hexact : Exact (after calls : CleanerState n) := exact_after calls
      apply ordered_cons
      unfold Ordered at ih
      cases latest with
      | enqueueCandidate frameId =>
          simp only [after, call, IsCurrent]
          split
          · unfold CleanerState.enqueueCandidate
            split
            · exact ih
            · rename_i hflag
              refine List.pairwise_append.mpr ⟨ih, List.pairwise_singleton .., ?_⟩
              rintro first - second hsecond - - earlier hsince
              -- The new frame was not flagged before.
              rw [List.mem_singleton.mp hsecond] at hsince
              exact absurd hsince.enqueued hflag
          · exact ih
      | resetCandidate frameId =>
          simp only [after, call]
          split
          · refine List.Pairwise.imp_of_mem (fun {first second} hfirst hsecond hpair => ?_) ih
            have hmade := hexact.made first hfirst
            have hmade' := hexact.made second hsecond
            grind [IsCurrent]
          · exact ih
      | takeCandidate =>
          obtain ⟨-, hsuffix, hgeneration, -, -⟩ := hexact.takeFrom
          simp only [after, call, IsCurrent, CleanerState.takeCandidate, hgeneration]
          exact ih.sublist hsuffix.sublist

/-- A flagged frame has been enqueued, and neither reset nor taken since. -/
theorem enqueued_since (h : (after calls : CleanerState n).enqueued frame = true) :
    ∃ earlier, .enqueueCandidate frame :: earlier <:+ calls ∧
      ∀ latest before, .enqueueCandidate frame :: earlier <:+ before → latest :: before <:+ calls →
        latest ≠ .resetCandidate frame ∧
          ((after before : CleanerState n).call latest).1 ≠ some frame := by
  induction calls with
  | nil => exact nomatch h
  | cons latest calls ih =>
      have hstep : ((after calls : CleanerState n).enqueued frame = true ∧
            latest ≠ .resetCandidate frame ∧
            ((after calls : CleanerState n).call latest).1 ≠ some frame) ∨
          latest = .enqueueCandidate frame := by
        rw [after] at h
        cases latest with
        | enqueueCandidate frameId =>
            simp only [call] at h ⊢
            grind
        | resetCandidate frameId =>
            grind [call]
        | takeCandidate =>
            have hflags := (exact_after calls).takeFrom.2.2.2.1 frame
            simp only [call, CleanerState.takeCandidate] at h ⊢
            grind
      rcases hstep with ⟨hbefore, hlatest⟩ | rfl
      · obtain ⟨earlier, hsuffix, hlater⟩ := ih hbefore
        refine ⟨earlier, hsuffix.trans (List.suffix_cons _ _), fun move before hge hle => ?_⟩
        rcases List.suffix_cons_iff.mp hle with heq | hle
        · cases heq
          exact hlatest
        · exact hlater move before hge hle
      · refine ⟨calls, List.suffix_refl _, fun move before hge hle => ?_⟩
        have := hge.length_le
        have := hle.length_le
        simp only [List.length_cons] at *
        omega

end Order

/-- After every sequence of calls, the flagged frames are those with exactly one entry of their
current generation.  A candidate is found if and only if a frame is flagged; it is the frame
that has been flagged the longest, and it has been neither reset nor taken since it was
enqueued. -/
theorem candidate_queue_exact (n : Nat) (calls : List Call)
    (hresets : ∀ frame : Fin n, calls.count (.resetCandidate frame) < 2 ^ 64) :
    (∀ frame, (after calls : CleanerState n).generation frame < 2 ^ 64) ∧
    (∀ frame, (after calls : CleanerState n).enqueued frame = true ↔
      (after calls : CleanerState n).queue.count
        (frame, (after calls : CleanerState n).generation frame) = 1) ∧
    ((after calls : CleanerState n).takeCandidate.1.isSome = true ↔
      ∃ frame, (after calls : CleanerState n).enqueued frame = true) ∧
    ∀ frame, (after calls : CleanerState n).takeCandidate.1 = some frame →
      (after calls : CleanerState n).enqueued frame = true ∧
      (∀ other, (after calls : CleanerState n).enqueued other = true →
        ∀ earlier, FlaggedSince other earlier calls → FlaggedSince frame earlier calls) ∧
      ∃ earlier, .enqueueCandidate frame :: earlier <:+ calls ∧
        ∀ latest before, .enqueueCandidate frame :: earlier <:+ before →
          latest :: before <:+ calls → latest ≠ .resetCandidate frame ∧
            ((after before : CleanerState n).call latest).1 ≠ some frame := by
  have hexact : Exact (after calls : CleanerState n) := exact_after calls
  obtain ⟨-, -, -, -, hanswer⟩ := hexact.takeFrom
  refine ⟨fun frame => ?_, fun frame => ?_, ?_, fun frame htaken => ?_⟩
  · rw [generation_after]
    exact hresets frame
  · rw [hexact.count]
    split <;> simp_all
  · rw [CleanerState.takeCandidate, hanswer, Option.isSome_map, List.find?_isSome]
    constructor
    · rintro ⟨entry, hmem, hcurrent⟩
      exact ⟨entry.1, hexact.enqueued_of_mem hmem (of_decide_eq_true hcurrent)⟩
    · rintro ⟨frame, hflag⟩
      exact ⟨_, hexact.mem_of_enqueued hflag, decide_eq_true rfl⟩
  · rw [CleanerState.takeCandidate, hanswer] at htaken
    obtain ⟨entry, hfound, rfl⟩ := Option.map_eq_some_iff.mp htaken
    have hcurrent : (after calls).IsCurrent entry := of_decide_eq_true (List.find?_some hfound :)
    have hflag := hexact.enqueued_of_mem (List.mem_of_find?_eq_some hfound) hcurrent
    refine ⟨hflag, fun other hother earlier => ?_, enqueued_since hflag⟩
    obtain ⟨-, skipped, rest, hqueue, hskipped⟩ := List.find?_eq_some_iff_append.mp hfound
    have hplace := hexact.mem_of_enqueued hother
    have hordered : Ordered n calls := ordered calls
    rw [Ordered, hqueue, List.pairwise_append, List.pairwise_cons] at hordered
    rw [hqueue, List.mem_append, List.mem_cons] at hplace
    rcases hplace with hbefore | rfl | hbehind
    · have hstale := hskipped _ hbefore
      rw [Bool.not_eq_true', decide_eq_false_iff_not] at hstale
      exact absurd rfl hstale
    · exact id
    · exact hordered.2.1.1 _ hbehind hcurrent rfl earlier

/-- A frame that is enqueued again after a reset, with its first entry still in the queue. -/
theorem candidate_queue_exact_requeued :
    (after [.enqueueCandidate 0, .resetCandidate 0, .enqueueCandidate 0] :
        CleanerState 1).takeCandidate.1 = some 0 ∧
      (after [.enqueueCandidate 0, .resetCandidate 0, .enqueueCandidate 0] :
        CleanerState 1).enqueued 0 = true := by
  have htaken : (after [.enqueueCandidate 0, .resetCandidate 0, .enqueueCandidate 0] :
      CleanerState 1).takeCandidate.1 = some 0 := by
    decide
  exact ⟨htaken, ((candidate_queue_exact 1 _ (by decide)).2.2.2 0 htaken).1⟩

/-! ### The length of the queue -/

/-- All entries are current. -/
structure Fresh (cleaner : CleanerState n) : Prop extends Exact cleaner where
  current : ∀ entry ∈ cleaner.queue, cleaner.IsCurrent entry

namespace Fresh

variable {cleaner : CleanerState n}

theorem length_le (h : Fresh cleaner) : cleaner.queue.length ≤ n := by
  have hnodup : cleaner.queue.Nodup := by
    refine List.nodup_iff_count_le_one.mpr fun entry => ?_
    by_cases hmem : entry ∈ cleaner.queue
    · have hcount := h.count entry.1
      rw [← show entry.2 = _ from h.current entry hmem] at hcount
      rw [hcount]
      split <;> decide
    · rw [List.count_eq_zero_of_not_mem hmem]
      exact Nat.zero_le 1
  have hframes : (cleaner.queue.map Prod.fst).Nodup := by
    refine hnodup.map_on fun first hfirst second hsecond heq => Prod.ext heq ?_
    rw [show first.2 = _ from h.current first hfirst, heq]
    exact (h.current second hsecond).symm
  simpa using hframes.length_le_card

theorem enqueueCandidate (h : Fresh cleaner) (frame : Fin n) :
    Fresh (cleaner.enqueueCandidate frame) := by
  refine ⟨h.toExact.enqueueCandidate frame, ?_⟩
  unfold CleanerState.enqueueCandidate
  split
  · exact h.current
  · intro entry hmem
    rcases List.mem_append.mp hmem with hold | hnew
    · exact h.current entry hold
    · rw [List.mem_singleton.mp hnew]
      rfl

theorem resetCandidate (h : Fresh cleaner) {frame : Fin n}
    (hflag : cleaner.enqueued frame = false) : Fresh (cleaner.resetCandidate frame) := by
  refine ⟨h.toExact.resetCandidate frame, fun entry hmem => ?_⟩
  have hcurrent := h.current entry hmem
  have hentry := h.enqueued_of_mem hmem hcurrent
  grind [IsCurrent]

theorem takeCandidate (h : Fresh cleaner) : Fresh cleaner.takeCandidate.2 := by
  obtain ⟨hexact, hsuffix, hgeneration, -, -⟩ := h.toExact.takeFrom
  refine ⟨hexact, fun entry hmem => ?_⟩
  exact (h.current entry (hsuffix.subset hmem)).trans (congrFun hgeneration entry.1).symm

end Fresh

end TelePath.CleanerState
