import TelePath.Buffer.PageTableLookups

/-!
Every lookup returns what an atomic walk of the chain would have returned at some instant
of the call, in every run of the table with at most `2 ^ 31` frames.
-/

namespace TelePath.PageTableWords

open Logic Program

variable {Thread : Type} [DecidableEq Thread]

/-! ### Runs -/

/-- The thread may take its next step: a lookup does not read the sequence again after
`2 ^ 31` writers. -/
def Brisk (system : System Thread) : Move Thread → Prop
  | .act thread _ =>
      match system.running thread with
      | some (_, .request access _) => Brief system.state thread access
      | _ => True
  | _ => True

instance (state : State Thread) (thread : Thread) :
    ∀ access : Access, Decidable (Brief state thread access)
  | .loadSequence stripe => inferInstanceAs (Decidable (state.lookups thread ≠ none →
      sections (state.increments stripe) < sections (state.entered thread) + 2 ^ 31))
  | .loadHead _ | .storeHead .. | .loadNext _ | .storeNext .. | .loadBucketOf _ => isTrue trivial
  | .storeBucketOf .. | .loadKeyFileId _ | .storeKeyFileId .. | .loadKeyBlockId _ => isTrue trivial
  | .storeKeyBlockId .. | .exchangeLock _ | .loadLock _ | .clearLock _ => isTrue trivial
  | .enterSequence _ | .storeSequence .. | .live _ => isTrue trivial

instance (system : System Thread) : ∀ move : Move Thread, Decidable (Brisk system move)
  | .call _ _ | .leave _ => isTrue trivial
  | .act thread _ =>
      match h : system.running thread with
      | some (_, .request access _) =>
          decidable_of_iff (Brief system.state thread access) (by simp only [Brisk, h])
      | some (_, .done _) => isTrue (by simp only [Brisk, h])
      | some (_, .loop _ _ _) => isTrue (by simp only [Brisk, h])
      | none => isTrue (by simp only [Brisk, h])

/-- What holds when a call returns. -/
def Finished (thread : Thread) : Call → Option FrameId → State Thread → Prop
  | .lookupFrameId _, result, state => result ∈ state.answers thread
  | .install _ frame, _, state | .remove _ frame, _, state => Inside thread [] frame state
  | .replace _ _ frame, _, state => Inside thread [] frame state
  | .replaceUnlessLive _ _ frame, _, state => Inside thread [] frame state

/-- The calls that returned were answered as at some instant of theirs. -/
def Answered (returned : List Return) : Prop :=
  ∀ entry ∈ returned, ∀ tag, entry.call = .lookupFrameId tag → entry.result ∈ entry.answers

structure Sound (table : Geometry) (system : System Thread) : Prop where
  consistent : Consistent table system.state
  running : ∀ thread call program, system.running thread = some (call, program) →
    (protocol table).Running thread program (Finished thread call) system.state
  answered : Answered system.returned

variable {table : Geometry} {thread : Thread}

omit [DecidableEq Thread] in
theorem Finished.inside {call : Call} {result : Option FrameId} {state : State Thread}
    (h : Finished thread call result state) {frame : FrameId} (hframe : call.frame? = some frame) :
    Inside thread [] frame state := by
  cases call with
  | lookupFrameId tag => cases hframe
  | install tag other => cases hframe; exact h
  | remove tag other => cases hframe; exact h
  | replace oldTag newTag other => cases hframe; exact h
  | replaceUnlessLive oldTag newTag other => cases hframe; exact h

/-- What holds when a call begins. -/
def Begun (thread : Thread) (call : Call) (state : State Thread) : Prop :=
  (∀ frame, call.frame? = some frame → Inside thread [] frame state) ∧
    state.lookups thread = call.tag?

theorem stable_begun {call : Call} : (protocol table).Stable thread (Begun thread call) := by
  intro state next hstate hnext hrely h
  exact ⟨fun frame hframe => stable_inside state next hstate hnext hrely (h.1 frame hframe),
    hrely.lookups.trans h.2⟩

theorem call_upholds (hfit : table.bucketCount ≤ 2 ^ 31) (hcapacity : table.frameCapacity ≤ 2 ^ 31)
    {call : Call} (hframe : ∀ frame, call.frame? = some frame → frame.toNat < table.frameCapacity) :
    (protocol table).Upholds thread (call.program table) (Finished thread call)
      (Begun thread call) := by
  have hnone : ∀ frame, call.frame? = some frame → frame ≠ kNone := by
    rintro frame hcall rfl
    have hlt := hframe _ hcall
    have hnat : kNone.toNat = 2 ^ 32 - 1 := by decide
    omega
  cases call with
  | lookupFrameId tag =>
      exact lookupFrameId_upholds.strengthen stable_begun fun _ _ h => h.2
  | install tag frame =>
      refine ((replace_upholds hfit (hframe frame rfl) (hnone frame rfl) tag tag).strengthen
        stable_begun fun _ _ h => h.1 frame rfl).seq fun _ => ?_
      exact Protocol.upholds_pure stable_inside fun _ _ h => h
  | remove tag frame =>
      refine ((remove_upholds hfit (hframe frame rfl) (hnone frame rfl) tag).strengthen
        stable_begun fun _ _ h => h.1 frame rfl).seq fun _ => ?_
      exact Protocol.upholds_pure stable_inside fun _ _ h => h
  | replace oldTag newTag frame =>
      refine ((replace_upholds hfit (hframe frame rfl) (hnone frame rfl) oldTag newTag).strengthen
        stable_begun fun _ _ h => h.1 frame rfl).seq fun _ => ?_
      exact Protocol.upholds_pure stable_inside fun _ _ h => h
  | replaceUnlessLive oldTag newTag frame =>
      exact (replaceUnlessLive_upholds hfit (hframe frame rfl) (hnone frame rfl) oldTag
        newTag).strengthen stable_begun fun _ _ h => h.1 frame rfl

/-! ### Calls and returns -/

theorem begin_step {state : State Thread} (hstate : Consistent table state) {call : Call}
    (hfree : call.frame?.all (state.free table) = true) :
    Consistent table (state.begin table thread call) ∧
      (∀ other, other ≠ thread → Rely table other state (state.begin table thread call)) ∧
      Begun thread call (state.begin table thread call) := by
  have howner : ∀ other : Thread, ∀ frame, state.owner frame = some other →
      (state.begin table thread call).owner frame = some other := by
    intro other frame hframe
    simp only [State.begin, State.note]
    cases htaken : call.frame? with
    | none => exact hframe
    | some taken =>
        have hne : frame ≠ taken := by
          rintro rfl
          simp [htaken, State.free, hframe] at hfree
        exact (Function.update_of_ne hne ..).trans hframe
  refine ⟨⟨hstate.chains, hstate.nexts, hstate.buckets, hstate.locks, hstate.sequences,
    hstate.quiet⟩, fun other hother => ?_, fun frame hframe => ?_, ?_⟩
  · exact {
      held := fun _ => Iff.rfl
      heldIncrements := fun _ _ => rfl
      monotone := fun _ => le_rfl
      chains := fun bucket _ _ => Same.refl _ bucket
      owned := fun frame hframe => ⟨howner other frame hframe, rfl⟩
      links := fun _ _ _ => rfl
      off := fun _ _ hoff => hoff
      entered := rfl
      lookups := Function.update_of_ne hother ..
      answers := fun answer hanswer => by
        refine mem_note ?_
        simp only [Function.update_of_ne hother]
        exact hanswer }
  · refine ⟨state.memory.bucketOf frame, fun _ h => absurd h List.not_mem_nil, ?_, rfl⟩
    simp only [State.begin, State.note, hframe, Function.update_self]
  · simp only [State.begin, State.note, Function.update_self]

theorem finish_step {state : State Thread} (hstate : Consistent table state) {call : Call}
    {result : Option FrameId} (h : Finished thread call result state) :
    Consistent table (state.finish thread call) ∧
      ∀ other, other ≠ thread → Rely table other state (state.finish thread call) := by
  refine ⟨⟨hstate.chains, hstate.nexts, hstate.buckets, hstate.locks, hstate.sequences,
    hstate.quiet⟩, fun other hother => ?_⟩
  exact {
    held := fun _ => Iff.rfl
    heldIncrements := fun _ _ => rfl
    monotone := fun _ => le_rfl
    chains := fun bucket _ _ => Same.refl _ bucket
    owned := fun frame hframe => by
      refine ⟨?_, rfl⟩
      simp only [State.finish]
      cases hgiven : call.frame? with
      | none => exact hframe
      | some given =>
          obtain ⟨bucket, hwrites⟩ := h.inside hgiven
          have hne : frame ≠ given := by
            rintro rfl
            exact hother (Option.some.inj (hframe.symm.trans hwrites.owner))
          exact (Function.update_of_ne hne ..).trans hframe
    links := fun _ _ _ => rfl
    off := fun _ _ hoff => hoff
    entered := rfl
    lookups := Function.update_of_ne hother ..
    answers := fun _ hanswer => hanswer }

/-! ### Steps -/

theorem Sound.resume {system : System Thread} (h : Sound table system) {state : State Thread}
    {entry : Option (Call × Prog (Option FrameId))} {returned : List Return}
    (hstate : Consistent table state)
    (hrely : ∀ other, other ≠ thread → Rely table other system.state state)
    (hentry : ∀ call program, entry = some (call, program) →
      (protocol table).Running thread program (Finished thread call) state)
    (hanswered : Answered returned) :
    Sound table {
      state, returned, running := Function.update system.running thread entry } := by
  refine ⟨hstate, fun other call program hrunning => ?_, hanswered⟩
  by_cases heq : other = thread
  · subst heq
    simp only [Function.update_self] at hrunning
    exact hentry call program hrunning
  · simp only [Function.update_of_ne heq] at hrunning
    exact (h.running other call program hrunning).others h.consistent hstate (hrely other heq)

theorem Sound.call {system : System Thread} {call : Call} (h : Sound table system)
    (hcapacity : table.frameCapacity ≤ 2 ^ 31)
    (hfree : call.frame?.all (system.state.free table) = true) :
    Sound table { system with
      state := system.state.begin table thread call
      running := Function.update system.running thread (some (call, call.program table)) } := by
  obtain ⟨hstate, hrely, hbegun⟩ := begin_step h.consistent hfree
  refine h.resume hstate hrely ?_ h.answered
  rintro _ _ ⟨⟩
  refine ⟨_, call_upholds (bucketCount_le hcapacity) hcapacity fun frame hframe => ?_, hbegun⟩
  rw [hframe] at hfree
  have hboth : decide (frame.toNat < table.frameCapacity) = true ∧ _ :=
    Bool.and_eq_true_iff.mp hfree
  exact of_decide_eq_true hboth.1

theorem Sound.leave {system : System Thread} {call : Call} {result : Option FrameId}
    (h : Sound table system) (hrunning : system.running thread = some (call, .done result)) :
    Sound table { system with
      state := system.state.finish thread call
      running := Function.update system.running thread none
      returned := system.returned ++ [{
        call, result, answers := system.state.answers thread }] } := by
  have hfinished := (h.running thread call _ hrunning).done h.consistent
  obtain ⟨hstate, hrely⟩ := finish_step h.consistent hfinished
  refine h.resume hstate hrely (fun _ _ hnone => nomatch hnone) fun entry hentry tag htag => ?_
  rcases List.mem_append.mp hentry with hbefore | hlast
  · exact h.answered entry hbefore tag htag
  · obtain rfl := List.mem_singleton.mp hlast
    simp only at htag
    subst htag
    exact hfinished

theorem Sound.request {system : System Thread} {call : Call} {access : Access}
    {rest : access.Reply → Prog (Option FrameId)} (h : Sound table system)
    (hrunning : system.running thread = some (call, .request access rest))
    (hbrief : Brief system.state thread access) (choice : Bool) :
    Sound table { system with
      state := system.state.after table thread choice access
      running := Function.update system.running thread
        (some (call, rest (system.state.memory.perform choice access).1)) } := by
  obtain ⟨⟨hstate, hrely⟩, hrest⟩ := (h.running thread call _ hrunning).request h.consistent
    ⟨hbrief, choice, rfl, rfl⟩
  refine h.resume hstate hrely ?_ h.answered
  rintro _ _ ⟨⟩
  exact hrest

theorem Sound.step (hcapacity : table.frameCapacity ≤ 2 ^ 31) {system next : System Thread}
    {move : Move Thread} (h : Sound table system) (hbrisk : Brisk system move)
    (hstep : PageTableWords.step table system move = some next) : Sound table next := by
  cases move with
  | call thread call =>
      simp only [PageTableWords.step] at hstep
      split at hstep
      · cases hstep
      split at hstep
      · cases hstep
        exact h.call hcapacity ‹_›
      · cases hstep
  | act thread choice =>
      simp only [PageTableWords.step] at hstep
      simp only [Brisk] at hbrisk
      split at hstep
      · rename_i call access rest hrunning
        rw [hrunning] at hbrisk
        simp only [State.exec] at hstep
        split at hstep
        · cases hstep
          exact h.request hrunning hbrisk choice
        · cases hstep
      · rename_i call _ _ body start rest hrunning
        cases hstep
        refine h.resume h.consistent (fun other _ => Rely.of_memory rfl rfl rfl rfl rfl
          (fun _ hanswer => hanswer) rfl) ?_ h.answered
        rintro _ _ ⟨⟩
        exact (h.running thread call _ hrunning).loop h.consistent
      · cases hstep
  | leave thread =>
      simp only [PageTableWords.step] at hstep
      split at hstep
      · cases hstep
        exact h.leave ‹_›
      · cases hstep

omit [DecidableEq Thread] in
theorem consistent_empty : Consistent table ({} : State Thread) where
  chains _ _ := ⟨[], rfl, fun _ h => absurd h List.not_mem_nil⟩
  nexts _ _ := .inl rfl
  buckets _ _ := .inl rfl
  locks _ := rfl
  sequences _ := rfl
  quiet _ _ := rfl

theorem sound_empty : Sound table ({} : System Thread) where
  consistent := consistent_empty
  running _ _ _ h := nomatch h
  answered _ h := absurd h List.not_mem_nil

/-- In every run of a table with at most `2 ^ 31` frames in which no lookup is overtaken by
`2 ^ 31` writers, each lookup that has returned was answered as at some instant of its call,
no thread is about to leave the arrays, and a pass makes at most three loads a frame. -/
theorem lookups_linearizable (hcapacity : table.frameCapacity ≤ 2 ^ 31)
    {moves : List (Move Thread)} {system : System Thread}
    (hbrisk : Machine.Meets (step table) Brisk {} moves)
    (hrun : Machine.run (step table) {} moves = some system) :
    Answered system.returned ∧
      (∀ thread call access rest, system.running thread = some (call, .request access rest) →
        access.InRange table) ∧
      ∀ tag, (lookupPass table tag).Within (3 * table.frameCapacity + 3) := by
  have hsound : Sound table system := Machine.invariant_of_meets
    (fun _ _ _ hsystem hbrisk hstep => hsystem.step hcapacity hbrisk hstep) sound_empty hbrisk hrun
  refine ⟨hsound.answered, fun thread call access rest hrunning => ?_, fun _ => lookupPass_within⟩
  exact (hsound.running thread call _ hrunning).permits hsound.consistent

/-- A run in which a lookup is overtaken by a writer and passes again. -/
def overtaken : List (Move Bool) :=
  .call false (.lookupFrameId {}) :: List.replicate 3 (.act false true) ++
    .call true (.install {} 0) :: List.replicate 15 (.act true true) ++ .leave true ::
    List.replicate 7 (.act false true) ++ [.leave false]

theorem lookups_linearizable_overtaken :
    ∃ system, Machine.run (step ⟨2, 1⟩) {} overtaken = some system ∧
      Answered system.returned ∧
      system.returned.map (fun entry => (entry.result, entry.answers.length)) =
        [(none, 0), (some 0, 24)] := by
  have hmeets : Machine.Meets (step ⟨2, 1⟩) Brisk {} overtaken := by
    decide +kernel
  have hseen : (Machine.run (step ⟨2, 1⟩) {} overtaken).map
      (fun system => system.returned.map fun entry => (entry.result, entry.answers.length)) =
        some [(none, 0), (some 0, 24)] := by
    decide +kernel
  obtain ⟨system, hrun, hreturned⟩ := Option.map_eq_some_iff.mp hseen
  exact ⟨system, hrun, (lookups_linearizable (by decide) hmeets hrun).1, hreturned⟩

/-- With `2 ^ 31 + 1` frames there are `2 ^ 32` buckets, and the last of them is stored in
`bucket_of_` as no bucket at all.  A writer that gives such a frame another tag does not
lock the stripe of the chain on which the frame still is. -/
def lastBucket : List (Move Bool) :=
  .call true (.install { fileId := 1, blockId := 0xc348c98eb271b06f } 0) ::
    List.replicate 15 (.act true true) ++ .leave true ::
    .call false (.lookupFrameId { fileId := 1, blockId := 0x1d6fad32c80805f8 }) ::
    List.replicate 4 (.act false true) ++
    .call true (.install { fileId := 2, blockId := 0x1d6fad32c80805f8 } 0) ::
    List.replicate 8 (.act true true) ++ List.replicate 2 (.act false true) ++ [.leave false]

/-- The lookup puts one half of the old tag and one half of the new tag together. -/
theorem lookup_mixes_tags :
    ∃ system, Machine.run (step ⟨2 ^ 31 + 1, 2⟩) {} lastBucket = some system ∧
      Machine.Meets (step ⟨2 ^ 31 + 1, 2⟩) Brisk {} lastBucket ∧
      ∃ entry ∈ system.returned, ∃ tag, entry.call = .lookupFrameId tag ∧
        entry.result = some 0 ∧ ∀ answer ∈ entry.answers, answer = none := by
  have hmeets : Machine.Meets (step ⟨2 ^ 31 + 1, 2⟩) Brisk {} lastBucket := by
    decide +kernel
  have hseen : (Machine.run (step ⟨2 ^ 31 + 1, 2⟩) {} lastBucket).map
      (fun system => system.returned) = some [
        ⟨.install { fileId := 1, blockId := 0xc348c98eb271b06f } 0, none, []⟩,
        ⟨.lookupFrameId { fileId := 1, blockId := 0x1d6fad32c80805f8 }, some 0,
          List.replicate 14 none⟩] := by
    decide +kernel
  obtain ⟨system, hrun, hreturned⟩ := Option.map_eq_some_iff.mp hseen
  refine ⟨system, hrun, hmeets, _, hreturned ▸ List.mem_cons_of_mem _ List.mem_cons_self, _, rfl,
    rfl, fun answer hanswer => List.eq_of_mem_replicate hanswer⟩

end TelePath.PageTableWords
