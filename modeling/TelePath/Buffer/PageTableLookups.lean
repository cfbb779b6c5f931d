import TelePath.Buffer.PageTableCalls

/-!
Lookups that run beside the writers.

A lookup knows nothing of the words it has loaded unless the sequence of its stripe still
has the value with which the pass began.  What it knows in that case is about the chain of
its tag, which cannot have changed since.
-/

namespace TelePath.PageTableWords

open Logic Program

/-! ### What a pass knows -/

def AboutChain (table : Geometry) (tag : BufferTag) (claim : Memory → Prop) : Prop :=
  ∀ before after frames, Chain before (table.bucketFor tag) frames →
    Same before after (table.bucketFor tag) → claim before → claim after

/-- The pass has come to `current` without a match and has `steps` steps left. -/
def Walking (table : Geometry) (tag : BufferTag) (steps : Nat) (current : FrameId)
    (memory : Memory) : Prop :=
  ∃ passed rest, Chain memory (table.bucketFor tag) (passed ++ rest) ∧
    Linked memory.next kNone current rest ∧
    (∀ frame ∈ passed, memory.mapsTo frame tag = false) ∧
    passed.length + steps = table.frameCapacity

/-- The first match on the chain of the tag. -/
def Answers (table : Geometry) (tag : BufferTag) (found : Option FrameId) (memory : Memory) :
    Prop :=
  ∃ frames, Chain memory (table.bucketFor tag) frames ∧
    (frames.find? fun frame => memory.mapsTo frame tag) = found

variable {Thread : Type} {table : Geometry} {thread : Thread} {tag : BufferTag}

/-- A pass of a lookup has begun. -/
structure Entered (table : Geometry) (thread : Thread) (tag : BufferTag) (before : BitVec 32)
    (state : State Thread) : Prop where
  lookups : state.lookups thread = some tag
  before : before = BitVec.ofNat 32 (state.entered thread)
  le : state.entered thread ≤ state.increments (table.stripeFor (table.bucketFor tag))

/-- No writer was inside of the stripe when the pass began, and the claim holds if none has
been since. -/
structure Reading (table : Geometry) (thread : Thread) (tag : BufferTag) (before : BitVec 32)
    (claim : Memory → Prop) (state : State Thread) : Prop where
  entered : Entered table thread tag before state
  even : state.entered thread % 2 = 0
  claim : state.increments (table.stripeFor (table.bucketFor tag)) = state.entered thread →
    claim state.memory

theorem Entered.rely {before : BitVec 32} {state next : State Thread}
    (h : Entered table thread tag before state) (hrely : Rely table thread state next) :
    Entered table thread tag before next := by
  refine ⟨hrely.lookups.trans h.lookups, ?_, ?_⟩
  · rw [hrely.entered]
    exact h.before
  · rw [hrely.entered]
    exact h.le.trans (hrely.monotone _)

theorem Reading.mono {before : BitVec 32} {claim weaker : Memory → Prop} {state : State Thread}
    (h : Reading table thread tag before claim state)
    (himp : claim state.memory → weaker state.memory) :
    Reading table thread tag before weaker state :=
  ⟨h.entered, h.even, fun heq => himp (h.claim heq)⟩

theorem Reading.rely {before : BitVec 32} {claim : Memory → Prop} {state next : State Thread}
    (habout : AboutChain table tag claim) (h : Reading table thread tag before claim state)
    (hstate : Consistent table state) (hrely : Rely table thread state next) :
    Reading table thread tag before claim next := by
  refine ⟨h.entered.rely hrely, ?_, fun heq => ?_⟩
  · rw [hrely.entered]
    exact h.even
  · rw [hrely.entered] at heq
    have hmonotone := hrely.monotone (table.stripeFor (table.bucketFor tag))
    have hbefore : state.increments (table.stripeFor (table.bucketFor tag)) =
        state.entered thread := le_antisymm (heq ▸ hmonotone) h.entered.le
    have hsame : Same state.memory next.memory (table.bucketFor tag) := by
      refine hrely.chains _ (bucketFor_lt table tag) (.inr ⟨heq.trans hbefore.symm, ?_⟩)
      rw [hbefore]
      exact h.even
    obtain ⟨frames, hframes⟩ := hstate.chain_exists _ (bucketFor_lt table tag)
    exact habout _ _ frames hframes hsame (h.claim hbefore)

/-! ### Claims about the chain -/

theorem aboutChain_answers {found : Option FrameId} :
    AboutChain table tag (Answers table tag found) := by
  rintro before after _ _ hsame ⟨frames, hchain, hfound⟩
  refine ⟨frames, hsame.chain hchain, ?_⟩
  rw [← hfound]
  exact List.find?_congr fun frame hframe => hsame.mapsTo hchain hframe tag

theorem aboutChain_walking {steps : Nat} {current : FrameId} :
    AboutChain table tag (Walking table tag steps current) := by
  rintro before after _ _ hsame ⟨passed, rest, hchain, hrest, hpassed, hlength⟩
  refine ⟨passed, rest, hsame.chain hchain, hrest.congr fun frame hframe => ?_,
    fun frame hframe => ?_, hlength⟩
  · exact hsame.next _ hchain frame (List.mem_append_right passed hframe)
  · rw [hsame.mapsTo hchain (List.mem_append_left rest hframe)]
    exact hpassed frame hframe

theorem Walking.cons {steps : Nat} {current : FrameId} {memory : Memory}
    (h : Walking table tag steps current memory) (hne : current ≠ kNone) :
    ∃ passed rest, Chain memory (table.bucketFor tag) (passed ++ current :: rest) ∧
      Linked memory.next kNone (memory.next current) rest ∧
      (∀ frame ∈ passed, memory.mapsTo frame tag = false) ∧
      passed.length + steps = table.frameCapacity := by
  obtain ⟨passed, rest, hchain, hrest, hpassed, hlength⟩ := h
  obtain ⟨tail, rfl⟩ := hrest.eq_cons hne
  exact ⟨passed, tail, hchain, hrest.2.2, hpassed, hlength⟩

theorem aboutChain_keys {steps : Nat} {current : FrameId} (hne : current ≠ kNone)
    (fact : FileId → BlockId → Prop) :
    AboutChain table tag fun memory => Walking table tag steps current memory ∧
      fact (memory.keyFileId current) (memory.keyBlockId current) := by
  intro before after frames hframes hsame h
  obtain ⟨passed, rest, hchain, -⟩ := h.1.cons hne
  obtain ⟨hfile, hblock⟩ := hsame.maps _ hchain current (by simp)
  refine ⟨aboutChain_walking before after frames hframes hsame h.1, ?_⟩
  rw [hfile, hblock]
  exact h.2

theorem aboutChain_mapsTo {steps : Nat} {current : FrameId} (hne : current ≠ kNone) (maps : Bool) :
    AboutChain table tag fun memory => Walking table tag steps current memory ∧
      memory.mapsTo current tag = maps :=
  aboutChain_keys hne fun fileId blockId =>
    decide (fileId = tag.fileId ∧ blockId = tag.blockId) = maps

theorem Walking.next {steps : Nat} {current : FrameId} {memory : Memory} (hne : current ≠ kNone)
    (h : Walking table tag (steps + 1) current memory)
    (hmaps : memory.mapsTo current tag = false) :
    Walking table tag steps (memory.next current) memory := by
  obtain ⟨passed, rest, hchain, hrest, hpassed, hlength⟩ := h.cons hne
  refine ⟨passed ++ [current], rest, by simpa using hchain, hrest, ?_, ?_⟩
  · intro frame hframe
    rcases List.mem_append.mp hframe with hframe | hframe
    · exact hpassed frame hframe
    · obtain rfl := List.mem_singleton.mp hframe
      exact hmaps
  · simp only [List.length_append, List.length_singleton]
    omega

theorem Walking.answers_some {steps : Nat} {current : FrameId} {memory : Memory}
    (h : Walking table tag steps current memory) (hne : current ≠ kNone)
    (hmaps : memory.mapsTo current tag = true) :
    Answers table tag (some current) memory := by
  obtain ⟨passed, rest, hchain, hrest, hpassed, hlength⟩ := h.cons hne
  refine ⟨_, hchain, ?_⟩
  rw [List.find?_append, List.find?_eq_none.mpr fun frame hframe => by simp [hpassed frame hframe],
    Option.none_or]
  exact List.find?_cons_of_pos hmaps

theorem Walking.answers_none {steps : Nat} {memory : Memory}
    (h : Walking table tag steps kNone memory) : Answers table tag none memory := by
  obtain ⟨passed, rest, hchain, hrest, hpassed, -⟩ := h
  obtain rfl : rest = [] := hrest.unique rfl
  refine ⟨_, hchain, List.find?_eq_none.mpr fun frame hframe => ?_⟩
  rw [List.append_nil] at hframe
  simp [hpassed frame hframe]

theorem Walking.answers_none_of_zero {current : FrameId} {state : State Thread}
    (h : Walking table tag 0 current state.memory) (hstate : Consistent table state) :
    Answers table tag none state.memory := by
  obtain ⟨passed, rest, hchain, hrest, hpassed, hlength⟩ := h
  have hle := hstate.length_le (bucketFor_lt table tag) hchain
  obtain rfl : rest = [] := by
    rw [List.length_append] at hle
    exact List.eq_nil_of_length_eq_zero (by omega)
  exact Walking.answers_none ⟨passed, [], hchain, rfl, hpassed, hlength⟩

/-! ### A pass -/

variable [DecidableEq Thread] {before : BitVec 32}

theorem stable_reading {claim : Memory → Prop} (habout : AboutChain table tag claim) :
    (protocol table).Stable thread (Reading table thread tag before claim) :=
  fun _ _ hstate _ hrely h => h.rely habout hstate hrely

theorem reading_load (request : Access) {claim : Memory → Prop}
    {claim' : request.Reply → Memory → Prop} (hreads : request.reads = true)
    (hrange : request.InRange table) (habout : AboutChain table tag claim)
    (habout' : ∀ reply, AboutChain table tag (claim' reply))
    (hread : ∀ memory choice, claim memory → claim' (memory.perform choice request).1 memory) :
    (protocol table).Upholds thread (access request)
      (fun reply => Reading table thread tag before (claim' reply))
      (Reading table thread tag before claim) :=
  upholds_load request hreads (stable_reading habout) (fun reply => stable_reading (habout' reply))
    (fun _ _ _ => hrange) fun state choice _ h => h.mono (hread state.memory choice)

theorem mapsTo_reading {steps : Nat} {current : FrameId} (hne : current ≠ kNone)
    (hcurrent : current.toNat < table.frameCapacity) :
    (protocol table).Upholds thread (mapsTo current tag)
      (fun maps => Reading table thread tag before fun memory =>
        Walking table tag steps current memory ∧ memory.mapsTo current tag = maps)
      (Reading table thread tag before (Walking table tag steps current)) := by
  have hfileId : ∀ reply, AboutChain table tag fun memory =>
      Walking table tag steps current memory ∧ memory.keyFileId current = reply :=
    fun reply => aboutChain_keys hne fun fileId _ => fileId = reply
  refine (reading_load (.loadKeyFileId current) rfl hcurrent aboutChain_walking hfileId
    fun _ _ h => ⟨h, rfl⟩).seq fun fileId => ?_
  split
  · rename_i hfile
    refine (reading_load (.loadKeyBlockId current) rfl hcurrent (hfileId fileId)
      (fun blockId => aboutChain_mapsTo hne (decide (blockId = tag.blockId))) ?_).seq
        fun blockId => Protocol.upholds_pure (stable_reading (aboutChain_mapsTo hne _))
          fun _ _ h => h
    intro memory choice h
    refine ⟨h.1, ?_⟩
    simp only [Memory.mapsTo, h.2, hfile, true_and]
    rfl
  · rename_i hfile
    refine Protocol.upholds_pure (stable_reading (hfileId fileId)) fun state _ h =>
      h.mono fun h => ⟨h.1, ?_⟩
    simp [Memory.mapsTo, h.2, hfile]

theorem walkChain_reading (steps : Nat) {current : FrameId} (hvalid : Valid table current) :
    (protocol table).Upholds thread (walkChain tag steps current)
      (fun found => Reading table thread tag before (Answers table tag found))
      (Reading table thread tag before (Walking table tag steps current)) := by
  induction steps generalizing current with
  | zero =>
      exact Protocol.upholds_pure (stable_reading aboutChain_walking) fun state hstate h =>
        h.mono fun h => h.answers_none_of_zero hstate
  | succ steps ih =>
      rw [walkChain]
      by_cases hend : current = kNone
      · subst hend
        rw [if_pos rfl]
        exact Protocol.upholds_pure (stable_reading aboutChain_walking) fun state _ h =>
          h.mono fun h => h.answers_none
      rw [if_neg hend]
      have hcurrent := hvalid.resolve_left hend
      refine (mapsTo_reading hend hcurrent).seq fun maps => ?_
      cases maps with
      | true =>
          exact Protocol.upholds_pure (stable_reading (aboutChain_mapsTo hend true))
            fun state _ h => h.mono fun h => h.1.answers_some hend h.2
      | false =>
          have hnext : ∀ next, (protocol table).Stable thread fun state =>
              Reading table thread tag before (Walking table tag steps next) state ∧
                Valid table next :=
            fun next => (stable_reading aboutChain_walking).and (Protocol.stable_pure _)
          refine (upholds_load (.loadNext current) rfl
            (stable_reading (aboutChain_mapsTo hend false)) hnext (fun _ _ _ => hcurrent)
            fun _ _ hstate h => ⟨h.mono fun h => h.1.next hend h.2,
              hstate.nexts current hcurrent⟩).seq fun next => ?_
          refine Protocol.Upholds.assume (hnext next) (fun _ _ h => h.2) fun hvalid => ?_
          exact (ih hvalid).strengthen (hnext next) fun _ _ h => h.1

/-- The lookup runs. -/
def Asks (thread : Thread) (tag : BufferTag) (state : State Thread) : Prop :=
  state.lookups thread = some tag

theorem stable_asks : (protocol table).Stable thread (Asks thread tag) :=
  fun _ _ _ _ hrely h => hrely.lookups.trans h

theorem stable_entered : (protocol table).Stable thread (Entered table thread tag before) :=
  fun _ _ _ _ hrely h => h.rely hrely

theorem enterSequence_upholds :
    (protocol table).Upholds thread
      (access (.enterSequence (table.stripeFor (table.bucketFor tag))))
      (fun before => Entered table thread tag before) (Asks thread tag) := by
  refine upholds_access _ stable_asks (fun _ => stable_entered)
    (fun _ _ _ => stripeFor_lt table _) ?_
  intro state choice hstate h
  refine ⟨_, rfl, ⟨⟨hstate.chains, hstate.nexts, hstate.buckets, hstate.locks, hstate.sequences,
    hstate.quiet⟩, fun other hother => ?_⟩, h, ?_, ?_⟩
  · exact Rely.of_memory rfl rfl rfl (Function.update_of_ne hother ..) rfl
      (fun _ hanswer => hanswer) rfl
  · simp only [State.track, Function.update_self]
    exact hstate.sequences _
  · simp only [State.track, Function.update_self]
    exact le_rfl

omit [DecidableEq Thread] in
theorem mem_answers_note {state : State Thread} (h : state.lookups thread = some tag) :
    state.memory.firstMatch table tag ∈ (state.note table).answers thread := by
  simp only [State.note, h]
  exact List.mem_cons_self

omit [DecidableEq Thread] in
theorem Reading.unchanged {claim : Memory → Prop} {state : State Thread}
    (h : Reading table thread tag before claim state)
    (hbrief : Brief state thread (.loadSequence (table.stripeFor (table.bucketFor tag))))
    (hsequence : BitVec.ofNat 32 (state.increments (table.stripeFor (table.bucketFor tag))) =
      before) :
    state.increments (table.stripeFor (table.bucketFor tag)) = state.entered thread := by
  have hsections := hbrief (by rw [h.entered.lookups]; exact Option.some_ne_none tag)
  have hmod := congrArg BitVec.toNat (hsequence.trans h.entered.before)
  rw [BitVec.toNat_ofNat, BitVec.toNat_ofNat] at hmod
  have heven := h.even
  have hle := h.entered.le
  simp only [sections] at hsections
  omega

theorem lookupPass_upholds :
    (protocol table).Upholds thread (lookupPass table tag)
      (fun result state =>
        match result with
        | none => Asks thread tag state
        | some found => found ∈ state.answers thread)
      (Asks thread tag) := by
  refine enterSequence_upholds.seq fun before => ?_
  split
  · exact Protocol.upholds_pure stable_entered fun _ _ h => h.lookups
  rename_i hparity
  have hreading : ∀ state : State Thread, Entered table thread tag before state →
      Reading table thread tag before (fun _ => True) state := by
    intro state h
    refine ⟨h, ?_, fun _ => trivial⟩
    have hbefore := congrArg BitVec.toNat h.before
    rw [BitVec.toNat_ofNat] at hbefore
    omega
  have hhead : ∀ head, (protocol table).Stable thread fun state =>
      Reading table thread tag before (Walking table tag table.frameCapacity head) state ∧
        Valid table head :=
    fun head => (stable_reading aboutChain_walking).and (Protocol.stable_pure _)
  refine (upholds_load (.loadHead (table.bucketFor tag)) rfl stable_entered hhead
    (fun _ _ _ => bucketFor_lt table tag) ?_).seq fun head => ?_
  · intro state _ hstate h
    obtain ⟨frames, hchain⟩ := hstate.chain_exists _ (bucketFor_lt table tag)
    refine ⟨(hreading state h).mono fun _ => ?_, hstate.valid_head (bucketFor_lt table tag)⟩
    exact ⟨[], frames, hchain, hchain, fun _ h => absurd h List.not_mem_nil, by simp⟩
  refine Protocol.Upholds.assume (hhead head) (fun _ _ h => h.2) fun hvalid => ?_
  refine ((walkChain_reading _ hvalid).strengthen (hhead head) fun _ _ h => h.1).seq
    fun found => ?_
  have hanswered : ∀ sequence : BitVec 32, (protocol table).Stable thread fun state =>
      Asks thread tag state ∧ (sequence = before → found ∈ state.answers thread) := by
    intro sequence state next _ _ hrely h
    exact ⟨hrely.lookups.trans h.1, fun heq => hrely.answers found (h.2 heq)⟩
  refine (upholds_note (.loadSequence (table.stripeFor (table.bucketFor tag))) rfl
    (stable_reading aboutChain_answers) hanswered (fun _ _ _ => stripeFor_lt table _)
    ?_).seq fun sequence => ?_
  · intro state _ hstate h hbrief
    refine ⟨h.entered.lookups, fun heq => ?_⟩
    obtain ⟨frames, hchain, hfound⟩ :=
      h.claim (h.unchanged hbrief ((hstate.sequences _).symm.trans heq))
    rw [← hfound, ← hstate.firstMatch_eq hchain]
    exact mem_answers_note h.entered.lookups
  · split
    · rename_i heq
      exact Protocol.upholds_pure (hanswered sequence) fun _ _ h => h.2 heq
    · exact Protocol.upholds_pure (hanswered sequence) fun _ _ h => h.1

theorem lookupFrameId_upholds :
    (protocol table).Upholds thread (lookupFrameId table tag)
      (fun found state => found ∈ state.answers thread) (Asks thread tag) :=
  Protocol.upholds_forever (fun found _ _ _ _ hrely h => hrely.answers found h)
    (lookupPass_upholds.mono fun result _ _ h => by cases result <;> exact h)

/-! ### The length of a pass -/

omit [DecidableEq Thread]

theorem mapsTo_within (frame : FrameId) : (mapsTo frame tag).Within 2 := by
  intro fileId
  change Within (if fileId = tag.fileId then _ else _) 1
  split
  · exact fun _ => trivial
  · trivial

theorem walkChain_within (steps : Nat) (frame : FrameId) :
    (walkChain tag steps frame).Within (3 * steps) := by
  induction steps generalizing frame with
  | zero => trivial
  | succ steps ih =>
      rw [walkChain]
      split
      · trivial
      · have hrest : ∀ maps : Bool, Within (if maps = true then (pure (some frame) : Prog _) else
            access (.loadNext frame) >>= fun frame => walkChain tag steps frame)
            (3 * steps + 1) := by
          intro maps
          cases maps with
          | true => trivial
          | false => exact fun next => ih next
        exact ((mapsTo_within frame).bind hrest).mono (by omega)

theorem lookupPass_within : (lookupPass table tag).Within (3 * table.frameCapacity + 3) := by
  intro before
  change Within (if before.toNat % 2 = 1 then _ else _) (3 * table.frameCapacity + 2)
  split
  · trivial
  · intro head
    refine (walkChain_within table.frameCapacity head).bind fun found => ?_
    intro sequence
    change Within (if sequence = before then _ else _) 0
    split <;> trivial

end TelePath.PageTableWords
