import TelePath.Buffer.PageTableChains

/-!
The calls that change the page table keep to what the other threads rely on.
-/

namespace TelePath.PageTableWords

open Logic Program

/-- How many times a writer has entered a stripe whose sequence was incremented so often. -/
def sections (increments : Nat) : Nat := (increments + 1) / 2

variable {Thread : Type}

/-- A lookup reads the sequence again before writers have entered its stripe `2 ^ 31` times. -/
def Brief (state : State Thread) (thread : Thread) : Access → Prop
  | .loadSequence stripe => state.lookups thread ≠ none →
      sections (state.increments stripe) < sections (state.entered thread) + 2 ^ 31
  | _ => True

variable [DecidableEq Thread]

def protocol (table : Geometry) : Protocol Thread Access Access.Reply (State Thread) where
  invariant := Consistent table
  rely := Rely table
  permits access _ := access.InRange table
  performs thread access state reply next :=
    Brief state thread access ∧ ∃ choice, reply = (state.memory.perform choice access).1 ∧
      next = state.after table thread choice access

/-- The accesses that change nothing. -/
def Access.reads : Access → Bool
  | .loadHead _ | .loadNext _ | .loadBucketOf _ | .loadKeyFileId _ | .loadKeyBlockId _ => true
  | .loadLock _ | .loadSequence _ | .live _ => true
  | _ => false

variable {table : Geometry} {thread : Thread}

theorem after_of_reads {request : Access} (h : request.reads = true) (state : State Thread)
    (choice : Bool) : state.after table thread choice request = state.note table := by
  cases request <;> first | rfl | cases h

omit [DecidableEq Thread] in
theorem rely_note (state : State Thread) (thread : Thread) :
    Rely table thread state (state.note table) :=
  Rely.of_memory rfl rfl rfl rfl rfl (fun _ hanswer => mem_note hanswer) rfl

theorem upholds_note (request : Access) {post : request.Reply → State Thread → Prop}
    {assertion : State Thread → Prop} (hreads : request.reads = true)
    (hstable : (protocol table).Stable thread assertion)
    (hpost : ∀ reply, (protocol table).Stable thread (post reply))
    (hrange : ∀ state, Consistent table state → assertion state → request.InRange table)
    (hread : ∀ state choice, Consistent table state → assertion state →
      Brief state thread request →
        post (state.memory.perform choice request).1 (state.note table)) :
    (protocol table).Upholds thread (access request) post assertion := by
  refine Protocol.upholds_perform hstable hpost fun state hstate hassertion => ?_
  refine ⟨hrange state hstate hassertion, ?_⟩
  rintro _ _ ⟨hbrief, choice, rfl, rfl⟩
  rw [after_of_reads hreads]
  exact ⟨⟨hstate.note, fun other _ => rely_note state other⟩,
    hread state choice hstate hassertion hbrief⟩

theorem upholds_load (request : Access) {post : request.Reply → State Thread → Prop}
    {assertion : State Thread → Prop} (hreads : request.reads = true)
    (hstable : (protocol table).Stable thread assertion)
    (hpost : ∀ reply, (protocol table).Stable thread (post reply))
    (hrange : ∀ state, Consistent table state → assertion state → request.InRange table)
    (hread : ∀ state choice, Consistent table state → assertion state →
      post (state.memory.perform choice request).1 state) :
    (protocol table).Upholds thread (access request) post assertion :=
  upholds_note request hreads hstable hpost hrange fun state choice hstate hassertion _ =>
    hpost _ state _ hstate hstate.note (rely_note state thread)
      (hread state choice hstate hassertion)

theorem upholds_access (request : Access) {post : request.Reply → State Thread → Prop}
    {assertion : State Thread → Prop} (hstable : (protocol table).Stable thread assertion)
    (hpost : ∀ reply, (protocol table).Stable thread (post reply))
    (hrange : ∀ state, Consistent table state → assertion state → request.InRange table)
    (haccess : ∀ state choice, Consistent table state → assertion state →
      ∃ next, state.after table thread choice request = next.note table ∧
        (Consistent table next ∧ ∀ other, other ≠ thread → Rely table other state next) ∧
        post (state.memory.perform choice request).1 next) :
    (protocol table).Upholds thread (access request) post assertion := by
  refine Protocol.upholds_perform hstable hpost fun state hstate hassertion => ?_
  refine ⟨hrange state hstate hassertion, ?_⟩
  rintro _ _ ⟨-, choice, rfl, rfl⟩
  obtain ⟨next, heq, ⟨hnext, hrely⟩, hafter⟩ := haccess state choice hstate hassertion
  rw [heq]
  exact ⟨⟨hnext.note, fun other hother => (hrely other hother).note⟩,
    hpost _ next _ hnext hnext.note (rely_note next thread) hafter⟩

theorem upholds_store (request : Access) {post : State Thread → Prop}
    {assertion : State Thread → Prop} (hstable : (protocol table).Stable thread assertion)
    (hpost : (protocol table).Stable thread post)
    (hrange : ∀ state, Consistent table state → assertion state → request.InRange table)
    (hstore : ∀ state choice, Consistent table state → assertion state →
      ∃ next, state.after table thread choice request = next.note table ∧
        (Consistent table next ∧ ∀ other, other ≠ thread → Rely table other state next) ∧
        post next) :
    (protocol table).Upholds thread (access request) (fun _ => post) assertion :=
  upholds_access request hstable (fun _ => hpost) hrange hstore

/-! ### What a writer knows -/

/-- The writer is inside of `stripes` with a frame whose bucket it knows. -/
structure Writes (thread : Thread) (stripes : List Nat) (frame : FrameId) (bucket : BitVec 32)
    (state : State Thread) : Prop where
  holding : ∀ stripe ∈ stripes, state.holder stripe = some thread ∧
    state.increments stripe % 2 = 1
  owner : state.owner frame = some thread
  bucketOf : state.memory.bucketOf frame = bucket

variable {stripes : List Nat} {frame : FrameId} {bucket : BitVec 32}

omit [DecidableEq Thread] in
theorem Writes.rely {state next : State Thread} (h : Writes thread stripes frame bucket state)
    (hrely : Rely table thread state next) : Writes thread stripes frame bucket next := by
  refine ⟨fun stripe hstripe => ?_, (hrely.owned frame h.owner).1, ?_⟩
  · obtain ⟨hheld, hodd⟩ := h.holding stripe hstripe
    rw [hrely.heldIncrements stripe hheld]
    exact ⟨(hrely.held stripe).mp hheld, hodd⟩
  · rw [(hrely.owned frame h.owner).2]
    exact h.bucketOf

theorem stable_writes : (protocol table).Stable thread (Writes thread stripes frame bucket) :=
  fun _ _ _ _ hrely h => h.rely hrely

/-- The bucket of the frame is one of those that the writer has locked. -/
structure Locked (table : Geometry) (stripes : List Nat) (bucket : Nat) : Prop where
  inRange : bucket < table.bucketCount
  mem : table.stripeFor bucket ∈ stripes

omit [DecidableEq Thread] in
theorem Writes.same {state next : State Thread} {place : Nat}
    (h : Writes thread stripes frame bucket state) (hlocked : Locked table stripes place)
    (hrely : Rely table thread state next) : Same state.memory next.memory place :=
  hrely.chains place hlocked.inRange (.inl (h.holding _ hlocked.mem).1)

omit [DecidableEq Thread] in
theorem Writes.next_eq {state next : State Thread} {place : Nat} (hlt : place < 2 ^ 32)
    (h : Writes thread stripes frame (BitVec.ofNat 32 place) state)
    (hlocked : Locked table stripes place) (hrely : Rely table thread state next) :
    next.memory.next frame = state.memory.next frame := by
  refine hrely.links frame h.owner (.inr ?_)
  rw [h.bucketOf, toNat_ofNat_bucket hlt]
  exact (h.holding _ hlocked.mem).1

/-! ### `Link` and `Unlink` -/

/-- The writer has taken its frame off the chain. -/
def Detached (table : Geometry) (thread : Thread) (stripes : List Nat) (frame : FrameId)
    (bucket : BitVec 32) (state : State Thread) : Prop :=
  Writes thread stripes frame bucket state ∧ Off table state.memory frame

theorem stable_detached :
    (protocol table).Stable thread (Detached table thread stripes frame bucket) :=
  fun _ _ _ _ hrely h => ⟨h.1.rely hrely, hrely.off frame h.1.owner h.2⟩

omit [DecidableEq Thread] in
theorem Detached.step {state : State Thread} {bucket' : BitVec 32}
    (h : Detached table thread stripes frame bucket state) (memory : Memory)
    (hstate : Consistent table state)
    (hheads : memory.heads = state.memory.heads)
    (hnext : ∀ other, other ≠ frame → memory.next other = state.memory.next other)
    (hbucket : ∀ other, other ≠ frame → memory.bucketOf other = state.memory.bucketOf other)
    (hfile : ∀ other, other ≠ frame → memory.keyFileId other = state.memory.keyFileId other)
    (hblock : ∀ other, other ≠ frame → memory.keyBlockId other = state.memory.keyBlockId other)
    (hlock : memory.lock = state.memory.lock) (hsequence : memory.sequence = state.memory.sequence)
    (hvalid : frame.toNat < table.frameCapacity → Valid table (memory.next frame))
    (hplace : frame.toNat < table.frameCapacity →
      bucket' = kNone ∨ bucket'.toNat < table.bucketCount)
    (hnew : memory.bucketOf frame = bucket') :
    (Consistent table { state with memory } ∧
      ∀ other, other ≠ thread → Rely table other state { state with memory }) ∧
      Detached table thread stripes frame bucket' { state with memory } := by
  obtain ⟨hconsistent, hrely, hoff⟩ := detached_step hstate h.1.owner h.2 hheads hnext hbucket hfile
    hblock hlock hsequence hvalid (by rw [hnew]; exact hplace)
  exact ⟨⟨hconsistent, hrely⟩, ⟨h.1.holding, h.1.owner, hnew⟩, hoff⟩

omit [DecidableEq Thread] in
theorem Writes.detached {state : State Thread} (hfit : table.bucketCount ≤ 2 ^ 31)
    (h : Writes thread stripes frame kNone state) (hstate : Consistent table state) :
    Detached table thread stripes frame kNone state :=
  ⟨h, hstate.off_of_none hfit h.bucketOf⟩

section Changes

variable (hfit : table.bucketCount ≤ 2 ^ 31) (hframe : frame.toNat < table.frameCapacity)

include hfit hframe

theorem storeKeyFileId_upholds (fileId : FileId) :
    (protocol table).Upholds thread (access (.storeKeyFileId frame fileId))
      (fun _ => Writes thread stripes frame kNone) (Writes thread stripes frame kNone) := by
  refine upholds_store _ stable_writes stable_writes (fun _ _ _ => hframe) ?_
  intro state choice hstate h
  obtain ⟨hstep, hafter⟩ := (h.detached hfit hstate).step { state.memory with
      keyFileId := Function.update state.memory.keyFileId frame fileId } hstate rfl
    (fun _ _ => rfl) (fun _ _ => rfl) (fun _ hne => Function.update_of_ne hne ..)
    (fun _ _ => rfl) rfl rfl (hstate.nexts frame) (fun _ => .inl rfl) h.bucketOf
  exact ⟨_, rfl, hstep, hafter.1⟩

theorem storeKeyBlockId_upholds (blockId : BlockId) :
    (protocol table).Upholds thread (access (.storeKeyBlockId frame blockId))
      (fun _ => Writes thread stripes frame kNone) (Writes thread stripes frame kNone) := by
  refine upholds_store _ stable_writes stable_writes (fun _ _ _ => hframe) ?_
  intro state choice hstate h
  obtain ⟨hstep, hafter⟩ := (h.detached hfit hstate).step { state.memory with
      keyBlockId := Function.update state.memory.keyBlockId frame blockId } hstate rfl
    (fun _ _ => rfl) (fun _ _ => rfl) (fun _ _ => rfl)
    (fun _ hne => Function.update_of_ne hne ..) rfl rfl (hstate.nexts frame)
    (fun _ => .inl rfl) h.bucketOf
  exact ⟨_, rfl, hstep, hafter.1⟩

theorem link_upholds {place : Nat} (hlocked : Locked table stripes place) (tag : BufferTag)
    (hnone : frame ≠ kNone) :
    (protocol table).Upholds thread (link place tag frame)
      (fun _ => Writes thread stripes frame (BitVec.ofNat 32 place))
      (Writes thread stripes frame kNone) := by
  have hlt : place < 2 ^ 31 := hlocked.inRange.trans_le hfit
  have hhead : ∀ head, (protocol table).Stable thread fun state =>
      Writes thread stripes frame kNone state ∧ state.memory.heads place = head := by
    intro head state next _ _ hrely h
    exact ⟨h.1.rely hrely, (h.1.same hlocked hrely).heads.trans h.2⟩
  have hnext : (protocol table).Stable thread fun state =>
      Writes thread stripes frame kNone state ∧
        state.memory.next frame = state.memory.heads place := by
    intro state next _ _ hrely h
    refine ⟨h.1.rely hrely, ?_⟩
    rw [hrely.links frame h.1.owner (.inl h.1.bucketOf), (h.1.same hlocked hrely).heads]
    exact h.2
  have hready : (protocol table).Stable thread fun state =>
      Detached table thread stripes frame (BitVec.ofNat 32 place) state ∧
        state.memory.next frame = state.memory.heads place := by
    intro state next hstate hnext hrely h
    refine ⟨stable_detached state next hstate hnext hrely h.1, ?_⟩
    rw [h.1.1.next_eq (by omega) hlocked hrely, (h.1.1.same hlocked hrely).heads]
    exact h.2
  refine (storeKeyFileId_upholds hfit hframe tag.fileId).seq fun _ => ?_
  refine (storeKeyBlockId_upholds hfit hframe tag.blockId).seq fun _ => ?_
  refine (upholds_load (.loadHead place) rfl stable_writes hhead (fun _ _ _ => hlocked.inRange)
    fun _ _ _ h => ⟨h, rfl⟩).seq fun head => ?_
  refine (upholds_store (.storeNext frame head) (hhead head) hnext (fun _ _ _ => hframe)
    ?_).seq fun _ => ?_
  · rintro state choice hstate ⟨h, rfl⟩
    have hvalid : Valid table
        (Function.update state.memory.next frame (state.memory.heads place) frame) := by
      rw [Function.update_self]
      exact hstate.valid_head hlocked.inRange
    obtain ⟨hstep, hafter⟩ := (h.detached hfit hstate).step { state.memory with
        next := Function.update state.memory.next frame (state.memory.heads place) } hstate rfl
      (fun _ hne => Function.update_of_ne hne ..) (fun _ _ => rfl) (fun _ _ => rfl)
      (fun _ _ => rfl) rfl rfl (fun _ => hvalid) (fun _ => .inl rfl) h.bucketOf
    exact ⟨_, rfl, hstep, hafter.1, Function.update_self ..⟩
  refine (upholds_store (.storeBucketOf frame (BitVec.ofNat 32 place)) hnext hready
    (fun _ _ _ => hframe) ?_).seq fun _ => ?_
  · rintro state choice hstate ⟨h, hlink⟩
    obtain ⟨hstep, hafter⟩ := (h.detached hfit hstate).step { state.memory with
        bucketOf := Function.update state.memory.bucketOf frame (BitVec.ofNat 32 place) } hstate rfl
      (fun _ _ => rfl) (fun _ hne => Function.update_of_ne hne ..) (fun _ _ => rfl)
      (fun _ _ => rfl) rfl rfl (hstate.nexts frame)
      (fun _ => .inr (by rw [toNat_ofNat_bucket (by omega)]; exact hlocked.inRange))
      (Function.update_self ..)
    exact ⟨_, rfl, hstep, hafter, hlink⟩
  -- the frame gets on the chain
  refine upholds_store (.storeHead place frame) hready stable_writes
    (fun _ _ _ => hlocked.inRange) ?_
  rintro state choice hstate ⟨⟨h, hoff⟩, hlink⟩
  obtain ⟨frames, hchain⟩ := hstate.chain_exists place hlocked.inRange
  obtain ⟨hheld, hodd⟩ := h.holding _ hlocked.mem
  have hnew : Chain { state.memory with
      heads := Function.update state.memory.heads place frame } place (frame :: frames) := by
    refine ⟨Function.update_self .., hnone, ?_⟩
    rw [hlink]
    exact hchain
  refine ⟨{ state with memory := { state.memory with
    heads := Function.update state.memory.heads place frame } }, rfl, ?_, h.holding, h.owner,
    h.bucketOf⟩
  refine chain_step hstate hfit hlocked.inRange hheld hodd hchain hnew
    (fun _ hne => Function.update_of_ne hne ..) (fun _ _ => rfl) rfl rfl rfl rfl rfl ?_
    hstate.nexts
  intro other hother
  rcases List.mem_cons.mp hother with rfl | hrest
  · exact ⟨.inr h.owner, hframe, h.bucketOf⟩
  · exact ⟨.inl hrest, hstate.mem_chain hlocked.inRange hchain hrest⟩

end Changes

/-- The writer knows what follows its frame. -/
def Follows (thread : Thread) (stripes : List Nat) (frame : FrameId) (place : Nat)
    (after : FrameId) (state : State Thread) : Prop :=
  Writes thread stripes frame (BitVec.ofNat 32 place) state ∧ state.memory.next frame = after

/-- The writer has searched the chain up to `current` without meeting its frame. -/
def Searching (thread : Thread) (stripes : List Nat) (frame : FrameId) (place : Nat)
    (after current : FrameId) (state : State Thread) : Prop :=
  Follows thread stripes frame place after state ∧ current ≠ frame ∧
    ∃ before rest, Chain state.memory place (before ++ rest) ∧
      Linked state.memory.next kNone current rest ∧ frame ∉ before

omit [DecidableEq Thread] in
theorem Searching.cons {place : Nat} {after current : FrameId} {state : State Thread}
    (h : Searching thread stripes frame place after current state) (hne : current ≠ kNone) :
    ∃ before rest, Chain state.memory place (before ++ current :: rest) ∧
      Linked state.memory.next kNone (state.memory.next current) rest ∧ frame ∉ before := by
  obtain ⟨-, -, before, rest, hchain, hrest, hbefore⟩ := h
  obtain ⟨tail, rfl⟩ := hrest.eq_cons hne
  exact ⟨before, tail, hchain, hrest.2.2, hbefore⟩

section Search

variable {place : Nat} {after current : FrameId} (hfit : table.bucketCount ≤ 2 ^ 31)
  (hlocked : Locked table stripes place)

include hfit hlocked

theorem stable_follows :
    (protocol table).Stable thread (Follows thread stripes frame place after) := by
  intro state next _ _ hrely h
  have hlt : place < 2 ^ 32 := by
    have hlt := hlocked.inRange
    omega
  exact ⟨h.1.rely hrely, (h.1.next_eq hlt hlocked hrely).trans h.2⟩

theorem stable_searching :
    (protocol table).Stable thread (Searching thread stripes frame place after current) := by
  rintro state next hstate hnext hrely ⟨h, hcurrent, before, rest, hchain, hrest, hbefore⟩
  have hsame := h.1.same hlocked hrely
  refine ⟨stable_follows hfit hlocked state next hstate hnext hrely h, hcurrent, before, rest,
    hsame.chain hchain, hrest.congr fun other hother => ?_, hbefore⟩
  exact hsame.next _ hchain other (List.mem_append_right before hother)

omit [DecidableEq Thread] in
theorem Searching.detached {state : State Thread}
    (h : Searching thread stripes frame place after kNone state) (hstate : Consistent table state) :
    Detached table thread stripes frame (BitVec.ofNat 32 place) state := by
  obtain ⟨⟨hwrites, -⟩, -, before, rest, hchain, hrest, hbefore⟩ := h
  obtain rfl : rest = [] := by
    cases rest with
    | nil => rfl
    | cons other rest => exact absurd hrest.1.symm hrest.2.1
  rw [List.append_nil] at hchain
  exact ⟨hwrites, hstate.off_of_notMem hfit hlocked.inRange hwrites.bucketOf hchain hbefore⟩

theorem skip_upholds (hne : current ≠ kNone) (hnone : frame ≠ kNone) :
    (protocol table).Upholds thread (access (.storeNext current after))
      (fun _ => Detached table thread stripes frame (BitVec.ofNat 32 place))
      (fun state => Searching thread stripes frame place after current state ∧
        state.memory.next current = frame) := by
  have hstable : (protocol table).Stable thread fun state =>
      Searching thread stripes frame place after current state ∧
        state.memory.next current = frame := by
    intro state next hstate hnext hrely h
    obtain ⟨before, rest, hchain, -, -⟩ := h.1.cons hne
    refine ⟨stable_searching hfit hlocked state next hstate hnext hrely h.1, ?_⟩
    rw [(h.1.1.1.same hlocked hrely).next _ hchain current (by simp)]
    exact h.2
  refine upholds_store _ hstable stable_detached ?_ ?_
  · intro state hstate h
    obtain ⟨before, rest, hchain, -, -⟩ := h.1.cons hne
    exact (hstate.mem_chain hlocked.inRange hchain (by simp)).1
  · rintro state choice hstate ⟨h, hmeets⟩
    obtain ⟨before, rest, hchain, hrest, -⟩ := h.cons hne
    obtain ⟨⟨hwrites, hfollows⟩, -⟩ := h
    obtain ⟨hheld, hodd⟩ := hwrites.holding _ hlocked.mem
    rw [hmeets] at hrest
    obtain ⟨tail, rfl⟩ := hrest.eq_cons hnone
    have hnew : Chain { state.memory with
        next := Function.update state.memory.next current after } place
          (before ++ current :: tail) := by
      have hskip := Linked.skip hchain
      rw [hfollows] at hskip
      exact hskip
    have hvalid : ∀ other : FrameId, other.toNat < table.frameCapacity →
        Valid table (Function.update state.memory.next current after other) := by
      intro other hother
      by_cases heq : other = current
      · subst heq
        rw [Function.update_self, ← hfollows]
        exact hstate.nexts frame (hstate.mem_chain hlocked.inRange hchain (by simp)).1
      · rw [Function.update_of_ne heq]
        exact hstate.nexts other hother
    have hstep := chain_step hstate hfit hlocked.inRange hheld hodd hchain hnew (fun _ _ => rfl)
      (fun other hother => Function.update_of_ne (by rintro rfl; simp at hother) ..) rfl rfl rfl rfl
      rfl (fun other hother => ?_) hvalid
    · refine ⟨_, rfl, hstep, ⟨hwrites.holding, hwrites.owner, hwrites.bucketOf⟩, ?_⟩
      refine hstep.1.off_of_notMem hfit hlocked.inRange hwrites.bucketOf hnew fun hmem => ?_
      have hnodup := Linked.nodup hchain
      rw [List.nodup_append] at hnodup
      obtain ⟨-, hafter, hdisjoint⟩ := hnodup
      rcases List.mem_append.mp hmem with hin | hin
      · exact hdisjoint frame hin frame (by simp) rfl
      · rcases List.mem_cons.mp hin with rfl | hin
        · simp at hafter
        · simp [hin] at hafter
    · have hin : other ∈ before ++ current :: frame :: tail := by
        rcases List.mem_append.mp hother with hin | hin
        · exact List.mem_append_left _ hin
        · rcases List.mem_cons.mp hin with rfl | hin
          · simp
          · simp [hin]
      exact ⟨.inl hin, hstate.mem_chain hlocked.inRange hchain hin⟩

theorem unlinkAfter_upholds (hnone : frame ≠ kNone) :
    (protocol table).Upholds thread (unlinkAfter frame after current)
      (fun _ => Detached table thread stripes frame (BitVec.ofNat 32 place))
      (Searching thread stripes frame place after current) := by
  refine Protocol.upholds_repeatUntil (fun _ => stable_detached) fun current => ?_
  by_cases hend : current = kNone
  · subst hend
    rw [if_pos rfl]
    exact Protocol.upholds_pure (stable_searching hfit hlocked) fun state hstate h =>
      h.detached hfit hlocked hstate
  · rw [if_neg hend]
    have hread : ∀ next', (protocol table).Stable thread fun state =>
        Searching thread stripes frame place after current state ∧
          state.memory.next current = next' := by
      intro next' state next hstate hnext hrely h
      obtain ⟨before, rest, hchain, -, -⟩ := h.1.cons hend
      refine ⟨stable_searching hfit hlocked state next hstate hnext hrely h.1, ?_⟩
      rw [(h.1.1.1.same hlocked hrely).next _ hchain current (by simp)]
      exact h.2
    refine (upholds_load (.loadNext current) rfl (stable_searching hfit hlocked) hread ?_
      fun _ _ _ h => ⟨h, rfl⟩).seq fun next' => ?_
    · intro state hstate h
      obtain ⟨before, rest, hchain, -, -⟩ := h.cons hend
      exact (hstate.mem_chain hlocked.inRange hchain (by simp)).1
    · by_cases hmeets : next' = frame
      · subst hmeets
        rw [if_pos rfl]
        refine (skip_upholds hfit hlocked hend hnone).seq fun _ => ?_
        exact Protocol.upholds_pure stable_detached fun _ _ h => h
      · rw [if_neg hmeets]
        refine Protocol.upholds_pure (hread next') ?_
        rintro state hstate ⟨h, rfl⟩
        obtain ⟨before, rest, hchain, hrest, hbefore⟩ := h.cons hend
        refine ⟨h.1, hmeets, before ++ [current], rest, by simpa using hchain, hrest, ?_⟩
        simp only [List.mem_append, List.mem_singleton, not_or]
        exact ⟨hbefore, Ne.symm h.2.1⟩

theorem storeHead_upholds (hnone : frame ≠ kNone) :
    (protocol table).Upholds thread (access (.storeHead place after))
      (fun _ => Detached table thread stripes frame (BitVec.ofNat 32 place))
      (fun state => Follows thread stripes frame place after state ∧
        state.memory.heads place = frame) := by
  have hstable : (protocol table).Stable thread fun state =>
      Follows thread stripes frame place after state ∧ state.memory.heads place = frame := by
    intro state next hstate hnext hrely h
    exact ⟨stable_follows hfit hlocked state next hstate hnext hrely h.1,
      (h.1.1.same hlocked hrely).heads.trans h.2⟩
  refine upholds_store _ hstable stable_detached (fun _ _ _ => hlocked.inRange) ?_
  rintro state choice hstate ⟨⟨hwrites, hfollows⟩, hhead⟩
  obtain ⟨hheld, hodd⟩ := hwrites.holding _ hlocked.mem
  obtain ⟨frames, hchain⟩ := hstate.chain_exists place hlocked.inRange
  obtain ⟨tail, rfl⟩ : ∃ tail, frames = frame :: tail := by
    have hlinked := hchain
    rw [Chain, hhead] at hlinked
    exact hlinked.eq_cons hnone
  have hnew : Chain { state.memory with
      heads := Function.update state.memory.heads place after } place tail := by
    have htail : Linked state.memory.next kNone (state.memory.next frame) tail := hchain.2.2
    rw [hfollows] at htail
    change Linked state.memory.next kNone
      (Function.update state.memory.heads place after place) tail
    rw [Function.update_self]
    exact htail
  have hstep := chain_step hstate hfit hlocked.inRange hheld hodd hchain hnew
    (fun _ hne => Function.update_of_ne hne ..) (fun _ _ => rfl) rfl rfl rfl rfl rfl
    (fun other hother => ⟨.inl (List.mem_cons_of_mem frame hother),
      hstate.mem_chain hlocked.inRange hchain (List.mem_cons_of_mem frame hother)⟩) hstate.nexts
  refine ⟨_, rfl, hstep, ⟨hwrites.holding, hwrites.owner, hwrites.bucketOf⟩, ?_⟩
  exact hstep.1.off_of_notMem hfit hlocked.inRange hwrites.bucketOf hnew
    (List.nodup_cons.mp (Linked.nodup hchain)).1

theorem clear_upholds (hframe : frame.toNat < table.frameCapacity) :
    (protocol table).Upholds thread
      (do access (.storeNext frame kNone); access (.storeBucketOf frame kNone))
      (fun _ => Writes thread stripes frame kNone)
      (Detached table thread stripes frame (BitVec.ofNat 32 place)) := by
  have hplace : (BitVec.ofNat 32 place).toNat < table.bucketCount := by
    have hlt := hlocked.inRange
    rwa [toNat_ofNat_bucket (by omega)]
  have hstable : (protocol table).Stable thread
      (Detached table thread stripes frame (BitVec.ofNat 32 place)) := stable_detached
  refine (upholds_store (.storeNext frame kNone) hstable hstable
    (fun _ _ _ => hframe) ?_).seq fun _ => ?_
  · intro state choice hstate h
    have hvalid : Valid table (Function.update state.memory.next frame kNone frame) :=
      .inl (Function.update_self ..)
    exact ⟨_, rfl, h.step { state.memory with
      next := Function.update state.memory.next frame kNone } hstate rfl
      (fun _ hne => Function.update_of_ne hne ..) (fun _ _ => rfl) (fun _ _ => rfl)
      (fun _ _ => rfl) rfl rfl (fun _ => hvalid) (fun _ => .inr hplace) h.1.bucketOf⟩
  · refine upholds_store (.storeBucketOf frame kNone) hstable stable_writes
      (fun _ _ _ => hframe) ?_
    intro state choice hstate h
    obtain ⟨hstep, hafter⟩ := h.step { state.memory with
        bucketOf := Function.update state.memory.bucketOf frame kNone } hstate rfl
      (fun _ _ => rfl) (fun _ hne => Function.update_of_ne hne ..) (fun _ _ => rfl)
      (fun _ _ => rfl) rfl rfl (hstate.nexts frame) (fun _ => .inl rfl) (Function.update_self ..)
    exact ⟨_, rfl, hstep, hafter.1⟩

theorem unlink_upholds (hframe : frame.toNat < table.frameCapacity) (hnone : frame ≠ kNone) :
    (protocol table).Upholds thread (unlink frame)
      (fun _ => Writes thread stripes frame kNone)
      (Writes thread stripes frame (BitVec.ofNat 32 place)) := by
  have hlt : place < 2 ^ 32 := by
    have hlt := hlocked.inRange
    omega
  have hbucket : ∀ bucket, (protocol table).Stable thread fun state =>
      Writes thread stripes frame (BitVec.ofNat 32 place) state ∧
        bucket = BitVec.ofNat 32 place :=
    fun bucket => stable_writes.and (Protocol.stable_pure _)
  have hhead : ∀ after current, (protocol table).Stable thread fun state =>
      Follows thread stripes frame place after state ∧ state.memory.heads place = current := by
    intro after current state next hstate hnext hrely h
    exact ⟨stable_follows hfit hlocked state next hstate hnext hrely h.1,
      (h.1.1.same hlocked hrely).heads.trans h.2⟩
  refine (upholds_load (.loadBucketOf frame) rfl stable_writes hbucket (fun _ _ _ => hframe)
    fun _ _ _ h => ⟨h, h.bucketOf⟩).seq fun bucket => ?_
  have hfollows : ∀ after, (protocol table).Stable thread fun state =>
      Follows thread stripes frame place after state ∧ bucket = BitVec.ofNat 32 place :=
    fun after => (stable_follows hfit hlocked).and (Protocol.stable_pure _)
  refine (upholds_load (.loadNext frame) rfl (hbucket bucket) hfollows (fun _ _ _ => hframe)
    fun _ _ _ h => ⟨⟨h.1, rfl⟩, h.2⟩).seq fun after => ?_
  refine Protocol.Upholds.assume (hfollows after) (fun _ _ h => h.2) fun hplace => ?_
  subst hplace
  rw [toNat_ofNat_bucket hlt]
  refine (upholds_load (.loadHead place) rfl (hfollows after) (hhead after)
    (fun _ _ _ => hlocked.inRange) fun _ _ _ h => ⟨h.1, rfl⟩).seq fun current => ?_
  dsimp only
  by_cases hfirst : current = frame
  · subst hfirst
    rw [if_pos rfl]
    exact (storeHead_upholds hfit hlocked hnone).seq fun _ => clear_upholds hfit hlocked hframe
  · rw [if_neg hfirst]
    refine ((unlinkAfter_upholds hfit hlocked hnone).strengthen (hhead after current) ?_).seq
      fun _ => clear_upholds hfit hlocked hframe
    rintro state hstate ⟨h, rfl⟩
    obtain ⟨frames, hchain⟩ := hstate.chain_exists place hlocked.inRange
    exact ⟨h, hfirst, [], frames, hchain, hchain, List.not_mem_nil⟩

end Search

end TelePath.PageTableWords
