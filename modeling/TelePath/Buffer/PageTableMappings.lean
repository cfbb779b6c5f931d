import TelePath.Buffer.PageTableCalls
import TelePath.Logic.Evaluation

/-!
The page table as a map from frames to tags, newest entry first.

Calls that one thread makes one after the other turn the words into those of the next
map, whatever keys unlinked frames have been left with.
-/

namespace TelePath.PageTableWords

open Logic Program

/-! ### The abstract table -/

/-- The mapped frames with their tags, the one linked last first. -/
abbrev Mappings := List (FrameId × BufferTag)

namespace Mappings

def tagOf (mappings : Mappings) (frame : FrameId) : Option BufferTag :=
  (mappings.find? (·.1 = frame)).map Prod.snd

def unmap (mappings : Mappings) (frame : FrameId) : Mappings := mappings.filter (·.1 ≠ frame)

/-- The frame that was linked last under the tag. -/
def lookupFrameId (mappings : Mappings) (tag : BufferTag) : Option FrameId :=
  (mappings.find? (·.2 = tag)).map Prod.fst

def remove (mappings : Mappings) (tag : BufferTag) (frame : FrameId) : Mappings :=
  if mappings.tagOf frame = some tag then mappings.unmap frame else mappings

/-- The frame becomes the newest entry, unless it has the tag already and is not asked to
give it up. -/
def replace (mappings : Mappings) (oldTag : Option BufferTag) (newTag : BufferTag)
    (frame : FrameId) : Mappings :=
  if mappings.tagOf frame = some newTag ∧ oldTag ≠ some newTag then mappings
  else (frame, newTag) :: mappings.unmap frame

/-- The newest other frame with the tag that is live. -/
def liveOther (mappings : Mappings) (tag : BufferTag) (frame : FrameId)
    (live : FrameId → Bool) : Option FrameId :=
  (mappings.find? fun entry => entry.1 ≠ frame ∧ entry.2 = tag ∧ live entry.1).map Prod.fst

def replaceUnlessLive (mappings : Mappings) (oldTag : Option BufferTag) (newTag : BufferTag)
    (frame : FrameId) (live : FrameId → Bool) : Option FrameId × Mappings :=
  match mappings.liveOther newTag frame live with
  | some other => (some other, mappings.unmap frame)
  | none => (none, mappings.replace oldTag newTag frame)

/-- What a call returns and leaves. -/
def apply (mappings : Mappings) (live : FrameId → Bool) : Call → Option FrameId × Mappings
  | .lookupFrameId tag => (mappings.lookupFrameId tag, mappings)
  | .install tag frame => (none, mappings.replace (some tag) tag frame)
  | .remove tag frame => (none, mappings.remove tag frame)
  | .replace oldTag newTag frame => (none, mappings.replace (some oldTag) newTag frame)
  | .replaceUnlessLive oldTag newTag frame =>
      mappings.replaceUnlessLive oldTag newTag frame live

/-- The frames whose tag belongs to a bucket, in their order. -/
def chain (mappings : Mappings) (table : Geometry) (bucket : Nat) : List FrameId :=
  (mappings.filter fun entry => table.bucketFor entry.2 = bucket).map Prod.fst

section Lemmas

variable {mappings : Mappings} {frame other : FrameId} {tag : BufferTag} {table : Geometry}
  {bucket : Nat}

theorem tagOf_of_mem (hnodup : (mappings.map Prod.fst).Nodup) (hmem : (frame, tag) ∈ mappings) :
    mappings.tagOf frame = some tag := by
  cases hfind : mappings.find? (·.1 = frame) with
  | none => exact absurd (List.find?_eq_none.mp hfind _ hmem) (by simp)
  | some entry =>
      have hframe : entry.1 = frame := by simpa using List.find?_some hfind
      have heq : entry = (frame, tag) :=
        List.inj_on_of_nodup_map hnodup (List.mem_of_find?_eq_some hfind) hmem hframe
      rw [tagOf, hfind, heq]
      rfl

theorem mem_of_tagOf (h : mappings.tagOf frame = some tag) : (frame, tag) ∈ mappings := by
  obtain ⟨⟨found, key⟩, hfind, rfl⟩ := Option.map_eq_some_iff.mp h
  obtain rfl : found = frame := by simpa using List.find?_some hfind
  exact List.mem_of_find?_eq_some hfind

theorem ne_of_tagOf (h : mappings.tagOf frame = none) : ∀ entry ∈ mappings, entry.1 ≠ frame := by
  intro entry hentry
  simpa using List.find?_eq_none.mp (Option.map_eq_none_iff.mp h) entry hentry

theorem mem_unmap {entry : FrameId × BufferTag} :
    entry ∈ mappings.unmap frame ↔ entry ∈ mappings ∧ entry.1 ≠ frame := by
  simp [unmap]

theorem unmap_nodup (h : (mappings.map Prod.fst).Nodup) :
    ((mappings.unmap frame).map Prod.fst).Nodup :=
  h.sublist (List.filter_sublist.map Prod.fst)

theorem tagOf_unmap (hne : other ≠ frame) :
    (mappings.unmap frame).tagOf other = mappings.tagOf other := by
  rw [tagOf, tagOf, unmap, List.find?_filter]
  congr 2
  funext entry
  by_cases hentry : entry.1 = other
  · simp [hentry, hne]
  · simp [hentry]

theorem tagOf_unmap_self : (mappings.unmap frame).tagOf frame = none := by
  refine Option.map_eq_none_iff.mpr (List.find?_eq_none.mpr fun entry hentry => ?_)
  simpa using (mem_unmap.mp hentry).2

theorem mem_chain : frame ∈ mappings.chain table bucket ↔
    ∃ tag, (frame, tag) ∈ mappings ∧ table.bucketFor tag = bucket := by
  simp [chain]

theorem chain_unmap :
    (mappings.unmap frame).chain table bucket =
      (mappings.chain table bucket).filter (· ≠ frame) := by
  rw [chain, chain, unmap, List.filter_filter, List.filter_map, List.filter_filter]
  congr 1
  refine List.filter_congr fun entry _ => ?_
  simp [Bool.and_comm]

theorem chain_cons : chain ((frame, tag) :: mappings) table bucket =
    if table.bucketFor tag = bucket then frame :: mappings.chain table bucket
    else mappings.chain table bucket := by
  rw [chain, List.filter_cons]
  split <;> simp_all [chain]

end Lemmas

end Mappings

/-! ### Words that stand for a map -/

/-- The words of the chains stand for the mappings. -/
structure Represents (table : Geometry) (memory : Memory) (mappings : Mappings) : Prop where
  frames : (mappings.map Prod.fst).Nodup
  inRange : ∀ entry ∈ mappings, entry.1.toNat < table.frameCapacity
  chains : ∀ bucket < table.bucketCount, Chain memory bucket (mappings.chain table bucket)
  keys : ∀ entry ∈ mappings, memory.keyFileId entry.1 = entry.2.fileId ∧
    memory.keyBlockId entry.1 = entry.2.blockId
  mapped : ∀ entry ∈ mappings,
    memory.bucketOf entry.1 = BitVec.ofNat 32 (table.bucketFor entry.2)
  unmapped : ∀ frame : FrameId, frame.toNat < table.frameCapacity →
    mappings.tagOf frame = none → memory.bucketOf frame = kNone

/-- Everything but the words of the stripes is the same. -/
structure Memory.SameChains (memory other : Memory) : Prop where
  heads : other.heads = memory.heads
  next : other.next = memory.next
  bucketOf : other.bucketOf = memory.bucketOf
  keyFileId : other.keyFileId = memory.keyFileId
  keyBlockId : other.keyBlockId = memory.keyBlockId

theorem Represents.same {table : Geometry} {memory other : Memory} {mappings : Mappings}
    (h : Represents table memory mappings) (hsame : memory.SameChains other) :
    Represents table other mappings := by
  obtain ⟨hheads, hnext, hbucketOf, hfile, hblock⟩ := hsame
  refine ⟨h.frames, h.inRange, ?_, ?_, ?_, ?_⟩
  · simpa only [Chain, hheads, hnext] using h.chains
  · simpa only [hfile, hblock] using h.keys
  · simpa only [hbucketOf] using h.mapped
  · simpa only [hbucketOf] using h.unmapped

theorem represents_empty (table : Geometry) : Represents table {} [] where
  frames := List.nodup_nil
  inRange := by simp
  chains _ _ := rfl
  keys := by simp
  mapped := by simp
  unmapped _ _ _ := rfl

section Represents

variable {table : Geometry} {memory : Memory} {mappings : Mappings} {frame : FrameId}
  {tag : BufferTag}

theorem Represents.mapsTo (h : Represents table memory mappings) (hmem : (frame, tag) ∈ mappings)
    (other : BufferTag) : memory.mapsTo frame other = decide (tag = other) := by
  obtain ⟨hfile, hblock⟩ := h.keys _ hmem
  rw [Memory.mapsTo, hfile, hblock]
  cases tag
  cases other
  simp

theorem Represents.length_le (h : Represents table memory mappings) (bucket : Nat) :
    (mappings.chain table bucket).length ≤ table.frameCapacity := by
  have hnodup : (mappings.map fun entry => entry.1.toNat).Nodup := by
    have hmap := h.frames.map fun _ _ heq => BitVec.eq_of_toNat_eq heq
    rwa [List.map_map] at hmap
  have hsubset : (mappings.map fun entry => entry.1.toNat) ⊆ List.range table.frameCapacity := by
    intro index hindex
    obtain ⟨entry, hentry, rfl⟩ := List.mem_map.mp hindex
    exact List.mem_range.mpr (h.inRange entry hentry)
  have hle := (hnodup.subperm hsubset).length_le
  rw [List.length_map, List.length_range] at hle
  refine le_trans ?_ hle
  rw [Mappings.chain, List.length_map]
  exact List.length_filter_le _ _

theorem frame_ne_none (hfit : table.frameCapacity ≤ 2 ^ 31)
    (hframe : frame.toNat < table.frameCapacity) : frame ≠ kNone := by
  rintro rfl
  have hnone : kNone.toNat = 2 ^ 32 - 1 := by decide
  omega

theorem Represents.bucketOf_eq_none (h : Represents table memory mappings)
    (hfit : table.frameCapacity ≤ 2 ^ 31) (hframe : frame.toNat < table.frameCapacity) :
    memory.bucketOf frame = kNone ↔ mappings.tagOf frame = none := by
  refine ⟨fun hnone => ?_, h.unmapped frame hframe⟩
  by_contra hsome
  obtain ⟨tag, htag⟩ := Option.ne_none_iff_exists'.mp hsome
  have hbucket : memory.bucketOf frame = BitVec.ofNat 32 (table.bucketFor tag) :=
    h.mapped _ (Mappings.mem_of_tagOf htag)
  have hlt := bucketFor_lt table tag
  have hle := bucketCount_le hfit
  exact ofNat_bucket_ne (by omega) (hbucket.symm.trans hnone)

end Represents

/-! ### One access -/

def Access.answer (live : FrameId → Bool) : Access → Bool
  | .live frame => live frame
  | _ => false

/-- Performs an access that stays inside of the arrays. -/
def Memory.handle (table : Geometry) (live : FrameId → Bool) (memory : Memory)
    (access : Access) : Option (access.Reply × Memory) :=
  if access.InRange table then some (memory.perform (access.answer live) access) else none

section Programs

variable {table : Geometry} {live : FrameId → Bool} {memory : Memory} {α : Type}

theorem reaches_access {request : Access} {rest : request.Reply → Prog α}
    {post : α → Memory → Prop} (hrange : request.InRange table)
    (h : Reaches (Memory.handle table live)
      (rest (memory.perform (request.answer live) request).1)
      (memory.perform (request.answer live) request).2 post) :
    Reaches (Memory.handle table live) (access request >>= rest) memory post :=
  reaches_act (if_pos hrange) h

theorem reaches_last {request : Access} {post : request.Reply → Memory → Prop}
    (hrange : request.InRange table)
    (h : post (memory.perform (request.answer live) request).1
      (memory.perform (request.answer live) request).2) :
    Reaches (Memory.handle table live) (access request) memory post :=
  ⟨_, _, .request (if_pos hrange) (.done _ _), h⟩

theorem mapsTo_reaches {frame : FrameId} (hframe : frame.toNat < table.frameCapacity)
    (tag : BufferTag) :
    Reaches (Memory.handle table live) (mapsTo frame tag) memory fun maps after =>
      after = memory ∧ maps = memory.mapsTo frame tag := by
  refine reaches_access hframe ?_
  dsimp only [Memory.perform]
  split
  case isTrue hfile =>
      refine reaches_access hframe (reaches_done ⟨rfl, decide_eq_decide.mpr ?_⟩)
      simp [Memory.perform, hfile]
  case isFalse hfile => exact reaches_done ⟨rfl, by simp [Memory.mapsTo, hfile]⟩

theorem walkChain_reaches {tag : BufferTag} {frames : List FrameId} {start : FrameId}
    (hlinked : Linked memory.next kNone start frames)
    (hframes : ∀ frame ∈ frames, frame.toNat < table.frameCapacity) {steps : Nat}
    (hsteps : frames.length ≤ steps) :
    Reaches (Memory.handle table live) (walkChain tag steps start) memory fun found after =>
      after = memory ∧ found = frames.find? fun frame => memory.mapsTo frame tag := by
  induction frames generalizing start steps with
  | nil =>
      obtain rfl : start = kNone := hlinked
      cases steps with
      | zero => exact reaches_done ⟨rfl, rfl⟩
      | succ steps =>
          rw [walkChain, if_pos rfl]
          exact reaches_done ⟨rfl, rfl⟩
  | cons frame frames ih =>
      obtain ⟨rfl, hne, hrest⟩ := hlinked
      obtain ⟨steps, rfl⟩ : ∃ fewer, steps = fewer + 1 := ⟨steps - 1, by simp at hsteps; omega⟩
      rw [walkChain, if_neg hne]
      refine (mapsTo_reaches (hframes start List.mem_cons_self) tag).seq ?_
      rintro _ after ⟨hafter, rfl⟩
      subst after
      rw [List.find?_cons]
      cases hmaps : memory.mapsTo start tag with
      | true => exact reaches_done ⟨rfl, rfl⟩
      | false =>
          refine reaches_access (hframes start List.mem_cons_self) ?_
          exact ih hrest (fun other hother => hframes other (List.mem_cons_of_mem _ hother))
            (by simpa using hsteps)

theorem findLive_reaches {tag : BufferTag} {frame : FrameId} {frames : List FrameId}
    {start : FrameId} (hlinked : Linked memory.next kNone start frames)
    (hframes : ∀ other ∈ frames, other.toNat < table.frameCapacity) {steps : Nat}
    (hsteps : frames.length ≤ steps) :
    Reaches (Memory.handle table live) (findLive tag frame steps start) memory
      fun found after => after = memory ∧ found = frames.find? fun other =>
        decide (other ≠ frame) && memory.mapsTo other tag && live other := by
  induction frames generalizing start steps with
  | nil =>
      obtain rfl : start = kNone := hlinked
      cases steps with
      | zero => exact reaches_done ⟨rfl, rfl⟩
      | succ steps =>
          rw [findLive, if_pos rfl]
          exact reaches_done ⟨rfl, rfl⟩
  | cons current frames ih =>
      obtain ⟨rfl, hne, hrest⟩ := hlinked
      obtain ⟨steps, rfl⟩ : ∃ fewer, steps = fewer + 1 := ⟨steps - 1, by simp at hsteps; omega⟩
      have hcurrent := hframes start List.mem_cons_self
      have hnext : Reaches (Memory.handle table live) (do
          let current ← access (.loadNext start)
          findLive tag frame steps current) memory
          fun found after => after = memory ∧ found = frames.find? fun other =>
            decide (other ≠ frame) && memory.mapsTo other tag && live other :=
        reaches_access hcurrent (ih hrest
          (fun other hother => hframes other (List.mem_cons_of_mem _ hother))
          (by simpa using hsteps))
      rw [findLive, if_neg hne, List.find?_cons]
      by_cases hself : start = frame
      · simpa [hself] using hnext
      · rw [if_pos hself]
        refine (mapsTo_reaches hcurrent tag).seq ?_
        rintro _ after ⟨hafter, rfl⟩
        subst after
        cases hmaps : memory.mapsTo start tag with
        | false => simpa [hself] using hnext
        | true =>
            refine reaches_access hcurrent ?_
            cases hlive : live start with
            | false => simpa [Memory.perform, Access.answer, hlive] using hnext
            | true =>
                simp only [Memory.perform, Access.answer, hlive]
                exact reaches_done ⟨rfl, by simp [hself]⟩

/-- The words after the frame behind `before` was taken off the chain of a bucket. -/
def Memory.unlinked (memory : Memory) (bucket : Nat) (before : List FrameId) (frame : FrameId) :
    Memory :=
  let previous := before.reverse.headD kNone
  { memory with
    heads := if previous ≠ kNone then memory.heads
      else Function.update memory.heads bucket (memory.next frame)
    next := Function.update
      (if previous ≠ kNone then Function.update memory.next previous (memory.next frame)
        else memory.next) frame kNone
    bucketOf := Function.update memory.bucketOf frame kNone }

theorem Memory.unlinked_heads_self {bucket : Nat} {before : List FrameId} {frame : FrameId} :
    (memory.unlinked bucket before frame).heads bucket =
      if before.reverse.headD kNone ≠ kNone then memory.heads bucket else memory.next frame := by
  dsimp only [Memory.unlinked]
  split
  · rfl
  · exact Function.update_self ..

theorem Memory.unlinked_heads_of_ne {bucket other : Nat} {before : List FrameId}
    {frame : FrameId} (hne : other ≠ bucket) :
    (memory.unlinked bucket before frame).heads other = memory.heads other := by
  dsimp only [Memory.unlinked]
  split
  · rfl
  · exact Function.update_of_ne hne ..

theorem Memory.unlinked_next_of_notMem {bucket : Nat} {before : List FrameId}
    {frame other : FrameId} (hstop : other ≠ kNone) (hnot : other ∉ before ++ [frame]) :
    (memory.unlinked bucket before frame).next other = memory.next other := by
  rw [List.mem_append, List.mem_singleton, not_or] at hnot
  refine (Function.update_of_ne hnot.2 ..).trans ?_
  split
  · refine Function.update_of_ne ?_ ..
    cases hreverse : before.reverse with
    | nil => exact hstop
    | cons previous front =>
        rintro rfl
        exact hnot.1 (List.mem_reverse.mp (by simp [hreverse]))
  · rfl

theorem unlinkAfter_reaches {frame after current previous : FrameId}
    {front rest : List FrameId}
    (hlinked : Linked memory.next kNone current (front ++ previous :: frame :: rest))
    (hframes : ∀ other ∈ front ++ [previous], other.toNat < table.frameCapacity) :
    Reaches (Memory.handle table live) (unlinkAfter frame after current) memory fun _ final =>
      final = { memory with next := Function.update memory.next previous after } := by
  induction front generalizing current with
  | nil =>
      obtain ⟨rfl, hne, hframe, -⟩ := hlinked
      have hcurrent := hframes current (by simp)
      refine reaches_loop (reaches_if_neg hne (reaches_access hcurrent ?_))
      refine reaches_if_pos hframe (reaches_access hcurrent ?_)
      exact reaches_done (reaches_done rfl)
  | cons node front ih =>
      obtain ⟨rfl, hne, hrest⟩ := hlinked
      -- the frame comes later, so the next one is another
      have hother : memory.next current ≠ frame := hrest.start_ne
      refine reaches_loop (reaches_if_neg hne (reaches_access (hframes current (by simp)) ?_))
      refine reaches_if_neg hother (reaches_done ?_)
      exact ih hrest fun other hmem => hframes other (List.mem_cons_of_mem _ hmem)

theorem unlink_reaches {frame : FrameId} {bucket : Nat} {before rest : List FrameId}
    (hbucket : bucket < table.bucketCount) (hof : (memory.bucketOf frame).toNat = bucket)
    (hchain : Chain memory bucket (before ++ frame :: rest))
    (hframes : ∀ other ∈ before ++ [frame], other.toNat < table.frameCapacity) :
    Reaches (Memory.handle table live) (unlink frame) memory fun _ after =>
      after = memory.unlinked bucket before frame := by
  have hframe : frame.toNat < table.frameCapacity := hframes frame (by simp)
  have hhead : (Access.loadHead (memory.bucketOf frame).toNat).InRange table := by
    rw [hof]
    exact hbucket
  have hclear : ∀ {current : Memory}, Reaches (Memory.handle table live) (do
      access (.storeNext frame kNone)
      access (.storeBucketOf frame kNone)) current fun _ after =>
        after = { current with
          next := Function.update current.next frame kNone
          bucketOf := Function.update current.bucketOf frame kNone } :=
    fun {current} => reaches_access hframe (reaches_last hframe rfl)
  have hstart := hchain.start_eq
  refine reaches_access hframe (reaches_access hframe (reaches_access hhead ?_))
  rcases List.eq_nil_or_concat' before with rfl | ⟨front, previous, rfl⟩
  · have hfirst : memory.heads (memory.bucketOf frame).toNat = frame := by
      rw [hof]
      exact hstart
    refine reaches_if_pos hfirst (reaches_access hhead (hclear.mono ?_))
    rintro _ _ rfl
    simp [Memory.perform, Memory.unlinked, hof]
  · have hprevious : previous ≠ kNone := hchain.ne_stop (by simp)
    have hlater : memory.heads (memory.bucketOf frame).toNat ≠ frame := by
      rw [hof, hstart]
      intro heq
      refine hchain.notMem ?_
      cases front with
      | nil =>
          obtain rfl : previous = frame := heq
          simp
      | cons first front =>
          obtain rfl : first = frame := heq
          simp
    rw [List.append_assoc] at hchain
    have hlinked : Linked memory.next kNone (memory.heads (memory.bucketOf frame).toNat)
        (front ++ previous :: frame :: rest) := by
      rw [hof]
      exact hchain
    refine reaches_if_neg hlater ((unlinkAfter_reaches hlinked ?_).seq ?_)
    · exact fun other hmem => hframes other (List.mem_append_left _ hmem)
    · rintro _ _ rfl
      refine hclear.mono ?_
      rintro _ _ rfl
      simp [Memory.perform, Memory.unlinked, hprevious]

/-- The words after the frame was put on the chain of a bucket. -/
def Memory.linked (memory : Memory) (bucket : Nat) (tag : BufferTag) (frame : FrameId) : Memory :=
  { memory with
    heads := Function.update memory.heads bucket frame
    next := Function.update memory.next frame (memory.heads bucket)
    bucketOf := Function.update memory.bucketOf frame (BitVec.ofNat 32 bucket)
    keyFileId := Function.update memory.keyFileId frame tag.fileId
    keyBlockId := Function.update memory.keyBlockId frame tag.blockId }

theorem link_reaches {frame : FrameId} {bucket : Nat} (hbucket : bucket < table.bucketCount)
    (hframe : frame.toNat < table.frameCapacity) (tag : BufferTag) :
    Reaches (Memory.handle table live) (link bucket tag frame) memory fun _ after =>
      after = memory.linked bucket tag frame :=
  reaches_access hframe (reaches_access hframe (reaches_access hbucket (reaches_access hframe
    (reaches_access hframe (reaches_last hbucket rfl)))))

/-! ### The map after a change of the words -/

theorem Mappings.split_chain (table : Geometry) {mappings : Mappings} {frame : FrameId}
    {tag : BufferTag} (hmem : (frame, tag) ∈ mappings) :
    ∃ before rest, mappings.chain table (table.bucketFor tag) = before ++ frame :: rest :=
  List.append_of_mem (Mappings.mem_chain.mpr ⟨tag, hmem, rfl⟩)

theorem Represents.chain_ne {mappings : Mappings} (h : Represents table memory mappings)
    {first second : FrameId} {bucket other : Nat} (hne : other ≠ bucket)
    (hfirst : first ∈ mappings.chain table bucket)
    (hsecond : second ∈ mappings.chain table other) : second ≠ first := by
  rintro rfl
  obtain ⟨tag, hmem, rfl⟩ := Mappings.mem_chain.mp hfirst
  obtain ⟨tag', hmem', rfl⟩ := Mappings.mem_chain.mp hsecond
  have htag : some tag = some tag' :=
    (Mappings.tagOf_of_mem h.frames hmem).symm.trans (Mappings.tagOf_of_mem h.frames hmem')
  exact hne (by rw [Option.some.inj htag])

theorem filter_ne_of_notMem {frame : FrameId} {frames : List FrameId} (hnot : frame ∉ frames) :
    frames.filter (· ≠ frame) = frames := by
  refine List.filter_eq_self.mpr fun other hother => ?_
  rw [decide_eq_true_eq]
  rintro rfl
  exact hnot hother

theorem filter_ne_middle {frame : FrameId} {before rest : List FrameId}
    (hnot : frame ∉ before ++ rest) :
    (before ++ frame :: rest).filter (· ≠ frame) = before ++ rest := by
  have hkeep := filter_ne_of_notMem hnot
  rw [List.filter_append] at hkeep ⊢
  rw [List.filter_cons_of_neg (by simp), hkeep]

theorem Represents.unlinked {mappings : Mappings} (h : Represents table memory mappings)
    {frame : FrameId} {tag : BufferTag} (hmem : (frame, tag) ∈ mappings)
    {before rest : List FrameId}
    (hsplit : mappings.chain table (table.bucketFor tag) = before ++ frame :: rest) :
    Represents table (memory.unlinked (table.bucketFor tag) before frame)
      (mappings.unmap frame) := by
  have hbucket := bucketFor_lt table tag
  have hchain := h.chains _ hbucket
  rw [hsplit] at hchain
  have hframe : frame ∈ mappings.chain table (table.bucketFor tag) := by
    rw [hsplit]
    simp
  refine ⟨Mappings.unmap_nodup h.frames, ?_, ?_, ?_, ?_, ?_⟩
  · exact fun entry hentry => h.inRange entry (Mappings.mem_unmap.mp hentry).1
  · intro bucket hlt
    rw [Mappings.chain_unmap]
    by_cases heq : bucket = table.bucketFor tag
    · subst heq
      have hnot : frame ∉ before ++ rest := hchain.notMem
      rw [hsplit, filter_ne_middle hnot, Chain, Memory.unlinked_heads_self]
      refine (hchain.erase rfl).congr fun other hother => Function.update_of_ne ?_ ..
      rintro rfl
      exact hnot hother
    · have hothers : ∀ other ∈ mappings.chain table bucket, other ∉ before ++ [frame] := by
        intro other hother hmem
        have hon : other ∈ mappings.chain table (table.bucketFor tag) := by
          rw [hsplit]
          exact List.mem_append.mpr ((List.mem_append.mp hmem).imp id fun hself => by simp_all)
        exact h.chain_ne heq hon hother rfl
      have hnot : frame ∉ mappings.chain table bucket := fun hon => hothers frame hon (by simp)
      rw [filter_ne_of_notMem hnot, Chain, Memory.unlinked_heads_of_ne heq]
      exact (h.chains bucket hlt).congr fun other hother =>
        Memory.unlinked_next_of_notMem ((h.chains bucket hlt).ne_stop hother)
          (hothers other hother)
  · exact fun entry hentry => h.keys entry (Mappings.mem_unmap.mp hentry).1
  · intro entry hentry
    obtain ⟨hold, hne⟩ := Mappings.mem_unmap.mp hentry
    exact (Function.update_of_ne hne ..).trans (h.mapped entry hold)
  · intro other hother hnone
    by_cases heq : other = frame
    · exact heq ▸ Function.update_self ..
    · refine (Function.update_of_ne heq ..).trans (h.unmapped other hother ?_)
      rwa [Mappings.tagOf_unmap heq] at hnone

theorem Represents.linked {mappings : Mappings} (h : Represents table memory mappings)
    (hfit : table.frameCapacity ≤ 2 ^ 31) {frame : FrameId}
    (hframe : frame.toNat < table.frameCapacity) (hnone : mappings.tagOf frame = none)
    (tag : BufferTag) :
    Represents table (memory.linked (table.bucketFor tag) tag frame)
      ((frame, tag) :: mappings) := by
  have hne : ∀ entry ∈ mappings, entry.1 ≠ frame := Mappings.ne_of_tagOf hnone
  have hoff : ∀ bucket, frame ∉ mappings.chain table bucket := by
    intro bucket hmem
    obtain ⟨other, hother, -⟩ := Mappings.mem_chain.mp hmem
    exact hne _ hother rfl
  refine ⟨?_, ?_, ?_, ?_, ?_, ?_⟩
  · refine List.nodup_cons.mpr ⟨fun hmem => ?_, h.frames⟩
    obtain ⟨entry, hentry, heq⟩ := List.mem_map.mp hmem
    exact hne entry hentry heq
  · rintro entry (_ | ⟨_, hentry⟩)
    · exact hframe
    · exact h.inRange entry hentry
  · intro bucket hlt
    rw [Mappings.chain_cons, Chain]
    split
    case isTrue heq =>
        subst heq
        rw [show (memory.linked (table.bucketFor tag) tag frame).heads (table.bucketFor tag) = frame
          from Function.update_self ..]
        exact (h.chains _ hlt).push (hoff _) (frame_ne_none hfit hframe)
    case isFalse heq =>
        rw [show (memory.linked (table.bucketFor tag) tag frame).heads bucket = memory.heads bucket
          from Function.update_of_ne (Ne.symm heq) ..]
        refine (h.chains bucket hlt).congr fun other hother => Function.update_of_ne ?_ ..
        rintro rfl
        exact hoff bucket hother
  · rintro entry (_ | ⟨_, hentry⟩)
    · exact ⟨Function.update_self .., Function.update_self ..⟩
    · obtain ⟨hfile, hblock⟩ := h.keys entry hentry
      exact ⟨(Function.update_of_ne (hne entry hentry) ..).trans hfile,
        (Function.update_of_ne (hne entry hentry) ..).trans hblock⟩
  · rintro entry (_ | ⟨_, hentry⟩)
    · exact Function.update_self ..
    · exact (Function.update_of_ne (hne entry hentry) ..).trans (h.mapped entry hentry)
  · intro other hother hunmapped
    by_cases heq : other = frame
    · simp [Mappings.tagOf, heq] at hunmapped
    · refine (Function.update_of_ne heq ..).trans (h.unmapped other hother ?_)
      rwa [Mappings.tagOf, List.find?_cons_of_neg (by simpa using Ne.symm heq)] at hunmapped

/-! ### Stripes -/

/-- Exactly the given stripes are being written. -/
structure Memory.Writing (memory : Memory) (stripes : List Nat) : Prop where
  unlocked : ∀ stripe, stripe ∉ stripes → memory.lock stripe = 0
  odd : ∀ stripe, (memory.sequence stripe).toNat % 2 = if stripe ∈ stripes then 1 else 0

def Memory.SameStripes (memory other : Memory) : Prop :=
  other.lock = memory.lock ∧ other.sequence = memory.sequence

theorem Memory.SameStripes.trans {middle other : Memory} (h : memory.SameStripes middle)
    (h' : middle.SameStripes other) : memory.SameStripes other :=
  ⟨h'.1.trans h.1, h'.2.trans h.2⟩

theorem Memory.Writing.same {stripes : List Nat} {other : Memory} (h : memory.Writing stripes)
    (hsame : memory.SameStripes other) : other.Writing stripes := by
  obtain ⟨hlock, hsequence⟩ := hsame
  exact ⟨by simpa only [hlock] using h.unlocked, by simpa only [hsequence] using h.odd⟩

theorem Memory.SameChains.refl (memory : Memory) : memory.SameChains memory :=
  ⟨rfl, rfl, rfl, rfl, rfl⟩

theorem Memory.SameChains.trans {middle other : Memory} (h : memory.SameChains middle)
    (h' : middle.SameChains other) : memory.SameChains other :=
  ⟨h'.heads.trans h.heads, h'.next.trans h.next, h'.bucketOf.trans h.bucketOf,
    h'.keyFileId.trans h.keyFileId, h'.keyBlockId.trans h.keyBlockId⟩

theorem enterStripe_reaches {stripe : Nat} {stripes : List Nat} (hrange : stripe < table.stripes)
    (hnot : stripe ∉ stripes) (hwriting : memory.Writing stripes) :
    Reaches (Memory.handle table live) (enterStripe stripe) memory fun _ after =>
      after.Writing (stripe :: stripes) ∧ memory.SameChains after := by
  have hlock : Reaches (Memory.handle table live) (lockStripeWord stripe) memory fun _ after =>
      after = { memory with lock := Function.update memory.lock stripe 1 } := by
    refine reaches_forever (reaches_access hrange ?_)
    exact reaches_if_pos (hwriting.unlocked stripe hnot) (reaches_done ⟨(), rfl, rfl⟩)
  refine hlock.seq ?_
  rintro _ _ rfl
  refine reaches_access hrange (reaches_last hrange ⟨⟨?_, ?_⟩, ⟨rfl, rfl, rfl, rfl, rfl⟩⟩)
  · intro other hother
    rw [List.mem_cons, not_or] at hother
    exact (Function.update_of_ne hother.1 ..).trans (hwriting.unlocked other hother.2)
  · intro other
    have hodd := hwriting.odd other
    by_cases heq : other = stripe
    · subst heq
      rw [if_neg hnot] at hodd
      simp [Memory.perform]
      omega
    · simpa [Memory.perform, heq] using hodd

theorem leaveStripe_reaches {stripe : Nat} {stripes : List Nat} (hrange : stripe < table.stripes)
    (hnot : stripe ∉ stripes) (hwriting : memory.Writing (stripe :: stripes)) :
    Reaches (Memory.handle table live) (leaveStripe stripe) memory fun _ after =>
      after.Writing stripes ∧ memory.SameChains after := by
  refine reaches_access hrange (reaches_access hrange (reaches_last hrange
    ⟨⟨?_, ?_⟩, ⟨rfl, rfl, rfl, rfl, rfl⟩⟩))
  · intro other hother
    by_cases heq : other = stripe
    · exact heq ▸ Function.update_self ..
    · exact (Function.update_of_ne heq ..).trans (hwriting.unlocked other (by simp [heq, hother]))
  · intro other
    have hodd := hwriting.odd other
    by_cases heq : other = stripe
    · subst heq
      rw [if_pos List.mem_cons_self] at hodd
      simp [Memory.perform, hnot]
      omega
    · simpa [Memory.perform, heq] using hodd

theorem enterStripes_reaches {stripes entered : List Nat}
    (hrange : ∀ stripe ∈ stripes, stripe < table.stripes)
    (hnodup : (stripes.reverse ++ entered).Nodup) (hwriting : memory.Writing entered) :
    Reaches (Memory.handle table live) (forEach stripes enterStripe) memory fun _ after =>
      after.Writing (stripes.reverse ++ entered) ∧ memory.SameChains after := by
  induction stripes generalizing entered memory with
  | nil => exact reaches_done ⟨hwriting, .refl memory⟩
  | cons stripe stripes ih =>
      rw [List.reverse_cons, List.append_assoc, List.singleton_append] at hnodup ⊢
      have hnot : stripe ∉ entered :=
        (List.nodup_cons.mp (hnodup.sublist (List.sublist_append_right _ _))).1
      refine (enterStripe_reaches (hrange stripe List.mem_cons_self) hnot hwriting).seq ?_
      rintro _ middle ⟨hmiddle, hsame⟩
      refine (ih (fun other hother => hrange other (List.mem_cons_of_mem _ hother)) hnodup
        hmiddle).mono ?_
      rintro _ after ⟨hafter, hsame'⟩
      exact ⟨hafter, hsame.trans hsame'⟩

theorem leaveStripes_reaches {stripes : List Nat}
    (hrange : ∀ stripe ∈ stripes, stripe < table.stripes) (hnodup : stripes.Nodup)
    (hwriting : memory.Writing stripes) :
    Reaches (Memory.handle table live) (forEach stripes leaveStripe) memory fun _ after =>
      after.Writing [] ∧ memory.SameChains after := by
  induction stripes generalizing memory with
  | nil => exact reaches_done ⟨hwriting, .refl memory⟩
  | cons stripe stripes ih =>
      obtain ⟨hnot, hnodup⟩ := List.nodup_cons.mp hnodup
      refine (leaveStripe_reaches (hrange stripe List.mem_cons_self) hnot hwriting).seq ?_
      rintro _ middle ⟨hmiddle, hsame⟩
      refine (ih (fun other hother => hrange other (List.mem_cons_of_mem _ hother)) hnodup
        hmiddle).mono ?_
      rintro _ after ⟨hafter, hsame'⟩
      exact ⟨hafter, hsame.trans hsame'⟩

theorem withStripes_reaches {stripes : List Nat} {body : Prog α} (expected : α)
    {mappings : Mappings} (next : Mappings) (hrange : ∀ stripe ∈ stripes, stripe < table.stripes)
    (hnodup : stripes.Nodup) (hquiet : memory.Writing [])
    (hmappings : Represents table memory mappings)
    (hbody : ∀ entered, Represents table entered mappings → memory.SameChains entered →
      Reaches (Memory.handle table live) body entered fun result after =>
        entered.SameStripes after ∧ result = expected ∧ Represents table after next) :
    Reaches (Memory.handle table live) (withStripes stripes body) memory fun result after =>
      result = expected ∧ Represents table after next ∧ after.Writing [] := by
  refine (enterStripes_reaches hrange (by simpa using hnodup) hquiet).seq ?_
  rintro _ entered ⟨hentered, hsame⟩
  rw [List.append_nil] at hentered
  refine (hbody entered (hmappings.same hsame) hsame).seq ?_
  rintro result after ⟨hstripes, rfl, hafter⟩
  refine (leaveStripes_reaches (by simpa using hrange) (by simpa using hnodup)
    (hentered.same hstripes)).seq ?_
  rintro _ final ⟨hfinal, hsame'⟩
  exact reaches_done ⟨rfl, hafter.same hsame', hfinal⟩

/-! ### The calls -/

section Calls

variable {mappings : Mappings} {frame : FrameId} {tag : BufferTag}

theorem Represents.find_chain (h : Represents table memory mappings) (tag : BufferTag)
    (test : FrameId → Bool) :
    ((mappings.chain table (table.bucketFor tag)).find? fun frame =>
        test frame && memory.mapsTo frame tag) =
      (mappings.find? fun entry => test entry.1 && decide (entry.2 = tag)).map Prod.fst := by
  rw [Mappings.chain, List.find?_map, List.find?_filter, ← List.head?_filter, ← List.head?_filter]
  congr 2
  refine List.filter_congr fun entry hentry => ?_
  have hmaps := h.mapsTo hentry tag
  by_cases heq : entry.2 = tag
  · simp [hmaps, heq]
  · simp [hmaps, heq]

theorem Represents.chain_inRange (h : Represents table memory mappings) (bucket : Nat) :
    ∀ other ∈ mappings.chain table bucket, other.toNat < table.frameCapacity := by
  intro other hother
  obtain ⟨tag, hmem, -⟩ := Mappings.mem_chain.mp hother
  exact h.inRange _ hmem

theorem lookupFrameId_reaches (h : Represents table memory mappings)
    (hquiet : memory.Writing []) (tag : BufferTag) :
    Reaches (Memory.handle table live) (lookupFrameId table tag) memory fun result after =>
      result = mappings.lookupFrameId tag ∧ Represents table after mappings ∧
        after.Writing [] := by
  have hstripe := stripeFor_lt table (table.bucketFor tag)
  have heven : ¬(memory.sequence (table.stripeFor (table.bucketFor tag))).toNat % 2 = 1 := by
    rw [hquiet.odd]
    simp
  have hbucket := bucketFor_lt table tag
  refine reaches_forever (reaches_access hstripe (reaches_if_neg heven ?_))
  refine reaches_access hbucket ((walkChain_reaches (h.chains _ hbucket) (h.chain_inRange _)
    (h.length_le _)).seq ?_)
  rintro _ after ⟨hafter, rfl⟩
  subst after
  refine reaches_access hstripe (reaches_if_pos rfl (reaches_done ⟨_, rfl, ?_, h, hquiet⟩))
  exact (h.find_chain tag fun _ => true).trans (by simp [Mappings.lookupFrameId])

theorem Represents.toNat_bucketOf (h : Represents table memory mappings)
    (hfit : table.frameCapacity ≤ 2 ^ 31) (hmem : (frame, tag) ∈ mappings) :
    (memory.bucketOf frame).toNat = table.bucketFor tag := by
  have hlt := bucketFor_lt table tag
  have hle := bucketCount_le hfit
  rw [h.mapped _ hmem]
  exact toNat_ofNat_bucket (hlt.trans_le (hle.trans (by decide)))

theorem Represents.unlink_reaches (h : Represents table memory mappings)
    (hfit : table.frameCapacity ≤ 2 ^ 31) (hmem : (frame, tag) ∈ mappings) :
    Reaches (Memory.handle table live) (unlink frame) memory fun _ after =>
      memory.SameStripes after ∧ Represents table after (mappings.unmap frame) := by
  obtain ⟨before, rest, hsplit⟩ := Mappings.split_chain table hmem
  have hchain := h.chains _ (bucketFor_lt table tag)
  rw [hsplit] at hchain
  have hframes : ∀ other ∈ before ++ [frame], other.toNat < table.frameCapacity := by
    intro other hother
    refine h.chain_inRange (table.bucketFor tag) other ?_
    rw [hsplit]
    grind
  refine (PageTableWords.unlink_reaches (bucketFor_lt table tag) (h.toNat_bucketOf hfit hmem)
    hchain hframes).mono ?_
  rintro _ _ rfl
  exact ⟨⟨rfl, rfl⟩, h.unlinked hmem hsplit⟩

theorem Represents.linkIfUnlinked_reaches (h : Represents table memory mappings)
    (hfit : table.frameCapacity ≤ 2 ^ 31) (hframe : frame.toNat < table.frameCapacity)
    (tag : BufferTag) :
    Reaches (Memory.handle table live) (linkIfUnlinked (table.bucketFor tag) tag frame) memory
      fun _ after => memory.SameStripes after ∧ Represents table after
        (if mappings.tagOf frame = none then (frame, tag) :: mappings else mappings) := by
  refine reaches_access hframe ?_
  have hnone : memory.bucketOf frame = kNone ↔ mappings.tagOf frame = none :=
    h.bucketOf_eq_none hfit hframe
  by_cases hunmapped : mappings.tagOf frame = none
  · rw [if_pos hunmapped]
    refine reaches_if_pos (hnone.mpr hunmapped) ((link_reaches (bucketFor_lt table tag) hframe
      tag).mono ?_)
    rintro _ _ rfl
    exact ⟨⟨rfl, rfl⟩, h.linked hfit hframe hunmapped tag⟩
  · rw [if_neg hunmapped]
    exact reaches_if_neg (fun heq => hunmapped (hnone.mp heq)) (reaches_done ⟨⟨rfl, rfl⟩, h⟩)

theorem remove_reaches (h : Represents table memory mappings) (hquiet : memory.Writing [])
    (hfit : table.frameCapacity ≤ 2 ^ 31) (hframe : frame.toNat < table.frameCapacity)
    (tag : BufferTag) :
    Reaches (Memory.handle table live) (remove table tag frame) memory fun _ after =>
      Represents table after (mappings.remove tag frame) ∧ after.Writing [] := by
  refine reaches_access hframe ?_
  have hnone : memory.bucketOf frame = kNone ↔ mappings.tagOf frame = none :=
    h.bucketOf_eq_none hfit hframe
  cases htag : mappings.tagOf frame with
  | none =>
      refine reaches_if_pos (hnone.mpr htag) (reaches_done ?_)
      rw [Mappings.remove, htag, if_neg (Option.some_ne_none tag).symm]
      exact ⟨h, hquiet⟩
  | some key =>
      have hmem := Mappings.mem_of_tagOf htag
      refine reaches_if_neg (fun heq => by simp [hnone.mp heq] at htag) ?_
      refine (withStripes_reaches () (mappings.remove tag frame) ?_
        (nodup_stripeOrder ..) hquiet h fun entered hentered _ => ?_).mono fun _ _ hpost => hpost.2
      · intro stripe hstripe
        obtain rfl | hnone := mem_stripeOrder.mp hstripe
        · exact stripeFor_lt ..
        · cases hnone
      · refine (mapsTo_reaches hframe tag).seq ?_
        rintro _ after ⟨hafter, rfl⟩
        subst after
        rw [hentered.mapsTo hmem, Mappings.remove, htag]
        by_cases heq : key = tag
        · rw [if_pos (congrArg some heq)]
          refine reaches_if_pos (decide_eq_true heq) ((hentered.unlink_reaches hfit hmem).mono ?_)
          rintro _ after ⟨hstripes, hafter⟩
          exact ⟨hstripes, rfl, hafter⟩
        · rw [if_neg fun hsome => heq (Option.some.inj hsome)]
          exact reaches_if_neg (by simpa using heq) (reaches_done ⟨⟨rfl, rfl⟩, rfl, hentered⟩)

theorem Mappings.unmap_of_tagOf (hnone : mappings.tagOf frame = none) :
    mappings.unmap frame = mappings :=
  List.filter_eq_self.mpr fun entry hentry =>
    decide_eq_true (Mappings.ne_of_tagOf hnone entry hentry)

theorem Mappings.replace_eq (oldTag : Option BufferTag) (newTag : BufferTag) :
    mappings.replace oldTag newTag frame =
      let kept := if mappings.tagOf frame = some newTag ∧ oldTag ≠ some newTag then mappings
        else mappings.unmap frame
      if kept.tagOf frame = none then (frame, newTag) :: kept else kept := by
  rw [Mappings.replace]
  split
  case isTrue hkeeps => simp [hkeeps.1]
  case isFalse => simp [Mappings.tagOf_unmap_self]

theorem Represents.relink_reaches {kept : Mappings} (mappings : Mappings)
    (oldTag : Option BufferTag) {newTag : BufferTag} (h : Represents table memory kept)
    (hfit : table.frameCapacity ≤ 2 ^ 31)
    (hframe : frame.toNat < table.frameCapacity)
    (hkept : kept = if mappings.tagOf frame = some newTag ∧ oldTag ≠ some newTag then mappings
      else mappings.unmap frame) :
    Reaches (Memory.handle table live) (linkIfUnlinked (table.bucketFor newTag) newTag frame) memory
      fun _ after => memory.SameStripes after ∧
        Represents table after (mappings.replace oldTag newTag frame) := by
  subst hkept
  refine (h.linkIfUnlinked_reaches hfit hframe newTag).mono ?_
  rintro _ after ⟨hstripes, hafter⟩
  refine ⟨hstripes, ?_⟩
  rwa [Mappings.replace_eq]

theorem Represents.unlink_relink_reaches {oldTag : Option BufferTag} {newTag : BufferTag}
    (h : Represents table memory mappings) (hfit : table.frameCapacity ≤ 2 ^ 31)
    (hmem : (frame, tag) ∈ mappings) (hgives : tag = newTag → oldTag = some newTag) :
    Reaches (Memory.handle table live) (do
      unlink frame
      linkIfUnlinked (table.bucketFor newTag) newTag frame) memory
      fun _ after => memory.SameStripes after ∧
        Represents table after (mappings.replace oldTag newTag frame) := by
  refine (h.unlink_reaches hfit hmem).seq ?_
  rintro _ middle ⟨hstripes, hmiddle⟩
  have htag := Mappings.tagOf_of_mem h.frames hmem
  have hnot : ¬(mappings.tagOf frame = some newTag ∧ oldTag ≠ some newTag) := by
    rintro ⟨hnew, hother⟩
    exact hother (hgives (Option.some.inj (htag.symm.trans hnew)))
  refine (hmiddle.relink_reaches mappings oldTag hfit (h.inRange _ hmem) (if_neg hnot).symm).mono ?_
  rintro _ after ⟨hstripes', hafter⟩
  exact ⟨hstripes.trans hstripes', hafter⟩

theorem replace_reaches (h : Represents table memory mappings) (hquiet : memory.Writing [])
    (hfit : table.frameCapacity ≤ 2 ^ 31) (hframe : frame.toNat < table.frameCapacity)
    (oldTag newTag : BufferTag) :
    Reaches (Memory.handle table live) (replace table oldTag newTag frame) memory fun _ after =>
      Represents table after (mappings.replace (some oldTag) newTag frame) ∧
        after.Writing [] := by
  refine reaches_access hframe ?_
  have hnone : memory.bucketOf frame = kNone ↔ mappings.tagOf frame = none :=
    h.bucketOf_eq_none hfit hframe
  refine (withStripes_reaches () (mappings.replace (some oldTag) newTag frame) replaceStripes_lt
    (nodup_stripeOrder ..) hquiet h fun entered hentered _ => ?_).mono fun _ _ hpost => hpost.2
  refine Reaches.mono ?_ fun _ _ => And.imp_right fun hafter => ⟨rfl, hafter⟩
  cases htag : mappings.tagOf frame with
  | none =>
      refine reaches_if_neg (not_not.mpr (hnone.mpr htag))
        (hentered.relink_reaches mappings (some oldTag) hfit hframe ?_)
      simp [htag, Mappings.unmap_of_tagOf htag]
  | some key =>
      have hmem := Mappings.mem_of_tagOf htag
      have hmapped : memory.bucketOf frame ≠ kNone := fun heq => by simp [hnone.mp heq] at htag
      refine reaches_if_pos hmapped ((mapsTo_reaches hframe oldTag).seq ?_)
      rintro _ after ⟨hafter, rfl⟩
      subst after
      rw [hentered.mapsTo hmem]
      by_cases hold : key = oldTag
      · refine reaches_if_pos (decide_eq_true hold) (hentered.unlink_relink_reaches hfit hmem ?_)
        exact fun hnew => congrArg some (hold.symm.trans hnew)
      · refine reaches_if_neg (by simpa using hold) ((mapsTo_reaches hframe newTag).seq ?_)
        rintro _ after ⟨hafter, rfl⟩
        subst after
        rw [hentered.mapsTo hmem]
        by_cases hnew : key = newTag
        · refine reaches_if_neg (by simpa using hnew)
            (hentered.relink_reaches mappings (some oldTag) hfit hframe ?_)
          simp [htag, ← hnew, Ne.symm hold]
        · exact reaches_if_pos (by simpa using hnew)
            (hentered.unlink_relink_reaches hfit hmem fun heq => absurd heq hnew)

theorem replaceUnlessLive_reaches (h : Represents table memory mappings)
    (hquiet : memory.Writing []) (hfit : table.frameCapacity ≤ 2 ^ 31)
    (hframe : frame.toNat < table.frameCapacity) (oldTag : Option BufferTag)
    (newTag : BufferTag) :
    Reaches (Memory.handle table live) (replaceUnlessLive table oldTag newTag frame) memory
      fun result after =>
        result = (mappings.replaceUnlessLive oldTag newTag frame live).1 ∧
        Represents table after (mappings.replaceUnlessLive oldTag newTag frame live).2 ∧
        after.Writing [] := by
  have hbucket := bucketFor_lt table newTag
  refine reaches_access hframe ?_
  have hnone : memory.bucketOf frame = kNone ↔ mappings.tagOf frame = none :=
    h.bucketOf_eq_none hfit hframe
  refine withStripes_reaches _ _ replaceStripes_lt (nodup_stripeOrder ..) hquiet h
    fun entered hentered _ => ?_
  refine reaches_access hbucket ((findLive_reaches (hentered.chains _ hbucket)
    (hentered.chain_inRange _) (hentered.length_le _)).seq ?_)
  rintro existing after ⟨hafter, hexisting⟩
  subst after
  have hfound : existing = mappings.liveOther newTag frame live := by
    rw [hexisting, Mappings.liveOther]
    have hfind := hentered.find_chain newTag fun other => decide (other ≠ frame) && live other
    simp only [Bool.and_right_comm _ (live _)] at hfind
    rw [hfind]
    simp only [Bool.decide_and, Bool.and_assoc, Bool.decide_eq_true]
  rw [Mappings.replaceUnlessLive, ← hfound]
  clear hexisting hfound
  have hlink : ∀ {kept current}, Represents table current kept →
      entered.SameStripes current →
      (kept = if mappings.tagOf frame = some newTag ∧ oldTag ≠ some newTag then mappings
        else mappings.unmap frame) →
      Reaches (Memory.handle table live) (do
        linkIfUnlinked (table.bucketFor newTag) newTag frame
        return none) current fun (result : Option FrameId) after =>
          entered.SameStripes after ∧ result = none ∧
            Represents table after (mappings.replace oldTag newTag frame) := by
    intro kept current hcurrent hstripes hkept
    refine (hcurrent.relink_reaches mappings oldTag hfit hframe hkept).seq ?_
    rintro _ after ⟨hstripes', hafter⟩
    exact reaches_done ⟨hstripes.trans hstripes', rfl, hafter⟩
  cases htag : mappings.tagOf frame with
  | none =>
      refine reaches_if_pos (hnone.mpr htag) (reaches_if_neg (not_not.mpr (hnone.mpr htag)) ?_)
      cases existing with
      | some other =>
          refine reaches_done ⟨⟨rfl, rfl⟩, rfl, ?_⟩
          rwa [Mappings.unmap_of_tagOf htag]
      | none =>
          refine hlink hentered ⟨rfl, rfl⟩ ?_
          simp [htag, Mappings.unmap_of_tagOf htag]
  | some key =>
      have hmem := Mappings.mem_of_tagOf htag
      have hmapped : memory.bucketOf frame ≠ kNone := fun heq => by simp [hnone.mp heq] at htag
      refine reaches_if_neg hmapped ((mapsTo_reaches hframe newTag).seq ?_)
      rintro _ after ⟨hafter, rfl⟩
      subst after
      rw [hentered.mapsTo hmem]
      refine reaches_if_pos hmapped ?_
      cases existing with
      | some other =>
          have hrest : ∀ mapsOld : Bool, Reaches (Memory.handle table live)
              (if mapsOld || !decide (key = newTag) || (some other).isSome then do
                unlink frame
                return some other
              else return some other) entered fun result after =>
                entered.SameStripes after ∧ result = some other ∧
                  Represents table after (mappings.unmap frame) := by
            intro mapsOld
            refine reaches_if_pos (by simp) ((hentered.unlink_reaches hfit hmem).seq ?_)
            rintro _ after ⟨hstripes, hafter⟩
            exact reaches_done ⟨hstripes, rfl, hafter⟩
          cases oldTag with
          | none => exact hrest false
          | some oldTag =>
              refine (mapsTo_reaches hframe oldTag).seq ?_
              rintro mapsOld after ⟨hafter, -⟩
              subst after
              exact hrest mapsOld
      | none =>
          have hrest : ∀ mapsOld, mapsOld = decide (oldTag = some key) →
              Reaches (Memory.handle table live)
              (if mapsOld || !decide (key = newTag) || (none : Option FrameId).isSome then do
                unlink frame
                linkIfUnlinked (table.bucketFor newTag) newTag frame
                return none
              else do
                linkIfUnlinked (table.bucketFor newTag) newTag frame
                return none) entered fun (result : Option FrameId) after =>
                  entered.SameStripes after ∧ result = none ∧
                    Represents table after (mappings.replace oldTag newTag frame) := by
            rintro _ rfl
            by_cases hkeeps : key = newTag ∧ oldTag ≠ some newTag
            · refine reaches_if_neg ?_ (hlink hentered ⟨rfl, rfl⟩ ?_)
              · obtain ⟨rfl, hother⟩ := hkeeps
                simpa using hother
              · simp [htag, hkeeps]
            · refine reaches_if_pos ?_ ((hentered.unlink_reaches hfit hmem).seq ?_)
              · by_cases hnew : key = newTag
                · simp_all
                · simp [hnew]
              · rintro _ middle ⟨hstripes, hmiddle⟩
                refine hlink hmiddle hstripes ?_
                simp only [htag, Option.some.injEq, if_neg hkeeps]
          cases oldTag with
          | none => exact hrest false (by simp)
          | some oldTag =>
              refine (mapsTo_reaches hframe oldTag).seq ?_
              rintro _ after ⟨hafter, rfl⟩
              subst after
              exact hrest _ (by simp [hentered.mapsTo hmem, eq_comm])

/-- Every call does to the words what it does to the map. -/
theorem Represents.call_reaches (h : Represents table memory mappings) (live : FrameId → Bool)
    (hquiet : memory.Writing []) (hfit : table.frameCapacity ≤ 2 ^ 31) (call : Call)
    (hframe : ∀ frame ∈ call.frame?, frame.toNat < table.frameCapacity) :
    Reaches (Memory.handle table live) (call.program table) memory fun result after =>
      result = (mappings.apply live call).1 ∧
      Represents table after (mappings.apply live call).2 ∧ after.Writing [] := by
  cases call with
  | lookupFrameId tag => exact lookupFrameId_reaches h hquiet tag
  | install tag frame =>
      refine (replace_reaches h hquiet hfit (hframe frame rfl) tag tag).seq ?_
      exact fun _ _ hpost => reaches_done ⟨rfl, hpost⟩
  | remove tag frame =>
      refine (remove_reaches h hquiet hfit (hframe frame rfl) tag).seq ?_
      exact fun _ _ hpost => reaches_done ⟨rfl, hpost⟩
  | replace oldTag newTag frame =>
      refine (replace_reaches h hquiet hfit (hframe frame rfl) oldTag newTag).seq ?_
      exact fun _ _ hpost => reaches_done ⟨rfl, hpost⟩
  | replaceUnlessLive oldTag newTag frame =>
      exact replaceUnlessLive_reaches h hquiet hfit (hframe frame rfl) oldTag newTag

end Calls

end Programs

/-! ### Sequences of calls -/

/-- The calls are made one after the other, each with its own `live`; `results` is what they
return. -/
inductive Performs (table : Geometry) :
    Memory → List (Call × (FrameId → Bool)) → List (Option FrameId) → Memory → Prop where
  | nil (memory : Memory) : Performs table memory [] [] memory
  | cons {memory middle final : Memory} {call : Call} {live : FrameId → Bool}
      {calls : List (Call × (FrameId → Bool))} {result : Option FrameId}
      {results : List (Option FrameId)}
      (first : Evaluates (Memory.handle table live) (call.program table) memory result middle)
      (rest : Performs table middle calls results final) :
      Performs table memory ((call, live) :: calls) (result :: results) final

def Mappings.applyAll (mappings : Mappings) :
    List (Call × (FrameId → Bool)) → List (Option FrameId) × Mappings
  | [] => ([], mappings)
  | (call, live) :: calls =>
      let (result, next) := mappings.apply live call
      let (results, final) := next.applyAll calls
      (result :: results, final)

theorem Performs.unique {table : Geometry} {memory final final' : Memory}
    {calls : List (Call × (FrameId → Bool))} {results results' : List (Option FrameId)}
    (h : Performs table memory calls results final)
    (h' : Performs table memory calls results' final') : results = results' ∧ final = final' := by
  induction h generalizing results' final' with
  | nil memory =>
      cases h'
      exact ⟨rfl, rfl⟩
  | cons first _ ih =>
      cases h' with
      | cons first' rest' =>
          obtain ⟨rfl, rfl⟩ := first.unique first'
          obtain ⟨rfl, rfl⟩ := ih rest'
          exact ⟨rfl, rfl⟩

theorem Represents.performs {table : Geometry} (hfit : table.frameCapacity ≤ 2 ^ 31)
    {calls : List (Call × (FrameId → Bool))}
    (hframes : ∀ entry ∈ calls, ∀ frame ∈ entry.1.frame?, frame.toNat < table.frameCapacity)
    {memory : Memory} {mappings : Mappings} (h : Represents table memory mappings)
    (hquiet : memory.Writing []) :
    ∃ final, Performs table memory calls (mappings.applyAll calls).1 final ∧
      Represents table final (mappings.applyAll calls).2 := by
  induction calls generalizing memory mappings with
  | nil => exact ⟨memory, .nil memory, h⟩
  | cons entry calls ih =>
      obtain ⟨call, live⟩ := entry
      obtain ⟨result, middle, hfirst, rfl, hmiddle, hquiet'⟩ :=
        h.call_reaches live hquiet hfit call (hframes _ List.mem_cons_self)
      obtain ⟨final, hrest, hfinal⟩ :=
        ih (fun other hother => hframes other (List.mem_cons_of_mem _ hother)) hmiddle hquiet'
      exact ⟨final, .cons hfirst hrest, hfinal⟩

theorem Mappings.apply_others (mappings : Mappings) (live : FrameId → Bool) {call : Call}
    {frame : FrameId} (hframe : call.frame? = some frame) :
    (mappings.apply live call).2.unmap frame = mappings.unmap frame := by
  have hunmap : (mappings.unmap frame).unmap frame = mappings.unmap frame := by
    simp [Mappings.unmap]
  have hreplace : ∀ oldTag newTag,
      (mappings.replace oldTag newTag frame).unmap frame = mappings.unmap frame := by
    intro oldTag newTag
    rw [Mappings.replace]
    split
    · rfl
    · refine Eq.trans ?_ hunmap
      simp [Mappings.unmap]
  cases call with
  | lookupFrameId tag => cases hframe
  | install tag other =>
      cases hframe
      exact hreplace ..
  | remove tag other =>
      cases hframe
      simp only [Mappings.apply, Mappings.remove]
      split
      · exact hunmap
      · rfl
  | replace oldTag newTag other =>
      cases hframe
      exact hreplace ..
  | replaceUnlessLive oldTag newTag other =>
      cases hframe
      simp only [Mappings.apply, Mappings.replaceUnlessLive]
      split
      · exact hunmap
      · exact hreplace ..

/-- Every chain ends without meeting a frame twice, and holds exactly the frames whose
`bucket_of` names it, which is the bucket of their key. -/
structure WellChained (table : Geometry) (memory : Memory) : Prop where
  chain : ∀ bucket < table.bucketCount, ∃ frames, Chain memory bucket frames ∧ frames.Nodup
  bucketOf : ∀ bucket < table.bucketCount, ∀ frames, Chain memory bucket frames →
    ∀ frame : FrameId, frame ∈ frames ↔ frame.toNat < table.frameCapacity ∧
      memory.bucketOf frame = BitVec.ofNat 32 bucket
  key : ∀ bucket < table.bucketCount, ∀ frames, Chain memory bucket frames →
    ∀ frame ∈ frames, table.bucketFor ⟨memory.keyFileId frame, memory.keyBlockId frame⟩ = bucket
  alone : ∀ bucket < table.bucketCount, ∀ other < table.bucketCount, ∀ frames others,
    Chain memory bucket frames → Chain memory other others →
    ∀ frame ∈ frames, frame ∈ others → bucket = other

theorem Represents.wellChained {table : Geometry} {memory : Memory} {mappings : Mappings}
    (h : Represents table memory mappings) (hfit : table.frameCapacity ≤ 2 ^ 31) :
    WellChained table memory := by
  have hle := bucketCount_le hfit
  have hchain : ∀ {bucket frames}, bucket < table.bucketCount → Chain memory bucket frames →
      frames = mappings.chain table bucket :=
    fun hlt hframes => hframes.unique (h.chains _ hlt)
  have hbucketOf : ∀ bucket < table.bucketCount, ∀ frame : FrameId,
      frame ∈ mappings.chain table bucket ↔ frame.toNat < table.frameCapacity ∧
        memory.bucketOf frame = BitVec.ofNat 32 bucket := by
    intro bucket hlt frame
    rw [Mappings.mem_chain]
    constructor
    · rintro ⟨tag, hmem, rfl⟩
      exact ⟨h.inRange _ hmem, h.mapped _ hmem⟩
    · rintro ⟨hframe, hof⟩
      have hsome : mappings.tagOf frame ≠ none := fun hnone =>
        ofNat_bucket_ne (by omega) (hof.symm.trans (h.unmapped frame hframe hnone))
      obtain ⟨tag, htag⟩ := Option.ne_none_iff_exists'.mp hsome
      have hmem := Mappings.mem_of_tagOf htag
      have hlt' := bucketFor_lt table tag
      exact ⟨tag, hmem, ofNat_bucket_inj (by omega) (by omega) ((h.mapped _ hmem).symm.trans hof)⟩
  refine ⟨?_, ?_, ?_, ?_⟩
  · exact fun bucket hlt => ⟨_, h.chains bucket hlt, (h.chains bucket hlt).nodup⟩
  · intro bucket hlt frames hframes
    exact hchain hlt hframes ▸ hbucketOf bucket hlt
  · intro bucket hlt frames hframes frame hmem
    obtain ⟨tag, hentry, rfl⟩ := Mappings.mem_chain.mp (hchain hlt hframes ▸ hmem)
    rw [(h.keys _ hentry).1, (h.keys _ hentry).2]
  · intro bucket hlt other hother frames others hframes hothers frame hmem hmem'
    have hof := ((hbucketOf bucket hlt frame).mp (hchain hlt hframes ▸ hmem)).2
    have hof' := ((hbucketOf other hother frame).mp (hchain hother hothers ▸ hmem')).2
    exact ofNat_bucket_inj (by omega) (by omega) (hof.symm.trans hof')

/-- The table is a map from frames to tags that lists the frame linked last first: calls made
one after the other end, and they return and leave what they do on the map. -/
theorem page_table_is_multimap (table : Geometry)
    (hfit : table.frameCapacity ≤ 2 ^ 31) (calls : List (Call × (FrameId → Bool)))
    (hframes : ∀ entry ∈ calls, ∀ frame ∈ entry.1.frame?, frame.toNat < table.frameCapacity) :
    let (results, mappings) := Mappings.applyAll [] calls
    ∃ memory, (∀ returned final, Performs table {} calls returned final ↔
        returned = results ∧ final = memory) ∧
      Represents table memory mappings ∧ WellChained table memory ∧
      ∀ live call frame, call.frame? = some frame →
        (mappings.apply live call).2.unmap frame = mappings.unmap frame := by
  have hempty : ({} : Memory).Writing [] := ⟨fun _ _ => rfl, fun _ => rfl⟩
  obtain ⟨memory, hperforms, hrepresents⟩ :=
    (represents_empty table).performs hfit hframes hempty
  refine ⟨memory, fun returned final => ⟨fun h => h.unique hperforms, ?_⟩, hrepresents,
    hrepresents.wellChained hfit, fun live call frame => Mappings.apply_others _ live⟩
  rintro ⟨rfl, rfl⟩
  exact hperforms

/-- Two frames under one tag: the lookups give the one linked last, a live frame keeps the other
out, and the older one comes back when the newer is removed. -/
theorem page_table_is_multimap_pair :
    ∃ memory, Performs ⟨2, 1⟩ {}
      [(.install ⟨1, 7⟩ 0, fun _ => false), (.install ⟨1, 7⟩ 1, fun _ => false),
        (.lookupFrameId ⟨1, 7⟩, fun _ => false),
        (.replaceUnlessLive (some ⟨1, 7⟩) ⟨1, 7⟩ 1, fun _ => true),
        (.lookupFrameId ⟨1, 7⟩, fun _ => false)]
      [none, none, some 1, some 0, some 0] memory := by
  obtain ⟨memory, hperforms, -⟩ := page_table_is_multimap ⟨2, 1⟩ (by decide)
    [(.install ⟨1, 7⟩ 0, fun _ => false), (.install ⟨1, 7⟩ 1, fun _ => false),
      (.lookupFrameId ⟨1, 7⟩, fun _ => false),
      (.replaceUnlessLive (some ⟨1, 7⟩) ⟨1, 7⟩ 1, fun _ => true),
      (.lookupFrameId ⟨1, 7⟩, fun _ => false)]
    (by simp [Call.frame?])
  exact ⟨memory, (hperforms _ memory).mpr ⟨by decide, rfl⟩⟩

end TelePath.PageTableWords
