import Mathlib.Data.List.Perm.Subperm
import TelePath.Buffer.PageTableWords
import TelePath.Logic.LinkedList
import TelePath.Logic.RelyGuarantee

/-!
What holds of the words of the page table at every instant, and what a thread may rely
on while other threads change them.

Every chain is a list at every instant, and a frame on the chain of a bucket has that
bucket in `bucket_of_`.  A chain, and the links and keys of the frames on it, only change
while the sequence of its stripe is odd, by the thread that holds the lock of the stripe.
-/

namespace TelePath.PageTableWords

open Logic

/-! ### Sizes -/

theorem bitCeil_le {size exponent : Nat} (hsize : size ≤ 2 ^ exponent) (hlt : exponent < 64) :
    bitCeil size ≤ 2 ^ exponent := by
  have hfound : ∃ i, ((List.range 64).find? fun i => size ≤ 2 ^ i) = some i ∧ i ≤ exponent := by
    cases hfind : (List.range 64).find? fun i => size ≤ 2 ^ i with
    | none =>
        rw [List.find?_eq_none] at hfind
        exact absurd hsize (by simpa using hfind exponent (List.mem_range.mpr hlt))
    | some i =>
        refine ⟨i, rfl, ?_⟩
        by_contra hgreater
        rw [List.find?_range_eq_some] at hfind
        exact absurd hsize (by simpa using hfind.2.2 exponent (not_le.mp hgreater))
  obtain ⟨i, hi, hle⟩ := hfound
  rw [bitCeil, hi]
  exact Nat.pow_le_pow_right (by decide) hle

theorem bucketCount_pos (table : Geometry) : 0 < table.bucketCount := Nat.two_pow_pos _

theorem bucketCount_le {table : Geometry} (hcapacity : table.frameCapacity ≤ 2 ^ 31) :
    table.bucketCount ≤ 2 ^ 31 :=
  bitCeil_le (max_le hcapacity (by decide)) (by decide)

theorem bucketFor_lt (table : Geometry) (tag : BufferTag) :
    table.bucketFor tag < table.bucketCount := by
  have hle : table.bucketFor tag ≤ table.bucketCount - 1 := Nat.and_le_right
  have hpos := bucketCount_pos table
  omega

theorem stripeFor_lt (table : Geometry) (bucket : Nat) :
    table.stripeFor bucket < table.stripes :=
  Nat.mod_lt _ (Nat.lt_of_lt_of_le Nat.zero_lt_one (Nat.le_max_right ..))

/-! ### Chains -/

def Chain (memory : Memory) (bucket : Nat) (frames : List FrameId) : Prop :=
  Linked memory.next kNone (memory.heads bucket) frames

def Off (table : Geometry) (memory : Memory) (frame : FrameId) : Prop :=
  ∀ bucket < table.bucketCount, ∀ frames, Chain memory bucket frames → frame ∉ frames

/-- A link that may be followed. -/
def Valid (table : Geometry) (frame : FrameId) : Prop :=
  frame = kNone ∨ frame.toNat < table.frameCapacity

theorem walk_eq {memory : Memory} {tag : BufferTag} {frames : List FrameId} {start : FrameId}
    (h : Linked memory.next kNone start frames) {steps : Nat} (hsteps : frames.length ≤ steps) :
    memory.walk tag steps start = frames.find? fun frame => memory.mapsTo frame tag := by
  induction frames generalizing start steps with
  | nil =>
      obtain rfl : start = kNone := h
      cases steps with
      | zero => rfl
      | succ steps => rw [Memory.walk, if_pos rfl, List.find?_nil]
  | cons frame frames ih =>
      obtain ⟨rfl, hne, hrest⟩ := h
      cases steps with
      | zero => simp at hsteps
      | succ steps =>
          rw [Memory.walk, if_neg hne, List.find?_cons]
          split
          · rename_i hmaps
            rw [hmaps]
          · rename_i hmaps
            rw [Bool.not_eq_true] at hmaps
            rw [hmaps]
            exact ih hrest (Nat.le_of_succ_le_succ hsteps)

/-- The chain of a bucket is the same in both memories, with its links and keys. -/
structure Same (before after : Memory) (bucket : Nat) : Prop where
  heads : after.heads bucket = before.heads bucket
  next : ∀ frames, Chain before bucket frames → ∀ frame ∈ frames,
    after.next frame = before.next frame
  maps : ∀ frames, Chain before bucket frames → ∀ frame ∈ frames,
    after.keyFileId frame = before.keyFileId frame ∧
      after.keyBlockId frame = before.keyBlockId frame

theorem Same.refl (memory : Memory) (bucket : Nat) : Same memory memory bucket :=
  ⟨rfl, fun _ _ _ _ => rfl, fun _ _ _ _ => ⟨rfl, rfl⟩⟩

theorem Same.chain {before after : Memory} {bucket : Nat} (h : Same before after bucket)
    {frames : List FrameId} (hchain : Chain before bucket frames) : Chain after bucket frames := by
  rw [Chain, h.heads]
  exact Linked.congr hchain (h.next frames hchain)

theorem Same.mapsTo {before after : Memory} {bucket : Nat} (h : Same before after bucket)
    {frames : List FrameId} (hchain : Chain before bucket frames) {frame : FrameId}
    (hmem : frame ∈ frames) (tag : BufferTag) :
    after.mapsTo frame tag = before.mapsTo frame tag := by
  obtain ⟨hfile, hblock⟩ := h.maps frames hchain frame hmem
  rw [Memory.mapsTo, Memory.mapsTo, hfile, hblock]

theorem Off.same {table : Geometry} {before after : Memory} {frame : FrameId}
    (h : Off table before frame)
    (hchains : ∀ bucket < table.bucketCount, ∃ frames, Chain before bucket frames)
    (hsame : ∀ bucket < table.bucketCount, Same before after bucket) : Off table after frame := by
  intro bucket hbucket frames hframes
  obtain ⟨old, hold⟩ := hchains bucket hbucket
  rw [Linked.unique hframes ((hsame bucket hbucket).chain hold)]
  exact h bucket hbucket old hold

section States

variable {Thread : Type} (table : Geometry)

/-- What holds at every instant. -/
structure Consistent (state : State Thread) : Prop where
  chains : ∀ bucket < table.bucketCount, ∃ frames, Chain state.memory bucket frames ∧
    ∀ frame ∈ frames, frame.toNat < table.frameCapacity ∧
      state.memory.bucketOf frame = BitVec.ofNat 32 bucket
  nexts : ∀ frame : FrameId, frame.toNat < table.frameCapacity →
    Valid table (state.memory.next frame)
  buckets : ∀ frame : FrameId, frame.toNat < table.frameCapacity →
    state.memory.bucketOf frame = kNone ∨
      (state.memory.bucketOf frame).toNat < table.bucketCount
  locks : ∀ stripe, state.memory.lock stripe = if state.holder stripe = none then 0 else 1
  sequences : ∀ stripe, state.memory.sequence stripe = BitVec.ofNat 32 (state.increments stripe)
  quiet : ∀ stripe, state.holder stripe = none → state.increments stripe % 2 = 0

/-- What a thread may rely on while other threads act. -/
structure Rely (thread : Thread) (state next : State Thread) : Prop where
  held : ∀ stripe, state.holder stripe = some thread ↔ next.holder stripe = some thread
  heldIncrements : ∀ stripe, state.holder stripe = some thread →
    next.increments stripe = state.increments stripe
  monotone : ∀ stripe, state.increments stripe ≤ next.increments stripe
  chains : ∀ bucket < table.bucketCount,
    state.holder (table.stripeFor bucket) = some thread ∨
      next.increments (table.stripeFor bucket) = state.increments (table.stripeFor bucket) ∧
        state.increments (table.stripeFor bucket) % 2 = 0 →
    Same state.memory next.memory bucket
  owned : ∀ frame, state.owner frame = some thread → next.owner frame = some thread ∧
    next.memory.bucketOf frame = state.memory.bucketOf frame
  links : ∀ frame, state.owner frame = some thread →
    state.memory.bucketOf frame = kNone ∨
      state.holder (table.stripeFor (state.memory.bucketOf frame).toNat) = some thread →
    next.memory.next frame = state.memory.next frame
  off : ∀ frame, state.owner frame = some thread → Off table state.memory frame →
    Off table next.memory frame
  entered : next.entered thread = state.entered thread
  lookups : next.lookups thread = state.lookups thread
  answers : ∀ answer ∈ state.answers thread, answer ∈ next.answers thread

variable {table} {state next : State Thread} {thread : Thread}

theorem Consistent.chain_exists (h : Consistent table state) :
    ∀ bucket < table.bucketCount, ∃ frames, Chain state.memory bucket frames :=
  fun bucket hbucket => (h.chains bucket hbucket).imp fun _ hframes => hframes.1

theorem Consistent.mem_chain (h : Consistent table state) {bucket : Nat}
    (hbucket : bucket < table.bucketCount) {frames : List FrameId}
    (hchain : Chain state.memory bucket frames) {frame : FrameId} (hmem : frame ∈ frames) :
    frame.toNat < table.frameCapacity ∧ state.memory.bucketOf frame = BitVec.ofNat 32 bucket := by
  obtain ⟨others, hothers, hall⟩ := h.chains bucket hbucket
  rw [Linked.unique hchain hothers] at hmem
  exact hall frame hmem

theorem Consistent.length_le (h : Consistent table state) {bucket : Nat}
    (hbucket : bucket < table.bucketCount) {frames : List FrameId}
    (hchain : Chain state.memory bucket frames) : frames.length ≤ table.frameCapacity := by
  have hnodup : (frames.map BitVec.toNat).Nodup :=
    (Linked.nodup hchain).map fun _ _ heq => BitVec.eq_of_toNat_eq heq
  have hsubset : frames.map BitVec.toNat ⊆ List.range table.frameCapacity := by
    intro index hindex
    obtain ⟨frame, hframe, rfl⟩ := List.mem_map.mp hindex
    exact List.mem_range.mpr (h.mem_chain hbucket hchain hframe).1
  simpa using (hnodup.subperm hsubset).length_le

theorem Consistent.firstMatch_eq (h : Consistent table state) {tag : BufferTag}
    {frames : List FrameId} (hchain : Chain state.memory (table.bucketFor tag) frames) :
    state.memory.firstMatch table tag =
      frames.find? fun frame => state.memory.mapsTo frame tag :=
  walk_eq hchain (h.length_le (bucketFor_lt table tag) hchain)

theorem Consistent.valid_head (h : Consistent table state) {bucket : Nat}
    (hbucket : bucket < table.bucketCount) : Valid table (state.memory.heads bucket) := by
  obtain ⟨frames, hchain, hall⟩ := h.chains bucket hbucket
  cases frames with
  | nil => exact .inl hchain
  | cons frame frames =>
      have hhead : state.memory.heads bucket = frame := hchain.1
      rw [hhead]
      exact .inr (hall frame List.mem_cons_self).1

theorem ofNat_bucket_inj {first second : Nat} (hfirst : first < 2 ^ 32) (hsecond : second < 2 ^ 32)
    (h : BitVec.ofNat 32 first = BitVec.ofNat 32 second) : first = second := by
  have hnat := congrArg BitVec.toNat h
  rwa [BitVec.toNat_ofNat, BitVec.toNat_ofNat, Nat.mod_eq_of_lt hfirst,
    Nat.mod_eq_of_lt hsecond] at hnat

theorem toNat_ofNat_bucket {bucket : Nat} (hlt : bucket < 2 ^ 32) :
    (BitVec.ofNat 32 bucket).toNat = bucket := by
  rw [BitVec.toNat_ofNat, Nat.mod_eq_of_lt hlt]

theorem ofNat_bucket_ne {bucket : Nat} (hlt : bucket < 2 ^ 31) :
    BitVec.ofNat 32 bucket ≠ kNone := by
  intro h
  have hnat := congrArg BitVec.toNat h
  rw [toNat_ofNat_bucket (by omega)] at hnat
  have hnone : kNone.toNat = 2 ^ 32 - 1 := by decide
  omega

theorem Consistent.off_of_none (h : Consistent table state) (hfit : table.bucketCount ≤ 2 ^ 31)
    {frame : FrameId} (hnone : state.memory.bucketOf frame = kNone) :
    Off table state.memory frame := by
  intro bucket hbucket frames hchain hmem
  have hbucketOf := (h.mem_chain hbucket hchain hmem).2
  rw [hnone] at hbucketOf
  exact ofNat_bucket_ne (by omega) hbucketOf.symm

theorem Consistent.off_of_notMem (h : Consistent table state) (hfit : table.bucketCount ≤ 2 ^ 31)
    {frame : FrameId} {bucket : Nat} (hbucket : bucket < table.bucketCount)
    (hof : state.memory.bucketOf frame = BitVec.ofNat 32 bucket) {frames : List FrameId}
    (hchain : Chain state.memory bucket frames) (hmem : frame ∉ frames) :
    Off table state.memory frame := by
  intro other hother others hothers hin
  have hsame : bucket = other :=
    ofNat_bucket_inj (by omega) (by omega) (hof.symm.trans (h.mem_chain hother hothers hin).2)
  subst hsame
  rw [Linked.unique hothers hchain] at hin
  exact hmem hin

/-! ### Steps that other threads can live with -/

theorem Rely.of_memory (hholder : next.holder = state.holder)
    (hincrements : next.increments = state.increments) (howner : next.owner = state.owner)
    (hentered : next.entered thread = state.entered thread)
    (hlookups : next.lookups thread = state.lookups thread)
    (hanswers : ∀ answer ∈ state.answers thread, answer ∈ next.answers thread)
    (hmemory : next.memory = state.memory) : Rely table thread state next where
  held stripe := by rw [hholder]
  heldIncrements stripe _ := by rw [hincrements]
  monotone stripe := by rw [hincrements]
  chains bucket _ _ := by
    rw [hmemory]
    exact Same.refl _ bucket
  owned frame hframe := by
    rw [howner, hmemory]
    exact ⟨hframe, rfl⟩
  links frame _ _ := by rw [hmemory]
  off frame _ hoff := by
    rw [hmemory]
    exact hoff
  entered := hentered
  lookups := hlookups
  answers := hanswers

theorem mem_note {answer : Option FrameId} (h : answer ∈ state.answers thread) :
    answer ∈ (state.note table).answers thread := by
  simp only [State.note]
  split
  · exact h
  · exact List.mem_cons_of_mem _ h

theorem Rely.note (h : Rely table thread state next) :
    Rely table thread state (next.note table) where
  held := h.held
  heldIncrements := h.heldIncrements
  monotone := h.monotone
  chains := h.chains
  owned := h.owned
  links := h.links
  off := h.off
  entered := h.entered
  lookups := h.lookups
  answers answer hanswer := mem_note (h.answers answer hanswer)

theorem Consistent.note (h : Consistent table state) : Consistent table (state.note table) :=
  ⟨h.chains, h.nexts, h.buckets, h.locks, h.sequences, h.quiet⟩

theorem detached_step (h : Consistent table state) {frame : FrameId} {memory : Memory}
    (howner : state.owner frame = some thread) (hoff : Off table state.memory frame)
    (hheads : memory.heads = state.memory.heads)
    (hnext : ∀ other, other ≠ frame → memory.next other = state.memory.next other)
    (hbucket : ∀ other, other ≠ frame → memory.bucketOf other = state.memory.bucketOf other)
    (hfile : ∀ other, other ≠ frame → memory.keyFileId other = state.memory.keyFileId other)
    (hblock : ∀ other, other ≠ frame → memory.keyBlockId other = state.memory.keyBlockId other)
    (hlock : memory.lock = state.memory.lock) (hsequence : memory.sequence = state.memory.sequence)
    (hvalid : frame.toNat < table.frameCapacity → Valid table (memory.next frame))
    (hplace : frame.toNat < table.frameCapacity →
      memory.bucketOf frame = kNone ∨ (memory.bucketOf frame).toNat < table.bucketCount) :
    Consistent table { state with memory } ∧
      (∀ other, other ≠ thread → Rely table other state { state with memory }) ∧
      Off table memory frame := by
  have hne : ∀ bucket < table.bucketCount, ∀ frames, Chain state.memory bucket frames →
      ∀ other ∈ frames, other ≠ frame := by
    rintro bucket hlt frames hchain other hother rfl
    exact hoff bucket hlt frames hchain hother
  have hsame : ∀ bucket < table.bucketCount, Same state.memory memory bucket := by
    intro bucket hlt
    refine ⟨by rw [hheads], ?_, ?_⟩
    · intro frames hchain other hother
      exact hnext other (hne bucket hlt frames hchain other hother)
    · intro frames hchain other hother
      have hother := hne bucket hlt frames hchain other hother
      exact ⟨hfile other hother, hblock other hother⟩
  refine ⟨⟨?_, ?_, ?_, ?_, ?_, h.quiet⟩, ?_, hoff.same h.chain_exists hsame⟩
  · intro bucket hlt
    obtain ⟨frames, hchain, hall⟩ := h.chains bucket hlt
    refine ⟨frames, (hsame bucket hlt).chain hchain, fun other hother => ?_⟩
    rw [hbucket other (hne bucket hlt frames hchain other hother)]
    exact hall other hother
  · intro other hother
    by_cases heq : other = frame
    · subst heq
      exact hvalid hother
    · rw [hnext other heq]
      exact h.nexts other hother
  · intro other hother
    by_cases heq : other = frame
    · subst heq
      exact hplace hother
    · rw [hbucket other heq]
      exact h.buckets other hother
  · rw [hlock]
    exact h.locks
  · rw [hsequence]
    exact h.sequences
  · intro other hother
    have hmine : ∀ third, state.owner third = some other → third ≠ frame := by
      rintro third hthird rfl
      exact hother (Option.some.inj (hthird.symm.trans howner))
    exact {
      held := fun _ => Iff.rfl
      heldIncrements := fun _ _ => rfl
      monotone := fun _ => le_rfl
      chains := fun bucket hlt _ => hsame bucket hlt
      owned := fun third hthird => ⟨hthird, hbucket third (hmine third hthird)⟩
      links := fun third hthird _ => hnext third (hmine third hthird)
      off := fun third _ hthird => hthird.same h.chain_exists hsame
      entered := rfl
      lookups := rfl
      answers := fun _ hanswer => hanswer }

theorem chain_step (h : Consistent table state) (hfit : table.bucketCount ≤ 2 ^ 31) {bucket : Nat}
    (hbucket : bucket < table.bucketCount)
    (hholder : state.holder (table.stripeFor bucket) = some thread)
    (hodd : state.increments (table.stripeFor bucket) % 2 = 1) {memory : Memory}
    {frames frames' : List FrameId} (hold : Chain state.memory bucket frames)
    (hnew : Chain memory bucket frames')
    (hheads : ∀ other, other ≠ bucket → memory.heads other = state.memory.heads other)
    (hnext : ∀ frame, frame ∉ frames → memory.next frame = state.memory.next frame)
    (hbucketOf : memory.bucketOf = state.memory.bucketOf)
    (hfile : memory.keyFileId = state.memory.keyFileId)
    (hblock : memory.keyBlockId = state.memory.keyBlockId)
    (hlock : memory.lock = state.memory.lock) (hsequence : memory.sequence = state.memory.sequence)
    (hmem : ∀ frame ∈ frames', (frame ∈ frames ∨ state.owner frame = some thread) ∧
      frame.toNat < table.frameCapacity ∧
      state.memory.bucketOf frame = BitVec.ofNat 32 bucket)
    (hvalid : ∀ frame : FrameId, frame.toNat < table.frameCapacity →
      Valid table (memory.next frame)) :
    Consistent table { state with memory } ∧
      ∀ other, other ≠ thread → Rely table other state { state with memory } := by
  have hsame : ∀ other < table.bucketCount, other ≠ bucket → Same state.memory memory other := by
    intro other hother hne
    refine ⟨hheads other hne, ?_, fun _ _ _ _ => by rw [hfile, hblock]; exact ⟨rfl, rfl⟩⟩
    intro others hothers frame hframe
    refine hnext frame fun hin => hne ?_
    exact ofNat_bucket_inj (by omega) (by omega)
      ((h.mem_chain hother hothers hframe).2.symm.trans (h.mem_chain hbucket hold hin).2)
  refine ⟨⟨?_, hvalid, ?_, ?_, ?_, h.quiet⟩, ?_⟩
  · intro other hother
    by_cases heq : other = bucket
    · subst heq
      refine ⟨frames', hnew, fun frame hframe => ?_⟩
      rw [hbucketOf]
      exact (hmem frame hframe).2
    · obtain ⟨others, hothers, hall⟩ := h.chains other hother
      refine ⟨others, (hsame other hother heq).chain hothers, ?_⟩
      rw [hbucketOf]
      exact hall
  · rw [hbucketOf]
    exact h.buckets
  · rw [hlock]
    exact h.locks
  · rw [hsequence]
    exact h.sequences
  · intro other hother
    exact {
      held := fun _ => Iff.rfl
      heldIncrements := fun _ _ => rfl
      monotone := fun _ => le_rfl
      chains := by
        intro third hthird hright
        refine hsame third hthird ?_
        rintro rfl
        rcases hright with hheld | ⟨-, heven⟩
        · exact hother (Option.some.inj (hheld.symm.trans hholder))
        · omega
      owned := fun frame hframe => ⟨hframe, by rw [hbucketOf]⟩
      links := by
        intro frame hframe hright
        refine hnext frame fun hin => ?_
        have hof := (h.mem_chain hbucket hold hin).2
        rcases hright with hnone | hheld
        · exact ofNat_bucket_ne (by omega) (hof.symm.trans hnone)
        · rw [hof, toNat_ofNat_bucket (by omega)] at hheld
          exact hother (Option.some.inj (hheld.symm.trans hholder))
      off := by
        intro frame hframe hoff third hthird others hothers hin
        by_cases heq : third = bucket
        · subst heq
          rw [Linked.unique hothers hnew] at hin
          rcases (hmem frame hin).1 with hbefore | howner
          · exact hoff third hthird frames hold hbefore
          · exact hother (Option.some.inj (hframe.symm.trans howner))
        · obtain ⟨old, hchain⟩ := h.chain_exists third hthird
          rw [Linked.unique hothers ((hsame third hthird heq).chain hchain)] at hin
          exact hoff third hthird old hchain hin
      entered := rfl
      lookups := rfl
      answers := fun _ hanswer => hanswer }

theorem stripe_step (h : Consistent table state) (hheads : next.memory.heads = state.memory.heads)
    (hnext : next.memory.next = state.memory.next)
    (hbucketOf : next.memory.bucketOf = state.memory.bucketOf)
    (hfile : next.memory.keyFileId = state.memory.keyFileId)
    (hblock : next.memory.keyBlockId = state.memory.keyBlockId)
    (howner : next.owner = state.owner)
    (hentered : ∀ other, other ≠ thread → next.entered other = state.entered other)
    (hlookups : next.lookups = state.lookups) (hanswers : next.answers = state.answers)
    (hlocks : ∀ stripe, next.memory.lock stripe = if next.holder stripe = none then 0 else 1)
    (hsequences : ∀ stripe,
      next.memory.sequence stripe = BitVec.ofNat 32 (next.increments stripe))
    (hquiet : ∀ stripe, next.holder stripe = none → next.increments stripe % 2 = 0)
    (hholder : ∀ stripe, next.holder stripe = state.holder stripe ∨
      (state.holder stripe = none ∨ state.holder stripe = some thread) ∧
        (next.holder stripe = none ∨ next.holder stripe = some thread))
    (hincrements : ∀ stripe, next.increments stripe = state.increments stripe ∨
      state.holder stripe = some thread ∧
        next.increments stripe = state.increments stripe + 1) :
    Consistent table next ∧ ∀ other, other ≠ thread → Rely table other state next := by
  have hsame : ∀ bucket, Same state.memory next.memory bucket := by
    intro bucket
    refine ⟨by rw [hheads], fun _ _ _ _ => by rw [hnext], fun _ _ _ _ => ?_⟩
    rw [hfile, hblock]
    exact ⟨rfl, rfl⟩
  refine ⟨⟨?_, ?_, ?_, hlocks, hsequences, hquiet⟩, ?_⟩
  · intro bucket hbucket
    obtain ⟨frames, hchain, hall⟩ := h.chains bucket hbucket
    refine ⟨frames, (hsame bucket).chain hchain, ?_⟩
    rw [hbucketOf]
    exact hall
  · rw [hnext]
    exact h.nexts
  · rw [hbucketOf]
    exact h.buckets
  · intro other hother
    have hne : some thread ≠ some other := fun heq => hother (Option.some.inj heq).symm
    exact {
      held := by
        intro stripe
        rcases hholder stripe with heq | ⟨hbefore, hafter⟩
        · rw [heq]
        · rcases hbefore with hbefore | hbefore <;> rcases hafter with hafter | hafter <;>
            simp [hbefore, hafter, Ne.symm hother]
      heldIncrements := by
        intro stripe hheld
        rcases hincrements stripe with heq | ⟨hmine, -⟩
        · exact heq
        · exact absurd (hmine.symm.trans hheld) hne
      monotone := by
        intro stripe
        rcases hincrements stripe with heq | ⟨-, heq⟩ <;> omega
      chains := fun bucket _ _ => hsame bucket
      owned := fun frame hframe => by
        rw [howner, hbucketOf]
        exact ⟨hframe, rfl⟩
      links := fun frame _ _ => by rw [hnext]
      off := fun frame _ hoff => hoff.same h.chain_exists fun bucket _ => hsame bucket
      entered := hentered other hother
      lookups := by rw [hlookups]
      answers := fun _ hanswer => by
        rw [hanswers]
        exact hanswer }

end States

end TelePath.PageTableWords
