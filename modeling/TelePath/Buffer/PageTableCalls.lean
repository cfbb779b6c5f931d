import TelePath.Buffer.PageTableWriters

/-!
The calls of writers as a whole: a writer enters the stripes of the old and the new bucket
of its frame, which no other thread can change, works on the chains of these buckets, and
leaves the stripes.
-/

namespace TelePath.PageTableWords

open Logic Program

variable {Thread : Type} {table : Geometry} {thread : Thread} {stripes : List Nat}
  {frame : FrameId} {bucket : BitVec 32} {stripe : Nat}

/-! ### Stripes -/

/-- The thread holds the lock of the stripe, whose sequence has the given parity. -/
def Holds (thread : Thread) (stripe parity : Nat) (state : State Thread) : Prop :=
  state.holder stripe = some thread ∧ state.increments stripe % 2 = parity

theorem Writes.of_subset {fewer : List Nat} {state : State Thread}
    (h : Writes thread stripes frame bucket state) (hsubset : fewer ⊆ stripes) :
    Writes thread fewer frame bucket state :=
  ⟨fun stripe hstripe => h.holding stripe (hsubset hstripe), h.owner, h.bucketOf⟩

theorem take_step {state : State Thread} (hstate : Consistent table state)
    (hfree : state.holder stripe = none) :
    let next : State Thread := { state with
      memory := { state.memory with lock := Function.update state.memory.lock stripe 1 }
      holder := Function.update state.holder stripe (some thread) }
    Consistent table next ∧ ∀ other, other ≠ thread → Rely table other state next := by
  refine stripe_step hstate rfl rfl rfl rfl rfl rfl (fun _ _ => rfl) rfl rfl ?_ hstate.sequences
    ?_ ?_ fun _ => .inl rfl
  · intro other
    by_cases heq : other = stripe <;> simp [heq, hstate.locks]
  · intro other hother
    exact hstate.quiet other (by grind)
  · intro other
    by_cases heq : other = stripe
    · exact .inr ⟨.inl (heq ▸ hfree), .inr (by simp [heq])⟩
    · exact .inl (Function.update_of_ne heq ..)

theorem increment_step {state : State Thread} (hstate : Consistent table state)
    (hheld : state.holder stripe = some thread) :
    let next : State Thread := { state with
      memory := { state.memory with
        sequence := Function.update state.memory.sequence stripe
          (BitVec.ofNat 32 (state.increments stripe) + 1) }
      increments := Function.update state.increments stripe (state.increments stripe + 1) }
    Consistent table next ∧ ∀ other, other ≠ thread → Rely table other state next := by
  refine stripe_step hstate rfl rfl rfl rfl rfl rfl (fun _ _ => rfl) rfl rfl hstate.locks ?_ ?_
    (fun _ => .inl rfl) ?_
  · intro other
    by_cases heq : other = stripe <;> simp [heq, hstate.sequences, BitVec.ofNat_add]
  · intro other hother
    have hquiet := hstate.quiet other hother
    grind
  · intro other
    by_cases heq : other = stripe
    · exact .inr ⟨heq ▸ hheld, by simp [heq]⟩
    · exact .inl (Function.update_of_ne heq ..)

theorem release_step {state : State Thread} (hstate : Consistent table state)
    (hholds : Holds thread stripe 0 state) :
    let next : State Thread := { state with
      memory := { state.memory with lock := Function.update state.memory.lock stripe 0 }
      holder := Function.update state.holder stripe none }
    Consistent table next ∧ ∀ other, other ≠ thread → Rely table other state next := by
  refine stripe_step hstate rfl rfl rfl rfl rfl rfl (fun _ _ => rfl) rfl rfl ?_ hstate.sequences
    ?_ ?_ fun _ => .inl rfl
  · intro other
    by_cases heq : other = stripe <;> simp [heq, hstate.locks]
  · intro other hother
    have hquiet := hstate.quiet other
    grind [Holds]
  · intro other
    by_cases heq : other = stripe
    · exact .inr ⟨.inr (heq ▸ hholds.1), .inl (by simp [heq])⟩
    · exact .inl (Function.update_of_ne heq ..)

variable [DecidableEq Thread]

theorem stable_holds {parity : Nat} :
    (protocol table).Stable thread (Holds thread stripe parity) := by
  intro state next _ _ hrely h
  exact ⟨(hrely.held stripe).mp h.1, (congrArg (· % 2) (hrely.heldIncrements stripe h.1)).trans h.2⟩

theorem stable_exchanged {word : BitVec 32} :
    (protocol table).Stable thread fun state => Writes thread stripes frame bucket state ∧
      (word = 0 → Holds thread stripe 0 state) := by
  intro state next hstate hnext hrely h
  exact ⟨h.1.rely hrely, fun hword => stable_holds state next hstate hnext hrely (h.2 hword)⟩

theorem exchangeLock_upholds (hstripe : stripe < table.stripes) :
    (protocol table).Upholds thread (access (.exchangeLock stripe))
      (fun word state => Writes thread stripes frame bucket state ∧
        (word = 0 → Holds thread stripe 0 state))
      (Writes thread stripes frame bucket) := by
  refine upholds_access _ stable_writes (fun _ => stable_exchanged) (fun _ _ _ => hstripe) ?_
  intro state choice hstate h
  have hlock := hstate.locks stripe
  by_cases hfree : state.holder stripe = none
  · rw [if_pos hfree] at hlock
    refine ⟨_, ?_, take_step hstate hfree, ⟨?_, h.owner, h.bucketOf⟩, fun _ => ?_⟩
    · rw [State.after, State.track, if_pos hlock]
      rfl
    · intro other hother
      have hne : other ≠ stripe := by
        rintro rfl
        exact absurd ((h.holding other hother).1.symm.trans hfree) (Option.some_ne_none thread)
      simp only [Function.update_of_ne hne]
      exact h.holding other hother
    · exact ⟨Function.update_self .., hstate.quiet stripe hfree⟩
  · rw [if_neg hfree] at hlock
    have hne : state.memory.lock stripe ≠ 0 := by
      rw [hlock]
      decide
    refine ⟨state, ?_, ⟨hstate, fun other _ => Rely.of_memory rfl rfl rfl rfl rfl
      (fun _ hanswer => hanswer) rfl⟩, h, fun hword => absurd hword hne⟩
    rw [State.after, State.track, if_neg hne]
    simp only [Memory.perform, ← hlock, Function.update_eq_self]

theorem lockStripeWord_upholds (hstripe : stripe < table.stripes) :
    (protocol table).Upholds thread (lockStripeWord stripe)
      (fun _ state => Writes thread stripes frame bucket state ∧ Holds thread stripe 0 state)
      (Writes thread stripes frame bucket) := by
  have hstable : (protocol table).Stable thread fun state =>
      Writes thread stripes frame bucket state ∧ Holds thread stripe 0 state :=
    stable_writes.and stable_holds
  refine Protocol.upholds_forever (fun _ => hstable) ?_
  refine (exchangeLock_upholds hstripe).seq fun word => ?_
  by_cases hword : word = 0
  · rw [if_pos hword]
    exact Protocol.upholds_pure stable_exchanged fun _ _ h => ⟨h.1, h.2 hword⟩
  · rw [if_neg hword]
    have hspin : (protocol table).Upholds thread
        (do
          let word ← access (.loadLock stripe)
          if word = 0 then return some () else return none)
        (fun _ => Writes thread stripes frame bucket) (Writes thread stripes frame bucket) := by
      refine (upholds_load (.loadLock stripe) rfl stable_writes (fun _ => stable_writes)
        (fun _ _ _ => hstripe) fun _ _ _ h => h).seq fun word => ?_
      split
      · exact Protocol.upholds_pure stable_writes fun _ _ h => h
      · exact Protocol.upholds_pure stable_writes fun _ _ h => h
    have hloop := Protocol.upholds_forever (fun _ => stable_writes)
      (hspin.mono fun result _ _ h => by cases result <;> exact h)
    exact (hloop.strengthen stable_exchanged fun _ _ h => h.1).seq fun _ =>
      Protocol.upholds_pure stable_writes fun _ _ h => h

theorem stable_sequence {parity : Nat} {sequence : BitVec 32} :
    (protocol table).Stable thread fun state => (Writes thread stripes frame bucket state ∧
      Holds thread stripe parity state) ∧
        sequence = BitVec.ofNat 32 (state.increments stripe) := by
  intro state next hstate hnext hrely h
  refine ⟨(stable_writes.and stable_holds) state next hstate hnext hrely h.1, ?_⟩
  rw [hrely.heldIncrements stripe h.1.2.1]
  exact h.2

theorem loadSequence_upholds {parity : Nat} (hstripe : stripe < table.stripes) :
    (protocol table).Upholds thread (access (.loadSequence stripe))
      (fun sequence state => (Writes thread stripes frame bucket state ∧
        Holds thread stripe parity state) ∧
          sequence = BitVec.ofNat 32 (state.increments stripe))
      (fun state => Writes thread stripes frame bucket state ∧
        Holds thread stripe parity state) := by
  refine upholds_load _ rfl (stable_writes.and stable_holds) (fun sequence => stable_sequence)
    (fun _ _ _ => hstripe) fun state _ hstate h => ⟨h, hstate.sequences stripe⟩

theorem storeSequence_upholds {parity : Nat} {sequence : BitVec 32}
    (hstripe : stripe < table.stripes) (hmem : stripe ∉ stripes) :
    (protocol table).Upholds thread (access (.storeSequence stripe (sequence + 1)))
      (fun _ state => Writes thread stripes frame bucket state ∧
        Holds thread stripe ((parity + 1) % 2) state)
      (fun state => (Writes thread stripes frame bucket state ∧
        Holds thread stripe parity state) ∧
          sequence = BitVec.ofNat 32 (state.increments stripe)) := by
  refine upholds_store _ stable_sequence (stable_writes.and stable_holds) (fun _ _ _ => hstripe) ?_
  rintro state choice hstate ⟨⟨h, hholds⟩, rfl⟩
  refine ⟨_, rfl, increment_step hstate hholds.1, ⟨?_, h.owner, h.bucketOf⟩, hholds.1, ?_⟩
  · intro other hother
    have hne : other ≠ stripe := by
      rintro rfl
      exact hmem hother
    simp only [State.track, Function.update_of_ne hne]
    exact h.holding other hother
  · have hparity := hholds.2
    simp only [State.track, Function.update_self]
    omega

theorem enterStripe_upholds (hstripe : stripe < table.stripes) (hmem : stripe ∉ stripes) :
    (protocol table).Upholds thread (enterStripe stripe)
      (fun _ => Writes thread (stripe :: stripes) frame bucket)
      (Writes thread stripes frame bucket) := by
  refine (lockStripeWord_upholds hstripe).seq fun _ => ?_
  refine (loadSequence_upholds hstripe).seq fun sequence => ?_
  refine (storeSequence_upholds hstripe hmem).mono fun _ state _ h => ?_
  refine ⟨fun other hother => ?_, h.1.owner, h.1.bucketOf⟩
  rcases List.mem_cons.mp hother with rfl | hother
  · exact h.2
  · exact h.1.holding other hother

theorem leaveStripe_upholds (hstripe : stripe < table.stripes) (hmem : stripe ∉ stripes) :
    (protocol table).Upholds thread (leaveStripe stripe)
      (fun _ => Writes thread stripes frame bucket)
      (Writes thread (stripe :: stripes) frame bucket) := by
  have hstart : (protocol table).Upholds thread (access (.loadSequence stripe)) _
      (Writes thread (stripe :: stripes) frame bucket) :=
    (loadSequence_upholds hstripe).strengthen stable_writes fun state _ h =>
      ⟨h.of_subset (List.subset_cons_self stripe stripes), h.holding stripe List.mem_cons_self⟩
  refine hstart.seq fun sequence => ?_
  refine (storeSequence_upholds hstripe hmem).seq fun _ => ?_
  refine upholds_store (.clearLock stripe) (stable_writes.and stable_holds) stable_writes
    (fun _ _ _ => hstripe) ?_
  rintro state choice hstate ⟨h, hholds⟩
  refine ⟨_, rfl, release_step hstate hholds, ?_, h.owner, h.bucketOf⟩
  intro other hother
  have hne : other ≠ stripe := by
    rintro rfl
    exact hmem hother
  simp only [State.track, Function.update_of_ne hne]
  exact h.holding other hother

theorem enter_upholds {rest : List Nat} (hrange : ∀ stripe ∈ rest, stripe < table.stripes)
    (hnodup : (rest.reverse ++ stripes).Nodup) :
    (protocol table).Upholds thread (forEach rest enterStripe)
      (fun _ => Writes thread (rest.reverse ++ stripes) frame bucket)
      (Writes thread stripes frame bucket) := by
  induction rest generalizing stripes with
  | nil => exact Protocol.upholds_pure stable_writes fun _ _ h => h
  | cons stripe rest ih =>
      rw [List.reverse_cons, List.append_assoc, List.singleton_append] at hnodup ⊢
      have hmem : stripe ∉ stripes := (List.nodup_cons.mp (List.nodup_append.mp hnodup).2.1).1
      exact (enterStripe_upholds (hrange stripe List.mem_cons_self) hmem).bind fun _ =>
        ih (fun other hother => hrange other (List.mem_cons_of_mem stripe hother)) hnodup

theorem leave_upholds (hrange : ∀ stripe ∈ stripes, stripe < table.stripes)
    (hnodup : stripes.Nodup) :
    (protocol table).Upholds thread (forEach stripes leaveStripe)
      (fun _ => Writes thread [] frame bucket) (Writes thread stripes frame bucket) := by
  induction stripes with
  | nil => exact Protocol.upholds_pure stable_writes fun _ _ h => h
  | cons stripe rest ih =>
      obtain ⟨hmem, hrest⟩ := List.nodup_cons.mp hnodup
      exact (leaveStripe_upholds (hrange stripe List.mem_cons_self) hmem).bind fun _ =>
        ih (fun other hother => hrange other (List.mem_cons_of_mem stripe hother)) hrest

def Inside (thread : Thread) (stripes : List Nat) (frame : FrameId) (state : State Thread) : Prop :=
  ∃ bucket, Writes thread stripes frame bucket state

theorem stable_inside : (protocol table).Stable thread (Inside thread stripes frame) :=
  Protocol.Stable.exists fun _ => stable_writes

theorem withStripes_upholds {α : Type} {body : Prog α}
    (hrange : ∀ stripe ∈ stripes, stripe < table.stripes) (hnodup : stripes.Nodup)
    (hbody : (protocol table).Upholds thread body (fun _ => Inside thread stripes frame)
      (Writes thread stripes frame bucket)) :
    (protocol table).Upholds thread (withStripes stripes body) (fun _ => Inside thread [] frame)
      (Writes thread [] frame bucket) := by
  have henter : (protocol table).Upholds thread (forEach stripes enterStripe)
      (fun _ => Writes thread stripes frame bucket) (Writes thread [] frame bucket) := by
    refine (enter_upholds hrange (by simpa using hnodup)).mono fun _ state _ h => ?_
    exact h.of_subset (by simp)
  refine henter.seq fun _ => hbody.seq fun result => ?_
  have hleave : (protocol table).Upholds thread (forEach stripes.reverse leaveStripe)
      (fun _ => Inside thread [] frame) (Inside thread stripes frame) := by
    refine Protocol.Upholds.exists fun bucket => ?_
    refine ((leave_upholds (by simpa using hrange) (by simpa using hnodup)).strengthen
      stable_writes fun state _ h => h.of_subset (by simp)).mono fun _ state _ h => ⟨bucket, h⟩
  exact hleave.seq fun _ => Protocol.upholds_pure stable_inside fun _ _ h => h

theorem mem_stripeOrder {first : Nat} {second : Option Nat} :
    stripe ∈ stripeOrder first second ↔ stripe = first ∨ second = some stripe := by
  cases second with
  | none => simp [stripeOrder]
  | some second =>
      rw [stripeOrder]
      split_ifs <;> grind

theorem nodup_stripeOrder (first : Nat) (second : Option Nat) :
    (stripeOrder first second).Nodup := by
  cases second with
  | none => simp [stripeOrder]
  | some second =>
      rw [stripeOrder]
      split_ifs <;> grind

/-! ### Loads in the middle of a call -/

theorem mapsTo_upholds {assertion : State Thread → Prop} {tag : BufferTag}
    (hstable : (protocol table).Stable thread assertion)
    (hframe : frame.toNat < table.frameCapacity) :
    (protocol table).Upholds thread (mapsTo frame tag) (fun _ => assertion) assertion := by
  refine (upholds_load (.loadKeyFileId frame) rfl hstable (fun _ => hstable) (fun _ _ _ => hframe)
    fun _ _ _ h => h).seq fun fileId => ?_
  split
  · exact (upholds_load (.loadKeyBlockId frame) rfl hstable (fun _ => hstable)
      (fun _ _ _ => hframe) fun _ _ _ h => h).seq fun _ =>
        Protocol.upholds_pure hstable fun _ _ h => h
  · exact Protocol.upholds_pure hstable fun _ _ h => h

theorem findLive_upholds {assertion : State Thread → Prop} {newTag : BufferTag}
    (hstable : (protocol table).Stable thread assertion) (steps : Nat) {current : FrameId}
    (hvalid : Valid table current) :
    (protocol table).Upholds thread (findLive newTag frame steps current) (fun _ => assertion)
      assertion := by
  induction steps generalizing current with
  | zero => exact Protocol.upholds_pure hstable fun _ _ h => h
  | succ steps ih =>
      rw [findLive]
      by_cases hend : current = kNone
      · rw [if_pos hend]
        exact Protocol.upholds_pure hstable fun _ _ h => h
      rw [if_neg hend]
      have hcurrent := hvalid.resolve_left hend
      have hrest : (protocol table).Upholds thread (do
            let current ← access (.loadNext current)
            findLive newTag frame steps current) (fun _ => assertion) assertion := by
        have hnext : ∀ next, (protocol table).Stable thread fun state =>
            assertion state ∧ Valid table next :=
          fun next => hstable.and (Protocol.stable_pure _)
        refine (upholds_load (.loadNext current) rfl hstable hnext (fun _ _ _ => hcurrent)
          fun _ _ hstate h => ⟨h, hstate.nexts current hcurrent⟩).seq fun next => ?_
        refine Protocol.Upholds.assume (hnext next) (fun _ _ h => h.2) fun hvalid => ?_
        exact (ih hvalid).strengthen (hnext next) fun _ _ h => h.1
      dsimp only
      split
      · refine (mapsTo_upholds hstable hcurrent).seq fun maps => ?_
        split
        · refine (upholds_load (.live current) rfl hstable (fun _ => hstable)
            (fun _ _ _ => hcurrent) fun _ _ _ h => h).seq fun live => ?_
          split
          · exact Protocol.upholds_pure hstable fun _ _ h => h
          · exact hrest
        · exact hrest
      · exact hrest

/-! ### Calls -/

theorem loadBucketOf_upholds (hframe : frame.toNat < table.frameCapacity) :
    (protocol table).Upholds thread (access (.loadBucketOf frame))
      (fun bucket state => Writes thread stripes frame bucket state ∧
        (bucket = kNone ∨ bucket.toNat < table.bucketCount))
      (Inside thread stripes frame) := by
  refine upholds_load _ rfl stable_inside (fun _ => stable_writes.and (Protocol.stable_pure _))
    (fun _ _ _ => hframe) ?_
  rintro state choice hstate ⟨bucket, h⟩
  exact ⟨⟨h.holding, h.owner, rfl⟩, hstate.buckets frame hframe⟩

section Calls

variable (hfit : table.bucketCount ≤ 2 ^ 31) (hframe : frame.toNat < table.frameCapacity)
  (hnone : frame ≠ kNone)

include hfit hframe hnone

theorem unlinkFrom_upholds (hlocked : Locked table stripes bucket.toNat) :
    (protocol table).Upholds thread (unlink frame) (fun _ => Inside thread stripes frame)
      (Writes thread stripes frame bucket) := by
  have hbucket : bucket = BitVec.ofNat 32 bucket.toNat := by
    rw [BitVec.ofNat_toNat, BitVec.setWidth_eq]
  rw [hbucket]
  exact (unlink_upholds hfit hlocked hframe hnone).mono fun _ _ _ h => ⟨kNone, h⟩

theorem linkIfUnlinked_upholds {place : Nat} (hlocked : Locked table stripes place)
    (tag : BufferTag) :
    (protocol table).Upholds thread (linkIfUnlinked place tag frame)
      (fun _ => Inside thread stripes frame) (Inside thread stripes frame) := by
  refine (loadBucketOf_upholds hframe).seq fun bucket => ?_
  have hstable : (protocol table).Stable thread fun state =>
      Writes thread stripes frame bucket state ∧
        (bucket = kNone ∨ bucket.toNat < table.bucketCount) :=
    stable_writes.and (Protocol.stable_pure _)
  by_cases hbucket : bucket = kNone
  · subst hbucket
    rw [if_pos rfl]
    exact ((link_upholds hfit hframe hlocked tag hnone).strengthen hstable fun _ _ h => h.1).mono
      fun _ _ _ h => ⟨_, h⟩
  · rw [if_neg hbucket]
    exact Protocol.upholds_pure hstable fun _ _ h => ⟨bucket, h.1⟩

theorem remove_upholds (tag : BufferTag) :
    (protocol table).Upholds thread (remove table tag frame) (fun _ => Inside thread [] frame)
      (Inside thread [] frame) := by
  refine (loadBucketOf_upholds hframe).seq fun bucket => ?_
  have hstable : (protocol table).Stable thread fun state =>
      Writes thread [] frame bucket state ∧
        (bucket = kNone ∨ bucket.toNat < table.bucketCount) :=
    stable_writes.and (Protocol.stable_pure _)
  refine Protocol.Upholds.assume hstable (fun _ _ h => h.2) fun hbucket => ?_
  split
  · exact Protocol.upholds_pure hstable fun _ _ h => ⟨bucket, h.1⟩
  · rename_i hlinked
    have hlocked : Locked table (stripeOrder (table.stripeFor bucket.toNat) none) bucket.toNat :=
      ⟨hbucket.resolve_left hlinked, mem_stripeOrder.mpr (.inl rfl)⟩
    refine (withStripes_upholds ?_ (nodup_stripeOrder ..) ?_).strengthen hstable fun _ _ h => h.1
    · intro stripe hstripe
      obtain rfl | hnone := mem_stripeOrder.mp hstripe
      · exact stripeFor_lt table bucket.toNat
      · exact absurd hnone.symm (Option.some_ne_none stripe)
    · refine (mapsTo_upholds stable_writes hframe).seq fun maps => ?_
      split
      · exact unlinkFrom_upholds hfit hframe hnone hlocked
      · exact Protocol.upholds_pure stable_writes fun _ _ h => ⟨bucket, h⟩

end Calls

theorem replaceStripes_lt {newBucket : Nat} {oldBucket : BitVec 32} :
    ∀ stripe ∈ replaceStripes table newBucket oldBucket, stripe < table.stripes := by
  intro stripe hstripe
  rcases mem_stripeOrder.mp hstripe with rfl | hsecond
  · exact stripeFor_lt ..
  · split at hsecond
    · cases hsecond
    · exact Option.some.inj hsecond ▸ stripeFor_lt ..

theorem locked_replaceStripes {newBucket : Nat} {oldBucket : BitVec 32}
    (hnew : newBucket < table.bucketCount)
    (hold : oldBucket = kNone ∨ oldBucket.toNat < table.bucketCount) :
    (∀ stripe ∈ replaceStripes table newBucket oldBucket, stripe < table.stripes) ∧
      (replaceStripes table newBucket oldBucket).Nodup ∧
      Locked table (replaceStripes table newBucket oldBucket) newBucket ∧
      (oldBucket ≠ kNone →
        Locked table (replaceStripes table newBucket oldBucket) oldBucket.toNat) := by
  refine ⟨replaceStripes_lt, nodup_stripeOrder .., ⟨hnew, mem_stripeOrder.mpr (.inl rfl)⟩,
    fun hlinked => ⟨hold.resolve_left hlinked, mem_stripeOrder.mpr (.inr ?_)⟩⟩
  rw [if_neg hlinked]

section Replace

variable (hfit : table.bucketCount ≤ 2 ^ 31) (hframe : frame.toNat < table.frameCapacity)
  (hnone : frame ≠ kNone)

include hfit hframe hnone

theorem replace_upholds (oldTag newTag : BufferTag) :
    (protocol table).Upholds thread (replace table oldTag newTag frame)
      (fun _ => Inside thread [] frame) (Inside thread [] frame) := by
  refine (loadBucketOf_upholds hframe).seq fun oldBucket => ?_
  have hstable : (protocol table).Stable thread fun state =>
      Writes thread [] frame oldBucket state ∧
        (oldBucket = kNone ∨ oldBucket.toNat < table.bucketCount) :=
    stable_writes.and (Protocol.stable_pure _)
  refine Protocol.Upholds.assume hstable (fun _ _ h => h.2) fun hbucket => ?_
  obtain ⟨hrange, hnodup, hnew, hold⟩ := locked_replaceStripes (bucketFor_lt table newTag) hbucket
  refine (withStripes_upholds hrange hnodup ?_).strengthen hstable fun _ _ h => h.1
  have hwrites : (protocol table).Stable thread (Writes thread
      (replaceStripes table (table.bucketFor newTag) oldBucket) frame oldBucket) := stable_writes
  have hlink : (protocol table).Upholds thread
      (linkIfUnlinked (table.bucketFor newTag) newTag frame) _ _ :=
    linkIfUnlinked_upholds hfit hframe hnone hnew newTag
  have hkeep := hlink.strengthen hwrites fun _ _ h => ⟨oldBucket, h⟩
  dsimp only
  split
  · rename_i hlinked
    have hunlink := (unlinkFrom_upholds hfit hframe hnone (hold hlinked)).seq fun _ => hlink
    refine (mapsTo_upholds stable_writes hframe).seq fun mapsOld => ?_
    split
    · exact hunlink
    · refine (mapsTo_upholds stable_writes hframe).seq fun mapsNew => ?_
      split
      · exact hunlink
      · exact hkeep
  · exact hkeep

theorem replaceUnlessLive_upholds (oldTag : Option BufferTag) (newTag : BufferTag) :
    (protocol table).Upholds thread (replaceUnlessLive table oldTag newTag frame)
      (fun _ => Inside thread [] frame) (Inside thread [] frame) := by
  refine (loadBucketOf_upholds hframe).seq fun oldBucket => ?_
  have hstable : (protocol table).Stable thread fun state =>
      Writes thread [] frame oldBucket state ∧
        (oldBucket = kNone ∨ oldBucket.toNat < table.bucketCount) :=
    stable_writes.and (Protocol.stable_pure _)
  refine Protocol.Upholds.assume hstable (fun _ _ h => h.2) fun hbucket => ?_
  obtain ⟨hrange, hnodup, hnew, hold⟩ := locked_replaceStripes (bucketFor_lt table newTag) hbucket
  dsimp only
  generalize replaceStripes table (table.bucketFor newTag) oldBucket = stripes at *
  refine (withStripes_upholds hrange hnodup ?_).strengthen hstable fun _ _ h => h.1
  have hwrites : (protocol table).Stable thread (Writes thread stripes frame oldBucket) :=
    stable_writes
  have hhead : ∀ head, (protocol table).Stable thread fun state =>
      Writes thread stripes frame oldBucket state ∧ Valid table head :=
    fun head => hwrites.and (Protocol.stable_pure _)
  refine (upholds_load (.loadHead (table.bucketFor newTag)) rfl hwrites hhead
    (fun _ _ _ => bucketFor_lt table newTag)
    fun _ _ hstate h => ⟨h, hstate.valid_head (bucketFor_lt table newTag)⟩).seq fun head => ?_
  refine Protocol.Upholds.assume (hhead head) (fun _ _ h => h.2) fun hvalid => ?_
  refine ((findLive_upholds hwrites _ hvalid).strengthen (hhead head)
    fun _ _ h => h.1).seq fun existing => ?_
  -- the end of the call, with the frame unlinked if that was due
  have hlink : (protocol table).Upholds thread
      (linkIfUnlinked (table.bucketFor newTag) newTag frame >>= fun _ =>
        pure none : Prog (Option FrameId))
      (fun _ => Inside thread stripes frame) (Inside thread stripes frame) :=
    (linkIfUnlinked_upholds hfit hframe hnone hnew newTag).seq fun _ =>
      Protocol.upholds_pure stable_inside fun _ _ h => h
  have hfound : ∀ other : FrameId, (protocol table).Upholds thread
      (pure (some other) : Prog (Option FrameId))
      (fun _ => Inside thread stripes frame) (Inside thread stripes frame) :=
    fun other => Protocol.upholds_pure stable_inside fun _ _ h => h
  have hkeep : ∀ {last : Prog (Option FrameId)}, (protocol table).Upholds thread last
      (fun _ => Inside thread stripes frame) (Inside thread stripes frame) →
      (protocol table).Upholds thread last (fun _ => Inside thread stripes frame)
        (Writes thread stripes frame oldBucket) :=
    fun hlast => hlast.strengthen hwrites fun _ _ h => ⟨oldBucket, h⟩
  have hfalse : (protocol table).Upholds thread (pure false : Prog Bool)
      (fun _ => Writes thread stripes frame oldBucket) (Writes thread stripes frame oldBucket) :=
    Protocol.upholds_pure hwrites fun _ _ h => h
  refine Protocol.upholds_ite_seq hfalse (mapsTo_upholds hwrites hframe) fun linkedUnderNew => ?_
  split
  · rename_i hlinked
    cases existing with
    | some other =>
        have hend := (unlinkFrom_upholds hfit hframe hnone (hold hlinked)).seq fun _ => hfound other
        cases oldTag with
        | none => exact hfalse.seq fun _ => Protocol.upholds_ite hend (hkeep (hfound other))
        | some oldTag =>
            exact (mapsTo_upholds hwrites hframe).seq fun _ =>
              Protocol.upholds_ite hend (hkeep (hfound other))
    | none =>
        have hend := (unlinkFrom_upholds hfit hframe hnone (hold hlinked)).seq fun _ => hlink
        cases oldTag with
        | none => exact hfalse.seq fun _ => Protocol.upholds_ite hend (hkeep hlink)
        | some oldTag =>
            exact (mapsTo_upholds hwrites hframe).seq fun _ =>
              Protocol.upholds_ite hend (hkeep hlink)
  · cases existing with
    | some other => exact hkeep (hfound other)
    | none => exact hkeep hlink

end Replace

end TelePath.PageTableWords
