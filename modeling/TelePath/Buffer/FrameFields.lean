import Mathlib.Tactic.Common
import TelePath.Buffer.FrameControl

/-!
The control word read as a record, and what each transition of `frame_control.h`
does to that record.  Bitwise updates are read field by field; the updates of the
two counters by `+` and `-` need the bound that keeps them inside their field.
-/

namespace TelePath.FrameControl

/-- The record that a control word packs. -/
structure ControlFields where
  state : BufferFrameState
  dirty : Bool
  queued : Bool
  active : Bool
  prefetched : Bool
  redirtied : Bool
  exclusive : Bool
  shared : Nat
  waiters : Bool
  pins : Nat
  deriving DecidableEq, Repr

def ControlFields.writeback (record : ControlFields) : Bool := record.queued || record.active

def fields (word : Word) : ControlFields where
  state := state word
  dirty := isDirty word
  queued := hasAny kWritebackQueued word
  active := hasAny kWritebackActive word
  prefetched := hasAny kPrefetched word
  redirtied := hasAny kRedirtied word
  exclusive := hasAny kExclusive word
  shared := sharedHolders word
  waiters := hasAny kWaiters word
  pins := pins word

theorem hasAny_eq_getLsbD (word mask : Word) (i : Nat) (hi : i < 32)
    (hmask : mask = BitVec.twoPow 32 i) : hasAny mask word = word.getLsbD i := by
  subst hmask
  rw [hasAny, BitVec.and_twoPow]
  cases hbit : word.getLsbD i with
  | true =>
      have hne : BitVec.twoPow 32 i ≠ 0#32 := by
        intro hzero
        have hone : (BitVec.twoPow 32 i).getLsbD i = true := by simp [hi]
        simp [hzero] at hone
      simp [hne]
  | false => simp

theorem fields_eq_bits (word : Word) : fields word =
    { state := .ofBits (word.extractLsb' 0 2).toNat
      dirty := word.getLsbD 2
      queued := word.getLsbD 3
      active := word.getLsbD 4
      prefetched := word.getLsbD 5
      redirtied := word.getLsbD 6
      exclusive := word.getLsbD 7
      shared := (word.extractLsb' 8 8).toNat
      waiters := word.getLsbD 16
      pins := (word.extractLsb' 17 15).toNat } := by
  have hstate : state word = .ofBits (word.extractLsb' 0 2).toNat := by
    rw [state, BitVec.toNat_and, show kStateMask.toNat = 2 ^ 2 - 1 by decide,
      Nat.and_two_pow_sub_one_eq_mod, BitVec.extractLsb'_toNat, Nat.shiftRight_zero]
  have hshared : sharedHolders word = (word.extractLsb' 8 8).toNat := by
    rw [sharedHolders, kSharedShift, BitVec.toNat_ushiftRight, BitVec.toNat_and,
      Nat.shiftRight_and_distrib, show kSharedMask.toNat >>> 8 = 2 ^ 8 - 1 by decide,
      Nat.and_two_pow_sub_one_eq_mod, BitVec.extractLsb'_toNat]
  have hpins : pins word = (word.extractLsb' 17 15).toNat := by
    rw [pins, kPinShift, BitVec.toNat_ushiftRight, BitVec.toNat_and,
      Nat.shiftRight_and_distrib, show kPinMask.toNat >>> 17 = 2 ^ 15 - 1 by decide,
      Nat.and_two_pow_sub_one_eq_mod, BitVec.extractLsb'_toNat]
  simp only [fields, hstate, hshared, hpins, isDirty, ControlFields.mk.injEq, true_and, and_true]
  exact ⟨hasAny_eq_getLsbD word _ 2 (by decide) (by decide),
    hasAny_eq_getLsbD word _ 3 (by decide) (by decide),
    hasAny_eq_getLsbD word _ 4 (by decide) (by decide),
    hasAny_eq_getLsbD word _ 5 (by decide) (by decide),
    hasAny_eq_getLsbD word _ 6 (by decide) (by decide),
    hasAny_eq_getLsbD word _ 7 (by decide) (by decide),
    hasAny_eq_getLsbD word _ 16 (by decide) (by decide)⟩

theorem toNat_and_ones {w : Nat} (x mask : BitVec w) (hmask : mask = BitVec.allOnes w) :
    (x &&& mask).toNat = x.toNat := by
  rw [hmask, BitVec.and_allOnes]

theorem fields_and (word mask : Word) : fields (word &&& mask) =
    { state := .ofBits (word.extractLsb' 0 2 &&& mask.extractLsb' 0 2).toNat
      dirty := word.getLsbD 2 && mask.getLsbD 2
      queued := word.getLsbD 3 && mask.getLsbD 3
      active := word.getLsbD 4 && mask.getLsbD 4
      prefetched := word.getLsbD 5 && mask.getLsbD 5
      redirtied := word.getLsbD 6 && mask.getLsbD 6
      exclusive := word.getLsbD 7 && mask.getLsbD 7
      shared := (word.extractLsb' 8 8 &&& mask.extractLsb' 8 8).toNat
      waiters := word.getLsbD 16 && mask.getLsbD 16
      pins := (word.extractLsb' 17 15 &&& mask.extractLsb' 17 15).toNat } := by
  simp only [fields_eq_bits, BitVec.extractLsb'_and, BitVec.getLsbD_and]

theorem fields_and_flags (word mask : Word)
    (hstate : mask.extractLsb' 0 2 = BitVec.allOnes 2)
    (hshared : mask.extractLsb' 8 8 = BitVec.allOnes 8)
    (hpins : mask.extractLsb' 17 15 = BitVec.allOnes 15) :
    fields (word &&& mask) =
      { fields word with
        dirty := word.getLsbD 2 && mask.getLsbD 2
        queued := word.getLsbD 3 && mask.getLsbD 3
        active := word.getLsbD 4 && mask.getLsbD 4
        prefetched := word.getLsbD 5 && mask.getLsbD 5
        redirtied := word.getLsbD 6 && mask.getLsbD 6
        exclusive := word.getLsbD 7 && mask.getLsbD 7
        waiters := word.getLsbD 16 && mask.getLsbD 16 } := by
  rw [fields_and, fields_eq_bits word, toNat_and_ones _ _ hstate, toNat_and_ones _ _ hshared,
    toNat_and_ones _ _ hpins]

theorem fields_or_dirty (word : Word) :
    fields (word ||| kDirty) = { fields word with dirty := true } := by
  simp [fields_eq_bits, kDirty, BitVec.extractLsb'_or]

theorem fields_or_redirtied (word : Word) :
    fields (word ||| kRedirtied) = { fields word with redirtied := true } := by
  simp [fields_eq_bits, kRedirtied, BitVec.extractLsb'_or]

theorem fields_or_exclusive (word : Word) :
    fields (word ||| kExclusive) = { fields word with exclusive := true } := by
  simp [fields_eq_bits, kExclusive, BitVec.extractLsb'_or]

theorem fields_or_waiters (word : Word) :
    fields (word ||| kWaiters) = { fields word with waiters := true } := by
  simp [fields_eq_bits, kWaiters, BitVec.extractLsb'_or]

theorem fields_clear_waiters (word : Word) :
    fields (word &&& ~~~kWaiters) = { fields word with waiters := false } := by
  rw [fields_and_flags word _ (by decide) (by decide) (by decide), fields_eq_bits]
  simp [kWaiters]

theorem fields_clear_exclusive (word : Word) :
    fields (word &&& ~~~kExclusive) = { fields word with exclusive := false } := by
  rw [fields_and_flags word _ (by decide) (by decide) (by decide), fields_eq_bits]
  simp [kExclusive]

theorem fields_clear_dirty (word : Word) :
    fields (word &&& ~~~kDirty) = { fields word with dirty := false } := by
  rw [fields_and_flags word _ (by decide) (by decide) (by decide), fields_eq_bits]
  simp [kDirty]

theorem fields_clear_writeback (word : Word) :
    fields (word &&& ~~~(kWritebackMask ||| kRedirtied)) =
      { fields word with queued := false, active := false, redirtied := false } := by
  rw [fields_and_flags word _ (by decide) (by decide) (by decide), fields_eq_bits]
  simp [kWritebackMask, kWritebackQueued, kWritebackActive, kRedirtied]

theorem fields_cancel (word : Word) :
    fields (word &&& ~~~(kWritebackQueued ||| kRedirtied)) =
      { fields word with queued := false, redirtied := false } := by
  rw [fields_and_flags word _ (by decide) (by decide) (by decide), fields_eq_bits]
  simp [kWritebackQueued, kRedirtied]

theorem fields_eq_value (word : Word) : fields word =
    { state := .ofBits (word.toNat % 4)
      dirty := decide (word.toNat / 4 % 2 = 1)
      queued := decide (word.toNat / 8 % 2 = 1)
      active := decide (word.toNat / 16 % 2 = 1)
      prefetched := decide (word.toNat / 32 % 2 = 1)
      redirtied := decide (word.toNat / 64 % 2 = 1)
      exclusive := decide (word.toNat / 128 % 2 = 1)
      shared := word.toNat / 256 % 256
      waiters := decide (word.toNat / 65536 % 2 = 1)
      pins := word.toNat / 131072 } := by
  have hbound := word.isLt
  simp only [fields_eq_bits, BitVec.getLsbD, Nat.testBit_eq_decide_div_mod_eq,
    BitVec.extractLsb'_toNat, Nat.shiftRight_eq_div_pow, ControlFields.mk.injEq, true_and]
  exact ⟨congrArg _ (by omega), by omega⟩

theorem pins_eq (word : Word) : pins word = word.toNat / 131072 :=
  congrArg ControlFields.pins (fields_eq_value word)

theorem sharedHolders_eq (word : Word) : sharedHolders word = word.toNat / 256 % 256 :=
  congrArg ControlFields.shared (fields_eq_value word)

theorem fields_of_pins (word next : Word) (h : next.toNat % 131072 = word.toNat % 131072) :
    fields next = { fields word with pins := pins next } := by
  rw [pins_eq, fields_eq_value next, fields_eq_value word]
  simp only [ControlFields.mk.injEq, decide_eq_decide]
  refine ⟨congrArg _ ?_, ?_, ?_, ?_, ?_, ?_, ?_, ?_, ?_, trivial⟩ <;> omega

theorem fields_of_shared (word next : Word) (hlow : next.toNat % 256 = word.toNat % 256)
    (hhigh : next.toNat / 65536 = word.toNat / 65536) :
    fields next = { fields word with shared := sharedHolders next } := by
  rw [sharedHolders_eq, fields_eq_value next, fields_eq_value word]
  simp only [ControlFields.mk.injEq, decide_eq_decide]
  refine ⟨congrArg _ ?_, ?_, ?_, ?_, ?_, ?_, ?_, trivial, ?_, ?_⟩ <;> omega

theorem fields_add_pinOne (word : Word) (h : pins word < kMaxPins) :
    fields (word + kPinOne) = { fields word with pins := pins word + 1 } := by
  have hbound := word.isLt
  have hvalue : (word + kPinOne).toNat = word.toNat + 131072 := by
    rw [BitVec.toNat_add, show kPinOne.toNat = 131072 by decide]
    simp only [pins_eq, kMaxPins] at h
    omega
  have hpins : pins (word + kPinOne) = pins word + 1 := by
    rw [pins_eq, pins_eq, hvalue]
    omega
  rw [fields_of_pins word _ (by omega), hpins]

theorem fields_sub_pinOne (word : Word) (h : 0 < pins word) :
    fields (word - kPinOne) = { fields word with pins := pins word - 1 } := by
  have hbound := word.isLt
  have hvalue : (word - kPinOne).toNat = word.toNat - 131072 := by
    rw [BitVec.toNat_sub, show kPinOne.toNat = 131072 by decide]
    simp only [pins_eq] at h
    omega
  rw [pins_eq] at h
  have hpins : pins (word - kPinOne) = pins word - 1 := by
    rw [pins_eq, pins_eq, hvalue]
    omega
  rw [fields_of_pins word _ (by omega), hpins]

theorem fields_add_sharedOne (word : Word) (h : sharedHolders word < kMaxShared) :
    fields (word + kSharedOne) = { fields word with shared := sharedHolders word + 1 } := by
  have hbound := word.isLt
  simp only [sharedHolders_eq, kMaxShared] at h
  have hvalue : (word + kSharedOne).toNat = word.toNat + 256 := by
    rw [BitVec.toNat_add, show kSharedOne.toNat = 256 by decide]
    omega
  have hshared : sharedHolders (word + kSharedOne) = sharedHolders word + 1 := by
    rw [sharedHolders_eq, sharedHolders_eq, hvalue]
    omega
  rw [fields_of_shared word _ (by omega) (by omega), hshared]

theorem fields_sub_sharedOne (word : Word) (h : 0 < sharedHolders word) :
    fields (word - kSharedOne) = { fields word with shared := sharedHolders word - 1 } := by
  have hbound := word.isLt
  rw [sharedHolders_eq] at h
  have hvalue : (word - kSharedOne).toNat = word.toNat - 256 := by
    rw [BitVec.toNat_sub, show kSharedOne.toNat = 256 by decide]
    omega
  have hshared : sharedHolders (word - kSharedOne) = sharedHolders word - 1 := by
    rw [sharedHolders_eq, sharedHolders_eq, hvalue]
    omega
  rw [fields_of_shared word _ (by omega) (by omega), hshared]

theorem hasAny_or (left right word : Word) :
    hasAny (left ||| right) word = (hasAny left word || hasAny right word) := by
  rw [Bool.eq_iff_iff]
  simp only [hasAny, BitVec.and_or_distrib_left, bne_iff_ne, Bool.or_eq_true, ne_eq,
    BitVec.or_eq_zero_iff]
  tauto

theorem hasAny_sharedMask (word : Word) :
    hasAny kSharedMask word = decide (sharedHolders word ≠ 0) := by
  have hcount : sharedHolders word = (word &&& kSharedMask).toNat / 256 := by
    rw [sharedHolders, kSharedShift, BitVec.toNat_ushiftRight, Nat.shiftRight_eq_div_pow]
  have hmultiple : (word &&& kSharedMask).toNat % 256 = 0 := by
    have hlow : (word &&& kSharedMask).extractLsb' 0 8 = 0#8 := by
      rw [BitVec.extractLsb'_and, show kSharedMask.extractLsb' 0 8 = 0#8 by decide, BitVec.and_zero]
    have hvalue := congrArg BitVec.toNat hlow
    rw [BitVec.extractLsb'_toNat, Nat.shiftRight_zero] at hvalue
    exact hvalue
  rw [Bool.eq_iff_iff, hasAny, bne_iff_ne, decide_eq_true_eq, hcount, ne_eq,
    ← BitVec.toNat_inj, BitVec.toNat_ofNat]
  omega

theorem hasWriteback_eq (word : Word) :
    hasWriteback word = (fields word).writeback :=
  hasAny_or kWritebackQueued kWritebackActive word

theorem latched_eq (word : Word) :
    latched word = ((fields word).exclusive || decide ((fields word).shared ≠ 0)) := by
  rw [latched, kLatchMask, hasAny_or, hasAny_sharedMask]
  rfl

theorem fields_updateAndWake (next : Word → Word) (wakes : Word → Word → Bool) (word : Word) :
    fields (updateAndWake next wakes word).1 =
      { fields (next word) with
        waiters := (fields (next word)).waiters && !(updateAndWake next wakes word).2 } := by
  simp only [updateAndWake]
  split
  · rename_i hwake
    rw [fields_clear_waiters, hwake]
    simp
  · rename_i hwake
    simp [hwake]

theorem fields_withState (word : Word) (state : BufferFrameState) :
    fields (withState word state) = { fields word with state := state } := by
  -- both wide counters lie outside the state bits, so the mask keeps them
  have hshared : ((word &&& ~~~kStateMask).extractLsb' 8 8).toNat =
      (word.extractLsb' 8 8).toNat := by
    rw [BitVec.extractLsb'_and]
    exact toNat_and_ones _ _ (by decide)
  have hpins : ((word &&& ~~~kStateMask).extractLsb' 17 15).toNat =
      (word.extractLsb' 17 15).toNat := by
    rw [BitVec.extractLsb'_and]
    exact toNat_and_ones _ _ (by decide)
  have hstate : (word &&& ~~~kStateMask).extractLsb' 0 2 = 0#2 := by
    rw [BitVec.extractLsb'_and, show (~~~kStateMask).extractLsb' 0 2 = 0#2 by decide,
      BitVec.and_zero]
  have hbits : state.bits.extractLsb' 8 8 = 0#8 ∧ state.bits.extractLsb' 17 15 = 0#15 ∧
      BufferFrameState.ofBits (state.bits.extractLsb' 0 2).toNat = state := by
    cases state <;> decide
  rw [withState, fields_eq_bits, fields_eq_bits word]
  simp only [BitVec.extractLsb'_or, hstate, hbits, BitVec.or_zero, BitVec.zero_or, hshared, hpins,
    ControlFields.mk.injEq, true_and, and_true]
  cases state <;> simp [BufferFrameState.bits, kStateMask]

theorem isResident_iff (word : Word) :
    isResident word = true ↔ (fields word).state = .resident := by
  simp [isResident, fields]

theorem tryPinResident_cases {word next : Word} {pinned : Bool}
    (h : tryPinResident word = some (pinned, next)) :
    (pinned = false ∧ next = word ∧ (fields word).state ≠ .resident) ∨
      (pinned = true ∧ (fields word).state = .resident ∧ (fields word).pins < kMaxPins ∧
        fields next = { fields word with pins := (fields word).pins + 1 }) := by
  have hmax : pins word ≤ kMaxPins := by
    have hbound := word.isLt
    rw [pins_eq, kMaxPins]
    omega
  unfold tryPinResident at h
  split at h
  · rename_i hresident
    obtain ⟨rfl, rfl⟩ := Prod.mk.inj (Option.some.inj h)
    exact .inl ⟨rfl, rfl, by simpa [isResident, fields] using hresident⟩
  · rename_i hresident
    split at h
    · cases h
    · rename_i hpins
      obtain ⟨rfl, rfl⟩ := Prod.mk.inj (Option.some.inj h)
      have hlt : pins word < kMaxPins := by omega
      exact .inr ⟨rfl, by simpa [isResident, fields] using hresident, hlt,
        fields_add_pinOne word hlt⟩

theorem unpin_of_pinned (word : Word) (h : 0 < (fields word).pins) :
    (unpin word).1 = some word ∧
      fields (unpin word).2 = { fields word with pins := (fields word).pins - 1 } := by
  have hpins : 0 < pins word := h
  rw [unpin, if_neg (by omega)]
  exact ⟨rfl, fields_sub_pinOne word hpins⟩

theorem fields_reserved (word : Word) :
    fields ((word &&& kWaiters) ||| kPinOne ||| BufferFrameState.loading.bits) =
      { state := .loading, dirty := false, queued := false, active := false,
        prefetched := false, redirtied := false, exclusive := false, shared := 0,
        waiters := (fields word).waiters, pins := 1 } := by
  rw [fields_eq_bits, fields_eq_bits word]
  simp only [BitVec.extractLsb'_or, BitVec.extractLsb'_and,
    show kWaiters.extractLsb' 0 2 = 0#2 by decide, show kWaiters.extractLsb' 8 8 = 0#8 by decide,
    show kWaiters.extractLsb' 17 15 = 0#15 by decide, BitVec.and_zero]
  simp [kWaiters, kPinOne, kPinShift, BufferFrameState.bits, BufferFrameState.ofBits]

/-- A reservation succeeds only on an unpinned, unlatched frame without
writeback that is clean, and a free one only for the thread that popped it. -/
theorem tryReserve_reserved {popped : Bool} {word observed next : Word}
    (h : tryReserve popped word = ((.reserved, observed), next)) :
    observed = word ∧
      ((fields word).state = .free → popped = true) ∧ (fields word).state ≠ .loading ∧
      ((fields word).state = .resident → (fields word).dirty = false) ∧
      (fields word).pins = 0 ∧ latched word = false ∧ hasWriteback word = false ∧
      fields next =
        { state := .loading, dirty := false, queued := false, active := false,
          prefetched := false, redirtied := false, exclusive := false, shared := 0,
          waiters := (fields word).waiters, pins := 1 } := by
  unfold tryReserve at h
  split at h
  · simp at h
  · rename_i hloading
    split at h
    · simp at h
    · rename_i hfree
      split at h
      · simp at h
      · rename_i hbusy
        split at h
        · simp at h
        · rename_i hdirty
          simp only [Prod.mk.injEq, true_and] at h
          obtain ⟨rfl, rfl⟩ := h
          simp only [hasAny_or, not_or, Bool.not_eq_true, Bool.or_eq_false_iff, ne_eq,
            not_not] at hbusy
          refine ⟨rfl, ?_, hloading, ?_, hbusy.1, hbusy.2.1, hbusy.2.2, fields_reserved _⟩
          · intro hstate
            simpa [show state _ = .free from hstate] using hfree
          · intro hstate
            simpa [isResident, show state _ = .resident from hstate, fields] using hdirty

theorem tryReserve_unchanged {popped : Bool} {word observed next : Word}
    {outcome : ReserveOutcome} (h : tryReserve popped word = ((outcome, observed), next))
    (hne : outcome ≠ .reserved) : next = word := by
  unfold tryReserve at h
  repeat' split at h
  all_goals
    cases h
    first | rfl | exact absurd rfl hne

theorem fields_publishResident (releasePin : Bool) (word : Word) (h : (fields word).pins = 1) :
    fields (publishResident releasePin word).1 =
      { fields word with
        state := .resident
        waiters := (fields word).waiters && !(publishResident releasePin word).2
        pins := if releasePin then 0 else 1 } := by
  have hpins : pins (withState word .resident) = 1 :=
    (congrArg ControlFields.pins (fields_withState word .resident)).trans h
  rw [publishResident, fields_updateAndWake]
  cases releasePin with
  | false => simp [fields_withState, h]
  | true =>
      simp only [if_true]
      rw [fields_sub_pinOne _ (by omega), hpins, fields_withState]

theorem fields_releaseToFree (word : Word) :
    fields (releaseToFree word).1 =
      { state := .free, dirty := false, queued := false, active := false,
        prefetched := false, redirtied := false, exclusive := (fields word).exclusive,
        shared := (fields word).shared,
        waiters := (fields word).waiters && !(releaseToFree word).2, pins := 0 } := by
  have hmask : fields (word &&& (kWaiters ||| kLatchMask)) =
      { state := .free, dirty := false, queued := false, active := false,
        prefetched := false, redirtied := false, exclusive := (fields word).exclusive,
        shared := (fields word).shared, waiters := (fields word).waiters, pins := 0 } := by
    rw [fields_and, fields_eq_bits word,
      toNat_and_ones (word.extractLsb' 8 8) _ (by decide),
      show (kWaiters ||| kLatchMask).extractLsb' 0 2 = 0#2 by decide,
      show (kWaiters ||| kLatchMask).extractLsb' 17 15 = 0#15 by decide]
    simp [kWaiters, kLatchMask, kExclusive, kSharedMask, kSharedShift, BufferFrameState.ofBits]
  rw [releaseToFree, fields_updateAndWake, hmask]

theorem tryDiscardPinned_discarded {word next : Word} {previous : Option Word} {wake : Bool}
    (h : tryDiscardPinned word = ((.discarded, previous), next, wake)) :
    previous = some word ∧ next = 0#32 ∧ wake = (fields word).waiters ∧
      (fields word).state = .resident ∧ (fields word).pins = 1 ∧
      hasWriteback word = false ∧ latched word = false := by
  unfold tryDiscardPinned at h
  split at h
  · simp at h
  · rename_i hwriteback
    split at h
    · simp at h
    · rename_i hbusy
      split at h
      · simp at h
      · rename_i hlatch
        simp only [Prod.mk.injEq, true_and] at h
        obtain ⟨rfl, rfl, rfl⟩ := h
        simp only [not_or, Bool.not_eq_true', Bool.not_eq_false, ne_eq, not_not] at hbusy
        exact ⟨rfl, rfl, rfl, (isResident_iff word).mp hbusy.1, hbusy.2,
          by simpa using hwriteback, by simpa [latched] using hlatch⟩

theorem tryDiscardPinned_unchanged {word next : Word} {outcome : DiscardOutcome}
    {previous : Option Word} {wake : Bool}
    (h : tryDiscardPinned word = ((outcome, previous), next, wake))
    (hne : outcome ≠ .discarded) : next = word := by
  unfold tryDiscardPinned at h
  repeat' split at h
  all_goals
    cases h
    first | rfl | exact absurd rfl hne

theorem fields_markDirty (word : Word) (h : (fields word).state = .resident) :
    (markDirty word).1 = some (!(fields word).dirty) ∧
      fields (markDirty word).2 =
        { fields word with
          dirty := true
          redirtied := (fields word).redirtied || hasWriteback word } := by
  have hresident := (isResident_iff word).mpr h
  have hnext : fields (if hasWriteback word then (word ||| kDirty) ||| kRedirtied
      else word ||| kDirty) =
      { fields word with
        dirty := true
        redirtied := (fields word).redirtied || hasWriteback word } := by
    split
    · rename_i hwriteback
      rw [fields_or_redirtied, fields_or_dirty, hwriteback, Bool.or_true]
    · rename_i hwriteback
      rw [fields_or_dirty, Bool.eq_false_iff.mpr hwriteback, Bool.or_false]
  simp only [markDirty, hresident, Bool.not_true, Bool.false_eq_true, if_false]
  generalize (if hasWriteback word then (word ||| kDirty) ||| kRedirtied
    else word ||| kDirty) = next at hnext ⊢
  split
  · rename_i hsame
    -- an unchanged word was dirty already
    subst hsame
    have hdirty : (fields next).dirty = true := congrArg ControlFields.dirty hnext
    exact ⟨by simp [hdirty], hnext⟩
  · exact ⟨rfl, hnext⟩

theorem tryAcquireShared_true {word next : Word} (h : tryAcquireShared word = (true, next)) :
    (fields word).exclusive = false ∧ (fields word).shared < kMaxShared ∧
      fields next = { fields word with shared := (fields word).shared + 1 } := by
  unfold tryAcquireShared at h
  split at h
  · rename_i hopen
    simp only [Prod.mk.injEq, true_and] at h
    subst h
    exact ⟨by simpa [fields] using hopen.1, hopen.2, fields_add_sharedOne word hopen.2⟩
  · simp at h

theorem tryAcquireShared_unchanged {word next : Word}
    (h : tryAcquireShared word = (false, next)) : next = word := by
  unfold tryAcquireShared at h
  split at h <;> simp_all

theorem fields_releaseShared (word : Word) (h : 0 < (fields word).shared) :
    fields (releaseShared word).1 =
      { fields word with
        shared := (fields word).shared - 1
        waiters := (fields word).waiters && !(releaseShared word).2 } := by
  rw [releaseShared, fields_updateAndWake, fields_sub_sharedOne word h]
  rfl

theorem tryAcquireExclusive_true {word next : Word}
    (h : tryAcquireExclusive word = (true, next)) :
    latched word = false ∧ fields next = { fields word with exclusive := true } := by
  unfold tryAcquireExclusive at h
  split at h
  · rename_i hopen
    simp only [Prod.mk.injEq, true_and] at h
    subst h
    exact ⟨by simpa [latched] using hopen, fields_or_exclusive word⟩
  · simp at h

theorem fields_releaseExclusive (word : Word) :
    fields (releaseExclusive word).1 =
      { fields word with
        exclusive := false
        redirtied := (fields word).redirtied || hasWriteback word
        waiters := (fields word).waiters && !(releaseExclusive word).2 } := by
  rw [releaseExclusive, fields_updateAndWake]
  cases hwriteback : hasWriteback word with
  | true => simp [fields_or_redirtied, fields_clear_exclusive]
  | false => simp [fields_clear_exclusive]

theorem tryQueueWriteback_queued {skipIfPinned : Bool} {word next : Word}
    (h : tryQueueWriteback skipIfPinned word = (.queued, next)) :
    hasWriteback word = false ∧ (fields word).state = .resident ∧ (fields word).dirty = true ∧
      (skipIfPinned = true → (fields word).pins = 0) ∧
      fields next = { fields word with queued := true, redirtied := false } := by
  have hnext : fields ((word ||| kWritebackQueued) &&& ~~~kRedirtied) =
      { fields word with queued := true, redirtied := false } := by
    rw [fields_and_flags _ _ (by decide) (by decide) (by decide)]
    simp [fields_eq_bits, kWritebackQueued, kRedirtied, BitVec.extractLsb'_or]
  unfold tryQueueWriteback at h
  split at h
  · simp at h
  · rename_i hwriteback
    split at h
    · simp at h
    · rename_i hdirty
      split at h
      · simp at h
      · rename_i hpinned
        simp only [Prod.mk.injEq, true_and] at h
        subst h
        simp only [not_or, Bool.not_eq_true', Bool.not_eq_false] at hdirty
        refine ⟨by simpa using hwriteback, (isResident_iff word).mp hdirty.1, hdirty.2, ?_, hnext⟩
        intro hskip
        simpa [hskip, fields] using hpinned

theorem tryQueueWriteback_unchanged {skipIfPinned : Bool} {word next : Word}
    {outcome : QueueOutcome} (h : tryQueueWriteback skipIfPinned word = (outcome, next))
    (hne : outcome ≠ .queued) : next = word := by
  unfold tryQueueWriteback at h
  repeat' split at h
  all_goals
    cases h
    first | rfl | exact absurd rfl hne

theorem fields_beginWriteback (word : Word) :
    fields (beginWriteback word).1 = { fields word with queued := false, active := true } := by
  have hnext : fields ((word &&& ~~~kWritebackQueued) ||| kWritebackActive) =
      { fields word with queued := false, active := true } := by
    have hclear : fields (word &&& ~~~kWritebackQueued) = { fields word with queued := false } := by
      rw [fields_and_flags word _ (by decide) (by decide) (by decide), fields_eq_bits]
      simp [kWritebackQueued]
    have hset : ∀ word : Word, fields (word ||| kWritebackActive) =
        { fields word with active := true } := by
      intro word
      simp [fields_eq_bits, kWritebackActive, BitVec.extractLsb'_or]
    rw [hset, hclear]
  rw [beginWriteback, fields_updateAndWake, hnext]
  simp [updateAndWake]

theorem fields_cancelQueuedWriteback (word : Word) :
    fields (cancelQueuedWriteback word).1 =
      { fields word with
        queued := false
        redirtied := false
        waiters := (fields word).waiters && !(cancelQueuedWriteback word).2 } := by
  rw [cancelQueuedWriteback, fields_updateAndWake, fields_cancel]

theorem clearsDirty_iff (succeeded : Bool) (word : Word) :
    clearsDirty succeeded word = true ↔
      succeeded = true ∧ (fields word).state = .resident ∧ (fields word).dirty = true ∧
        (fields word).redirtied = false ∧ (fields word).exclusive = false := by
  simp only [clearsDirty, hasAny_or, Bool.and_eq_true, Bool.not_eq_true', Bool.or_eq_false_iff,
    isResident_iff, and_assoc]
  rfl

theorem clearsDirty_of_exclusive {succeeded : Bool} {word : Word}
    (h : (fields word).exclusive = true) : clearsDirty succeeded word = false := by
  by_contra hclears
  obtain ⟨-, -, -, -, hfree⟩ := (clearsDirty_iff succeeded word).mp (by simpa using hclears)
  exact absurd (h.symm.trans hfree) (by decide)

theorem fields_completeWriteback (succeeded : Bool) (word : Word) :
    (completeWriteback succeeded word).1.clearedDirty = clearsDirty succeeded word ∧
      fields (completeWriteback succeeded word).2.1 =
        { fields word with
          dirty := (fields word).dirty && !clearsDirty succeeded word
          queued := false
          active := false
          redirtied := false
          waiters := (fields word).waiters && !(completeWriteback succeeded word).2.2 } := by
  refine ⟨rfl, ?_⟩
  rw [completeWriteback, fields_updateAndWake]
  cases hclear : clearsDirty succeeded word with
  | true => simp [fields_clear_dirty, fields_clear_writeback]
  | false => simp [fields_clear_writeback]

end TelePath.FrameControl
