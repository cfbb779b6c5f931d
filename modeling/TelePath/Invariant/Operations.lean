import TelePath.Invariant.Rules

/-!
The invariant of asynchronous read operations: the pins that an operation's slots stand for
are the ones promised to it, by loads that are still to be delivered, or left with it.
-/

namespace TelePath

open FrameControl

variable {n blockSize : Nat}

def promisedTo (id : OperationId) (owned : Multiset (Token n blockSize)) :
    Multiset (SlotPin n) :=
  (owned.map (Token.promised id)).sum

section Promised

variable (id : OperationId)

@[simp] theorem promisedTo_add (first second : Multiset (Token n blockSize)) :
    promisedTo id (first + second) = promisedTo id first + promisedTo id second := by
  simp [promisedTo]

@[simp] theorem promisedTo_singleton (token : Token n blockSize) :
    promisedTo id {token} = token.promised id := by
  simp [promisedTo]

@[simp] theorem promisedTo_cons (token : Token n blockSize)
    (owned : Multiset (Token n blockSize)) :
    promisedTo id (token ::ₘ owned) = token.promised id + promisedTo id owned := by
  simp [promisedTo]

theorem promised_of_operation? {token : Token n blockSize} (h : token.operation? ≠ some id) :
    token.promised id = 0 := by
  cases token with
  | operation other stage => cases stage <;> simp_all [Token.operation?, Token.promised]
  | _ => simp_all [Token.operation?, Token.promised]

theorem promisedTo_eq_zero {owned : Multiset (Token n blockSize)}
    (h : ∀ token ∈ owned, token.operation? ≠ some id) : promisedTo id owned = 0 := by
  induction owned using Multiset.induction_on with
  | empty => rfl
  | cons token owned ih =>
      rw [promisedTo_cons, promised_of_operation? id (h token (Multiset.mem_cons_self _ _)),
        ih fun other hmem => h other (Multiset.mem_cons_of_mem hmem), zero_add]

end Promised

theorem Token.operation?_of_isOperation {token : Token n blockSize} {id : OperationId}
    (h : token.isOperation id = true) : token.operation? = some id := by
  cases token <;> simp_all [Token.isOperation, Token.operation?]

theorem Token.operation?_of_isDelivery {token : Token n blockSize} {id : OperationId}
    (h : token.isDelivery id = true) : token.operation? = some id := by
  cases token <;> simp_all [Token.isDelivery, Token.operation?]

theorem tally_of_other {id : OperationId} {test : Token n blockSize → Bool}
    {owned : Multiset (Token n blockSize)}
    (htest : ∀ token, test token = true → token.operation? = some id)
    (h : ∀ token ∈ owned, token.operation? ≠ some id) : tally test owned = 0 :=
  tally_eq_zero fun token hmem => Bool.eq_false_iff.mpr fun hpass =>
    h token hmem (htest token hpass)

/-- The invariant, with `owned` all tokens there are. -/
structure Operations (shared : Shared n blockSize) (owned : Multiset (Token n blockSize)) :
    Prop where
  fresh : ∀ token ∈ owned, ∀ id, token.operation? = some id → id < shared.nextId
  owner : ∀ id, tally (Token.isOperation id) owned ≤ 1
  stored : ∀ id uncounted, .operation id (.stored uncounted) ∈ owned →
    ∃ state, shared.operations id = some state ∧ state.Matched ∧
      (state.slotPins : Multiset (SlotPin n)) = promisedTo id owned ∧
      state.waiter.pending = tally (Token.isDelivery id) owned
  owned : ∀ token ∈ owned, ∀ id, token.operation? = some id →
    (∃ stage, .operation id stage = token) ∨
      ∃ uncounted, .operation id (.stored uncounted) ∈ owned

def OffOperations (owned : Multiset (Token n blockSize)) : Prop :=
  ∀ token ∈ owned, token.operation? = none

def depositTokens (id : OperationId) (pins : Multiset (SlotPin n)) :
    Multiset (Token n blockSize) :=
  pins.map (.deposited id)

theorem promisedTo_depositTokens (id : OperationId) (pins : Multiset (SlotPin n)) :
    promisedTo id (depositTokens id pins : Multiset (Token n blockSize)) = pins := by
  simp [promisedTo, depositTokens, Token.promised, Function.comp_def]

theorem operation?_of_mem_depositTokens {id : OperationId} {pins : Multiset (SlotPin n)}
    {token : Token n blockSize} (hmem : token ∈ depositTokens id pins) :
    ∃ pin ∈ pins, token = .deposited id pin := by
  obtain ⟨pin, hpin, rfl⟩ := Multiset.mem_map.mp hmem
  exact ⟨pin, hpin, rfl⟩

/-- Tokens that belong to one operation or to none. -/
def OnlyOf (id : OperationId) (owned : Multiset (Token n blockSize)) : Prop :=
  ∀ token ∈ owned, ∀ other, token.operation? = some other → other = id

namespace OnlyOf

variable {id : OperationId} {first second : Multiset (Token n blockSize)}

theorem zero : OnlyOf id (0 : Multiset (Token n blockSize)) := by
  simp [OnlyOf]

theorem singleton {token : Token n blockSize} (h : token.operation? = some id) :
    OnlyOf id {token} := by
  simp [OnlyOf, h, eq_comm]

theorem add (h : OnlyOf id first) (h' : OnlyOf id second) : OnlyOf id (first + second) :=
  fun token hmem => (Multiset.mem_add.mp hmem).elim (h token) (h' token)

theorem pinTokens (pins : Multiset (SlotPin n)) :
    OnlyOf id (pinTokens pins : Multiset (Token n blockSize)) := by
  intro token hmem other hother
  obtain ⟨pin, -, rfl⟩ := Multiset.mem_map.mp hmem
  cases hother

theorem depositTokens (pins : Multiset (SlotPin n)) :
    OnlyOf id (depositTokens id pins : Multiset (Token n blockSize)) := by
  intro token hmem other hother
  obtain ⟨pin, -, rfl⟩ := operation?_of_mem_depositTokens hmem
  exact (Option.some.inj hother).symm

end OnlyOf

namespace OffOperations

variable {used given rest : Multiset (Token n blockSize)}

theorem zero : OffOperations (0 : Multiset (Token n blockSize)) := by
  intro token hmem
  cases hmem

theorem singleton {token : Token n blockSize} (h : token.operation? = none) :
    OffOperations {token} := by
  intro other hmem
  rw [Multiset.mem_singleton.mp hmem]
  exact h

theorem promised (h : OffOperations used) (id : OperationId) : promisedTo id used = 0 :=
  promisedTo_eq_zero id fun token hmem => by
    simp [h token hmem]

theorem operations (h : OffOperations used) (id : OperationId) :
    tally (Token.isOperation id) used = 0 :=
  tally_of_other (fun _ => Token.operation?_of_isOperation) fun token hmem => by simp [h token hmem]

theorem deliveries (h : OffOperations used) (id : OperationId) :
    tally (Token.isDelivery id) used = 0 :=
  tally_of_other (fun _ => Token.operation?_of_isDelivery) fun token hmem => by simp [h token hmem]

theorem mem_rest (h : OffOperations given) {token : Token n blockSize} {id : OperationId}
    (hmem : token ∈ given + rest) (hid : token.operation? = some id) : token ∈ rest := by
  rcases Multiset.mem_add.mp hmem with hgiven | hrest
  · rw [h token hgiven] at hid
    cases hid
  · exact hrest

end OffOperations

theorem ReadBuffersState.slotPins_except {state state' : ReadBuffersState n} {i : Nat}
    {pin : SlotPin n} (hlength : state'.slots.length = state.slots.length)
    (hi : i < state.slots.length) (hpin : state.slotPin i = some pin)
    (hnone : state'.slotPin i = none) (hother : ∀ j, j ≠ i → state'.slotPin j = state.slotPin j) :
    (state.slotPins : Multiset (SlotPin n)) = pin ::ₘ ↑state'.slotPins := by
  obtain ⟨before, after, hrange⟩ := List.append_of_mem (List.mem_range.mpr hi)
  have hnodup : (before ++ i :: after).Nodup := hrange ▸ List.nodup_range
  rw [List.nodup_append] at hnodup
  obtain ⟨-, hafter, hbefore⟩ := hnodup
  have hkept : ∀ part : List Nat, i ∉ part →
      part.filterMap state'.slotPin = part.filterMap state.slotPin := by
    intro part hnot
    refine List.filterMap_congr fun j hj => hother j ?_
    rintro rfl
    exact hnot hj
  have hsplit : state.slotPins = before.filterMap state.slotPin ++
      pin :: after.filterMap state.slotPin := by
    rw [ReadBuffersState.slotPins, hrange, List.filterMap_append, List.filterMap_cons, hpin]
  have hsplit' : state'.slotPins =
      before.filterMap state.slotPin ++ after.filterMap state.slotPin := by
    rw [ReadBuffersState.slotPins, hlength, hrange, List.filterMap_append,
      List.filterMap_cons, hnone, hkept before fun hin => hbefore i hin i (by simp) rfl,
      hkept after (List.nodup_cons.mp hafter).1]
  rw [hsplit, hsplit', Multiset.cons_coe, Multiset.coe_eq_coe]
  exact List.perm_middle

theorem ReadBuffersState.slotPins_failSlot (state : ReadBuffersState n) {pin : SlotPin n}
    (hmem : pin ∈ state.slotPins) : (state.slotPins : Multiset (SlotPin n)) =
      pin ::ₘ ↑{ state with slots := state.slots.set pin.slot .failed }.slotPins := by
  obtain ⟨i, hi, hpin⟩ := List.mem_filterMap.mp hmem
  have hslot : pin.slot = i := by
    simp only [ReadBuffersState.slotPin] at hpin
    split at hpin
    · obtain ⟨frame, -, rfl⟩ := Option.map_eq_some_iff.mp hpin
      rfl
    · cases hpin
  have hlt : i < state.slots.length := List.mem_range.mp hi
  rw [hslot]
  refine slotPins_except List.length_set hlt hpin ?_ fun j hne => ?_
  · simp [ReadBuffersState.slotPin, hlt]
  · simp [ReadBuffersState.slotPin, List.getElem?_set_ne (Ne.symm hne)]

namespace Operations

variable {shared shared' : Shared n blockSize} {owned used given rest : Multiset (Token n blockSize)}

theorem agree (h : Operations shared owned) (hoperations : shared'.operations = shared.operations)
    (hnext : shared.nextId ≤ shared'.nextId) : Operations shared' owned where
  fresh token hmem id hid := lt_of_lt_of_le (h.fresh token hmem id hid) hnext
  owner := h.owner
  stored := by rw [hoperations]; exact h.stored
  owned := h.owned

theorem exchange (h : Operations shared (used + rest)) (hused : OffOperations used)
    (hgiven : OffOperations given) : Operations shared (given + rest) := by
  have hmem : ∀ token ∈ given + rest, ∀ id, token.operation? = some id → token ∈ used + rest :=
    fun token hmem id hid => Multiset.mem_add.mpr (.inr (hgiven.mem_rest hmem hid))
  have hback : ∀ token ∈ used + rest, ∀ id, token.operation? = some id → token ∈ given + rest :=
    fun token hmem id hid => Multiset.mem_add.mpr (.inr (hused.mem_rest hmem hid))
  constructor
  case fresh => exact fun token htoken id hid => h.fresh token (hmem token htoken id hid) id hid
  case owner =>
      intro id
      simpa [hused.operations, hgiven.operations] using h.owner id
  case stored =>
      intro id uncounted hop
      simpa [hused.promised, hgiven.promised, hused.deliveries, hgiven.deliveries] using
        h.stored id uncounted (hmem _ hop id rfl)
  case owned =>
      intro token htoken id hid
      exact (h.owned token (hmem token htoken id hid) id hid).imp_right fun ⟨uncounted, hop⟩ =>
        ⟨uncounted, hback _ hop id rfl⟩

theorem unique (h : Operations shared owned) {id : OperationId} {stage stage' : OperationStage n}
    (hmem : .operation id stage ∈ owned) (hmem' : .operation id stage' ∈ owned) :
    stage = stage' := by
  have heq := eq_of_tally_le_one (h.owner id) hmem hmem' (by simp [Token.isOperation])
    (by simp [Token.isOperation])
  cases heq
  rfl

theorem alone {id : OperationId} {stage : OperationStage n}
    (h : Operations shared ({.operation id stage} + rest))
    (hstage : ∀ uncounted, stage ≠ .stored uncounted) {token : Token n blockSize}
    (hmem : token ∈ rest) : token.operation? ≠ some id := by
  intro hid
  have hone := h.owner id
  have hown : token ∈ {Token.operation id stage} + rest := Multiset.mem_add.mpr (.inr hmem)
  rcases h.owned token hown id hid with ⟨other, rfl⟩ | ⟨uncounted, hop⟩
  · have hpos : 0 < tally (Token.isOperation id) rest :=
      tally_pos hmem (by simp [Token.isOperation])
    rw [tally_add, tally_singleton] at hone
    simp only [Token.isOperation, decide_true, if_true] at hone
    omega
  · exact hstage uncounted (h.unique mem_own hop)

theorem exchangeAt (h : Operations shared (used + rest)) (id : OperationId)
    (hused : OnlyOf id used) (hgiven : OnlyOf id given)
    (hoperations : ∀ other, other ≠ id → shared'.operations other = shared.operations other)
    (hnext : shared.nextId ≤ shared'.nextId) (hid : id < shared'.nextId)
    (howner : tally (Token.isOperation id) (given + rest) ≤ 1)
    (hstored : ∀ uncounted, .operation id (.stored uncounted) ∈ given + rest →
      ∃ state, shared'.operations id = some state ∧ state.Matched ∧
        (state.slotPins : Multiset (SlotPin n)) = promisedTo id (given + rest) ∧
        state.waiter.pending = tally (Token.isDelivery id) (given + rest))
    (howned : ∀ token ∈ given + rest, token.operation? = some id →
      (∃ stage, .operation id stage = token) ∨
        ∃ uncounted, .operation id (.stored uncounted) ∈ given + rest) :
    Operations shared' (given + rest) := by
  have hsplit : ∀ part token, token ∈ part + rest ↔ token ∈ part ∨ token ∈ rest :=
    fun _ _ => Multiset.mem_add
  have hnone : ∀ {part : Multiset (Token n blockSize)} {other}, OnlyOf id part → other ≠ id →
      ∀ token ∈ part, token.operation? ≠ some other :=
    fun hpart hne token hmem hother => hne (hpart token hmem _ hother)
  -- tokens of other operations are the ones there were
  have hcount : ∀ {test : Token n blockSize → Bool} {other}, other ≠ id →
      (∀ token, test token = true → token.operation? = some other) →
        tally test (given + rest) = tally test (used + rest) := by
    intro test other hne htest
    rw [tally_add, tally_add, tally_of_other htest (hnone hused hne),
      tally_of_other htest (hnone hgiven hne)]
  have hpromised : ∀ other, other ≠ id →
      promisedTo other (given + rest) = promisedTo other (used + rest) := by
    intro other hne
    rw [promisedTo_add, promisedTo_add, promisedTo_eq_zero other (hnone hused hne),
      promisedTo_eq_zero other (hnone hgiven hne)]
  have hmem : ∀ token ∈ given + rest, ∀ other, token.operation? = some other → other ≠ id →
      token ∈ used + rest := by
    grind [OnlyOf]
  have hback : ∀ token ∈ used + rest, ∀ other, token.operation? = some other → other ≠ id →
      token ∈ given + rest := by
    grind [OnlyOf]
  constructor
  case fresh =>
      intro token htoken other hother
      have hbefore := h.fresh token
      grind
  case owner =>
      intro other
      by_cases hne : other = id
      · exact hne ▸ howner
      · rw [hcount hne fun _ => Token.operation?_of_isOperation]
        exact h.owner other
  case stored =>
      intro other uncounted hop
      by_cases hne : other = id
      · subst hne
        exact hstored uncounted hop
      · rw [hoperations other hne, hpromised other hne,
          hcount hne fun _ => Token.operation?_of_isDelivery]
        exact h.stored other uncounted (hmem _ hop other rfl hne)
  case owned =>
      intro token htoken other hother
      by_cases hne : other = id
      · subst hne
        exact howned token htoken hother
      · exact (h.owned token (hmem token htoken other hother hne) other hother).imp_right
          fun ⟨uncounted, hop⟩ => ⟨uncounted, hback _ hop other rfl hne⟩

theorem stored_of_delivery (h : Operations shared (used + rest)) {id : OperationId}
    {pins : List (SlotPin n)} (hmem : .delivery id pins ∈ used + rest)
    (hused : ∀ stage, .operation id stage ∉ used) :
    ∃ uncounted state, .operation id (.stored uncounted) ∈ rest ∧
      shared.operations id = some state ∧ state.Matched ∧
      (state.slotPins : Multiset (SlotPin n)) = promisedTo id (used + rest) ∧
      state.waiter.pending = tally (Token.isDelivery id) (used + rest) := by
  rcases h.owned _ hmem id rfl with ⟨stage, hstage⟩ | ⟨uncounted, hop⟩
  · cases hstage
  · obtain ⟨state, hstate⟩ := h.stored id uncounted hop
    exact ⟨uncounted, state, (Multiset.mem_add.mp hop).resolve_left (hused _), hstate⟩

theorem newOperation (h : Operations shared rest) :
    Operations { shared with nextId := shared.nextId + 1 }
      ({.operation shared.nextId .fresh} + rest) := by
  have hrest : ∀ token ∈ rest, token.operation? ≠ some shared.nextId :=
    fun token hmem hid => absurd rfl (h.fresh token hmem _ hid).ne
  have h' : Operations shared (0 + rest) := by rwa [zero_add]
  refine h'.exchangeAt shared.nextId .zero (.singleton rfl) (fun _ _ => rfl) (Nat.le_succ _)
    (Nat.lt_succ_self _) ?_ ?_ ?_
  · simp [Token.isOperation, tally_of_other (fun _ => Token.operation?_of_isOperation) hrest]
  · intro uncounted hmem
    rcases Multiset.mem_add.mp hmem with hnew | hold
    · cases Multiset.mem_singleton.mp hnew
    · exact absurd rfl (hrest _ hold)
  · intro token hmem hid
    rcases Multiset.mem_add.mp hmem with hnew | hold
    · exact .inl ⟨.fresh, (Multiset.mem_singleton.mp hnew).symm⟩
    · exact absurd hid (hrest token hold)

theorem addPending {id : OperationId} {pins : List (SlotPin n)}
    {uncounted : List (List (SlotPin n))}
    (h : Operations shared ({.operation id (.stored (pins :: uncounted))} + rest)) :
    Operations { shared with
        operations := Function.update shared.operations id
          ((shared.operations id).map fun state =>
            { state with waiter := { state.waiter with pending := state.waiter.pending + 1 } }) }
      (({.operation id (.stored uncounted)} + {.delivery id pins}) + rest) := by
  obtain ⟨state, hstate, hmatched, hpins, hpending⟩ := h.stored id _ mem_own
  refine h.exchangeAt id (.singleton rfl) (.add (.singleton rfl) (.singleton rfl))
    (fun other hne => Function.update_of_ne hne _ _) le_rfl (h.fresh _ mem_own id rfl)
    (by simpa [Token.isOperation] using h.owner id) ?_ fun _ _ _ => .inr ⟨uncounted, by simp⟩
  · intro _ _
    refine ⟨{ state with waiter := { state.waiter with
      pending := state.waiter.pending + 1 } }, by simp [hstate], hmatched, ?_, ?_⟩
    · have hsame : ({ state with waiter := { state.waiter with
          pending := state.waiter.pending + 1 } } : ReadBuffersState n).slotPins =
            state.slotPins := rfl
      rw [hsame, hpins]
      simp [Token.promised, ← Multiset.coe_add, add_assoc, add_left_comm]
    · simp [Token.isDelivery] at hpending ⊢
      omega

theorem failSlot {id : OperationId} {pin : SlotPin n} {pins : List (SlotPin n)}
    (h : Operations shared ({.delivery id (pin :: pins)} + rest)) :
    Operations { shared with
        operations := Function.update shared.operations id
          ((shared.operations id).map fun state =>
            { state with slots := state.slots.set pin.slot .failed }) }
      ({.delivery id pins} + rest) := by
  obtain ⟨uncounted, state, hop, hstate, hmatched, hpins, hpending⟩ :=
    h.stored_of_delivery mem_own (by simp)
  refine h.exchangeAt id (.singleton rfl) (.singleton rfl)
    (fun other hne => Function.update_of_ne hne _ _) le_rfl (h.fresh _ mem_own id rfl)
    (by simpa [Token.isOperation] using h.owner id) ?_
    fun _ _ _ => .inr ⟨uncounted, Multiset.mem_add.mpr (.inr hop)⟩
  · intro _ _
    refine ⟨{ state with slots := state.slots.set pin.slot .failed }, by simp [hstate],
      hmatched.trans List.length_set.symm, ?_, ?_⟩
    · have hmem : pin ∈ state.slotPins := by
        rw [← Multiset.mem_coe, hpins]
        simp [Token.promised]
      have hsplit := state.slotPins_failSlot hmem
      rw [hpins, promisedTo_add, promisedTo_singleton, ← Multiset.singleton_add] at hsplit
      have hpromised : (.delivery id (pin :: pins) : Token n blockSize).promised id =
          {pin} + (.delivery id pins : Token n blockSize).promised id := by
        simp [Token.promised]
      rw [hpromised, add_assoc] at hsplit
      rw [promisedTo_add, promisedTo_singleton]
      exact (add_left_cancel hsplit).symm
    · simpa [Token.isDelivery] using hpending

theorem closeOperation {id : OperationId} (h : Operations shared ({.operation id .closing} + rest))
    {state : Option (ReadBuffersState n)} :
    Operations { shared with operations := Function.update shared.operations id state }
      (0 + rest) := by
  have hrest : ∀ token ∈ rest, token.operation? ≠ some id :=
    fun token hmem => h.alone (fun _ heq => by cases heq) hmem
  refine h.exchangeAt id (.singleton rfl) .zero (fun other hne => Function.update_of_ne hne _ _)
    le_rfl (h.fresh _ mem_own id rfl) ?_ ?_ ?_
  · simp [tally_of_other (fun _ => Token.operation?_of_isOperation) hrest]
  · intro uncounted hmem
    rw [zero_add] at hmem
    exact absurd rfl (hrest _ hmem)
  · intro token hmem hid
    rw [zero_add] at hmem
    exact absurd hid (hrest token hmem)

variable {id : OperationId}

theorem tally_depositTokens {test : Token n blockSize → Bool}
    (htest : ∀ pin, test (.deposited id pin) = false) (pins : Multiset (SlotPin n)) :
    tally test (depositTokens id pins) = 0 :=
  tally_eq_zero fun token hmem => by
    obtain ⟨pin, -, rfl⟩ := operation?_of_mem_depositTokens hmem
    exact htest pin

theorem pinTokens_offOperations (pins : Multiset (SlotPin n)) :
    OffOperations (pinTokens pins : Multiset (Token n blockSize)) := by
  intro token hmem
  obtain ⟨pin, -, rfl⟩ := Multiset.mem_map.mp hmem
  rfl

theorem storeOperation {held : Multiset (SlotPin n)} {uncounted : List (List (SlotPin n))}
    {state : ReadBuffersState n}
    (h : Operations shared (({.operation id .fresh} + pinTokens held) + rest))
    (hpending : state.waiter.pending = 0) (hmatched : state.Matched)
    (hslots : (state.slotPins : Multiset (SlotPin n)) = held + ↑uncounted.flatten) :
    Operations { shared with operations := Function.update shared.operations id (some state) }
      (({.operation id (.stored uncounted)} + depositTokens id held) + rest) := by
  have hfresh : Operations shared ({.operation id .fresh} + (pinTokens held + rest)) := by
    rwa [← add_assoc]
  have hrest : ∀ token ∈ rest, token.operation? ≠ some id := fun token hmem =>
    hfresh.alone (fun _ heq => by cases heq) (Multiset.mem_add.mpr (.inr hmem))
  refine h.exchangeAt id (.add (.singleton rfl) (.pinTokens held))
    (.add (.singleton rfl) (.depositTokens held))
    (fun other hne => Function.update_of_ne hne _ _) le_rfl (hfresh.fresh _ mem_own id rfl) ?_ ?_
    fun _ _ _ => .inr ⟨uncounted, by simp⟩
  · rw [tally_add, tally_add, tally_of_other (fun _ => Token.operation?_of_isOperation) hrest,
      tally_depositTokens fun _ => rfl]
    simp [Token.isOperation]
  · intro other hmem
    refine ⟨state, by simp, hmatched, ?_, ?_⟩
    · rw [hslots, promisedTo_add, promisedTo_add, promisedTo_depositTokens,
        promisedTo_eq_zero id hrest, promisedTo_singleton]
      simp [Token.promised, add_comm]
    · rw [hpending, tally_add, tally_add,
        tally_of_other (fun _ => Token.operation?_of_isDelivery) hrest,
        tally_depositTokens fun _ => rfl]
      simp [Token.isDelivery]

theorem completeOperation {pins : List (SlotPin n)} {status : Status}
    (h : Operations shared (({.delivery id pins} + pinTokens pins) + rest)) :
    Operations { shared with
        operations := Function.update shared.operations id
          ((shared.operations id).map fun state =>
            { state with waiter := state.waiter.complete status }) }
      (depositTokens id pins + rest) := by
  have hdelivery : .delivery id pins ∈ ({.delivery id pins} + pinTokens pins) + rest := by simp
  obtain ⟨uncounted, state, hop, hstate, hmatched, hpins, hpending⟩ :=
    h.stored_of_delivery hdelivery (by simp [pinTokens])
  refine h.exchangeAt id (.add (.singleton rfl) (.pinTokens _)) (.depositTokens _)
    (fun other hne => Function.update_of_ne hne _ _) le_rfl (h.fresh _ hdelivery id rfl) ?_ ?_
    fun _ _ _ => .inr ⟨uncounted, Multiset.mem_add.mpr (.inr hop)⟩
  · have howner := h.owner id
    rw [tally_add, tally_add, (pinTokens_offOperations _).operations] at howner
    rw [tally_add, tally_depositTokens fun _ => rfl]
    omega
  · intro _ _
    refine ⟨{ state with waiter := state.waiter.complete status }, by simp [hstate], hmatched,
      ?_, ?_⟩
    · have hsame : ({ state with waiter := state.waiter.complete status } :
          ReadBuffersState n).slotPins = state.slotPins := rfl
      rw [hsame, hpins, promisedTo_add, promisedTo_add, (pinTokens_offOperations _).promised,
        promisedTo_add, promisedTo_depositTokens, promisedTo_singleton]
      simp [Token.promised]
    · rw [tally_add, tally_add, (pinTokens_offOperations _).deliveries, tally_singleton] at hpending
      rw [tally_add, tally_depositTokens fun _ => rfl]
      simp only [Token.isDelivery, decide_true, if_true] at hpending
      simp only [IoWaiter.complete]
      omega

theorem finishOperation {pins : Multiset (SlotPin n)}
    (h : Operations shared (({.operation id (.stored [])} + depositTokens id pins) + rest))
    (hrest : ∀ pin, .deposited id pin ∉ rest) {state : ReadBuffersState n}
    (hstate : shared.operations id = some state) (hpending : state.waiter.pending = 0) :
    pins = ↑state.slotPins ∧
      Operations shared (({.operation id .closing} + pinTokens pins) + rest) := by
  obtain ⟨state', hstate', -, hpins, hcount⟩ := h.stored id [] (by simp)
  obtain rfl : state = state' := Option.some.inj (hstate.symm.trans hstate')
  have hmem : ∀ token ∈ rest, token.operation? ≠ some id := by
    intro token hmem hid
    have hall : token ∈ ({.operation id (.stored [])} + depositTokens id pins) + rest :=
      Multiset.mem_add.mpr (.inr hmem)
    cases token with
    | operation other stage =>
        cases hid
        have howner := h.owner id
        have hpos : 0 < tally (Token.isOperation id) rest :=
          tally_pos hmem (by simp [Token.isOperation])
        simp only [tally_add, tally_singleton, Token.isOperation, decide_true, if_true] at howner
        omega
    | delivery other left =>
        cases hid
        have hpos : 0 < tally (Token.isDelivery id)
            (({.operation id (.stored [])} + depositTokens id pins) + rest) :=
          tally_pos hall (by simp [Token.isDelivery])
        omega
    | deposited other left =>
        cases hid
        exact hrest left hmem
    | _ => cases hid
  refine ⟨?_, h.exchangeAt id (.add (.singleton rfl) (.depositTokens pins))
    (.add (.singleton rfl) (.pinTokens pins)) (fun _ _ => rfl) le_rfl
    (h.fresh (.operation id (.stored [])) (by simp) id rfl) ?_ ?_ ?_⟩
  · rw [hpins, promisedTo_add, promisedTo_add, promisedTo_depositTokens,
      promisedTo_eq_zero id hmem, promisedTo_singleton]
    simp [Token.promised]
  · rw [tally_add, tally_add, (pinTokens_offOperations _).operations,
      tally_of_other (fun _ => Token.operation?_of_isOperation) hmem]
    simp [Token.isOperation]
  · intro uncounted hin
    simp only [Multiset.mem_add, Multiset.mem_singleton] at hin
    rcases hin with (hin | hin) | hin
    · cases hin
    · cases pinTokens_offOperations _ _ hin
    · exact absurd rfl (hmem _ hin)
  · intro token hin hid
    simp only [Multiset.mem_add, Multiset.mem_singleton] at hin
    rcases hin with (rfl | hin) | hin
    · exact .inl ⟨.closing, rfl⟩
    · rw [pinTokens_offOperations _ _ hin] at hid
      cases hid
    · exact absurd hid (hmem token hin)

end Operations

section Trade

variable {shared shared' : Shared n blockSize} {action : Action n blockSize}
  {seen used others D : Multiset (Token n blockSize)}
  {given : Reply action → Multiset (Token n blockSize) → Prop} {choice : Choice n}
  {reply : Reply action}

theorem Trade.offOperations (htrade : Trade action seen used given)
    (haction : action.onOperationOwner = false) (hgiven : given reply D) :
    OffOperations used ∧ OffOperations D :=
  ⟨fun _ hmem => (htrade.about hgiven _ (Multiset.mem_add.mpr (.inl hmem))).operations haction,
    fun _ hmem => (htrade.about hgiven _ (mem_rest hmem)).operations haction⟩

theorem Trade.sameOperations (htrade : Trade action seen used given)
    (haction : action.onOperationOwner = false)
    (hexec : exec shared choice action = some (reply, shared')) :
    shared'.operations = shared.operations ∧ shared.nextId ≤ shared'.nextId := by
  refine ⟨(exec_keeps hexec).operations ?_, (exec_keeps hexec).nextId⟩
  cases htrade with
  | silent hsilent => cases action <;> first | rfl | exact Bool.noConfusion hsilent
  | addPending | failSlot | closeOperation => exact Bool.noConfusion haction
  | _ => rfl

theorem Operations.trade (htrade : Trade action seen used given)
    (h : Operations shared (used + (seen + others)))
    (hexec : exec shared choice action = some (reply, shared')) (hgiven : given reply D) :
    Operations shared' (D + (seen + others)) := by
  cases haction : action.onOperationOwner with
  | false =>
      obtain ⟨hused, hD⟩ := htrade.offOperations haction hgiven
      obtain ⟨hoperations, hnext⟩ := htrade.sameOperations haction hexec
      exact (h.exchange hused hD).agree hoperations hnext
  | true =>
      cases htrade with
      | silent hsilent =>
          subst hgiven
          have hagrees := exec_silent hsilent hexec
          exact h.agree hagrees.operations hagrees.nextId
      | newOperation =>
          subst hgiven
          cases hexec
          simp only [zero_add] at h ⊢
          exact h.newOperation
      | addPending id pins uncounted =>
          subst hgiven
          cases hexec
          exact h.addPending
      | failSlot id pin pins =>
          subst hgiven
          cases hexec
          exact h.failSlot
      | closeOperation id =>
          subst hgiven
          cases hexec
          exact h.closeOperation
      | _ => exact Bool.noConfusion haction

end Trade

end TelePath
