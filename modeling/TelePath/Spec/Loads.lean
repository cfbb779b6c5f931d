import Mathlib.Tactic.Abel
import TelePath.Invariant.Operations
import TelePath.Spec.Calls

/-!
What asynchronous reads need and what they leave: prefetches, and the operations that a
client starts and waits for.
-/

namespace TelePath

open FrameControl Logic Manager
open Program (uses_ite uses_seq)

variable {n blockSize : Nat} {context : Multiset (Token n blockSize)}

/-! ### Gathering reservations into loads -/

/-- All entries of some loads, in order. -/
def entriesOf (loads : List (AsyncLoad n)) : List (AsyncLoadEntry n) :=
  loads.flatMap (·.entries)

/-- Every load belongs to the operation and reads consecutive blocks. -/
def LoadsFor (operation : Option OperationId) (loads : List (AsyncLoad n)) : Prop :=
  ∀ load ∈ loads, load.operation = operation ∧ load.entries ≠ [] ∧ load.Consecutive

theorem AsyncLoad.consecutive_single (operation : Option OperationId)
    (entry : AsyncLoadEntry n) : (⟨operation, [entry]⟩ : AsyncLoad n).Consecutive := by
  intro i other hother
  cases i with
  | zero =>
      cases hother
      simp [AsyncLoad.firstTag]
  | succ i => cases hother

theorem AsyncLoad.Consecutive.extend {load : AsyncLoad n} {last entry : AsyncLoadEntry n}
    (h : load.Consecutive) (hlast : load.entries.getLast? = some last)
    (hfile : last.tag.fileId = entry.tag.fileId)
    (hblock : last.tag.blockId + 1#64 = entry.tag.blockId) :
    ({ load with entries := load.entries ++ [entry] } : AsyncLoad n).Consecutive := by
  obtain ⟨first, rest, hentries⟩ : ∃ first rest, load.entries = first :: rest :=
    List.exists_cons_of_ne_nil (by rintro hnil; simp [hnil] at hlast)
  have hfirst : ({ load with entries := load.entries ++ [entry] } : AsyncLoad n).firstTag =
      load.firstTag := by
    simp [AsyncLoad.firstTag, hentries]
  intro i other hother
  rw [hfirst]
  rcases Nat.lt_or_ge i load.entries.length with hi | hi
  · rw [List.getElem?_append_left hi] at hother
    exact h i other hother
  · rw [List.getElem?_append_right hi] at hother
    obtain ⟨hzero, rfl⟩ : i - load.entries.length = 0 ∧ entry = other := by
      simpa [List.getElem?_singleton] using hother
    have hi' : i = load.entries.length := by omega
    rw [List.getLast?_eq_getElem?] at hlast
    have htag := h _ last hlast
    have hlength : 0 < load.entries.length := by simp [hentries]
    have hnext : BitVec.ofNat 64 (load.entries.length - 1) + 1#64 = BitVec.ofNat 64 i := by
      rw [hi', ← BitVec.ofNat_add]
      congr 1
      omega
    have hblockId : entry.tag.blockId = load.firstTag.blockId + BitVec.ofNat 64 i := by
      rw [← hblock, htag, ← hnext, BitVec.add_assoc]
    have hfileId : entry.tag.fileId = load.firstTag.fileId := by
      rw [← hfile, htag]
    cases htag' : entry.tag with
    | mk fileId blockId =>
        rw [htag'] at hblockId hfileId
        simp only at hblockId hfileId
        rw [hblockId, hfileId]

theorem entriesOf_appendAsyncLoad (maxRequestBlocks : Nat) (loads : List (AsyncLoad n))
    (operation : Option OperationId) (entry : AsyncLoadEntry n) :
    entriesOf (appendAsyncLoad maxRequestBlocks loads operation entry) =
      entriesOf loads ++ [entry] := by
  rw [appendAsyncLoad]
  cases hlast : loads.getLast? with
  | none =>
      rw [List.getLast?_eq_none_iff.mp hlast]
      rfl
  | some last =>
      simp only
      split
      · obtain ⟨before, rfl⟩ := List.getLast?_eq_some_iff.mp hlast
        simp [entriesOf]
      · simp [entriesOf]

theorem LoadsFor.append {operation : Option OperationId} {loads : List (AsyncLoad n)}
    (h : LoadsFor operation loads) (maxRequestBlocks : Nat) (entry : AsyncLoadEntry n) :
    LoadsFor operation (appendAsyncLoad maxRequestBlocks loads operation entry) := by
  have hsingle : ∀ load ∈ [(⟨operation, [entry]⟩ : AsyncLoad n)],
      load.operation = operation ∧ load.entries ≠ [] ∧ load.Consecutive := by
    intro load hmem
    rw [List.mem_singleton.mp hmem]
    exact ⟨rfl, List.cons_ne_nil _ _, AsyncLoad.consecutive_single operation entry⟩
  rw [appendAsyncLoad]
  cases hlast : loads.getLast? with
  | none => exact hsingle
  | some last =>
      simp only
      split
      · rename_i hextends
        obtain ⟨before, rfl⟩ := List.getLast?_eq_some_iff.mp hlast
        obtain ⟨hoperation, -, hconsecutive⟩ := h last (by simp)
        obtain ⟨-, hnext⟩ := hextends
        cases hprevious : last.entries.getLast? with
        | none => simp [hprevious] at hnext
        | some previous =>
            obtain ⟨hfile, hblock⟩ : previous.tag.fileId = entry.tag.fileId ∧
                previous.tag.blockId + 1#64 = entry.tag.blockId := by
              simpa [hprevious] using hnext
            intro load hmem
            rw [List.dropLast_concat, List.mem_append, List.mem_singleton] at hmem
            rcases hmem with hold | rfl
            · exact h load (List.mem_append_left _ hold)
            · exact ⟨hoperation, by simp, hconsecutive.extend hprevious hfile hblock⟩
      · intro load hmem
        rcases List.mem_append.mp hmem with hold | hnew
        · exact h load hold
        · exact hsingle load hnew

/-- The frames of some loads, reserved and not yet submitted. -/
def loadsTokens (loads : List (AsyncLoad n)) : Multiset (Token n blockSize) :=
  entryTokens (entriesOf loads) .empty

theorem loadsTokens_append (maxRequestBlocks : Nat) (loads : List (AsyncLoad n))
    (operation : Option OperationId) (entry : AsyncLoadEntry n) :
    (loadsTokens (appendAsyncLoad maxRequestBlocks loads operation entry) :
      Multiset (Token n blockSize)) =
      {.loading entry.reservation.frame (.installed entry.tag .empty)} + loadsTokens loads := by
  rw [loadsTokens, entriesOf_appendAsyncLoad, entryTokens, List.map_append, ← Multiset.coe_add,
    add_comm]
  rfl

theorem loadsTokens_cons (load : AsyncLoad n) (rest : List (AsyncLoad n)) :
    (loadsTokens (load :: rest) : Multiset (Token n blockSize)) =
      load.frameTokens .empty + loadsTokens rest := by
  rw [loadsTokens, entriesOf, List.flatMap_cons, entryTokens, List.map_append, ← Multiset.coe_add]
  rfl

/-! ### Submitting loads -/

/-- The operation that counts some loads, with those it has not counted yet. -/
def ownerTokens (operation : Option OperationId) (uncounted : List (AsyncLoad n)) :
    Multiset (Token n blockSize) :=
  operation.elim 0 fun id =>
    {.operation id (.stored (uncounted.map fun load => entryPins load.entries))}

/-- What a load takes along when it is submitted. -/
def submittedTokens (item : AsyncLoad n × LoadId) : Multiset (Token n blockSize) :=
  {.load item.2 item.1} + item.1.tokens .empty

theorem prepareLoad_spec (load : AsyncLoad n) (uncounted : List (AsyncLoad n))
    (hconsecutive : load.Consecutive) :
    Ensures Rule context (prepareLoad load : Prog n blockSize _)
      (fun request Q => ∃ id, request = load.request id ∧
        Q = submittedTokens (load, id) + ownerTokens load.operation uncounted)
      (load.frameTokens .empty + ownerTokens load.operation (load :: uncounted)) := by
  obtain ⟨operation, entries⟩ := load
  cases operation with
  | none =>
      refine ensures_silent rfl fun _ => ?_
      refine ensures_act (.handover (.newLoad _ hconsecutive)) (zero_add _).symm
        (zero_add _).symm ?_
      rintro id _ rfl
      refine ⟨id, rfl, ?_⟩
      simp [submittedTokens, AsyncLoad.tokens, AsyncLoad.promise, ownerTokens]
  | some operation =>
      refine ensures_act (.trade (.addPending operation (entryPins entries) _)) (add_comm _ _)
        (zero_add _).symm ?_
      rintro _ _ rfl
      refine ensures_act (.handover (.newLoad _ hconsecutive)) (zero_add _).symm
        (zero_add _).symm ?_
      rintro id _ rfl
      refine ⟨id, rfl, ?_⟩
      simp only [submittedTokens, AsyncLoad.tokens, AsyncLoad.promise, ownerTokens,
        Option.elim_some, entryPins]
      abel

theorem prepareLoads_spec {operation : Option OperationId} (loads : List (AsyncLoad n))
    (hloads : LoadsFor operation loads) :
    Ensures Rule context (prepareLoads loads : Prog n blockSize _)
      (fun requests Q => ∃ items : List (AsyncLoad n × LoadId),
        requests = items.map (fun item => item.1.request item.2) ∧
          Q = (items.map submittedTokens).sum + ownerTokens operation [])
      (loadsTokens loads + ownerTokens operation loads) := by
  induction loads with
  | nil => exact ⟨[], rfl, rfl⟩
  | cons load rest ih =>
      obtain ⟨rfl, -, hconsecutive⟩ := hloads load (List.mem_cons_self ..)
      refine (prepareLoad_spec load rest hconsecutive).call
        (by rw [loadsTokens_cons, add_right_comm]) ?_
      rintro _ _ ⟨id, rfl, rfl⟩
      have hrest : submittedTokens (load, id) + ownerTokens load.operation rest +
          loadsTokens rest = (loadsTokens rest + ownerTokens load.operation rest +
            submittedTokens (load, id) : Multiset (Token n blockSize)) := by
        abel
      refine (ih fun other hmem => hloads other (List.mem_cons_of_mem _ hmem)).call hrest ?_
      rintro requests _ ⟨items, rfl, rfl⟩
      refine ⟨(load, id) :: items, rfl, ?_⟩
      rw [List.map_cons, List.sum_cons]
      abel

theorem submitAsyncLoads_spec {operation : Option OperationId} (loads : List (AsyncLoad n))
    (hloads : LoadsFor operation loads) :
    Ensures Rule context (submitAsyncLoads loads : Prog n blockSize Unit)
      (fun _ Q => Q = ownerTokens operation [])
      (loadsTokens loads + ownerTokens operation loads) := by
  refine (prepareLoads_spec loads hloads).seq ?_
  rintro _ _ ⟨items, rfl, rfl⟩
  refine ((submit_spec items _ _ fun item _ => submitLoad_spec item.1 item.2).frame _).mono ?_
  rintro _ _ ⟨_, rfl, rfl⟩
  exact zero_add _

theorem reservePrefetches_spec (mode : ForegroundWriteback) (maxRequestBlocks : Nat)
    (file : FileId) (block : BlockId) (blocks : List Nat) (loads : List (AsyncLoad n))
    (hloads : LoadsFor none loads) :
    Ensures Rule context
      (reservePrefetches mode maxRequestBlocks file block blocks loads : Prog n blockSize _)
      (fun found Q => LoadsFor none found.1 ∧ Q = loadsTokens found.1) (loadsTokens loads) := by
  induction blocks generalizing loads with
  | nil => exact ⟨hloads, rfl⟩
  | cons i rest ih =>
      refine ensures_after_silent (silent_isResidentTag _) fun resident => ?_
      cases resident with
      | true => exact ih loads hloads
      | false =>
          refine (reserveFrameForTag_spec mode _ none false).call (zero_add _).symm ?_
          rintro found _ rfl
          match found with
          | .error error => exact ⟨hloads, zero_add _⟩
          | .ok none =>
              have hsame := ih loads hloads
              rw [← zero_add (loadsTokens loads)] at hsame
              exact hsame
          | .ok (some reservation) =>
              have hmore := ih _ (hloads.append maxRequestBlocks
                ⟨⟨file, block + BitVec.ofNat 64 i⟩, reservation, i⟩)
              rw [loadsTokens_append] at hmore
              exact hmore

theorem prefetchBuffer_spec (mode : ForegroundWriteback) (maxRequestBlocks : Nat)
    (file : FileId) (block : BlockId) (blockCount : Nat) :
    Ensures Rule context
      (prefetchBuffer mode maxRequestBlocks file block blockCount : Prog n blockSize Status)
      (fun _ Q => Q = 0) 0 := by
  refine whenUsable_spec ((reservePrefetches_spec mode maxRequestBlocks file block _ []
    (List.forall_mem_nil _)).seq ?_)
  rintro ⟨loads, status⟩ _ ⟨hloads, rfl⟩
  have hnone : (loadsTokens loads : Multiset (Token n blockSize)) =
      loadsTokens loads + ownerTokens none loads := (add_zero _).symm
  rw [hnone]
  refine (submitAsyncLoads_spec loads hloads).seq ?_
  rintro _ _ rfl
  rfl

/-! ### Operations -/

namespace ReadBuffersState

variable {state : ReadBuffersState n} {i : Nat}

theorem slotPin_deferred (h : state.slots[i]? = some .deferred) : state.slotPin i = none := by
  simp [slotPin, h]

theorem slotPins_setTag (h : state.slots[i]? = some .deferred) (tag : BufferTag) :
    { state with tags := state.tags.set i tag }.slotPins = state.slotPins := by
  refine List.filterMap_congr fun j _ => ?_
  by_cases hne : j = i
  · subst hne
    simp [slotPin, h]
  · simp [slotPin, List.getElem?_set_ne (Ne.symm hne)]

theorem slotPins_fill (h : state.slots[i]? = some .deferred) (hmatched : state.Matched)
    (frame : Fin n) {slot : Slot} (hslot : slot = .pinned ∨ slot = .loading) :
    ({ state with
        frames := state.frames.set i (some frame)
        slots := state.slots.set i slot }.slotPins : Multiset (SlotPin n)) =
      ⟨i, frame, state.tags.getD i {}⟩ ::ₘ ↑state.slotPins := by
  obtain ⟨hi, -⟩ := List.getElem?_eq_some_iff.mp h
  have hi' : i < state.frames.length := hmatched ▸ hi
  refine slotPins_except List.length_set.symm (by simpa using hi) ?_ (slotPin_deferred h)
    fun j hne => ?_
  · rcases hslot with rfl | rfl <;> simp [slotPin, hi, hi']
  · simp [slotPin, List.getElem?_set_ne (Ne.symm hne)]

end ReadBuffersState

/-- How far the scan of `StartReadBuffers` has got: the pins in `held` are taken, those of
the loads are reserved, and the slots still to come are deferred. -/
structure Scanned (operation : OperationId) (remaining : List Nat) (state : ReadBuffersState n)
    (held : Multiset (SlotPin n)) (loads : List (AsyncLoad n)) : Prop where
  pending : state.waiter.pending = 0
  matched : state.Matched
  tagged : state.tags.length = state.slots.length
  nodup : remaining.Nodup
  deferred : ∀ i ∈ remaining, state.slots[i]? = some .deferred
  slotPins : (state.slotPins : Multiset (SlotPin n)) = held + ↑(entryPins (entriesOf loads))
  loadsFor : LoadsFor (some operation) loads

namespace Scanned

variable {operation : OperationId} {i : Nat} {rest : List Nat} {state : ReadBuffersState n}
  {held : Multiset (SlotPin n)} {loads : List (AsyncLoad n)}

theorem head (h : Scanned operation (i :: rest) state held loads) :
    state.slots[i]? = some .deferred :=
  h.deferred i (List.mem_cons_self ..)

theorem skip (h : Scanned operation (i :: rest) state held loads) :
    Scanned operation rest state held loads :=
  { h with
    nodup := (List.nodup_cons.mp h.nodup).2
    deferred := fun j hmem => h.deferred j (List.mem_cons_of_mem _ hmem) }

theorem setTag (h : Scanned operation (i :: rest) state held loads) (tag : BufferTag) :
    Scanned operation (i :: rest) { state with tags := state.tags.set i tag } held loads :=
  { h with
    tagged := List.length_set.trans h.tagged
    slotPins := by rw [ReadBuffersState.slotPins_setTag h.head, h.slotPins] }

theorem getD_setTag (h : Scanned operation (i :: rest) state held loads) (tag : BufferTag) :
    (state.tags.set i tag).getD i {} = tag := by
  obtain ⟨hi, -⟩ := List.getElem?_eq_some_iff.mp h.head
  have hi' : i < state.tags.length := h.tagged ▸ hi
  simp [List.getD_eq_getElem?_getD, hi']

theorem fill (h : Scanned operation (i :: rest) state held loads) (frame : Fin n) {slot : Slot}
    (hslot : slot = .pinned ∨ slot = .loading) {held' : Multiset (SlotPin n)}
    {loads' : List (AsyncLoad n)} (hloads : LoadsFor (some operation) loads')
    (hpins : ((⟨i, frame, state.tags.getD i {}⟩ : SlotPin n) ::ₘ
        (held + (entryPins (entriesOf loads) : Multiset (SlotPin n)))) =
      held' + (entryPins (entriesOf loads') : Multiset (SlotPin n))) :
    Scanned operation rest
      { state with
        frames := state.frames.set i (some frame)
        slots := state.slots.set i slot } held' loads' where
  pending := h.pending
  matched := by simpa [ReadBuffersState.Matched] using h.matched
  tagged := by simpa using h.tagged
  nodup := (List.nodup_cons.mp h.nodup).2
  deferred j hmem := by
    have hne : i ≠ j := fun heq => (List.nodup_cons.mp h.nodup).1 (heq ▸ hmem)
    rw [List.getElem?_set_ne hne]
    exact h.deferred j (List.mem_cons_of_mem _ hmem)
  slotPins := by rw [ReadBuffersState.slotPins_fill h.head h.matched frame hslot, h.slotPins, hpins]
  loadsFor := hloads

theorem hit (h : Scanned operation (i :: rest) state held loads) (frame : Fin n) :
    Scanned operation rest
      { state with
        frames := state.frames.set i (some frame)
        slots := state.slots.set i .pinned } (⟨i, frame, state.tags.getD i {}⟩ ::ₘ held) loads :=
  h.fill frame (.inl rfl) h.loadsFor (Multiset.cons_add _ _ _).symm

theorem reserve (h : Scanned operation (i :: rest) state held loads) (maxRequestBlocks : Nat)
    (reservation : FrameReservation n) :
    Scanned operation rest
      { state with
        frames := state.frames.set i (some reservation.frame)
        slots := state.slots.set i .loading } held
      (appendAsyncLoad maxRequestBlocks loads (some operation)
        ⟨state.tags.getD i {}, reservation, i⟩) := by
  refine h.fill reservation.frame (.inr rfl) (h.loadsFor.append maxRequestBlocks _) ?_
  rw [entriesOf_appendAsyncLoad, entryPins_append, ← Multiset.coe_add, ← Multiset.singleton_add,
    add_comm, add_assoc]
  rfl

end Scanned

theorem startReads_spec (mode : ForegroundWriteback) (maxRequestBlocks : Nat)
    (operation : OperationId) (file : FileId) (block : BlockId) (strategy : Option StrategyId)
    (recordAccess : Bool) (blocks : List Nat) (state : ReadBuffersState n)
    (held : Multiset (SlotPin n)) (loads : List (AsyncLoad n))
    (h : Scanned operation blocks state held loads) :
    Ensures Rule context
      (startReads mode maxRequestBlocks operation file block strategy recordAccess blocks state
        loads : Prog n blockSize _)
      (fun found Q => ∃ held', Scanned operation [] found.1 held' found.2 ∧
        Q = pinTokens held' + loadsTokens found.2)
      (pinTokens held + loadsTokens loads) := by
  induction blocks generalizing state held loads with
  | nil => exact ⟨held, h, rfl⟩
  | cons i rest ih =>
      have htagged := h.setTag ⟨file, block + BitVec.ofNat 64 i⟩
      have hget := h.getD_setTag ⟨file, block + BitVec.ofNat 64 i⟩
      refine (tryReadResidentHit_spec _ recordAccess).call (zero_add _).symm ?_
      rintro hit _ rfl
      cases hit with
      | some frame =>
          have hnext := ih _ _ _ (htagged.hit frame)
          rw [hget, pinTokens, Multiset.map_cons, ← Multiset.singleton_add, add_assoc] at hnext
          exact hnext
      | none =>
          have hsame := ih _ _ _ htagged.skip
          rw [← zero_add (pinTokens held + loadsTokens loads)] at hsame
          refine ensures_after_silent (silent_isResidentTag _) fun resident => ?_
          cases resident with
          | true => exact hsame
          | false =>
              refine (reserveFrameForTag_spec mode _ strategy false).call rfl ?_
              rintro found _ rfl
              rcases found with error | _ | reservation
              · exact hsame
              · exact hsame
              · refine ensures_silent rfl fun _ => ?_
                have hnext := ih _ _ _ (htagged.reserve maxRequestBlocks reservation)
                rw [hget, loadsTokens_append, add_left_comm] at hnext
                exact hnext

theorem flatten_entryPins (loads : List (AsyncLoad n)) :
    (loads.map fun load => entryPins load.entries).flatten = entryPins (entriesOf loads) := by
  rw [entriesOf, entryPins, List.map_flatMap, List.flatMap_def]
  rfl

theorem scanned_empty (operation : OperationId) (strategy : Option StrategyId)
    (blockCount : Nat) :
    Scanned (n := n) operation (List.range blockCount)
      { strategy := strategy
        tags := List.replicate blockCount {}
        frames := List.replicate blockCount none
        slots := List.replicate blockCount .deferred
        waiter := { pending := 0 } } 0 [] where
  pending := rfl
  matched := by simp [ReadBuffersState.Matched]
  tagged := by simp
  nodup := List.nodup_range
  deferred i hmem := by simpa [List.getElem?_replicate] using hmem
  slotPins := by
    rw [zero_add, Multiset.coe_eq_coe]
    refine List.Perm.of_eq (List.filterMap_eq_nil_iff.mpr fun i _ => ?_)
    simp [ReadBuffersState.slotPin, List.getElem?_replicate]
  loadsFor := List.forall_mem_nil _

theorem startReadBuffers_spec (mode : ForegroundWriteback) (maxRequestBlocks : Nat)
    (current : Option OperationId) (file : FileId) (block : BlockId) (blockCount : Nat)
    (strategy : Option StrategyId) :
    Ensures Rule context
      (startReadBuffers mode maxRequestBlocks current file block blockCount strategy :
        Prog n blockSize _)
      (fun result Q => (result.2 = current ∧ Q = 0) ∨
        current = none ∧ ∃ id, result.2 = some id ∧ Q = {.operation id (.stored [])}) 0 := by
  refine ensures_after_silent silent_checkUsable fun status => ?_
  cases status with
  | some error => exact .inl ⟨rfl, rfl⟩
  | none =>
      cases current with
      | some busy => exact .inl ⟨rfl, rfl⟩
      | none =>
          refine ensures_act (.trade .newOperation) (add_zero _).symm (zero_add _).symm ?_
          rintro operation _ rfl
          refine ensures_after_silent (silent_recordsAccesses strategy) fun recordAccess => ?_
          refine (startReads_spec mode maxRequestBlocks operation file block strategy recordAccess _
            _ 0 [] (scanned_empty operation strategy blockCount)).call (add_comm _ _) ?_
          rintro ⟨state, loads⟩ _ ⟨held, hscanned, rfl⟩
          have hstore : pinTokens held + loadsTokens loads + ({.operation operation .fresh} + 0) =
              ({.operation operation .fresh} + pinTokens held + loadsTokens loads :
                Multiset (Token n blockSize)) := by
            abel
          refine ensures_act (.handover (.storeOperation operation state held
            (loads.map fun load => entryPins load.entries) hscanned.pending hscanned.matched ?_))
            hstore (zero_add _).symm ?_
          · rw [flatten_entryPins]
            exact hscanned.slotPins
          · rintro _ _ rfl
            rw [add_comm]
            refine (submitAsyncLoads_spec loads hscanned.loadsFor).seq ?_
            rintro _ _ rfl
            exact .inr ⟨rfl, operation, rfl, rfl⟩

theorem pinDeferred_spec (mode : ForegroundWriteback) (slots : List Nat)
    (state : ReadBuffersState n) (hmatched : state.Matched) :
    Ensures Rule context (pinDeferred mode slots state : Prog n blockSize _)
      (fun result Q => result.1.slots.length = state.slots.length ∧
        Q = pinTokens result.1.slotPins) (pinTokens state.slotPins) := by
  induction slots generalizing state with
  | nil => exact ⟨rfl, rfl⟩
  | cons i rest ih =>
      rw [pinDeferred]
      split
      · exact ih state hmatched
      · rename_i hslot
        rw [ne_eq, not_not] at hslot
        refine (pinPage_spec mode _ state.strategy .normal).call (zero_add _).symm ?_
        intro result Q hpins
        match result with
        | .error error =>
            cases hpins
            exact ⟨rfl, zero_add _⟩
        | .ok (frame, true) => exact absurd hpins.1 nofun
        | .ok (frame, false) =>
            cases hpins
            have hnext := ih _ (show ReadBuffersState.Matched { state with
              frames := state.frames.set i (some frame)
              slots := state.slots.set i .pinned } by
                simpa [ReadBuffersState.Matched] using hmatched)
            rw [ReadBuffersState.slotPins_fill hslot hmatched frame (.inl rfl), pinTokens,
              Multiset.map_cons, ← Multiset.singleton_add, List.length_set] at hnext
            exact hnext

/-- What the handles of an operation own. -/
def sharedTokens (pages : List (Fin n × BufferTag)) : Multiset (Token n blockSize) :=
  (pages.map fun page =>
    {.pin page.1 page.2} + ({.shared page.1} + {.reader page.1})).sum

theorem finishSlots_spec (keep : Bool) (state : ReadBuffersState n) (slots : List Nat) :
    Ensures Rule context (finishSlots keep state slots : Prog n blockSize _)
      (fun handles Q => (keep = false → handles = []) ∧ Q = sharedTokens handles)
      (pinTokens (slots.filterMap state.slotPin : List (SlotPin n))) := by
  induction slots with
  | nil => exact ⟨fun _ => rfl, rfl⟩
  | cons i rest ih =>
      have hpage : ∀ frame, Ensures Rule context
          (if keep = true then (do
              act (.acquireShared frame (some (state.tags.getD i {})))
              return (frame, state.tags.getD i {}) :: (← finishSlots keep state rest))
            else (do
              releaseFrame frame
              finishSlots keep state rest) : Prog n blockSize (List (Fin n × BufferTag)))
          (fun handles Q => (keep = false → handles = []) ∧ Q = sharedTokens handles)
          ({.pin frame (state.tags.getD i {})} +
            pinTokens (rest.filterMap state.slotPin : List (SlotPin n))) := by
        intro frame
        cases keep with
        | true =>
            refine ensures_act (.trade (.latchShared frame _)) (zero_add _).symm
              (by rw [add_left_comm]) ?_
            rintro _ _ rfl
            have hsplit : ∀ others : Multiset (Token n blockSize),
                {.shared frame} + {.reader frame} + ({.pin frame (state.tags.getD i {})} + others) =
                  others + ({.pin frame (state.tags.getD i {})} +
                    ({.shared frame} + {.reader frame})) := by
              intro others
              abel
            refine ih.call (hsplit _) ?_
            rintro handles _ ⟨-, rfl⟩
            exact ⟨nofun, add_comm _ _⟩
        | false =>
            refine (releaseFrame_spec frame _).call rfl ?_
            rintro _ _ rfl
            rw [zero_add]
            exact ih
      have hnone : state.slotPin i = none → Ensures Rule context (finishSlots keep state rest)
          (fun handles Q => (keep = false → handles = []) ∧ Q = sharedTokens handles)
          (pinTokens ((i :: rest).filterMap state.slotPin : List (SlotPin n))) := by
        intro hpin
        rwa [List.filterMap_cons, hpin]
      have hsome : ∀ frame, state.slotPin i = some ⟨i, frame, state.tags.getD i {}⟩ →
          (pinTokens ((i :: rest).filterMap state.slotPin : List (SlotPin n)) :
            Multiset (Token n blockSize)) = {.pin frame (state.tags.getD i {})} +
              pinTokens (rest.filterMap state.slotPin : List (SlotPin n)) := by
        intro frame hpin
        rw [List.filterMap_cons, hpin]
        rfl
      rw [finishSlots]
      cases hslot : state.slots[i]? with
      | none => exact hnone (by simp [ReadBuffersState.slotPin, hslot])
      | some slot =>
          cases hframe : state.frames.getD i none with
          | none =>
              have hskip := hnone (by rw [ReadBuffersState.slotPin, hframe, Option.map_none, ite_self])
              cases slot <;> exact hskip
          | some frame =>
              cases slot with
              | pinned =>
                  rw [hsome frame (by rw [ReadBuffersState.slotPin, if_pos (.inl hslot), hframe]; rfl)]
                  exact hpage frame
              | loading =>
                  rw [hsome frame (by rw [ReadBuffersState.slotPin, if_pos (.inr hslot), hframe]; rfl)]
                  exact hpage frame
              | failed => exact hnone (by simp [ReadBuffersState.slotPin, hslot])
              | deferred => exact hnone (by simp [ReadBuffersState.slotPin, hslot])

/-- What a finished operation leaves: its handles, or itself when the engine has stopped
with reads in flight. -/
def Finished (operation : OperationId) (Q : Multiset (Token n blockSize))
    (handles : List (Fin n × BufferTag)) : Prop :=
  Q = sharedTokens handles ∨ handles = [] ∧ Q = {.operation operation (.stored [])}

theorem finishReadBuffers_spec (mode : ForegroundWriteback) (operation : OperationId)
    (makeHandles : Bool) :
    Ensures Rule context (finishReadBuffers mode operation makeHandles : Prog n blockSize _)
      (fun result Q => (makeHandles = false → result.1 = []) ∧ Finished operation Q result.1)
      {.operation operation (.stored [])} := by
  have hwait : Ensures Rule context
      (waitFor (operationPending operation) (operationStatus operation) : Prog n blockSize Status)
      (fun _ Q => Q = {.operation operation (.stored [])})
      {.operation operation (.stored [])} := by
    refine waitFor_spec ((ensures_of_silent (silent_operationPending operation)).mono ?_) ?_
    · rintro count _ rfl
      split
      · exact ensures_of_silent (silent_operationStatus operation)
      · rfl
    · refine (ensures_of_silent (silent_act rfl rfl)).mono ?_
      rintro stopped _ rfl
      cases stopped <;> rfl
  refine hwait.seq ?_
  rintro ioStatus _ rfl
  refine ensures_act (.handover (.finishOperation operation)) (add_zero _).symm
    (zero_add _).symm ?_
  rintro _ _ ⟨state, rfl, hmatched, rfl⟩
  rw [add_zero]
  by_cases hpending : state.waiter.pending = 0
  · have hdone : state.waiter.done = true := decide_eq_true hpending
    simp only [hdone, if_pos hpending]
    -- the pages that are held become handles or are released
    have hclose : ∀ (held : ReadBuffersState n) (result : Status),
        held.slots.length = state.slots.length →
        Ensures Rule context
          (do
            let handles ← finishSlots (result = ok ∧ makeHandles) held
              (List.range state.slots.length)
            act (.storeOperation operation none)
            return (handles, result) : Prog n blockSize _)
          (fun result Q => (makeHandles = false → result.1 = []) ∧ Finished operation Q result.1)
          (pinTokens held.slotPins + {.operation operation .closing}) := by
      intro held result hlength
      refine (finishSlots_spec (result = ok ∧ makeHandles) held _).call
        (by rw [ReadBuffersState.slotPins, hlength]) ?_
      rintro handles _ ⟨hkeep, rfl⟩
      refine ensures_act (.trade (.closeOperation operation)) (add_comm _ _) (zero_add _).symm ?_
      rintro _ _ rfl
      refine ⟨fun hmake => hkeep ?_, .inl (zero_add _)⟩
      simp [hmake]
    rw [add_comm]
    by_cases hall : ioStatus = ok ∧ makeHandles = true
    · simp only [if_pos hall]
      refine (pinDeferred_spec mode _ state hmatched).call rfl ?_
      rintro ⟨held, result⟩ _ ⟨hlength, rfl⟩
      exact hclose held result hlength
    · simp only [if_neg hall]
      exact hclose state ioStatus rfl
  · have hdone : state.waiter.done = false := decide_eq_false hpending
    simp only [hdone, if_neg hpending]
    exact ⟨fun _ => rfl, .inr ⟨rfl, rfl⟩⟩

theorem waitReadBuffers_spec (mode : ForegroundWriteback) (current : Option OperationId) :
    Ensures Rule context (waitReadBuffers mode current : Prog n blockSize _)
      (fun result Q => current.elim (Q = sharedTokens result.1) fun id => Finished id Q result.1)
      (current.elim 0 fun id => {.operation id (.stored [])}) := by
  cases current with
  | none => rfl
  | some operation => exact (finishReadBuffers_spec mode operation true).mono fun _ _ h => h.2

theorem destroyOperation_spec (mode : ForegroundWriteback) (current : Option OperationId) :
    Ensures Rule context (destroyOperation mode current : Prog n blockSize Unit)
      (fun _ Q => current.elim (Q = 0) fun id => Finished id Q [])
      (current.elim 0 fun id => {.operation id (.stored [])}) := by
  cases current with
  | none => rfl
  | some operation =>
      refine (finishReadBuffers_spec mode operation false).seq ?_
      rintro ⟨handles, status⟩ Q ⟨hnone, hfinished⟩
      cases hnone rfl
      exact hfinished

end TelePath
