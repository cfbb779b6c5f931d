import TelePath.Io.PosixBackend
import TelePath.Logic.Execution
import TelePath.Run
import TelePath.Spec.Loads
import TelePath.Spec.Routine

/-!
The requests of `PrefetchBuffer` and `StartReadBuffers`: adjacent pages are combined, and
together the requests read exactly the pages that were reserved.

The statements are about every execution of the two calls, whatever other threads do
meanwhile: any reply to any of their actions is possible.
-/

namespace TelePath

open FrameControl Logic Manager
open Program (uses_ite uses_seq uses_forever)

variable {n blockSize : Nat}

/-- What is seen of an execution: a page that a frame was reserved for, and a read request
that was handed to the engine. -/
inductive AsyncEvent (n blockSize : Nat) where
  | reserved (tag : BufferTag) (frame : Fin n)
  | asked (request : DiskRequest n blockSize)

/-- A reservation succeeds when no other frame is found under the page's tag. -/
def asyncEvents : (action : Action n blockSize) → Reply action → List (AsyncEvent n blockSize)
  | .replaceUnlessLive _ tag frame, existing =>
      if existing = none then [.reserved tag frame] else []
  | .submitRequest request, _ => if request.operation.isRead then [.asked request] else []
  | _, _ => []

abbrev Action.Unseen (action : Action n blockSize) : Prop :=
  ∀ reply, asyncEvents action reply = []

def Action.isDiscreet : Action n blockSize → Bool
  | .replaceUnlessLive _ _ _ => false
  | .submitRequest request => !request.operation.isRead
  | _ => true

def Action.Discreet (action : Action n blockSize) : Prop := action.isDiscreet = true

theorem Action.Discreet.unseen {action : Action n blockSize} (h : action.Discreet) :
    action.Unseen := by
  cases action with
  | submitRequest request =>
      intro reply
      have hread : request.operation.isRead = false := by simpa [Discreet, isDiscreet] using h
      simp [asyncEvents, hread]
  | replaceUnlessLive => cases h
  | _ => exact fun _ => rfl

theorem Action.Upkeep.discreet {action : Action n blockSize} (h : action.Upkeep) :
    action.Discreet := by
  cases action with
  | submitRequest | replaceUnlessLive => exact h
  | _ => rfl

section Discreet

variable {α : Type} {program : Prog n blockSize α}

theorem discreet_of_upkeep (h : program.Uses Action.Upkeep) : program.Uses Action.Discreet :=
  h.mono fun _ => Action.Upkeep.discreet

theorem discreet_of_routine (h : program.Uses Action.Routine) : program.Uses Action.Discreet :=
  discreet_of_upkeep (upkeep_of_routine h)

theorem unseen_of_routine (h : program.Uses Action.Routine) : program.Uses Action.Unseen :=
  (discreet_of_routine h).mono fun _ => Action.Discreet.unseen

end Discreet

/-! ### Writing a victim back -/

attribute [local grind unfold] Action.Discreet Action.isDiscreet
attribute [local grind .] discreet_of_upkeep discreet_of_routine

theorem discreet_finalizeFlushTask (task : FlushTask n blockSize) (status : Status) :
    (finalizeFlushTask task status).Uses Action.Discreet := by
  have hend : (endWriteback task.frame status : Prog n blockSize Unit).Uses Action.Discreet := by
    unfold endWriteback
    grind
  refine uses_seq (discreet_of_upkeep (upkeep_recordFlushTaskCompletion _ _)) fun _ => ?_
  extract_lets recordWrites recordFile countFlush
  have hfile : ∀ reply, (recordFile reply).Uses Action.Discreet := by
    intro reply
    simp only [recordFile, recordWrites]
    grind [routine_syncFiles]
  clear_value recordFile
  grind

theorem discreet_foregroundFlushRound (mode : ForegroundWriteback) (frame : Fin n)
    (stable : Bool) :
    (foregroundFlushRound mode frame stable : Prog n blockSize _).Uses Action.Discreet := by
  have hdirect : ∀ task : FlushTask n blockSize,
      (writeFlushTaskDirect task).Uses Action.Discreet := by
    intro task
    have hwrite : (submitAndWait (.write task.snapshot) task.tag :
        Prog n blockSize Status).Uses Action.Discreet :=
      discreet_of_routine (routine_submitAndWait rfl task.tag)
    unfold writeFlushTaskDirect
    grind [upkeep_beginFlushTask, discreet_finalizeFlushTask]
  unfold foregroundFlushRound
  cases mode with
  | queued => grind [upkeep_tryScheduleFlushTask]
  | direct => grind [upkeep_createFlushTask]

theorem unseen_flushVictimBeforeReuse (mode : ForegroundWriteback) (frame : Fin n) :
    (flushVictimBeforeReuse mode frame : Prog n blockSize Status).Uses Action.Unseen := by
  have hflush : (flushFrame mode frame : Prog n blockSize Status).Uses Action.Discreet := by
    unfold flushFrame runForegroundFlush
    grind [discreet_foregroundFlushRound]
  have hvictim : (flushVictimBeforeReuse mode frame : Prog n blockSize Status).Uses
      Action.Discreet := by
    unfold flushVictimBeforeReuse
    grind
  exact hvictim.mono fun _ => Action.Discreet.unseen

/-! ### Reserving a frame -/

/-- What a reservation shows: one page when it succeeds, nothing otherwise. -/
def reservationEvents (tag : BufferTag) : Option (FrameReservation n) →
    List (AsyncEvent n blockSize)
  | none => []
  | some reservation => [.reserved tag reservation.frame]

/-- What an attempt to reserve a frame shows. -/
def Attempt (tag : BufferTag) (outcome : FrameReservationOutcome × Option (FrameReservation n))
    (emitted : List (AsyncEvent n blockSize)) : Prop :=
  emitted = reservationEvents tag outcome.2 ∧ (outcome.2.isSome ↔ outcome.1 = .reserved)

theorem emits_install {α : Type} {frame : Fin n} {tag : BufferTag} {old : Option BufferTag}
    {rest : Option (Fin n) → Prog n blockSize α} {post : α → List (AsyncEvent n blockSize) → Prop}
    (hmapped : Emits asyncEvents (rest none) fun value later =>
      post value (.reserved tag frame :: later))
    (htaken : ∀ other, Emits asyncEvents (rest (some other)) post) :
    Emits asyncEvents (do
      act (.storeTag frame tag)
      act (.bumpVersion frame)
      act (.replaceUnlessLive old tag frame) >>= rest) post := by
  refine emits_quiet (fun _ => rfl) fun _ => emits_quiet (fun _ => rfl) fun _ =>
    emits_act fun existing => ?_
  cases existing with
  | none => exact hmapped
  | some other => exact htaken other

theorem tryReserveFrameForTag_emits (frame : Fin n) (tag : BufferTag)
    (allowVictimFlush fromFreeList : Bool) :
    Emits asyncEvents (tryReserveFrameForTag frame tag allowVictimFlush fromFreeList :
      Prog n blockSize _) (Attempt tag) := by
  refine emits_quiet (fun _ => rfl) fun reply => ?_
  obtain ⟨outcome, observed⟩ := reply
  cases outcome with
  | rejected => exact emits_done ⟨rfl, by simp⟩
  | needsFlush => exact emits_done ⟨rfl, by cases allowVictimFlush <;> simp⟩
  | reserved =>
      have hlose : Emits asyncEvents (do
          loseReservation frame
          return (.tagExists, none) : Prog n blockSize _) (Attempt tag) :=
        emits_after_uses (unseen_of_routine (routine_loseReservation frame)) fun _ =>
          emits_done ⟨rfl, by simp⟩
      dsimp only
      split
      · refine emits_quiet (fun _ => rfl) fun evictedTag => emits_install ?_ fun _ => hlose
        exact emits_quiet (fun _ => rfl) fun _ => emits_done ⟨rfl, by simp⟩
      · refine emits_install ?_ fun _ => hlose
        exact emits_quiet (fun _ => rfl) fun _ => emits_done ⟨rfl, by simp⟩

theorem reserveVictim_emits (mode : ForegroundWriteback) (candidate : ReservationCandidate n)
    (tag : BufferTag) :
    Emits asyncEvents (reserveVictim mode candidate tag : Prog n blockSize _)
      fun result emitted =>
        match result with
        | .error _ => emitted = []
        | .ok outcome => Attempt tag outcome emitted := by
  refine (tryReserveFrameForTag_emits _ _ _ _).seq fun attempt emitted hattempt => ?_
  obtain ⟨outcome, reservation⟩ := attempt
  obtain ⟨rfl, hsome⟩ := hattempt
  cases outcome with
  | reserved | rejected | tagExists =>
      exact emits_done ⟨List.append_nil _, hsome⟩
  | needsFlush =>
      obtain rfl : reservation = none := by simpa using hsome
      refine emits_after_uses (unseen_flushVictimBeforeReuse mode _) fun status => ?_
      cases status with
      | some error => exact emits_done rfl
      | none =>
          refine (tryReserveFrameForTag_emits _ _ _ _).seq fun attempt emitted hattempt => ?_
          exact emits_done (by simpa [reservationEvents] using hattempt)

theorem tryReserveRingFrame_emits (tag : BufferTag) (strategy : Option StrategyId) :
    Emits asyncEvents (tryReserveRingFrame tag strategy : Prog n blockSize _) (Attempt tag) := by
  cases strategy with
  | none => exact emits_done ⟨rfl, by simp⟩
  | some id =>
      refine emits_quiet (fun _ => rfl) fun frame => ?_
      cases frame with
      | none => exact emits_done ⟨rfl, by simp⟩
      | some frame =>
          dsimp only
          split
          · exact tryReserveFrameForTag_emits _ _ _ _
          · exact emits_done ⟨rfl, by simp⟩

/-- What the reservation of a frame shows: the page, when it got one. -/
def Reserving (tag : BufferTag) (result : Result (Option (FrameReservation n)))
    (emitted : List (AsyncEvent n blockSize)) : Prop :=
  match result with
  | .error _ => emitted = []
  | .ok reservation => emitted = reservationEvents tag reservation

theorem reserveFromPool_emits (mode : ForegroundWriteback) (tag : BufferTag)
    (strategy : Option StrategyId) (waitForFrame : Bool) :
    Emits asyncEvents (reserveFromPool mode tag strategy waitForFrame : Prog n blockSize _)
      (Reserving tag) := by
  refine emits_forever (emits_after_uses
    (unseen_of_routine (routine_acquireVictimFrame waitForFrame)) fun candidate => ?_)
  cases candidate with
  | error error => exact emits_done rfl
  | ok candidate =>
      refine (reserveVictim_emits mode candidate tag).seq fun result emitted hresult => ?_
      cases result with
      | error error => exact emits_done (by simpa [Reserving] using hresult)
      | ok attempt =>
          obtain ⟨outcome, reservation⟩ := attempt
          obtain ⟨rfl, hsome⟩ := hresult
          cases outcome with
          | tagExists =>
              obtain rfl : reservation = none := by simpa using hsome
              exact emits_done rfl
          | reserved =>
              cases strategy with
              | none => exact emits_done (List.append_nil _)
              | some id =>
                  exact emits_quiet (fun _ => rfl) fun _ => emits_done (List.append_nil _)
          | needsFlush | rejected =>
              obtain rfl : reservation = none := by simpa using hsome
              dsimp only
              split
              · exact emits_after_uses (unseen_of_routine (routine_releaseFreeFrame _))
                  fun _ => emits_done rfl
              · exact emits_done rfl

theorem reserveFrameForTag_emits (mode : ForegroundWriteback) (tag : BufferTag)
    (strategy : Option StrategyId) (waitForFrame : Bool) :
    Emits asyncEvents (reserveFrameForTag mode tag strategy waitForFrame : Prog n blockSize _)
      (Reserving tag) := by
  refine (tryReserveRingFrame_emits tag strategy).seq fun attempt emitted hattempt => ?_
  obtain ⟨outcome, reservation⟩ := attempt
  obtain ⟨rfl, hsome⟩ := hattempt
  cases outcome with
  | reserved => exact emits_done (List.append_nil _)
  | tagExists =>
      obtain rfl : reservation = none := by simpa using hsome
      exact emits_done rfl
  | needsFlush | rejected =>
      obtain rfl : reservation = none := by simpa using hsome
      exact reserveFromPool_emits mode tag strategy waitForFrame

/-! ### Gathering the reservations of a range -/

/-- Loads of an operation, none of them longer than a request may be. -/
structure Gathered (operation : Option OperationId) (maxRequestBlocks : Nat)
    (loads : List (AsyncLoad n)) : Prop where
  loadsFor : LoadsFor operation loads
  bounded : ∀ load ∈ loads, load.entries.length ≤ maxRequestBlocks

theorem gathered_nil (operation : Option OperationId) (maxRequestBlocks : Nat) :
    Gathered operation maxRequestBlocks ([] : List (AsyncLoad n)) :=
  ⟨fun _ hmem => absurd hmem List.not_mem_nil, fun _ hmem => absurd hmem List.not_mem_nil⟩

theorem Gathered.append {operation : Option OperationId} {maxRequestBlocks : Nat}
    {loads : List (AsyncLoad n)} (h : Gathered operation maxRequestBlocks loads)
    (hmax : 1 ≤ maxRequestBlocks) (entry : AsyncLoadEntry n) :
    Gathered operation maxRequestBlocks
      (appendAsyncLoad maxRequestBlocks loads operation entry) := by
  refine ⟨h.loadsFor.append maxRequestBlocks entry, ?_⟩
  rw [appendAsyncLoad]
  cases hlast : loads.getLast? with
  | none => simpa using hmax
  | some last =>
      dsimp only
      split
      case isTrue hextends =>
          intro load hmem
          rcases List.mem_append.mp hmem with hold | hnew
          · exact h.bounded load (List.mem_of_mem_dropLast hold)
          · rw [List.mem_singleton.mp hnew, List.length_append]
            exact hextends.1
      case isFalse =>
          intro load hmem
          rcases List.mem_append.mp hmem with hold | hnew
          · exact h.bounded load hold
          · rw [List.mem_singleton.mp hnew]
            exact hmax

def reservedEvents (entries : List (AsyncLoadEntry n)) : List (AsyncEvent n blockSize) :=
  entries.map fun entry => .reserved entry.tag entry.reservation.frame

/-- What scanning the blocks `block + i` for the given `i` adds to the loads. -/
def RangeScan (file : FileId) (block : BlockId) (operation : Option OperationId)
    (maxRequestBlocks : Nat) (indices : List Nat) (before after : List (AsyncLoad n))
    (emitted : List (AsyncEvent n blockSize)) : Prop :=
  Gathered operation maxRequestBlocks after ∧
    ∃ entries, entriesOf after = entriesOf before ++ entries ∧ emitted = reservedEvents entries ∧
      (entries.map (·.slot)).Sublist indices ∧
        ∀ entry ∈ entries, entry.tag = ⟨file, block + BitVec.ofNat 64 entry.slot⟩

section Scan

variable {file : FileId} {block : BlockId} {operation : Option OperationId}
  {maxRequestBlocks i : Nat} {indices : List Nat} {before after : List (AsyncLoad n)}
  {emitted : List (AsyncEvent n blockSize)}

theorem RangeScan.stop (h : Gathered operation maxRequestBlocks before) :
    RangeScan file block operation maxRequestBlocks indices before before
      ([] : List (AsyncEvent n blockSize)) :=
  ⟨h, [], by simp, rfl, by simp, by simp⟩

theorem RangeScan.skip
    (h : RangeScan file block operation maxRequestBlocks indices before after emitted) :
    RangeScan file block operation maxRequestBlocks (i :: indices) before after emitted := by
  obtain ⟨hgathered, entries, hentries, hemitted, hslots, htags⟩ := h
  exact ⟨hgathered, entries, hentries, hemitted, hslots.cons i, htags⟩

theorem RangeScan.add {reservation : FrameReservation n}
    (h : RangeScan file block operation maxRequestBlocks indices
      (appendAsyncLoad maxRequestBlocks before operation
        ⟨⟨file, block + BitVec.ofNat 64 i⟩, reservation, i⟩) after emitted) :
    RangeScan file block operation maxRequestBlocks (i :: indices) before after
      (.reserved ⟨file, block + BitVec.ofNat 64 i⟩ reservation.frame :: emitted) := by
  obtain ⟨hgathered, entries, hentries, hemitted, hslots, htags⟩ := h
  rw [entriesOf_appendAsyncLoad, List.append_assoc] at hentries
  refine ⟨hgathered, _, hentries, ?_, ?_, ?_⟩
  · rw [hemitted]
    rfl
  · simpa using hslots
  · simpa using htags

theorem reservePrefetches_emits (mode : ForegroundWriteback) (hmax : 1 ≤ maxRequestBlocks)
    (hbefore : Gathered none maxRequestBlocks before) :
    Emits asyncEvents
      (reservePrefetches mode maxRequestBlocks file block indices before : Prog n blockSize _)
      fun result emitted =>
        RangeScan file block none maxRequestBlocks indices before result.1 emitted := by
  induction indices generalizing before with
  | nil => exact emits_done (.stop hbefore)
  | cons i rest ih =>
      refine emits_after_uses
        (unseen_of_routine (routine_of_silent (silent_isResidentTag _))) fun resident => ?_
      split
      · exact (ih hbefore).mono fun _ _ => RangeScan.skip
      · refine (reserveFrameForTag_emits mode _ none false).seq fun result emitted hresult => ?_
        match result with
        | .error error =>
            obtain rfl : emitted = [] := hresult
            exact emits_done (.stop hbefore)
        | .ok none =>
            obtain rfl : emitted = [] := hresult
            exact (ih hbefore).mono fun _ _ => RangeScan.skip
        | .ok (some reservation) =>
            obtain rfl : emitted = [.reserved _ reservation.frame] := hresult
            exact (ih (hbefore.append hmax _)).mono fun _ _ => RangeScan.add

theorem startReads_emits (mode : ForegroundWriteback) (id : OperationId)
    (strategy : Option StrategyId) (recordAccess : Bool) (hmax : 1 ≤ maxRequestBlocks)
    (state : ReadBuffersState n) (hbefore : Gathered (some id) maxRequestBlocks before) :
    Emits asyncEvents
      (startReads mode maxRequestBlocks id file block strategy recordAccess indices state before :
        Prog n blockSize _)
      fun result emitted =>
        RangeScan file block (some id) maxRequestBlocks indices before result.2 emitted := by
  induction indices generalizing before state with
  | nil => exact emits_done (.stop hbefore)
  | cons i rest ih =>
      refine emits_after_uses (unseen_of_routine (routine_tryReadResidentHit _ _)) fun hit => ?_
      cases hit with
      | some frame => exact (ih _ hbefore).mono fun _ _ => RangeScan.skip
      | none =>
          refine emits_after_uses
            (unseen_of_routine (routine_of_silent (silent_isResidentTag _))) fun resident => ?_
          dsimp only
          split
          · exact (ih _ hbefore).mono fun _ _ => RangeScan.skip
          · refine (reserveFrameForTag_emits mode _ strategy false).seq
              fun result emitted hresult => ?_
            match result with
            | .error error =>
                obtain rfl : emitted = [] := hresult
                exact (ih _ hbefore).mono fun _ _ => RangeScan.skip
            | .ok none =>
                obtain rfl : emitted = [] := hresult
                exact (ih _ hbefore).mono fun _ _ => RangeScan.skip
            | .ok (some reservation) =>
                obtain rfl : emitted = [.reserved _ reservation.frame] := hresult
                refine emits_quiet (fun _ => rfl) fun _ => ?_
                exact (ih _ (hbefore.append hmax _)).mono fun _ _ => RangeScan.add

end Scan

/-! ### The requests -/

def DiskRequest.covers (request : DiskRequest n blockSize) : List (BufferTag × Fin n) :=
  match request.operation with
  | .read frames => frames.mapIdx fun j frame =>
      (⟨request.tag.fileId, request.tag.blockId + BitVec.ofNat 64 j⟩, frame)
  | _ => []

theorem AsyncLoad.Consecutive.covers {load : AsyncLoad n} (h : load.Consecutive) (id : LoadId) :
    (load.request id : DiskRequest n blockSize).covers =
      load.entries.map fun entry => (entry.tag, entry.reservation.frame) := by
  refine List.ext_getElem? fun j => ?_
  simp only [DiskRequest.covers, AsyncLoad.request, List.getElem?_mapIdx, List.getElem?_map]
  cases hentry : load.entries[j]? with
  | none => rfl
  | some entry => simp [h j entry hentry]

theorem prepareLoad_emits (load : AsyncLoad n) :
    Emits asyncEvents (prepareLoad load : Prog n blockSize _) fun request emitted =>
      emitted = [] ∧ ∃ id, request = load.request id := by
  have hbuild : Emits asyncEvents (do
      let id ← act (.newLoad load)
      let tag := (load.entries.head?.map (·.tag)).getD {}
      return ⟨.load id, .read (load.entries.map (·.reservation.frame)), tag⟩ :
        Prog n blockSize (DiskRequest n blockSize))
      fun request emitted => emitted = [] ∧ ∃ id, request = load.request id :=
    emits_quiet (fun _ => rfl) fun id => emits_done ⟨rfl, id, rfl⟩
  unfold prepareLoad
  cases load.operation with
  | none => exact emits_quiet (fun _ => rfl) fun _ => hbuild
  | some operation => exact emits_quiet (fun _ => rfl) fun _ => hbuild

theorem prepareLoads_emits (loads : List (AsyncLoad n)) :
    Emits asyncEvents (prepareLoads loads : Prog n blockSize _) fun requests emitted =>
      emitted = [] ∧ List.Forall₂ (fun load request => ∃ id, request = load.request id)
        loads requests := by
  induction loads with
  | nil => exact emits_done ⟨rfl, .nil⟩
  | cons load rest ih =>
      refine (prepareLoad_emits load).seq fun request emitted hrequest => ?_
      obtain ⟨rfl, hrequest⟩ := hrequest
      refine ih.seq fun requests emitted hrequests => ?_
      obtain ⟨rfl, hrequests⟩ := hrequests
      exact emits_done ⟨rfl, .cons hrequest hrequests⟩

theorem submit_emits {requests : List (DiskRequest n blockSize)}
    (hread : ∀ request ∈ requests, request.operation.isRead = true) :
    Emits asyncEvents (submit requests) fun _ emitted => emitted = requests.map .asked := by
  rw [List.map_eq_flatMap]
  refine emits_forEach fun request hrequest => emits_act fun refusal => ?_
  have hevent : asyncEvents (.submitRequest request) refusal = [.asked request] := by
    simp [asyncEvents, hread request hrequest]
  rw [hevent]
  cases refusal with
  | none => exact emits_done rfl
  | some status =>
      refine (emits_of_uses (unseen_of_routine (routine_deliver _))).mono ?_
      rintro _ _ rfl
      rfl

/-- The pages that were reserved, in order. -/
def AsyncEvent.reserved? : AsyncEvent n blockSize → Option (BufferTag × Fin n)
  | .reserved tag frame => some (tag, frame)
  | .asked _ => none

def AsyncEvent.asked? : AsyncEvent n blockSize → Option (DiskRequest n blockSize)
  | .reserved _ _ => none
  | .asked request => some request

/-- The read requests cover exactly the reserved pages of the range, each once and by the
frame reserved for it, and are of a length that the engine takes. -/
structure Partitions (file : FileId) (block : BlockId) (blockCount maxRequestBlocks : Nat)
    (events : List (AsyncEvent n blockSize)) : Prop where
  covers : (events.filterMap AsyncEvent.asked?).flatMap DiskRequest.covers =
    events.filterMap AsyncEvent.reserved?
  nodup : ((events.filterMap AsyncEvent.reserved?).map Prod.fst).Nodup
  inRange : ∀ page ∈ events.filterMap AsyncEvent.reserved?,
    ∃ i < blockCount, page.1 = ⟨file, block + BitVec.ofNat 64 i⟩
  length : ∀ request ∈ events.filterMap AsyncEvent.asked?,
    1 ≤ request.covers.length ∧ request.covers.length ≤ maxRequestBlocks

/-- What the requests of some loads come to together. -/
structure Asks (maxRequestBlocks : Nat) (entries : List (AsyncLoadEntry n))
    (requests : List (DiskRequest n blockSize)) : Prop where
  read : ∀ request ∈ requests, request.operation.isRead = true
  covers : requests.flatMap DiskRequest.covers =
    entries.map fun entry => (entry.tag, entry.reservation.frame)
  length : ∀ request ∈ requests,
    1 ≤ request.covers.length ∧ request.covers.length ≤ maxRequestBlocks

theorem Gathered.asks {operation : Option OperationId} {maxRequestBlocks : Nat}
    {loads : List (AsyncLoad n)} {requests : List (DiskRequest n blockSize)}
    (h : Gathered operation maxRequestBlocks loads)
    (hrequests : List.Forall₂ (fun load request => ∃ id, request = load.request id)
      loads requests) : Asks maxRequestBlocks (entriesOf loads) requests := by
  induction hrequests with
  | nil => exact ⟨by simp, rfl, by simp⟩
  | @cons load request loads requests hrequest _ ih =>
      obtain ⟨id, rfl⟩ := hrequest
      obtain ⟨-, hsome, hconsecutive⟩ := h.loadsFor load List.mem_cons_self
      have hbounded := h.bounded load List.mem_cons_self
      obtain ⟨hread, hcovers, hlength⟩ :=
        ih ⟨fun other hother => h.loadsFor other (List.mem_cons_of_mem _ hother),
          fun other hother => h.bounded other (List.mem_cons_of_mem _ hother)⟩
      refine ⟨?_, ?_, ?_⟩
      · exact List.forall_mem_cons.mpr ⟨rfl, hread⟩
      · rw [List.flatMap_cons, hcovers, hconsecutive.covers, ← List.map_append]
        rfl
      · refine List.forall_mem_cons.mpr ⟨?_, hlength⟩
        rw [hconsecutive.covers, List.length_map]
        exact ⟨List.length_pos_of_ne_nil hsome, hbounded⟩

theorem submitAsyncLoads_emits {operation : Option OperationId} {maxRequestBlocks : Nat}
    {loads : List (AsyncLoad n)} (h : Gathered operation maxRequestBlocks loads) :
    Emits asyncEvents (submitAsyncLoads loads : Prog n blockSize Unit) fun _ emitted =>
      ∃ requests : List (DiskRequest n blockSize), emitted = requests.map .asked ∧
        Asks maxRequestBlocks (entriesOf loads) requests := by
  refine (prepareLoads_emits loads).seq fun requests emitted hrequests => ?_
  obtain ⟨rfl, hrequests⟩ := hrequests
  have hasks := h.asks hrequests
  exact (submit_emits hasks.read).mono fun _ _ hemitted => ⟨requests, hemitted, hasks⟩

theorem filterMap_reserved? (entries : List (AsyncLoadEntry n))
    (requests : List (DiskRequest n blockSize)) :
    (reservedEvents entries ++ requests.map AsyncEvent.asked).filterMap AsyncEvent.reserved? =
      entries.map fun entry => (entry.tag, entry.reservation.frame) := by
  have hpages : AsyncEvent.reserved? ∘ (fun entry : AsyncLoadEntry n =>
      (AsyncEvent.reserved entry.tag entry.reservation.frame : AsyncEvent n blockSize)) =
        some ∘ fun entry => (entry.tag, entry.reservation.frame) := rfl
  have hnone : AsyncEvent.reserved? ∘ (AsyncEvent.asked : _ → AsyncEvent n blockSize) =
      fun _ => none := rfl
  rw [List.filterMap_append, List.filterMap_map, hnone, List.filterMap_none, List.append_nil,
    reservedEvents, List.filterMap_map, hpages, List.filterMap_eq_map]

theorem filterMap_asked? (entries : List (AsyncLoadEntry n))
    (requests : List (DiskRequest n blockSize)) :
    (reservedEvents entries ++ requests.map AsyncEvent.asked).filterMap AsyncEvent.asked? =
      requests := by
  have hnone : AsyncEvent.asked? ∘ (fun entry : AsyncLoadEntry n =>
      (AsyncEvent.reserved entry.tag entry.reservation.frame : AsyncEvent n blockSize)) =
        fun _ => none := rfl
  have hsome : AsyncEvent.asked? ∘ (AsyncEvent.asked : _ → AsyncEvent n blockSize) = some := rfl
  rw [List.filterMap_append, reservedEvents, List.filterMap_map, hnone, List.filterMap_none,
    List.nil_append, List.filterMap_map, hsome, List.filterMap_some]

theorem partitions_of_scan {file : FileId} {block : BlockId} {operation : Option OperationId}
    {blockCount maxRequestBlocks : Nat} {loads : List (AsyncLoad n)}
    {scanned : List (AsyncEvent n blockSize)} {requests : List (DiskRequest n blockSize)}
    (hwrap : block.toNat + blockCount ≤ 2 ^ 64)
    (hscan : RangeScan file block operation maxRequestBlocks (List.range blockCount) [] loads
      scanned)
    (hasks : Asks maxRequestBlocks (entriesOf loads) requests) :
    Partitions file block blockCount maxRequestBlocks (scanned ++ requests.map .asked) := by
  obtain ⟨-, entries, hentries, rfl, hslots, htags⟩ := hscan
  obtain rfl : entries = entriesOf loads := by simpa [entriesOf] using hentries.symm
  have hslot : ∀ entry ∈ entriesOf loads, entry.slot < blockCount := fun entry hentry =>
    List.mem_range.mp (hslots.subset (List.mem_map_of_mem hentry))
  have htagOf : (entriesOf loads).map (·.tag) = ((entriesOf loads).map (·.slot)).map
      fun i => (⟨file, block + BitVec.ofNat 64 i⟩ : BufferTag) := by
    rw [List.map_map]
    exact List.map_congr_left htags
  refine ⟨?_, ?_, ?_, ?_⟩
  · rw [filterMap_asked?, filterMap_reserved?, hasks.covers]
  · rw [filterMap_reserved?, List.map_map]
    refine (congrArg List.Nodup htagOf).mpr (List.Nodup.map_on ?_ (hslots.nodup List.nodup_range))
    -- blocks below `2 ^ 64` are told apart by their numbers
    intro i hi j hj heq
    have hbound : ∀ k ∈ (entriesOf loads).map (·.slot), k < 2 ^ 64 := fun k hk => by
      have := List.mem_range.mp (hslots.subset hk)
      omega
    have hvalue : BitVec.ofNat 64 i = BitVec.ofNat 64 j :=
      BitVec.add_right_inj _ |>.mp (congrArg BufferTag.blockId heq)
    have hnat := congrArg BitVec.toNat hvalue
    rwa [BitVec.toNat_ofNat, BitVec.toNat_ofNat, Nat.mod_eq_of_lt (hbound i hi),
      Nat.mod_eq_of_lt (hbound j hj)] at hnat
  · rw [filterMap_reserved?]
    intro page hpage
    obtain ⟨entry, hentry, rfl⟩ := List.mem_map.mp hpage
    exact ⟨entry.slot, hslot entry hentry, htags entry hentry⟩
  · rw [filterMap_asked?]
    exact hasks.length

/-! ### The calls -/

theorem partitions_nil (file : FileId) (block : BlockId) (blockCount maxRequestBlocks : Nat) :
    Partitions file block blockCount maxRequestBlocks ([] : List (AsyncEvent n blockSize)) :=
  ⟨rfl, List.nodup_nil, by simp, by simp⟩

theorem prefetchBuffer_emits {mode : ForegroundWriteback} {maxRequestBlocks blockCount : Nat}
    {file : FileId} {block : BlockId} (hmax : 1 ≤ maxRequestBlocks)
    (hwrap : block.toNat + blockCount ≤ 2 ^ 64) :
    Emits asyncEvents
      (prefetchBuffer mode maxRequestBlocks file block blockCount : Prog n blockSize Status)
      fun _ emitted => Partitions file block blockCount maxRequestBlocks emitted := by
  refine emits_after_uses (unseen_of_routine (routine_of_silent silent_checkUsable))
    fun usable => ?_
  cases usable with
  | some error => exact emits_done (partitions_nil _ _ _ _)
  | none =>
      refine (reservePrefetches_emits mode hmax (gathered_nil none maxRequestBlocks)).seq
        fun result scanned hscan => ?_
      refine (submitAsyncLoads_emits hscan.1).seq fun _ emitted hrequests => ?_
      obtain ⟨requests, rfl, hasks⟩ := hrequests
      refine emits_done ?_
      rw [List.append_nil]
      exact partitions_of_scan hwrap hscan hasks

theorem startReadBuffers_emits {mode : ForegroundWriteback} {maxRequestBlocks blockCount : Nat}
    {current : Option OperationId} {file : FileId} {block : BlockId}
    {strategy : Option StrategyId} (hmax : 1 ≤ maxRequestBlocks)
    (hwrap : block.toNat + blockCount ≤ 2 ^ 64) :
    Emits asyncEvents
      (startReadBuffers mode maxRequestBlocks current file block blockCount strategy :
        Prog n blockSize _)
      fun _ emitted => Partitions file block blockCount maxRequestBlocks emitted := by
  refine emits_after_uses (unseen_of_routine (routine_of_silent silent_checkUsable))
    fun usable => ?_
  cases usable with
  | some error => exact emits_done (partitions_nil _ _ _ _)
  | none =>
      dsimp only
      split
      · exact emits_done (partitions_nil _ _ _ _)
      · refine emits_quiet (fun _ => rfl) fun operation => ?_
        refine emits_after_uses
          (unseen_of_routine (routine_of_silent (silent_recordsAccesses strategy)))
          fun recordAccess => ?_
        refine (startReads_emits mode operation strategy recordAccess hmax _
          (gathered_nil _ maxRequestBlocks)).seq fun result scanned hscan => ?_
        refine emits_quiet (fun _ => rfl) fun _ => ?_
        refine (submitAsyncLoads_emits hscan.1).seq fun _ emitted hrequests => ?_
        obtain ⟨requests, rfl, hasks⟩ := hrequests
        refine emits_done ?_
        rw [List.append_nil]
        exact partitions_of_scan hwrap hscan hasks

/-- The pages that a call asks for ahead. -/
def Call.range : Call n blockSize → Option (FileId × BlockId × Nat)
  | .prefetchBuffer file block blockCount => some (file, block, blockCount)
  | .startReadBuffers _ file block blockCount _ => some (file, block, blockCount)
  | _ => none

/-- What `IoEngine` makes of the longest request its backend takes; without a backend
requests have one block. -/
def maxRequestBlocks : Option Nat → Nat
  | none => 1
  | some capability => max 1 (min capability PosixBackend.kMaxDiskRequestBlocks)

theorem one_le_maxRequestBlocks (backend : Option Nat) : 1 ≤ maxRequestBlocks backend := by
  cases backend with
  | none => exact le_rfl
  | some capability => exact le_max_left _ _

/-- In every execution of `PrefetchBuffer` and `StartReadBuffers` on blocks that do not
wrap, the read requests handed to the engine partition the reserved pages. -/
theorem async_requests_partition {options : Options} {client : Client n}
    {call : Call n blockSize} {program : Prog n blockSize (Outcome n)} {file : FileId}
    {block : BlockId} {blockCount : Nat} {backend : Option Nat}
    {trace : List (Sigma (@Reply n blockSize))} {outcome : Outcome n}
    (hoptions : options.maxRequestBlocks = maxRequestBlocks backend)
    (hcall : callProgram options client call = some program)
    (hrange : call.range = some (file, block, blockCount))
    (hwrap : block.toNat + blockCount ≤ 2 ^ 64) (hexecution : Execution program trace outcome) :
    Partitions file block blockCount (maxRequestBlocks backend)
      (trace.flatMap fun entry => asyncEvents entry.1 entry.2) := by
  have hmax := one_le_maxRequestBlocks backend
  rw [← hoptions] at hmax ⊢
  have hemits : Emits asyncEvents program fun _ emitted =>
      Partitions file block blockCount options.maxRequestBlocks emitted := by
    cases call with
    | prefetchBuffer file' block' blockCount' =>
        cases hrange
        cases hcall
        refine (prefetchBuffer_emits hmax hwrap).seq fun status emitted hemitted => ?_
        exact emits_done (by rwa [List.append_nil])
    | startReadBuffers operation file' block' blockCount' strategy =>
        cases hrange
        cases hcall
        refine (startReadBuffers_emits hmax hwrap).seq fun result emitted hemitted => ?_
        exact emits_done (by rwa [List.append_nil])
    | _ => cases hrange
  exact hemits trace outcome hexecution

/-- The execution of a program that no other thread interferes with, if it ends within
`fuel` steps. -/
def runAlone {α : Type} : (fuel : Nat) → Shared n blockSize → Prog n blockSize α →
    Option (List (Sigma (@Reply n blockSize)) × α)
  | 0, _, _ => none
  | _ + 1, _, .done value => some ([], value)
  | fuel + 1, shared, .request action next =>
      (exec shared {} action).bind fun (reply, shared') =>
        (runAlone fuel shared' (next reply)).map fun (trace, value) =>
          (⟨action, reply⟩ :: trace, value)
  | fuel + 1, shared, .loop body state next =>
      runAlone fuel shared (Program.unfoldLoop body state next)

theorem execution_of_runAlone {α : Type} {fuel : Nat} {shared : Shared n blockSize}
    {program : Prog n blockSize α} {trace : List (Sigma (@Reply n blockSize))} {value : α}
    (h : runAlone fuel shared program = some (trace, value)) :
    Execution program trace value := by
  induction fuel generalizing shared program trace with
  | zero => cases h
  | succ fuel ih =>
      cases program with
      | done result =>
          cases h
          exact .done value
      | request action next =>
          obtain ⟨⟨reply, shared'⟩, -, hrest⟩ := Option.bind_eq_some_iff.mp h
          obtain ⟨⟨rest, result⟩, hrun, heq⟩ := Option.map_eq_some_iff.mp hrest
          cases heq
          exact .request reply (ih hrun)
      | loop body state next => exact .loop (ih h)

/-- A pool of three free frames and a prefetch of the blocks 7 and 8. -/
theorem async_requests_partition_pair :
    ∃ (program : Prog 3 1 (Outcome 3)) (trace : List (Sigma (@Reply 3 1))) (outcome : Outcome 3),
      callProgram ⟨.direct, maxRequestBlocks (some 4)⟩ {} (.prefetchBuffer 1#32 7#64 2) =
        some program ∧
      Execution program trace outcome ∧
      ((trace.flatMap fun entry => asyncEvents entry.1 entry.2).filterMap
        AsyncEvent.reserved?).length = 2 ∧
      Partitions 1#32 7#64 2 (maxRequestBlocks (some 4))
        (trace.flatMap fun entry => asyncEvents entry.1 entry.2) := by
  obtain ⟨program, hcall⟩ : ∃ program : Prog 3 1 (Outcome 3),
      callProgram ⟨.direct, maxRequestBlocks (some 4)⟩ {} (.prefetchBuffer 1#32 7#64 2) =
        some program := ⟨_, rfl⟩
  have hseen : ((runAlone 60 (.initial (fun _ => .absent) false false fun _ => (.normal, 0))
        program).map fun run =>
      ((run.1.flatMap fun entry => asyncEvents entry.1 entry.2).filterMap
        AsyncEvent.reserved?).length) = some 2 := by
    cases hcall
    decide +kernel
  obtain ⟨⟨trace, outcome⟩, hrun, hlength⟩ := Option.map_eq_some_iff.mp hseen
  exact ⟨program, trace, outcome, hcall, execution_of_runAlone hrun, hlength,
    async_requests_partition rfl hcall rfl (by decide) (execution_of_runAlone hrun)⟩

end TelePath
