import TelePath.Spec.Flush

/-!
What the programs of `Manager/Read` need and what they leave.
-/

namespace TelePath

open FrameControl Logic Manager
open Program (uses_ite uses_seq)

variable {n blockSize : Nat} {context : Multiset (Token n blockSize)}

theorem tryPinResidentFrame_spec (frame : Fin n) (tag : BufferTag) (recordAccess : Bool) :
    Ensures Rule context (tryPinResidentFrame frame tag recordAccess : Prog n blockSize Bool)
      (fun pinned Q => Q = if pinned then {.pin frame tag} else 0) 0 := by
  refine ensures_act (.trade (.tryPinResident frame)) (add_zero _).symm (zero_add _).symm ?_
  rintro pinned _ rfl
  cases pinned with
  | false => rfl
  | true =>
      refine ensures_act (.trade (.checkTag frame)) rfl (zero_add _).symm ?_
      rintro found _ rfl
      by_cases htag : found = tag
      · subst htag
        simp only [ne_eq, not_true_eq_false, if_false]
        cases recordAccess with
        | true => exact ensures_silent rfl fun _ => rfl
        | false => rfl
      · simp only [ne_eq, htag, not_false_eq_true, if_true]
        refine ensures_act (.trade (.unpin frame found)) rfl (zero_add _).symm ?_
        rintro _ _ rfl
        rfl

def Manager.ResidentProbe.tokens (tag : BufferTag) :
    ResidentProbe n → Multiset (Token n blockSize)
  | .pinned frame => {.pin frame tag}
  | _ => 0

theorem probeResident_spec (tag : BufferTag) (recordAccess : Bool) :
    Ensures Rule context (probeResident tag recordAccess : Prog n blockSize (ResidentProbe n))
      (fun probe Q => Q = probe.tokens tag) 0 := by
  refine ensures_silent rfl fun found => ?_
  cases found with
  | none => rfl
  | some frame =>
      refine (tryPinResidentFrame_spec frame tag recordAccess).seq ?_
      rintro pinned _ rfl
      cases pinned with
      | true => rfl
      | false =>
          refine ensures_after_silent (silent_isLoadingTag frame tag) fun loading => ?_
          cases loading <;> rfl

theorem tryReadResidentHit_spec (tag : BufferTag) (recordAccess : Bool) :
    Ensures Rule context
      (tryReadResidentHit tag recordAccess : Prog n blockSize (Option (Fin n)))
      (fun hit Q => Q = hit.elim 0 fun frame => {.pin frame tag}) 0 := by
  refine (probeResident_spec tag recordAccess).seq ?_
  rintro probe _ rfl
  cases probe with
  | pinned frame => exact ensures_silent rfl fun _ => rfl
  | loading frame => rfl
  | absent => rfl

def Manager.ReservationCandidate.tokens (candidate : ReservationCandidate n) :
    Multiset (Token n blockSize) :=
  if candidate.fromFreeList then {.free candidate.frame .unlinked} else 0

theorem acquireReservationFrame_spec :
    Ensures Rule context
      (acquireReservationFrame : Prog n blockSize (Option (ReservationCandidate n)))
      (fun found Q => Q = found.elim 0 ReservationCandidate.tokens) 0 := by
  refine ensures_act (.trade .popFree) (add_zero _).symm (zero_add _).symm ?_
  rintro popped _ rfl
  cases popped with
  | some frame => rfl
  | none =>
      refine ensures_silent rfl fun victim => ?_
      cases victim <;> rfl

/-- The candidate that a search found. -/
def candidateTokens : Result (ReservationCandidate n) → Multiset (Token n blockSize)
  | .ok candidate => candidate.tokens
  | .error _ => 0

theorem acquireVictimFrame_spec (waitForFrame : Bool) :
    Ensures Rule context
      (acquireVictimFrame waitForFrame : Prog n blockSize (Result (ReservationCandidate n)))
      (fun result Q => Q = candidateTokens result) 0 := by
  refine ensures_forever (fun Q => Q = 0) rfl ?_
  rintro _ rfl
  refine acquireReservationFrame_spec.seq ?_
  rintro found _ rfl
  cases found with
  | some candidate => rfl
  | none =>
      cases waitForFrame with
      | false => rfl
      | true =>
          refine ensures_after_silent (silent_hasTransientFrame _) fun transient => ?_
          cases transient <;> rfl

theorem loseReservation_spec (frame : Fin n) :
    Ensures Rule context (loseReservation frame : Prog n blockSize Unit) (fun _ Q => Q = 0)
      {.loading frame .unmapped} := by
  have hnothing : Ensures Rule context (pure () : Prog n blockSize Unit) (fun _ Q => Q = 0) 0 :=
    rfl
  exact free_unmapped_spec frame hnothing

def Reserves (candidate : ReservationCandidate n) (tag : BufferTag)
    (Q : Multiset (Token n blockSize)) :
    FrameReservationOutcome × Option (FrameReservation n) → Prop
  | (.reserved, reservation) => ∃ reserved, reservation = some reserved ∧
      reserved.frame = candidate.frame ∧ Q = {.loading candidate.frame (.installed tag .empty)}
  | (.tagExists, _) => Q = 0
  | (.needsFlush, _) => candidate.fromFreeList = false ∧ Q = 0
  | (.rejected, _) => Q = candidate.tokens

theorem installReserved_spec (candidate : ReservationCandidate n) (tag : BufferTag)
    (old : Option BufferTag) {reservation : FrameReservation n}
    {rest : Option (Fin n) →
      Prog n blockSize (FrameReservationOutcome × Option (FrameReservation n))}
    (hframe : reservation.frame = candidate.frame)
    (hlost : ∀ other, rest (some other) = (do
      loseReservation candidate.frame
      return (.tagExists, none)))
    (hwon : rest none = (do
      act (.resetCandidate candidate.frame)
      return (.reserved, some reservation))) :
    Ensures Rule context
      (do
        act (.bumpVersion candidate.frame)
        rest (← act (.replaceUnlessLive old tag candidate.frame)))
      (fun outcome Q => Reserves candidate tag Q outcome)
      {.loading candidate.frame (.tagged tag old)} := by
  refine ensures_silent rfl fun _ => ?_
  refine ensures_act (.trade (.install candidate.frame tag old)) (add_zero _).symm
    (zero_add _).symm ?_
  rintro existing _ rfl
  cases existing with
  | some other =>
      rw [hlost]
      refine (loseReservation_spec candidate.frame).seq ?_
      rintro _ _ rfl
      rfl
  | none =>
      rw [hwon]
      exact ensures_silent rfl fun _ => ⟨_, rfl, hframe, rfl⟩

theorem tryReserveFrameForTag_spec (candidate : ReservationCandidate n) (tag : BufferTag)
    (allowVictimFlush : Bool) :
    Ensures Rule context
      (tryReserveFrameForTag candidate.frame tag allowVictimFlush candidate.fromFreeList :
        Prog n blockSize _)
      (fun outcome Q => Reserves candidate tag Q outcome) candidate.tokens := by
  obtain ⟨frame, fromFreeList⟩ := candidate
  cases fromFreeList with
  | true =>
      refine ensures_act (.trade (.reservePopped frame)) (add_zero _).symm (zero_add _).symm ?_
      rintro ⟨attempt, observed⟩ D ⟨hflush, hgiven⟩
      cases attempt with
      | reserved =>
          obtain ⟨hresident, rfl⟩ := hgiven
          dsimp only
          rw [hresident]
          refine ensures_act (.trade (.tagFresh frame tag)) rfl (zero_add _).symm ?_
          rintro _ _ rfl
          rw [add_zero]
          exact installReserved_spec ⟨frame, true⟩ tag none rfl (fun _ => rfl) rfl
      | needsFlush => exact absurd rfl hflush
      | rejected =>
          cases hgiven
          rfl
  | false =>
      refine ensures_act (.trade (.reserveVictim frame)) (add_zero _).symm (zero_add _).symm ?_
      rintro ⟨attempt, observed⟩ D hgiven
      cases attempt with
      | reserved =>
          obtain ⟨hresident, rfl⟩ := hgiven
          dsimp only
          rw [hresident]
          refine ensures_act (.trade (.loadEvictedTag frame)) rfl (zero_add _).symm ?_
          rintro old _ rfl
          refine ensures_act (.trade (.tagVictim frame tag old)) rfl (zero_add _).symm ?_
          rintro _ _ rfl
          rw [add_zero]
          exact installReserved_spec ⟨frame, false⟩ tag (some old) rfl (fun _ => rfl) rfl
      | needsFlush =>
          cases hgiven
          cases allowVictimFlush with
          | true => exact ⟨rfl, rfl⟩
          | false => rfl
      | rejected =>
          cases hgiven
          rfl

theorem flushVictimBeforeReuse_spec (mode : ForegroundWriteback) (frame : Fin n) :
    Ensures Rule context (flushVictimBeforeReuse mode frame : Prog n blockSize Status)
      (fun _ Q => Q = 0) 0 := by
  refine (flushFrame_spec mode frame).seq ?_
  rintro status _ rfl
  cases status with
  | none => rfl
  | some error => exact ensures_silent rfl fun _ => ensures_silent rfl fun _ => rfl

theorem reserveVictim_spec (mode : ForegroundWriteback) (candidate : ReservationCandidate n)
    (tag : BufferTag) :
    Ensures Rule context (reserveVictim mode candidate tag : Prog n blockSize _)
      (fun result Q => match result with
        | .error _ => Q = 0
        | .ok outcome => Reserves candidate tag Q outcome) candidate.tokens := by
  refine (tryReserveFrameForTag_spec candidate tag true).seq ?_
  rintro ⟨outcome, reservation⟩ Q hreserves
  cases outcome with
  | needsFlush =>
      obtain ⟨hvictim, rfl⟩ := hreserves
      refine (flushVictimBeforeReuse_spec mode candidate.frame).seq ?_
      rintro status _ rfl
      cases status with
      | some error => rfl
      | none =>
          have hagain := @tryReserveFrameForTag_spec n blockSize context candidate tag false
          rw [ReservationCandidate.tokens, hvictim] at hagain
          exact hagain.seq fun _ _ h => h
  | reserved => exact hreserves
  | rejected => exact hreserves
  | tagExists => exact hreserves

theorem tryReserveRingFrame_spec (tag : BufferTag) (strategy : Option StrategyId) :
    Ensures Rule context (tryReserveRingFrame tag strategy : Prog n blockSize _)
      (fun outcome Q => (outcome.1 = .rejected ∧ Q = 0) ∨
        ∃ frame, Reserves ⟨frame, false⟩ tag Q outcome) 0 := by
  cases strategy with
  | none => exact .inl ⟨rfl, rfl⟩
  | some id =>
      refine ensures_silent rfl fun offered => ?_
      cases offered with
      | none => exact .inl ⟨rfl, rfl⟩
      | some frame =>
          by_cases hframe : frame < n
          · simp only [hframe, dite_true]
            exact (tryReserveFrameForTag_spec ⟨⟨frame, hframe⟩, false⟩ tag false).mono
              fun _ _ h => .inr ⟨_, h⟩
          · simp only [hframe, dite_false]
            exact .inl ⟨rfl, rfl⟩

def reservationTokens (tag : BufferTag) :
    Result (Option (FrameReservation n)) → Multiset (Token n blockSize)
  | .ok (some reservation) => {.loading reservation.frame (.installed tag .empty)}
  | _ => 0

theorem reserveFromPool_spec (mode : ForegroundWriteback) (tag : BufferTag)
    (strategy : Option StrategyId) (waitForFrame : Bool) :
    Ensures Rule context
      (reserveFromPool mode tag strategy waitForFrame : Prog n blockSize _)
      (fun result Q => Q = reservationTokens tag result) 0 := by
  refine ensures_forever (fun Q => Q = 0) rfl ?_
  rintro _ rfl
  refine (acquireVictimFrame_spec waitForFrame).seq ?_
  rintro found _ rfl
  cases found with
  | error error => rfl
  | ok candidate =>
      -- a candidate that was not reserved goes back where it was found
      have hagain : Ensures Rule context
          (do
            if candidate.fromFreeList then releaseFreeFrame candidate.frame
            return none : Prog n blockSize (Option (Result (Option (FrameReservation n)))))
          (fun exit Q => exit.elim (Q = 0) fun result => Q = reservationTokens tag result)
          candidate.tokens := by
        rw [ReservationCandidate.tokens]
        split
        · refine (releaseFreeFrame_spec candidate.frame).seq ?_
          rintro _ _ rfl
          rfl
        · rfl
      refine (reserveVictim_spec mode candidate tag).seq ?_
      rintro result Q hresult
      match result with
      | .error error =>
          cases hresult
          rfl
      | .ok (.tagExists, reservation) =>
          cases hresult
          rfl
      | .ok (.reserved, reservation) =>
          obtain ⟨reserved, rfl, hframe, rfl⟩ := hresult
          rw [← hframe]
          cases strategy with
          | none => rfl
          | some id => exact ensures_silent rfl fun _ => rfl
      | .ok (.needsFlush, reservation) =>
          obtain ⟨hvictim, rfl⟩ := hresult
          rw [ReservationCandidate.tokens, hvictim] at hagain
          rw [hvictim]
          exact hagain
      | .ok (.rejected, reservation) =>
          cases hresult
          exact hagain

theorem reserveFrameForTag_spec (mode : ForegroundWriteback) (tag : BufferTag)
    (strategy : Option StrategyId) (waitForFrame : Bool) :
    Ensures Rule context
      (reserveFrameForTag mode tag strategy waitForFrame : Prog n blockSize _)
      (fun result Q => Q = reservationTokens tag result) 0 := by
  refine (tryReserveRingFrame_spec tag strategy).seq ?_
  rintro ⟨outcome, reservation⟩ Q (⟨hrejected, rfl⟩ | ⟨frame, hreserves⟩)
  · cases hrejected
    exact reserveFromPool_spec mode tag strategy waitForFrame
  · cases outcome with
    | reserved =>
        obtain ⟨reserved, rfl, hframe, rfl⟩ := hreserves
        rw [← hframe]
        rfl
    | tagExists =>
        cases hreserves
        rfl
    | needsFlush =>
        obtain ⟨-, rfl⟩ := hreserves
        exact reserveFromPool_spec mode tag strategy waitForFrame
    | rejected =>
        cases hreserves
        exact reserveFromPool_spec mode tag strategy waitForFrame

/-- What a caller of `PinPage` is left with.  Only a page that was zeroed comes latched. -/
def Pins (tag : BufferTag) (mode : ReadBufferMode) (Q : Multiset (Token n blockSize)) :
    Result (Fin n × Bool) → Prop
  | .ok (frame, true) => mode = .zeroAndLock ∧
      Q = {.pin frame tag} + ({.exclusive frame} + {.writer frame .zeroed})
  | .ok (frame, false) => Q = {.pin frame tag}
  | .error _ => Q = 0

theorem completeReservation_spec (tag : BufferTag) (reservation : FrameReservation n)
    (mode : ReadBufferMode) :
    Ensures Rule context (completeReservation tag reservation mode : Prog n blockSize _)
      (fun result Q => Pins tag mode Q result)
      {.loading reservation.frame (.installed tag .empty)} := by
  cases mode with
  | zeroAndLock =>
      refine ensures_act (.trade (.zeroFrame reservation.frame tag)) (add_zero _).symm
        (zero_add _).symm ?_
      rintro _ _ rfl
      rw [add_zero]
      refine ensures_act (.trade (.latchZeroed reservation.frame tag)) (zero_add _).symm
        (add_comm _ _) ?_
      rintro _ _ rfl
      have hlent : ({.exclusive reservation.frame} + {.writer reservation.frame .zeroed} +
          {.loading reservation.frame (.installed tag .empty)} : Multiset (Token n blockSize)) =
          {.loading reservation.frame (.installed tag .empty)} +
            {.writer reservation.frame .zeroed} + {.exclusive reservation.frame} := by
        rw [add_comm, add_assoc]
        exact congrArg _ (add_comm _ _)
      refine ((publishZeroed_spec tag reservation false).frame _).callLent hlent ?_
      rintro _ _ ⟨_, rfl, rfl⟩
      refine ⟨rfl, ?_⟩
      rw [add_assoc]
      exact congrArg _ (add_comm _ _)
  | normal =>
      refine (submitAndWait_spec (.fill reservation.frame tag) (.read [reservation.frame]) tag rfl
        fun _ => rfl).seq ?_
      rintro status _ rfl
      cases status with
      | some error =>
          refine (abortLoadReservation_spec reservation.frame tag (some error) .spoiled nofun).seq ?_
          rintro _ _ ⟨-, rfl⟩
          rfl
      | none =>
          refine (publishLoadedFrame_spec tag reservation true false).seq ?_
          rintro _ _ rfl
          rfl

/-- What a turn that loads the page itself comes to. -/
def Loads (tag : BufferTag) (mode : ReadBufferMode) (Q : Multiset (Token n blockSize)) :
    Result (Option (Fin n × Bool)) → Prop
  | .ok (some loaded) => Pins tag mode Q (.ok loaded)
  | _ => Q = 0

theorem loadPage_spec (writeback : ForegroundWriteback) (tag : BufferTag)
    (strategy : Option StrategyId) (mode : ReadBufferMode) :
    Ensures Rule context (loadPage writeback tag strategy mode : Prog n blockSize _)
      (fun result Q => Loads tag mode Q result) 0 := by
  refine (reserveFrameForTag_spec writeback tag strategy true).seq ?_
  rintro found _ rfl
  match found with
  | .error error => rfl
  | .ok none => rfl
  | .ok (some reservation) =>
      refine ensures_silent rfl fun _ => ?_
      refine (completeReservation_spec tag reservation mode).seq ?_
      rintro result Q hpins
      cases result with
      | error error => exact hpins
      | ok loaded => exact hpins

theorem pinPageTurn_spec (writeback : ForegroundWriteback) (tag : BufferTag)
    (strategy : Option StrategyId) (mode : ReadBufferMode) (recordAccess waited : Bool) :
    Ensures Rule context
      (pinPageTurn writeback tag strategy mode recordAccess waited : Prog n blockSize _)
      (Sum.elim (fun _ Q => Q = 0) fun result Q => Pins tag mode Q result) 0 := by
  refine (probeResident_spec tag recordAccess).seq ?_
  rintro probe _ rfl
  cases probe with
  | pinned frame =>
      cases waited <;> exact ensures_silent rfl fun _ => rfl
  | loading frame => exact ensures_after_silent (silent_waitForLoad frame tag) fun _ => rfl
  | absent =>
      refine (loadPage_spec writeback tag strategy mode).seq ?_
      intro result Q hloads
      match result with
      | .ok (some loaded) => exact hloads
      | .ok none => exact hloads
      | .error error =>
          cases hloads
          simp only
          split
          · rfl
          · refine ensures_after_silent (silent_isResidentTag tag) fun resident => ?_
            cases resident <;> rfl

theorem pinPage_spec (writeback : ForegroundWriteback) (tag : BufferTag)
    (strategy : Option StrategyId) (mode : ReadBufferMode) :
    Ensures Rule context (pinPage writeback tag strategy mode : Prog n blockSize _)
      (fun result Q => Pins tag mode Q result) 0 := by
  refine ensures_after_silent silent_checkUsable fun status => ?_
  cases status with
  | some error => rfl
  | none =>
      refine ensures_after_silent (silent_recordsAccesses strategy) fun recordAccess => ?_
      refine ensures_loop (fun _ Q => Q = 0) rfl ?_
      rintro waited _ rfl
      exact pinPageTurn_spec writeback tag strategy mode recordAccess waited

theorem readBuffer_spec (writeback : ForegroundWriteback) (tag : BufferTag)
    (strategy : Option StrategyId) :
    Ensures Rule context (readBuffer writeback tag strategy : Prog n blockSize _)
      (fun result Q => match result with
        | .ok frame => Q = {.pin frame tag} + ({.shared frame} + {.reader frame})
        | .error _ => Q = 0) 0 := by
  refine (pinPage_spec writeback tag strategy .normal).seq ?_
  intro result Q hpins
  match result with
  | .error error => exact hpins
  | .ok (frame, true) => exact absurd hpins.1 nofun
  | .ok (frame, false) =>
      cases hpins
      refine ensures_act (.trade (.latchShared frame tag)) (zero_add _).symm (add_comm _ _) ?_
      rintro _ _ rfl
      exact add_comm _ _

theorem readBufferExclusive_spec (writeback : ForegroundWriteback) (tag : BufferTag)
    (strategy : Option StrategyId) (mode : ReadBufferMode) :
    Ensures Rule context (readBufferExclusive writeback tag strategy mode : Prog n blockSize _)
      (fun result Q => match result with
        | .ok frame =>
            ∃ mark, Q = {.pin frame tag} + ({.exclusive frame} + {.writer frame mark})
        | .error _ => Q = 0) 0 := by
  refine (pinPage_spec writeback tag strategy mode).seq ?_
  intro result Q hpins
  match result with
  | .error error => exact hpins
  | .ok (frame, true) => exact ⟨.zeroed, hpins.2⟩
  | .ok (frame, false) =>
      cases hpins
      refine ensures_act (.trade (.latchExclusive frame tag mode)) (zero_add _).symm
        (add_comm _ _) ?_
      rintro _ _ rfl
      exact ⟨.clean, add_comm _ _⟩

end TelePath
