import TelePath.Manager.Flush

/-!
Finding, reserving and loading frames: `buffer_manager_eviction.cc` and
`buffer_manager_read.cc`.
-/

namespace TelePath.Manager

open FrameControl Logic Program

variable {n blockSize : Nat}

structure ReservationCandidate (n : Nat) where
  frame : Fin n
  fromFreeList : Bool
  deriving DecidableEq, Repr

inductive FrameReservationOutcome where
  | reserved
  | needsFlush
  | rejected
  | tagExists
  deriving DecidableEq, Repr

inductive ResidentProbe (n : Nat) where
  | pinned (frame : Fin n)
  | loading (frame : Fin n)
  | absent
  deriving DecidableEq, Repr

def checkUsable : Prog n blockSize Status := do
  if ← act .loadFailed then
    return some { code := .failed, message := "buffer manager is in the failed state" }
  if ← act .loadClosed then
    return some { code := .unavailable, message := "buffer manager is closed" }
  return ok

def tryPinResidentFrame (frame : Fin n) (tag : BufferTag) (recordAccess : Bool) :
    Prog n blockSize Bool := do
  if !(← act (.tryPinResident frame)) then return false
  if (← act (.loadTag frame)) ≠ tag then
    let _ ← act (.unpin frame)
    return false
  if recordAccess then act (.recordAccess frame)
  return true

def isLoadingTag (frame : Fin n) (tag : BufferTag) : Prog n blockSize Bool := do
  if state (← act (.loadWord frame)) ≠ .loading then return false
  return (← act (.loadTag frame)) = tag

def probeResident (tag : BufferTag) (recordAccess : Bool) :
    Prog n blockSize (ResidentProbe n) := do
  match ← act (.lookupFrameId tag) with
  | none => return .absent
  | some frame => do
      if ← tryPinResidentFrame frame tag recordAccess then return .pinned frame
      if ← isLoadingTag frame tag then return .loading frame
      return .absent

def tryReadResidentHit (tag : BufferTag) (recordAccess : Bool) :
    Prog n blockSize (Option (Fin n)) := do
  match ← probeResident tag recordAccess with
  | .pinned frame => do
      recordResidentHit tag
      return some frame
  | _ => return none

def waitForLoad (frame : Fin n) (tag : BufferTag) : Prog n blockSize Unit := do
  let _ ← act (.waitWhile frame (.loadingTag tag))
  return ()

def isResidentTag (tag : BufferTag) : Prog n blockSize Bool := do
  match ← act (.lookupFrameId tag) with
  | none => return false
  | some frame => do
      if state (← act (.loadWord frame)) = .free then return false
      return (← act (.loadTag frame)) = tag

def acquireReservationFrame : Prog n blockSize (Option (ReservationCandidate n)) := do
  match ← act .popFree with
  | some frame => return some ⟨frame, true⟩
  | none => return (← act .victim).map (⟨·, false⟩)

/-- Whether some frame is unpinned or still loading, read frame by frame. -/
def hasTransientFrame : List (Fin n) → Prog n blockSize Bool
  | [] => return false
  | frame :: rest => do
      let word ← act (.loadWord frame)
      if pins word = 0 ∨ state word = .loading then return true
      hasTransientFrame rest

def resourceExhausted : Error :=
  { code := .resourceExhausted, message := "no evictable frame available" }

def acquireVictimFrame (waitForFrame : Bool) :
    Prog n blockSize (Result (ReservationCandidate n)) :=
  forever do
    match ← acquireReservationFrame with
    | some candidate => return some (.ok candidate)
    | none => do
        if !waitForFrame then return some (.error resourceExhausted)
        if ← hasTransientFrame (List.finRange n) then return none
        return some (.error resourceExhausted)

/-- Gives a reserved frame up after another frame won its tag. -/
def loseReservation (frame : Fin n) : Prog n blockSize Unit := do
  act (.removeTracked frame)
  act (.storeTag frame {})
  act (.releaseToFree frame)
  releaseFreeFrame frame

def tryReserveFrameForTag (frame : Fin n) (tag : BufferTag)
    (allowVictimFlush fromFreeList : Bool) :
    Prog n blockSize (FrameReservationOutcome × Option (FrameReservation n)) := do
  match ← act (.tryReserve frame fromFreeList) with
  | (.rejected, _) => return (.rejected, none)
  | (.needsFlush, _) =>
      return (if allowVictimFlush then .needsFlush else .rejected, none)
  | (.reserved, observed) => do
      let hadEvictedPage := isResident observed
      let evictedTag ← if hadEvictedPage then act (.loadTag frame) else pure {}
      act (.storeTag frame tag)
      act (.bumpVersion frame)
      match ← act (.replaceUnlessLive (if hadEvictedPage then some evictedTag else none)
          tag frame) with
      | some _ => do
          loseReservation frame
          return (.tagExists, none)
      | none => do
          act (.resetCandidate frame)
          return (.reserved, some ⟨frame, hadEvictedPage, evictedTag⟩)

def flushVictimBeforeReuse (mode : ForegroundWriteback) (frame : Fin n) :
    Prog n blockSize Status := do
  match ← flushFrame mode frame with
  | none => return ok
  | some error => do
      act (.record (.evictionFailure (← act (.loadTag frame))))
      return some error

/-- A dirty victim is written back while it is still mapped under its old tag.
The caller may hold handles on other pages meanwhile. -/
def reserveVictim (mode : ForegroundWriteback) (candidate : ReservationCandidate n)
    (tag : BufferTag) :
    Prog n blockSize (Result (FrameReservationOutcome × Option (FrameReservation n))) := do
  match ← tryReserveFrameForTag candidate.frame tag true candidate.fromFreeList with
  | (.needsFlush, _) => do
      match ← flushVictimBeforeReuse mode candidate.frame with
      | some error => return .error error
      | none => return .ok (← tryReserveFrameForTag candidate.frame tag false false)
  | outcome => return .ok outcome

def tryReserveRingFrame (tag : BufferTag) (strategy : Option StrategyId) :
    Prog n blockSize (FrameReservationOutcome × Option (FrameReservation n)) := do
  match strategy with
  | none => return (.rejected, none)
  | some id => do
      match ← act (.nextRingFrame id) with
      | none => return (.rejected, none)
      | some frame =>
          if h : frame < n then tryReserveFrameForTag ⟨frame, h⟩ tag false false
          else return (.rejected, none)

/-- The loop of `ReserveFrameForTag` after the ring had no frame to offer. -/
def reserveFromPool (mode : ForegroundWriteback) (tag : BufferTag)
    (strategy : Option StrategyId) (waitForFrame : Bool) :
    Prog n blockSize (Result (Option (FrameReservation n))) :=
  forever do
    match ← acquireVictimFrame waitForFrame with
    | .error error => return some (.error error)
    | .ok candidate => do
        match ← reserveVictim mode candidate tag with
        | .error error => return some (.error error)
        | .ok (.tagExists, _) => return some (.ok none)
        | .ok (.reserved, reservation) => do
            match strategy with
            | some id => act (.rememberRingFrame id candidate.frame)
            | none => pure ()
            return some (.ok reservation)
        | .ok _ => do
            if candidate.fromFreeList then releaseFreeFrame candidate.frame
            return none

def reserveFrameForTag (mode : ForegroundWriteback) (tag : BufferTag)
    (strategy : Option StrategyId) (waitForFrame : Bool) :
    Prog n blockSize (Result (Option (FrameReservation n))) := do
  match ← tryReserveRingFrame tag strategy with
  | (.reserved, reservation) => return .ok reservation
  | (.tagExists, _) => return .ok none
  | _ => reserveFromPool mode tag strategy waitForFrame

def readReservedPage (frame : Fin n) (tag : BufferTag) : Prog n blockSize Status :=
  submitAndWait (.read [frame]) tag

/-- The loaded frame and whether it is returned with the exclusive latch held. -/
def completeReservation (tag : BufferTag) (reservation : FrameReservation n)
    (mode : ReadBufferMode) : Prog n blockSize (Result (Fin n × Bool)) := do
  match mode with
  | .zeroAndLock => do
      act (.zeroFrame reservation.frame)
      act (.acquireExclusive reservation.frame tag .zeroAndLock)
      publishLoadedFrame tag reservation false false
      return .ok (reservation.frame, true)
  | .normal => do
      match ← readReservedPage reservation.frame tag with
      | some error => do
          let _ ← abortLoadReservation reservation.frame tag (some error)
          return .error error
      | none => do
          publishLoadedFrame tag reservation true false
          return .ok (reservation.frame, false)

def loadPage (writeback : ForegroundWriteback) (tag : BufferTag)
    (strategy : Option StrategyId) (mode : ReadBufferMode) :
    Prog n blockSize (Result (Option (Fin n × Bool))) := do
  match ← reserveFrameForTag writeback tag strategy true with
  | .error error => return .error error
  | .ok none => return .ok none
  | .ok (some reservation) => do
      recordReadMiss tag
      match ← completeReservation tag reservation mode with
      | .error error => return .error error
      | .ok loaded => return .ok (some loaded)

def recordsAccesses (strategy : Option StrategyId) : Prog n blockSize Bool :=
  match strategy with
  | none => return true
  | some id => act (.loadStrategyRecords id)

/-- One turn of the loop of `PinPage`; the state is whether the thread has waited
for somebody else's load. -/
def pinPageTurn (writeback : ForegroundWriteback) (tag : BufferTag)
    (strategy : Option StrategyId) (mode : ReadBufferMode) (recordAccess waited : Bool) :
    Prog n blockSize (Bool ⊕ Result (Fin n × Bool)) := do
  match ← probeResident tag recordAccess with
  | .pinned frame => do
      if waited then recordJoinedMissHit tag else recordResidentHit tag
      return .inr (.ok (frame, false))
  | .loading frame => do
      waitForLoad frame tag
      return .inl true
  | .absent => do
      match ← loadPage writeback tag strategy mode with
      | .ok (some loaded) => return .inr (.ok loaded)
      | .ok none => return .inl waited
      | .error error => do
          if error.code ≠ .resourceExhausted then return .inr (.error error)
          -- another thread may have loaded this very page meanwhile
          if ← isResidentTag tag then return .inl waited
          return .inr (.error error)

def pinPage (writeback : ForegroundWriteback) (tag : BufferTag)
    (strategy : Option StrategyId) (mode : ReadBufferMode) :
    Prog n blockSize (Result (Fin n × Bool)) := do
  match ← checkUsable with
  | some error => return .error error
  | none => do
      let recordAccess ← recordsAccesses strategy
      repeatUntil (pinPageTurn writeback tag strategy mode recordAccess) false

def readBuffer (writeback : ForegroundWriteback) (tag : BufferTag)
    (strategy : Option StrategyId) : Prog n blockSize (Result (Fin n)) := do
  match ← pinPage writeback tag strategy .normal with
  | .error error => return .error error
  | .ok (frame, _) => do
      act (.acquireShared frame (some tag))
      return .ok frame

def readBufferExclusive (writeback : ForegroundWriteback) (tag : BufferTag)
    (strategy : Option StrategyId) (mode : ReadBufferMode) :
    Prog n blockSize (Result (Fin n)) := do
  match ← pinPage writeback tag strategy mode with
  | .error error => return .error error
  | .ok (frame, latched) => do
      if !latched then act (.acquireExclusive frame tag mode)
      return .ok frame

end TelePath.Manager
