import TelePath.Run

/-!
Runs that follow a schedule.  A schedule says which thread or which part of the backend
acts next and how the choices that the source leaves open are made; playing it computes
the run.
-/

namespace TelePath

open FrameControl Logic Manager

variable {n blockSize threads : Nat}

/-- Who acts next. -/
inductive Turn (n blockSize threads : Nat) where
  | invoke (id : Fin threads) (call : Call n blockSize)
  /-- One step of the program of a thread, or its return. -/
  | thread (id : Fin threads) (choice : Choice n)
  | park (id : Fin threads)
  /-- The backend completes a request. -/
  | complete (index : Nat) (status : Status) (left : Fin n → Page blockSize)
  | stop (error : Error)

def programNext {α : Type} (shared : Shared n blockSize) (choice : Choice n) :
    Prog n blockSize α → Option (Event n blockSize × Shared n blockSize × Prog n blockSize α)
  | .done _ => none
  | .request action next => (exec shared choice action).map fun (reply, shared') =>
      (observe shared action reply, shared', next reply)
  | .loop body state next => some (.quiet, shared, Program.unfoldLoop body state next)

def System.next (options : Options) (system : System n blockSize threads) :
    Turn n blockSize threads → Option (Entry n blockSize threads × System n blockSize threads)
  | .invoke id call =>
      match (system.thread id).activity with
      | .idle => (callProgram options (system.thread id).client call).map fun program =>
          (⟨id, .invoked call⟩,
            system.setThread id { system.thread id with activity := .calling call program })
      | _ => none
  | .thread id choice =>
      match (system.thread id).activity with
      | .idle => none
      | .calling call (.done outcome) => some (⟨id, .returned call outcome⟩,
          system.setThread id
            { client := (system.thread id).client.finish call outcome, activity := .idle })
      | .calling call rest =>
          (programNext system.shared choice rest).map fun (event, shared', rest') =>
            (⟨id, event⟩, { system with shared := shared' }.setThread id
              { system.thread id with activity := .calling call rest' })
      | .background rest =>
          (programNext system.shared choice rest).map fun (event, shared', rest') =>
            (⟨id, event⟩, { system with shared := shared' }.setThread id
              { system.thread id with activity := .background rest' })
  | .park id =>
      ((system.thread id).activity.next?.bind (·.waitsOn)).map fun frame =>
        (⟨id, .parked frame⟩, { system with
          shared := system.shared.setWord frame (system.shared.word frame ||| kWaiters) })
  | .complete index status left =>
      system.shared.inFlight[index]?.map fun request =>
        (⟨none, .completed request status⟩,
          { system with shared := system.shared.complete index request status left })
  | .stop error =>
      some (⟨none, .stopped⟩, { system with shared := system.shared.stopEngine error })

/-- Plays a schedule on top of a run. -/
def play (options : Options) : List (Turn n blockSize threads) →
    Trace n blockSize threads × System n blockSize threads →
      Option (Trace n blockSize threads × System n blockSize threads)
  | [], reached => some reached
  | turn :: turns, (trace, system) =>
      (system.next options turn).bind fun (entry, system') =>
        play options turns (entry :: trace, system')

/-- A fresh pool and its clients, without background threads. -/
def System.fresh (files : FileId → BackingFile) : System n blockSize threads where
  shared := .initial files false false fun _ => (.normal, 0)
  thread _ := {}

theorem System.fresh_initial (files : FileId → BackingFile) :
    Initial (System.fresh files : System n blockSize threads) :=
  ⟨⟨files, false, false, _, rfl⟩, fun _ => rfl, fun _ => .inl rfl⟩

/-- A thread takes some steps in a row and has nothing to choose. -/
def turnsOf (id : Fin threads) (count : Nat) : List (Turn n blockSize threads) :=
  List.replicate count (.thread id {})

section Sound

variable {options : Options} {system system' : System n blockSize threads}
  {entry : Entry n blockSize threads}

theorem programStep_of_next {α : Type} {shared shared' : Shared n blockSize} {choice : Choice n}
    {program program' : Prog n blockSize α} {event : Event n blockSize}
    (h : programNext shared choice program = some (event, shared', program')) :
    ProgramStep shared program event shared' program' := by
  cases program with
  | done value => cases h
  | request action next =>
      obtain ⟨⟨reply, _⟩, hexec, heq⟩ := Option.map_eq_some_iff.mp h
      cases heq
      exact .act hexec
  | loop body state next =>
      cases h
      exact .enter

theorem step_of_next {turn : Turn n blockSize threads}
    (h : system.next options turn = some (entry, system')) :
    Step options system entry system' := by
  cases turn with
  | invoke id call =>
      simp only [System.next] at h
      split at h
      · rename_i hidle
        obtain ⟨program, hprogram, heq⟩ := Option.map_eq_some_iff.mp h
        cases heq
        exact .invoke hidle hprogram
      · cases h
  | thread id choice =>
      simp only [System.next] at h
      split at h
      · cases h
      · rename_i hcalling
        cases h
        exact .finish hcalling
      · rename_i hcalling
        obtain ⟨⟨event, shared', rest'⟩, hnext, heq⟩ := Option.map_eq_some_iff.mp h
        cases heq
        exact .call hcalling (programStep_of_next hnext)
      · rename_i hrunning
        obtain ⟨⟨event, shared', rest'⟩, hnext, heq⟩ := Option.map_eq_some_iff.mp h
        cases heq
        exact .background hrunning (programStep_of_next hnext)
  | park id =>
      obtain ⟨frame, hwaits, heq⟩ := Option.map_eq_some_iff.mp h
      obtain ⟨action, hnext, hframe⟩ := Option.bind_eq_some_iff.mp hwaits
      cases heq
      exact .park hnext hframe
  | complete index status left =>
      obtain ⟨request, hrequest, heq⟩ := Option.map_eq_some_iff.mp h
      cases heq
      exact .complete hrequest
  | stop error =>
      cases h
      exact .stopEngine error

theorem run_of_play {start : System n blockSize threads} {turns : List (Turn n blockSize threads)}
    {before after : Trace n blockSize threads × System n blockSize threads}
    (hrun : Run options start before.1 before.2)
    (hplay : play options turns before = some after) : Run options start after.1 after.2 := by
  induction turns generalizing before with
  | nil =>
      cases hplay
      exact hrun
  | cons turn turns ih =>
      obtain ⟨⟨entry, system'⟩, hnext, hrest⟩ := Option.bind_eq_some_iff.mp hplay
      exact ih (hrun.step (step_of_next hnext)) hrest

theorem exists_run_of_play {start : System n blockSize threads}
    {turns : List (Turn n blockSize threads)}
    {test : Trace n blockSize threads × System n blockSize threads → Bool}
    (h : (play options turns ([], start)).any test = true) :
    ∃ trace system, Run options start trace system ∧ test (trace, system) = true := by
  obtain ⟨after, hplay, htest⟩ := (Option.any_eq_true _ _).mp h
  exact ⟨after.1, after.2, run_of_play .start hplay, htest⟩

/-- Plays a schedule as long as its steps meet the condition. -/
def playWhere (condition : System n blockSize threads → System n blockSize threads → Bool)
    (options : Options) : List (Turn n blockSize threads) →
    Trace n blockSize threads × System n blockSize threads →
      Option (Trace n blockSize threads × System n blockSize threads)
  | [], reached => some reached
  | turn :: turns, (trace, system) =>
      (system.next options turn).bind fun (entry, system') =>
        if condition system system' then playWhere condition options turns (entry :: trace, system')
        else none

theorem runWhere_of_play {condition : System n blockSize threads → System n blockSize threads → Bool}
    {start : System n blockSize threads} {turns : List (Turn n blockSize threads)}
    {before after : Trace n blockSize threads × System n blockSize threads}
    (hrun : RunWhere condition options start before.1 before.2)
    (hplay : playWhere condition options turns before = some after) :
    RunWhere condition options start after.1 after.2 := by
  induction turns generalizing before with
  | nil =>
      cases hplay
      exact hrun
  | cons turn turns ih =>
      obtain ⟨⟨entry, system'⟩, hnext, hrest⟩ := Option.bind_eq_some_iff.mp hplay
      dsimp only at hrest
      split at hrest
      · exact ih (hrun.step (step_of_next hnext) ‹_›) hrest
      · cases hrest

theorem exists_runWhere_of_play
    {condition : System n blockSize threads → System n blockSize threads → Bool}
    {start : System n blockSize threads} {turns : List (Turn n blockSize threads)}
    {test : Trace n blockSize threads × System n blockSize threads → Bool}
    (h : (playWhere condition options turns ([], start)).any test = true) :
    ∃ trace system, RunWhere condition options start trace system ∧
      test (trace, system) = true := by
  obtain ⟨after, hplay, htest⟩ := (Option.any_eq_true _ _).mp h
  exact ⟨after.1, after.2, runWhere_of_play .start hplay, htest⟩

end Sound

/-! ### A pool with more than `2 ^ 31` frames -/

/-- Its bucket has the number of `kNone`, as that of `alsoAtLastBucket`. -/
def atLastBucket : BufferTag := ⟨1#32, 0xc348c98eb271b06f#64⟩

def alsoAtLastBucket : BufferTag := ⟨1#32, 0x1d6fad32c80805f8#64⟩

example : bucketFor (2 ^ 31 + 1) atLastBucket = PageTableWords.kNone.toNat := by decide +kernel

/-- The second client reads a page that the backend has to fetch. -/
def readMiss (call : Call n 1) (status : Status) (turns : Nat) : List (Turn n 1 2) :=
  [.invoke 1 call] ++ turnsOf 1 15 ++ [.complete 0 status fun _ => zeroPage 1] ++ turnsOf 1 2 ++
    [.thread 1 { completion := some 0 }] ++ turnsOf 1 turns

/-- The first client writes a page of the last bucket.  A failed read leaves its frame on the
same chain, since `Remove` takes it for unlinked, and the next read takes the frame, and the
chain with it, to another bucket. -/
def lostChain : List (Turn (2 ^ 31 + 1) 1 2) :=
  [.invoke 0 (.readBufferExclusive atLastBucket none .zeroAndLock)] ++ turnsOf 0 19 ++
    [.invoke 0 (.mutableData 0)] ++ turnsOf 0 4 ++
    [.invoke 0 (.write 0 fun _ => 7#8)] ++ turnsOf 0 2 ++
    readMiss (.readBuffer alsoAtLastBucket none) (some ⟨.ioError, "", 0⟩) 11 ++
    readMiss (.readBuffer { alsoAtLastBucket with fileId := 2#32 } none) ok 10

end TelePath
