import TelePath.Buffer.Action
import TelePath.Logic.Machine

/-!
The files a buffer manager has written and still has to sync, one call after
the other: `RecordWrittenFile`, `NoteWrittenFile`, `SyncFiles`,
`SyncWrittenFiles` and `SyncFile`, with what a completed writeback, `FlushAll`
and `CheckpointBuffers` do to the two lists of files.

`SyncFiles` hands one `kSync` request per file to the engine and waits on one
`IoWaiter`, whose count of pending requests is a `uint32_t`.
-/

namespace TelePath.WrittenFiles

open Logic

/-- The local list, the table of the shared segment when there is one, and the
files with a completed write and no successful sync after it. -/
structure State where
  writtenFiles : List FileId := []
  segmentFiles : Option (List FileId) := none
  unsynced : FileId → Bool := fun _ => false

/-- How the sync requests of one `SyncFiles` call end: the status of each file's
request, and how many requests complete while they are submitted. -/
structure Round where
  outcome : FileId → Status
  early : Nat := 0

namespace State

def noteLocalWrittenFile (state : State) (file : FileId) : State :=
  { state with writtenFiles := noteFile state.writtenFiles file }

/-- Whether the file is recorded, and the lists after it. -/
def recordWrittenFile (state : State) (file : FileId) : Bool × State :=
  match state.segmentFiles with
  | none => (true, state.noteLocalWrittenFile file)
  | some files =>
      if file ∈ files then (true, state)
      else if files.length = kSharedWrittenFilesCapacity then (false, state)
      else (true, { state with segmentFiles := some (files ++ [file]) })

def noteWrittenFile (state : State) (file : FileId) : State :=
  match state.recordWrittenFile file with
  | (true, state) => state
  | (false, state) => state.noteLocalWrittenFile file

/-- The requests that have completed when the waiter's count first reads zero:
`early` of them before the wait, then as many as the count still says. -/
def delivered (files : List FileId) (round : Round) : List FileId :=
  files.take (round.early
    + (BitVec.ofNat 32 files.length - BitVec.ofNat 32 round.early).toNat)

/-- A file whose request succeeded is synced. -/
def markSynced (state : State) (files : List FileId) (outcome : FileId → Status) : State :=
  { state with
    unsynced := fun file => state.unsynced file && !(file ∈ files && outcome file = ok) }

/-- The waiter reports the first error among the completed requests. -/
def syncFiles (state : State) (files : List FileId) (round : Round) : Status × State :=
  if files = [] then (ok, state)
  else
    let completed := delivered files round
    let synced := state.markSynced completed round.outcome
    match completed.findSome? round.outcome with
    | none => (ok, synced)
    | some error => (some error, files.foldl noteWrittenFile synced)

def pendingFiles (state : State) : List FileId :=
  (state.segmentFiles.getD []).foldl noteFile state.writtenFiles

def syncWrittenFiles (state : State) (round : Round) : Status × State :=
  let taken :=
    { state with writtenFiles := [], segmentFiles := state.segmentFiles.map fun _ => [] }
  taken.syncFiles state.pendingFiles round

def syncFile (state : State) (file : FileId) (round : Round) : Status × State :=
  let erased :=
    { state with
      writtenFiles := state.writtenFiles.filter (· ≠ file)
      segmentFiles := state.segmentFiles.map (List.filter (· ≠ file)) }
  erased.syncFiles [file] round

/-- A write of `file` completes and `FinalizeFlushTask` records it; a file the full
table has no room for is synced at once. -/
def writeback (state : State) (file : FileId) (round : Round) : State :=
  let written :=
    { state with unsynced := fun other => if other = file then true else state.unsynced other }
  match written.recordWrittenFile file with
  | (true, recorded) => recorded
  | (false, unrecorded) => (unrecorded.syncFiles [file] round).2

def writeBackFrames (state : State) (writebacks : List (FileId × Round)) : State :=
  writebacks.foldl (fun state entry => state.writeback entry.1 entry.2) state

/-- `FlushAll` and `CheckpointBuffers`: some frames are written back, and unless
that fails the files on both lists are synced. -/
def flush (state : State) (writebacks : List (FileId × Round)) (written : Status)
    (round : Round) : Status × State :=
  let flushed := state.writeBackFrames writebacks
  if written = ok then flushed.syncWrittenFiles round else (written, flushed)

end State

/-- One call, with what its writes and sync requests come to.  A call on a manager
that is not usable returns at once and changes nothing. -/
inductive Move where
  | writeback (file : FileId) (round : Round)
  | syncFile (file : FileId) (round : Round)
  | flushAll (writebacks : List (FileId × Round)) (written : Status) (round : Round)
  | checkpointBuffers (writebacks : List (FileId × Round)) (written : Status) (round : Round)

def step (state : State) : Move → Option State
  | .writeback file round => some (state.writeback file round)
  | .syncFile file round => some (state.syncFile file round).2
  | .flushAll writebacks written round | .checkpointBuffers writebacks written round =>
      some (state.flush writebacks written round).2

def State.Lists (state : State) (file : FileId) : Prop :=
  file ∈ state.writtenFiles ∨ ∃ files ∈ state.segmentFiles, file ∈ files

/-- Every file that still needs a sync is on one of the two lists. -/
def State.Remembers (state : State) : Prop :=
  ∀ file, state.unsynced file → state.Lists file

/-- The manager after its start: in private mode, or on a segment whose table
already lists some files. -/
def State.Fresh (state : State) : Prop :=
  state.writtenFiles = [] ∧ (∀ file, state.unsynced file = false) ∧
    ∀ files ∈ state.segmentFiles, files.length ≤ kSharedWrittenFilesCapacity

/-- The files that a call syncs at once can be counted in a `uint32_t`. -/
def Countable (state : State) : Move → Prop
  | .writeback _ _ | .syncFile _ _ => True
  | .flushAll writebacks _ _ | .checkpointBuffers writebacks _ _ =>
      (state.writeBackFrames writebacks).pendingFiles.length < 2 ^ 32

instance (state : State) (move : Move) : Decidable (Countable state move) := by
  cases move <;> unfold Countable <;> infer_instance

namespace State

variable {state : State} {file other : FileId}

theorem mem_noteFile {files : List FileId} :
    other ∈ noteFile files file ↔ other ∈ files ∨ other = file := by
  unfold noteFile
  split
  case isTrue hmem =>
      constructor
      · exact Or.inl
      · rintro (h | rfl)
        · exact h
        · exact hmem
  case isFalse => simp

theorem mem_foldl_noteFile {files noted : List FileId} :
    other ∈ files.foldl noteFile noted ↔ other ∈ noted ∨ other ∈ files := by
  induction files generalizing noted with
  | nil => simp
  | cons file files ih => rw [List.foldl_cons, ih, mem_noteFile, List.mem_cons, or_assoc]

theorem mem_pendingFiles : file ∈ state.pendingFiles ↔ state.Lists file := by
  rw [pendingFiles, mem_foldl_noteFile, Lists]
  cases state.segmentFiles with
  | none => simp
  | some files => simp

/-- A call that only adds to the lists. -/
structure Extends (state next : State) : Prop where
  unsynced : next.unsynced = state.unsynced
  lists : ∀ file, state.Lists file → next.Lists file

theorem Extends.refl (state : State) : Extends state state := ⟨rfl, fun _ h => h⟩

theorem Extends.trans {first second third : State} (h₁ : Extends first second)
    (h₂ : Extends second third) : Extends first third :=
  ⟨h₂.unsynced.trans h₁.unsynced, fun file h => h₂.lists file (h₁.lists file h)⟩

theorem noteLocalWrittenFile_extends (state : State) (file : FileId) :
    Extends state (state.noteLocalWrittenFile file) ∧
      (state.noteLocalWrittenFile file).Lists file := by
  refine ⟨⟨rfl, fun other hlists => ?_⟩, Or.inl (mem_noteFile.mpr (Or.inr rfl))⟩
  exact hlists.imp_left fun hmem => mem_noteFile.mpr (Or.inl hmem)

theorem recordWrittenFile_extends (state : State) (file : FileId) :
    Extends state (state.recordWrittenFile file).2 ∧
      ((state.recordWrittenFile file).1 = true → (state.recordWrittenFile file).2.Lists file) := by
  unfold recordWrittenFile
  cases hsegment : state.segmentFiles with
  | none =>
      obtain ⟨hextends, hlists⟩ := state.noteLocalWrittenFile_extends file
      exact ⟨hextends, fun _ => hlists⟩
  | some files =>
      dsimp only
      split_ifs with hmem hfull
      · exact ⟨.refl _, fun _ => Or.inr ⟨files, hsegment, hmem⟩⟩
      · exact ⟨.refl _, fun h => nomatch h⟩
      · refine ⟨⟨rfl, fun other hlists => ?_⟩, fun _ => Or.inr ⟨_, rfl, by simp⟩⟩
        refine hlists.imp_right fun ⟨found, hfound, hother⟩ => ⟨_, rfl, ?_⟩
        rw [hsegment, Option.mem_some_iff] at hfound
        subst hfound
        exact List.mem_append_left _ hother

theorem noteWrittenFile_extends (state : State) (file : FileId) :
    Extends state (state.noteWrittenFile file) ∧ (state.noteWrittenFile file).Lists file := by
  obtain ⟨hextends, hlists⟩ := state.recordWrittenFile_extends file
  unfold noteWrittenFile
  rcases hrecord : state.recordWrittenFile file with ⟨recorded, next⟩
  rw [hrecord] at hextends hlists
  cases recorded with
  | true => exact ⟨hextends, hlists rfl⟩
  | false =>
      obtain ⟨hlocal, hfile⟩ := next.noteLocalWrittenFile_extends file
      exact ⟨hextends.trans hlocal, hfile⟩

theorem foldl_noteWrittenFile_extends (files : List FileId) (state : State) :
    Extends state (files.foldl noteWrittenFile state) ∧
      ∀ file ∈ files, (files.foldl noteWrittenFile state).Lists file := by
  induction files generalizing state with
  | nil => exact ⟨.refl state, by simp⟩
  | cons file files ih =>
      obtain ⟨hfirst, hfile⟩ := state.noteWrittenFile_extends file
      obtain ⟨hrest, hfiles⟩ := ih (state.noteWrittenFile file)
      refine ⟨hfirst.trans hrest, fun other hother => ?_⟩
      rcases List.mem_cons.mp hother with rfl | hother
      · exact hrest.lists _ hfile
      · exact hfiles other hother

theorem delivered_eq {files : List FileId} (round : Round) (hcount : files.length < 2 ^ 32) :
    delivered files round = files := by
  refine List.take_of_length_le ?_
  rw [BitVec.toNat_sub, BitVec.toNat_ofNat, BitVec.toNat_ofNat]
  omega

/-- Files taken off the lists for a sync are back on them unless their sync
succeeded. -/
theorem syncFiles_remembers {files : List FileId} (round : Round)
    (hcount : files.length < 2 ^ 32)
    (hunsynced : ∀ file, state.unsynced file → state.Lists file ∨ file ∈ files) :
    (state.syncFiles files round).2.Remembers := by
  unfold syncFiles
  split_ifs with hempty
  · intro file hfile
    have := hunsynced file hfile
    rw [hempty] at this
    simpa using this
  · rw [delivered_eq round hcount]
    dsimp only
    cases hstatus : files.findSome? round.outcome with
    | none =>
        -- every request succeeded, so what is still unsynced was never taken
        intro file hfile
        have hboth : state.unsynced file = true ∧ (file ∈ files → ¬round.outcome file = ok) := by
          simpa [markSynced, imp_iff_not_or] using hfile
        rcases hunsynced file hboth.1 with hlists | hmem
        · exact hlists
        · exact absurd (List.findSome?_eq_none_iff.mp hstatus file hmem) (hboth.2 hmem)
    | some error =>
        obtain ⟨hextends, hfiles⟩ :=
          foldl_noteWrittenFile_extends files (state.markSynced files round.outcome)
        intro file hfile
        rw [hextends.unsynced] at hfile
        have hmarked : state.unsynced file = true := (Bool.and_eq_true_iff.mp hfile).1
        rcases hunsynced file hmarked with hlists | hmem
        · exact hextends.lists file hlists
        · exact hfiles file hmem

theorem syncWrittenFiles_remembers (round : Round) (hstate : state.Remembers)
    (hcount : state.pendingFiles.length < 2 ^ 32) :
    (state.syncWrittenFiles round).2.Remembers :=
  syncFiles_remembers round hcount fun file hfile =>
    Or.inr (mem_pendingFiles.mpr (hstate file hfile))

theorem syncFile_remembers (file : FileId) (round : Round) (hstate : state.Remembers) :
    (state.syncFile file round).2.Remembers := by
  refine syncFiles_remembers round (by simp) fun other hother => ?_
  by_cases heq : other = file
  · exact Or.inr (List.mem_singleton.mpr heq)
  · left
    refine (hstate other hother).imp (fun hmem => ?_) fun ⟨files, hfiles, hmem⟩ => ?_
    · exact List.mem_filter.mpr ⟨hmem, by simpa using heq⟩
    · refine ⟨files.filter (· ≠ file), Option.mem_map_of_mem _ hfiles, ?_⟩
      exact List.mem_filter.mpr ⟨hmem, by simpa using heq⟩

theorem writeback_remembers (file : FileId) (round : Round) (hstate : state.Remembers) :
    (state.writeback file round).Remembers := by
  unfold writeback
  dsimp only
  generalize hwritten : ({ state with
    unsynced := fun other => if other = file then true else state.unsynced other } : State)
    = written
  have hothers : ∀ other, written.unsynced other → written.Lists other ∨ other = file := by
    subst hwritten
    intro other hother
    by_cases heq : other = file
    · exact Or.inr heq
    · exact Or.inl (hstate other (by simpa [heq] using hother))
  obtain ⟨hextends, hlists⟩ := written.recordWrittenFile_extends file
  rcases hrecord : written.recordWrittenFile file with ⟨recorded, next⟩
  rw [hrecord] at hextends hlists
  have hnext : ∀ other, next.unsynced other → next.Lists other ∨ other = file := by
    intro other hother
    rw [show next.unsynced = written.unsynced from hextends.unsynced] at hother
    exact (hothers other hother).imp_left (hextends.lists other)
  cases recorded with
  | true =>
      intro other hother
      rcases hnext other hother with hlisted | rfl
      · exact hlisted
      · exact hlists rfl
  | false =>
      refine syncFiles_remembers round (by simp) fun other hother => ?_
      exact (hnext other hother).imp_right List.mem_singleton.mpr

theorem writeBackFrames_remembers (writebacks : List (FileId × Round))
    (hstate : state.Remembers) : (state.writeBackFrames writebacks).Remembers := by
  unfold writeBackFrames
  induction writebacks generalizing state with
  | nil => exact hstate
  | cons entry writebacks ih => exact ih (writeback_remembers entry.1 entry.2 hstate)

theorem flush_remembers (writebacks : List (FileId × Round)) (written : Status) (round : Round)
    (hstate : state.Remembers)
    (hcount : (state.writeBackFrames writebacks).pendingFiles.length < 2 ^ 32) :
    (state.flush writebacks written round).2.Remembers := by
  have hflushed := writeBackFrames_remembers writebacks hstate
  unfold flush
  dsimp only
  split_ifs
  · exact syncWrittenFiles_remembers round hflushed hcount
  · exact hflushed

theorem Fresh.remembers (hfresh : state.Fresh) : state.Remembers := by
  intro file hfile
  rw [hfresh.2.1 file] at hfile
  contradiction

end State

theorem step_remembers {state next : State} {move : Move} (hstate : state.Remembers)
    (hcount : Countable state move) (hstep : step state move = some next) :
    next.Remembers := by
  cases move with
  | writeback file round =>
      cases hstep
      exact State.writeback_remembers file round hstate
  | syncFile file round =>
      cases hstep
      exact State.syncFile_remembers file round hstate
  | flushAll writebacks written round =>
      cases hstep
      exact State.flush_remembers writebacks written round hstate hcount
  | checkpointBuffers writebacks written round =>
      cases hstep
      exact State.flush_remembers writebacks written round hstate hcount

/-- After every run of calls in which the files of each sync can be counted in a
`uint32_t`, every file with an unsynced write is on one of the lists. -/
theorem unsynced_files_remembered {start final : State} {moves : List Move}
    (hfresh : start.Fresh) (hcount : Machine.Meets step Countable start moves)
    (hrun : Machine.run step start moves = some final) {file : FileId}
    (hfile : final.unsynced file = true) :
    file ∈ final.writtenFiles ∨ ∃ files ∈ final.segmentFiles, file ∈ files :=
  Machine.invariant_of_meets (fun _ _ _ => step_remembers) hfresh.remembers hcount hrun file hfile

/-- The two lists as the threads of a manager share them. -/
def State.ofShared {n blockSize : Nat} (shared : Shared n blockSize) (unsynced : FileId → Bool) :
    State :=
  ⟨shared.writtenFiles, shared.segmentFiles, unsynced⟩

theorem recordWrittenFile_of_exec {n blockSize : Nat} {shared next : Shared n blockSize}
    {choice : Choice n} {file : FileId} {recorded : Bool} (unsynced : FileId → Bool)
    (hexec : exec shared choice (.recordWrittenFile file) = some (recorded, next)) :
    (State.ofShared shared unsynced).recordWrittenFile file =
      (recorded, State.ofShared next unsynced) := by
  unfold State.recordWrittenFile State.ofShared
  simp only [exec] at hexec
  cases hsegment : shared.segmentFiles with
  | none =>
      rw [hsegment] at hexec
      cases hexec
      simp [State.noteLocalWrittenFile]
  | some files =>
      rw [hsegment] at hexec
      dsimp only at hexec ⊢
      split_ifs at hexec ⊢ <;> cases hexec <;> simp [hsegment]

def allFail : Round where
  outcome _ := some ⟨.ioError, "failed to sync file", 5⟩

theorem unsynced_files_remembered_shared :
    ∃ final,
      Machine.run step { segmentFiles := some [] }
          [.writeback 7#32 allFail, .flushAll [(8#32, allFail)] ok allFail,
            .syncFile 8#32 ⟨fun _ => ok, 0⟩, .checkpointBuffers [] ok allFail] = some final ∧
      (7#32 ∈ final.writtenFiles ∨ ∃ files ∈ final.segmentFiles, 7#32 ∈ files) := by
  have hseen : ((Machine.run step { segmentFiles := some [] }
      [.writeback 7#32 allFail, .flushAll [(8#32, allFail)] ok allFail,
        .syncFile 8#32 ⟨fun _ => ok, 0⟩, .checkpointBuffers [] ok allFail]).map
      fun final => final.unsynced 7#32) = some true := by decide +kernel
  obtain ⟨final, hrun, hfile⟩ := Option.map_eq_some_iff.mp hseen
  have hfresh : State.Fresh { segmentFiles := some [] } := by
    refine ⟨rfl, fun _ => rfl, fun files hfiles => ?_⟩
    cases hfiles
    exact Nat.zero_le _
  exact ⟨final, hrun, unsynced_files_remembered hfresh (by decide +kernel) hrun hfile⟩

theorem run_writebacks {files : List FileId} {state : State} (hprivate : state.segmentFiles = none)
    (hnodup : (state.writtenFiles ++ files).Nodup) :
    Machine.run step state (files.map (.writeback · allFail)) = some
      { state with
        writtenFiles := state.writtenFiles ++ files
        unsynced := fun file => file ∈ files || state.unsynced file } := by
  induction files generalizing state with
  | nil => simp
  | cons file files ih =>
      have hnew : file ∉ state.writtenFiles := fun hmem =>
        (List.nodup_append.mp hnodup).2.2 file hmem file (by simp) rfl
      refine Machine.run_cons.mpr ⟨_, rfl, ?_⟩
      simp only [State.writeback, State.recordWrittenFile, hprivate,
        State.noteLocalWrittenFile, noteFile, hnew, if_false]
      rw [ih rfl (by simpa using hnodup)]
      congr 2
      · simp
      · funext other
        by_cases heq : other = file <;> simp [heq]

theorem delivered_eq_nil {files : List FileId} (hlength : files.length = 2 ^ 32) :
    State.delivered files allFail = [] := by
  rw [State.delivered, hlength]
  exact List.take_zero

theorem flush_forgets {state : State} (hprivate : state.segmentFiles = none)
    (hlength : state.writtenFiles.length = 2 ^ 32) :
    state.flush [] ok allFail = (ok, { state with writtenFiles := [] }) := by
  have hsome : state.writtenFiles ≠ [] := by
    intro hnil
    rw [hnil] at hlength
    exact absurd hlength (by decide)
  have hpending : state.pendingFiles = state.writtenFiles := by
    simp [State.pendingFiles, hprivate]
  simp [State.flush, State.writeBackFrames, State.syncWrittenFiles, hpending, State.syncFiles,
    hsome, delivered_eq_nil hlength, State.markSynced, hprivate]

theorem flush_forgets_written {files : List FileId} (hnodup : files.Nodup)
    (hlength : files.length = 2 ^ 32) :
    ∃ written final,
      Machine.run step {} (files.map (.writeback · allFail)) = some written ∧
      written.flush [] ok allFail = (ok, final) ∧
      final.writtenFiles = [] ∧ final.segmentFiles = none ∧
      ∀ file ∈ files, final.unsynced file = true := by
  have hrun : Machine.run step {} (files.map (.writeback · allFail)) = _ :=
    run_writebacks rfl (by simpa using hnodup)
  refine ⟨_, _, hrun, flush_forgets rfl (by simpa using hlength), rfl, rfl, ?_⟩
  intro file hfile
  simp [hfile]

def everyFile : List FileId := (List.range (2 ^ 32)).map (BitVec.ofNat 32)

theorem everyFile_length : everyFile.length = 2 ^ 32 := by
  rw [everyFile, List.length_map, List.length_range]

theorem everyFile_nodup : everyFile.Nodup := by
  refine List.Nodup.map_on (fun first hfirst second hsecond heq => ?_) List.nodup_range
  have hvalue := congrArg BitVec.toNat heq
  rw [BitVec.toNat_ofNat, BitVec.toNat_ofNat] at hvalue
  rw [List.mem_range] at hfirst hsecond
  omega

theorem mem_everyFile (file : FileId) : file ∈ everyFile :=
  List.mem_map.mpr ⟨file.toNat, List.mem_range.mpr file.isLt, by simp⟩

/-- A private manager that has written all `2 ^ 32` files: `FlushAll` asks for one sync
per file, counts them as zero, reports success before any of them has failed, and
the files are on no list. -/
theorem sync_of_every_file_forgets :
    ∃ written final,
      Machine.run step {} (everyFile.map (.writeback · allFail)) = some written ∧
      written.flush [] ok allFail = (ok, final) ∧
      final.writtenFiles = [] ∧ final.segmentFiles = none ∧
      ∀ file, final.unsynced file = true := by
  obtain ⟨written, final, hrun, hflush, hlocal, hsegment, hunsynced⟩ :=
    flush_forgets_written everyFile_nodup everyFile_length
  exact ⟨written, final, hrun, hflush, hlocal, hsegment,
    fun file => hunsynced file (mem_everyFile file)⟩

end TelePath.WrittenFiles
