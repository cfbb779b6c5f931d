import TelePath.Logic.Discipline
import TelePath.Spec.Blocks

/-!
A thread that has changed a dirty bit changes the count of dirty pages next; at most it
records an LSN in between.
-/

namespace TelePath

open FrameControl Logic Manager
open Discipline (leads_seq leads_perform leads_ite obeys_of_uses obeys_of_built
  obeys_forever obeys_forEach)

variable {n blockSize : Nat} {α : Type}

/-- By how much an action has changed the number of dirty frames, as its reply says. -/
def Action.dirtyChange : (action : Action n blockSize) → Reply action → Int
  | .markDirty _, becameDirty => if becameDirty.getD false then 1 else 0
  | .completeWriteback _ _, completion => if completion.clearedDirty then -1 else 0
  | .tryDiscardPinned _, reply =>
      if reply.1 = .discarded ∧ isDirty (reply.2.getD 0#32) then -1 else 0
  | _, _ => 0

def Action.countChange : Action n blockSize → Int
  | .addDirtyPages amount => amount.toInt
  | _ => 0

/-- The state is what the thread still has to add to the count. -/
def counting : Discipline (Action n blockSize) Reply Int where
  rest := 0
  Allows owed
    | .addDirtyPages amount => owed = amount.toInt
    | .lowerRecLsn _ _ (some _) => True
    | _ => owed = 0
  next owed action reply := owed + action.dirtyChange reply - action.countChange

/-- A program that counts every change it makes to a dirty bit. -/
abbrev Settles (program : Prog n blockSize α) : Prop := counting.Obeys (0 : Int) program

theorem Action.Upkeep.neutral {action : Action n blockSize} (h : action.Upkeep) :
    counting.Neutral action := by
  cases action with
  | replaceUnlessLive | markDirty | completeWriteback | tryDiscardPinned | addDirtyPages => cases h
  | lowerRecLsn frame lsn handle =>
      cases handle with
      | none => exact ⟨rfl, fun _ => rfl⟩
      | some tag => cases h
  | _ => exact ⟨rfl, fun _ => rfl⟩

theorem neutral_of_isPlain {action : Action n blockSize} (h : action.isPlain = true) :
    counting.Neutral action := by
  cases action with
  | replaceUnlessLive | submitRequest => exact ⟨rfl, fun _ => rfl⟩
  | _ => exact Action.Upkeep.neutral (Action.Routine.upkeep h)

theorem settles_of_upkeep {program : Prog n blockSize α} (h : program.Uses Action.Upkeep) :
    Settles program :=
  obeys_of_uses (h.mono fun _ => Action.Upkeep.neutral)

theorem settles_of_routine {program : Prog n blockSize α} (h : program.Uses Action.Routine) :
    Settles program :=
  settles_of_upkeep (upkeep_of_routine h)

theorem settles_act {action : Action n blockSize} (h : action.isUpkeep = true) :
    Settles (act action : Prog n blockSize (Reply action)) :=
  settles_of_upkeep ⟨h, fun _ => trivial⟩

theorem obeys_payment {due : Bool} {amount : BitVec 64} {owed : Int}
    (howed : owed = if due then amount.toInt else 0) {paid : Unit → Prog n blockSize α}
    {rest : Prog n blockSize α} (hpaid : ∀ reply, Settles (paid reply)) (hrest : Settles rest) :
    counting.Obeys owed (if due = true then act (.addDirtyPages amount) >>= paid else rest) := by
  subst howed
  cases due with
  | false => exact hrest
  | true =>
      refine ⟨rfl, fun reply => ?_⟩
      have hnext : counting.next (if true then amount.toInt else 0)
          (.addDirtyPages amount : Action n blockSize) reply = 0 := by
        simp [counting, Action.dirtyChange, Action.countChange]
      rw [hnext]
      exact hpaid reply

theorem settles_markHandleDirty (frame : Fin n) (tag : BufferTag) (lsn : Lsn) :
    Settles (markHandleDirty frame tag lsn : Prog n blockSize Unit) := by
  refine ⟨rfl, fun becameDirty => ⟨trivial, fun _ => ?_⟩⟩
  change counting.Obeys _ (if becameDirty.getD false = true then
    act (.addDirtyPages 1#64) >>= Program.done else Program.done () : Prog n blockSize Unit)
  refine obeys_payment ?_ (fun _ => rfl) rfl
  simp [counting, Action.dirtyChange, Action.countChange]

theorem settles_endWriteback (frame : Fin n) (status : Status) :
    Settles (endWriteback frame status : Prog n blockSize Unit) := by
  have htail : ∀ completion : WritebackCompletion,
      Settles (if shouldQueueCleanerCandidate completion.word then act (.enqueueCandidate frame)
        else if completion.clearedDirty then act (.resetCandidate frame)
        else pure () : Prog n blockSize Unit) := fun completion =>
    leads_ite (fun _ => settles_act rfl) fun _ =>
      leads_ite (fun _ => settles_act rfl) fun _ => rfl
  have hcomplete : Settles (do
      let completion ← act (.completeWriteback frame (status = ok))
      if completion.clearedDirty then act (.addDirtyPages (-1#64))
      if shouldQueueCleanerCandidate completion.word then act (.enqueueCandidate frame)
      else if completion.clearedDirty then act (.resetCandidate frame) :
      Prog n blockSize Unit) := by
    refine ⟨rfl, fun completion => obeys_payment ?_ (fun _ => htail completion) (htail completion)⟩
    simp [counting, Action.dirtyChange, Action.countChange]
  refine leads_seq (settles_act rfl) fun _ => leads_ite (fun _ => ?_) fun _ => ?_
  · exact leads_seq (settles_act rfl) fun _ => hcomplete
  · exact leads_seq (settles_act rfl) fun _ =>
      leads_seq (settles_act rfl) fun _ => hcomplete

theorem settles_finalizeFlushTask (task : FlushTask n blockSize) (status : Status) :
    Settles (finalizeFlushTask task status) := by
  refine leads_seq (settles_of_upkeep (upkeep_recordFlushTaskCompletion _ _)) fun _ => ?_
  extract_lets recordWrites recordFile countFlush
  have hwrites : ∀ reply, Settles (recordWrites reply) := fun _ =>
    leads_seq (settles_act rfl) fun _ => settles_act rfl
  have hfile : ∀ reply, Settles (recordFile reply) := by
    intro reply
    refine leads_ite (fun _ => leads_seq (settles_act rfl) fun recorded => ?_) fun _ => rfl
    exact leads_ite (fun _ => leads_seq (settles_of_routine (routine_syncFiles _)) fun _ =>
      hwrites ()) fun _ => hwrites ()
  have hcount : ∀ reply, Settles (countFlush reply) := fun _ =>
    leads_ite (fun _ => leads_seq (settles_act rfl) fun _ =>
      leads_seq (settles_act rfl) hfile) fun _ => hfile ()
  exact leads_ite (fun _ => leads_seq (settles_endWriteback _ _) hcount) fun _ => hcount ()

theorem settles_writeFlushTaskDirect (task : FlushTask n blockSize) :
    Settles (writeFlushTaskDirect task) :=
  leads_seq (settles_act rfl) fun _ =>
    leads_seq (settles_of_upkeep (upkeep_beginFlushTask task)) fun _ =>
      leads_seq (settles_of_routine (routine_submitAndWait rfl _)) fun status =>
        leads_seq (settles_finalizeFlushTask task status) fun _ => rfl

theorem settles_foregroundFlushRound (mode : ForegroundWriteback) (frame : Fin n)
    (stable : Bool) : Settles (foregroundFlushRound mode frame stable : Prog n blockSize _) := by
  cases mode with
  | direct =>
      refine leads_seq (settles_of_upkeep (upkeep_createFlushTask _ _ _ _)) fun created => ?_
      dsimp only
      split
      · rfl
      · rfl
      · exact leads_seq (settles_writeFlushTaskDirect _) fun written => by cases written <;> rfl
  | queued =>
      refine leads_seq (settles_of_upkeep (upkeep_tryScheduleFlushTask _ _ _ _)) fun created => ?_
      dsimp only
      split
      · rfl
      · rfl
      · exact leads_seq (settles_act rfl) fun written => by cases written <;> rfl

theorem settles_releaseFrame (frame : Fin n) :
    Settles (releaseFrame frame : Prog n blockSize Unit) := by
  refine leads_seq (settles_act rfl) fun previous => ?_
  cases previous with
  | none => rfl
  | some previous => exact leads_ite (fun _ => settles_act rfl) fun _ => rfl

theorem obeys_freeDiscarded (frame : Fin n) (tag : BufferTag) (previous : Word) :
    counting.Obeys (if isDirty previous then -1 else 0)
      (freeDiscarded frame tag previous : Prog n blockSize Unit) := by
  have htail : ∀ _ : Unit, Settles (do
      act (.storeRecLsn frame kInvalidLsn)
      act (.storeWritebackRecLsn frame kInvalidLsn)
      act (.removeMapping tag frame)
      act (.removeTracked frame)
      act (.storeTag frame {})
      releaseFreeFrame frame : Prog n blockSize Unit) := fun _ =>
    leads_seq (settles_act rfl) fun _ => leads_seq (settles_act rfl) fun _ =>
      leads_seq (settles_act rfl) fun _ => leads_seq (settles_act rfl) fun _ =>
        leads_seq (settles_act rfl) fun _ =>
          settles_of_routine (routine_releaseFreeFrame frame)
  refine obeys_payment ?_ htail (htail ())
  rfl

theorem settles_dropFrame (file : FileId) (firstBlock : BlockId) (frame : Fin n) :
    Settles (dropFrame file firstBlock frame : Prog n blockSize Status) := by
  refine obeys_forever (leads_seq (settles_act rfl) fun tag =>
    leads_seq (settles_act rfl) fun word => leads_ite (fun _ => rfl) fun _ =>
      leads_ite (fun _ => ?_) fun _ => ?_)
  · exact leads_seq (settles_of_routine
      (routine_of_silent (silent_waitForLoad frame tag))) fun _ => rfl
  · refine leads_seq (settles_of_routine (routine_tryPinResidentFrame _ _ _)) fun pinned =>
      leads_ite (fun _ => rfl) fun _ => leads_perform rfl fun reply => ?_
    obtain ⟨outcome, previous⟩ := reply
    have hnext : counting.next 0 (.tryDiscardPinned frame : Action n blockSize)
        (outcome, previous) =
          if outcome = .discarded ∧ isDirty (previous.getD 0#32) then -1 else 0 := by
      simp [counting, Action.dirtyChange, Action.countChange]
    change counting.Obeys (counting.next 0 _ _) _
    rw [hnext]
    cases outcome with
    | writeback =>
        exact leads_seq (settles_releaseFrame frame) fun _ =>
          leads_seq (settles_of_upkeep (upkeep_waitForPendingFlush frame)) fun _ => rfl
    | latched =>
        exact leads_seq (settles_act rfl) fun _ =>
          leads_seq (settles_releaseFrame frame) fun _ => rfl
    | busy => exact leads_seq (settles_releaseFrame frame) fun _ => rfl
    | discarded =>
        simp only [true_and]
        exact leads_seq (obeys_freeDiscarded frame tag _) fun _ => rfl

theorem settles_flushWorker (batchSize burstLimit : Nat) :
    Settles (flushWorker batchSize burstLimit : Prog n blockSize Unit) := by
  have hstart : ∀ tasks : List (FlushTask n blockSize), Settles (startTasks tasks) := by
    intro tasks
    induction tasks with
    | nil => rfl
    | cons task rest ih =>
        exact leads_seq (settles_of_upkeep (upkeep_beginFlushTask task)) fun _ =>
          leads_seq (settles_act rfl) fun _ => leads_seq ih fun _ => rfl
  refine ⟨rfl, fun consecutive => leads_seq (settles_act rfl) fun taken => ?_, fun _ => rfl⟩
  have hsubmit : ∀ requests : List (DiskRequest n blockSize), Settles (submit requests) := by
    refine fun requests => obeys_forEach fun request =>
      leads_seq (obeys_of_uses ⟨neutral_of_isPlain rfl, fun _ => trivial⟩) fun refusal => ?_
    cases refusal with
    | none => rfl
    | some status => exact settles_of_routine (routine_deliver _)
  refine leads_ite (fun _ => rfl) fun _ => leads_seq (hstart _) fun started =>
    leads_seq (hsubmit _) fun _ => leads_seq (obeys_forEach fun entry => ?_) fun _ => rfl
  exact leads_seq (settles_of_routine (routine_wait _)) fun status =>
    leads_seq (settles_finalizeFlushTask _ status) fun _ => settles_act rfl

theorem settles_of_built {program : Prog n blockSize α} (h : program.Built Block) :
    Settles program := by
  refine obeys_of_built (fun hblock => ?_) h
  cases hblock with
  | act h => exact obeys_of_uses ⟨neutral_of_isPlain h, fun _ => trivial⟩
  | markHandleDirty frame tag lsn => exact settles_markHandleDirty frame tag lsn
  | tryScheduleFlushTask => exact settles_of_upkeep (upkeep_tryScheduleFlushTask _ _ _ _)
  | foregroundFlushRound mode frame stable => exact settles_foregroundFlushRound mode frame stable
  | dropFrame file firstBlock frame => exact settles_dropFrame file firstBlock frame
  | flushWorker batchSize burstLimit => exact settles_flushWorker batchSize burstLimit

/-- What a program still has to add to the count: it has changed a dirty bit, and at most
an LSN is recorded before it counts the change. -/
def owed : Prog n blockSize α → Int
  | .request (.addDirtyPages amount) _ => amount.toInt
  | .request (.lowerRecLsn _ _ (some _)) next => owed (next ())
  | _ => 0

theorem owed_eq_of_obeys {program : Prog n blockSize α} {state : Int}
    (h : counting.Obeys state program) : owed program = state := by
  induction program generalizing state with
  | done value => exact (show state = 0 from h).symm
  | loop body turn next _ _ => exact (show state = 0 from h.1).symm
  | request action next ih =>
      obtain ⟨hallowed, hnext⟩ := h
      cases action with
      | addDirtyPages amount => exact (show state = amount.toInt from hallowed).symm
      | lowerRecLsn frame lsn handle =>
          cases handle with
          | none => exact (show state = 0 from hallowed).symm
          | some tag =>
              have hsame : counting.next state
                  (.lowerRecLsn frame lsn (some tag) : Action n blockSize) () = state := by
                simp [counting, Action.dirtyChange, Action.countChange]
              rw [owed, ih () (hnext ()), hsame]
      | _ => exact (show state = 0 from hallowed).symm

end TelePath
