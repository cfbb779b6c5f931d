import Mathlib.Logic.Function.Basic
import TelePath.Manager.Background

/-!
Any number of threads over one buffer manager.  A client thread owns handles and
asynchronous operations and makes one call at a time; flush workers, the cleaner
and the reaper run their loops.  Between any two actions every other thread and the
backend may act.
-/

namespace TelePath

open FrameControl Logic Manager

variable {n blockSize : Nat}

/-- A handle a client owns. -/
structure Handle (n : Nat) where
  frame : Fin n
  tag : BufferTag
  exclusive : Bool
  markedDirty : Bool := false
  deriving DecidableEq, Repr

/-- The calls of a client.  Those on a handle name it by its position. -/
inductive Call (n blockSize : Nat) where
  | readBuffer (tag : BufferTag) (strategy : Option StrategyId)
  | readBufferExclusive (tag : BufferTag) (strategy : Option StrategyId) (mode : ReadBufferMode)
  | release (handle : Nat)
  | mutableData (handle : Nat)
  | write (handle : Nat) (page : Page blockSize)
  | markDirty (handle : Nat) (lsn : Lsn)
  | flushHandle (handle : Nat)
  | flushBuffer (tag : BufferTag)
  | flushAll
  | flushFileBuffers (file : FileId)
  | syncFile (file : FileId)
  | checkpointBuffers (lsn : Lsn)
  | minRecLsn
  | prefetchBuffer (file : FileId) (block : BlockId) (blockCount : Nat)
  | startReadBuffers (operation : Nat) (file : FileId) (block : BlockId) (blockCount : Nat)
      (strategy : Option StrategyId)
  | waitReadBuffers (operation : Nat)
  | destroyOperation (operation : Nat)
  | dropFileBuffers (file : FileId) (firstBlock : BlockId)

/-- What a call returns. -/
inductive Outcome (n : Nat) where
  | status (status : Status)
  | handle (result : Result (Handle n))
  | handles (handles : List (Handle n)) (status : Status)
  | operation (status : Status) (state : Option OperationId)
  | lsn (lsn : Option Lsn)

/-- The options that the programs read. -/
structure Options where
  writeback : ForegroundWriteback
  maxRequestBlocks : Nat

/-- What a client owns between calls. -/
structure Client (n : Nat) where
  handles : List (Handle n) := []
  /-- The state each operation object owns, by position. -/
  operations : Nat → Option OperationId := fun _ => none

/-- `FlushBuffer` on a handle passes the handle's own data; an exclusive holder
writes one round only. -/
def flushHandleProgram (options : Options) (handle : Handle n) : Prog n blockSize Status :=
  whenUsable
    (if handle.exclusive then flushFrameOnce options.writeback handle.frame true
      else runForegroundFlush options.writeback handle.frame true)

def releaseProgram (handle : Handle n) : Prog n blockSize Unit :=
  if handle.exclusive then releaseExclusiveHandle handle.frame handle.tag
  else releaseSharedHandle handle.frame

/-- The program of a call, or `none` when it names a handle the client does not
own or may not write through. -/
def callProgram (options : Options) (client : Client n) :
    Call n blockSize → Option (Prog n blockSize (Outcome n))
  | .readBuffer tag strategy => some do
      return .handle ((← readBuffer options.writeback tag strategy).map (⟨·, tag, false, false⟩))
  | .readBufferExclusive tag strategy mode => some do
      return .handle ((← readBufferExclusive options.writeback tag strategy mode).map
        (⟨·, tag, true, false⟩))
  | .release index => client.handles[index]?.map fun handle => do
      releaseProgram handle
      return .status ok
  | .mutableData index => (client.handles[index]?.filter (·.exclusive)).map fun handle => do
      if !handle.markedDirty then markHandleDirty handle.frame handle.tag kInvalidLsn
      return .status ok
  | .write index page =>
      (client.handles[index]?.filter fun handle => handle.exclusive && handle.markedDirty).map
        fun handle => do
          act (.writeFrame handle.frame page)
          return .status ok
  | .markDirty index lsn => (client.handles[index]?.filter (·.exclusive)).map fun handle => do
      markHandleDirty handle.frame handle.tag lsn
      return .status ok
  | .flushHandle index => client.handles[index]?.map fun handle => do
      return .status (← flushHandleProgram options handle)
  | .flushBuffer tag => some do return .status (← flushBuffer options.writeback tag)
  | .flushAll => some do return .status (← flushAll options.writeback)
  | .flushFileBuffers file => some do
      return .status (← flushFileBuffers options.writeback file)
  | .syncFile file => some do return .status (← syncFile file)
  | .checkpointBuffers lsn => some do
      return .status (← checkpointBuffers options.writeback lsn)
  | .minRecLsn => some do return .lsn (← minRecLsn)
  | .prefetchBuffer file block count => some do
      return .status
        (← prefetchBuffer options.writeback options.maxRequestBlocks file block count)
  | .startReadBuffers operation file block count strategy => some do
      let (status, state) ← startReadBuffers options.writeback options.maxRequestBlocks
        (client.operations operation) file block count strategy
      return .operation status state
  | .waitReadBuffers operation => some do
      let (handles, status) ← waitReadBuffers options.writeback (client.operations operation)
      return .handles (handles.map fun (frame, tag) => ⟨frame, tag, false, false⟩) status
  | .destroyOperation operation => some do
      destroyOperation options.writeback (client.operations operation)
      return .status ok
  | .dropFileBuffers file first => some do return .status (← dropFileBuffers file first)

/-- What the client owns once a call has returned. -/
def Client.finish (client : Client n) : Call n blockSize → Outcome n → Client n
  | .release index, _ => { client with handles := client.handles.eraseIdx index }
  | .mutableData index, _ | .markDirty index _, _ =>
      { client with handles := client.handles.modify index ({ · with markedDirty := true }) }
  | .startReadBuffers operation .., .operation _ state =>
      { client with operations := Function.update client.operations operation state }
  | .waitReadBuffers operation, .handles handles _ =>
      { client with
        handles := client.handles ++ handles
        operations := Function.update client.operations operation none }
  | .destroyOperation operation, _ =>
      { client with operations := Function.update client.operations operation none }
  | _, .handle (.ok handle) => { client with handles := client.handles ++ [handle] }
  | _, _ => client

/-- What a thread is in the middle of. -/
inductive Activity (n blockSize : Nat) where
  | idle
  | calling (call : Call n blockSize) (rest : Prog n blockSize (Outcome n))
  | background (rest : Prog n blockSize Unit)

structure Thread (n blockSize : Nat) where
  client : Client n := {}
  activity : Activity n blockSize := .idle

structure System (n blockSize threads : Nat) where
  shared : Shared n blockSize
  thread : Fin threads → Thread n blockSize

variable {threads : Nat}

/-- What the backend does to a request it completes successfully. -/
def Shared.performRequest (shared : Shared n blockSize) (request : DiskRequest n blockSize) :
    Shared n blockSize :=
  match request.operation with
  | .read frames =>
      { shared with
        frameData := fun frame =>
          match frames.findIdx? (· = frame) with
          | some i => shared.diskPage
              { request.tag with blockId := request.tag.blockId + BitVec.ofNat 64 i }
          | none => shared.frameData frame }
  | .write page =>
      { shared with
        files := Function.update shared.files request.tag.fileId
          ((shared.files request.tag.fileId).writeBlock request.tag.blockId.toNat page) }
  | .sync => shared

/-- A failed read may leave anything in the frames it was to fill. -/
def Shared.failRequest (shared : Shared n blockSize) (request : DiskRequest n blockSize)
    (left : Fin n → Page blockSize) : Shared n blockSize :=
  match request.operation with
  | .read frames =>
      { shared with
        frameData := fun frame => if frame ∈ frames then left frame else shared.frameData frame }
  | _ => shared

def Shared.complete (shared : Shared n blockSize) (index : Nat)
    (request : DiskRequest n blockSize) (status : Status) (left : Fin n → Page blockSize) :
    Shared n blockSize :=
  { (if status = ok then shared.performRequest request else shared.failRequest request left) with
    inFlight := shared.inFlight.eraseIdx index
    completions := shared.completions ++ [⟨request.token, status⟩] }

/-- Reaping fails for good: the manager enters the failed state and the engine stops. -/
def Shared.stopEngine (shared : Shared n blockSize) (error : Error) : Shared n blockSize :=
  { shared with failed := true, stopped := true, stopStatus := some error }

def System.setThread (system : System n blockSize threads) (id : Fin threads)
    (thread : Thread n blockSize) : System n blockSize threads :=
  { system with thread := Function.update system.thread id thread }

end TelePath
