import TelePath.Types

/-!
The requests of `io_uring_disk_backend.cc`.  A request lives in a `RequestContext`, which
keeps what its CQEs have reported; a transfer that came back short is continued from where
it stopped.
-/

namespace TelePath.IoUring

inductive DiskOperation where
  | read
  | write
  | sync
  deriving DecidableEq, Repr

structure RequestContext where
  token : Nat
  operation : DiskOperation
  sync : Bool
  totalBytes : Nat
  doneBytes : Nat := 0
  transferResult : Int := 0
  syncResult : Int := 0
  pendingCqes : Nat
  deriving DecidableEq, Repr

def kEio : Int := 5

def ioError (message : String) (systemError : Int) : Status :=
  some { code := .ioError, message, systemError }

/-- The context that `PrepareLocked` allocates. -/
def prepare (syncOnWrite : Bool) (token : Nat) (operation : DiskOperation) (bytes : Nat) :
    RequestContext :=
  let sync := operation = .write && syncOnWrite
  { token, operation, sync
    totalBytes := if operation = .sync then 0 else bytes
    pendingCqes := if sync then 2 else 1 }

/-- The status in `FinishContext`. -/
def RequestContext.status (context : RequestContext) : Status :=
  let result := context.transferResult
  if context.operation = .sync then
    if result < 0 then ioError "fdatasync failed" (-result) else ok
  else if result < 0 then
    ioError (if context.operation = .read then "io_uring read failed"
      else "io_uring write failed") (-result)
  else if context.operation = .read then ok
  else if context.doneBytes + result ≠ context.totalBytes then ioError "partial page write" 0
  else if context.sync ∧ context.syncResult < 0 then
    ioError "fdatasync failed" (-context.syncResult)
  else ok

/-- A transfer that stopped before the end of the request and of the file. -/
def RequestContext.short (context : RequestContext) : Bool :=
  0 < context.transferResult ∧
    context.transferResult < (context.totalBytes - context.doneBytes : Nat)

/-- `ContinueShortTransfer`.  It submits nothing when the ring is broken or full, or
when `io_uring_submit` fails. -/
def RequestContext.continue (context : RequestContext) (submitted : Bool) : RequestContext :=
  { context with
    doneBytes := context.doneBytes + context.transferResult.toNat
    pendingCqes := if submitted then if context.sync then 2 else 1 else 0 }

end TelePath.IoUring
