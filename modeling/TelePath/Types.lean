import Mathlib.Algebra.GroupWithZero.Nat
import Mathlib.Data.Nat.Basic

/-!
Identifiers of `types.h` and the outcome types of `status.h`.
-/

namespace TelePath

abbrev FileId := BitVec 32

abbrev BlockId := BitVec 64

/-!
The library has these instances, by paths that depend on what a module imports.  Fixed here, a
lookup by file and a numeral of `Fin 2` or `Fin 3` are the same terms in every module.
-/

instance (priority := 2000) lawfulBEq_fileId : LawfulBEq FileId := inferInstance

instance (priority := 2000) neZero_two : NeZero 2 := ⟨by decide⟩

instance (priority := 2000) neZero_three : NeZero 3 := ⟨by decide⟩

/-- Log sequence number of the caller's write-ahead log. -/
abbrev Lsn := BitVec 64

def kInvalidLsn : Lsn := 0#64

structure BufferTag where
  fileId : FileId := 0#32
  blockId : BlockId := 0#64
  deriving DecidableEq, Repr

/-- `unnamed` stands for the bytes that no enumerator has. -/
inductive ErrorCode where
  | invalidArgument
  | notFound
  | ioError
  | unavailable
  | resourceExhausted
  | internal
  | failed
  | unnamed
  deriving DecidableEq, Repr

def ErrorCode.toByte : ErrorCode → Nat
  | .invalidArgument => 1
  | .notFound => 2
  | .ioError => 3
  | .unavailable => 4
  | .resourceExhausted => 5
  | .internal => 6
  | .failed => 7
  | .unnamed => 0

def ErrorCode.ofByte : Nat → ErrorCode
  | 1 => .invalidArgument
  | 2 => .notFound
  | 3 => .ioError
  | 4 => .unavailable
  | 5 => .resourceExhausted
  | 6 => .internal
  | 7 => .failed
  | _ => .unnamed

structure Error where
  code : ErrorCode
  message : String
  systemError : Int := 0
  deriving DecidableEq, Repr

abbrev Result (α : Type) := Except Error α

/-- Success or the error of an operation without a value. -/
abbrev Status := Option Error

def ok : Status := none

end TelePath
