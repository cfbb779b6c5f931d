import Mathlib.Logic.Function.Basic
import TelePath.Io.BlockTransfer
import TelePath.Logic.Machine

/-!
One file of `page_cache.cc`, used by one thread.

The buffer pool is seen from this file: which of its pages are resident, which are being
read ahead, and what is in the backing file.  Before every call of the buffer manager, which
may fail, pages may be written back, evicted and loaded.  Bytes of the backing file behind
its end are zero.  Of the backend it is used that file offsets from `2 ^ 63` on are refused.
-/

namespace TelePath.PageCache

open BlockTransfer (BlockGeometry)
open IoUring (ioError)

abbrev Byte := BitVec 8

/-- The caller's bytes; no object is larger than half of the address space. -/
structure Span where
  length : Nat
  byte : Nat → Byte
  bounded : length < 2 ^ 63

structure Page where
  data : Nat → Byte
  dirty : Bool

/-- `FileState` of a file with its pages and its backing file. -/
structure File where
  closed : Bool := false
  loaded : Bool := false
  size : BitVec 64 := 0
  nextOffset : BitVec 64 := -1
  window : Nat := 0
  prefetchedUntil : Nat := 0
  pages : Nat → Option Page := fun _ => none
  loading : Nat → Bool := fun _ => false
  disk : Nat → Byte
  backingSize : Nat

/-- What other threads do to the pages of the file. -/
inductive Background where
  | writeback (block : Nat)
  | evict (block : Nat)
  | finishLoad (block : Nat) (success : Bool)
  deriving DecidableEq, Repr

/-- What happens before and in a call of the manager or the backend: background work, how the
load of a page that is read ahead ends, and whether the call fails. -/
structure Choice where
  background : List Background := []
  loadSucceeds : Bool := true
  failure : Option Error := none
  deriving DecidableEq, Repr

variable (geometry : BlockGeometry)

/-- The block has an offset that the backend accepts. -/
def Addressable (block : Nat) : Prop := block * geometry.blockSize < 2 ^ 63

instance (block : Nat) : Decidable (Addressable geometry block) :=
  inferInstanceAs (Decidable (_ < _))

namespace File

/-- What a `Read` of this byte returns. -/
def byte (file : File) (position : Nat) : Byte :=
  match file.pages (position / geometry.blockSize) with
  | some page => page.data (position % geometry.blockSize)
  | none => file.disk position

/-- The size that the next call sees. -/
def logicalSize (file : File) : Nat := if file.loaded then file.size.toNat else file.backingSize

def setPage (file : File) (block : Nat) (page : Option Page) : File :=
  { file with pages := Function.update file.pages block page }

def fromDisk (file : File) (block : Nat) : Nat → Byte := fun index =>
  file.disk (block * geometry.blockSize + index)

def writeback (file : File) (block : Nat) : File :=
  match file.pages block with
  | some page =>
      if page.dirty ∧ Addressable geometry block then
        { file with
          disk := fun position =>
            if position / geometry.blockSize = block then
              page.data (position % geometry.blockSize)
            else file.disk position
          backingSize := max file.backingSize ((block + 1) * geometry.blockSize) }.setPage block
            (some { page with dirty := false })
      else file
  | none => file

def evict (file : File) (block : Nat) : File :=
  match file.pages block with
  | some page => if page.dirty then file else file.setPage block none
  | none => file

def finishLoad (file : File) (block : Nat) (success : Bool) : File :=
  if file.loading block then
    let ended := { file with loading := Function.update file.loading block false }
    if success ∧ Addressable geometry block then
      ended.setPage block (some ⟨file.fromDisk geometry block, false⟩)
    else ended
  else file

def runBackground (file : File) : Background → File
  | .writeback block => file.writeback geometry block
  | .evict block => file.evict block
  | .finishLoad block success => file.finishLoad geometry block success

/-- `ReadBuffer` and `ReadBufferExclusive`: the bytes of the page.  With `zero`, for
`kZeroAndLock`, a page that is not resident is cleared and not read; its caller writes the
whole page before the handle is released. -/
def readBuffer (file : File) (block : Nat) (zero : Bool) (choice : Choice) :
    File × Result (Nat → Byte) :=
  let file := choice.background.foldl (runBackground geometry) file
  match choice.failure with
  | some error => (file, .error error)
  | none =>
      let file := file.finishLoad geometry block choice.loadSucceeds
      match file.pages block with
      | some page => (file, .ok page.data)
      | none =>
          if zero then (file, .ok fun _ => 0)
          else if Addressable geometry block then
            (file.setPage block (some ⟨file.fromDisk geometry block, false⟩),
              .ok (file.fromDisk geometry block))
          else (file, .error { code := .ioError, message := "preadv failed", systemError := 22 })

def state (file : File) (failure : Option Error) : File × Status :=
  if file.loaded then (file, ok)
  else
    match failure with
    | some error => (file, some error)
    | none => ({ file with size := BitVec.ofNat 64 file.backingSize, loaded := true }, ok)

/-! ### Write -/

def extendTo (file : File) (last : BitVec 64) : File :=
  if file.size < last then { file with size := last } else file

def copyIn (old : Nat → Byte) (inBlock chunk : Nat) (data : Span) (copied : Nat) : Nat → Byte :=
  fun index =>
    if inBlock ≤ index ∧ index < inBlock + chunk then data.byte (copied + (index - inBlock))
    else old index

/-- One round of the loop of `Write`, after `copied` bytes: the block it takes next. -/
def writeRound (offset : BitVec 64) (data : Span) (file : File) (copied : Nat) (choice : Choice) :
    File × Result Nat :=
  let position := (offset + BitVec.ofNat 64 copied).toNat
  let block := position / geometry.blockSize
  let inBlock := position % geometry.blockSize
  let chunk := min (geometry.blockSize - inBlock) (data.length - copied)
  match file.readBuffer geometry block (chunk = geometry.blockSize) choice with
  | (file, .error error) => (file, .error error)
  | (file, .ok old) =>
      (file.setPage block (some ⟨copyIn old inBlock chunk data copied, true⟩), .ok (copied + chunk))

def writeLoop (offset : BitVec 64) (data : Span) (file : File) (copied : Nat) :
    List Choice → Option (File × Status)
  | [] => if copied < data.length then none else some (file.extendTo (offset + data.length), ok)
  | choice :: choices =>
      if copied < data.length then
        match file.writeRound geometry offset data copied choice with
        | (file, .error error) =>
            some (if copied ≠ 0 then file.extendTo (offset + BitVec.ofNat 64 copied) else file,
              some error)
        | (file, .ok copied) => writeLoop offset data file copied choices
      else some (file.extendTo (offset + data.length), ok)

/-- Rounds that all get their blocks, and what they lead to. -/
def writeRounds (offset : BitVec 64) (data : Span) (file : File) (copied : Nat) :
    List Choice → Option (File × Nat)
  | [] => some (file, copied)
  | choice :: choices =>
      if copied < data.length then
        match file.writeRound geometry offset data copied choice with
        | (_, .error _) => none
        | (file, .ok copied) => writeRounds offset data file copied choices
      else none

def unavailable : Error := { code := .unavailable, message := "page cache is closed" }

def write (file : File) (offset : BitVec 64) (data : Span) (stateFailure : Option Error)
    (choices : List Choice) : Option (File × Status) :=
  if file.closed then some (file, some unavailable)
  else if data.length = 0 then some (file, ok)
  else
    match file.state stateFailure with
    | (file, some error) => some (file, some error)
    | (file, none) => file.writeLoop geometry offset data 0 choices

/-! ### Truncate -/

def dropFileBuffers (file : File) (firstBlock : Nat) (busy : List Nat) (choice : Choice) :
    File × Status :=
  let file := choice.background.foldl (runBackground geometry) file
  match choice.failure with
  | some error => (file, some error)
  | none =>
      ({ file with
          pages := fun block =>
            if firstBlock ≤ block ∧ block ∉ busy then none else file.pages block
          loading := fun block => file.loading block && !(firstBlock ≤ block) },
        if busy.any fun block => firstBlock ≤ block && (file.pages block).isSome then
          some (PosixBackend.invalidArgument "a page in the dropped range is in use")
        else ok)

def setFileSize (file : File) (size : BitVec 64) (failure : Option Error) : File × Status :=
  match failure with
  | some error => (file, some error)
  | none =>
      if size.toInt < 0 then (file, ioError "ftruncate failed" 22)
      else
        ({ file with
            disk := fun position => if position < size.toNat then file.disk position else 0
            backingSize := size.toNat }, ok)

/-- The rest of the last block is cleared. -/
def clearTail (file : File) (size : BitVec 64) (choice : Choice) : File × Status :=
  let inBlock := size.toNat % geometry.blockSize
  if inBlock ≠ 0 then
    match file.readBuffer geometry (size.toNat / geometry.blockSize) false choice with
    | (file, .error error) => (file, some error)
    | (file, .ok old) =>
        (file.setPage (size.toNat / geometry.blockSize)
          (some ⟨fun index => if inBlock ≤ index then 0 else old index, true⟩), ok)
  else (file, ok)

/-- The choices of the calls of `Truncate`. -/
structure TruncateChoice where
  stateFailure : Option Error := none
  drop : Choice := {}
  busy : List Nat := []
  tail : Choice := {}
  background : List Background := []
  resizeFailure : Option Error := none
  deriving DecidableEq, Repr

def shrink (file : File) (size : BitVec 64) (choice : TruncateChoice) : File × Status :=
  let firstBlock := (size + BitVec.ofNat 64 geometry.blockSize - 1).toNat / geometry.blockSize
  match file.dropFileBuffers geometry firstBlock choice.busy choice.drop with
  | (file, some error) => (file, some error)
  | (file, none) =>
      match file.clearTail geometry size choice.tail with
      | (file, some error) => (file, some error)
      | (file, none) =>
          (choice.background.foldl (runBackground geometry) file).setFileSize size
            choice.resizeFailure

def resize (file : File) (size : BitVec 64) : File :=
  { file with size, nextOffset := -1, prefetchedUntil := 0 }

def truncate (file : File) (size : BitVec 64) (choice : TruncateChoice) : File × Status :=
  if file.closed then (file, some unavailable)
  else
    match file.state choice.stateFailure with
    | (file, some error) => (file, some error)
    | (file, none) =>
        if size < file.size then
          match file.shrink geometry size choice with
          | (file, some error) => (file, some error)
          | (file, none) => (file.resize size, ok)
        else (file.resize size, ok)

/-! ### Read and Sync -/

def kInitialReadaheadBlocks : Nat := 4

def prefetchBuffer (file : File) (first count : Nat) (started : List Nat) : File :=
  { file with
    loading := fun block => file.loading block ||
      (first ≤ block && block < first + count && block ∈ started &&
        (file.pages block).isNone) }

def nextWindow (file : File) (maxReadaheadBlocks : Nat) : Nat :=
  if file.window = 0 then min kInitialReadaheadBlocks maxReadaheadBlocks
  else min (file.window * 2) maxReadaheadBlocks

def readahead (file : File) (maxReadaheadBlocks : Nat) (offset : BitVec 64) (length : Nat)
    (started : List Nat) : File :=
  if maxReadaheadBlocks = 0 then file
  else
    let expected := file.nextOffset
    let file := { file with nextOffset := offset + BitVec.ofNat 64 length }
    if offset ≠ expected then { file with window := 0 }
    else
      let window := file.nextWindow maxReadaheadBlocks
      let file := { file with window }
      let lastBlock := (offset + BitVec.ofNat 64 length - 1).toNat / geometry.blockSize
      let fileBlocks :=
        (file.size + BitVec.ofNat 64 geometry.blockSize - 1).toNat / geometry.blockSize
      let first := max (lastBlock + 1) file.prefetchedUntil
      let last := min (lastBlock + 1 + window) fileBlocks
      if last ≤ first then file
      else { file with prefetchedUntil := last }.prefetchBuffer first (last - first) started

def readLoop (offset : BitVec 64) (length : Nat) (file : File) (out : Nat → Byte) (copied : Nat) :
    List Choice → Option (File × Result (Nat × (Nat → Byte)))
  | [] => if copied < length then none else some (file, .ok (length, out))
  | choice :: choices =>
      if copied < length then
        let position := (offset + BitVec.ofNat 64 copied).toNat
        let inBlock := position % geometry.blockSize
        let chunk := min (geometry.blockSize - inBlock) (length - copied)
        match file.readBuffer geometry (position / geometry.blockSize) false choice with
        | (file, .error error) => some (file, .error error)
        | (file, .ok data) =>
            readLoop offset length file
              (fun index =>
                if copied ≤ index ∧ index < copied + chunk then data (inBlock + (index - copied))
                else out index)
              (copied + chunk) choices
      else some (file, .ok (length, out))

def read (file : File) (maxReadaheadBlocks : Nat) (offset : BitVec 64) (out : Span)
    (stateFailure : Option Error) (started : List Nat) (choices : List Choice) :
    Option (File × Result (Nat × (Nat → Byte))) :=
  if file.closed then some (file, .error unavailable)
  else
    match file.state stateFailure with
    | (file, some error) => some (file, .error error)
    | (file, none) =>
        if file.size ≤ offset ∨ out.length = 0 then some (file, .ok (0, out.byte))
        else
          let length := min out.length (file.size - offset).toNat
          (file.readahead geometry maxReadaheadBlocks offset length started).readLoop geometry
            offset length out.byte 0 choices

/-- `SyncState`: the flush of the dirty pages is background work here, which may write back
any of them; then the backing file gets the logical size, and is synced. -/
def sync (file : File) (choice : Choice) (stateFailure resizeFailure syncFailure : Option Error) :
    File × Status :=
  if file.closed then (file, some unavailable)
  else
    match file.state stateFailure with
    | (file, some error) => (file, some error)
    | (file, none) =>
        let file := choice.background.foldl (runBackground geometry) file
        match choice.failure with
        | some error => (file, some error)
        | none =>
            match file.setFileSize file.size resizeFailure with
            | (file, some error) => (file, some error)
            | (file, none) => (file, syncFailure)

end File

/-- The calls of the thread, with what happens in them, and background work between them. -/
inductive Move where
  | write (offset : BitVec 64) (data : Span) (stateFailure : Option Error)
      (choices : List Choice)
  | truncate (size : BitVec 64) (choice : File.TruncateChoice)
  | read (maxReadaheadBlocks : Nat) (offset : BitVec 64) (out : Span)
      (stateFailure : Option Error) (started : List Nat) (choices : List Choice)
  | sync (choice : Choice) (stateFailure resizeFailure syncFailure : Option Error)
  | background (work : Background)

/-- The file after a move, whatever it answers. -/
def step (file : File) : Move → Option File
  | .write offset data stateFailure choices =>
      (file.write geometry offset data stateFailure choices).map Prod.fst
  | .truncate size choice => some (file.truncate geometry size choice).1
  | .read maxReadaheadBlocks offset out stateFailure started choices =>
      (file.read geometry maxReadaheadBlocks offset out stateFailure started choices).map Prod.fst
  | .sync choice stateFailure resizeFailure syncFailure =>
      some (file.sync geometry choice stateFailure resizeFailure syncFailure).1
  | .background work => some (file.runBackground geometry work)

/-- A file that the cache has not used yet. -/
structure Untouched (file : File) : Prop where
  loaded : file.loaded = false
  pages : ∀ block, file.pages block = none
  loading : ∀ block, file.loading block = false
  zeros : ∀ position, file.backingSize ≤ position → file.disk position = 0
  offsets : file.backingSize < 2 ^ 63

end TelePath.PageCache
