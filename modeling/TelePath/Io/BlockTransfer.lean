import Mathlib.Data.Nat.Log
import TelePath.Io.PosixBackend

/-!
Which bytes of a file the disk backends transfer: `block_geometry.h`, `ExecuteRead` and
`ExecuteWrite` of `posix_disk_backend.cc`, and the transfers of one request in
`io_uring_disk_backend.cc`.

A transfer is recorded byte by byte, as the cell of the request's buffers and the offset in
the file.  What the kernel answers to the calls for a request is a list that the model is
given; of the kernel it is assumed that it transfers nothing at a negative offset, no more
than the call asks for and nothing beyond the largest file offset.
-/

namespace TelePath.BlockTransfer

open IoUring (RequestContext kEio)
open PosixBackend (kMaxDiskRequestBlocks validateDiskRequest)

/-! ### Block geometry -/

def kMinBlockSize : Nat := 1 <<< 12

def kMaxBlockSize : Nat := 1 <<< 22

def hasSingleBit (value : Nat) : Bool := 2 ^ value.log2 = value

def isValidBlockSize (blockSize : Nat) : Bool :=
  hasSingleBit blockSize && kMinBlockSize ≤ blockSize && blockSize ≤ kMaxBlockSize

structure BlockGeometry where
  blockShift : Nat
  bounded : 12 ≤ blockShift ∧ blockShift ≤ 22

theorem log2_bounded {blockSize : Nat} (h : isValidBlockSize blockSize = true) :
    12 ≤ blockSize.log2 ∧ blockSize.log2 ≤ 22 := by
  simp only [isValidBlockSize, Bool.and_eq_true, decide_eq_true_eq] at h
  obtain ⟨⟨-, hmin⟩, hmax⟩ := h
  have hne : blockSize ≠ 0 := by
    rintro rfl
    exact absurd hmin (by decide)
  constructor
  · exact (Nat.le_log2 hne).mpr hmin
  · refine Nat.le_of_lt_succ ((Nat.log2_lt hne).mpr (lt_of_le_of_lt hmax ?_))
    decide

namespace BlockGeometry

def create (blockSize : Nat) : Result BlockGeometry :=
  if h : isValidBlockSize blockSize then .ok ⟨blockSize.log2, log2_bounded h⟩
  else .error (PosixBackend.invalidArgument
    "block size must be a power of two between 4 KiB and 4 MiB")

def blockSize (geometry : BlockGeometry) : Nat := 1 <<< geometry.blockShift

def blockOffset (geometry : BlockGeometry) (blockId : BlockId) : BitVec 64 :=
  blockId <<< geometry.blockShift

variable (geometry : BlockGeometry)

theorem blockSize_eq : geometry.blockSize = 2 ^ geometry.blockShift := by
  simp [blockSize, Nat.shiftLeft_eq]

theorem blockSize_pos : 0 < geometry.blockSize := by
  rw [blockSize_eq]
  exact Nat.two_pow_pos _

theorem blockSize_le : geometry.blockSize ≤ 2 ^ 22 := by
  rw [blockSize_eq]
  exact Nat.pow_le_pow_right (by decide) geometry.bounded.2

theorem blockSize_of_create {geometry : BlockGeometry} {size : Nat}
    (h : create size = .ok geometry) : geometry.blockSize = size := by
  unfold create at h
  split at h
  · rename_i hvalid
    cases h
    simp only [isValidBlockSize, hasSingleBit, Bool.and_eq_true, decide_eq_true_eq] at hvalid
    simpa [blockSize, Nat.shiftLeft_eq] using hvalid.1.1
  · cases h

/-- No bit of the block number is shifted out. -/
def Fits (blockId : BlockId) : Prop := blockId.toNat < 2 ^ (64 - geometry.blockShift)

/-- The number fits, or its offset is one below zero, which the kernel refuses. -/
def Unaliased (blockId : BlockId) : Prop :=
  geometry.Fits blockId ∨ (geometry.blockOffset blockId).msb = true

instance (blockId : BlockId) : Decidable (geometry.Unaliased blockId) :=
  inferInstanceAs (Decidable (_ < _ ∨ _))

theorem blockOffset_toNat {blockId : BlockId} (h : geometry.Fits blockId) :
    (geometry.blockOffset blockId).toNat = blockId.toNat * geometry.blockSize := by
  have hle : geometry.blockShift ≤ 64 := by
    have := geometry.bounded
    omega
  have hlt : blockId.toNat * 2 ^ geometry.blockShift < 2 ^ 64 :=
    calc blockId.toNat * 2 ^ geometry.blockShift
        < 2 ^ (64 - geometry.blockShift) * 2 ^ geometry.blockShift :=
          Nat.mul_lt_mul_of_pos_right h (Nat.two_pow_pos _)
      _ = 2 ^ 64 := by rw [← Nat.pow_add, Nat.sub_add_cancel hle]
  rw [blockOffset, BitVec.toNat_shiftLeft, Nat.shiftLeft_eq, Nat.mod_eq_of_lt hlt, blockSize_eq]

end BlockGeometry

/-! ### The calls of a request -/

structure BlockRequest extends PosixBackend.DiskRequest where
  tag : BufferTag
  deriving DecidableEq, Repr

/-- A byte of the buffers of a request: the block and the byte in it. -/
abbrev Cell := Nat × Nat

structure Iovec where
  block : Nat
  skip : Nat
  length : Nat
  deriving DecidableEq, Repr

def Iovec.cells (iovec : Iovec) : List Cell :=
  (List.range iovec.length).map fun index => (iovec.block, iovec.skip + index)

/-- What is left of the buffers when `done` bytes are transferred. -/
def iovecs (blockSize blockCount done : Nat) : List Iovec :=
  (List.range' (done / blockSize) (blockCount - done / blockSize)).map fun block =>
    let skip := if block = done / blockSize then done % blockSize else 0
    ⟨block, skip, blockSize - skip⟩

/-- The kernel's answer: `EINTR`, another error, or the number of bytes transferred, which is
zero for a read at the end of the file. -/
inductive Answer where
  | interrupted
  | failed (errno : Nat)
  | moved (count : Nat)
  deriving DecidableEq, Repr

def kEintr : Nat := 4

/-- What the kernel may answer to a transfer at `offset`. -/
def Permits (offset : Int) (length : Nat) : Answer → Prop
  | .interrupted => True
  | .failed errno => 0 < errno
  | .moved count => 0 ≤ offset ∧ count ≤ length ∧ offset + count < 2 ^ 63

instance (offset : Int) (length : Nat) (answer : Answer) :
    Decidable (Permits offset length answer) :=
  match answer with
  | .interrupted => inferInstanceAs (Decidable True)
  | .failed errno => inferInstanceAs (Decidable (0 < errno))
  | .moved count =>
      inferInstanceAs (Decidable (0 ≤ offset ∧ count ≤ length ∧ offset + count < 2 ^ 63))

/-- A transferred byte. -/
structure Moved where
  cell : Cell
  offset : Int
  deriving DecidableEq, Repr

/-- The first `count` bytes of the buffers go to or come from `offset` on. -/
def transfer (iov : List Iovec) (offset : Int) (count : Nat) : List Moved :=
  ((iov.flatMap Iovec.cells).take count).mapIdx fun index cell => ⟨cell, offset + index⟩

/-- The cells that `ZeroFillReadTail` clears. -/
def zeroFillReadTail (blockSize blockCount transferred : Nat) : List Cell :=
  (List.range blockCount).flatMap fun block =>
    let blockBegin := block * blockSize
    if blockBegin + blockSize ≤ transferred then []
    else
      let offset := if blockBegin < transferred then transferred - blockBegin else 0
      (List.range (blockSize - offset)).map fun index => (block, offset + index)

/-- What a request has done when it completes; `endOfFile` is where a read met the end of the
file. -/
structure Outcome where
  moved : List Moved := []
  zeroed : List Cell := []
  endOfFile : Option Int := none
  status : Status
  deriving DecidableEq, Repr

def Outcome.after (outcome : Outcome) (moved : List Moved) : Outcome :=
  { outcome with moved := moved ++ outcome.moved }

namespace BlockRequest

def total (geometry : BlockGeometry) (request : BlockRequest) : Nat :=
  request.blockCount * geometry.blockSize

/-! ### POSIX -/

/-- The loop of `ExecuteRead` and `ExecuteWrite` from `done` on.  They differ in the message,
in what a transfer of zero bytes means and in what is done at the end. -/
def transferLoop (geometry : BlockGeometry) (request : BlockRequest) (failure : String)
    (atZero : Nat → Outcome) (atEnd : Outcome) (done : Nat) : List Answer → Option Outcome
  | [] => if done < request.total geometry then none else some atEnd
  | answer :: answers =>
      if done < request.total geometry then
        let iov := iovecs geometry.blockSize request.blockCount done
        let offset := (geometry.blockOffset request.tag.blockId).toInt + done
        if Permits offset (iov.map Iovec.length).sum answer then
          match answer with
          | .interrupted =>
              transferLoop geometry request failure atZero atEnd done answers
          | .failed errno => some { status := IoUring.ioError failure errno }
          | .moved 0 => some (atZero done)
          | .moved count =>
              (transferLoop geometry request failure atZero atEnd (done + count) answers).map
                (Outcome.after · (transfer iov offset count))
        else none
      else some atEnd

def executeRead (geometry : BlockGeometry) (request : BlockRequest) (answers : List Answer) :
    Option Outcome :=
  request.transferLoop geometry "preadv failed"
    (fun done =>
      { zeroed := zeroFillReadTail geometry.blockSize request.blockCount done
        endOfFile := some ((geometry.blockOffset request.tag.blockId).toInt + done)
        status := ok })
    { status := ok } 0 answers

def executeWrite (geometry : BlockGeometry) (request : BlockRequest) (syncOnWrite : Bool)
    (syncError : Option Nat) (answers : List Answer) : Option Outcome :=
  request.transferLoop geometry "pwritev failed"
    (fun _ => { status := IoUring.ioError "partial page write" 0 })
    { status :=
        match syncOnWrite, syncError with
        | true, some errno => IoUring.ioError "fdatasync failed" errno
        | _, _ => ok } 0 answers

end BlockRequest

/-! ### io_uring -/

/-- The two results of a transfer, and whether a short one could be submitted again. -/
structure Reaped where
  answer : Answer
  syncResult : Int := 0
  submitted : Bool := true
  deriving DecidableEq, Repr

/-- The `res` of a CQE. -/
def Answer.result : Answer → Int
  | .interrupted => -kEintr
  | .failed errno => -errno
  | .moved count => count

def Answer.count : Answer → Nat
  | .moved count => count
  | _ => 0

/-- The context when all CQEs of a transfer are taken. -/
def Reaped.record (reaped : Reaped) (context : RequestContext) : RequestContext :=
  { context with transferResult := reaped.answer.result, syncResult := reaped.syncResult }

namespace BlockRequest

/-- `FinishContext`. -/
def finishContext (geometry : BlockGeometry) (request : BlockRequest) (context : RequestContext)
    (offset : Int) : Outcome :=
  if request.operation = .read ∧ 0 ≤ context.transferResult then
    { zeroed := zeroFillReadTail geometry.blockSize request.blockCount
        (context.doneBytes + context.transferResult.toNat)
      endOfFile := if context.transferResult = 0 then some offset else none
      status := context.status }
  else { status := context.status }

/-- The transfers of a context, each from its submission to `ReapRing`.  The first one is that of
`PrepareLocked`, the others are those of `ContinueShortTransfer`. -/
def reapLoop (geometry : BlockGeometry) (request : BlockRequest) (context : RequestContext) :
    List Reaped → Option Outcome
  | [] => none
  | reaped :: rest =>
      let iov := iovecs geometry.blockSize request.blockCount context.doneBytes
      let offset := (geometry.blockOffset request.tag.blockId +
        BitVec.ofNat 64 context.doneBytes).toInt
      if Permits offset (iov.map Iovec.length).sum reaped.answer then
        let moved := transfer iov offset reaped.answer.count
        let context := reaped.record context
        if context.short then
          let continued := context.continue reaped.submitted
          if reaped.submitted then
            (reapLoop geometry request continued rest).map (Outcome.after · moved)
          else
            some ((request.finishContext geometry { continued with transferResult := -kEio }
              offset).after moved)
        else some ((request.finishContext geometry context offset).after moved)
      else none

end BlockRequest

/-- The backend, with what it is told beside the answers to transfers. -/
inductive Backend where
  | posix (syncOnWrite : Bool) (syncError : Option Nat) (answers : List Answer)
  | uring (syncOnWrite : Bool) (answers : List Reaped)
  deriving DecidableEq, Repr

/-- A read or write request, once its file is open, up to its completion. -/
def Backend.execute (geometry : BlockGeometry) (request : BlockRequest) : Backend → Option Outcome
  | .posix syncOnWrite syncError answers =>
      if request.operation = .read then request.executeRead geometry answers
      else request.executeWrite geometry syncOnWrite syncError answers
  | .uring syncOnWrite answers =>
      request.reapLoop geometry
        (IoUring.prepare syncOnWrite request.token.toNat request.operation
          (request.total geometry)) answers

/-! ### The buffers of a request as one row of bytes -/

section Cells

variable {blockSize blockCount done : Nat}

/-- The cell of a byte of the request. -/
def cellAt (blockSize position : Nat) : Cell := (position / blockSize, position % blockSize)

theorem cellAt_add {offset : Nat} (block : Nat) (hoffset : offset < blockSize) :
    cellAt blockSize (block * blockSize + offset) = (block, offset) := by
  have hpos : 0 < blockSize := by omega
  simp [cellAt, Nat.add_comm (block * blockSize), Nat.add_mul_div_right _ _ hpos,
    Nat.div_eq_of_lt hoffset, Nat.mod_eq_of_lt hoffset]

theorem block_cells (block skip : Nat) :
    (List.range (blockSize - skip)).map (fun index => (block, skip + index)) =
      (List.range' (block * blockSize + skip) (blockSize - skip)).map (cellAt blockSize) := by
  rw [List.range'_eq_map_range, List.map_map]
  refine List.map_congr_left fun index hindex => ?_
  have hlt : skip + index < blockSize := by
    have := List.mem_range.mp hindex
    omega
  rw [Function.comp_apply, Nat.add_assoc, cellAt_add block hlt]

theorem blocks_cells (first count : Nat) :
    (List.range' first count).flatMap (fun block =>
        (List.range blockSize).map fun index => (block, index)) =
      (List.range' (first * blockSize) (count * blockSize)).map (cellAt blockSize) := by
  induction count generalizing first with
  | zero => simp
  | succ count ih =>
      have hsplit : List.range' (first * blockSize) ((count + 1) * blockSize) =
          List.range' (first * blockSize) blockSize ++
            List.range' ((first + 1) * blockSize) (count * blockSize) := by
        rw [Nat.add_mul first, Nat.one_mul, List.range'_append_1, Nat.add_mul, Nat.one_mul,
          Nat.add_comm blockSize]
      rw [List.range'_succ, List.flatMap_cons, ih, hsplit, List.map_append]
      simpa using block_cells first 0

theorem iovecs_cells (hpos : 0 < blockSize) (hdone : done < blockCount * blockSize) :
    (iovecs blockSize blockCount done).flatMap Iovec.cells =
      (List.range' done (blockCount * blockSize - done)).map (cellAt blockSize) := by
  have hblock : done / blockSize < blockCount := (Nat.div_lt_iff_lt_mul hpos).mpr hdone
  obtain ⟨rest, hrest⟩ : ∃ rest, blockCount - done / blockSize = rest + 1 :=
    ⟨blockCount - done / blockSize - 1, by omega⟩
  have hparts := Nat.div_add_mod' done blockSize
  have hmod := Nat.mod_lt done hpos
  have htotal : blockCount * blockSize - done =
      (blockSize - done % blockSize) + rest * blockSize := by
    have hcount : blockCount = done / blockSize + (rest + 1) := by omega
    have hmul : blockCount * blockSize =
        done / blockSize * blockSize + (rest * blockSize + blockSize) := by
      rw [hcount, Nat.add_mul, Nat.add_mul, Nat.one_mul]
    omega
  have htail : (List.range' (done / blockSize + 1) rest).flatMap (fun block =>
      Iovec.cells ⟨block, if block = done / blockSize then done % blockSize else 0,
        blockSize - if block = done / blockSize then done % blockSize else 0⟩) =
      (List.range' ((done / blockSize + 1) * blockSize) (rest * blockSize)).map
        (cellAt blockSize) := by
    rw [← blocks_cells]
    refine List.flatMap_congr fun block hblock => ?_
    have hne : block ≠ done / blockSize := by
      have := (List.mem_range'_1.mp hblock).1
      omega
    simp [Iovec.cells, hne]
  have hstart : (done / blockSize + 1) * blockSize = done + (blockSize - done % blockSize) := by
    rw [Nat.add_mul, Nat.one_mul]
    omega
  rw [iovecs, hrest, List.range'_succ, List.map_cons, List.flatMap_cons, List.flatMap_map, htail,
    htotal, ← List.range'_append_1, List.map_append, hstart]
  congr 1
  simp only [Iovec.cells, if_true]
  rw [block_cells, hparts]

theorem iovecs_length (hpos : 0 < blockSize) (hdone : done < blockCount * blockSize) :
    ((iovecs blockSize blockCount done).map Iovec.length).sum = blockCount * blockSize - done := by
  have hlength := congrArg List.length (iovecs_cells hpos hdone)
  have hcells : ∀ iovec : Iovec, iovec.cells.length = iovec.length := by
    simp [Iovec.cells]
  simpa [List.length_flatMap, hcells] using hlength

theorem zeroFillReadTail_eq (hpos : 0 < blockSize) (hdone : done < blockCount * blockSize) :
    zeroFillReadTail blockSize blockCount done =
      (List.range' done (blockCount * blockSize - done)).map (cellAt blockSize) := by
  have hblock : done / blockSize < blockCount := (Nat.div_lt_iff_lt_mul hpos).mpr hdone
  have hparts := Nat.div_add_mod' done blockSize
  have hmod := Nat.mod_lt done hpos
  have hsplit : List.range blockCount = List.range' 0 (done / blockSize) ++
      List.range' (done / blockSize) (blockCount - done / blockSize) := by
    rw [List.range_eq_range', show blockCount =
      done / blockSize + (blockCount - done / blockSize) from by omega, ← List.range'_append_1]
    simp
  have hbefore : (List.range' 0 (done / blockSize)).flatMap (fun block =>
      if block * blockSize + blockSize ≤ done then []
      else (List.range (blockSize -
          if block * blockSize < done then done - block * blockSize else 0)).map fun index =>
        (block, (if block * blockSize < done then done - block * blockSize else 0) + index)) =
      ([] : List Cell) := by
    refine List.flatMap_eq_nil_iff.mpr fun block hmem => if_pos ?_
    have hlt : block + 1 ≤ done / blockSize := by
      have := (List.mem_range'_1.mp hmem).2
      omega
    have := Nat.mul_le_mul_right blockSize hlt
    rw [Nat.add_mul, Nat.one_mul] at this
    omega
  rw [← iovecs_cells hpos hdone, zeroFillReadTail, hsplit, List.flatMap_append, hbefore,
    List.nil_append, iovecs, List.flatMap_map]
  refine List.flatMap_congr fun block hmem => ?_
  have hge := (List.mem_range'_1.mp hmem).1
  by_cases hfirst : block = done / blockSize
  · subst hfirst
    have hskip : (if done / blockSize * blockSize < done then
        done - done / blockSize * blockSize else 0) = done % blockSize := by
      split <;> omega
    rw [if_neg (by omega), hskip]
    simp [Iovec.cells]
  · have hlater : (done / blockSize + 1) * blockSize ≤ block * blockSize :=
      Nat.mul_le_mul_right blockSize (by omega)
    rw [Nat.add_mul, Nat.one_mul] at hlater
    rw [if_neg (by omega), if_neg (by omega)]
    simp [Iovec.cells, hfirst]

theorem zeroFillReadTail_total :
    zeroFillReadTail blockSize blockCount (blockCount * blockSize) = [] := by
  refine List.flatMap_eq_nil_iff.mpr fun block hmem => if_pos ?_
  have := Nat.mul_le_mul_right blockSize (Nat.succ_le_of_lt (List.mem_range.mp hmem))
  rwa [Nat.succ_eq_add_one, Nat.add_mul, Nat.one_mul] at this

/-- The byte at a position of a request that starts at `base`. -/
def movedAt (blockSize : Nat) (base : Int) (position : Nat) : Moved :=
  ⟨cellAt blockSize position, base + position⟩

theorem transfer_eq (base : Int) {count : Nat} (hpos : 0 < blockSize)
    (hdone : done < blockCount * blockSize) (hcount : count ≤ blockCount * blockSize - done) :
    transfer (iovecs blockSize blockCount done) (base + done) count =
      (List.range' done count).map (movedAt blockSize base) := by
  rw [transfer, iovecs_cells hpos hdone]
  refine List.ext_getElem (by simpa using hcount) fun index hleft hright => ?_
  simp [movedAt, Int.add_assoc]

end Cells

/-! ### What a request transfers -/

namespace BlockRequest

variable (geometry : BlockGeometry) (request : BlockRequest)

/-- The file offset at which the transfers of a request start. -/
def base : Int := (geometry.blockOffset request.tag.blockId).toInt

/-- From `done` on a request has transferred its bytes in order, each to or from its own place
behind the base.  A completed one has transferred all of them, or was a read that met the end
of the file and cleared the rest of its buffers. -/
def Covers (done : Nat) (outcome : Outcome) : Prop :=
  ∃ final, done ≤ final ∧ final ≤ request.total geometry ∧
    outcome.moved = (List.range' done (final - done)).map
      (movedAt geometry.blockSize (request.base geometry)) ∧
    (done < final ∨ outcome.status = ok → 0 ≤ request.base geometry) ∧
    (outcome.status = ok → final = request.total geometry ∧ outcome.zeroed = [] ∨
      request.operation = .read ∧
        outcome.endOfFile = some (request.base geometry + final) ∧
        outcome.zeroed = (List.range' final (request.total geometry - final)).map
          (cellAt geometry.blockSize))

variable {geometry request} {done : Nat}

theorem covers_of_failed {outcome : Outcome} (hdone : done ≤ request.total geometry)
    (hmoved : outcome.moved = []) (hstatus : outcome.status ≠ ok) :
    request.Covers geometry done outcome :=
  ⟨done, le_refl _, hdone, by simp [hmoved],
    fun hor => absurd (hor.resolve_left (by omega)) hstatus, fun hok => absurd hok hstatus⟩

theorem covers_of_end {outcome : Outcome} (hbase : 0 ≤ request.base geometry)
    (hmoved : outcome.moved = []) (hzeroed : outcome.zeroed = []) :
    request.Covers geometry (request.total geometry) outcome :=
  ⟨_, le_refl _, le_refl _, by simp [hmoved], fun _ => hbase, fun _ => .inl ⟨rfl, hzeroed⟩⟩

theorem covers_of_endOfFile {outcome : Outcome} (hdone : done < request.total geometry)
    (hbase : 0 ≤ request.base geometry) (hread : request.operation = .read)
    (hmoved : outcome.moved = [])
    (hzeroed : outcome.zeroed =
      zeroFillReadTail geometry.blockSize request.blockCount done)
    (hend : outcome.endOfFile = some (request.base geometry + done)) :
    request.Covers geometry done outcome :=
  ⟨done, le_refl _, le_of_lt hdone, by simp [hmoved], fun _ => hbase, fun _ => .inr
    ⟨hread, hend, hzeroed.trans (zeroFillReadTail_eq geometry.blockSize_pos hdone)⟩⟩

theorem Covers.after {outcome : Outcome} {count : Nat} (hdone : done < request.total geometry)
    (hcount : count ≤ request.total geometry - done) (hbase : 0 ≤ request.base geometry)
    (h : request.Covers geometry (done + count) outcome) :
    request.Covers geometry done (outcome.after
      (transfer (iovecs geometry.blockSize request.blockCount done)
        (request.base geometry + done) count)) := by
  obtain ⟨final, hle, htotal, hmoved, -, hok⟩ := h
  refine ⟨final, by omega, htotal, ?_, fun _ => hbase, hok⟩
  have hsplit : List.range' done (final - done) =
      List.range' done count ++ List.range' (done + count) (final - (done + count)) := by
    rw [List.range'_append_1]
    congr 1
    omega
  rw [Outcome.after, transfer_eq _ geometry.blockSize_pos hdone hcount, hmoved, hsplit,
    List.map_append]

theorem transferLoop_covers {failure : String} {atZero : Nat → Outcome} {atEnd : Outcome}
    (hzero : ∀ done < request.total geometry, 0 ≤ request.base geometry →
      request.Covers geometry done (atZero done))
    (hend : 0 ≤ request.base geometry →
      request.Covers geometry (request.total geometry) atEnd)
    (htotal : 0 < request.total geometry) {answers : List Answer} {outcome : Outcome}
    (hdone : done ≤ request.total geometry) (hbase : 0 < done → 0 ≤ request.base geometry)
    (h : request.transferLoop geometry failure atZero atEnd done answers = some outcome) :
    request.Covers geometry done outcome := by
  have hfinished : ¬done < request.total geometry → request.Covers geometry done atEnd := by
    intro hnot
    have heq : done = request.total geometry := by omega
    subst heq
    exact hend (hbase htotal)
  induction answers generalizing done outcome with
  | nil =>
      rw [transferLoop] at h
      split at h
      · cases h
      · rename_i hnot
        cases h
        exact hfinished hnot
  | cons answer answers ih =>
      rw [transferLoop] at h
      split at h
      · rename_i hlt
        dsimp only at h
        split at h
        · rename_i hpermits
          rw [iovecs_length geometry.blockSize_pos hlt] at hpermits
          -- A call that transfers bytes shows that the base is not negative.
          have hsign : ∀ count, answer = .moved count → 0 ≤ request.base geometry := by
            rintro count rfl
            rcases Nat.eq_zero_or_pos done with rfl | hpos
            · simpa [base] using hpermits.1
            · exact hbase hpos
          split at h
          · exact ih hdone hbase h hfinished
          · cases h
            exact covers_of_failed hdone rfl nofun
          · cases h
            exact hzero done hlt (hsign 0 rfl)
          · rename_i count _
            obtain ⟨rest, hrest, rfl⟩ := Option.map_eq_some_iff.mp h
            have hcount := hpermits.2.1
            have hle : done + count ≤ request.total geometry := by
              unfold total at hlt ⊢
              omega
            refine Covers.after hlt hcount (hsign count rfl) (ih hle ?_ hrest ?_)
            · exact fun _ => hsign count rfl
            · intro hnot
              have heq : done + count = request.total geometry := by omega
              rw [heq]
              exact hend (hsign count rfl)
        · cases h
      · rename_i hnot
        cases h
        exact hfinished hnot

theorem executeRead_covers (hread : request.operation = .read)
    (htotal : 0 < request.total geometry) {answers : List Answer} {outcome : Outcome}
    (h : request.executeRead geometry answers = some outcome) :
    request.Covers geometry 0 outcome := by
  refine transferLoop_covers ?_ ?_ htotal (Nat.zero_le _) (fun hlt => absurd hlt (by simp)) h
  · intro done hlt hbase
    exact covers_of_endOfFile hlt hbase hread rfl rfl rfl
  · intro hbase
    exact covers_of_end hbase rfl rfl

theorem executeWrite_covers {syncOnWrite : Bool} {syncError : Option Nat}
    (htotal : 0 < request.total geometry) {answers : List Answer} {outcome : Outcome}
    (h : request.executeWrite geometry syncOnWrite syncError answers = some outcome) :
    request.Covers geometry 0 outcome := by
  refine transferLoop_covers ?_ ?_ htotal (Nat.zero_le _) (fun hlt => absurd hlt (by simp)) h
  · intro done hlt _
    exact covers_of_failed (le_of_lt hlt) rfl nofun
  · intro hbase
    exact covers_of_end hbase rfl rfl

theorem continued_offset
    (h : done = 0 ∨ 0 ≤ request.base geometry ∧ request.base geometry + done < 2 ^ 63) :
    (geometry.blockOffset request.tag.blockId + BitVec.ofNat 64 done).toInt =
      request.base geometry + done := by
  rcases h with rfl | ⟨hbase, hbound⟩
  · simp [base]
  · unfold base at hbase hbound ⊢
    rw [BitVec.toInt_add, BitVec.toInt_ofNat', Int.add_bmod_bmod]
    exact Int.bmod_eq_of_le (by omega) (by omega)

theorem status_ne_ok {context : RequestContext} (hop : context.operation ≠ .sync)
    (hresult : context.transferResult < 0) : context.status ≠ ok := by
  simp [RequestContext.status, hop, hresult, IoUring.ioError, ok]

@[simp] theorem finishContext_moved (context : RequestContext) (offset : Int) :
    (request.finishContext geometry context offset).moved = [] := by
  unfold finishContext
  split <;> rfl

@[simp] theorem finishContext_status (context : RequestContext) (offset : Int) :
    (request.finishContext geometry context offset).status = context.status := by
  unfold finishContext
  split <;> rfl

theorem finishContext_covers (context : RequestContext) {count : Nat} {offset : Int}
    (hop : request.operation = .read ∨ request.operation = .write)
    (hcontext : context.operation = request.operation)
    (htotal : context.totalBytes = request.total geometry)
    (hdone : context.doneBytes < request.total geometry)
    (hoffset : offset = request.base geometry + context.doneBytes)
    (hbase : 0 ≤ request.base geometry) (hresult : context.transferResult = count)
    (hcount : count = 0 ∨ count = request.total geometry - context.doneBytes) :
    request.Covers geometry context.doneBytes
      ((request.finishContext geometry context offset).after (transfer
        (iovecs geometry.blockSize request.blockCount context.doneBytes) offset count)) := by
  have hend : count = request.total geometry - context.doneBytes →
      (request.finishContext geometry context offset).zeroed = [] →
      request.Covers geometry context.doneBytes
        ((request.finishContext geometry context offset).after (transfer
          (iovecs geometry.blockSize request.blockCount context.doneBytes) offset count)) := by
    intro hfull hzeroed
    rw [hoffset] at hzeroed ⊢
    refine Covers.after hdone (by omega) hbase ?_
    rw [show context.doneBytes + count = request.total geometry from by omega]
    exact covers_of_end hbase (finishContext_moved _ _) hzeroed
  have hzero : (transfer (iovecs geometry.blockSize request.blockCount context.doneBytes)
      offset 0) = [] := by
    simp [transfer]
  rcases hop with hread | hwrite
  · rcases hcount with rfl | hfull
    · rw [hzero]
      refine covers_of_endOfFile hdone hbase hread ?_ ?_ ?_
      · simp [Outcome.after]
      · simp [Outcome.after, finishContext, hread, hresult]
      · simp [Outcome.after, finishContext, hread, hresult, hoffset]
    · refine hend hfull ?_
      have hsum : context.doneBytes + count = request.blockCount * geometry.blockSize := by
        unfold total at hfull hdone
        omega
      simp [finishContext, hread, hresult, hsum, zeroFillReadTail_total]
  · have hcleared : (request.finishContext geometry context offset).zeroed = [] := by
      simp [finishContext, hwrite]
    rcases hcount with rfl | hfull
    · rw [hzero]
      refine covers_of_failed (le_of_lt hdone) (by simp [Outcome.after]) ?_
      have hpartial : context.doneBytes ≠ request.total geometry := by omega
      simp [Outcome.after, RequestContext.status, hcontext, hwrite, hresult, htotal, hpartial,
        IoUring.ioError, ok]
    · exact hend hfull hcleared

theorem reapLoop_covers (hop : request.operation = .read ∨ request.operation = .write)
    {context : RequestContext} {reaped : List Reaped} {outcome : Outcome}
    (hcontext : context.operation = request.operation)
    (htotal : context.totalBytes = request.total geometry)
    (hdone : context.doneBytes < request.total geometry)
    (hoffset : context.doneBytes = 0 ∨
      0 ≤ request.base geometry ∧ request.base geometry + context.doneBytes < 2 ^ 63)
    (h : request.reapLoop geometry context reaped = some outcome) :
    request.Covers geometry context.doneBytes outcome := by
  have hsync : request.operation ≠ .sync := by
    rcases hop with hop | hop <;> simp [hop]
  induction reaped generalizing context outcome with
  | nil => cases h
  | cons reaped rest ih =>
      rw [reapLoop] at h
      dsimp only at h
      rw [continued_offset hoffset, iovecs_length geometry.blockSize_pos hdone] at h
      split at h
      · rename_i hpermits
        have hrecorded : (reaped.record context).operation ≠ .sync := by
          simpa [Reaped.record, hcontext] using hsync
        -- An error is not a short transfer, and no bytes were moved.
        have hfailed : reaped.answer.result < 0 → reaped.answer.count = 0 →
            request.Covers geometry context.doneBytes outcome := by
          intro hnegative hnone
          have hshort : (reaped.record context).short = false := by
            simp [RequestContext.short, Reaped.record, not_lt.mpr hnegative.le]
          rw [hshort, hnone] at h
          cases h
          refine covers_of_failed (le_of_lt hdone) ?_ ?_
          · simp [Outcome.after, transfer]
          · simpa [Outcome.after] using status_ne_ok hrecorded hnegative
        cases hanswer : reaped.answer with
        | moved count =>
            rw [hanswer] at h hpermits
            simp only [Answer.count] at h
            obtain ⟨hsign, hmany, hbound⟩ := hpermits
            have hcount : count ≤ request.total geometry - context.doneBytes := hmany
            have hresult : (reaped.record context).transferResult = count := by
              simp [Reaped.record, hanswer, Answer.result]
            have hbase : 0 ≤ request.base geometry := by
              rcases hoffset with hzero | ⟨hbase, -⟩
              · simpa [hzero] using hsign
              · exact hbase
            have hshort : (reaped.record context).short = true ↔
                0 < count ∧ count < request.total geometry - context.doneBytes := by
              simp only [RequestContext.short, hresult, decide_eq_true_eq]
              simp [Reaped.record, htotal]
            by_cases hless : (reaped.record context).short = true
            · have hcontinued : ∀ submitted,
                  ((reaped.record context).continue submitted).doneBytes =
                    context.doneBytes + count := by
                intro submitted
                rw [RequestContext.continue, hresult]
                rfl
              have hlater := (hshort.mp hless).2
              rw [if_pos hless] at h
              split at h
              · obtain ⟨tail, htail, rfl⟩ := Option.map_eq_some_iff.mp h
                refine Covers.after hdone hcount hbase ?_
                rw [← hcontinued reaped.submitted]
                refine ih hcontext htotal ?_ (.inr ⟨hbase, ?_⟩) htail
                · rw [hcontinued]
                  omega
                · rw [hcontinued]
                  push_cast
                  omega
              · cases h
                refine Covers.after hdone hcount hbase (covers_of_failed (by omega) ?_ ?_)
                · exact finishContext_moved _ _
                · rw [finishContext_status]
                  exact status_ne_ok hrecorded (show -kEio < 0 by decide)
            · rw [if_neg hless] at h
              cases h
              refine finishContext_covers (reaped.record context) hop hcontext htotal hdone rfl
                hbase hresult ?_
              rw [hshort] at hless
              change count = 0 ∨ count = request.total geometry - context.doneBytes
              omega
        | interrupted =>
            exact hfailed (by simp [hanswer, Answer.result, kEintr]) (by rw [hanswer]; rfl)
        | failed errno =>
            rw [hanswer] at hpermits
            have hpositive : 0 < errno := hpermits
            exact hfailed (by simpa [hanswer, Answer.result] using hpositive) (by rw [hanswer]; rfl)
      · cases h

end BlockRequest

/-! ### Blocks do not alias -/

variable {geometry : BlockGeometry} {request : BlockRequest}

theorem Backend.execute_covers {backend : Backend} {outcome : Outcome}
    (hop : request.operation = .read ∨ request.operation = .write)
    (hcount : 0 < request.blockCount) (h : backend.execute geometry request = some outcome) :
    request.Covers geometry 0 outcome := by
  have htotal : 0 < request.total geometry := Nat.mul_pos hcount geometry.blockSize_pos
  cases backend with
  | posix syncOnWrite syncError answers =>
      rw [Backend.execute] at h
      split at h
      · rename_i hread
        exact BlockRequest.executeRead_covers hread htotal h
      · exact BlockRequest.executeWrite_covers htotal h
  | uring syncOnWrite answers =>
      have hsync : request.operation ≠ .sync := by
        rcases hop with hop | hop <;> simp [hop]
      refine BlockRequest.reapLoop_covers hop rfl ?_ htotal (.inl rfl) h
      simp [IoUring.prepare, hsync]

/-- The bytes of the request lie at `[block * blockSize, (block + count) * blockSize)`.  The
transferred ones are the first of them, in order; a completed request has transferred them all,
or was a read that met the end of the file and cleared the rest of its buffers. -/
def Exact (geometry : BlockGeometry) (request : BlockRequest) (outcome : Outcome) : Prop :=
  ∃ done ≤ request.blockCount * geometry.blockSize,
    outcome.moved = (List.range done).map (fun position =>
      ⟨cellAt geometry.blockSize position,
        (request.tag.blockId.toNat * geometry.blockSize + position : Nat)⟩) ∧
    (outcome.status = ok →
      done = request.blockCount * geometry.blockSize ∧ outcome.zeroed = [] ∨
      request.operation = .read ∧
        outcome.endOfFile =
          some (request.tag.blockId.toNat * geometry.blockSize + done : Nat) ∧
        outcome.zeroed =
          (List.range' done (request.blockCount * geometry.blockSize - done)).map
            (cellAt geometry.blockSize))

theorem BlockRequest.base_eq (hunaliased : geometry.Unaliased request.tag.blockId)
    (hbase : 0 ≤ request.base geometry) :
    request.base geometry = (request.tag.blockId.toNat * geometry.blockSize : Nat) := by
  unfold BlockRequest.base at hbase ⊢
  rcases hunaliased with hfits | hnegative
  · rw [← geometry.blockOffset_toNat hfits]
    rw [BitVec.toInt_eq_toNat_cond] at hbase ⊢
    split at hbase <;> omega
  · rw [BitVec.msb_eq_toInt, decide_eq_true_eq] at hnegative
    omega

theorem exact_of_covers {outcome : Outcome} (hunaliased : geometry.Unaliased request.tag.blockId)
    (h : request.Covers geometry 0 outcome) : Exact geometry request outcome := by
  obtain ⟨final, -, hle, hmoved, hbase, hok⟩ := h
  refine ⟨final, hle, ?_, ?_⟩
  · rw [hmoved, Nat.sub_zero, ← List.range_eq_range']
    refine List.map_congr_left fun position hposition => ?_
    have hpos : 0 < final := lt_of_le_of_lt (Nat.zero_le _) (List.mem_range.mp hposition)
    rw [movedAt, request.base_eq hunaliased (hbase (.inl hpos)), Nat.cast_add]
  · intro hstatus
    rw [request.base_eq hunaliased (hbase (.inr hstatus)), ← Nat.cast_add] at hok
    exact hok hstatus

theorem Exact.offset_mem {outcome : Outcome} (h : Exact geometry request outcome) {moved : Moved}
    (hmem : moved ∈ outcome.moved) :
    ∃ block index : Nat, block < request.blockCount ∧ index < geometry.blockSize ∧
      moved.offset = ((request.tag.blockId.toNat + block) * geometry.blockSize + index : Nat) := by
  obtain ⟨done, hle, hmoved, -⟩ := h
  rw [hmoved] at hmem
  obtain ⟨position, hposition, rfl⟩ := List.mem_map.mp hmem
  have hlt : position < request.blockCount * geometry.blockSize :=
    lt_of_lt_of_le (List.mem_range.mp hposition) hle
  refine ⟨position / geometry.blockSize, position % geometry.blockSize,
    (Nat.div_lt_iff_lt_mul geometry.blockSize_pos).mpr hlt,
    Nat.mod_lt _ geometry.blockSize_pos, ?_⟩
  rw [Nat.add_mul, Nat.add_assoc, Nat.div_add_mod']

def BlockRequest.Apart (request other : BlockRequest) : Prop :=
  request.tag.blockId.toNat + request.blockCount ≤ other.tag.blockId.toNat ∨
    other.tag.blockId.toNat + other.blockCount ≤ request.tag.blockId.toNat

theorem Exact.offsets_ne {other : BlockRequest} {outcome outcome' : Outcome}
    (h : Exact geometry request outcome) (h' : Exact geometry other outcome')
    (hapart : request.Apart other) {moved moved' : Moved} (hmem : moved ∈ outcome.moved)
    (hmem' : moved' ∈ outcome'.moved) : moved.offset ≠ moved'.offset := by
  obtain ⟨block, index, hblock, hindex, hoffset⟩ := h.offset_mem hmem
  obtain ⟨block', index', hblock', hindex', hoffset'⟩ := h'.offset_mem hmem'
  rw [hoffset, hoffset']
  intro hsame
  have hdiv : ∀ number offset, offset < geometry.blockSize →
      (number * geometry.blockSize + offset) / geometry.blockSize = number := by
    intro number offset hlt
    rw [Nat.add_comm, Nat.add_mul_div_right _ _ geometry.blockSize_pos, Nat.div_eq_of_lt hlt,
      Nat.zero_add]
  have hblocks := congrArg (· / geometry.blockSize) (Int.ofNat.inj hsame)
  simp only [hdiv _ _ hindex, hdiv _ _ hindex'] at hblocks
  unfold BlockRequest.Apart at hapart
  omega

theorem valid_blockCount (hsync : request.operation ≠ .sync)
    (hvalid : validateDiskRequest request.toDiskRequest kMaxDiskRequestBlocks = ok) :
    0 < request.blockCount := by
  by_contra hzero
  have hnone : request.blockCount = 0 := by omega
  simp [validateDiskRequest, hsync, hnone, ok] at hvalid

theorem read_or_write (hsync : request.operation ≠ .sync) :
    request.operation = .read ∨ request.operation = .write := by
  cases hop : request.operation with
  | read => exact .inl rfl
  | write => exact .inr rfl
  | sync => exact absurd hop hsync

def readOf (blockId : BlockId) : BlockRequest :=
  { token := 0, operation := .read, blockCount := 1, buffers := [some 0], tag := ⟨0, blockId⟩ }

theorem base_of_aliased {blockId : BlockId} (haliased : ¬geometry.Unaliased blockId) :
    0 ≤ (readOf blockId).base geometry ∧ (readOf blockId).base geometry + 1 < 2 ^ 63 ∧
      (readOf blockId).base geometry ≠ (blockId.toNat * geometry.blockSize : Nat) := by
  obtain ⟨hfits, hmsb⟩ := not_or.mp haliased
  have hshift := geometry.bounded
  have hoffset : (geometry.blockOffset blockId).toNat =
      blockId.toNat * geometry.blockSize % 2 ^ 64 := by
    rw [BlockGeometry.blockOffset, BitVec.toNat_shiftLeft, Nat.shiftLeft_eq,
      geometry.blockSize_eq]
  have heven : geometry.blockSize = 2 * 2 ^ (geometry.blockShift - 1) := by
    rw [geometry.blockSize_eq, ← Nat.pow_succ']
    congr 1
    omega
  have hlow : blockId.toNat * geometry.blockSize < 2 ^ 64 → geometry.Fits blockId := by
    intro hlt
    refine Nat.lt_of_mul_lt_mul_right (a := geometry.blockSize) ?_
    rwa [geometry.blockSize_eq, ← Nat.pow_add, Nat.sub_add_cancel (by omega),
      ← geometry.blockSize_eq]
  have hbase : (readOf blockId).base geometry = (geometry.blockOffset blockId).toNat :=
    BitVec.toInt_eq_toNat_of_msb (Bool.not_eq_true _ ▸ hmsb)
  have htop := BitVec.toNat_lt_of_msb_false (Bool.not_eq_true _ ▸ hmsb)
  rw [hbase, hoffset]
  rw [hoffset] at htop
  refine ⟨by omega, ?_, fun hsame => hfits (hlow ?_)⟩
  · rw [heven, ← Nat.mul_left_comm] at htop ⊢
    omega
  · omega

/-- A byte read and then the end of the file. -/
theorem readOf_execute {blockId : BlockId} (haliased : ¬geometry.Unaliased blockId) :
    ∃ outcome, Backend.execute geometry (readOf blockId) (.posix false none [.moved 1, .moved 0]) =
        some outcome ∧ outcome.status = ok ∧
      outcome.moved = [movedAt geometry.blockSize ((readOf blockId).base geometry) 0] := by
  obtain ⟨hbase, hbound, -⟩ := base_of_aliased haliased
  have hsize : 1 < geometry.blockSize := by
    rw [geometry.blockSize_eq]
    exact Nat.one_lt_two_pow (by have := geometry.bounded; omega)
  have htotal : (readOf blockId).total geometry = geometry.blockSize := Nat.one_mul _
  have hfirst : 0 < (readOf blockId).total geometry := by omega
  have hsecond : 0 + 1 < (readOf blockId).total geometry := by omega
  have hmove : Permits ((readOf blockId).base geometry + (0 : Nat))
      ((iovecs geometry.blockSize (readOf blockId).blockCount 0).map Iovec.length).sum
      (.moved 1) := by
    rw [iovecs_length geometry.blockSize_pos hfirst]
    exact ⟨by omega, Nat.succ_le_of_lt hfirst, by omega⟩
  have hstop : Permits ((readOf blockId).base geometry + (0 + 1 : Nat))
      ((iovecs geometry.blockSize (readOf blockId).blockCount (0 + 1)).map Iovec.length).sum
      (.moved 0) :=
    ⟨by omega, Nat.zero_le _, by omega⟩
  have hread : (readOf blockId).operation = .read := rfl
  rw [BlockRequest.base] at hmove hstop
  rw [Backend.execute, if_pos hread, BlockRequest.executeRead, BlockRequest.transferLoop,
    if_pos hfirst]
  dsimp only
  rw [if_pos hmove]
  change ∃ outcome, ((readOf blockId).transferLoop geometry _ _ _ (0 + 1) [.moved 0]).map _ = _ ∧ _
  rw [BlockRequest.transferLoop, if_pos hsecond]
  dsimp only
  rw [if_pos hstop]
  exact ⟨_, rfl, rfl, (List.append_nil _).trans
    (transfer_eq _ geometry.blockSize_pos hfirst (Nat.succ_le_of_lt hfirst))⟩

/-- For block numbers that the shift leaves whole, or turns into an offset below zero, a valid
request transfers exactly its bytes or completes with an error, and requests without a common
block touch no common byte.  Every other block number has a valid request that succeeds after
it has transferred another byte than its own. -/
theorem blocks_never_alias (geometry : BlockGeometry) :
    (∀ (request other : BlockRequest) (backend backend' : Backend) (outcome outcome' : Outcome),
      request.operation ≠ .sync → other.operation ≠ .sync →
      validateDiskRequest request.toDiskRequest kMaxDiskRequestBlocks = ok →
      validateDiskRequest other.toDiskRequest kMaxDiskRequestBlocks = ok →
      geometry.Unaliased request.tag.blockId → geometry.Unaliased other.tag.blockId →
      backend.execute geometry request = some outcome →
      backend'.execute geometry other = some outcome' →
      Exact geometry request outcome ∧
        (request.Apart other → ∀ moved ∈ outcome.moved, ∀ moved' ∈ outcome'.moved,
          moved.offset ≠ moved'.offset)) ∧
    ∀ blockId, ¬geometry.Unaliased blockId →
      ∃ (request : BlockRequest) (backend : Backend) (outcome : Outcome),
        request.tag.blockId = blockId ∧ request.operation ≠ .sync ∧
        validateDiskRequest request.toDiskRequest kMaxDiskRequestBlocks = ok ∧
        backend.execute geometry request = some outcome ∧ outcome.status = ok ∧
        ∃ moved ∈ outcome.moved, moved.cell = (0, 0) ∧
          moved.offset ≠ (blockId.toNat * geometry.blockSize : Nat) := by
  constructor
  · intro request other backend backend' outcome outcome' hsync hsync' hvalid hvalid' hwhole
      hwhole' hrun hrun'
    have hexact := exact_of_covers hwhole (Backend.execute_covers (read_or_write hsync)
      (valid_blockCount hsync hvalid) hrun)
    have hexact' := exact_of_covers hwhole' (Backend.execute_covers (read_or_write hsync')
      (valid_blockCount hsync' hvalid') hrun')
    exact ⟨hexact, fun hapart _ hmem _ hmem' => hexact.offsets_ne hexact' hapart hmem hmem'⟩
  · intro blockId haliased
    obtain ⟨outcome, hrun, hok, hmoved⟩ := readOf_execute haliased
    have hvalid : validateDiskRequest (readOf blockId).toDiskRequest kMaxDiskRequestBlocks = ok :=
      rfl
    refine ⟨readOf blockId, _, outcome, rfl, by simp [readOf], hvalid, hrun, hok, _,
      by rw [hmoved]; exact List.mem_singleton_self _, ?_, ?_⟩
    · simp [movedAt, cellAt]
    · simpa [movedAt] using (base_of_aliased haliased).2.2

def geometry4K : BlockGeometry := ⟨12, by decide⟩

def writeOf (blockId : BlockId) : BlockRequest :=
  { token := 0, operation := .write, blockCount := 1, buffers := [some 0], tag := ⟨0, blockId⟩ }

/-- A write that is short, interrupted and continued, and a write of the block before it. -/
theorem blocks_never_alias_neighbours :
    ∃ outcome outcome', Backend.execute geometry4K (writeOf 1)
          (.posix false none [.moved 1000, .interrupted, .moved 3096]) = some outcome ∧
        Backend.execute geometry4K (writeOf 0) (.uring false [⟨.moved 4096, 0, true⟩]) =
          some outcome' ∧
        Exact geometry4K (writeOf 1) outcome ∧
        ∀ moved ∈ outcome.moved, ∀ moved' ∈ outcome'.moved, moved.offset ≠ moved'.offset := by
  have hfirst : (Backend.execute geometry4K (writeOf 1)
      (.posix false none [.moved 1000, .interrupted, .moved 3096])).isSome = true := by
    decide +kernel
  have hsecond : (Backend.execute geometry4K (writeOf 0)
      (.uring false [⟨.moved 4096, 0, true⟩])).isSome = true := by
    decide +kernel
  obtain ⟨outcome, hrun⟩ := Option.isSome_iff_exists.mp hfirst
  obtain ⟨outcome', hrun'⟩ := Option.isSome_iff_exists.mp hsecond
  obtain ⟨hexact, hapart⟩ := (blocks_never_alias geometry4K).1 (writeOf 1) (writeOf 0) _ _ outcome
    outcome' (by decide) (by decide) (by decide) (by decide) (by decide) (by decide) hrun hrun'
  exact ⟨outcome, outcome', hrun, hrun', hexact, hapart (.inr (by decide))⟩

theorem moved_of_write {backend : Backend} {outcome : Outcome} (hwrite : request.operation = .write)
    (hcount : 0 < request.blockCount) (hrun : backend.execute geometry request = some outcome)
    (hok : outcome.status = ok) :
    outcome.moved = (List.range (request.total geometry)).map
      (movedAt geometry.blockSize (request.base geometry)) := by
  obtain ⟨final, -, -, hmoved, -, hend⟩ := Backend.execute_covers (.inr hwrite) hcount hrun
  rcases hend hok with ⟨rfl, -⟩ | ⟨hread, -⟩
  · rw [hmoved, Nat.sub_zero, List.range_eq_range']
  · exact nomatch hread.symm.trans hwrite

/-- Block `2 ^ 52` of a file with 4 KiB blocks is written over block zero, by both backends. -/
theorem block_aliases_block_zero :
    validateDiskRequest (writeOf 0x10000000000000#64).toDiskRequest kMaxDiskRequestBlocks = ok ∧
      validateDiskRequest (writeOf 0#64).toDiskRequest kMaxDiskRequestBlocks = ok ∧
      (writeOf 0#64).Apart (writeOf 0x10000000000000#64) ∧
      ∀ backend ∈ [Backend.posix false none [.moved 4096], .uring false [⟨.moved 4096, 0, true⟩]],
        ∃ outcome outcome',
          backend.execute geometry4K (writeOf 0x10000000000000#64) = some outcome ∧
          backend.execute geometry4K (writeOf 0#64) = some outcome' ∧
          outcome.status = ok ∧ outcome'.status = ok ∧
          outcome.moved = outcome'.moved ∧ ∃ moved ∈ outcome.moved, moved.offset = 0 := by
  refine ⟨by decide, by decide, .inl (by decide), fun backend hbackend => ?_⟩
  have hseen : (backend.execute geometry4K (writeOf 0x10000000000000#64)).map Outcome.status =
      some ok ∧ (backend.execute geometry4K (writeOf 0#64)).map Outcome.status = some ok := by
    revert backend
    decide +kernel
  obtain ⟨outcome, hrun, hok⟩ := Option.map_eq_some_iff.mp hseen.1
  obtain ⟨outcome', hrun', hok'⟩ := Option.map_eq_some_iff.mp hseen.2
  have hmoved := moved_of_write rfl (by decide) hrun hok
  have hmoved' := moved_of_write rfl (by decide) hrun' hok'
  have hbase : (writeOf 0x10000000000000#64).base geometry4K = 0 := by decide
  have hbase' : (writeOf 0#64).base geometry4K = 0 := by decide
  rw [hbase] at hmoved
  rw [hbase'] at hmoved'
  refine ⟨outcome, outcome', hrun, hrun', hok, hok', hmoved.trans hmoved'.symm, ?_⟩
  exact ⟨movedAt geometry4K.blockSize 0 0,
    by rw [hmoved]; exact List.mem_map_of_mem (List.mem_range.mpr (by decide)), by decide⟩

end TelePath.BlockTransfer
