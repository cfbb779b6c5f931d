import TelePath.Buffer.FrameControl
import TelePath.Logic.Machine
import TelePath.Logic.ByteFormat

/-!
The bytes of the observation area, as `observation_format.h` and `Open` of
`observation_publisher.cc` lay them out.
-/

namespace TelePath.Observation

def kObservationProcessCapacity : Nat := 64

inductive Counter where
  | bufferHits
  | bufferMisses
  | diskReads
  | diskWrites
  | evictions
  | dirtyFlushes
  | flushTasksScheduled
  | flushTasksCompleted
  | flushFailures
  | cleanerFlushesScheduled
  | cleanerFlushesFinished
  | cleanerFlushesSkipped
  | evictionFailures
  deriving DecidableEq, Repr

inductive SummaryField where
  | freeFrames
  | loadingFrames
  | residentFrames
  | dirtyFrames
  | pinnedFrames
  | writebackQueuedFrames
  | writebackActiveFrames
  | dirtyPageCount
  deriving DecidableEq, Repr

end TelePath.Observation

namespace TelePath.ObservationFormat

open Logic
open Observation (Counter SummaryField kObservationProcessCapacity)

def kObservationMagic : BitVec 32 := 0x424F5054
def kObservationVersion : BitVec 16 := 1

/-- The bits of `flags` in a frame record. -/
def kFrameDirty : BitVec 8 := 1 <<< 0
def kFrameWritebackQueued : BitVec 8 := 1 <<< 1
def kFrameWritebackActive : BitVec 8 := 1 <<< 2

/-- The values of `state` in a frame record. -/
def kFrameFree : BitVec 8 := 0
def kFrameLoading : BitVec 8 := 1
def kFrameResident : BitVec 8 := 2

def uint8 (value : BitVec 8) : Member := .integer 1 value.toNat
def uint16 (value : BitVec 16) : Member := .integer 2 value.toNat
def uint32 (value : BitVec 32) : Member := .integer 4 value.toNat
def uint64 (value : BitVec 64) : Member := .integer 8 value.toNat

/-- An array of `uint8_t`. -/
def reserved {size : Nat} (bytes : Vector Byte size) : Member := ⟨1, bytes.toList⟩

/-- A member that is a record itself. -/
def nested (members : List Member) : Member := ⟨recordAlignment members, recordBytes members⟩

structure ObservationSummary where
  freeFrames : BitVec 64 := 0
  loadingFrames : BitVec 64 := 0
  residentFrames : BitVec 64 := 0
  dirtyFrames : BitVec 64 := 0
  pinnedFrames : BitVec 64 := 0
  writebackQueuedFrames : BitVec 64 := 0
  writebackActiveFrames : BitVec 64 := 0
  dirtyPageCount : BitVec 64 := 0
  deriving DecidableEq

def ObservationSummary.members (summary : ObservationSummary) : List Member :=
  [uint64 summary.freeFrames, uint64 summary.loadingFrames, uint64 summary.residentFrames,
    uint64 summary.dirtyFrames, uint64 summary.pinnedFrames,
    uint64 summary.writebackQueuedFrames, uint64 summary.writebackActiveFrames,
    uint64 summary.dirtyPageCount]

/-- The field with the name. -/
def ObservationSummary.get (summary : ObservationSummary) : SummaryField → BitVec 64
  | .freeFrames => summary.freeFrames
  | .loadingFrames => summary.loadingFrames
  | .residentFrames => summary.residentFrames
  | .dirtyFrames => summary.dirtyFrames
  | .pinnedFrames => summary.pinnedFrames
  | .writebackQueuedFrames => summary.writebackQueuedFrames
  | .writebackActiveFrames => summary.writebackActiveFrames
  | .dirtyPageCount => summary.dirtyPageCount

structure ObservationHeader where
  magic : BitVec 32 := 0
  version : BitVec 16 := 0
  headerBytes : BitVec 16 := 0
  sequence : BitVec 64 := 0
  publishedUnixMs : BitVec 64 := 0
  publisherPid : BitVec 32 := 0
  frameRecordBytes : BitVec 32 := 0
  poolSize : BitVec 64 := 0
  pageSize : BitVec 64 := 0
  framesOffset : BitVec 64 := 0
  processesOffset : BitVec 64 := 0
  processRecordBytes : BitVec 32 := 0
  processCapacity : BitVec 32 := 0
  crossProcess : BitVec 8 := 0
  reserved0 : Vector Byte 7 := .replicate 7 0
  summary : ObservationSummary := {}
  minRecLsn : BitVec 64 := 0
  reserved1 : Vector Byte 104 := .replicate 104 0
  deriving DecidableEq

def ObservationHeader.members (header : ObservationHeader) : List Member :=
  [uint32 header.magic, uint16 header.version, uint16 header.headerBytes, uint64 header.sequence,
    uint64 header.publishedUnixMs, uint32 header.publisherPid, uint32 header.frameRecordBytes,
    uint64 header.poolSize, uint64 header.pageSize, uint64 header.framesOffset,
    uint64 header.processesOffset, uint32 header.processRecordBytes,
    uint32 header.processCapacity, uint8 header.crossProcess, reserved header.reserved0,
    nested header.summary.members, uint64 header.minRecLsn, reserved header.reserved1]

structure ObservationProcessRecord where
  pid : BitVec 32 := 0
  reserved0 : BitVec 32 := 0
  sequence : BitVec 64 := 0
  updatedUnixMs : BitVec 64 := 0
  bufferHits : BitVec 64 := 0
  bufferMisses : BitVec 64 := 0
  diskReads : BitVec 64 := 0
  diskWrites : BitVec 64 := 0
  evictions : BitVec 64 := 0
  dirtyFlushes : BitVec 64 := 0
  flushTasksScheduled : BitVec 64 := 0
  flushTasksCompleted : BitVec 64 := 0
  flushFailures : BitVec 64 := 0
  cleanerFlushesScheduled : BitVec 64 := 0
  cleanerFlushesFinished : BitVec 64 := 0
  cleanerFlushesSkipped : BitVec 64 := 0
  evictionFailures : BitVec 64 := 0
  deriving DecidableEq

def ObservationProcessRecord.members (record : ObservationProcessRecord) : List Member :=
  [uint32 record.pid, uint32 record.reserved0, uint64 record.sequence,
    uint64 record.updatedUnixMs, uint64 record.bufferHits, uint64 record.bufferMisses,
    uint64 record.diskReads, uint64 record.diskWrites, uint64 record.evictions,
    uint64 record.dirtyFlushes, uint64 record.flushTasksScheduled,
    uint64 record.flushTasksCompleted, uint64 record.flushFailures,
    uint64 record.cleanerFlushesScheduled, uint64 record.cleanerFlushesFinished,
    uint64 record.cleanerFlushesSkipped, uint64 record.evictionFailures]

/-- The counter with the name. -/
def ObservationProcessRecord.get (record : ObservationProcessRecord) : Counter → BitVec 64
  | .bufferHits => record.bufferHits
  | .bufferMisses => record.bufferMisses
  | .diskReads => record.diskReads
  | .diskWrites => record.diskWrites
  | .evictions => record.evictions
  | .dirtyFlushes => record.dirtyFlushes
  | .flushTasksScheduled => record.flushTasksScheduled
  | .flushTasksCompleted => record.flushTasksCompleted
  | .flushFailures => record.flushFailures
  | .cleanerFlushesScheduled => record.cleanerFlushesScheduled
  | .cleanerFlushesFinished => record.cleanerFlushesFinished
  | .cleanerFlushesSkipped => record.cleanerFlushesSkipped
  | .evictionFailures => record.evictionFailures

structure ObservationFrameRecord where
  frameId : BitVec 32 := 0
  state : BitVec 8 := 0
  flags : BitVec 8 := 0
  pins : BitVec 16 := 0
  fileId : BitVec 32 := 0
  namespaceId : BitVec 32 := 0
  blockId : BitVec 64 := 0
  version : BitVec 64 := 0
  deriving DecidableEq

def ObservationFrameRecord.members (record : ObservationFrameRecord) : List Member :=
  [uint32 record.frameId, uint8 record.state, uint8 record.flags, uint16 record.pins,
    uint32 record.fileId, uint32 record.namespaceId, uint64 record.blockId, uint64 record.version]

def ObservationHeader.bytes (header : ObservationHeader) : List Byte := recordBytes header.members

def ObservationProcessRecord.bytes (record : ObservationProcessRecord) : List Byte :=
  recordBytes record.members

def ObservationFrameRecord.bytes (record : ObservationFrameRecord) : List Byte :=
  recordBytes record.members

/-- `sizeof` of the records. -/
def headerSize : Nat := (ObservationHeader.bytes {}).length
def processRecordSize : Nat := (ObservationProcessRecord.bytes {}).length
def frameRecordSize : Nat := (ObservationFrameRecord.bytes {}).length

/-- What `Open` does to the header of a new object. -/
def openHeader (header : ObservationHeader) (poolSize pageSize : BitVec 64)
    (crossProcess : Bool) : ObservationHeader :=
  { header with
    version := kObservationVersion
    headerBytes := BitVec.ofNat 16 headerSize
    frameRecordBytes := BitVec.ofNat 32 frameRecordSize
    poolSize := poolSize
    pageSize := pageSize
    processesOffset := BitVec.ofNat 64 headerSize
    framesOffset :=
      BitVec.ofNat 64 (headerSize + kObservationProcessCapacity * processRecordSize)
    processRecordBytes := BitVec.ofNat 32 processRecordSize
    processCapacity := BitVec.ofNat 32 kObservationProcessCapacity
    crossProcess := if crossProcess then 1 else 0
    magic := kObservationMagic }

/-- An area that `Open` has set up, whatever has been published in it since. -/
structure ObservationArea where
  header : ObservationHeader
  processes : Vector ObservationProcessRecord kObservationProcessCapacity
  frames : List ObservationFrameRecord
  crossProcess : Bool
  poolSize_lt : frames.length < 2 ^ 64
  opened : header =
    openHeader header (BitVec.ofNat 64 frames.length) header.pageSize crossProcess

def ObservationArea.bytes (area : ObservationArea) : List Byte :=
  area.header.bytes ++ area.processes.toList.flatMap ObservationProcessRecord.bytes ++
    area.frames.flatMap ObservationFrameRecord.bytes

/-! ### Sizes and offsets -/

section Members

variable (value8 : BitVec 8) (value16 : BitVec 16) (value32 : BitVec 32) (value64 : BitVec 64)

@[simp] theorem uint8_alignment : (uint8 value8).alignment = 1 := rfl
@[simp] theorem uint16_alignment : (uint16 value16).alignment = 2 := rfl
@[simp] theorem uint32_alignment : (uint32 value32).alignment = 4 := rfl
@[simp] theorem uint64_alignment : (uint64 value64).alignment = 8 := rfl

@[simp] theorem uint8_length : (uint8 value8).bytes.length = 1 := length_littleEndian ..
@[simp] theorem uint16_length : (uint16 value16).bytes.length = 2 := length_littleEndian ..
@[simp] theorem uint32_length : (uint32 value32).bytes.length = 4 := length_littleEndian ..
@[simp] theorem uint64_length : (uint64 value64).bytes.length = 8 := length_littleEndian ..

@[simp] theorem reserved_alignment {size : Nat} (bytes : Vector Byte size) :
    (reserved bytes).alignment = 1 := rfl

@[simp] theorem reserved_length {size : Nat} (bytes : Vector Byte size) :
    (reserved bytes).bytes.length = size := Vector.length_toList

end Members

theorem ObservationSummary.bytes_eq (summary : ObservationSummary) :
    recordBytes summary.members = summary.members.flatMap Member.bytes := by
  refine recordBytes_eq ?_ ?_
  · simp [members, Gapless]
  · simp [members, recordAlignment]

@[simp]
theorem nested_summary_alignment (summary : ObservationSummary) :
    (nested summary.members).alignment = 8 := by
  simp [nested, ObservationSummary.members, recordAlignment]

@[simp]
theorem nested_summary_length (summary : ObservationSummary) :
    (nested summary.members).bytes.length = 64 := by
  rw [nested, summary.bytes_eq]
  simp [ObservationSummary.members]

theorem ObservationHeader.bytes_eq (header : ObservationHeader) :
    header.bytes = header.members.flatMap Member.bytes := by
  refine recordBytes_eq ?_ ?_
  · simp [members, Gapless]
  · simp [members, recordAlignment]

theorem ObservationProcessRecord.bytes_eq (record : ObservationProcessRecord) :
    record.bytes = record.members.flatMap Member.bytes := by
  refine recordBytes_eq ?_ ?_
  · simp [members, Gapless]
  · simp [members, recordAlignment]

theorem ObservationFrameRecord.bytes_eq (record : ObservationFrameRecord) :
    record.bytes = record.members.flatMap Member.bytes := by
  refine recordBytes_eq ?_ ?_
  · simp [members, Gapless]
  · simp [members, recordAlignment]

theorem ObservationHeader.length_bytes (header : ObservationHeader) :
    header.bytes.length = 256 := by
  rw [bytes_eq]
  simp [members]

theorem ObservationProcessRecord.length_bytes (record : ObservationProcessRecord) :
    record.bytes.length = 128 := by
  rw [bytes_eq]
  simp [members]

theorem ObservationFrameRecord.length_bytes (record : ObservationFrameRecord) :
    record.bytes.length = 32 := by
  rw [bytes_eq]
  simp [members]

theorem ObservationHeader.slice_sequence (header : ObservationHeader) :
    slice header.bytes 8 16 = (uint64 header.sequence).bytes := by
  rw [header.bytes_eq]
  have hsplit : header.members.flatMap Member.bytes =
      ((uint32 header.magic).bytes ++ (uint16 header.version).bytes ++
        (uint16 header.headerBytes).bytes) ++ ((uint64 header.sequence).bytes ++
        (header.members.drop 4).flatMap Member.bytes) := by
    simp [ObservationHeader.members]
  rw [hsplit]
  exact slice_middle (by simp) (by simp)

theorem ObservationProcessRecord.slice_sequence (record : ObservationProcessRecord) :
    slice record.bytes 8 16 = (uint64 record.sequence).bytes := by
  rw [record.bytes_eq]
  have hsplit : record.members.flatMap Member.bytes =
      ((uint32 record.pid).bytes ++ (uint32 record.reserved0).bytes) ++
        ((uint64 record.sequence).bytes ++ (record.members.drop 3).flatMap Member.bytes) := by
    simp [ObservationProcessRecord.members]
  rw [hsplit]
  exact slice_middle (by simp) (by simp)

theorem headerSize_eq : headerSize = 256 := ObservationHeader.length_bytes _
theorem processRecordSize_eq : processRecordSize = 128 := ObservationProcessRecord.length_bytes _
theorem frameRecordSize_eq : frameRecordSize = 32 := ObservationFrameRecord.length_bytes _

namespace ObservationArea

variable (area : ObservationArea)

theorem fixed_fields :
    area.header.magic = kObservationMagic ∧ area.header.version = kObservationVersion ∧
      area.header.headerBytes = 256 ∧ area.header.frameRecordBytes = 32 ∧
      area.header.processRecordBytes = 128 ∧ area.header.processCapacity = 64 ∧
      area.header.processesOffset = 256 ∧ area.header.framesOffset = 8448 := by
  have hopened := area.opened
  rw [openHeader, headerSize_eq, processRecordSize_eq, frameRecordSize_eq] at hopened
  exact ⟨congrArg (·.magic) hopened, congrArg (·.version) hopened,
    congrArg (·.headerBytes) hopened, congrArg (·.frameRecordBytes) hopened,
    congrArg (·.processRecordBytes) hopened, congrArg (·.processCapacity) hopened,
    congrArg (·.processesOffset) hopened, congrArg (·.framesOffset) hopened⟩

theorem poolSize_eq : area.header.poolSize.toNat = area.frames.length := by
  rw [area.opened]
  exact Nat.mod_eq_of_lt area.poolSize_lt

theorem length_processes :
    (area.processes.toList.flatMap ObservationProcessRecord.bytes).length = 8192 := by
  rw [length_flatMap_encode fun record _ => record.length_bytes, Vector.length_toList]
  rfl

theorem length_bytes : area.bytes.length = 8448 + area.frames.length * 32 := by
  rw [bytes, List.length_append, List.length_append, area.header.length_bytes,
    area.length_processes, length_flatMap_encode fun record _ => record.length_bytes]

theorem slice_header : slice area.bytes 0 256 = area.header.bytes := by
  have hlength := area.header.length_bytes
  rw [bytes, List.append_assoc, slice_append_left (Nat.le_of_eq hlength.symm),
    slice_all hlength.symm]

theorem slice_process {index : Nat} (hindex : index < kObservationProcessCapacity) :
    slice area.bytes (256 + index * 128) (256 + (index + 1) * 128) =
      area.processes[index].bytes := by
  have hheader := area.header.length_bytes
  have htable : index < area.processes.toList.length := by rwa [Vector.length_toList]
  have hend : 256 + (index + 1) * 128 ≤ (area.header.bytes ++
      area.processes.toList.flatMap ObservationProcessRecord.bytes).length := by
    rw [List.length_append, hheader, area.length_processes]
    have hcapacity : kObservationProcessCapacity = 64 := rfl
    omega
  rw [bytes, slice_append_left hend, ← hheader, slice_append_right,
    slice_flatMap (fun record _ => record.length_bytes) htable]
  simp

theorem slice_frames :
    slice area.bytes 8448 (8448 + area.frames.length * 32) =
      area.frames.flatMap ObservationFrameRecord.bytes := by
  have hlength : (area.header.bytes ++
      area.processes.toList.flatMap ObservationProcessRecord.bytes).length = 8448 := by
    rw [List.length_append, area.header.length_bytes, area.length_processes]
  rw [bytes, ← hlength, ← Nat.add_zero (List.length _), Nat.add_assoc, slice_append_right,
    slice_all]
  rw [Nat.zero_add, length_flatMap_encode fun record _ => record.length_bytes]

end ObservationArea

end TelePath.ObservationFormat
