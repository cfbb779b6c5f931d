import Mathlib.Data.List.Induction
import TelePath.Buffer.ObservationFormat

/-!
The reader of the observation area, `web/backend/observation.py`, on an object whose bytes
stay as they are.

A format of `struct` is read from its text.  Items of a tuple are taken by their index.
-/

namespace TelePath.ObservationReader

open Logic
open Observation (Counter SummaryField)
open ObservationFormat

/-- The exceptions that a call may raise. -/
inductive Failure where
  | valueError (message : String)
  | observationError (message : String)
  | structError
  | keyError
  deriving DecidableEq, Repr

/-! ### `struct` -/

def codeOf : Char → Option Code
  | 'x' => some .pad
  | 'B' => some (.integer 1)
  | 'H' => some (.integer 2)
  | 'I' => some (.integer 4)
  | 'Q' => some (.integer 8)
  | _ => none

/-- The codes of a format, with the digits before the next code. -/
def parseCodes : Option Nat → List Char → Option (List Code)
  | none, [] => some []
  | some _, [] => none
  | count, char :: rest =>
      if char.isDigit then
        parseCodes (some (10 * count.getD 0 + (char.toNat - '0'.toNat))) rest
      else do
        let code ← codeOf char
        let codes ← parseCodes none rest
        return List.replicate (count.getD 1) code ++ codes

/-- A format that starts with `<` has no gaps and the lowest byte first. -/
def parseFormat (format : String) : Option (List Code) :=
  match format.toList with
  | '<' :: rest => parseCodes none rest
  | _ => none

def headerStruct : List Code := (parseFormat "<IHHQQII4Q2IB7x8QQ104x").getD []
def processStruct : List Code := (parseFormat "<IIQQ13Q").getD []
def frameStruct : List Code := (parseFormat "<IBBHIIQQ").getD []
def sequenceStruct : List Code := (parseFormat "<Q").getD []

def unpackAll (codes : List Code) (buffer : List Byte) : Except Failure (List Nat) :=
  match unpack codes buffer with
  | some values => .ok values
  | none => .error .structError

def unpackFrom (codes : List Code) (buffer : List Byte) (offset : Nat) :
    Except Failure (List Nat) :=
  if buffer.length < offset + codesSize codes then .error .structError
  else unpackAll codes (slice buffer offset (offset + codesSize codes))

def iterUnpack (codes : List Code) (buffer : List Byte) : Except Failure (List (List Nat)) :=
  if buffer.length % codesSize codes ≠ 0 then .error .structError
  else (List.range (buffer.length / codesSize codes)).mapM fun index =>
    unpackAll codes (slice buffer (index * codesSize codes) ((index + 1) * codesSize codes))

/-! ### Dictionaries -/

abbrev Dict (κ : Type) := κ → Option Nat

section Dict

variable {κ : Type} [DecidableEq κ]

def Dict.ofItems (items : List (κ × Nat)) : Dict κ :=
  items.foldl (fun dict item => Function.update dict item.1 (some item.2)) fun _ => none

/-- `dict[key] += value`. -/
def Dict.add (dict : Dict κ) (key : κ) (value : Nat) : Except Failure (Dict κ) :=
  match dict key with
  | none => .error .keyError
  | some old => .ok (Function.update dict key (some (old + value)))

end Dict

/-! ### `read_observation` -/

def magic : Nat := 0x424F5054
def version : Nat := 1

def frameDirty : Nat := 1 <<< 0
def frameWritebackQueued : Nat := 1 <<< 1
def frameWritebackActive : Nat := 1 <<< 2

inductive FrameState where
  | free
  | loading
  | resident
  | unknown
  deriving DecidableEq, Repr

def frameState : Nat → FrameState
  | 0 => .free
  | 1 => .loading
  | 2 => .resident
  | _ => .unknown

def summaryFields : List SummaryField :=
  [.freeFrames, .loadingFrames, .residentFrames, .dirtyFrames, .pinnedFrames,
    .writebackQueuedFrames, .writebackActiveFrames, .dirtyPageCount]

def counterFields : List Counter :=
  [.bufferHits, .bufferMisses, .diskReads, .diskWrites, .evictions, .dirtyFlushes,
    .flushTasksScheduled, .flushTasksCompleted, .flushFailures, .cleanerFlushesScheduled,
    .cleanerFlushesFinished, .cleanerFlushesSkipped, .evictionFailures]

def sequenceOffset : Nat := 8
def processSequenceOffset : Nat := 8

structure FrameEntry where
  frameId : Nat
  state : FrameState
  dirty : Bool
  writebackQueued : Bool
  writebackActive : Bool
  pins : Nat
  fileId : Nat
  blockId : Nat
  namespaceId : Nat
  version : Nat
  deriving DecidableEq, Repr

structure ProcessEntry where
  pid : Nat
  updatedUnixMs : Nat
  counters : Dict Counter

/-- The dictionary that `read_observation` returns. -/
structure Result where
  name : String
  version : Nat
  poolSize : Nat
  pageSize : Nat
  crossProcess : Bool
  sequence : Nat
  publishedUnixMs : Nat
  publisherPid : Nat
  summary : Dict SummaryField
  minRecLsn : Nat
  processes : List ProcessEntry
  counters : Dict Counter
  frames : Option (List FrameEntry)

/-- The file name below the directory of the objects. -/
def shmPath (name : String) : Except Failure String :=
  let chars := name.toList
  if chars.length < 2 ∨ chars.head? ≠ some '/' ∨ '/' ∈ chars.tail then
    .error (.valueError "observation name must look like \"/name\"")
  else .ok (String.ofList chars.tail)

/-- `_read_consistent`, which finds the clock before the deadline `attempts` times. -/
def readConsistent (view : List Byte) (sequenceOffset start stop : Nat) :
    Nat → Except Failure (List Byte)
  | 0 => .error (.observationError "observation area kept changing while being read")
  | attempts + 1 => do
      let before ← unpackFrom sequenceStruct view sequenceOffset
      if before.getD 0 0 % 2 = 1 then
        readConsistent view sequenceOffset start stop attempts
      else
        let data := slice view start stop
        let after ← unpackFrom sequenceStruct view sequenceOffset
        if before.getD 0 0 = after.getD 0 0 then return data
        else readConsistent view sequenceOffset start stop attempts

def frameEntry (record : List Nat) : FrameEntry where
  frameId := record.getD 0 0
  state := frameState (record.getD 1 0)
  dirty := record.getD 2 0 &&& frameDirty ≠ 0
  writebackQueued := record.getD 2 0 &&& frameWritebackQueued ≠ 0
  writebackActive := record.getD 2 0 &&& frameWritebackActive ≠ 0
  pins := record.getD 3 0
  fileId := record.getD 4 0
  namespaceId := record.getD 5 0
  blockId := record.getD 6 0
  version := record.getD 7 0

def decodeFrames (data : List Byte) (count : Nat) : Except Failure (List FrameEntry) := do
  let records ← iterUnpack frameStruct (data.take (count * codesSize frameStruct))
  return records.map frameEntry

/-- One round of the loop over the process records. -/
def readProcess (view : List Byte) (processesOffset : Nat) (attempts : Nat → Nat)
    (found : List ProcessEntry × Dict Counter) (index : Nat) :
    Except Failure (List ProcessEntry × Dict Counter) := do
  let start := processesOffset + index * codesSize processStruct
  let data ← readConsistent view (start + processSequenceOffset) start
    (start + codesSize processStruct) (attempts (start + processSequenceOffset))
  let record ← unpackAll processStruct data
  if record.getD 0 0 = 0 then return found
  let items := counterFields.zip (record.drop 4)
  let totals ← items.foldlM (fun totals item => Dict.add totals item.1 item.2) found.2
  let entry : ProcessEntry :=
    { pid := record.getD 0 0
      updatedUnixMs := record.getD 3 0
      counters := Dict.ofItems items }
  return (found.1 ++ [entry], totals)

def raiseIf (condition : Prop) [Decidable condition] (failure : Failure) : Except Failure Unit :=
  if condition then .error failure else .ok ()

def openView (objects : String → Option (List Byte)) (name : String) :
    Except Failure (List Byte) := do
  let path ← shmPath name
  match objects path with
  | none => .error (.observationError ("no observation area named " ++ name))
  | some view =>
      raiseIf (view.length < codesSize headerStruct)
        (.observationError "observation area is not initialized")
      return view

/-- The header as it is found first, and the checks on it. -/
def readFixed (view : List Byte) : Except Failure (List Nat) := do
  let fixed ← unpackFrom headerStruct view 0
  raiseIf (fixed.getD 0 0 ≠ magic)
    (.observationError "observation area is not initialized or has an unknown magic")
  raiseIf (fixed.getD 1 0 ≠ version ∨ fixed.getD 2 0 ≠ codesSize headerStruct)
    (.observationError ("unsupported observation format version " ++ toString (fixed.getD 1 0)))
  raiseIf (fixed.getD 6 0 ≠ codesSize frameStruct ∨ fixed.getD 11 0 ≠ codesSize processStruct)
    (.observationError "observation record sizes do not match this reader")
  raiseIf (fixed.getD 9 0 + fixed.getD 7 0 * codesSize frameStruct > view.length)
    (.observationError "observation area is truncated")
  return fixed

/-- `read_observation` with the objects that there are; the call that reads a sequence finds
the clock before its deadline as often as `attempts` says. -/
def readObservation (objects : String → Option (List Byte)) (name : String)
    (includeFrames : Bool) (attempts : Nat → Nat) : Except Failure Result := do
  let view ← openView objects name
  let fixed ← readFixed view
  let poolSize := fixed.getD 7 0
  let framesOffset := fixed.getD 9 0
  let framesEnd := if includeFrames then framesOffset + poolSize * codesSize frameStruct
    else codesSize headerStruct
  let snapshot ← readConsistent view sequenceOffset 0 framesEnd (attempts sequenceOffset)
  let header ← unpackFrom headerStruct snapshot 0
  raiseIf (header.getD 4 0 = 0) (.observationError "observation area has no snapshot yet")
  let found ← (List.range (fixed.getD 12 0)).foldlM
    (readProcess view (fixed.getD 10 0) attempts)
    ([], Dict.ofItems (counterFields.map fun field => (field, 0)))
  let frames ← if includeFrames then some <$> decodeFrames (snapshot.drop framesOffset) poolSize
    else pure none
  return {
    name
    version := fixed.getD 1 0
    poolSize
    pageSize := fixed.getD 8 0
    crossProcess := fixed.getD 13 0 ≠ 0
    sequence := header.getD 3 0
    publishedUnixMs := header.getD 4 0
    publisherPid := header.getD 5 0
    summary := Dict.ofItems (summaryFields.zip ((header.take 22).drop 14))
    minRecLsn := header.getD 22 0
    processes := found.1
    counters := found.2
    frames }

/-! ### What the formats read -/

section Unpack

variable (codes : List Code) (rest : List Byte)

theorem unpack_uint8 (value : BitVec 8) :
    unpack (.integer 1 :: codes) ((uint8 value).bytes ++ rest) =
      (unpack codes rest).map (value.toNat :: ·) :=
  unpack_integer value.isLt codes rest

theorem unpack_uint16 (value : BitVec 16) :
    unpack (.integer 2 :: codes) ((uint16 value).bytes ++ rest) =
      (unpack codes rest).map (value.toNat :: ·) :=
  unpack_integer value.isLt codes rest

theorem unpack_uint32 (value : BitVec 32) :
    unpack (.integer 4 :: codes) ((uint32 value).bytes ++ rest) =
      (unpack codes rest).map (value.toNat :: ·) :=
  unpack_integer value.isLt codes rest

theorem unpack_uint64 (value : BitVec 64) :
    unpack (.integer 8 :: codes) ((uint64 value).bytes ++ rest) =
      (unpack codes rest).map (value.toNat :: ·) :=
  unpack_integer value.isLt codes rest

theorem unpack_reserved {size : Nat} (bytes : Vector Byte size) :
    unpack (List.replicate size .pad ++ codes) ((reserved bytes).bytes ++ rest) =
      unpack codes rest := by
  have hpads := unpack_pads codes bytes.toList rest
  rwa [Vector.length_toList] at hpads

end Unpack

/-- The fields of a header in their order, without the reserved ones. -/
def headerValues (header : ObservationHeader) : List Nat :=
  [header.magic.toNat, header.version.toNat, header.headerBytes.toNat, header.sequence.toNat,
    header.publishedUnixMs.toNat, header.publisherPid.toNat, header.frameRecordBytes.toNat,
    header.poolSize.toNat, header.pageSize.toNat, header.framesOffset.toNat,
    header.processesOffset.toNat, header.processRecordBytes.toNat, header.processCapacity.toNat,
    header.crossProcess.toNat, header.summary.freeFrames.toNat,
    header.summary.loadingFrames.toNat, header.summary.residentFrames.toNat,
    header.summary.dirtyFrames.toNat, header.summary.pinnedFrames.toNat,
    header.summary.writebackQueuedFrames.toNat, header.summary.writebackActiveFrames.toNat,
    header.summary.dirtyPageCount.toNat, header.minRecLsn.toNat]

theorem headerStruct_eq : headerStruct =
    [4, 2, 2, 8, 8, 4, 4, 8, 8, 8, 8, 4, 4, 1].map Code.integer ++ (List.replicate 7 Code.pad ++
      ([8, 8, 8, 8, 8, 8, 8, 8, 8].map Code.integer ++ (List.replicate 104 Code.pad ++ []))) := by
  decide +kernel

theorem unpack_header (header : ObservationHeader) :
    unpack headerStruct header.bytes = some (headerValues header) := by
  rw [headerStruct_eq, header.bytes_eq]
  have hsummary : (nested header.summary.members).bytes =
      header.summary.members.flatMap Member.bytes := header.summary.bytes_eq
  simp only [ObservationHeader.members, List.flatMap_cons, List.flatMap_nil, hsummary]
  simp only [ObservationSummary.members, List.flatMap_cons, List.flatMap_nil, List.map_cons,
    List.map_nil, List.cons_append, List.nil_append, List.append_assoc,
    unpack_uint8, unpack_uint16, unpack_uint32, unpack_uint64, unpack_reserved]
  rfl

def processValues (record : ObservationProcessRecord) : List Nat :=
  [record.pid.toNat, record.reserved0.toNat, record.sequence.toNat, record.updatedUnixMs.toNat] ++
    counterFields.map fun counter => (record.get counter).toNat

theorem unpack_process (record : ObservationProcessRecord) :
    unpack processStruct record.bytes = some (processValues record) := by
  have hcodes : processStruct = [.integer 4, .integer 4, .integer 8, .integer 8, .integer 8,
      .integer 8, .integer 8, .integer 8, .integer 8, .integer 8, .integer 8, .integer 8,
      .integer 8, .integer 8, .integer 8, .integer 8, .integer 8] := rfl
  rw [hcodes, record.bytes_eq]
  simp only [ObservationProcessRecord.members, List.flatMap_cons, List.flatMap_nil, unpack_uint32,
    unpack_uint64]
  rfl

def frameValues (record : ObservationFrameRecord) : List Nat :=
  [record.frameId.toNat, record.state.toNat, record.flags.toNat, record.pins.toNat,
    record.fileId.toNat, record.namespaceId.toNat, record.blockId.toNat, record.version.toNat]

theorem unpack_frame (record : ObservationFrameRecord) :
    unpack frameStruct record.bytes = some (frameValues record) := by
  have hcodes : frameStruct = [.integer 4, .integer 1, .integer 1, .integer 2, .integer 4,
      .integer 4, .integer 8, .integer 8] := rfl
  rw [hcodes, record.bytes_eq]
  simp only [ObservationFrameRecord.members, List.flatMap_cons, List.flatMap_nil, unpack_uint8,
    unpack_uint16, unpack_uint32, unpack_uint64]
  rfl

theorem headerStruct_size : codesSize headerStruct = 256 := by
  rw [headerStruct_eq]
  simp [codesSize, Code.width]

theorem processStruct_size : codesSize processStruct = 128 := rfl
theorem frameStruct_size : codesSize frameStruct = 32 := rfl

theorem unpackAll_of_unpack {codes : List Code} {buffer : List Byte} {values : List Nat}
    (h : unpack codes buffer = some values) : unpackAll codes buffer = .ok values := by
  rw [unpackAll, h]

theorem unpackFrom_of_slice {codes : List Code} {buffer bytes : List Byte} {offset : Nat}
    {values : List Nat} (hlength : offset + codesSize codes ≤ buffer.length)
    (hslice : slice buffer offset (offset + codesSize codes) = bytes)
    (h : unpack codes bytes = some values) : unpackFrom codes buffer offset = .ok values := by
  rw [unpackFrom, if_neg (Nat.not_lt.mpr hlength), hslice, unpackAll_of_unpack h]

@[simp]
theorem ok_bind {α β : Type} (value : α) (rest : α → Except Failure β) :
    (Except.ok value >>= rest) = rest value := rfl

/-! ### Sequences -/

theorem unpack_sequence (value : BitVec 64) :
    unpack sequenceStruct (uint64 value).bytes = some [value.toNat] := by
  have hcodes : sequenceStruct = [.integer 8] := rfl
  have hunpack := unpack_uint64 [] [] value
  rw [List.append_nil] at hunpack
  rw [hcodes, hunpack]
  rfl

theorem unpackFrom_sequence {view part : List Byte} {start size : Nat} {value : BitVec 64}
    (hpart : slice view start (start + size) = part) (hsize : 16 ≤ size)
    (hlength : start + size ≤ view.length)
    (hsequence : slice part 8 16 = (uint64 value).bytes) :
    unpackFrom sequenceStruct view (start + 8) = .ok [value.toNat] := by
  have hwidth : codesSize sequenceStruct = 8 := rfl
  refine unpackFrom_of_slice (by omega) ?_ (unpack_sequence value)
  rw [← hsequence, ← hpart, slice_slice (by omega), hwidth]

theorem readConsistent_of_even {view : List Byte} {offset start stop attempts : Nat}
    {value : Nat} (hsequence : unpackFrom sequenceStruct view offset = .ok [value])
    (heven : value % 2 = 0) (hattempts : 0 < attempts) :
    readConsistent view offset start stop attempts = .ok (slice view start stop) := by
  obtain ⟨attempts, rfl⟩ := Nat.exists_eq_add_of_lt hattempts
  simp [readConsistent, hsequence, heven, pure, Except.pure]

theorem readConsistent_of_odd {view : List Byte} {offset start stop attempts : Nat}
    {value : Nat} (hsequence : unpackFrom sequenceStruct view offset = .ok [value])
    (hodd : value % 2 = 1) :
    readConsistent view offset start stop attempts =
      .error (.observationError "observation area kept changing while being read") := by
  induction attempts with
  | zero => rfl
  | succ attempts ih => simpa [readConsistent, hsequence, hodd] using ih

/-! ### Items -/

section Items

variable {κ : Type} [DecidableEq κ]

theorem ofItems_map (keys : List κ) (value : κ → Nat) :
    Dict.ofItems (keys.map fun key => (key, value key)) =
      fun key => if key ∈ keys then some (value key) else none := by
  have hfold : ∀ dict : Dict κ, (keys.map fun key => (key, value key)).foldl
      (fun (dict : Dict κ) item => Function.update dict item.1 (some item.2)) dict =
        fun key => if key ∈ keys then some (value key) else dict key := by
    induction keys with
    | nil => simp
    | cons first keys ih =>
        intro dict
        rw [List.map_cons, List.foldl_cons, ih]
        funext key
        by_cases hfirst : key = first
        · simp [hfirst]
        · simp [hfirst]
  exact hfold _

theorem add_items (keys : List κ) (hnodup : keys.Nodup) (value total : κ → Nat) :
    (keys.map fun key => (key, value key)).foldlM
        (fun totals item => Dict.add totals item.1 item.2) (fun key => some (total key)) =
      .ok fun key => some (total key + if key ∈ keys then value key else 0) := by
  induction keys generalizing total with
  | nil => simp [pure, Except.pure]
  | cons first keys ih =>
      obtain ⟨hfirst, hnodup⟩ := List.nodup_cons.mp hnodup
      have hadd : Dict.add (fun key => some (total key)) first (value first) =
          .ok fun key => some (total key + if key = first then value first else 0) := by
        refine congrArg Except.ok (funext fun key => ?_)
        by_cases heq : key = first
        · simp [heq]
        · simp [heq]
      rw [List.map_cons, List.foldlM_cons, hadd, ok_bind, ih hnodup]
      refine congrArg Except.ok (funext fun key => ?_)
      by_cases heq : key = first
      · subst heq
        simp [hfirst]
      · simp [heq]

end Items

theorem mem_counterFields (counter : Counter) : counter ∈ counterFields := by
  cases counter <;> decide

theorem nodup_counterFields : counterFields.Nodup := by decide

theorem mem_summaryFields (field : SummaryField) : field ∈ summaryFields := by
  cases field <;> decide

/-! ### The expected dictionary -/

/-- What the reader says about a used record. -/
def processEntry (record : ObservationProcessRecord) : ProcessEntry where
  pid := record.pid.toNat
  updatedUnixMs := record.updatedUnixMs.toNat
  counters counter := some (record.get counter).toNat

/-- What the reader says about a frame record. -/
def expectedFrame (record : ObservationFrameRecord) : FrameEntry where
  frameId := record.frameId.toNat
  state :=
    if record.state = kFrameFree then .free
    else if record.state = kFrameLoading then .loading
    else if record.state = kFrameResident then .resident
    else .unknown
  dirty := record.flags &&& kFrameDirty ≠ 0
  writebackQueued := record.flags &&& kFrameWritebackQueued ≠ 0
  writebackActive := record.flags &&& kFrameWritebackActive ≠ 0
  pins := record.pins.toNat
  fileId := record.fileId.toNat
  blockId := record.blockId.toNat
  namespaceId := record.namespaceId.toNat
  version := record.version.toNat

def usedProcesses (area : ObservationArea) : List ObservationProcessRecord :=
  area.processes.toList.filter (·.pid ≠ 0)

/-- The dictionary with the fields of the area. -/
def expectedResult (area : ObservationArea) (name : String) (includeFrames : Bool) : Result where
  name := name
  version := area.header.version.toNat
  poolSize := area.header.poolSize.toNat
  pageSize := area.header.pageSize.toNat
  crossProcess := area.crossProcess
  sequence := area.header.sequence.toNat
  publishedUnixMs := area.header.publishedUnixMs.toNat
  publisherPid := area.header.publisherPid.toNat
  summary field := some (area.header.summary.get field).toNat
  minRecLsn := area.header.minRecLsn.toNat
  processes := (usedProcesses area).map processEntry
  counters counter := some ((usedProcesses area).map fun record => (record.get counter).toNat).sum
  frames := if includeFrames then some (area.frames.map expectedFrame) else none

/-! ### Process records -/

theorem zip_counters (record : ObservationProcessRecord) :
    counterFields.zip ((processValues record).drop 4) =
      counterFields.map fun counter => (counter, (record.get counter).toNat) := rfl

/-- What a round of the loop does with a record. -/
def addProcess (found : List ProcessEntry × (Counter → Nat))
    (record : ObservationProcessRecord) : List ProcessEntry × (Counter → Nat) :=
  if record.pid = 0 then found
  else (found.1 ++ [processEntry record],
    fun counter => found.2 counter + (record.get counter).toNat)

theorem foldl_addProcess (records : List ObservationProcessRecord)
    (found : List ProcessEntry × (Counter → Nat)) :
    records.foldl addProcess found =
      (found.1 ++ (records.filter (·.pid ≠ 0)).map processEntry, fun counter => found.2 counter +
        ((records.filter (·.pid ≠ 0)).map fun record => (record.get counter).toNat).sum) := by
  induction records generalizing found with
  | nil => simp
  | cons record records ih =>
      rw [List.foldl_cons, ih, addProcess]
      by_cases hused : record.pid = 0#32
      · simp [hused]
      · simp [hused, Nat.add_assoc]

section Area

variable {area : ObservationArea} {attempts : Nat → Nat}

theorem readProcess_eq (hattempts : ∀ offset, 0 < attempts offset) {index : Nat}
    (hindex : index < Observation.kObservationProcessCapacity)
    (heven : area.processes[index].sequence.toNat % 2 = 0)
    (found : List ProcessEntry × (Counter → Nat)) :
    readProcess area.bytes 256 attempts (found.1, fun counter => some (found.2 counter)) index =
      .ok ((addProcess found area.processes[index]).1,
        fun counter => some ((addProcess found area.processes[index]).2 counter)) := by
  have hpart := area.slice_process hindex
  have hlength := area.length_bytes
  have hcapacity : Observation.kObservationProcessCapacity = 64 := rfl
  generalize area.processes[index] = record at *
  have hstop : 256 + (index + 1) * 128 = 256 + index * 128 + 128 := by ring
  rw [hstop] at hpart
  have hsequence := unpackFrom_sequence hpart (by decide) (by omega) record.slice_sequence
  rw [readProcess]
  simp only [processStruct_size, processSequenceOffset]
  rw [readConsistent_of_even hsequence heven (hattempts _), ok_bind, hpart,
    unpackAll_of_unpack (unpack_process record), ok_bind, zip_counters,
    add_items counterFields nodup_counterFields, ok_bind, ofItems_map, addProcess]
  have hpid : (processValues record).getD 0 0 = 0 ↔ record.pid = 0 :=
    ⟨fun h => BitVec.eq_of_toNat_eq h, fun h => congrArg BitVec.toNat h⟩
  by_cases hused : record.pid = 0
  · rw [if_pos (hpid.mpr hused), if_pos hused]
    rfl
  · rw [if_neg (hpid.not.mpr hused), if_neg hused]
    simp only [mem_counterFields, if_true]
    rfl

theorem readProcesses_eq (hattempts : ∀ offset, 0 < attempts offset)
    (heven : ∀ record ∈ area.processes.toList, record.sequence.toNat % 2 = 0) :
    (List.range Observation.kObservationProcessCapacity).foldlM
        (readProcess area.bytes 256 attempts) ([], fun _ => some 0) =
      .ok ((usedProcesses area).map processEntry, fun counter =>
        some ((usedProcesses area).map fun record => (record.get counter).toNat).sum) := by
  have hloop : ∀ count ≤ Observation.kObservationProcessCapacity,
      (List.range count).foldlM (readProcess area.bytes 256 attempts) ([], fun _ => some 0) =
        let found := (area.processes.toList.take count).foldl addProcess ([], fun _ => 0)
        .ok (found.1, fun counter => some (found.2 counter)) := by
    intro count
    induction count with
    | zero => exact fun _ => rfl
    | succ count ih =>
        intro hcount
        have hlt : count < area.processes.toList.length := by
          rw [Vector.length_toList]
          omega
        have hrecord : area.processes.toList[count] = area.processes[count] := by simp
        have hstep := readProcess_eq hattempts hcount
          (heven _ (hrecord ▸ List.getElem_mem hlt))
          ((area.processes.toList.take count).foldl addProcess ([], fun _ => 0))
        rw [List.range_succ, List.foldlM_append, ih (by omega), ok_bind, List.foldlM_cons, hstep,
          ok_bind, List.take_succ_eq_append_getElem hlt, List.foldl_append, hrecord]
        rfl
  have hall := hloop _ le_rfl
  have htake : area.processes.toList.take Observation.kObservationProcessCapacity =
      area.processes.toList := List.take_of_length_le (by rw [Vector.length_toList])
  rw [hall, htake, foldl_addProcess]
  simp [usedProcesses]

end Area

/-! ### Frame records -/

theorem mapM_range {α β : Type} {items : List α} {f : Nat → Except Failure β} {g : α → β}
    (h : ∀ (index : Nat) (hindex : index < items.length), f index = .ok (g items[index])) :
    (List.range items.length).mapM f = .ok (items.map g) := by
  induction items using List.reverseRecOn with
  | nil => rfl
  | append_singleton items last ih =>
      have hinit : ∀ (index : Nat) (hindex : index < items.length),
          f index = .ok (g items[index]) := by
        intro index hindex
        rw [h index (by simp; omega), List.getElem_append_left hindex]
      have hlast : f items.length = .ok (g last) := by
        rw [h items.length (by simp), List.getElem_concat_length rfl]
      rw [List.length_append, List.length_singleton, List.range_succ, List.mapM_append,
        ih hinit, ok_bind, List.mapM_cons, hlast, ok_bind, List.map_append]
      rfl

theorem iterUnpack_frames (frames : List ObservationFrameRecord) :
    iterUnpack frameStruct (frames.flatMap ObservationFrameRecord.bytes) =
      .ok (frames.map frameValues) := by
  have hlength : (frames.flatMap ObservationFrameRecord.bytes).length = frames.length * 32 :=
    length_flatMap_encode fun record _ => record.length_bytes
  rw [iterUnpack, frameStruct_size, hlength, if_neg (by simp), Nat.mul_div_cancel _ (by decide)]
  refine mapM_range fun index hindex => ?_
  rw [slice_flatMap (fun record _ => record.length_bytes) hindex]
  exact unpackAll_of_unpack (unpack_frame _)

theorem frameState_toNat (state : BitVec 8) :
    frameState state.toNat =
      if state = kFrameFree then .free
      else if state = kFrameLoading then .loading
      else if state = kFrameResident then .resident
      else .unknown := by
  revert state
  decide +kernel

theorem flag_eq (flags bit : BitVec 8) :
    decide (flags.toNat &&& bit.toNat ≠ 0) = decide (flags &&& bit ≠ 0) := by
  refine decide_eq_decide.mpr (not_congr ?_)
  rw [← BitVec.toNat_and, ← BitVec.toNat_inj]
  rfl

theorem frameEntry_values (record : ObservationFrameRecord) :
    frameEntry (frameValues record) = expectedFrame record := by
  rw [frameEntry, expectedFrame, FrameEntry.mk.injEq]
  exact ⟨rfl, frameState_toNat record.state, flag_eq record.flags kFrameDirty,
    flag_eq record.flags kFrameWritebackQueued, flag_eq record.flags kFrameWritebackActive,
    rfl, rfl, rfl, rfl, rfl⟩

theorem decodeFrames_eq (frames : List ObservationFrameRecord) :
    decodeFrames (frames.flatMap ObservationFrameRecord.bytes) frames.length =
      .ok (frames.map expectedFrame) := by
  have hlength : (frames.flatMap ObservationFrameRecord.bytes).length = frames.length * 32 :=
    length_flatMap_encode fun record _ => record.length_bytes
  rw [decodeFrames, frameStruct_size, List.take_of_length_le (Nat.le_of_eq hlength),
    iterUnpack_frames, ok_bind, List.map_map]
  exact congrArg Except.ok (List.map_congr_left fun record _ => frameEntry_values record)

/-! ### The whole area -/

theorem raiseIf_neg {condition : Prop} [Decidable condition] {failure : Failure}
    (h : ¬condition) : raiseIf condition failure = .ok () := if_neg h

section Area

variable (area : ObservationArea)

theorem openView_eq {objects : String → Option (List Byte)} {name path : String}
    (hname : shmPath name = .ok path) (hobject : objects path = some area.bytes) :
    openView objects name = .ok area.bytes := by
  have hlength := area.length_bytes
  have hsize : ¬area.bytes.length < codesSize headerStruct := by
    rw [headerStruct_size]
    omega
  rw [openView, hname, ok_bind, hobject]
  exact congrArg (· >>= fun _ => pure area.bytes) (raiseIf_neg hsize)

theorem unpackFrom_header :
    unpackFrom headerStruct area.bytes 0 = .ok (headerValues area.header) := by
  have hlength := area.length_bytes
  refine unpackFrom_of_slice ?_ ?_ (unpack_header area.header)
  · rw [headerStruct_size]
    omega
  · rw [headerStruct_size]
    exact area.slice_header

theorem readFixed_eq : readFixed area.bytes = .ok (headerValues area.header) := by
  obtain ⟨hmagic, hversion, hheader, hframe, hprocess, -, -, hframes⟩ := area.fixed_fields
  have hlength := area.length_bytes
  have hpool := area.poolSize_eq
  rw [readFixed, unpackFrom_header, ok_bind, raiseIf_neg, ok_bind, raiseIf_neg, ok_bind,
    raiseIf_neg, ok_bind, raiseIf_neg, ok_bind]
  · rfl
  · change ¬area.header.framesOffset.toNat + area.header.poolSize.toNat * codesSize frameStruct >
      area.bytes.length
    have hoffset : (8448 : BitVec 64).toNat = 8448 := rfl
    rw [hframes, hpool, hlength, hoffset, frameStruct_size]
    omega
  · change ¬(area.header.frameRecordBytes.toNat ≠ codesSize frameStruct ∨
      area.header.processRecordBytes.toNat ≠ codesSize processStruct)
    rw [hframe, hprocess]
    decide
  · change ¬(area.header.version.toNat ≠ version ∨
      area.header.headerBytes.toNat ≠ codesSize headerStruct)
    rw [hversion, hheader, headerStruct_size]
    decide
  · change ¬area.header.magic.toNat ≠ magic
    rw [hmagic]
    decide

theorem unpackFrom_header_sequence :
    unpackFrom sequenceStruct area.bytes sequenceOffset = .ok [area.header.sequence.toNat] := by
  have hlength := area.length_bytes
  have hpart : slice area.bytes 0 (0 + 256) = area.header.bytes := area.slice_header
  exact unpackFrom_sequence hpart (by decide) (by omega) area.header.slice_sequence

theorem readConsistent_header (heven : area.header.sequence.toNat % 2 = 0) {attempts stop : Nat}
    (hattempts : 0 < attempts) :
    readConsistent area.bytes sequenceOffset 0 stop attempts = .ok (area.bytes.take stop) := by
  exact readConsistent_of_even (unpackFrom_header_sequence area) heven hattempts

theorem unpackFrom_snapshot {stop : Nat} (hstop : 256 ≤ stop) :
    unpackFrom headerStruct (area.bytes.take stop) 0 = .ok (headerValues area.header) := by
  have hlength := area.length_bytes
  refine unpackFrom_of_slice ?_ ?_ (unpack_header area.header)
  · rw [headerStruct_size, List.length_take]
    omega
  · rw [headerStruct_size, ← area.slice_header, slice, slice, List.take_take,
      Nat.min_eq_left (by omega)]

theorem drop_snapshot : (area.bytes.take (8448 + area.frames.length * 32)).drop 8448 =
    area.frames.flatMap ObservationFrameRecord.bytes := area.slice_frames

theorem zip_summary (header : ObservationHeader) :
    summaryFields.zip (((headerValues header).take 22).drop 14) =
      summaryFields.map fun field => (field, (header.summary.get field).toNat) := rfl

theorem crossProcess_eq :
    decide ((headerValues area.header).getD 13 0 ≠ 0) = area.crossProcess := by
  change decide (area.header.crossProcess.toNat ≠ 0) = area.crossProcess
  rw [area.opened, openHeader]
  cases area.crossProcess <;> rfl

/-- The reader returns the fields of the area, each under its own name. -/
theorem read_observation_of_area (objects : String → Option (List Byte))
    {name path : String} (hname : shmPath name = .ok path)
    (hobject : objects path = some area.bytes) (includeFrames : Bool) {attempts : Nat → Nat}
    (hattempts : ∀ offset, 0 < attempts offset)
    (heven : area.header.sequence.toNat % 2 = 0)
    (hrecords : ∀ record ∈ area.processes.toList, record.sequence.toNat % 2 = 0)
    (hpublished : area.header.publishedUnixMs ≠ 0) :
    readObservation objects name includeFrames attempts =
      .ok (expectedResult area name includeFrames) := by
  obtain ⟨-, -, -, -, -, hcapacity, hprocesses, hframes⟩ := area.fixed_fields
  have hoffset : (headerValues area.header).getD 9 0 = 8448 := congrArg BitVec.toNat hframes
  have hpool : (headerValues area.header).getD 7 0 = area.frames.length := area.poolSize_eq
  have htable : (headerValues area.header).getD 10 0 = 256 := congrArg BitVec.toNat hprocesses
  have hcount : (headerValues area.header).getD 12 0 = Observation.kObservationProcessCapacity :=
    congrArg BitVec.toNat hcapacity
  have htime : ¬(headerValues area.header).getD 4 0 = 0 :=
    fun hzero => hpublished (BitVec.eq_of_toNat_eq hzero)
  have htotals : Dict.ofItems (counterFields.map fun field => (field, 0)) = fun _ => some 0 := by
    rw [ofItems_map]
    simp [mem_counterFields]
  have hstop : 256 ≤ if includeFrames then 8448 + area.frames.length * codesSize frameStruct
      else codesSize headerStruct := by
    split
    · omega
    · exact Nat.le_of_eq headerStruct_size.symm
  rw [readObservation, openView_eq area hname hobject, ok_bind, readFixed_eq, ok_bind]
  simp only [hoffset, hpool, htable, hcount, htotals, ok_bind,
    readConsistent_header area heven (hattempts _), unpackFrom_snapshot area hstop,
    raiseIf_neg htime, readProcesses_eq hattempts hrecords, zip_summary, crossProcess_eq,
    ofItems_map, mem_summaryFields, if_true]
  cases includeFrames with
  | true =>
      simp only [if_true, frameStruct_size, drop_snapshot, decodeFrames_eq]
      refine congrArg Except.ok ?_
      rw [expectedResult, area.poolSize_eq]
      rfl
  | false =>
      refine congrArg Except.ok ?_
      rw [expectedResult, area.poolSize_eq]
      rfl

theorem readObservation_of_odd {objects : String → Option (List Byte)} {name path : String}
    (hname : shmPath name = .ok path) (hobject : objects path = some area.bytes)
    (includeFrames : Bool) (attempts : Nat → Nat)
    (hodd : area.header.sequence.toNat % 2 = 1) :
    readObservation objects name includeFrames attempts =
      .error (.observationError "observation area kept changing while being read") := by
  rw [readObservation, openView_eq area hname hobject, ok_bind, readFixed_eq, ok_bind]
  exact congrArg (· >>= _) (readConsistent_of_odd (unpackFrom_header_sequence area) hodd)

end Area

def sampleArea (sequence : BitVec 64) : ObservationArea where
  header := openHeader { sequence, publishedUnixMs := 1 } 1 4096 true
  processes := .ofFn fun index => if index.val = 0 then { pid := 7, bufferHits := 3 } else {}
  frames := [{ state := kFrameResident, flags := kFrameDirty, pins := 2, blockId := 5 }]
  crossProcess := true
  poolSize_lt := by decide
  opened := rfl

theorem read_observation_of_sample :
    readObservation (fun _ => some (sampleArea 2).bytes) "/pool" true (fun _ => 1) =
      .ok (expectedResult (sampleArea 2) "/pool" true) := by
  have hname : shmPath "/pool" = .ok "pool" := by decide
  refine read_observation_of_area (sampleArea 2) _ hname rfl true (fun _ => by decide)
    (by decide) ?_ (by decide)
  intro record hrecord
  obtain ⟨index, rfl⟩ := List.mem_ofFn.mp (Vector.toList_ofFn ▸ hrecord)
  split <;> rfl

/-- An area that could be published but whose sequence is odd is not read. -/
theorem read_observation_of_odd_sample :
    (sampleArea 1).header.publishedUnixMs ≠ 0 ∧
      (∀ frame ∈ (sampleArea 1).frames, frame.state ≤ 2) ∧
      ∀ includeFrames attempts,
        readObservation (fun _ => some (sampleArea 1).bytes) "/pool" includeFrames attempts =
          .error (.observationError "observation area kept changing while being read") := by
  have hname : shmPath "/pool" = .ok "pool" := by decide
  refine ⟨by decide, by decide, fun includeFrames attempts => ?_⟩
  exact readObservation_of_odd (sampleArea 1) hname rfl includeFrames attempts (by decide)

end TelePath.ObservationReader
