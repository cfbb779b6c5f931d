import Mathlib.Data.List.Basic
import Mathlib.Tactic.Ring

/-!
Records of unsigned integers as bytes, the lowest byte first.

A writer lays out the members of a record one behind the other, each at a multiple of its
alignment.  A reader takes bytes apart along a list of codes.
-/

namespace TelePath.Logic

abbrev Byte := BitVec 8

def littleEndian : Nat → Nat → List Byte
  | 0, _ => []
  | width + 1, value => BitVec.ofNat 8 value :: littleEndian width (value / 256)

def ofLittleEndian : List Byte → Nat
  | [] => 0
  | byte :: bytes => byte.toNat + 256 * ofLittleEndian bytes

@[simp]
theorem length_littleEndian (width value : Nat) : (littleEndian width value).length = width := by
  induction width generalizing value with
  | zero => rfl
  | succ width ih => rw [littleEndian, List.length_cons, ih]

theorem ofLittleEndian_littleEndian {width value : Nat} (hvalue : value < 256 ^ width) :
    ofLittleEndian (littleEndian width value) = value := by
  induction width generalizing value with
  | zero =>
      rw [pow_zero, Nat.lt_one_iff] at hvalue
      rw [hvalue]
      rfl
  | succ width ih =>
      have hquotient : value / 256 < 256 ^ width :=
        Nat.div_lt_of_lt_mul (by rwa [pow_succ'] at hvalue)
      rw [littleEndian, ofLittleEndian, ih hquotient, BitVec.toNat_ofNat]
      exact Nat.mod_add_div value 256

/-! ### Writing -/

/-- The bytes of a member, and what divides its offset. -/
structure Member where
  alignment : Nat
  bytes : List Byte
  deriving DecidableEq, Repr

/-- An unsigned integer of `width` bytes. -/
def Member.integer (width value : Nat) : Member := ⟨width, littleEndian width value⟩

/-- How many bytes are left out before the next multiple of the alignment. -/
def padding (alignment offset : Nat) : Nat := (alignment - offset % alignment) % alignment

/-- The members from an offset on. -/
def layOut : Nat → List Member → List Byte
  | _, [] => []
  | offset, member :: members =>
      let gap := padding member.alignment offset
      List.replicate gap 0 ++ member.bytes ++
        layOut (offset + gap + member.bytes.length) members

def recordAlignment (members : List Member) : Nat := (members.map Member.alignment).foldr max 1

/-- A record ends at a multiple of the alignment of its members. -/
def recordBytes (members : List Member) : List Byte :=
  let bytes := layOut 0 members
  bytes ++ List.replicate (padding (recordAlignment members) bytes.length) 0

/-- Every member comes right behind the one before it. -/
def Gapless : Nat → List Member → Prop
  | _, [] => True
  | offset, member :: members =>
      offset % member.alignment = 0 ∧ Gapless (offset + member.bytes.length) members

theorem padding_eq_zero {alignment offset : Nat} (h : offset % alignment = 0) :
    padding alignment offset = 0 := by
  rw [padding, h, Nat.sub_zero, Nat.mod_self]

theorem layOut_eq {members : List Member} {offset : Nat} (h : Gapless offset members) :
    layOut offset members = members.flatMap Member.bytes := by
  induction members generalizing offset with
  | nil => rfl
  | cons member members ih =>
      obtain ⟨haligned, hrest⟩ := h
      rw [layOut, padding_eq_zero haligned, Nat.add_zero, ih hrest, List.flatMap_cons]
      rfl

/-- A record without gaps whose length its alignment divides is its members. -/
theorem recordBytes_eq {members : List Member} (h : Gapless 0 members)
    (hend : (members.flatMap Member.bytes).length % recordAlignment members = 0) :
    recordBytes members = members.flatMap Member.bytes := by
  rw [recordBytes, layOut_eq h, padding_eq_zero hend, List.replicate_zero, List.append_nil]

/-! ### Reading -/

inductive Code where
  | pad
  | integer (width : Nat)
  deriving DecidableEq, Repr

def Code.width : Code → Nat
  | .pad => 1
  | .integer width => width

def codesSize (codes : List Code) : Nat := (codes.map Code.width).sum

/-- The integers in the bytes, which the codes have to use up. -/
def unpack : List Code → List Byte → Option (List Nat)
  | [], bytes => if bytes = [] then some [] else none
  | .pad :: codes, bytes => if bytes = [] then none else unpack codes bytes.tail
  | .integer width :: codes, bytes =>
      if bytes.length < width then none
      else (unpack codes (bytes.drop width)).map (ofLittleEndian (bytes.take width) :: ·)

theorem unpack_integer {width value : Nat} (hvalue : value < 256 ^ width) (codes : List Code)
    (rest : List Byte) :
    unpack (.integer width :: codes) (littleEndian width value ++ rest) =
      (unpack codes rest).map (value :: ·) := by
  have hlength : ¬(littleEndian width value ++ rest).length < width := by simp
  rw [unpack, if_neg hlength, List.drop_left' (length_littleEndian ..),
    List.take_left' (length_littleEndian ..), ofLittleEndian_littleEndian hvalue]

theorem unpack_pads (codes : List Code) (bytes rest : List Byte) :
    unpack (List.replicate bytes.length .pad ++ codes) (bytes ++ rest) = unpack codes rest := by
  induction bytes with
  | nil => rfl
  | cons byte bytes ih =>
      rw [List.length_cons, List.replicate_succ, List.cons_append, List.cons_append, unpack,
        if_neg (List.cons_ne_nil _ _)]
      exact ih

/-! ### Parts of a byte string -/

/-- The bytes from `start` up to `stop`, as far as there are any. -/
def slice (bytes : List Byte) (start stop : Nat) : List Byte := (bytes.take stop).drop start

theorem slice_append_left {bytes rest : List Byte} {start stop : Nat} (h : stop ≤ bytes.length) :
    slice (bytes ++ rest) start stop = slice bytes start stop := by
  rw [slice, slice, List.take_append_of_le_length h]

theorem slice_append_right (bytes rest : List Byte) (start stop : Nat) :
    slice (bytes ++ rest) (bytes.length + start) (bytes.length + stop) = slice rest start stop := by
  rw [slice, slice, List.take_length_add_append, ← List.drop_drop, List.drop_left]

theorem slice_all {bytes : List Byte} {stop : Nat} (h : stop = bytes.length) :
    slice bytes 0 stop = bytes := by
  rw [slice, h, List.take_length, List.drop_zero]

theorem slice_middle {before middle rest : List Byte} {start stop : Nat}
    (hstart : start = before.length) (hstop : stop = before.length + middle.length) :
    slice (before ++ (middle ++ rest)) start stop = middle := by
  have hslice := slice_append_right before (middle ++ rest) 0 middle.length
  rw [hstart, hstop]
  rw [Nat.add_zero, slice_append_left le_rfl, slice_all rfl] at hslice
  exact hslice

/-- A part of a part. -/
theorem slice_slice {bytes : List Byte} {start stop first last : Nat} (h : start + last ≤ stop) :
    slice (slice bytes start stop) first last = slice bytes (start + first) (start + last) := by
  rw [slice, slice, slice, List.take_drop, List.drop_drop, List.take_take, Nat.min_eq_left h]

/-- The record at an index of a table of records of one size. -/
theorem slice_flatMap {α : Type} {records : List α} {encode : α → List Byte} {size : Nat}
    (hsize : ∀ record ∈ records, (encode record).length = size) {index : Nat}
    (hindex : index < records.length) :
    slice (records.flatMap encode) (index * size) ((index + 1) * size) =
      encode records[index] := by
  induction records generalizing index with
  | nil => cases hindex
  | cons record records ih =>
      have hfirst := hsize record List.mem_cons_self
      rw [List.flatMap_cons]
      cases index with
      | zero =>
          rw [Nat.zero_mul, Nat.zero_add, Nat.one_mul,
            slice_append_left (Nat.le_of_eq hfirst.symm), slice_all hfirst.symm]
          rfl
      | succ index =>
          have hrest := ih (fun other hother => hsize other (List.mem_cons_of_mem _ hother))
            (Nat.lt_of_succ_lt_succ hindex)
          have hstart : (index + 1) * size = (encode record).length + index * size := by
            rw [hfirst]
            ring
          have hstop : (index + 1 + 1) * size = (encode record).length + (index + 1) * size := by
            rw [hfirst]
            ring
          rw [hstart, hstop, slice_append_right]
          exact hrest

theorem length_flatMap_encode {α : Type} {records : List α} {encode : α → List Byte} {size : Nat}
    (hsize : ∀ record ∈ records, (encode record).length = size) :
    (records.flatMap encode).length = records.length * size := by
  induction records with
  | nil => simp
  | cons record records ih =>
      rw [List.flatMap_cons, List.length_append, hsize record List.mem_cons_self,
        ih fun other hother => hsize other (List.mem_cons_of_mem _ hother), List.length_cons]
      ring

end TelePath.Logic
