import TelePath.Facade.PageCache

/-!
Which bytes of a file the calls of the page cache change.
-/

namespace TelePath.PageCache

open BlockTransfer (BlockGeometry)
open Logic

variable {geometry : BlockGeometry}

/-! ### Blocks and positions -/

theorem div_of_cell {block index : Nat} (hindex : index < geometry.blockSize) :
    (block * geometry.blockSize + index) / geometry.blockSize = block := by
  rw [Nat.add_comm, Nat.add_mul_div_right _ _ geometry.blockSize_pos, Nat.div_eq_of_lt hindex,
    Nat.zero_add]

theorem mod_of_cell {block index : Nat} (hindex : index < geometry.blockSize) :
    (block * geometry.blockSize + index) % geometry.blockSize = index := by
  rw [Nat.add_comm, Nat.add_mul_mod_self_right, Nat.mod_eq_of_lt hindex]

theorem block_end_le {block exponent : Nat} (hexponent : 22 ≤ exponent)
    (h : block * geometry.blockSize < 2 ^ exponent) :
    (block + 1) * geometry.blockSize ≤ 2 ^ exponent := by
  have hle : geometry.blockShift ≤ exponent := le_trans geometry.bounded.2 hexponent
  have hsplit : 2 ^ exponent = 2 ^ (exponent - geometry.blockShift) * geometry.blockSize := by
    rw [geometry.blockSize_eq, ← Nat.pow_add, Nat.sub_add_cancel hle]
  rw [hsplit] at h ⊢
  exact Nat.mul_le_mul_right _ (Nat.lt_of_mul_lt_mul_right h)

theorem mod_block_of_wrapped (position : Nat) :
    position % 2 ^ 64 % geometry.blockSize = position % geometry.blockSize := by
  refine Nat.mod_mod_of_dvd position ?_
  rw [geometry.blockSize_eq]
  exact Nat.pow_dvd_pow 2 (le_trans geometry.bounded.2 (by decide))

theorem add_rest_of_block (position : Nat) :
    (position + (geometry.blockSize - position % geometry.blockSize)) % geometry.blockSize = 0 := by
  have hparts := Nat.div_add_mod' position geometry.blockSize
  have hmod := Nat.mod_lt position geometry.blockSize_pos
  have hnext : position + (geometry.blockSize - position % geometry.blockSize) =
      (position / geometry.blockSize + 1) * geometry.blockSize := by
    rw [Nat.add_mul, Nat.one_mul]
    omega
  rw [hnext, Nat.mul_mod_left]

theorem addressable_iff {position : Nat} :
    Addressable geometry (position / geometry.blockSize) ↔ position < 2 ^ 63 := by
  have hparts := Nat.div_add_mod' position geometry.blockSize
  have hmod := Nat.mod_lt position geometry.blockSize_pos
  constructor
  · intro h
    have hend := block_end_le (by decide) h
    rw [Nat.add_mul, Nat.one_mul] at hend
    omega
  · intro h
    unfold Addressable
    omega

/-! ### Pages and the backing file -/

/-- Clean pages are what is on disk, and bytes that are not `allowed` are zero. -/
structure Sound (geometry : BlockGeometry) (allowed : Nat → Prop) (file : File) : Prop where
  clean : ∀ block page, file.pages block = some page → page.dirty = false →
    ∀ index < geometry.blockSize, page.data index = file.fromDisk geometry block index
  loading : ∀ block, file.loading block = true → file.pages block = none
  diskTail : ∀ position, (2 ^ 63 ≤ position ∨ ¬allowed position) → file.disk position = 0
  pageTail : ∀ position < 2 ^ 63, ¬allowed position →
    ∀ page, file.pages (position / geometry.blockSize) = some page →
      page.data (position % geometry.blockSize) = 0

/-- The same file to its user. -/
structure Same (geometry : BlockGeometry) (file next : File) : Prop where
  bytes : ∀ position, next.byte geometry position = file.byte geometry position
  size : next.size = file.size
  loaded : next.loaded = file.loaded
  closed : next.closed = file.closed

variable {file next : File} {allowed allowed' : Nat → Prop} {block : Nat}

theorem Same.refl (geometry : BlockGeometry) (file : File) : Same geometry file file :=
  ⟨fun _ => rfl, rfl, rfl, rfl⟩

theorem Same.trans {last : File} (h : Same geometry file next) (h' : Same geometry next last) :
    Same geometry file last :=
  ⟨fun position => (h'.bytes position).trans (h.bytes position), h'.size.trans h.size,
    h'.loaded.trans h.loaded, h'.closed.trans h.closed⟩

@[simp, grind =]
theorem pages_setPage (other : Nat) (page : Option Page) :
    (file.setPage block page).pages other = if other = block then page else file.pages other :=
  Function.update_apply ..

@[simp, grind =]
theorem loading_setPage (other : Nat) (page : Option Page) :
    (file.setPage block page).loading other = file.loading other := rfl

theorem byte_setPage_ne {position : Nat} {page : Option Page}
    (hne : position / geometry.blockSize ≠ block) :
    (file.setPage block page).byte geometry position = file.byte geometry position := by
  simp [File.byte, hne, File.setPage]

theorem byte_setPage_some {position : Nat} {page : Page}
    (heq : position / geometry.blockSize = block) :
    (file.setPage block (some page)).byte geometry position =
      page.data (position % geometry.blockSize) := by
  simp [File.byte, heq]

theorem fromDisk_of_div {position : Nat} (heq : position / geometry.blockSize = block) :
    file.fromDisk geometry block (position % geometry.blockSize) = file.disk position := by
  rw [File.fromDisk, ← heq, Nat.div_add_mod']

namespace Sound

theorem mono (h : Sound geometry allowed file)
    (hmono : ∀ position < 2 ^ 63, allowed position → allowed' position) :
    Sound geometry allowed' file where
  clean := h.clean
  loading := h.loading
  diskTail position hor := by
    have hzero := h.diskTail position
    have hposition := hmono position
    grind
  pageTail position hlt hnot :=
    h.pageTail position hlt fun hallowed => hnot (hmono position hlt hallowed)

theorem byte_eq_zero (h : Sound geometry allowed file) {position : Nat}
    (hlt : position < 2 ^ 63) (hnot : ¬allowed position) : file.byte geometry position = 0 := by
  unfold File.byte
  split
  · exact h.pageTail position hlt hnot _ ‹_›
  · exact h.diskTail position (.inr hnot)

theorem writeback (h : Sound geometry allowed file) (block : Nat) :
    Sound geometry allowed (file.writeback geometry block) ∧
      Same geometry file (file.writeback geometry block) := by
  unfold File.writeback
  split
  · rename_i page hpage
    split
    · rename_i hdirty
      refine ⟨⟨?_, ?_, ?_, ?_⟩, ⟨?_, rfl, rfl, rfl⟩⟩
      · intro other kept hkept hclean index hindex
        have hcell := @div_of_cell geometry other index hindex
        have hcell' := @mod_of_cell geometry other index hindex
        have hbefore := h.clean other
        simp only [File.fromDisk] at hbefore ⊢
        grind [File.setPage]
      · grind [h.loading, File.setPage]
      · intro position hor
        have hlt := @addressable_iff geometry position
        have hzero := h.diskTail position
        have hpages := h.pageTail position
        grind [File.setPage]
      · intro position
        have hpages := h.pageTail position
        grind
      · intro position
        by_cases heq : position / geometry.blockSize = block
        · simp [File.byte, File.setPage, heq, hpage]
        · simp [File.byte, File.setPage, heq]
    · exact ⟨h, .refl geometry file⟩
  · exact ⟨h, .refl geometry file⟩

theorem setPage (h : Sound geometry allowed file) (block : Nat) (page : Option Page)
    (hpage : ∀ kept, page = some kept →
      kept.data = file.fromDisk geometry block ∧ file.loading block = false)
    (hbyte : ∀ position, position / geometry.blockSize = block →
      file.byte geometry position = file.disk position) :
    Sound geometry allowed (file.setPage block page) ∧
      Same geometry file (file.setPage block page) := by
  have hdata := fun kept hkept => congrFun (hpage kept hkept).1
  refine ⟨⟨?_, ?_, h.diskTail, ?_⟩, ⟨fun position => ?_, rfl, rfl, rfl⟩⟩
  · intro other kept hkept hclean index hindex
    have hbefore := h.clean other kept
    change _ = file.fromDisk geometry other index
    grind
  · intro other
    have hbefore := h.loading other
    cases page <;> grind
  · intro position hlt hnot kept
    have hbefore := h.pageTail position hlt hnot kept
    have hzero := h.diskTail position (.inr hnot)
    have hdisk := @fromDisk_of_div geometry file block position
    grind
  · by_cases heq : position / geometry.blockSize = block
    · rw [hbyte position heq, ← fromDisk_of_div heq]
      cases page with
      | none => simp [File.byte, heq, File.setPage, fromDisk_of_div heq]
      | some kept => rw [byte_setPage_some heq, (hpage kept rfl).1]
    · exact byte_setPage_ne heq

theorem evict (h : Sound geometry allowed file) (block : Nat) :
    Sound geometry allowed (file.evict block) ∧ Same geometry file (file.evict block) := by
  unfold File.evict
  split
  · rename_i page hpage
    split
    · exact ⟨h, .refl geometry file⟩
    · rename_i hclean
      refine h.setPage block none nofun fun position heq => ?_
      have hdata := h.clean block page hpage (by simpa using hclean)
        (position % geometry.blockSize) (Nat.mod_lt _ geometry.blockSize_pos)
      rw [fromDisk_of_div heq] at hdata
      simpa [File.byte, heq, hpage] using hdata
  · exact ⟨h, .refl geometry file⟩

theorem stopLoad (h : Sound geometry allowed file) (block : Nat) :
    Sound geometry allowed { file with loading := Function.update file.loading block false } where
  clean := h.clean
  loading := by grind [h.loading, Function.update_apply]
  diskTail := h.diskTail
  pageTail := h.pageTail

theorem finishLoad (h : Sound geometry allowed file) (block : Nat) (success : Bool) :
    Sound geometry allowed (file.finishLoad geometry block success) ∧
      Same geometry file (file.finishLoad geometry block success) ∧
      (file.finishLoad geometry block success).loading block = false := by
  unfold File.finishLoad
  split
  · rename_i hloading
    have hnone := h.loading block hloading
    dsimp only
    split
    · obtain ⟨hsound, hsame⟩ := (h.stopLoad block).setPage block
        (some ⟨file.fromDisk geometry block, false⟩)
        (by rintro _ ⟨⟩; exact ⟨rfl, by simp⟩)
        (fun position heq => by simp [File.byte, heq, hnone])
      exact ⟨hsound, ⟨hsame.bytes, rfl, rfl, rfl⟩, by simp [File.setPage]⟩
    · exact ⟨h.stopLoad block, ⟨fun _ => rfl, rfl, rfl, rfl⟩, by simp⟩
  · rename_i hloading
    exact ⟨h, .refl geometry file, by simpa using hloading⟩

theorem runBackground (h : Sound geometry allowed file) (work : Background) :
    Sound geometry allowed (file.runBackground geometry work) ∧
      Same geometry file (file.runBackground geometry work) := by
  cases work with
  | writeback block => exact h.writeback block
  | evict block => exact h.evict block
  | finishLoad block success =>
      obtain ⟨hsound, hsame, -⟩ := h.finishLoad block success
      exact ⟨hsound, hsame⟩

theorem background (h : Sound geometry allowed file) (work : List Background) :
    Sound geometry allowed (work.foldl (File.runBackground geometry) file) ∧
      Same geometry file (work.foldl (File.runBackground geometry) file) := by
  induction work generalizing file with
  | nil => exact ⟨h, .refl geometry file⟩
  | cons first work ih =>
      obtain ⟨hsound, hsame⟩ := h.runBackground first
      obtain ⟨hlast, hsame'⟩ := ih hsound
      exact ⟨hlast, hsame.trans hsame'⟩

/-- What a call of the manager gives: the bytes of the page, or any bytes where the page is to
be cleared. -/
theorem readBuffer (h : Sound geometry allowed file) (block : Nat) (zero : Bool)
    (choice : Choice) :
    Sound geometry allowed (file.readBuffer geometry block zero choice).1 ∧
      Same geometry file (file.readBuffer geometry block zero choice).1 ∧
      ∀ data, (file.readBuffer geometry block zero choice).2 = .ok data →
        (file.readBuffer geometry block zero choice).1.loading block = false ∧
        (zero = false → ∀ position, position / geometry.blockSize = block →
          data (position % geometry.blockSize) = file.byte geometry position) := by
  obtain ⟨hsound, hsame⟩ := h.background choice.background
  unfold File.readBuffer
  dsimp only
  generalize choice.background.foldl (File.runBackground geometry) file = current at hsound hsame ⊢
  split
  · exact ⟨hsound, hsame, nofun⟩
  · obtain ⟨hended, hsame', hloading⟩ := hsound.finishLoad block choice.loadSucceeds
    generalize current.finishLoad geometry block choice.loadSucceeds = ended at *
    have hwhole := hsame.trans hsame'
    split
    · rename_i page hpage
      refine ⟨hended, hwhole, ?_⟩
      rintro _ ⟨⟩
      refine ⟨hloading, fun _ position heq => ?_⟩
      rw [← hwhole.bytes position, File.byte, heq, hpage]
    · rename_i hnone
      have hbyte : ∀ position, position / geometry.blockSize = block →
          ended.byte geometry position = ended.disk position := by
        intro position heq
        rw [File.byte, heq, hnone]
      split
      · rename_i hzero
        refine ⟨hended, hwhole, ?_⟩
        rintro _ ⟨⟩
        exact ⟨hloading, fun hnot => nomatch hzero.symm.trans hnot⟩
      · split
        · obtain ⟨hfilled, hsame''⟩ := hended.setPage block
            (some ⟨ended.fromDisk geometry block, false⟩)
            (by rintro _ ⟨⟩; exact ⟨rfl, hloading⟩) hbyte
          refine ⟨hfilled, hwhole.trans hsame'', ?_⟩
          rintro _ ⟨⟩
          refine ⟨hloading, fun _ position heq => ?_⟩
          rw [fromDisk_of_div heq, ← hwhole.bytes position, hbyte position heq]
        · exact ⟨hended, hwhole, nofun⟩

theorem store (h : Sound geometry allowed file) {data : Nat → Byte}
    (hloading : file.loading block = false)
    (hmono : ∀ position < 2 ^ 63, allowed position → allowed' position)
    (htail : ∀ position < 2 ^ 63, position / geometry.blockSize = block → ¬allowed' position →
      data (position % geometry.blockSize) = 0) :
    Sound geometry allowed' (file.setPage block (some ⟨data, true⟩)) := by
  have hwider := h.mono hmono
  refine ⟨fun other kept hkept hclean index hindex => ?_, fun other => ?_, hwider.diskTail, ?_⟩
  · have hbefore := h.clean other kept
    change _ = file.fromDisk geometry other index
    grind
  · have hbefore := h.loading other
    grind
  · intro position hlt hnot
    have hbefore := hwider.pageTail position hlt hnot
    have hnew := htail position hlt
    grind

end Sound

/-! ### Write -/

/-- How far a position is behind the offset of a write, whose positions wrap around. -/
def distance (offset : BitVec 64) (position : Nat) : Nat :=
  (position + (2 ^ 64 - offset.toNat)) % 2 ^ 64

/-- The position is one of the first `copied` positions of a write. -/
def Written (offset : BitVec 64) (copied position : Nat) : Prop :=
  position < 2 ^ 64 ∧ distance offset position < copied

instance (offset : BitVec 64) (copied position : Nat) :
    Decidable (Written offset copied position) :=
  inferInstanceAs (Decidable (_ ∧ _))

def overwrite (bytes : Nat → Byte) (offset : BitVec 64) (data : Span) (copied : Nat) : Nat → Byte :=
  fun position =>
    if Written offset copied position then data.byte (distance offset position)
    else bytes position

variable {base : File} {offset : BitVec 64} {data : Span} {copied : Nat}

theorem written_iff {position : Nat} (hends : offset.toNat + copied ≤ 2 ^ 64) :
    Written offset copied position ↔
      offset.toNat ≤ position ∧ position < offset.toNat + copied := by
  have := offset.isLt
  unfold Written distance
  omega

/-- A write after `copied` bytes, before the size is raised. -/
structure Partial (geometry : BlockGeometry) (base : File) (offset : BitVec 64) (data : Span)
    (copied : Nat) (file : File) : Prop where
  sound : Sound geometry (fun position =>
    position < base.size.toNat ∨ Written offset copied position) file
  bytes : ∀ position, file.byte geometry position =
    overwrite (base.byte geometry) offset data copied position
  size : file.size = base.size
  loaded : file.loaded = base.loaded

/-- A write that has ended after `copied` bytes. -/
structure Wrote (geometry : BlockGeometry) (base : File) (offset : BitVec 64) (data : Span)
    (copied : Nat) (file : File) : Prop where
  sound : Sound geometry (· < file.size.toNat) file
  bytes : ∀ position, file.byte geometry position =
    overwrite (base.byte geometry) offset data copied position
  size : file.size.toNat = if copied = 0 then base.size.toNat
    else max base.size.toNat ((offset.toNat + copied) % 2 ^ 64)
  loaded : file.loaded = base.loaded

theorem Partial.extendTo (h : Partial geometry base offset data copied file) (hsome : copied ≠ 0)
    (hcopied : copied ≤ data.length) :
    Wrote geometry base offset data copied (file.extendTo (offset + BitVec.ofNat 64 copied)) := by
  have hend : (offset + BitVec.ofNat 64 copied).toNat = (offset.toNat + copied) % 2 ^ 64 := by
    simp
  have hoffset := offset.isLt
  have hbounded := data.bounded
  have hsize := h.size
  -- A write that starts in the addressable half does not wrap.
  have hcovers : ∀ position < 2 ^ 63, Written offset copied position →
      position < (offset.toNat + copied) % 2 ^ 64 := by
    rintro position _ ⟨-, hwritten⟩
    unfold distance at hwritten
    omega
  have hsound : Sound geometry
      (· < max base.size.toNat ((offset.toNat + copied) % 2 ^ 64)) file := by
    refine h.sound.mono fun position hlt hor => lt_max_iff.mpr ?_
    exact hor.imp_right (hcovers position hlt)
  unfold File.extendTo
  split
  · rename_i hless
    rw [BitVec.lt_def, hend, hsize] at hless
    rw [max_eq_right hless.le] at hsound
    refine ⟨?_, h.bytes, ?_, h.loaded⟩
    · rw [hend]
      exact ⟨hsound.clean, hsound.loading, hsound.diskTail, hsound.pageTail⟩
    · rw [if_neg hsome, max_eq_right hless.le, hend]
  · rename_i hless
    rw [BitVec.lt_def, hend, hsize, not_lt] at hless
    rw [max_eq_left hless] at hsound
    refine ⟨?_, h.bytes, ?_, h.loaded⟩
    · rw [hsize]
      exact hsound
    · rw [if_neg hsome, max_eq_left hless, hsize]

theorem Partial.none_copied (h : Partial geometry base offset data 0 file) :
    Wrote geometry base offset data 0 file where
  sound := by
    refine h.sound.mono fun position _ hor => ?_
    rw [h.size]
    exact hor.resolve_right fun hwritten => Nat.not_lt_zero _ hwritten.2
  bytes := h.bytes
  size := by simp [h.size]
  loaded := h.loaded

theorem Partial.of_same (h : Partial geometry base offset data copied file)
    (hsound : Sound geometry (fun position =>
      position < base.size.toNat ∨ Written offset copied position) next)
    (hsame : Same geometry file next) : Partial geometry base offset data copied next where
  sound := hsound
  bytes position := (hsame.bytes position).trans (h.bytes position)
  size := hsame.size.trans h.size
  loaded := hsame.loaded.trans h.loaded

theorem written_add_chunk {chunk start position : Nat}
    (hstart : start = (offset.toNat + copied) % 2 ^ 64)
    (hchunk : chunk ≤ geometry.blockSize - start % geometry.blockSize)
    (hlength : copied + chunk < 2 ^ 63) :
    Written offset (copied + chunk) position ↔ Written offset copied position ∨
      start ≤ position ∧ position < start + chunk := by
  have hbegin : start / geometry.blockSize * geometry.blockSize < 2 ^ 64 :=
    lt_of_le_of_lt (Nat.div_mul_le_self _ _) (hstart ▸ Nat.mod_lt _ (by decide))
  have hend := block_end_le (by decide) hbegin
  rw [Nat.add_mul, Nat.one_mul] at hend
  have hparts := Nat.div_add_mod' start geometry.blockSize
  have hmod := Nat.mod_lt start geometry.blockSize_pos
  have hoffset := offset.isLt
  unfold Written distance
  omega

theorem distance_in_chunk {start position : Nat}
    (hstart : start = (offset.toNat + copied) % 2 ^ 64) (hge : start ≤ position)
    (_ : position < 2 ^ 64) (hlength : copied + (position - start) < 2 ^ 63) :
    distance offset position = copied + (position - start) := by
  have hoffset := offset.isLt
  unfold distance
  omega

theorem copyIn_byte {chunk position start : Nat} {old : Nat → Byte}
    (hstart : start = (offset.toNat + copied) % 2 ^ 64)
    (hchunk : chunk ≤ geometry.blockSize - start % geometry.blockSize)
    (hlength : copied + chunk ≤ data.length)
    (hbytes : file.byte geometry position =
      overwrite (base.byte geometry) offset data copied position)
    (hold : chunk ≠ geometry.blockSize →
      old (position % geometry.blockSize) = file.byte geometry position)
    (hblock : position / geometry.blockSize = start / geometry.blockSize) :
    File.copyIn old (start % geometry.blockSize) chunk data copied
        (position % geometry.blockSize) =
      overwrite (base.byte geometry) offset data (copied + chunk) position := by
  have hbounded := data.bounded
  have hwritten := @written_add_chunk geometry offset copied chunk start position hstart hchunk
    (by omega)
  have hinside := Nat.mod_lt start geometry.blockSize_pos
  have hindex := Nat.mod_lt position geometry.blockSize_pos
  have hparts := Nat.div_add_mod' position geometry.blockSize
  have hparts' := Nat.div_add_mod' start geometry.blockSize
  rw [hblock] at hparts
  unfold File.copyIn
  split
  · have hrange : start ≤ position ∧ position < start + chunk := by omega
    have hnow := hwritten.mpr (.inr hrange)
    rw [overwrite, if_pos hnow, distance_in_chunk hstart hrange.1 hnow.1 (by omega)]
    congr 1
    omega
  · have hrange : ¬(start ≤ position ∧ position < start + chunk) := by omega
    rw [hold (by omega), hbytes]
    simp only [overwrite, hwritten, hrange, or_false]

theorem Partial.round (h : Partial geometry base offset data copied file) {chunk start : Nat}
    {choice : Choice} {current : File} {old : Nat → Byte}
    (hstart : start = (offset.toNat + copied) % 2 ^ 64)
    (hchunk : chunk ≤ geometry.blockSize - start % geometry.blockSize)
    (hlength : copied + chunk ≤ data.length)
    (hbuffer : file.readBuffer geometry (start / geometry.blockSize)
      (decide (chunk = geometry.blockSize)) choice = (current, .ok old)) :
    Partial geometry base offset data (copied + chunk)
      (current.setPage (start / geometry.blockSize)
        (some ⟨File.copyIn old (start % geometry.blockSize) chunk data copied, true⟩)) := by
  obtain ⟨hsound, hsame, hdata⟩ := h.sound.readBuffer (start / geometry.blockSize)
    (decide (chunk = geometry.blockSize)) choice
  rw [hbuffer] at hsound hsame hdata
  obtain ⟨hloading, hold⟩ := hdata old rfl
  have hbounded := data.bounded
  have hbyte := fun position hblock => copyIn_byte hstart hchunk hlength (h.bytes position)
    (fun hpart => hold (by simpa using hpart) position hblock) hblock
  have hwritten := fun position => @written_add_chunk geometry offset copied chunk start position
    hstart hchunk (by omega)
  refine ⟨hsound.store hloading ?_ ?_, fun position => ?_, hsame.size.trans h.size,
    hsame.loaded.trans h.loaded⟩
  · exact fun position _ hor => hor.imp_right fun hbefore => (hwritten position).mpr (.inl hbefore)
  · intro position hlt hblock hnot
    rw [not_or] at hnot
    rw [hbyte position hblock, overwrite, if_neg hnot.2]
    have hbefore : ¬Written offset copied position :=
      fun hbefore => hnot.2 ((hwritten position).mpr (.inl hbefore))
    have hzero := h.sound.byte_eq_zero hlt (not_or.mpr ⟨hnot.1, hbefore⟩)
    rwa [h.bytes position, overwrite, if_neg hbefore] at hzero
  · by_cases hblock : position / geometry.blockSize = start / geometry.blockSize
    · rw [byte_setPage_some hblock]
      exact hbyte position hblock
    · rw [byte_setPage_ne hblock, hsame.bytes position, h.bytes position]
      have hrange : ¬(start ≤ position ∧ position < start + chunk) := by
        rintro ⟨hge, hlt⟩
        refine hblock ?_
        have hparts := Nat.div_add_mod' start geometry.blockSize
        have hmod := Nat.mod_lt start geometry.blockSize_pos
        rw [show position = start / geometry.blockSize * geometry.blockSize +
          (position - start / geometry.blockSize * geometry.blockSize) by omega,
          div_of_cell (by omega)]
      simp only [overwrite, hwritten, hrange, or_false]

/-- Of the rounds of a write, from `start` bytes on, the first that fails is the one after
`copied` bytes. -/
def FailsAfter (geometry : BlockGeometry) (file : File) (offset : BitVec 64) (data : Span)
    (start : Nat) (choices : List Choice) (copied : Nat) (error : Error) : Prop :=
  ∃ done failing rest reached, choices = done ++ failing :: rest ∧
    file.writeRounds geometry offset data start done = some (reached, copied) ∧
    (reached.writeRound geometry offset data copied failing).2 = .error error

/-- A round ends with the data or at a block boundary. -/
theorem chunk_boundary {start chunk : Nat} (hmore : copied < data.length)
    (hstart : start = (offset.toNat + copied) % 2 ^ 64)
    (hchunk : chunk =
      min (geometry.blockSize - start % geometry.blockSize) (data.length - copied)) :
    copied + chunk = data.length ∨
      (offset.toNat + (copied + chunk)) % geometry.blockSize = 0 := by
  rcases le_total (geometry.blockSize - start % geometry.blockSize)
    (data.length - copied) with hfull | hlast
  · right
    rw [hchunk, min_eq_left hfull, hstart, mod_block_of_wrapped, ← Nat.add_assoc,
      add_rest_of_block]
  · left
    omega

theorem writeLoop_wrote {choices : List Choice} {result : File × Status}
    (hlength : data.length ≠ 0) (hcopied : copied ≤ data.length)
    (haligned : copied = 0 ∨ copied = data.length ∨
      (offset.toNat + copied) % geometry.blockSize = 0)
    (h : Partial geometry base offset data copied file)
    (hrun : file.writeLoop geometry offset data copied choices = some result) :
    (result.2 = none → Wrote geometry base offset data data.length result.1) ∧
      ∀ error, result.2 = some error → ∃ last < data.length,
        Wrote geometry base offset data last result.1 ∧
        (last = 0 ∨ (offset.toNat + last) % geometry.blockSize = 0) ∧
        FailsAfter geometry file offset data copied choices last error := by
  have hfinish : ∀ {file copied}, ¬copied < data.length → copied ≤ data.length →
      Partial geometry base offset data copied file →
      Wrote geometry base offset data data.length (file.extendTo (offset + data.length)) := by
    intro file copied hall hcopied h
    obtain rfl : copied = data.length := by omega
    exact h.extendTo hlength hcopied
  induction choices generalizing file copied with
  | nil =>
      rw [File.writeLoop] at hrun
      split at hrun <;> cases hrun
      exact ⟨fun _ => hfinish ‹_› hcopied h, nofun⟩
  | cons choice choices ih =>
      rw [File.writeLoop] at hrun
      split at hrun
      · rename_i hmore
        obtain ⟨⟨current, outcome⟩, hround⟩ :
          ∃ round, file.writeRound geometry offset data copied choice = round := ⟨_, rfl⟩
        rw [hround] at hrun
        have hbuffers := hround
        unfold File.writeRound at hbuffers
        dsimp only at hbuffers
        obtain ⟨start, hstart⟩ : ∃ start, start = (offset.toNat + copied) % 2 ^ 64 := ⟨_, rfl⟩
        rw [show (offset + BitVec.ofNat 64 copied).toNat = start by simp [hstart]] at hbuffers
        obtain ⟨chunk, hchunk⟩ : ∃ chunk, chunk =
            min (geometry.blockSize - start % geometry.blockSize) (data.length - copied) :=
          ⟨_, rfl⟩
        rw [← hchunk] at hbuffers
        split at hbuffers
        · rename_i error hbuffer
          cases hbuffers
          cases hrun
          obtain ⟨hsound, hsame, -⟩ := h.sound.readBuffer (start / geometry.blockSize)
            (decide (chunk = geometry.blockSize)) choice
          rw [hbuffer] at hsound hsame
          have hcurrent := h.of_same hsound hsame
          refine ⟨nofun, ?_⟩
          rintro _ ⟨⟩
          refine ⟨copied, hmore, ?_, haligned.imp_right fun hor => hor.resolve_left hmore.ne,
            [], choice, choices, file, rfl, rfl, by rw [hround]⟩
          split
          · exact hcurrent.extendTo ‹_› hcopied
          · rename_i hzero
            obtain rfl : copied = 0 := by omega
            exact hcurrent.none_copied
        · rename_i old hbuffer
          cases hbuffers
          have hle : copied + chunk ≤ data.length := by omega
          have hnext := h.round hstart (by omega) hle hbuffer
          have hboundary := chunk_boundary hmore hstart hchunk
          obtain ⟨hok, hfailed⟩ := ih hle (.inr hboundary) hnext hrun
          refine ⟨hok, fun error herror => ?_⟩
          obtain ⟨last, hless, hwrote, hlast, done, failing, rest, reached, rfl, hdone, hfails⟩ :=
            hfailed error herror
          refine ⟨last, hless, hwrote, hlast, choice :: done, failing, rest, reached, rfl, ?_,
            hfails⟩
          rw [File.writeRounds, if_pos hmore, hround]
          exact hdone
      · cases hrun
        exact ⟨fun _ => hfinish ‹_› hcopied h, nofun⟩

/-- The reachable files: sound for their size, and untouched before the first call. -/
structure Valid (geometry : BlockGeometry) (file : File) : Prop where
  sound : Sound geometry (· < file.logicalSize) file
  untouched : file.loaded = false → Untouched file

theorem Untouched.valid (h : Untouched file) : Valid geometry file where
  sound := by
    have hsize : file.logicalSize = file.backingSize := by simp [File.logicalSize, h.loaded]
    rw [hsize]
    refine ⟨?_, ?_, ?_, ?_⟩
    · intro block page hpage
      exact nomatch hpage.symm.trans (h.pages block)
    · exact fun block _ => h.pages block
    · have := h.offsets
      exact fun position hor => h.zeros position (by omega)
    · intro position _ _ page hpage
      exact nomatch hpage.symm.trans (h.pages _)
  untouched _ := h

theorem Sound.valid (hloaded : file.loaded = true)
    (h : Sound geometry (· < file.size.toNat) file) : Valid geometry file where
  sound := by
    rw [File.logicalSize, if_pos hloaded]
    exact h
  untouched hnot := nomatch hloaded.symm.trans hnot

theorem Valid.state (h : Valid geometry file) (failure : Option Error) :
    Valid geometry (file.state failure).1 ∧
      (file.state failure).1.logicalSize = file.logicalSize ∧
      (∀ position, (file.state failure).1.byte geometry position = file.byte geometry position) ∧
      ((file.state failure).2 = none → (file.state failure).1.loaded = true) := by
  unfold File.state
  split
  · rename_i hloaded
    exact ⟨h, rfl, fun _ => rfl, fun _ => hloaded⟩
  · rename_i hloaded
    have huntouched := h.untouched (by simpa using hloaded)
    split
    · exact ⟨h, rfl, fun _ => rfl, nofun⟩
    · have hsize : (BitVec.ofNat 64 file.backingSize).toNat = file.logicalSize := by
        have := huntouched.offsets
        rw [File.logicalSize, if_neg hloaded, BitVec.toNat_ofNat]
        omega
      refine ⟨Sound.valid rfl ?_, by simpa [File.logicalSize] using hsize, fun _ => rfl,
        fun _ => rfl⟩
      rw [hsize]
      exact ⟨h.sound.clean, h.sound.loading, h.sound.diskTail, h.sound.pageTail⟩

theorem Valid.loaded_sound (h : Valid geometry file) (hloaded : file.loaded = true) :
    Sound geometry (· < file.size.toNat) file := by
  have hsound := h.sound
  rwa [File.logicalSize, if_pos hloaded] at hsound

theorem logicalSize_of_loaded (hloaded : file.loaded = true) :
    file.logicalSize = file.size.toNat := by
  rw [File.logicalSize, if_pos hloaded]

theorem Valid.write {stateFailure : Option Error} {choices : List Choice} {result : File × Status}
    (h : Valid geometry file)
    (hrun : file.write geometry offset data stateFailure choices = some result) :
    Valid geometry result.1 ∧ ∃ copied ≤ data.length,
      (∀ position, result.1.byte geometry position =
        overwrite (file.byte geometry) offset data copied position) ∧
      result.1.logicalSize = (if copied = 0 then file.logicalSize
        else max file.logicalSize ((offset.toNat + copied) % 2 ^ 64)) ∧
      (result.2 = none → copied = data.length) ∧
      ∀ error, result.2 = some error → file.closed = false → copied < data.length ∧
        (copied = 0 ∧ (file.state stateFailure).2 = some error ∨
          (copied = 0 ∨ (offset.toNat + copied) % geometry.blockSize = 0) ∧
            FailsAfter geometry (file.state stateFailure).1 offset data 0 choices copied
              error) := by
  have hnothing : ∀ position, file.byte geometry position =
      overwrite (file.byte geometry) offset data 0 position := by
    intro position
    rw [overwrite, if_neg fun hwritten => Nat.not_lt_zero _ hwritten.2]
  unfold File.write at hrun
  split at hrun
  · rename_i hclosed
    cases hrun
    exact ⟨h, 0, Nat.zero_le _, hnothing, rfl, nofun,
      fun _ _ hopen => nomatch hclosed.symm.trans hopen⟩
  · split at hrun
    · rename_i hempty
      cases hrun
      exact ⟨h, 0, Nat.zero_le _, hnothing, rfl, fun _ => hempty.symm, nofun⟩
    · rename_i hlength
      obtain ⟨hvalid, hsize, hbytes, hloaded⟩ := h.state stateFailure
      rcases hstate : file.state stateFailure with ⟨current, status⟩
      rw [hstate] at hvalid hsize hbytes hloaded hrun
      have hsame : current.byte geometry = file.byte geometry := funext hbytes
      cases status with
      | some error =>
          cases hrun
          refine ⟨hvalid, 0, Nat.zero_le _, fun position => ?_, hsize, nofun,
            fun _ herror _ => ⟨by omega, .inl ⟨rfl, herror⟩⟩⟩
          rw [hbytes position]
          exact hnothing position
      | none =>
          have hcurrent := hloaded rfl
          have hstart : Partial geometry current offset data 0 current := by
            refine ⟨(hvalid.loaded_sound hcurrent).mono fun _ _ hold => .inl hold, ?_, rfl, rfl⟩
            rw [hsame]
            exact hnothing
          obtain ⟨hok, hfailed⟩ :=
            writeLoop_wrote hlength (Nat.zero_le _) (.inl rfl) hstart hrun
          have hwrote : ∀ {copied}, Wrote geometry current offset data copied result.1 →
              Valid geometry result.1 ∧ (∀ position, result.1.byte geometry position =
                overwrite (file.byte geometry) offset data copied position) ∧
              result.1.logicalSize = (if copied = 0 then file.logicalSize
                else max file.logicalSize ((offset.toNat + copied) % 2 ^ 64)) := by
            intro copied h
            have hafter : result.1.loaded = true := h.loaded.trans hcurrent
            refine ⟨h.sound.valid hafter, hsame ▸ h.bytes, ?_⟩
            rw [← hsize, logicalSize_of_loaded hcurrent, logicalSize_of_loaded hafter]
            exact h.size
          cases hresult : result.2 with
          | none =>
              obtain ⟨hlast, hbytes', hsize'⟩ := hwrote (hok hresult)
              exact ⟨hlast, data.length, le_refl _, hbytes', hsize', fun _ => rfl, nofun⟩
          | some error =>
              obtain ⟨copied, hless, h, hboundary, hfails⟩ := hfailed error hresult
              obtain ⟨hlast, hbytes', hsize'⟩ := hwrote h
              refine ⟨hlast, copied, hless.le, hbytes', hsize', nofun, ?_⟩
              rintro _ ⟨⟩ -
              exact ⟨hless, .inr ⟨hboundary, hfails⟩⟩

/-! ### Truncate -/

/-- Nothing but zeros is resident from `bound` on, and nothing is being loaded there. -/
def Cut (geometry : BlockGeometry) (bound : Nat) (file : File) : Prop :=
  ∀ position, bound ≤ position →
    (∀ page, file.pages (position / geometry.blockSize) = some page →
      page.data (position % geometry.blockSize) = 0) ∧
    file.loading (position / geometry.blockSize) = false

namespace Cut

variable {bound : Nat}

theorem finishLoad (h : Cut geometry bound file) (block : Nat) (success : Bool) :
    Cut geometry bound (file.finishLoad geometry block success) := by
  intro position hposition
  have hbefore := h position hposition
  unfold File.finishLoad
  split
  · dsimp only
    split <;> grind [Function.update_apply]
  · exact hbefore

theorem runBackground (h : Cut geometry bound file) (work : Background) :
    Cut geometry bound (file.runBackground geometry work) := by
  cases work with
  | writeback block =>
      intro position hposition
      have hbefore := h position hposition
      grind [File.runBackground, File.writeback]
  | evict block =>
      intro position hposition
      have hbefore := h position hposition
      grind [File.runBackground, File.evict]
  | finishLoad block success => exact h.finishLoad block success

theorem background (h : Cut geometry bound file) (work : List Background) :
    Cut geometry bound (work.foldl (File.runBackground geometry) file) := by
  induction work generalizing file with
  | nil => exact h
  | cons first work ih => exact ih (h.runBackground first)

theorem readBuffer (h : Cut geometry bound file)
    (hblock : ∀ position, bound ≤ position → position / geometry.blockSize ≠ block)
    (choice : Choice) : Cut geometry bound (file.readBuffer geometry block false choice).1 := by
  have hcurrent := h.background choice.background
  unfold File.readBuffer
  dsimp only
  generalize choice.background.foldl (File.runBackground geometry) file = current at hcurrent ⊢
  split
  · exact hcurrent
  · have hended := hcurrent.finishLoad block choice.loadSucceeds
    generalize current.finishLoad geometry block choice.loadSucceeds = ended at *
    split
    · exact hended
    · split
      · exact hended
      · split
        · intro position hposition
          simpa [File.setPage, hblock position hposition] using hended position hposition
        · exact hended

end Cut

theorem Sound.dropFileBuffers (h : Sound geometry allowed file) (firstBlock : Nat)
    (busy : List Nat) (choice : Choice) {result : File × Status}
    (hresult : file.dropFileBuffers geometry firstBlock busy choice = result) :
    Sound geometry allowed result.1 ∧ result.1.size = file.size ∧
      result.1.loaded = file.loaded ∧
      (∀ position, position / geometry.blockSize < firstBlock →
        result.1.byte geometry position = file.byte geometry position) ∧
      (result.2 = none → Cut geometry (firstBlock * geometry.blockSize) result.1) := by
  obtain ⟨hsound, hsame⟩ := h.background choice.background
  unfold File.dropFileBuffers at hresult
  dsimp only at hresult
  generalize choice.background.foldl (File.runBackground geometry) file = current at *
  split at hresult
  · subst hresult
    exact ⟨hsound, hsame.size, hsame.loaded, fun position _ => hsame.bytes position, nofun⟩
  · subst hresult
    have hkept : ∀ block page, (if firstBlock ≤ block ∧ block ∉ busy then none
        else current.pages block) = some page → current.pages block = some page := by
      grind
    refine ⟨⟨fun block page hpage => hsound.clean block page (hkept block page hpage), ?_,
      hsound.diskTail, fun position hlt hnot page hpage =>
        hsound.pageTail position hlt hnot page (hkept _ page hpage)⟩, hsame.size, hsame.loaded,
      ?_, ?_⟩
    · intro block
      have hbefore := hsound.loading block
      grind
    · intro position hlt
      have hnot : ¬firstBlock ≤ position / geometry.blockSize := by omega
      rw [← hsame.bytes position]
      simp [File.byte, hnot]
    · intro hok position hposition
      have hge : firstBlock ≤ position / geometry.blockSize :=
        (Nat.le_div_iff_mul_le geometry.blockSize_pos).mpr hposition
      refine ⟨fun page hpage => ?_, by simp [hge]⟩
      -- A page that stays is in use, and then the call fails.
      have hbusy : position / geometry.blockSize ∈ busy := by
        grind
      have hany : (busy.any fun block =>
          decide (firstBlock ≤ block) && (current.pages block).isSome) = true :=
        List.any_eq_true.mpr ⟨_, hbusy, by simp [hge, hkept _ page hpage]⟩
      simp [hany] at hok

theorem roundUp_of_part {size : Nat} (hpart : size % geometry.blockSize ≠ 0) :
    (size + geometry.blockSize - 1) / geometry.blockSize = size / geometry.blockSize + 1 := by
  have hparts := Nat.div_add_mod' size geometry.blockSize
  have hmod := Nat.mod_lt size geometry.blockSize_pos
  have hsum : size + geometry.blockSize - 1 =
      (size / geometry.blockSize + 1) * geometry.blockSize + (size % geometry.blockSize - 1) := by
    rw [Nat.add_mul, Nat.one_mul]
    omega
  rw [hsum, div_of_cell (by omega)]

theorem roundUp_of_whole {size : Nat} (hwhole : size % geometry.blockSize = 0) :
    (size + geometry.blockSize - 1) / geometry.blockSize * geometry.blockSize = size := by
  have hparts := Nat.div_add_mod' size geometry.blockSize
  have hpos := geometry.blockSize_pos
  have hsum : size + geometry.blockSize - 1 =
      size / geometry.blockSize * geometry.blockSize + (geometry.blockSize - 1) := by
    omega
  rw [hsum, div_of_cell (by omega)]
  omega

theorem div_lt_roundUp {position size : Nat} (hlt : position < size) :
    position / geometry.blockSize < (size + geometry.blockSize - 1) / geometry.blockSize := by
  by_cases hwhole : size % geometry.blockSize = 0
  · rw [Nat.div_lt_iff_lt_mul geometry.blockSize_pos, roundUp_of_whole hwhole]
    exact hlt
  · rw [roundUp_of_part hwhole, Nat.lt_succ_iff]
    exact Nat.div_le_div_right hlt.le

theorem Sound.clearTail (h : Sound geometry allowed file) (size : BitVec 64) (choice : Choice)
    {result : File × Status} (hresult : file.clearTail geometry size choice = result) :
    Sound geometry allowed result.1 ∧ result.1.size = file.size ∧
      result.1.loaded = file.loaded ∧
      (result.2 = none → ∀ position < size.toNat,
        result.1.byte geometry position = file.byte geometry position) ∧
      (result.2 = none → Cut geometry
        ((size.toNat + geometry.blockSize - 1) / geometry.blockSize * geometry.blockSize) file →
        Cut geometry size.toNat result.1) := by
  unfold File.clearTail at hresult
  dsimp only at hresult
  split at hresult
  · rename_i hpart
    obtain ⟨hsound, hsame, hdata⟩ :=
      h.readBuffer (size.toNat / geometry.blockSize) false choice
    have hcut := fun bound (hcut : Cut geometry bound file) (hblock : ∀ position,
      bound ≤ position → position / geometry.blockSize ≠ size.toNat / geometry.blockSize) =>
        hcut.readBuffer hblock choice
    rcases hbuffer : file.readBuffer geometry (size.toNat / geometry.blockSize) false choice with
      ⟨current, answer⟩
    rw [hbuffer] at hsound hsame hdata hresult hcut
    cases answer with
    | error error =>
        subst hresult
        exact ⟨hsound, hsame.size, hsame.loaded, nofun, nofun⟩
    | ok old =>
        subst hresult
        obtain ⟨hloading, hold⟩ := hdata old rfl
        have hindex : ∀ position, position / geometry.blockSize =
            size.toNat / geometry.blockSize →
            (size.toNat % geometry.blockSize ≤ position % geometry.blockSize ↔
              size.toNat ≤ position) := by
          intro position hblock
          have hparts := Nat.div_add_mod' position geometry.blockSize
          have hparts' := Nat.div_add_mod' size.toNat geometry.blockSize
          rw [hblock] at hparts
          omega
        refine ⟨hsound.store hloading (fun _ _ hallowed => hallowed) ?_, hsame.size, hsame.loaded,
          fun _ position hlt => ?_, fun _ hbound position hposition => ?_⟩
        · intro position hlt hblock hnot
          split
          · rfl
          · rw [hold rfl position hblock]
            exact h.byte_eq_zero hlt hnot
        · by_cases hblock : position / geometry.blockSize = size.toNat / geometry.blockSize
          · have hbefore := mt (hindex position hblock).mp (by omega)
            rw [byte_setPage_some hblock]
            exact (if_neg hbefore).trans (hold rfl position hblock)
          · rw [byte_setPage_ne hblock, hsame.bytes position]
        · rw [roundUp_of_part hpart] at hbound
          have hblocks : ∀ position,
              (size.toNat / geometry.blockSize + 1) * geometry.blockSize ≤ position →
              position / geometry.blockSize ≠ size.toNat / geometry.blockSize := by
            intro position hge
            have := (Nat.le_div_iff_mul_le geometry.blockSize_pos).mpr hge
            omega
          by_cases hblock : position / geometry.blockSize = size.toNat / geometry.blockSize
          · refine ⟨fun page hpage => ?_, by rw [hblock]; exact hloading⟩
            simp only [File.setPage, hblock, Function.update_self, Option.some.injEq] at hpage
            subst hpage
            exact if_pos ((hindex position hblock).mpr hposition)
          · have hlater : size.toNat / geometry.blockSize ≤ position / geometry.blockSize :=
              Nat.div_le_div_right hposition
            have hge := (Nat.le_div_iff_mul_le geometry.blockSize_pos).mp
              (show size.toNat / geometry.blockSize + 1 ≤ position / geometry.blockSize by omega)
            simpa [File.setPage, hblock] using hcut _ hbound hblocks position hge
  · rename_i hwhole
    subst hresult
    refine ⟨h, rfl, rfl, fun _ _ _ => rfl, fun _ hcut => ?_⟩
    rwa [roundUp_of_whole (by omega)] at hcut

theorem size_accepted {size : BitVec 64} (hsign : ¬size.toInt < 0) : size.toNat < 2 ^ 63 := by
  rw [BitVec.toInt_eq_toNat_cond] at hsign
  split at hsign <;> omega

theorem Sound.setFileSize (h : Sound geometry allowed file) {size : BitVec 64}
    (hcut : Cut geometry size.toNat file) {failure : Option Error} {result : File × Status}
    (hresult : file.setFileSize size failure = result) (hok : result.2 = none) :
    Sound geometry (· < size.toNat) result.1 ∧
      ∀ position < size.toNat, result.1.byte geometry position = file.byte geometry position := by
  unfold File.setFileSize at hresult
  split at hresult
  · subst hresult
    cases hok
  · split at hresult
    · subst hresult
      cases hok
    · rename_i hsign
      have hsmall := size_accepted hsign
      subst hresult
      refine ⟨⟨?_, h.loading, ?_, ?_⟩, ?_⟩
      · intro block page hpage hclean index hindex
        rw [File.fromDisk]
        dsimp only
        split
        · exact h.clean block page hpage hclean index hindex
        · rename_i hnot
          have hzero := (hcut (block * geometry.blockSize + index) (by omega)).1
          rw [div_of_cell hindex, mod_of_cell hindex] at hzero
          exact hzero page hpage
      · intro position hor
        exact if_neg (by omega)
      · intro position _ hnot page hpage
        exact (hcut position (by omega)).1 page hpage
      · intro position hlt
        simp only [File.byte]
        split
        · rfl
        · exact if_pos hlt

theorem setFileSize_frame (file : File) (size : BitVec 64) (failure : Option Error) :
    (file.setFileSize size failure).1.size = file.size ∧
      (file.setFileSize size failure).1.loaded = file.loaded ∧
      ((file.setFileSize size failure).2 ≠ none →
        (file.setFileSize size failure).1 = file) ∧
      ((file.setFileSize size failure).2 = none → size.toNat < 2 ^ 63) := by
  unfold File.setFileSize
  split
  · exact ⟨rfl, rfl, fun _ => rfl, nofun⟩
  · split
    · exact ⟨rfl, rfl, fun _ => rfl, nofun⟩
    · rename_i hsign
      exact ⟨rfl, rfl, fun hne => absurd rfl hne, fun _ => size_accepted hsign⟩

theorem Sound.shrink {size : BitVec 64} {choice : File.TruncateChoice} {result : File × Status}
    (h : Sound geometry allowed file) (hresult : file.shrink geometry size choice = result) :
    result.1.size = file.size ∧ result.1.loaded = file.loaded ∧
      (result.2 ≠ none → Sound geometry allowed result.1) ∧
      (result.2 = none → Sound geometry (· < size.toNat) result.1 ∧
        ∀ position < size.toNat,
          result.1.byte geometry position = file.byte geometry position) := by
  unfold File.shrink at hresult
  dsimp only at hresult
  split at hresult
  · rename_i dropped error hdrop
    subst hresult
    obtain ⟨hsound, hsize, hloaded, -, -⟩ := h.dropFileBuffers _ _ _ hdrop
    exact ⟨hsize, hloaded, fun _ => hsound, nofun⟩
  · rename_i dropped hdrop
    obtain ⟨hsound, hsize, hloaded, hbytes, hcut⟩ := h.dropFileBuffers _ _ _ hdrop
    split at hresult
    · rename_i cleared error hclear
      subst hresult
      obtain ⟨hsound', hsize', hloaded', -, -⟩ := hsound.clearTail _ _ hclear
      exact ⟨hsize'.trans hsize, hloaded'.trans hloaded, fun _ => hsound', nofun⟩
    · rename_i cleared hclear
      obtain ⟨hsound', hsize', hloaded', hbytes', hcut'⟩ := hsound.clearTail _ _ hclear
      obtain ⟨hcurrent, hsame⟩ := hsound'.background choice.background
      have hlater := fun hcut => (hcut' rfl hcut).background choice.background
      generalize choice.background.foldl (File.runBackground geometry) cleared = current at *
      subst hresult
      obtain ⟨hsize'', hloaded'', hfailed, hsmall⟩ :=
        setFileSize_frame current size choice.resizeFailure
      refine ⟨hsize''.trans (hsame.size.trans (hsize'.trans hsize)),
        hloaded''.trans (hsame.loaded.trans (hloaded'.trans hloaded)),
        fun hne => (hfailed hne).symm ▸ hcurrent, fun hok => ?_⟩
      -- The backend accepts the size, so that rounding it up does not wrap.
      have hround : (size + BitVec.ofNat 64 geometry.blockSize - 1).toNat =
          size.toNat + geometry.blockSize - 1 := by
        have := hsmall hok
        have := geometry.blockSize_le
        have := geometry.blockSize_pos
        rw [BitVec.toNat_sub, BitVec.toNat_add, BitVec.toNat_ofNat,
          show (1 : BitVec 64).toNat = 1 from rfl]
        omega
      rw [hround] at hbytes hcut
      obtain ⟨hfinal, hbytes''⟩ := hcurrent.setFileSize (hlater (hcut rfl)) rfl hok
      refine ⟨hfinal, fun position hlt => ?_⟩
      rw [hbytes'' position hlt, hsame.bytes position, hbytes' rfl position hlt]
      exact hbytes position (div_lt_roundUp hlt)

theorem truncate_keeps {size : BitVec 64} {choice : File.TruncateChoice} {result : File × Status}
    (h : Valid geometry file) (hresult : file.truncate geometry size choice = result) :
    Valid geometry result.1 ∧
      (result.2 = none → ∀ position < min file.logicalSize size.toNat,
        result.1.byte geometry position = file.byte geometry position) := by
  unfold File.truncate at hresult
  split at hresult
  · subst hresult
    exact ⟨h, nofun⟩
  · obtain ⟨hvalid, hsize, hbytes, hloaded⟩ := h.state choice.stateFailure
    rcases hstate : file.state choice.stateFailure with ⟨current, status⟩
    rw [hstate] at hvalid hsize hbytes hloaded hresult
    cases status with
    | some error =>
        subst hresult
        exact ⟨hvalid, nofun⟩
    | none =>
        have hcurrent : current.loaded = true := hloaded rfl
        have hsound : Sound geometry (· < current.size.toNat) current :=
          hvalid.loaded_sound hcurrent
        dsimp only at hresult
        split at hresult
        · split at hresult
          · rename_i shrunk error hshrink
            subst hresult
            obtain ⟨hsize', hloaded', hfailed, -⟩ := hsound.shrink hshrink
            refine ⟨Sound.valid (hloaded'.trans hcurrent) ?_, nofun⟩
            rw [hsize']
            exact hfailed nofun
          · rename_i shrunk hshrink
            subst hresult
            obtain ⟨-, hloaded', -, hok⟩ := hsound.shrink hshrink
            obtain ⟨hfinal, hkept⟩ := hok rfl
            refine ⟨Sound.valid (hloaded'.trans hcurrent)
              ⟨hfinal.clean, hfinal.loading, hfinal.diskTail, hfinal.pageTail⟩, ?_⟩
            intro _ position hlt
            exact (hkept position (by omega)).trans (hbytes position)
        · rename_i hgrow
          subst hresult
          have hge : current.size.toNat ≤ size.toNat := by
            rw [BitVec.lt_def] at hgrow
            omega
          have hwider : Sound geometry (· < size.toNat) current :=
            hsound.mono fun position _ hlt => by omega
          exact ⟨Sound.valid hcurrent
            ⟨hwider.clean, hwider.loading, hwider.diskTail, hwider.pageTail⟩,
            fun _ position _ => hbytes position⟩

/-! ### Read, Sync and background work -/

theorem Sound.readahead (h : Sound geometry allowed file) (maxReadaheadBlocks : Nat)
    (offset : BitVec 64) (length : Nat) (started : List Nat) :
    Sound geometry allowed (file.readahead geometry maxReadaheadBlocks offset length started) ∧
      Same geometry file (file.readahead geometry maxReadaheadBlocks offset length started) := by
  unfold File.readahead
  split
  · exact ⟨h, .refl geometry file⟩
  · dsimp only
    split
    · exact ⟨⟨h.clean, h.loading, h.diskTail, h.pageTail⟩, ⟨fun _ => rfl, rfl, rfl, rfl⟩⟩
    · split
      · exact ⟨⟨h.clean, h.loading, h.diskTail, h.pageTail⟩, ⟨fun _ => rfl, rfl, rfl, rfl⟩⟩
      · refine ⟨⟨h.clean, fun block hloading => ?_, h.diskTail, h.pageTail⟩,
          ⟨fun _ => rfl, rfl, rfl, rfl⟩⟩
        simp only [File.prefetchBuffer, Bool.or_eq_true, Bool.and_eq_true,
          Option.isNone_iff_eq_none] at hloading
        exact hloading.elim (h.loading block) fun hnew => hnew.2

theorem Sound.readLoop {length : Nat} {out : Nat → Byte} {choices : List Choice}
    {result : File × Result (Nat × (Nat → Byte))} (h : Sound geometry allowed file)
    (hends : offset.toNat + length ≤ 2 ^ 64) (hcopied : copied ≤ length)
    (hrun : file.readLoop geometry offset length out copied choices = some result) :
    Sound geometry allowed result.1 ∧ Same geometry file result.1 ∧
      ∀ count bytes, result.2 = .ok (count, bytes) → count = length ∧
        ∀ index < length, bytes index =
          if index < copied then out index else file.byte geometry (offset.toNat + index) := by
  have hfinish : ∀ {out : Nat → Byte} {file : File} {copied : Nat}, ¬copied < length →
      ∀ count bytes, (Except.ok (length, out) : Result (Nat × (Nat → Byte))) =
        .ok (count, bytes) → count = length ∧ ∀ index < length, bytes index =
          if index < copied then out index else file.byte geometry (offset.toNat + index) := by
    rintro out file copied hall _ _ ⟨⟩
    exact ⟨rfl, fun index hindex => (if_pos (by omega)).symm⟩
  induction choices generalizing file out copied with
  | nil =>
      rw [File.readLoop] at hrun
      split at hrun <;> cases hrun
      exact ⟨h, .refl geometry file, hfinish ‹_›⟩
  | cons choice choices ih =>
      rw [File.readLoop] at hrun
      split at hrun
      · dsimp only at hrun
        obtain ⟨start, hstart⟩ : ∃ start, start = offset.toNat + copied := ⟨_, rfl⟩
        have hposition : (offset + BitVec.ofNat 64 copied).toNat = start := by
          rw [BitVec.toNat_add, BitVec.toNat_ofNat]
          omega
        rw [hposition] at hrun
        obtain ⟨hsound, hsame, hdata⟩ := h.readBuffer (start / geometry.blockSize) false choice
        split at hrun
        · rename_i current error hbuffer
          cases hrun
          rw [hbuffer] at hsound hsame
          exact ⟨hsound, hsame, nofun⟩
        · rename_i current data hbuffer
          rw [hbuffer] at hsound hsame hdata
          obtain ⟨-, hread⟩ := hdata data rfl
          obtain ⟨hlast, hsame', hlater⟩ := ih hsound (by omega) hrun
          refine ⟨hlast, hsame.trans hsame', fun count bytes hok => ?_⟩
          obtain ⟨hcount, hbytes⟩ := hlater count bytes hok
          refine ⟨hcount, fun index hindex => ?_⟩
          rw [hbytes index hindex, hsame.bytes]
          have hmod := Nat.mod_lt start geometry.blockSize_pos
          have hparts := Nat.div_add_mod' start geometry.blockSize
          by_cases hold : index < copied
          · rw [if_pos (by omega), if_neg (by omega), if_pos hold]
          · rw [if_neg hold]
            split
            · -- The byte is in the chunk of this round.
              rename_i hchunk
              have hinside : start % geometry.blockSize + (index - copied) <
                  geometry.blockSize := by
                omega
              have hplace : offset.toNat + index = start / geometry.blockSize * geometry.blockSize +
                  (start % geometry.blockSize + (index - copied)) := by
                omega
              have hbyte := hread rfl (offset.toNat + index) (by rw [hplace, div_of_cell hinside])
              rw [hplace, mod_of_cell hinside] at hbyte
              rw [if_pos (by omega), hbyte, hplace]
            · rfl
      · cases hrun
        exact ⟨h, .refl geometry file, hfinish ‹_›⟩

theorem Valid.of_same (hloaded : file.loaded = true) (hsame : Same geometry file next)
    (h : Sound geometry (· < file.size.toNat) next) : Valid geometry next :=
  Sound.valid (hsame.loaded.trans hloaded) (hsame.size ▸ h)

/-- `Read` returns the bytes of the file up to its size. -/
theorem Valid.read {maxReadaheadBlocks : Nat} {out : Span} {stateFailure : Option Error}
    {started : List Nat} {choices : List Choice} {result : File × Result (Nat × (Nat → Byte))}
    (h : Valid geometry file)
    (hrun : file.read geometry maxReadaheadBlocks offset out stateFailure started choices =
      some result) :
    Valid geometry result.1 ∧ ∀ count bytes, result.2 = .ok (count, bytes) →
      count = min out.length (file.logicalSize - offset.toNat) ∧
      ∀ index < count, bytes index = file.byte geometry (offset.toNat + index) := by
  unfold File.read at hrun
  split at hrun
  · cases hrun
    exact ⟨h, nofun⟩
  · obtain ⟨hvalid, hsize, hbytes, hloaded⟩ := h.state stateFailure
    rcases hstate : file.state stateFailure with ⟨current, status⟩
    rw [hstate] at hvalid hsize hbytes hloaded hrun
    cases status with
    | some error =>
        cases hrun
        exact ⟨hvalid, nofun⟩
    | none =>
        have hcurrent : current.loaded = true := hloaded rfl
        rw [← hsize, logicalSize_of_loaded hcurrent]
        dsimp only at hrun
        split at hrun
        · rename_i hpast
          cases hrun
          refine ⟨hvalid, ?_⟩
          rintro _ _ ⟨⟩
          refine ⟨?_, fun index hindex => absurd hindex (Nat.not_lt_zero _)⟩
          rw [BitVec.le_def] at hpast
          omega
        · rename_i hpast
          rw [not_or, BitVec.le_def] at hpast
          have hrest : (current.size - offset).toNat = current.size.toNat - offset.toNat :=
            BitVec.toNat_sub_of_le (BitVec.le_def.mpr (by omega))
          have hlimit := current.size.isLt
          obtain ⟨hahead, hsame⟩ := (hvalid.loaded_sound hcurrent).readahead maxReadaheadBlocks
            offset (min out.length (current.size - offset).toNat) started
          obtain ⟨hsound, hsame', hread⟩ := hahead.readLoop (by omega) (Nat.zero_le _) hrun
          refine ⟨.of_same hcurrent (hsame.trans hsame') hsound, fun count bytes hok => ?_⟩
          obtain ⟨hcount, hread⟩ := hread count bytes hok
          refine ⟨hrest ▸ hcount, fun index hindex => ?_⟩
          rw [hread index (hcount ▸ hindex), if_neg (Nat.not_lt_zero _), hsame.bytes]
          exact hbytes _

theorem Sound.trim (h : Sound geometry (· < file.size.toNat) file) (failure : Option Error) :
    Sound geometry (· < file.size.toNat) (file.setFileSize file.size failure).1 := by
  unfold File.setFileSize
  split
  · exact h
  · split
    · exact h
    · have hdisk : (fun position => if position < file.size.toNat then file.disk position else 0) =
          file.disk := by
        funext position
        split
        · rfl
        · exact (h.diskTail position (.inr ‹_›)).symm
      rw [hdisk]
      exact ⟨h.clean, h.loading, h.diskTail, h.pageTail⟩

theorem Valid.sync (h : Valid geometry file) (choice : Choice)
    (stateFailure resizeFailure syncFailure : Option Error) :
    Valid geometry (file.sync geometry choice stateFailure resizeFailure syncFailure).1 := by
  unfold File.sync
  split
  · exact h
  · obtain ⟨hvalid, -, -, hloaded⟩ := h.state stateFailure
    rcases hstate : file.state stateFailure with ⟨current, status⟩
    rw [hstate] at hvalid hloaded
    cases status with
    | some error => exact hvalid
    | none =>
        have hcurrent := hloaded rfl
        obtain ⟨hsound, hsame⟩ := (hvalid.loaded_sound hcurrent).background choice.background
        have hlater := Valid.of_same hcurrent hsame hsound
        dsimp only
        generalize choice.background.foldl (File.runBackground geometry) current = flushed at *
        have hflushed : flushed.loaded = true := hsame.loaded.trans hcurrent
        split
        · exact hlater
        · have htrim := (hlater.loaded_sound hflushed).trim resizeFailure
          obtain ⟨hsize, hloaded', -, -⟩ :=
            setFileSize_frame flushed flushed.size resizeFailure
          have hfinal : Valid geometry (flushed.setFileSize flushed.size resizeFailure).1 :=
            Sound.valid (hloaded'.trans hflushed) (hsize.symm ▸ htrim)
          split
          · rename_i hresize
            rw [hresize] at hfinal
            exact hfinal
          · rename_i hresize
            rw [hresize] at hfinal
            exact hfinal

theorem Untouched.runBackground (h : Untouched file) (work : Background) :
    file.runBackground geometry work = file := by
  cases work with
  | writeback block => simp [File.runBackground, File.writeback, h.pages block]
  | evict block => simp [File.runBackground, File.evict, h.pages block]
  | finishLoad block success => simp [File.runBackground, File.finishLoad, h.loading block]

theorem Valid.runBackground (h : Valid geometry file) (work : Background) :
    Valid geometry (file.runBackground geometry work) := by
  cases hloaded : file.loaded with
  | false => rwa [(h.untouched hloaded).runBackground work]
  | true =>
      obtain ⟨hsound, hsame⟩ := (h.loaded_sound hloaded).runBackground work
      exact .of_same hloaded hsame hsound

theorem Valid.step (h : Valid geometry file) {move : Move}
    (hstep : PageCache.step geometry file move = some next) : Valid geometry next := by
  cases move with
  | write offset data stateFailure choices =>
      obtain ⟨result, hrun, rfl⟩ := Option.map_eq_some_iff.mp hstep
      exact (h.write hrun).1
  | truncate size choice =>
      cases hstep
      exact (truncate_keeps h rfl).1
  | read maxReadaheadBlocks offset out stateFailure started choices =>
      obtain ⟨result, hrun, rfl⟩ := Option.map_eq_some_iff.mp hstep
      exact (h.read hrun).1
  | sync choice stateFailure resizeFailure syncFailure =>
      cases hstep
      exact h.sync choice stateFailure resizeFailure syncFailure
  | background work =>
      cases hstep
      exact h.runBackground work

/-! ### Writes beyond the last offset -/

theorem pages_state (file : File) (failure : Option Error) :
    (file.state failure).1.pages = file.pages := by
  unfold File.state
  split
  · rfl
  · split <;> rfl

/-- A block without an accepted offset is never loaded. -/
theorem absent_background (hblock : ¬Addressable geometry block) (work : List Background)
    (habsent : file.pages block = none) :
    (work.foldl (File.runBackground geometry) file).pages block = none := by
  induction work generalizing file with
  | nil => exact habsent
  | cons first work ih =>
      refine ih ?_
      cases first with
      | writeback other => grind [File.runBackground, File.writeback]
      | evict other => grind [File.runBackground, File.evict]
      | finishLoad other success => grind [File.runBackground, File.finishLoad]

theorem readBuffer_refused (hblock : ¬Addressable geometry block)
    (habsent : file.pages block = none) (choice : Choice) :
    ∃ reached error, file.readBuffer geometry block false choice = (reached, .error error) := by
  have hcurrent := absent_background hblock choice.background habsent
  unfold File.readBuffer
  dsimp only
  generalize choice.background.foldl (File.runBackground geometry) file = current at hcurrent ⊢
  split
  · exact ⟨_, _, rfl⟩
  · have hended : (current.finishLoad geometry block choice.loadSucceeds).pages block = none :=
      absent_background hblock [.finishLoad block choice.loadSucceeds] hcurrent
    simp [hended, hblock]

theorem readBuffer_served {zero : Bool}
    (h : zero = true ∨ file.pages block ≠ none ∨ Addressable geometry block) :
    ∃ reached old, file.readBuffer geometry block zero {} = (reached, .ok old) := by
  have hkept : file.pages block ≠ none →
      (file.finishLoad geometry block true).pages block ≠ none := by
    grind [File.finishLoad]
  unfold File.readBuffer
  dsimp only [List.foldl_nil]
  split
  · exact ⟨_, _, rfl⟩
  · rename_i hnone
    split
    · exact ⟨_, _, rfl⟩
    · rename_i hzero
      have haddressable : Addressable geometry block :=
        (h.resolve_left hzero).resolve_left fun hsome => hkept hsome hnone
      rw [if_pos haddressable]
      exact ⟨_, _, rfl⟩

theorem last_block_unaddressable (hbeyond : 2 ^ 64 < offset.toNat + data.length) :
    ¬Addressable geometry (offset.toNat / geometry.blockSize) := by
  have := data.bounded
  rw [addressable_iff]
  omega

/-- A write at `offset` starts inside of a block that is not resident, so it has to load it. -/
def Stuck (geometry : BlockGeometry) (file : File) (offset : BitVec 64) : Prop :=
  offset.toNat % geometry.blockSize ≠ 0 ∧
    file.pages (offset.toNat / geometry.blockSize) = none

theorem Stuck.write_fails {stateFailure : Option Error} {choices : List Choice}
    (h : Stuck geometry file offset) (hbeyond : 2 ^ 64 < offset.toNat + data.length) :
    file.write geometry offset data stateFailure choices ≠ some (next, ok) := by
  intro hwrite
  have hlength : 0 < data.length := by omega
  unfold File.write at hwrite
  rw [if_neg hlength.ne'] at hwrite
  split at hwrite
  · cases hwrite
  · have hpages := pages_state file stateFailure
    rcases hstate : file.state stateFailure with ⟨current, status⟩
    rw [hstate] at hwrite hpages
    cases status with
    | some error => cases hwrite
    | none =>
        dsimp only at hwrite
        cases choices with
        | nil =>
            rw [File.writeLoop, if_pos hlength] at hwrite
            cases hwrite
        | cons choice choices =>
            have habsent : current.pages (offset.toNat / geometry.blockSize) = none := by
              rw [show current.pages = file.pages from hpages]
              exact h.2
            obtain ⟨reached, error, hbuffer⟩ :=
              readBuffer_refused (last_block_unaddressable hbeyond) habsent choice
            have hpart : min (geometry.blockSize - offset.toNat % geometry.blockSize)
                (data.length - 0) ≠ geometry.blockSize := by
              have := h.1
              have := geometry.blockSize_pos
              omega
            have hround : current.writeRound geometry offset data 0 choice =
                (reached, .error error) := by
              unfold File.writeRound
              dsimp only
              rw [show (offset + BitVec.ofNat 64 0).toNat = offset.toNat by simp,
                decide_eq_false hpart, hbuffer]
            rw [File.writeLoop, if_pos hlength, hround] at hwrite
            cases hwrite

/-- From a block boundary on, a write that wraps takes whole blocks up to `2 ^ 64` and then
blocks that can be loaded. -/
theorem chunk_whole_or_addressable (hbeyond : 2 ^ 64 < offset.toNat + data.length)
    (hmore : copied < data.length)
    (haligned : (offset.toNat + copied) % geometry.blockSize = 0) :
    min (geometry.blockSize - (offset.toNat + copied) % 2 ^ 64 % geometry.blockSize)
        (data.length - copied) = geometry.blockSize ∨
      Addressable geometry ((offset.toNat + copied) % 2 ^ 64 / geometry.blockSize) := by
  rcases Nat.lt_or_ge (offset.toNat + copied) (2 ^ 64) with hbefore | hafter
  · left
    have hstart := Nat.div_add_mod' (offset.toNat + copied) geometry.blockSize
    have hend : ((offset.toNat + copied) / geometry.blockSize + 1) * geometry.blockSize ≤ 2 ^ 64 :=
      block_end_le (by decide) (by omega)
    rw [Nat.add_mul, Nat.one_mul] at hend
    rw [mod_block_of_wrapped, haligned]
    omega
  · right
    have := data.bounded
    have := offset.isLt
    rw [addressable_iff]
    omega

theorem writeLoop_succeeds (hbeyond : 2 ^ 64 < offset.toNat + data.length)
    (hcopied : copied ≤ data.length)
    (hready : copied = data.length ∨ (offset.toNat + copied) % geometry.blockSize = 0 ∨
      copied = 0 ∧ file.pages (offset.toNat / geometry.blockSize) ≠ none) :
    ∃ choices next, file.writeLoop geometry offset data copied choices = some (next, ok) := by
  induction hrest : data.length - copied using Nat.strong_induction_on
    generalizing file copied with
  | _ rest ih =>
      by_cases hmore : copied < data.length
      · obtain ⟨start, hstart⟩ : ∃ start, start = (offset.toNat + copied) % 2 ^ 64 := ⟨_, rfl⟩
        obtain ⟨chunk, hchunk⟩ : ∃ chunk, chunk =
            min (geometry.blockSize - start % geometry.blockSize) (data.length - copied) :=
          ⟨_, rfl⟩
        have hserved : decide (chunk = geometry.blockSize) = true ∨
            file.pages (start / geometry.blockSize) ≠ none ∨
            Addressable geometry (start / geometry.blockSize) := by
          rcases hready.resolve_left hmore.ne with haligned | ⟨rfl, hresident⟩
          · rw [hchunk, hstart, decide_eq_true_iff]
            exact (chunk_whole_or_addressable hbeyond hmore haligned).imp_right .inr
          · rw [Nat.add_zero, Nat.mod_eq_of_lt offset.isLt] at hstart
            rw [hstart]
            exact .inr (.inl hresident)
        obtain ⟨reached, old, hbuffer⟩ := readBuffer_served hserved
        obtain ⟨current, hround⟩ : ∃ current, file.writeRound geometry offset data copied {} =
            (current, .ok (copied + chunk)) := by
          unfold File.writeRound
          dsimp only
          rw [show (offset + BitVec.ofNat 64 copied).toNat = start by simp [hstart], ← hchunk,
            hbuffer]
          exact ⟨_, rfl⟩
        have hpositive : 0 < chunk := by
          have := Nat.mod_lt start geometry.blockSize_pos
          omega
        obtain ⟨choices, next, hloop⟩ : ∃ choices next,
            current.writeLoop geometry offset data (copied + chunk) choices = some (next, ok) :=
          ih (data.length - (copied + chunk)) (by omega) (by omega)
            ((chunk_boundary hmore hstart hchunk).imp_right .inl) rfl
        refine ⟨{} :: choices, next, ?_⟩
        rw [File.writeLoop, if_pos hmore, hround]
        exact hloop
      · exact ⟨[], _, by rw [File.writeLoop, if_neg hmore]⟩

theorem write_succeeds (hopen : file.closed = false)
    (hbeyond : 2 ^ 64 < offset.toNat + data.length) (hfree : ¬Stuck geometry file offset) :
    ∃ choices next, file.write geometry offset data none choices = some (next, ok) := by
  have hlength : data.length ≠ 0 := by
    have := offset.isLt
    omega
  obtain ⟨current, hstate⟩ : ∃ current, file.state none = (current, none) := by
    unfold File.state
    split <;> exact ⟨_, rfl⟩
  have hpages : current.pages = file.pages := by
    rw [← pages_state file none, hstate]
  have hready : offset.toNat % geometry.blockSize = 0 ∨
      current.pages (offset.toNat / geometry.blockSize) ≠ none := by
    rw [hpages]
    unfold Stuck at hfree
    tauto
  obtain ⟨choices, next, hloop⟩ := writeLoop_succeeds hbeyond (Nat.zero_le _)
    (.inr (hready.imp_right fun hresident => ⟨rfl, hresident⟩))
  refine ⟨choices, next, ?_⟩
  rw [File.write, hopen, if_neg (by decide), if_neg hlength, hstate]
  exact hloop

/-! ### The ranges of the calls -/

/-- No byte is changed outside of the range of the write, and the file gets no smaller. -/
def InRange (geometry : BlockGeometry) (file : File) (offset : BitVec 64) (data : Span)
    (next : File) : Prop :=
  (∀ position, ¬(offset.toNat ≤ position ∧ position < offset.toNat + data.length) →
    next.byte geometry position = file.byte geometry position) ∧
  file.logicalSize ≤ next.logicalSize

/-- The bytes that wrap around to the start of the file are there already. -/
def SameWrapped (geometry : BlockGeometry) (file : File) (offset : BitVec 64) (data : Span) :
    Prop :=
  ∀ position < offset.toNat + data.length - 2 ^ 64,
    data.byte (2 ^ 64 - offset.toNat + position) = file.byte geometry position

theorem overwrite_of_sameWrapped {position : Nat} (h : SameWrapped geometry file offset data)
    (hout : ¬(offset.toNat ≤ position ∧ position < offset.toNat + data.length)) :
    overwrite (file.byte geometry) offset data data.length position =
      file.byte geometry position := by
  unfold overwrite
  split
  · rename_i hwritten
    obtain ⟨hlast, hdistance⟩ := hwritten
    have hbelow : position < offset.toNat := by
      unfold distance at hdistance
      omega
    have hwraps : distance offset position = 2 ^ 64 - offset.toNat + position := by
      have := offset.isLt
      unfold distance
      omega
    rw [hwraps] at hdistance ⊢
    exact h position (by omega)
  · rfl

theorem Valid.write_inRange {stateFailure : Option Error} {choices : List Choice}
    (h : Valid geometry file)
    (hsafe : offset.toNat + data.length ≤ 2 ^ 64 ∨ SameWrapped geometry file offset data)
    (hwrite : file.write geometry offset data stateFailure choices = some (next, ok)) :
    InRange geometry file offset data next := by
  obtain ⟨-, copied, hcopied, hbytes, hsize, hall, -⟩ := h.write hwrite
  obtain rfl := hall rfl
  -- A write that does not wrap has no wrapped bytes.
  have hsame : SameWrapped geometry file offset data := by
    rcases hsafe with hends | hsame
    · intro position hposition
      omega
    · exact hsame
  refine ⟨fun position hout => ?_, ?_⟩
  · rw [hbytes position]
    exact overwrite_of_sameWrapped hsame hout
  · rw [hsize]
    split
    · exact le_refl _
    · exact le_max_left _ _

theorem Valid.sameWrapped_of_inRange {stateFailure : Option Error} {choices : List Choice}
    (h : Valid geometry file)
    (hwrite : file.write geometry offset data stateFailure choices = some (next, ok))
    (hrange : InRange geometry file offset data next) :
    SameWrapped geometry file offset data := by
  intro position hposition
  obtain ⟨-, copied, -, hbytes, -, hall, -⟩ := h.write hwrite
  obtain rfl := hall rfl
  have hlast := offset.isLt
  have hlength := data.bounded
  have hwraps : distance offset position = 2 ^ 64 - offset.toNat + position := by
    unfold distance
    omega
  have hwritten : Written offset data.length position := ⟨by omega, by omega⟩
  have hbyte := hbytes position
  rw [overwrite, if_pos hwritten, hwraps, hrange.1 position (by omega)] at hbyte
  exact hbyte.symm

/-- In every reachable file, the successful writes of `data` at `offset` change bytes of their
range only and do not make the file smaller exactly if the range ends at `2 ^ 64` or before, or
no such write succeeds, or what wraps around changes nothing.  A successful truncation keeps the
bytes below the old and the new size. -/
theorem byte_ranges_hold (geometry : BlockGeometry) (untouched file : File) (moves : List Move)
    (huntouched : Untouched untouched)
    (hrun : Machine.run (step geometry) untouched moves = some file) :
    (∀ (offset : BitVec 64) (data : Span),
      (∀ (stateFailure : Option Error) (choices : List Choice) (next : File),
        file.write geometry offset data stateFailure choices = some (next, ok) →
        InRange geometry file offset data next) ↔
      offset.toNat + data.length ≤ 2 ^ 64 ∨ file.closed = true ∨ Stuck geometry file offset ∨
        SameWrapped geometry file offset data) ∧
    (∀ (size : BitVec 64) (choice : File.TruncateChoice) (next : File),
      file.truncate geometry size choice = (next, ok) →
      ∀ position < min file.logicalSize size.toNat,
        next.byte geometry position = file.byte geometry position) := by
  have hvalid : Valid geometry file :=
    Machine.invariant_of_run (fun _ _ _ hvalid hstep => hvalid.step hstep) huntouched.valid hrun
  constructor
  · intro offset data
    constructor
    · intro hkeeps
      by_contra hnone
      obtain ⟨hbeyond, hclosed, hfree, hwrapped⟩ : 2 ^ 64 < offset.toNat + data.length ∧
          file.closed = false ∧ ¬Stuck geometry file offset ∧
          ¬SameWrapped geometry file offset data := by
        simpa [not_or] using hnone
      obtain ⟨choices, next, hwrite⟩ := write_succeeds hclosed hbeyond hfree
      exact hwrapped (hvalid.sameWrapped_of_inRange hwrite (hkeeps none choices next hwrite))
    · intro hsafe stateFailure choices next hwrite
      rcases Nat.lt_or_ge (2 ^ 64) (offset.toNat + data.length) with hbeyond | hends
      · rcases hsafe with hends | hclosed | hstuck | hwrapped
        · omega
        · rw [File.write, if_pos hclosed] at hwrite
          cases hwrite
        · exact absurd hwrite (hstuck.write_fails hbeyond)
        · exact hvalid.write_inRange (.inr hwrapped) hwrite
      · exact hvalid.write_inRange (.inl hends) hwrite
  · intro size choice next htruncate
    exact (truncate_keeps hvalid htruncate).2 rfl

def twoBlocks : File :=
  { disk := fun position => if position < 8192 then 7 else 0, backingSize := 8192 }

def ones (length : Nat) (h : length < 2 ^ 63) : Span := ⟨length, fun _ => 1, h⟩

theorem twoBlocks_untouched : Untouched twoBlocks where
  loaded := rfl
  pages _ := rfl
  loading _ := rfl
  zeros position hge := if_neg (Nat.not_lt.mpr hge)
  offsets := by decide

/-- A write into the second block after a write that is evicted. -/
theorem byte_ranges_hold_evicted :
    ∃ file next, Machine.run (step BlockTransfer.geometry4K) twoBlocks
          [.write 100 (ones 10 (by decide)) none [{}], .background (.writeback 0),
            .background (.evict 0)] = some file ∧
        file.write BlockTransfer.geometry4K 5000 (ones 8 (by decide)) none [{}] =
          some (next, ok) ∧
        next.byte BlockTransfer.geometry4K 105 = file.byte BlockTransfer.geometry4K 105 ∧
        file.logicalSize ≤ next.logicalSize := by
  have hseen : ((Machine.run (step BlockTransfer.geometry4K) twoBlocks
      [.write 100 (ones 10 (by decide)) none [{}], .background (.writeback 0),
        .background (.evict 0)]).bind fun file =>
        (file.write BlockTransfer.geometry4K 5000 (ones 8 (by decide)) none [{}]).map
          fun result => result.2) = some ok := by
    decide +kernel
  obtain ⟨file, hrun, hrest⟩ := Option.bind_eq_some_iff.mp hseen
  obtain ⟨⟨next, status⟩, hwrite, rfl⟩ := Option.map_eq_some_iff.mp hrest
  obtain ⟨hbytes, hsize⟩ := ((byte_ranges_hold BlockTransfer.geometry4K twoBlocks file _
    twoBlocks_untouched hrun).1 5000 (ones 8 (by decide))).mpr (.inl (by decide)) none [{}] next
      hwrite
  exact ⟨file, next, hrun, hwrite, hbytes 105 (by decide), hsize⟩

/-- A write of two blocks at `2 ^ 64 - 4096` overwrites the first block of the file. -/
theorem write_wraps_to_first_block :
    Untouched twoBlocks ∧
      ∃ next, twoBlocks.write BlockTransfer.geometry4K 0xfffffffffffff000#64
            (ones 8192 (by decide)) none [{}, {}] = some (next, ok) ∧
        0 < twoBlocks.logicalSize ∧
        next.byte BlockTransfer.geometry4K 0 ≠ twoBlocks.byte BlockTransfer.geometry4K 0 := by
  have hseen : (twoBlocks.write BlockTransfer.geometry4K 0xfffffffffffff000#64
      (ones 8192 (by decide)) none [{}, {}]).map (fun result =>
        (result.2, result.1.byte BlockTransfer.geometry4K 0)) = some (ok, 1) := by
    decide +kernel
  obtain ⟨⟨next, status⟩, hwrite, hfacts⟩ := Option.map_eq_some_iff.mp hseen
  obtain ⟨rfl, hbyte⟩ := Prod.ext_iff.mp hfacts
  refine ⟨twoBlocks_untouched, next, hwrite, by decide, ?_⟩
  rw [show next.byte BlockTransfer.geometry4K 0 = 1 from hbyte]
  decide

/-! ### Failed writes -/

end TelePath.PageCache
