import TelePath.Buffer.PageTableMappings

/-!
The page table as the manager uses it, where each call is one step.

Its words are those of `page_table.h`, and the calls change them as the programs of
`PageTableWords` do that run alone.  With at most `2 ^ 31` frames the words stand for a map
from frames to tags.  With more, a bucket can have the number `kNone` in `bucket_of_`, and a
frame on its chain is taken for one that is on no chain.
-/

namespace TelePath

/-! ### Calls on the words -/

namespace PageTableWords

open Logic

namespace Memory

/-- The loop of `Unlink`: the frame in front of `frame`. -/
def previous (memory : Memory) (frame : FrameId) : Nat → FrameId → FrameId
  | 0, _ => kNone
  | steps + 1, current =>
      if current = kNone then kNone
      else if memory.next current = frame then current
      else memory.previous frame steps (memory.next current)

def unlink (table : Geometry) (memory : Memory) (frame : FrameId) : Memory :=
  let bucket := (memory.bucketOf frame).toNat
  let after := memory.next frame
  let current := memory.heads bucket
  let previous := memory.previous frame table.frameCapacity current
  { memory with
    heads := if current = frame then Function.update memory.heads bucket after else memory.heads
    next := Function.update
      (if current = frame ∨ previous = kNone then memory.next
        else Function.update memory.next previous after) frame kNone
    bucketOf := Function.update memory.bucketOf frame kNone }

def linkIfUnlinked (table : Geometry) (memory : Memory) (tag : BufferTag) (frame : FrameId) :
    Memory :=
  if memory.bucketOf frame = kNone then memory.linked (table.bucketFor tag) tag frame else memory

def remove (table : Geometry) (memory : Memory) (tag : BufferTag) (frame : FrameId) : Memory :=
  if memory.bucketOf frame = kNone then memory
  else if memory.mapsTo frame tag then memory.unlink table frame
  else memory

/-- The search of `ReplaceUnlessLive`. -/
def findLive (memory : Memory) (newTag : BufferTag) (frame : FrameId) (live : FrameId → Bool) :
    Nat → FrameId → Option FrameId
  | 0, _ => none
  | steps + 1, current =>
      if current = kNone then none
      else if current ≠ frame ∧ memory.mapsTo current newTag ∧ live current then some current
      else memory.findLive newTag frame live steps (memory.next current)

def replaceUnlessLive (table : Geometry) (memory : Memory) (oldTag : Option BufferTag)
    (newTag : BufferTag) (frame : FrameId) (live : FrameId → Bool) : Option FrameId × Memory :=
  let existing := memory.findLive newTag frame live table.frameCapacity
    (memory.heads (table.bucketFor newTag))
  let linked : Bool := memory.bucketOf frame ≠ kNone
  let linkedUnderNew := linked && memory.mapsTo frame newTag
  let unlinks := linked ∧
    (oldTag.any (memory.mapsTo frame ·) ∨ !linkedUnderNew ∨ existing.isSome)
  let unlinked := if unlinks then memory.unlink table frame else memory
  match existing with
  | some other => (some other, unlinked)
  | none => (none, unlinked.linkIfUnlinked table newTag frame)

def follow (memory : Memory) : Nat → FrameId → List FrameId
  | 0, _ => []
  | steps + 1, current =>
      if current = kNone then [] else current :: memory.follow steps (memory.next current)

end Memory

section Represents

variable {table : Geometry} {memory : Memory} {mappings : Mappings} {frame : FrameId}
  {tag : BufferTag}

theorem previous_eq {last start : FrameId} {front rest : List FrameId} {steps : Nat}
    (hlinked : Linked memory.next kNone start (front ++ last :: frame :: rest))
    (hsteps : front.length < steps) : memory.previous frame steps start = last := by
  induction front generalizing start steps with
  | nil =>
      obtain ⟨rfl, hne, hframe, -⟩ := hlinked
      obtain ⟨steps, rfl⟩ := Nat.exists_eq_add_of_lt hsteps
      simp [Memory.previous, hne, hframe]
  | cons node front ih =>
      obtain ⟨rfl, hne, hrest⟩ := hlinked
      -- the frame comes later, so the next one is another
      have hother : memory.next start ≠ frame := hrest.start_ne
      obtain ⟨steps, rfl⟩ : ∃ fewer, steps = fewer + 1 := ⟨steps - 1, by simp at hsteps; omega⟩
      rw [Memory.previous, if_neg hne, if_neg hother]
      exact ih hrest (by simpa using hsteps)

theorem unlink_eq {bucket : Nat} {before rest : List FrameId}
    (hof : (memory.bucketOf frame).toNat = bucket)
    (hchain : Chain memory bucket (before ++ frame :: rest))
    (hsteps : (before ++ frame :: rest).length ≤ table.frameCapacity) :
    memory.unlink table frame = memory.unlinked bucket before frame := by
  have hstart := hchain.start_eq
  rcases List.eq_nil_or_concat' before with rfl | ⟨front, last, rfl⟩
  · simp only [List.nil_append, List.headD_cons] at hstart
    simp [Memory.unlink, Memory.unlinked, hof, hstart]
  · have hlast : last ≠ kNone := hchain.ne_stop (by simp)
    rw [Chain, List.append_assoc] at hchain
    have hhead : memory.heads bucket ≠ frame := hchain.start_ne
    have hprevious : memory.previous frame table.frameCapacity (memory.heads bucket) = last :=
      previous_eq hchain (by simp at hsteps; omega)
    simp [Memory.unlink, Memory.unlinked, hof, hhead, hprevious, hlast]

theorem Represents.unlink (h : Represents table memory mappings)
    (hfit : table.frameCapacity ≤ 2 ^ 31) (hmem : (frame, tag) ∈ mappings) :
    Represents table (memory.unlink table frame) (mappings.unmap frame) := by
  obtain ⟨before, rest, hsplit⟩ := Mappings.split_chain table hmem
  have hchain := h.chains _ (bucketFor_lt table tag)
  have hlength := h.length_le (table.bucketFor tag)
  rw [hsplit] at hchain hlength
  rw [unlink_eq (h.toNat_bucketOf hfit hmem) hchain hlength]
  exact h.unlinked hmem hsplit

theorem Represents.linkIfUnlinked (h : Represents table memory mappings)
    (hfit : table.frameCapacity ≤ 2 ^ 31) (hframe : frame.toNat < table.frameCapacity)
    (tag : BufferTag) :
    Represents table (memory.linkIfUnlinked table tag frame)
      (if mappings.tagOf frame = none then (frame, tag) :: mappings else mappings) := by
  have hnone := h.bucketOf_eq_none hfit hframe
  rw [Memory.linkIfUnlinked]
  split
  · rename_i hunmapped
    rw [if_pos (hnone.mp hunmapped)]
    exact h.linked hfit hframe (hnone.mp hunmapped) tag
  · rename_i hmapped
    rwa [if_neg (mt hnone.mpr hmapped)]

theorem Represents.remove (h : Represents table memory mappings)
    (hfit : table.frameCapacity ≤ 2 ^ 31) (hframe : frame.toNat < table.frameCapacity)
    (tag : BufferTag) :
    Represents table (memory.remove table tag frame) (mappings.remove tag frame) := by
  have hnone := h.bucketOf_eq_none hfit hframe
  rw [Memory.remove, Mappings.remove]
  cases htag : mappings.tagOf frame with
  | none => simpa [hnone.mpr htag] using h
  | some key =>
      have hmem := Mappings.mem_of_tagOf htag
      have hmapped : memory.bucketOf frame ≠ kNone := fun heq => by simp [hnone.mp heq] at htag
      rw [if_neg hmapped, h.mapsTo hmem]
      by_cases heq : key = tag
      · simpa [heq] using h.unlink hfit hmem
      · simpa [heq] using h

theorem follow_eq {frames : List FrameId} {start : FrameId} {steps : Nat}
    (hlinked : Linked memory.next kNone start frames) (hsteps : frames.length ≤ steps) :
    memory.follow steps start = frames := by
  induction frames generalizing start steps with
  | nil =>
      obtain rfl : start = kNone := hlinked
      cases steps <;> simp [Memory.follow]
  | cons current frames ih =>
      obtain ⟨rfl, hne, hrest⟩ := hlinked
      obtain ⟨steps, rfl⟩ : ∃ fewer, steps = fewer + 1 := ⟨steps - 1, by simp at hsteps; omega⟩
      rw [Memory.follow, if_neg hne, ih hrest (by simpa using hsteps)]

theorem findLive_eq {frames : List FrameId} {start : FrameId} {live : FrameId → Bool} {steps : Nat}
    (hlinked : Linked memory.next kNone start frames) (hsteps : frames.length ≤ steps) :
    memory.findLive tag frame live steps start = frames.find? fun other =>
      (decide (other ≠ frame) && live other) && memory.mapsTo other tag := by
  induction frames generalizing start steps with
  | nil =>
      obtain rfl : start = kNone := hlinked
      cases steps <;> simp [Memory.findLive]
  | cons current frames ih =>
      obtain ⟨rfl, hne, hrest⟩ := hlinked
      obtain ⟨steps, rfl⟩ : ∃ fewer, steps = fewer + 1 := ⟨steps - 1, by simp at hsteps; omega⟩
      rw [Memory.findLive, if_neg hne, ih hrest (by simpa using hsteps), List.find?_cons]
      split <;> grind

theorem Represents.findLive (h : Represents table memory mappings) (tag : BufferTag)
    (frame : FrameId) (live : FrameId → Bool) :
    memory.findLive tag frame live table.frameCapacity (memory.heads (table.bucketFor tag)) =
      mappings.liveOther tag frame live := by
  rw [findLive_eq (h.chains _ (bucketFor_lt table tag)) (h.length_le _),
    h.find_chain tag fun other => decide (other ≠ frame) && live other, Mappings.liveOther]
  congr 2
  funext entry
  simp [Bool.and_assoc, Bool.and_comm (live entry.1)]

theorem Represents.replaceUnlessLive (h : Represents table memory mappings)
    (hfit : table.frameCapacity ≤ 2 ^ 31) (hframe : frame.toNat < table.frameCapacity)
    (oldTag : Option BufferTag) (newTag : BufferTag) (live : FrameId → Bool) :
    (memory.replaceUnlessLive table oldTag newTag frame live).1 =
        (mappings.replaceUnlessLive oldTag newTag frame live).1 ∧
      Represents table (memory.replaceUnlessLive table oldTag newTag frame live).2
        (mappings.replaceUnlessLive oldTag newTag frame live).2 := by
  have hnone := h.bucketOf_eq_none hfit hframe
  -- what is left of the map when the frame is to be linked
  have hkept : ∀ kept current, Represents table current kept →
      (kept = if mappings.tagOf frame = some newTag ∧ oldTag ≠ some newTag then mappings
        else mappings.unmap frame) →
      Represents table (current.linkIfUnlinked table newTag frame)
        (mappings.replace oldTag newTag frame) := by
    rintro kept current hcurrent rfl
    rw [Mappings.replace_eq]
    exact hcurrent.linkIfUnlinked hfit hframe newTag
  simp only [Memory.replaceUnlessLive, Mappings.replaceUnlessLive, h.findLive]
  cases htag : mappings.tagOf frame with
  | none =>
      have hunmapped := hnone.mpr htag
      have hsame := Mappings.unmap_of_tagOf htag
      cases mappings.liveOther newTag frame live with
      | some other => simpa [hunmapped, hsame] using h
      | none => simpa [hunmapped] using hkept mappings memory h (by simp [hsame])
  | some key =>
      have hmem := Mappings.mem_of_tagOf htag
      have hmapped : memory.bucketOf frame ≠ kNone := fun heq => by simp [hnone.mp heq] at htag
      have hunlink := h.unlink hfit hmem
      cases mappings.liveOther newTag frame live with
      | some other => simpa [hmapped] using hunlink
      | none =>
          have hold : oldTag.any (memory.mapsTo frame ·) = decide (oldTag = some key) := by
            cases oldTag with
            | none => rfl
            | some old => simp [h.mapsTo hmem, eq_comm]
          refine ⟨rfl, ?_⟩
          by_cases hkeeps : key = newTag ∧ oldTag ≠ some newTag
          · rw [if_neg (by grind [h.mapsTo hmem])]
            exact hkept mappings memory h (by simp [htag, hkeeps])
          · rw [if_pos (by grind [h.mapsTo hmem])]
            exact hkept _ _ hunlink (by simp [htag, hkeeps])

end Represents

end PageTableWords

/-! ### The table of a manager -/

open PageTableWords (FrameId Geometry Mappings Memory Represents kNone)

structure PageTable (n : Nat) where
  memory : Memory
  represents : n ≤ 2 ^ 31 → ∃ mappings, Represents ⟨n, 1⟩ memory mappings

namespace PageTable

variable {n : Nat}

def frameId (frame : Fin n) : FrameId := BitVec.ofNat 32 frame

def frameOf (n : Nat) (id : FrameId) : Option (Fin n) :=
  if h : id.toNat < n then some ⟨id.toNat, h⟩ else none

theorem toNat_frameId (hsmall : n ≤ 2 ^ 31) (frame : Fin n) : (frameId frame).toNat = frame := by
  rw [frameId, BitVec.toNat_ofNat, Nat.mod_eq_of_lt (by omega)]

theorem frameId_lt (hsmall : n ≤ 2 ^ 31) (frame : Fin n) : (frameId frame).toNat < n := by
  rw [toNat_frameId hsmall]
  exact frame.isLt

theorem frameId_inj (hsmall : n ≤ 2 ^ 31) {frame other : Fin n} :
    frameId frame = frameId other ↔ frame = other := by
  refine ⟨fun h => Fin.ext ?_, congrArg frameId⟩
  rw [← toNat_frameId hsmall frame, h, toNat_frameId hsmall]

theorem frameOf_eq (hsmall : n ≤ 2 ^ 31) {id : FrameId} {frame : Fin n} :
    frameOf n id = some frame ↔ id = frameId frame := by
  constructor
  · intro h
    rw [frameOf, Option.dite_none_right_eq_some] at h
    obtain ⟨hlt, h⟩ := h
    obtain rfl := Option.some.inj h
    exact BitVec.eq_of_toNat_eq (toNat_frameId hsmall ⟨id.toNat, hlt⟩).symm
  · rintro rfl
    rw [frameOf, dif_pos (frameId_lt hsmall frame)]
    exact congrArg some (Fin.ext (toNat_frameId hsmall frame))

/-- The table after `Place` with `initialize`. -/
def empty : PageTable n := ⟨{}, fun _ => ⟨[], PageTableWords.represents_empty _⟩⟩

/-- The tag under which a frame is linked, as far as its own words tell. -/
def tagOf (table : PageTable n) (frame : Fin n) : Option BufferTag :=
  if table.memory.bucketOf (frameId frame) = kNone then none
  else some ⟨table.memory.keyFileId (frameId frame), table.memory.keyBlockId (frameId frame)⟩

theorem tagOf_empty (frame : Fin n) : (empty : PageTable n).tagOf frame = none := if_pos rfl

def lookupFrameId (table : PageTable n) (tag : BufferTag) : Option (Fin n) :=
  (table.memory.firstMatch ⟨n, 1⟩ tag).bind (frameOf n)

def remove (table : PageTable n) (tag : BufferTag) (frame : Fin n) : PageTable n where
  memory := table.memory.remove ⟨n, 1⟩ tag (frameId frame)
  represents hsmall := by
    obtain ⟨mappings, h⟩ := table.represents hsmall
    exact ⟨_, h.remove hsmall (frameId_lt hsmall frame) tag⟩

def replaceUnlessLive (table : PageTable n) (oldTag : Option BufferTag) (newTag : BufferTag)
    (frame : Fin n) (live : Fin n → Bool) : Option (Fin n) × PageTable n :=
  let answer := table.memory.replaceUnlessLive ⟨n, 1⟩ oldTag newTag (frameId frame)
    fun id => (frameOf n id).any live
  (answer.1.bind (frameOf n), {
    memory := answer.2
    represents := fun hsmall => by
      obtain ⟨mappings, h⟩ := table.represents hsmall
      exact ⟨_, (h.replaceUnlessLive hsmall (frameId_lt hsmall frame) oldTag newTag _).2⟩ })

/-! ### What the manager knows of it -/

/-- The frame is linked under this tag, or not at all. -/
def Maps (table : PageTable n) (frame : Fin n) (tag : Option BufferTag) : Prop :=
  n ≤ 2 ^ 31 → table.tagOf frame = tag

/-- The frame is not linked under another tag. -/
def Keyed (table : PageTable n) (frame : Fin n) (tag : Option BufferTag) : Prop :=
  n ≤ 2 ^ 31 → ∀ key, table.tagOf frame = some key → tag = some key

/-- Live frames are found under the tags they are linked under. -/
def Coherent (table : PageTable n) (live : BufferTag → Fin n → Bool) : Prop :=
  n ≤ 2 ^ 31 → ∀ frame tag, table.tagOf frame = some tag → live tag frame = true →
    table.lookupFrameId tag = some frame

theorem Maps.keyed {table : PageTable n} {frame : Fin n} {tag : Option BufferTag}
    (h : table.Maps frame tag) : table.Keyed frame tag :=
  fun hsmall _ hkey => (h hsmall).symm.trans hkey

/-- The frames that the links of a bucket lead to, from its head on. -/
def chain (table : PageTable n) (bucket : Nat) : List FrameId :=
  table.memory.follow n (table.memory.heads bucket)

/-- What a change of the table does to its frame, to the other frames and to lookups. -/
structure Relinks (table next : PageTable n) (frame : Fin n) (tag : Option BufferTag)
    (live : BufferTag → Fin n → Bool) : Prop where
  self : next.Maps frame tag
  others : n ≤ 2 ^ 31 → ∀ other, other ≠ frame → next.tagOf other = table.tagOf other
  coherent : next.Coherent live

theorem Relinks.of_small {table next : PageTable n} {frame : Fin n} {tag : Option BufferTag}
    {live : BufferTag → Fin n → Bool} (h : n ≤ 2 ^ 31 → Relinks table next frame tag live) :
    Relinks table next frame tag live :=
  ⟨fun hsmall => (h hsmall).self hsmall, fun hsmall => (h hsmall).others hsmall,
    fun hsmall => (h hsmall).coherent hsmall⟩

variable {table : PageTable n} {mappings : Mappings} {frame : Fin n} {tag : BufferTag}
  {live : BufferTag → Fin n → Bool}

theorem tagOf_eq (h : Represents ⟨n, 1⟩ table.memory mappings) (hsmall : n ≤ 2 ^ 31)
    (frame : Fin n) : table.tagOf frame = mappings.tagOf (frameId frame) := by
  have hnone := h.bucketOf_eq_none hsmall (frameId_lt hsmall frame)
  rw [tagOf]
  split
  · rename_i hunmapped
    exact (hnone.mp hunmapped).symm
  · rename_i hmapped
    obtain ⟨tag, htag⟩ := Option.ne_none_iff_exists'.mp (mt hnone.mpr hmapped)
    obtain ⟨hfile, hblock⟩ := h.keys _ (PageTableWords.Mappings.mem_of_tagOf htag)
    rw [htag, hfile, hblock]

theorem chain_eq (h : Represents ⟨n, 1⟩ table.memory mappings) {bucket : Nat}
    (hbucket : bucket < (⟨n, 1⟩ : Geometry).bucketCount) :
    table.chain bucket = mappings.chain ⟨n, 1⟩ bucket :=
  PageTableWords.follow_eq (h.chains bucket hbucket) (h.length_le bucket)

/-- A frame that is not linked is on no chain. -/
theorem notMem_chain (hsmall : n ≤ 2 ^ 31) (hframe : table.tagOf frame = none) {bucket : Nat}
    (hbucket : bucket < (⟨n, 1⟩ : Geometry).bucketCount) :
    frameId frame ∉ table.chain bucket := by
  obtain ⟨mappings, h⟩ := table.represents hsmall
  rw [tagOf_eq h hsmall] at hframe
  rw [chain_eq h hbucket, PageTableWords.Mappings.mem_chain]
  rintro ⟨tag, hmem, -⟩
  exact PageTableWords.Mappings.ne_of_tagOf hframe _ hmem rfl

theorem lookupFrameId_iff (h : Represents ⟨n, 1⟩ table.memory mappings) (hsmall : n ≤ 2 ^ 31) :
    table.lookupFrameId tag = some frame ↔
      mappings.lookupFrameId tag = some (frameId frame) := by
  have hfirst : table.memory.firstMatch ⟨n, 1⟩ tag = mappings.lookupFrameId tag := by
    rw [Memory.firstMatch, PageTableWords.walk_eq (h.chains _ (PageTableWords.bucketFor_lt _ tag))
      (h.length_le _)]
    exact (h.find_chain tag fun _ => true).trans (by simp [PageTableWords.Mappings.lookupFrameId])
  rw [lookupFrameId, hfirst, Option.bind_eq_some_iff]
  simp only [frameOf_eq hsmall, exists_eq_right]

theorem coherent_iff (h : Represents ⟨n, 1⟩ table.memory mappings) (hsmall : n ≤ 2 ^ 31) :
    table.Coherent live ↔ ∀ frame tag, mappings.tagOf (frameId frame) = some tag →
      live tag frame = true → mappings.lookupFrameId tag = some (frameId frame) := by
  simp only [Coherent, hsmall, forall_true_left, tagOf_eq h hsmall, lookupFrameId_iff h hsmall]

theorem Coherent.unique (h : table.Coherent live) (hsmall : n ≤ 2 ^ 31) {other : Fin n}
    (hframe : table.tagOf frame = some tag) (hlive : live tag frame = true)
    (hother : table.tagOf other = some tag) (hlive' : live tag other = true) : frame = other :=
  Option.some.inj ((h hsmall frame tag hframe hlive).symm.trans (h hsmall other tag hother hlive'))

theorem lookupFrameId_unmap {id found : FrameId} (h : mappings.lookupFrameId tag = some found)
    (hne : found ≠ id) : (mappings.unmap id).lookupFrameId tag = some found := by
  obtain ⟨entry, hfind, rfl⟩ := Option.map_eq_some_iff.mp h
  obtain ⟨htag, before, after, hsplit, hbefore⟩ := List.find?_eq_some_iff_append.mp hfind
  rw [PageTableWords.Mappings.lookupFrameId, PageTableWords.Mappings.unmap, List.find?_filter,
    List.find?_eq_some_iff_append.mpr ⟨by simp_all, before, after, hsplit, by grind⟩]
  rfl

variable {next : PageTable n}

theorem Relinks.of_unmap (h : Represents ⟨n, 1⟩ table.memory mappings)
    (hnext : Represents ⟨n, 1⟩ next.memory (mappings.unmap (frameId frame)))
    (hsmall : n ≤ 2 ^ 31) (hcoherent : table.Coherent live) :
    Relinks table next frame none live := by
  have hself : (mappings.unmap (frameId frame)).tagOf (frameId frame) = none :=
    PageTableWords.Mappings.tagOf_unmap_self
  have hothers : ∀ other, other ≠ frame →
      (mappings.unmap (frameId frame)).tagOf (frameId other) = mappings.tagOf (frameId other) :=
    fun other hne => PageTableWords.Mappings.tagOf_unmap (mt (frameId_inj hsmall).mp hne)
  refine ⟨fun _ => (tagOf_eq hnext hsmall frame).trans hself, fun _ other hne => ?_, ?_⟩
  · rw [tagOf_eq hnext hsmall, tagOf_eq h hsmall, hothers other hne]
  · rw [coherent_iff h hsmall] at hcoherent
    refine (coherent_iff hnext hsmall).mpr fun other tag htag hlive => ?_
    have hne : other ≠ frame := by
      rintro rfl
      cases hself.symm.trans htag
    rw [hothers other hne] at htag
    exact lookupFrameId_unmap (hcoherent other tag htag hlive) (mt (frameId_inj hsmall).mp hne)

/-- The frame becomes the newest entry under a tag that no other live frame has. -/
theorem Relinks.of_cons (h : Represents ⟨n, 1⟩ table.memory mappings)
    (hnext : Represents ⟨n, 1⟩ next.memory
      ((frameId frame, tag) :: mappings.unmap (frameId frame)))
    (hsmall : n ≤ 2 ^ 31) (hcoherent : table.Coherent live)
    (hfree : ∀ other, other ≠ frame → mappings.tagOf (frameId other) = some tag →
      live tag other = false) :
    Relinks table next frame (some tag) live := by
  have hself : Mappings.tagOf ((frameId frame, tag) :: mappings.unmap (frameId frame))
      (frameId frame) = some tag := by
    simp [PageTableWords.Mappings.tagOf]
  have hothers : ∀ other, other ≠ frame →
      Mappings.tagOf ((frameId frame, tag) :: mappings.unmap (frameId frame)) (frameId other) =
        mappings.tagOf (frameId other) := by
    intro other hne
    have hid := mt (frameId_inj hsmall).mp hne
    have hunmap : (mappings.unmap (frameId frame)).tagOf (frameId other) =
        mappings.tagOf (frameId other) := PageTableWords.Mappings.tagOf_unmap hid
    rw [← hunmap, PageTableWords.Mappings.tagOf,
      List.find?_cons_of_neg (by simpa using Ne.symm hid)]
    rfl
  refine ⟨fun _ => (tagOf_eq hnext hsmall frame).trans hself, fun _ other hne => ?_, ?_⟩
  · rw [tagOf_eq hnext hsmall, tagOf_eq h hsmall, hothers other hne]
  · rw [coherent_iff h hsmall] at hcoherent
    refine (coherent_iff hnext hsmall).mpr fun other key hkey hlive => ?_
    by_cases hne : other = frame
    · subst hne
      obtain rfl : tag = key := Option.some.inj (hself.symm.trans hkey)
      simp [PageTableWords.Mappings.lookupFrameId]
    · rw [hothers other hne] at hkey
      have htag : tag ≠ key := by
        rintro rfl
        simp [hfree other hne hkey] at hlive
      have hfound := lookupFrameId_unmap (hcoherent other key hkey hlive)
        (mt (frameId_inj hsmall).mp hne)
      simpa [PageTableWords.Mappings.lookupFrameId, htag] using hfound

theorem remove_relinks (hkeyed : table.Keyed frame (some tag)) (hcoherent : table.Coherent live) :
    Relinks table (table.remove tag frame) frame none live := by
  refine .of_small fun hsmall => ?_
  obtain ⟨mappings, h⟩ := table.represents hsmall
  have hremoved : Represents ⟨n, 1⟩ (table.remove tag frame).memory
      (mappings.remove tag (frameId frame)) := h.remove hsmall (frameId_lt hsmall frame) tag
  have hunmaps : mappings.remove tag (frameId frame) = mappings.unmap (frameId frame) := by
    have hkey := hkeyed hsmall
    rw [tagOf_eq h hsmall] at hkey
    cases htag : mappings.tagOf (frameId frame) with
    | none => simp [PageTableWords.Mappings.remove, htag,
        PageTableWords.Mappings.unmap_of_tagOf htag]
    | some key => simp [PageTableWords.Mappings.remove, htag, hkey key htag]
  rw [hunmaps] at hremoved
  exact .of_unmap h hremoved hsmall hcoherent

/-- `ReplaceUnlessLive` as its callers use it: a linked frame passes its own tag as the old one,
so it always leaves its chain, and it is linked unless there is another live frame. -/
theorem replaceUnlessLive_relinks {oldTag : Option BufferTag} (hkeyed : table.Keyed frame oldTag)
    (hcoherent : table.Coherent live) :
    Relinks table (table.replaceUnlessLive oldTag tag frame (live tag)).2 frame
      (if (table.replaceUnlessLive oldTag tag frame (live tag)).1 = none then some tag else none)
      live := by
  refine .of_small fun hsmall => ?_
  obtain ⟨mappings, h⟩ := table.represents hsmall
  obtain ⟨hanswer, hreplaced⟩ := h.replaceUnlessLive hsmall (frameId_lt hsmall frame) oldTag tag
    fun id => (frameOf n id).any (live tag)
  have hresult : (table.replaceUnlessLive oldTag tag frame (live tag)).1 =
      (mappings.replaceUnlessLive oldTag tag (frameId frame)
        fun id => (frameOf n id).any (live tag)).1.bind (frameOf n) :=
    congrArg (Option.bind · (frameOf n)) hanswer
  rw [hresult]
  rw [PageTableWords.Mappings.replaceUnlessLive] at hreplaced ⊢
  cases hother : mappings.liveOther tag (frameId frame) fun id => (frameOf n id).any (live tag) with
  | some other =>
      rw [hother] at hreplaced
      obtain ⟨entry, hfind, rfl⟩ := Option.map_eq_some_iff.mp hother
      have hfound : frameOf n entry.1 ≠ none := by
        rw [frameOf, dif_pos (h.inRange entry (List.mem_of_find?_eq_some hfind))]
        exact Option.some_ne_none _
      rw [Option.bind_some, if_neg hfound]
      exact .of_unmap h hreplaced hsmall hcoherent
  | none =>
      rw [hother] at hreplaced
      have hreplace : mappings.replace oldTag tag (frameId frame) =
          (frameId frame, tag) :: mappings.unmap (frameId frame) := by
        refine if_neg ?_
        rintro ⟨htag, hnot⟩
        exact hnot (hkeyed hsmall tag ((tagOf_eq h hsmall frame).trans htag))
      rw [hreplace] at hreplaced
      refine .of_cons h hreplaced hsmall hcoherent fun other hne htag => ?_
      have hnone := List.find?_eq_none.mp (Option.map_eq_none_iff.mp hother)
        (frameId other, tag) (PageTableWords.Mappings.mem_of_tagOf htag)
      simpa [mt (frameId_inj hsmall).mp hne, (frameOf_eq hsmall).mpr rfl] using hnone

end PageTable

end TelePath
