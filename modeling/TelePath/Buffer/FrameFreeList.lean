import Mathlib.Data.Fintype.Basic
import Mathlib.Data.List.Perm.Subperm
import TelePath.Logic.Linearizable
import TelePath.Logic.LinkedList
import TelePath.Logic.Machine
import TelePath.Types

/-!
The free list of `frame_free_list.h`, access by access.

`Push` and `Pop` are cut at every load, store and CAS of the head word and of the
links; between two of them the other threads may do any of theirs.  The list keeps
the calls and returns that have happened in `history`, and counts the updates of the
head word.
-/

namespace TelePath.FrameFreeList

open Logic Logic.Linearizable

abbrev FrameId := BitVec 32

def kNone : FrameId := BitVec.allOnes 32

/-- The head word: the version in the upper half, the first frame in the lower. -/
def pack (index version : BitVec 32) : BitVec 64 :=
  version.setWidth 64 <<< 32 ||| index.setWidth 64

def index (head : BitVec 64) : BitVec 32 := head.setWidth 32

def version (head : BitVec 64) : BitVec 32 := (head >>> 32).setWidth 32

@[simp] theorem index_pack (first version : BitVec 32) : index (pack first version) = first := by
  ext bit hbit
  simp [index, pack]

@[simp] theorem version_pack (first count : BitVec 32) : version (pack first count) = count := by
  ext bit hbit
  have hlow : bit < 64 := by omega
  have hhigh : 32 + bit < 64 := by omega
  simp [version, pack, hlow, hhigh, BitVec.getLsbD_eq_getElem hbit]

inductive Operation where
  | push (frameId : FrameId)
  | pop
  deriving DecidableEq, Repr

inductive Result where
  | pushed
  | popped (frameId : Option FrameId)
  deriving DecidableEq, Repr

/-- Where a thread stands in `Push` or `Pop`: the access it makes next, with the
local variables it has by then.  `loadedAt` counts the updates of the head that came
before its load. -/
inductive Phase where
  | idle
  | pushLoading (frameId : FrameId)
  | storing (frameId : FrameId) (head : BitVec 64)
  | pushSwapping (frameId : FrameId) (head : BitVec 64)
  | popLoading
  | reading (head : BitVec 64) (loadedAt : Nat)
  | popSwapping (head : BitVec 64) (next : FrameId) (loadedAt : Nat)
  | returning (result : Result)
  deriving DecidableEq, Repr

/-- The frame that a thread is pushing and has not linked yet. -/
def Phase.pushes : Phase → Option FrameId
  | .pushLoading frameId | .storing frameId _ | .pushSwapping frameId _ => some frameId
  | _ => none

/-- When a thread that is about to swap the head in `Pop` has loaded it. -/
def Phase.swapsSince : Phase → Option Nat
  | .popSwapping _ _ loadedAt => some loadedAt
  | _ => none

/-- The list of `capacity` frames, as the constructor leaves it unless said otherwise.
`fault` is set by an access outside `next`. -/
structure FreeList (Thread : Type) (capacity : Nat) where
  head : BitVec 64 := pack kNone 0
  next : FrameId → FrameId := fun _ => kNone
  phases : Thread → Phase := fun _ => .idle
  updates : Nat := 0
  fault : Bool := false
  history : List (Event Thread Operation Result) := []

/-- The frames on the path that starts at `frame`. -/
def walk (next : FrameId → FrameId) : Nat → FrameId → List FrameId
  | 0, _ => []
  | fuel + 1, frame => if frame = kNone then [] else frame :: walk next fuel (next frame)

namespace FreeList

variable {Thread : Type} {capacity : Nat}

/-- The frames on the list, first one first. -/
def contents (list : FreeList Thread capacity) : List FrameId :=
  walk list.next capacity (index list.head)

/-- `Pop` after a load of the head: leaves the loop if the list is empty. -/
def popLoaded (list : FreeList Thread capacity) : Phase :=
  if index list.head = kNone then .returning (.popped none) else .reading list.head list.updates

variable [DecidableEq Thread]

def setPhase (list : FreeList Thread capacity) (thread : Thread) (phase : Phase) :
    FreeList Thread capacity :=
  { list with phases := Function.update list.phases thread phase }

def record (list : FreeList Thread capacity) (event : Event Thread Operation Result) :
    FreeList Thread capacity :=
  { list with history := list.history ++ [event] }

/-- A CAS of the head that succeeds. -/
def swap (list : FreeList Thread capacity) (thread : Thread) (head : BitVec 64)
    (result : Result) : FreeList Thread capacity :=
  { list with head := head, updates := list.updates + 1 }.setPhase thread (.returning result)

/-- The store of `Push`. -/
def storeNext (list : FreeList Thread capacity) (thread : Thread) (frameId : FrameId)
    (head : BitVec 64) : FreeList Thread capacity :=
  { list with
    next := Function.update list.next frameId (index head)
    phases := Function.update list.phases thread (.pushSwapping frameId head) }

/-- The next access of a thread.  A weak CAS may fail although the word is the
expected one; when it fails it loads the word. -/
def advance (list : FreeList Thread capacity) (thread : Thread) (spurious : Bool) :
    Option (FreeList Thread capacity) :=
  match list.phases thread with
  | .idle => none
  | .pushLoading frameId => some (list.setPhase thread (.storing frameId list.head))
  | .storing frameId head =>
      if frameId.toNat < capacity then some (list.storeNext thread frameId head)
      else some { list with fault := true }
  | .pushSwapping frameId head =>
      if list.head = head ∧ spurious = false then
        some (list.swap thread (pack frameId (version head + 1)) .pushed)
      else some (list.setPhase thread (.storing frameId list.head))
  | .popLoading => some (list.setPhase thread list.popLoaded)
  | .reading head loadedAt =>
      if (index head).toNat < capacity then
        some (list.setPhase thread (.popSwapping head (list.next (index head)) loadedAt))
      else some { list with fault := true }
  | .popSwapping head next _ =>
      if list.head = head ∧ spurious = false then
        some (list.swap thread (pack next (version head + 1)) (.popped (some (index head))))
      else some (list.setPhase thread list.popLoaded)
  | .returning result =>
      some ((list.setPhase thread .idle).record (.returned thread result))

end FreeList

inductive Move where
  | call (operation : Operation)
  | advance (spurious : Bool)
  deriving DecidableEq, Repr

def Operation.entry : Operation → Phase
  | .push frameId => .pushLoading frameId
  | .pop => .popLoading

section Steps

variable {Thread : Type} {capacity : Nat} [DecidableEq Thread]

def step (list : FreeList Thread capacity) : Thread × Move → Option (FreeList Thread capacity)
  | (thread, .call operation) =>
      if list.phases thread = .idle then
        some ((list.setPhase thread operation.entry).record (.call thread operation))
      else none
  | (thread, .advance spurious) => list.advance thread spurious

omit [DecidableEq Thread] in
/-- Only a frame of the pool is pushed that is neither on the list nor about to be put
there by another call, and the head is updated fewer than `2 ^ 32` times between a load
of `Pop` and its CAS. -/
def Allowed (list : FreeList Thread capacity) : Thread × Move → Prop
  | (_, .call (.push frameId)) =>
      frameId.toNat < capacity ∧ frameId ∉ list.contents ∧
        ∀ thread, (list.phases thread).pushes ≠ some frameId
  | (_, .call .pop) => True
  | (thread, .advance _) =>
      ∀ loadedAt ∈ (list.phases thread).swapsSince, list.updates - loadedAt < 2 ^ 32

end Steps

instance decidableAllowed {Thread : Type} {capacity : Nat} [Fintype Thread]
    (list : FreeList Thread capacity) : ∀ input, Decidable (Allowed list input)
  | (_, .call (.push _)) => inferInstanceAs (Decidable (_ ∧ _ ∧ ∀ _, _))
  | (_, .call .pop) => isTrue trivial
  | (_, .advance _) => inferInstanceAs (Decidable (∀ _ ∈ _, _))

/-- A stack of distinct frames for one thread at a time. -/
def stackObject : Object (List FrameId) Operation Result where
  start := []
  apply
    | stack, .push frameId => if frameId ∈ stack then none else some (frameId :: stack, .pushed)
    | [], .pop => some ([], .popped none)
    | frameId :: stack, .pop => some (stack, .popped (some frameId))

/-! ### The links and the stack they form -/

theorem walk_eq {next : FrameId → FrameId} {frame : FrameId} {stack : List FrameId}
    (h : Linked next kNone frame stack) {fuel : Nat} (hfuel : stack.length ≤ fuel) :
    walk next fuel frame = stack := by
  induction stack generalizing frame fuel with
  | nil =>
      cases fuel with
      | zero => rfl
      | succ fuel => exact if_pos h
  | cons first stack ih =>
      obtain ⟨rfl, hframe, hrest⟩ := h
      cases fuel with
      | zero => simp at hfuel
      | succ fuel =>
          rw [walk, if_neg hframe, ih hrest (by simpa using hfuel)]

theorem length_le_capacity {stack : List FrameId} {capacity : Nat} (hnodup : stack.Nodup)
    (hinside : ∀ frame ∈ stack, frame.toNat < capacity) : stack.length ≤ capacity := by
  have hmap : (stack.map BitVec.toNat).Nodup :=
    hnodup.map fun _ _ hsame => BitVec.eq_of_toNat_eq hsame
  have hsub : stack.map BitVec.toNat ⊆ List.range capacity := by
    intro number hnumber
    obtain ⟨frame, hframe, rfl⟩ := List.mem_map.mp hnumber
    exact List.mem_range.mpr (hinside frame hframe)
  simpa using (List.subperm_of_subset hmap hsub).length_le

/-! ### What holds between two accesses -/

section Soundness

variable {Thread : Type} {capacity : Nat}

/-- The head word is still the loaded one unless it has been updated since. -/
structure Loaded (list : FreeList Thread capacity) (head : BitVec 64) (loadedAt : Nat) : Prop where
  nonempty : index head ≠ kNone
  inside : (index head).toNat < capacity
  before : loadedAt ≤ list.updates
  counted : version head = BitVec.ofNat 32 loadedAt
  current : loadedAt = list.updates → list.head = head

def Phase.Holds (list : FreeList Thread capacity) : Phase → Stage Operation Result → Prop
  | .idle, stage => stage = .idle
  | .pushLoading frameId, stage => stage = .called (.push frameId)
  | .storing frameId _, stage => stage = .called (.push frameId)
  | .pushSwapping frameId head, stage =>
      stage = .called (.push frameId) ∧ list.next frameId = index head
  | .popLoading, stage => stage = .called .pop
  | .reading head loadedAt, stage => stage = .called .pop ∧ Loaded list head loadedAt
  | .popSwapping head next loadedAt, stage =>
      stage = .called .pop ∧ Loaded list head loadedAt ∧
        (loadedAt = list.updates → list.next (index head) = next)
  | .returning result, stage => stage = .done result

/-- The list is `stack`, and its threads are at `stages`. -/
structure Sound (list : FreeList Thread capacity) (stack : List FrameId)
    (stages : Thread → Stage Operation Result) : Prop where
  linked : Linked list.next kNone (index list.head) stack
  nodup : stack.Nodup
  inside : ∀ frame ∈ stack, frame.toNat < capacity
  counted : version list.head = BitVec.ofNat 32 list.updates
  threads : ∀ thread, (list.phases thread).Holds list (stages thread)
  off : ∀ thread frame, (list.phases thread).pushes = some frame →
    frame.toNat < capacity ∧ frame ∉ stack
  alone : ∀ thread other frame, (list.phases thread).pushes = some frame →
    (list.phases other).pushes = some frame → thread = other
  noFault : list.fault = false

theorem sound_initial : Sound ({} : FreeList Thread capacity) [] fun _ => .idle where
  linked := by simp [Linked]
  nodup := List.nodup_nil
  inside := by simp
  counted := by simp
  threads := fun _ => rfl
  off := by simp [Phase.pushes]
  alone := by simp [Phase.pushes]
  noFault := rfl

variable {list : FreeList Thread capacity} {stack : List FrameId}
  {stages : Thread → Stage Operation Result}

theorem Sound.contents_eq (h : Sound list stack stages) : list.contents = stack :=
  walk_eq h.linked (length_le_capacity h.nodup h.inside)

theorem Sound.first_mem (h : Sound list stack stages) (hne : index list.head ≠ kNone) :
    ∃ rest, stack = index list.head :: rest ∧
      Linked list.next kNone (list.next (index list.head)) rest := by
  have hlinked := h.linked
  cases stack with
  | nil => exact absurd hlinked hne
  | cons first rest =>
      obtain ⟨hfirst, -, hrest⟩ := hlinked
      exact ⟨rest, by rw [hfirst], hfirst ▸ hrest⟩

theorem Sound.loaded (h : Sound list stack stages) (hne : index list.head ≠ kNone) :
    Loaded list list.head list.updates := by
  obtain ⟨rest, hstack, -⟩ := h.first_mem hne
  exact ⟨hne, h.inside _ (by simp [hstack]), le_rfl, h.counted, fun _ => rfl⟩

theorem Loaded.congr {next : FreeList Thread capacity} {head : BitVec 64} {loadedAt : Nat}
    (h : Loaded list head loadedAt) (hhead : next.head = list.head)
    (hupdates : next.updates = list.updates) : Loaded next head loadedAt := by
  refine ⟨h.nonempty, h.inside, ?_, h.counted, ?_⟩
  · rw [hupdates]
    exact h.before
  · rw [hupdates, hhead]
    exact h.current

theorem Phase.Holds.congr {phase : Phase} {stage : Stage Operation Result}
    (h : phase.Holds list stage) {next : FreeList Thread capacity} (hhead : next.head = list.head)
    (hlinks : next.next = list.next) (hupdates : next.updates = list.updates) :
    phase.Holds next stage := by
  cases phase with
  | pushSwapping frameId head => exact ⟨h.1, by rw [hlinks]; exact h.2⟩
  | reading head loadedAt => exact ⟨h.1, h.2.congr hhead hupdates⟩
  | popSwapping head read loadedAt =>
      exact ⟨h.1, h.2.1.congr hhead hupdates, by rw [hlinks, hupdates]; exact h.2.2⟩
  | _ => exact h

def Unlisted (list : FreeList Thread capacity) (stack : List FrameId) (thread : Thread)
    (frame : FrameId) : Prop :=
  frame.toNat < capacity ∧ frame ∉ stack ∧
    ∀ other, other ≠ thread → (list.phases other).pushes ≠ some frame

theorem Sound.unlisted (h : Sound list stack stages) {thread : Thread} {frame : FrameId}
    (hpushes : (list.phases thread).pushes = some frame) : Unlisted list stack thread frame := by
  obtain ⟨hpool, hoff⟩ := h.off thread frame hpushes
  exact ⟨hpool, hoff, fun other hne hother => hne (h.alone other thread frame hother hpushes)⟩

/-- What a thread knows stays true when only the link of a frame changes that is
neither on the list nor pushed by this thread. -/
theorem Sound.holds_store (h : Sound list stack stages) {next : FreeList Thread capacity}
    {thread : Thread} {frame link : FrameId} (hhead : next.head = list.head)
    (hupdates : next.updates = list.updates)
    (hnext : next.next = Function.update list.next frame link) (hoff : frame ∉ stack)
    (hother : (list.phases thread).pushes ≠ some frame) :
    (list.phases thread).Holds next (stages thread) := by
  have hthread := h.threads thread
  generalize list.phases thread = phase at hthread hother
  cases phase with
  | pushSwapping frameId head =>
      have hne : frameId ≠ frame := fun hsame => hother (by simp [Phase.pushes, hsame])
      refine ⟨hthread.1, ?_⟩
      rw [hnext, Function.update_of_ne hne]
      exact hthread.2
  | reading head loadedAt => exact ⟨hthread.1, hthread.2.congr hhead hupdates⟩
  | popSwapping head read loadedAt =>
      obtain ⟨hstage, hloaded, hread⟩ := hthread
      refine ⟨hstage, hloaded.congr hhead hupdates, ?_⟩
      rw [hupdates, hnext]
      intro hcurrent
      -- a head that is still current is on the list, so its link was not stored
      have hsame := hloaded.current hcurrent
      obtain ⟨rest, hstack, -⟩ := h.first_mem (hsame ▸ hloaded.nonempty)
      have hne : index head ≠ frame := by
        rintro rfl
        exact hoff (by simp [hstack, hsame])
      rw [Function.update_of_ne hne]
      exact hread hcurrent
  | _ => exact hthread

theorem Phase.Holds.swap {phase : Phase} {stage : Stage Operation Result}
    (h : phase.Holds list stage) {next : FreeList Thread capacity}
    (hupdates : next.updates = list.updates + 1) (hnext : next.next = list.next) :
    phase.Holds next stage := by
  have hstale : ∀ {head loadedAt}, Loaded list head loadedAt → Loaded next head loadedAt ∧
      loadedAt ≠ next.updates := by
    intro head loadedAt hloaded
    have hbefore := hloaded.before
    have hne : loadedAt ≠ next.updates := by omega
    exact ⟨⟨hloaded.nonempty, hloaded.inside, by omega, hloaded.counted,
      fun hsame => absurd hsame hne⟩, hne⟩
  cases phase with
  | pushSwapping frameId head => exact ⟨h.1, by rw [hnext]; exact h.2⟩
  | reading head loadedAt => exact ⟨h.1, (hstale h.2).1⟩
  | popSwapping head read loadedAt =>
      exact ⟨h.1, (hstale h.2.1).1, fun hsame => absurd hsame (hstale h.2.1).2⟩
  | _ => exact h

variable [DecidableEq Thread] {thread : Thread}

/-- How each step changes what is known: one thread moves to `phase` and `stage`, and
the others still know what they knew. -/
theorem Sound.move (h : Sound list stack stages) {next : FreeList Thread capacity}
    {newStack : List FrameId} {phase : Phase} {stage : Stage Operation Result}
    (hphases : next.phases = Function.update list.phases thread phase)
    (hlinked : Linked next.next kNone (index next.head) newStack) (hnodup : newStack.Nodup)
    (hinside : ∀ frame ∈ newStack, frame.toNat < capacity)
    (hcounted : version next.head = BitVec.ofNat 32 next.updates)
    (hholds : phase.Holds next stage)
    (hothers : ∀ other, other ≠ thread → (list.phases other).Holds next (stages other))
    (hoff : ∀ frame, phase.pushes = some frame → Unlisted list newStack thread frame)
    (hstay : ∀ other, other ≠ thread → ∀ frame, (list.phases other).pushes = some frame →
      frame ∉ newStack)
    (hfault : next.fault = false) :
    Sound next newStack (Function.update stages thread stage) := by
  have hself : next.phases thread = phase := by rw [hphases, Function.update_self]
  have hother : ∀ other, other ≠ thread → next.phases other = list.phases other :=
    fun other hne => by rw [hphases, Function.update_of_ne hne]
  refine ⟨hlinked, hnodup, hinside, hcounted, ?_, ?_, ?_, hfault⟩
  · intro other
    by_cases hsame : other = thread
    · subst hsame
      rw [hself, Function.update_self]
      exact hholds
    · rw [hother other hsame, Function.update_of_ne hsame]
      exact hothers other hsame
  · intro other frame hpushes
    by_cases hsame : other = thread
    · subst hsame
      obtain ⟨hpool, hnot, -⟩ := hoff frame (hself ▸ hpushes)
      exact ⟨hpool, hnot⟩
    · rw [hother other hsame] at hpushes
      exact ⟨(h.off other frame hpushes).1, hstay other hsame frame hpushes⟩
  · intro first second frame hfirst hsecond
    by_cases hone : first = thread
    · by_cases htwo : second = thread
      · rw [hone, htwo]
      · subst hone
        rw [hother second htwo] at hsecond
        exact absurd hsecond ((hoff frame (hself ▸ hfirst)).2.2 second htwo)
    · rw [hother first hone] at hfirst
      by_cases htwo : second = thread
      · subst htwo
        exact absurd hfirst ((hoff frame (hself ▸ hsecond)).2.2 first hone)
      · rw [hother second htwo] at hsecond
        exact h.alone first second frame hfirst hsecond

theorem Sound.goOn (h : Sound list stack stages) {next : FreeList Thread capacity}
    {phase : Phase} {stage : Stage Operation Result}
    (hphases : next.phases = Function.update list.phases thread phase)
    (hhead : next.head = list.head) (hlinks : next.next = list.next)
    (hupdates : next.updates = list.updates) (hfault : next.fault = list.fault)
    (hholds : phase.Holds list stage)
    (hoff : ∀ frame, phase.pushes = some frame → Unlisted list stack thread frame) :
    Sound next stack (Function.update stages thread stage) := by
  refine h.move hphases ?_ h.nodup h.inside ?_ (hholds.congr hhead hlinks hupdates) ?_ hoff ?_ ?_
  · rw [hlinks, hhead]
    exact h.linked
  · rw [hhead, hupdates]
    exact h.counted
  · exact fun other _ => (h.threads other).congr hhead hlinks hupdates
  · exact fun other _ frame hpushes => (h.off other frame hpushes).2
  · rw [hfault]
    exact h.noFault

theorem Sound.store (h : Sound list stack stages) {frameId : FrameId} {head : BitVec 64}
    (hthread : list.phases thread = .storing frameId head) :
    Sound (list.storeNext thread frameId head) stack stages := by
  have hpushes : (list.phases thread).pushes = some frameId := by rw [hthread]; rfl
  have howned := h.unlisted hpushes
  have hstage : stages thread = .called (.push frameId) := by
    simpa [hthread, Phase.Holds] using h.threads thread
  have hkept : ∀ frame ∈ stack,
      Function.update list.next frameId (index head) frame = list.next frame := by
    intro frame hframe
    refine Function.update_of_ne ?_ ..
    rintro rfl
    exact howned.2.1 hframe
  rw [← Function.update_eq_self thread stages]
  refine h.move rfl (h.linked.congr hkept) h.nodup h.inside h.counted
    ⟨hstage, Function.update_self ..⟩ ?_ ?_ ?_ h.noFault
  · exact fun other hne => h.holds_store rfl rfl rfl howned.2.1 (howned.2.2 other hne)
  · rintro frame ⟨⟩
    exact howned
  · exact fun other _ frame hother => (h.off other frame hother).2

theorem Sound.swap (h : Sound list stack stages) {head : BitVec 64} {newStack : List FrameId}
    {result : Result} (hversion : version head = version list.head + 1)
    (hlinked : Linked list.next kNone (index head) newStack) (hnodup : newStack.Nodup)
    (hinside : ∀ frame ∈ newStack, frame.toNat < capacity)
    (hstay : ∀ other, other ≠ thread → ∀ frame, (list.phases other).pushes = some frame →
      frame ∉ newStack) :
    Sound (list.swap thread head result) newStack
      (Function.update stages thread (.done result)) := by
  refine h.move rfl hlinked hnodup hinside ?_ rfl ?_ (by simp [Phase.pushes]) hstay h.noFault
  · change version head = BitVec.ofNat 32 (list.updates + 1)
    rw [hversion, h.counted, BitVec.ofNat_add]
    rfl
  · exact fun other _ => (h.threads other).swap rfl rfl

theorem Sound.swapPush (h : Sound list stack stages) {frameId : FrameId} {head : BitVec 64}
    (hcapacity : capacity ≤ kNone.toNat)
    (hthread : list.phases thread = .pushSwapping frameId head) (hhead : list.head = head) :
    Sound (list.swap thread (pack frameId (version head + 1)) .pushed) (frameId :: stack)
      (Function.update stages thread (.done .pushed)) := by
  have hpushes : (list.phases thread).pushes = some frameId := by rw [hthread]; rfl
  obtain ⟨hpool, hoff, hothers⟩ := h.unlisted hpushes
  have hlink : list.next frameId = index head := by
    have hholds := h.threads thread
    rw [hthread] at hholds
    exact hholds.2
  refine h.swap (by rw [version_pack, hhead]) ?_ (List.nodup_cons.mpr ⟨hoff, h.nodup⟩) ?_ ?_
  · rw [index_pack]
    refine ⟨rfl, ?_, ?_⟩
    · rintro rfl
      omega
    · rw [hlink, ← hhead]
      exact h.linked
  · intro frame hframe
    rcases List.mem_cons.mp hframe with rfl | hmem
    · exact hpool
    · exact h.inside frame hmem
  · intro other hne frame hother hmem
    rcases List.mem_cons.mp hmem with rfl | hold
    · exact hothers other hne hother
    · exact (h.off other frame hother).2 hold

omit [DecidableEq Thread] in
theorem Sound.loadedAt_eq (h : Sound list stack stages) {loadedAt : Nat}
    (hloaded : Loaded list list.head loadedAt) (hfew : list.updates - loadedAt < 2 ^ 32) :
    loadedAt = list.updates := by
  have hversions := congrArg BitVec.toNat (hloaded.counted.symm.trans h.counted)
  have hbefore := hloaded.before
  simp only [BitVec.toNat_ofNat] at hversions
  omega

theorem Sound.swapPop (h : Sound list stack stages) {head : BitVec 64} {read : FrameId}
    {loadedAt : Nat} (hthread : list.phases thread = .popSwapping head read loadedAt)
    (hhead : list.head = head) (hfew : list.updates - loadedAt < 2 ^ 32) :
    ∃ rest, stack = index head :: rest ∧
      Sound (list.swap thread (pack read (version head + 1)) (.popped (some (index head)))) rest
        (Function.update stages thread (.done (.popped (some (index head))))) := by
  have hholds := h.threads thread
  rw [hthread] at hholds
  obtain ⟨-, hloaded, hread⟩ := hholds
  subst hhead
  have hcurrent := h.loadedAt_eq hloaded hfew
  obtain ⟨rest, hstack, hlinked⟩ := h.first_mem hloaded.nonempty
  have hsub : ∀ frame ∈ rest, frame ∈ stack := fun frame hframe => by simp [hstack, hframe]
  refine ⟨rest, hstack, h.swap (by rw [version_pack]) ?_ ?_ ?_ ?_⟩
  · rw [index_pack, ← hread hcurrent]
    exact hlinked
  · exact (List.nodup_cons.mp (hstack ▸ h.nodup)).2
  · exact fun frame hframe => h.inside frame (hsub frame hframe)
  · exact fun other _ frame hother hmem => (h.off other frame hother).2 (hsub frame hmem)

theorem Sound.popLoaded (h : Sound list stack stages) (hne : index list.head ≠ kNone)
    (hstage : stages thread = .called .pop) :
    Sound (list.setPhase thread list.popLoaded) stack stages := by
  rw [← Function.update_eq_self thread stages, hstage, FreeList.popLoaded, if_neg hne]
  exact h.goOn rfl rfl rfl rfl rfl ⟨rfl, h.loaded hne⟩ (by simp [Phase.pushes])

/-! ### Linearization -/

/-- The calls and returns so far are those of a run of the stack in which every operation
takes effect at one instant, and the list is the stack that this run has come to. -/
def Linearized (list : FreeList Thread capacity) : Prop :=
  ∃ instants stack stages, Runs stackObject instants stack stages ∧
    history instants = list.history ∧ Sound list stack stages

variable {instants : List (Instant Thread Operation Result)} {next : FreeList Thread capacity}

theorem Linearized.effect {newStack : List FrameId} {operation : Operation} {result : Result}
    (hruns : Runs stackObject instants stack stages) (hhistory : history instants = next.history)
    (hstage : stages thread = .called operation)
    (happly : stackObject.apply stack operation = some (newStack, result))
    (hsound : Sound next newStack (Function.update stages thread (.done result))) :
    Linearized next :=
  ⟨_, _, _, hruns.effect hstage happly, by rw [history_snoc_effect, hhistory], hsound⟩

theorem Linearized.popLoaded (hruns : Runs stackObject instants stack stages)
    (hhistory : history instants = list.history) (hsound : Sound list stack stages)
    (hstage : stages thread = .called .pop) :
    Linearized (list.setPhase thread list.popLoaded) := by
  by_cases hempty : index list.head = kNone
  · have hstack : stack = [] := by
      have hlinked := hsound.linked
      cases stack with
      | nil => rfl
      | cons first rest => exact absurd hempty (hlinked.1 ▸ hlinked.2.1)
    subst hstack
    refine .effect hruns hhistory hstage rfl ?_
    rw [FreeList.popLoaded, if_pos hempty]
    exact hsound.goOn rfl rfl rfl rfl rfl rfl (by simp [Phase.pushes])
  · exact ⟨instants, stack, stages, hruns, hhistory, hsound.popLoaded hempty hstage⟩

theorem Linearized.call (h : Linearized list) {operation : Operation}
    (hallowed : Allowed list (thread, .call operation)) (hidle : list.phases thread = .idle) :
    Linearized ((list.setPhase thread operation.entry).record (.call thread operation)) := by
  obtain ⟨instants, stack, stages, hruns, hhistory, hsound⟩ := h
  have hstage : stages thread = .idle := by
    simpa [hidle, Phase.Holds] using hsound.threads thread
  refine ⟨_, _, _, hruns.call thread operation hstage, ?_, ?_⟩
  · rw [history_snoc_visible, hhistory]
    rfl
  cases operation with
  | push frameId =>
      obtain ⟨hpool, hoff, hothers⟩ := hallowed
      rw [hsound.contents_eq] at hoff
      refine hsound.goOn rfl rfl rfl rfl rfl rfl ?_
      rintro frame ⟨⟩
      exact ⟨hpool, hoff, fun other _ => hothers other⟩
  | pop => exact hsound.goOn rfl rfl rfl rfl rfl rfl (by simp [Operation.entry, Phase.pushes])

theorem Sound.goOnPushing (h : Sound list stack stages) {frameId : FrameId} {phase : Phase}
    (hpushes : (list.phases thread).pushes = some frameId) (hphase : phase.pushes = some frameId)
    (hholds : phase.Holds list (stages thread)) : Sound (list.setPhase thread phase) stack stages := by
  rw [← Function.update_eq_self thread stages]
  refine h.goOn rfl rfl rfl rfl rfl hholds ?_
  intro frame hframe
  obtain rfl : frameId = frame := Option.some.inj (hphase.symm.trans hframe)
  exact h.unlisted hpushes

theorem Linearized.advance (hcapacity : capacity ≤ kNone.toNat) (h : Linearized list)
    {spurious : Bool} (hallowed : Allowed list (thread, .advance spurious))
    (hnext : list.advance thread spurious = some next) : Linearized next := by
  obtain ⟨instants, stack, stages, hruns, hhistory, hsound⟩ := h
  have hholds := hsound.threads thread
  simp only [FreeList.advance] at hnext
  cases hphase : list.phases thread with
  | idle => simp [hphase] at hnext
  | pushLoading frameId =>
      simp only [hphase, Option.some.injEq] at hnext hholds
      subst hnext
      exact ⟨_, _, _, hruns, hhistory,
        hsound.goOnPushing (by rw [hphase]; rfl) rfl hholds⟩
  | storing frameId head =>
      have hpool := (hsound.off thread frameId (by rw [hphase]; rfl)).1
      simp only [hphase, if_pos hpool, Option.some.injEq] at hnext
      subst hnext
      exact ⟨_, _, _, hruns, hhistory, hsound.store hphase⟩
  | pushSwapping frameId head =>
      rw [hphase] at hholds
      simp only [hphase] at hnext
      split at hnext <;> cases hnext
      · rename_i hswap
        have hoff := (hsound.off thread frameId (by rw [hphase]; rfl)).2
        exact .effect hruns hhistory hholds.1 (if_neg hoff)
          (hsound.swapPush hcapacity hphase hswap.1)
      · exact ⟨_, _, _, hruns, hhistory,
          hsound.goOnPushing (by rw [hphase]; rfl) rfl hholds.1⟩
  | popLoading =>
      simp only [hphase, Option.some.injEq] at hnext hholds
      subst hnext
      exact .popLoaded hruns hhistory hsound hholds
  | reading head loadedAt =>
      rw [hphase] at hholds
      simp only [hphase, if_pos hholds.2.inside, Option.some.injEq] at hnext
      subst hnext
      refine ⟨_, _, _, hruns, hhistory, ?_⟩
      rw [← Function.update_eq_self thread stages]
      exact hsound.goOn rfl rfl rfl rfl rfl ⟨hholds.1, hholds.2, fun _ => rfl⟩
        (by simp [Phase.pushes])
  | popSwapping head read loadedAt =>
      rw [hphase] at hholds
      simp only [hphase] at hnext
      split at hnext <;> cases hnext
      · rename_i hswap
        have hfew : list.updates - loadedAt < 2 ^ 32 := hallowed loadedAt (by rw [hphase]; rfl)
        obtain ⟨rest, rfl, hafter⟩ := hsound.swapPop hphase hswap.1 hfew
        exact .effect hruns hhistory hholds.1 rfl hafter
      · exact .popLoaded hruns hhistory hsound hholds.1
  | returning result =>
      simp only [hphase, Option.some.injEq] at hnext hholds
      subst hnext
      refine ⟨_, _, _, hruns.returned hholds, ?_, ?_⟩
      · rw [history_snoc_visible, hhistory]
        rfl
      · exact hsound.goOn rfl rfl rfl rfl rfl rfl (by simp [Phase.pushes])

theorem Linearized.step (hcapacity : capacity ≤ kNone.toNat) (h : Linearized list)
    {input : Thread × Move} (hallowed : Allowed list input) (hnext : step list input = some next) :
    Linearized next := by
  obtain ⟨thread, move⟩ := input
  cases move with
  | call operation =>
      simp only [FrameFreeList.step] at hnext
      split at hnext <;> cases hnext
      rename_i hidle
      exact h.call hallowed hidle
  | advance spurious => exact h.advance hcapacity hallowed hnext

def pushes (frameId : FrameId) (instants : List (Instant Thread Operation Result)) : Nat :=
  instants.countP fun
    | .effect _ (.push pushed) _ => pushed = frameId
    | _ => false

def pops (frameId : FrameId) (instants : List (Instant Thread Operation Result)) : Nat :=
  instants.countP fun
    | .effect _ _ (.popped (some popped)) => popped = frameId
    | _ => false

theorem runs_conserve (hruns : Runs stackObject instants stack stages) :
    stack.Nodup ∧ ∀ frameId, pushes frameId instants =
      pops frameId instants + stack.count frameId := by
  induction hruns with
  | start => exact ⟨List.nodup_nil, fun _ => rfl⟩
  | call thread operation hruns hidle ih => simpa [pushes, pops] using ih
  | returned hruns hdone ih => simpa [pushes, pops] using ih
  | @effect instants stack stages newStack thread operation result hruns hcalled happly ih =>
      obtain ⟨hnodup, hcount⟩ := ih
      cases operation with
      | push pushed =>
          simp only [stackObject, Option.ite_none_left_eq_some, Option.some.injEq,
            Prod.mk.injEq] at happly
          obtain ⟨hoff, rfl, rfl⟩ := happly
          refine ⟨List.nodup_cons.mpr ⟨hoff, hnodup⟩, fun frameId => ?_⟩
          have hold := hcount frameId
          simp only [pushes, pops] at hold ⊢
          simp [List.count_cons, hold]
          omega
      | pop =>
          cases stack with
          | nil =>
              simp only [stackObject, Option.some.injEq, Prod.mk.injEq] at happly
              obtain ⟨rfl, rfl⟩ := happly
              simpa [pushes, pops] using hcount
          | cons first rest =>
              simp only [stackObject, Option.some.injEq, Prod.mk.injEq] at happly
              obtain ⟨rfl, rfl⟩ := happly
              refine ⟨(List.nodup_cons.mp hnodup).2, fun frameId => ?_⟩
              have hold := hcount frameId
              simp only [pushes, pops] at hold ⊢
              simp [List.count_cons, hold]
              omega

/-- In every run with calls and delays as `Allowed` asks, the calls and returns of `Push`
and `Pop` are those of a run of a stack in which each of them takes effect at one instant
between its call and its return.  The links lead through the stack of this run to the end
of the list and through no frame twice, and no access is outside the pool.  No frame is
lost: a frame is on the list exactly if it was pushed once more than popped; and it is
never popped twice, counted up to any instant, without a push between. -/
theorem free_list_linearizable (hcapacity : capacity < kNone.toNat)
    {inputs : List (Thread × Move)} {final : FreeList Thread capacity}
    (hallowed : Machine.Meets step Allowed ({} : FreeList Thread capacity) inputs)
    (hrun : Machine.run step {} inputs = some final) :
    ∃ instants stages, Runs stackObject instants final.contents stages ∧
      history instants = final.history ∧
      Linked final.next kNone (index final.head) final.contents ∧ final.contents.Nodup ∧
      final.fault = false ∧
      ∀ frameId, pushes frameId instants = pops frameId instants + final.contents.count frameId ∧
        ∀ count, pops frameId (instants.take count) ≤ pushes frameId (instants.take count) ∧
          pushes frameId (instants.take count) ≤ pops frameId (instants.take count) + 1 := by
  have hinitial : Linearized ({} : FreeList Thread capacity) :=
    ⟨[], [], fun _ => .idle, .start, rfl, sound_initial⟩
  obtain ⟨instants, stack, stages, hruns, hhistory, hsound⟩ :=
    Machine.invariant_of_meets (fun _ _ _ h hinput hnext => h.step hcapacity.le hinput hnext)
      hinitial hallowed hrun
  have hcontents := hsound.contents_eq
  refine ⟨instants, stages, by rw [hcontents]; exact hruns, hhistory, ?_, ?_, hsound.noFault, ?_⟩
  · rw [hcontents]
    exact hsound.linked
  · rw [hcontents]
    exact hsound.nodup
  · intro frameId
    refine ⟨by rw [hcontents]; exact (runs_conserve hruns).2 frameId, fun count => ?_⟩
    obtain ⟨earlier, earlierStages, hearlier⟩ := hruns.take count
    obtain ⟨hnodup, hcount⟩ := runs_conserve hearlier
    have hone := List.nodup_iff_count_le_one.mp hnodup frameId
    have htotal := hcount frameId
    omega

/-- A `Pop` has loaded the head and the link of frame 1 when another thread pops both
frames and pushes frame 1 back.  The head names the same frame as before, but its version
shows that the link is out of date. -/
def overtakenPop : List (Fin 2 × Move) :=
  let pushing (frameId : FrameId) : List (Fin 2 × Move) :=
    (0, .call (.push frameId)) :: List.replicate 4 (0, .advance false)
  let popping : List (Fin 2 × Move) := (0, .call .pop) :: List.replicate 4 (0, .advance false)
  pushing 0 ++ pushing 1 ++ [(1, .call .pop), (1, .advance false), (1, .advance false)] ++
    popping ++ popping ++ pushing 1 ++ List.replicate 4 (1, .advance false)

theorem free_list_linearizable_overtakenPop :
    ∃ final instants stages, Machine.run step ({} : FreeList (Fin 2) 2) overtakenPop = some final ∧
      final.history.getLast? = some (.returned 1 (.popped (some 1))) ∧
      Runs stackObject instants final.contents stages ∧ history instants = final.history := by
  have hlast : (Machine.run step ({} : FreeList (Fin 2) 2) overtakenPop).map
      (fun final => final.history.getLast?) = some (some (.returned 1 (.popped (some 1)))) := by
    decide +kernel
  obtain ⟨final, hfinal, hreturned⟩ := Option.map_eq_some_iff.mp hlast
  have hallowed : Machine.Meets step Allowed ({} : FreeList (Fin 2) 2) overtakenPop := by
    decide +kernel
  obtain ⟨instants, stages, hruns, hhistory, -⟩ :=
    free_list_linearizable (by decide) hallowed hfinal
  exact ⟨final, instants, stages, hfinal, hreturned, hruns, hhistory⟩

end Soundness

end TelePath.FrameFreeList
