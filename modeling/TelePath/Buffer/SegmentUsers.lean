import Mathlib.Data.List.TakeWhile
import TelePath.Buffer.SharedSegment

/-!
Who is attached to which segment, in every run of the protocol.

What a process knows depends on its role towards the segment it works on.  A process
relies on little that others may change: the creator of a segment is the only one to
touch it until it is ready, and a segment loses its name only after its counter was
marked or because its creator gave it up.
-/

namespace TelePath.SharedSegment

open Logic

/-- What a process is to the segment it works on.  It has only opened it (`viewer`),
seen it ready (`reader`), checked its shape (`user`), created it and not attached yet,
before (`young`) and after (`drafted`) filling in the header, created it and attached
(`maker`), and, on its way out, found that it never became ready (`leaver`), found
itself the last user (`marker`) or got to remove the name (`remover`). -/
inductive Role where
  | nobody
  | viewer (segment : Nat)
  | reader (segment : Nat)
  | user (segment : Nat)
  | young (segment : Nat)
  | drafted (segment : Nat)
  | maker (segment : Nat)
  | leaver (segment : Nat)
  | marker (segment : Nat)
  | remover (segment : Nat)
  deriving DecidableEq, Repr

def Phase.role : Phase → Role
  | .outside | .creating | .opening | .retrying => .nobody
  | .waitingSize segment | .mapping segment false _ | .waitingReady segment _ => .viewer segment
  | .readingState segment false false _ => .viewer segment
  | .comparing segment _ => .reader segment
  | .loading segment false | .attaching segment false _ | .claiming segment false => .user segment
  | .attached segment false | .readingState segment false true _ => .user segment
  | .detaching segment false _ => .user segment
  | .sizing segment | .mapping segment true _ | .constructing segment => .young segment
  | .loading segment true | .attaching segment true _ => .drafted segment
  | .readingState segment true false _ => .drafted segment
  | .claiming segment true | .attached segment true => .maker segment
  | .readingState segment true true _ => .maker segment
  | .detaching segment true _ => .leaver segment
  | .marking segment _ => .marker segment
  | .unlinking segment _ => .remover segment

/-- The segment that counts the process among its users. -/
def Phase.counted : Phase → Option Nat
  | .claiming segment _ | .attached segment _ | .readingState segment _ true _ => some segment
  | .detaching segment _ _ => some segment
  | _ => none

def Phase.observed? : Phase → Option (BitVec 32)
  | .attaching _ _ observed => some observed
  | _ => none

/-- What a header keeps of a shape. -/
def Shape.stored (shape : Shape) : Shape :=
  { shape with
    replacerKind := (shape.replacerKind.takeWhile (· ≠ 0#8)).take (kReplacerKindBytes - 1) }

theorem takeWhile_storedKind (kind : List (BitVec 8)) :
    (storedKind kind).takeWhile (· ≠ 0#8) =
      (kind.takeWhile (· ≠ 0#8)).take (kReplacerKindBytes - 1) := by
  rw [storedKind, List.takeWhile_append_of_pos]
  · simp
  · intro byte hbyte
    exact List.mem_takeWhile_imp (p := fun byte => byte ≠ 0#8) (List.mem_of_mem_take hbyte)

theorem shape_create (shape : Shape) : (Header.create shape).shape = shape.stored := by
  rw [Header.shape, Header.create, takeWhile_storedKind, Shape.stored]

theorem shape_of_sameShape {header : Header} {shape : Shape} {bytes : Size}
    (hsame : header.sameShape shape bytes = true) : header.shape = shape.stored := by
  simp only [Header.sameShape, decide_eq_true_eq] at hsame
  obtain ⟨-, -, hblock, hpool, hstripes, hstate, hkernel, hstored⟩ := hsame
  rw [Header.shape, hblock, hpool, hstripes, hstate, hkernel, hstored, takeWhile_storedKind,
    Shape.stored]

/-- The kind fits into its array with a terminator, and ends nowhere earlier. -/
def Shape.Short (shape : Shape) : Prop :=
  shape.replacerKind.length < kReplacerKindBytes ∧ 0#8 ∉ shape.replacerKind

instance (shape : Shape) : Decidable shape.Short := inferInstanceAs (Decidable (_ ∧ _))

theorem Shape.Short.stored_eq {shape : Shape} (h : shape.Short) : shape.stored = shape := by
  have hall : ∀ byte ∈ shape.replacerKind, decide (byte ≠ 0#8) = true := by
    intro byte hbyte
    simp only [decide_eq_true_eq]
    rintro rfl
    exact h.2 hbyte
  rw [Shape.stored, List.takeWhile_eq_self_iff.mpr hall,
    List.take_of_length_le (Nat.le_sub_one_of_lt h.1)]

section Roles

variable {Process : Type}

def System.users (system : System Process) (segment : Nat) : Set Process :=
  { process | (system.phases process).counted = some segment }

/-- The process created the segment, and the name still stands for it. -/
def System.Made (system : System Process) (process : Process) (segment : Nat) : Prop :=
  segment < system.issued ∧ (system.segments segment).creator = some process ∧
    system.name = some segment

def System.Fits (system : System Process) (process : Process) (segment : Nat) : Prop :=
  (system.header segment).shape = (system.requests process).shape.stored

def System.Ready (system : System Process) (segment : Nat) : Prop :=
  (system.header segment).ready = true

def Role.Holds (system : System Process) (process : Process) : Role → Prop
  | .nobody => True
  | .viewer segment => segment < system.issued
  | .reader segment => segment < system.issued ∧ system.Ready segment
  | .user segment =>
      segment < system.issued ∧ system.Ready segment ∧ system.Fits process segment
  | .young segment =>
      system.Made process segment ∧ ¬system.Ready segment ∧
        (system.header segment).attached = 0
  | .drafted segment =>
      system.Made process segment ∧ ¬system.Ready segment ∧
        (system.header segment).attached = 0 ∧ system.Fits process segment
  | .maker segment => system.Made process segment ∧ system.Fits process segment
  | .leaver segment => system.Made process segment ∧ ¬system.Ready segment
  | .marker segment =>
      segment < system.issued ∧ (system.Ready segment ∨
        system.Made process segment ∧ ¬system.Ready segment ∧
          (system.header segment).attached = 0)
  | .remover segment =>
      segment < system.issued ∧ system.name = some segment ∧
        ((system.header segment).attached = kRemoving ∨
          (system.segments segment).creator = some process ∧ ¬system.Ready segment)

/-- The counter counts the users, or says that there are none. -/
def Tally (users : Set Process) (attached : BitVec 32) : Prop :=
  if attached = kRemoving then users = ∅ else users.encard = attached.toNat

/-- The protocol is in order, processes have asked for shapes of one kind, and the
segments in `removed` are still being removed. -/
structure Sound (asked : Shape → Prop) (removed : Set Nat) (system : System Process) :
    Prop where
  roles : ∀ process, (system.phases process).role.Holds system process
  observed : ∀ process, (system.phases process).observed? ≠ some kRemoving
  tally : ∀ segment, Tally (system.users segment) (system.header segment).attached
  inside : ∀ segment ∈ system.name, segment < system.issued
  named : ∀ segment, system.Ready segment → (system.header segment).attached ≠ kRemoving →
    system.name = some segment
  unlinked : ∀ segment < system.issued,
    (system.segments segment).unlinks = if system.name = some segment then 0 else 1
  marked : ∀ segment, system.Ready segment →
    (system.segments segment).markedBy = (system.segments segment).creator
  fresh : ∀ segment, system.issued ≤ segment → system.segments segment = {}
  alone : ∀ process other segment, (system.phases process).role = .remover segment →
    (system.phases other).role = .remover segment → process = other
  asks : ∀ process, asked (system.requests process).shape
  kept : ∀ segment ∈ removed, (system.header segment).attached = kRemoving

theorem sound_initial {asked : Shape → Prop} (hempty : asked {}) :
    Sound asked ∅ ({} : System Process) where
  roles _ := trivial
  observed _ := by simp [Phase.observed?]
  tally segment := by
    have husers : ({} : System Process).users segment = ∅ := by
      simp [System.users, Phase.counted]
    rw [husers]
    simp [Tally, System.header, kRemoving]
  inside := by simp
  named segment hready := by simp [System.Ready, System.header] at hready
  unlinked _ h := by simp at h
  marked segment hready := by simp [System.Ready, System.header] at hready
  fresh _ _ := rfl
  alone _ _ _ h := by simp [Phase.role] at h
  asks _ := hempty
  kept _ h := absurd h (Set.notMem_empty _)

variable {asked : Shape → Prop} {removed : Set Nat} {system next : System Process}
  {process : Process} {phase : Phase}

theorem role_of_counted {segment : Nat} (hcounted : phase.counted = some segment) :
    phase.role = .user segment ∨ phase.role = .maker segment ∨ phase.role = .leaver segment := by
  fun_cases Phase.role phase <;> simp_all [Phase.counted]

theorem counted_of_maker {segment : Nat}
    (hrole : phase.role = .maker segment ∨ phase.role = .leaver segment) :
    phase.counted = some segment := by
  unfold Phase.role at hrole
  split at hrole <;> simp_all [Phase.counted]

theorem Sound.counted_ready (h : Sound asked removed system) {segment : Nat}
    (hcounted : process ∈ system.users segment) :
    segment < system.issued ∧ (system.Ready segment ∨ system.Made process segment) := by
  have hrole := h.roles process
  rcases role_of_counted hcounted with huser | hmaker | hleaver
  · rw [huser] at hrole
    exact ⟨hrole.1, .inl hrole.2.1⟩
  · rw [hmaker] at hrole
    exact ⟨hrole.1.1, .inr hrole.1⟩
  · rw [hleaver] at hrole
    exact ⟨hrole.1.1, .inr hrole.1⟩

theorem Sound.counted_fits (h : Sound asked removed system) {segment : Nat}
    (hcounted : process ∈ system.users segment) (hready : system.Ready segment) :
    system.Fits process segment := by
  have hrole := h.roles process
  rcases role_of_counted hcounted with huser | hmaker | hleaver
  · rw [huser] at hrole
    exact hrole.2.2
  · rw [hmaker] at hrole
    exact hrole.2
  · rw [hleaver] at hrole
    exact absurd hready hrole.2

theorem Sound.not_removing (h : Sound asked removed system) {segment : Nat}
    (hcounted : process ∈ system.users segment) :
    (system.header segment).attached ≠ kRemoving := by
  intro hremoving
  have htally := h.tally segment
  rw [Tally, if_pos hremoving] at htally
  exact Set.notMem_empty process (htally ▸ hcounted)

theorem Sound.name_of_counted (h : Sound asked removed system) {segment : Nat}
    (hcounted : process ∈ system.users segment) : system.name = some segment := by
  rcases (h.counted_ready hcounted).2 with hready | hmade
  · exact h.named segment hready (h.not_removing hcounted)
  · exact hmade.2.2

theorem tally_insert {users : Set Process} {attached : BitVec 32} (h : Tally users attached)
    (hout : process ∉ users) (hbefore : attached ≠ kRemoving) (hfew : attached ≠ kRemoving - 1) :
    Tally (insert process users) (attached + 1) := by
  have hafter : attached + 1 ≠ kRemoving := fun heq => hfew (by rw [← heq, BitVec.add_sub_cancel])
  rw [Tally, if_neg hbefore] at h
  rw [Tally, if_neg hafter, Set.encard_insert_of_notMem hout, h]
  have hlt : attached.toNat + 1 < 2 ^ 32 := by
    have hne : attached.toNat ≠ kRemoving.toNat := fun heq => hbefore (BitVec.eq_of_toNat_eq heq)
    have hmax : kRemoving.toNat = 2 ^ 32 - 1 := by decide
    have hle := attached.isLt
    omega
  rw [BitVec.toNat_add_of_lt (by simpa using hlt)]
  rfl

theorem tally_erase {users : Set Process} {attached : BitVec 32} (h : Tally users attached)
    (hin : process ∈ users) (hbefore : attached ≠ kRemoving) :
    Tally (users \ {process}) (attached - 1) := by
  rw [Tally, if_neg hbefore] at h
  have hpos : attached.toNat ≠ 0 := by
    intro hzero
    rw [hzero, Nat.cast_zero, Set.encard_eq_zero] at h
    exact Set.notMem_empty process (h ▸ hin)
  have hsub : (attached - 1).toNat = attached.toNat - 1 := by
    have hle : (1 : BitVec 32) ≤ attached := by
      rw [BitVec.le_def]
      simp
      omega
    rw [BitVec.toNat_sub_of_le hle]
    rfl
  have hafter : attached - 1 ≠ kRemoving := by
    intro heq
    have hmax : kRemoving.toNat = 2 ^ 32 - 1 := by decide
    rw [heq] at hsub
    have hle := attached.isLt
    omega
  rw [Tally, if_neg hafter, Set.encard_sdiff_singleton_of_mem hin, h, hsub]
  rfl

/-! ### What other processes know stays true -/

/-- One process changes the header of a segment that is ready or its own, and neither
takes back that it is ready or being removed nor changes its shape once it is ready. -/
theorem Role.Holds.changeAt {role : Role} {other : Process} {segment : Nat}
    (h : role.Holds system other) (hother : other ≠ process)
    (hname : next.name = system.name) (hissued : next.issued = system.issued)
    (hcreator : ∀ segment, (next.segments segment).creator = (system.segments segment).creator)
    (hrequest : next.requests other = system.requests other)
    (helse : ∀ third, third ≠ segment → next.header third = system.header third)
    (hmine : system.Ready segment ∨ (system.segments segment).creator = some process)
    (hready : system.Ready segment →
      next.Ready segment ∧ (next.header segment).shape = (system.header segment).shape)
    (hremoving : (system.header segment).attached = kRemoving →
      (next.header segment).attached = kRemoving) : role.Holds next other := by
  -- a segment of another process that is not ready is not the one that changes
  have hforeign : ∀ third, (system.segments third).creator = some other → ¬system.Ready third →
      third ≠ segment := by
    rintro third hcreated hnever rfl
    have hprocess := hmine.resolve_left hnever
    exact hother (Option.some.inj (hcreated.symm.trans hprocess))
  have hstays : ∀ third, system.Ready third →
      next.Ready third ∧ (next.header third).shape = (system.header third).shape := by
    intro third hone
    by_cases hsame : third = segment
    · exact hsame ▸ hready (hsame ▸ hone)
    · rw [System.Ready, helse third hsame]
      exact ⟨hone, rfl⟩
  cases role <;> grind [Role.Holds, System.Made, System.Ready, System.Fits]

theorem Role.Holds.create {role : Role} {other : Process} (h : role.Holds system other)
    (hnone : system.name = none) (hissued : next.issued = system.issued + 1)
    (hsegments : ∀ segment < system.issued, next.segments segment = system.segments segment)
    (hrequest : next.requests other = system.requests other) : role.Holds next other := by
  -- nobody has a claim on the name
  have hmade : ∀ third, ¬system.Made other third := by
    rintro third ⟨-, -, hnamed⟩
    exact absurd (hnone.symm.trans hnamed) nofun
  have hheader : ∀ segment < system.issued, next.header segment = system.header segment :=
    fun segment hsegment => by rw [System.header, hsegments segment hsegment, System.header]
  cases role <;> grind [Role.Holds, System.Ready, System.Fits]

theorem Sound.holds_unlink (h : Sound asked removed system) {other : Process} {segment : Nat}
    (hother : other ≠ process) (hremover : (system.phases process).role = .remover segment)
    (hissued : next.issued = system.issued)
    (hheader : ∀ segment, next.header segment = system.header segment)
    (hrequest : next.requests other = system.requests other) :
    (system.phases other).role.Holds next other := by
  have hself := h.roles process
  rw [hremover] at hself
  obtain ⟨-, hnamed, hdoomed⟩ := hself
  -- nobody else still has a claim on the name: the segment is being removed, which
  -- excludes its creator in every stage
  have hmade : ∀ third, system.Made other third → (system.header third).attached = kRemoving := by
    rintro third ⟨-, hcreated, hthird⟩
    obtain rfl : third = segment := Option.some.inj (hthird.symm.trans hnamed)
    refine hdoomed.resolve_right ?_
    rintro ⟨hprocess, -⟩
    exact hother (Option.some.inj (hcreated.symm.trans hprocess))
  have hzero : (0 : BitVec 32) ≠ kRemoving := by decide
  have hrole := h.roles other
  cases hkind : (system.phases other).role with
  | maker third =>
      rw [hkind] at hrole
      exact absurd (hmade third hrole.1) (h.not_removing (counted_of_maker (.inl hkind)))
  | leaver third =>
      rw [hkind] at hrole
      exact absurd (hmade third hrole.1) (h.not_removing (counted_of_maker (.inr hkind)))
  | remover third =>
      rw [hkind] at hrole
      obtain rfl : third = segment := Option.some.inj (hrole.2.1.symm.trans hnamed)
      exact absurd (h.alone other process third hkind hremover) hother
  | _ => grind [Role.Holds, System.Ready, System.Fits]

theorem Sound.sole (h : Sound asked removed system) {segment : Nat}
    (hmine : system.Ready segment ∨ (system.segments segment).creator = some process)
    (hnot : (system.header segment).attached ≠ kRemoving) (other : Process)
    (hother : other ≠ process) : (system.phases other).role ≠ .remover segment := by
  intro hremover
  have hrole := h.roles other
  rw [hremover] at hrole
  obtain ⟨-, -, hremoving | ⟨hcreated, hnever⟩⟩ := hrole
  · exact hnot hremoving
  · refine hother (Option.some.inj (hcreated.symm.trans (hmine.resolve_left hnever)))

section Counter

variable (system : System Process) (segment third : Nat) (attached : BitVec 32)

theorem attached_setAttached :
    ((system.setAttached segment attached).header segment).attached = attached := by
  simp [System.header, System.setAttached, System.setHeader, System.setSegment]

@[simp] theorem ready_setAttached :
    (system.setAttached segment attached).Ready third ↔ system.Ready third := by
  by_cases hsame : third = segment <;>
    simp [System.Ready, System.header, System.setAttached, System.setHeader, System.setSegment,
      hsame]

@[simp] theorem fits_setAttached :
    (system.setAttached segment attached).Fits process third ↔ system.Fits process third := by
  by_cases hsame : third = segment <;>
    simp [System.Fits, System.header, System.setAttached, System.setHeader, System.setSegment,
      Header.shape, hsame]

@[simp] theorem made_setAttached :
    (system.setAttached segment attached).Made process third ↔ system.Made process third := by
  by_cases hsame : third = segment <;>
    simp [System.Made, System.setAttached, System.setHeader, System.setSegment, hsame]

end Counter

/-! ### Steps -/

theorem Sound.roleAt (h : Sound asked removed system) (hphase : system.phases process = phase) :
    phase.role.Holds system process :=
  hphase ▸ h.roles process

theorem Sound.setReturned (h : Sound asked removed system)
    (returned : List (Process × Request × Outcome)) :
    Sound asked removed { system with returned } :=
  ⟨h.roles, h.observed, h.tally, h.inside, h.named, h.unlinked, h.marked, h.fresh, h.alone,
    h.asks, h.kept⟩

variable [DecidableEq Process]

theorem users_setPhase (system : System Process) (process : Process) (phase : Phase)
    (segment : Nat) :
    (system.setPhase process phase).users segment =
      if phase.counted = some segment then insert process (system.users segment)
      else system.users segment \ {process} := by
  ext other
  by_cases hsame : other = process
  · subst hsame
    split <;> simp_all [System.users, System.setPhase]
  · split <;> simp [System.users, System.setPhase, hsame]

theorem setPhase_self (hphase : system.phases process = phase) :
    system.setPhase process phase = system := by
  simp [System.setPhase, ← hphase]

theorem users_setPhase_of_iff {segment : Nat}
    (hcounted : phase.counted = some segment ↔ (system.phases process).counted = some segment) :
    (system.setPhase process phase).users segment = system.users segment := by
  rw [users_setPhase]
  split
  · rename_i hin
    exact Set.insert_eq_of_mem (hcounted.mp hin)
  · rename_i hout
    exact Set.sdiff_singleton_eq_self fun hin => hout (hcounted.mpr hin)

theorem Sound.alone_setPhase (h : Sound asked removed system)
    (halone : ∀ segment, phase.role = .remover segment → ∀ other, other ≠ process →
      (system.phases other).role ≠ .remover segment) {first second : Process} {segment : Nat}
    (hfirst : ((system.setPhase process phase).phases first).role = .remover segment)
    (hsecond : ((system.setPhase process phase).phases second).role = .remover segment) :
    first = second := by
  have hboth := h.alone first second segment
  simp only [System.setPhase, Function.update_apply] at hfirst hsecond
  grind

theorem Sound.observed_setPhase (h : Sound asked removed system)
    (hobserved : phase.observed? ≠ some kRemoving) (other : Process) :
    ((system.setPhase process phase).phases other).observed? ≠ some kRemoving :=
  (Function.forall_update_iff system.phases fun _ (one : Phase) =>
    one.observed? ≠ some kRemoving).mpr ⟨hobserved, fun other _ => h.observed other⟩ other

theorem Sound.setPhase (h : Sound asked removed system) (hself : phase.role.Holds system process)
    (hcounted : phase.counted = (system.phases process).counted)
    (hobserved : phase.observed? ≠ some kRemoving)
    (halone : ∀ segment, phase.role = .remover segment → ∀ other, other ≠ process →
      (system.phases other).role ≠ .remover segment) :
    Sound asked removed (system.setPhase process phase) := by
  refine { h with
    roles := ?_
    observed := h.observed_setPhase hobserved
    tally := fun segment => ?_
    alone := fun _ _ _ => h.alone_setPhase halone }
  · exact (Function.forall_update_iff system.phases fun other (one : Phase) =>
      one.role.Holds system other).mpr ⟨hself, fun other _ => h.roles other⟩
  · rw [users_setPhase_of_iff (by rw [hcounted])]
    exact h.tally segment

theorem Sound.onward (h : Sound asked removed system) {before : Phase}
    (hphase : system.phases process = before) (hself : phase.role.Holds system process)
    (hcounted : phase.counted = before.counted) (hobserved : phase.observed? = none)
    (halone : ∀ segment, phase.role ≠ .remover segment) :
    Sound asked removed (system.setPhase process phase) :=
  h.setPhase hself (hphase ▸ hcounted) (by simp [hobserved])
    fun segment hrole => absurd hrole (halone segment)

theorem Sound.finish (h : Sound asked removed system) {before : Phase} {outcome : Outcome}
    (hphase : system.phases process = before) (hself : phase.role.Holds system process)
    (hcounted : phase.counted = before.counted) (hobserved : phase.observed? = none)
    (halone : ∀ segment, phase.role ≠ .remover segment) :
    Sound asked removed (system.finish process outcome phase) :=
  (h.setReturned _).onward hphase hself hcounted hobserved halone

theorem Sound.leave (h : Sound asked removed system) {before : Phase}
    (hphase : system.phases process = before) (hcounted : none = before.counted) (after : After) :
    Sound asked removed (system.leave process after) := by
  cases after with
  | failed error => exact h.finish hphase trivial hcounted rfl nofun
  | retry => exact h.onward hphase trivial hcounted rfl nofun
  | destroyed => exact h.onward hphase trivial hcounted rfl nofun

theorem leave_setPhase (system : System Process) (process : Process) (phase : Phase)
    (after : After) :
    (system.setPhase process phase).leave process after = system.leave process after := by
  cases after <;> simp [System.leave, System.finish, System.setPhase]

theorem Sound.start (h : Sound asked removed system) {before : Phase}
    (hphase : system.phases process = before) (hnobody : before.role = .nobody)
    (hnone : none = before.counted) {request : Request} (hasks : asked request.shape) :
    Sound asked removed (system.start process request) := by
  have hasked : Sound asked removed
      { system with requests := Function.update system.requests process request } := by
    refine { h with roles := fun other => ?_, asks := ?_ }
    · have hrole := h.roles other
      by_cases hwho : other = process
      · rw [hwho, hphase, hnobody]
        trivial
      · cases hkind : (system.phases other).role with
        | nobody => trivial
        | _ =>
            simpa [hkind, Role.Holds, System.Made, System.Fits, System.Ready, System.header, hwho]
              using hrole
    · exact (Function.forall_update_iff system.requests fun _ (one : Request) =>
        asked one.shape).mpr ⟨hasks, fun other _ => h.asks other⟩
  rw [System.start, Request.entry]
  split
  · exact hasked.onward hphase trivial hnone rfl nofun
  · exact hasked.onward hphase trivial hnone rfl nofun

omit [DecidableEq Process] in
theorem forall_setSegment {P : Nat → Segment Process → Prop} {segment : Nat}
    {value : Segment Process} (hat : P segment value)
    (helse : ∀ third, P third (system.segments third)) :
    ∀ third, P third ((system.setSegment segment value).segments third) :=
  (Function.forall_update_iff system.segments P).mpr ⟨hat, fun third _ => helse third⟩

theorem Sound.write (h : Sound asked removed system) {segment : Nat} {value : Segment Process}
    (hinside : segment < system.issued)
    (hmine : system.Ready segment ∨ (system.segments segment).creator = some process)
    (hcreator : value.creator = (system.segments segment).creator)
    (hunlinks : value.unlinks = (system.segments segment).unlinks)
    (hready : system.Ready segment →
      value.header.ready = true ∧ value.header.shape = (system.header segment).shape)
    (hremoving : (system.header segment).attached = kRemoving → value.header.attached = kRemoving)
    (hnamed : value.header.ready = true → value.header.attached ≠ kRemoving →
      system.name = some segment)
    (hmarked : value.header.ready = true → value.markedBy = value.creator)
    (hself : phase.role.Holds (system.setSegment segment value) process)
    (hobserved : phase.observed? = none)
    (hcounted : ∀ third, third ≠ segment →
      (phase.counted = some third ↔ (system.phases process).counted = some third))
    (htally : Tally ((system.setPhase process phase).users segment) value.header.attached)
    (halone : ∀ segment, phase.role = .remover segment → ∀ other, other ≠ process →
      (system.phases other).role ≠ .remover segment) :
    Sound asked removed ((system.setSegment segment value).setPhase process phase) := by
  have hat : (system.setSegment segment value).segments segment = value :=
    Function.update_self ..
  have helse : ∀ third, third ≠ segment →
      (system.setSegment segment value).segments third = system.segments third :=
    fun third hne => Function.update_of_ne hne ..
  refine { h with
    roles := ?_
    observed := h.observed_setPhase (by simp [hobserved])
    tally := fun third => ?_
    named := ?_
    unlinked := ?_
    marked := ?_
    fresh := ?_
    alone := fun _ _ _ => h.alone_setPhase halone
    kept := ?_ }
  · refine (Function.forall_update_iff system.phases fun other (one : Phase) =>
      one.role.Holds (system.setSegment segment value) other).mpr ⟨hself, fun other hne => ?_⟩
    refine (h.roles other).changeAt hne rfl rfl ?_ rfl ?_ hmine ?_ ?_ <;>
      grind [System.header, System.Ready]
  · change Tally ((system.setPhase process phase).users third)
      ((system.setSegment segment value).segments third).header.attached
    by_cases hsame : third = segment
    · rw [hsame, hat]
      exact htally
    · rw [helse third hsame, users_setPhase_of_iff (hcounted third hsame)]
      exact h.tally third
  · exact forall_setSegment (P := fun third one => one.header.ready = true →
      one.header.attached ≠ kRemoving → system.name = some third) hnamed h.named
  · refine forall_setSegment (P := fun third one => third < system.issued →
      one.unlinks = if system.name = some third then 0 else 1) ?_ h.unlinked
    rw [hunlinks]
    exact h.unlinked segment
  · exact forall_setSegment (P := fun _ one => one.header.ready = true →
      one.markedBy = one.creator) hmarked h.marked
  · refine forall_setSegment (P := fun third one => system.issued ≤ third → one = {}) ?_ h.fresh
    omega
  · refine forall_setSegment (P := fun third one => third ∈ removed →
      one.header.attached = kRemoving) ?_ h.kept
    exact fun hsegment => hremoving (h.kept segment hsegment)

theorem Sound.create (h : Sound asked removed system) (hphase : system.phases process = .creating)
    (hnone : system.name = none) : Sound asked removed (system.create process) := by
  have hfresh := h.fresh system.issued le_rfl
  have hzero : (0 : BitVec 32) ≠ kRemoving := by decide
  have hold : ∀ segment, segment ≠ system.issued →
      (system.create process).segments segment = system.segments segment :=
    fun segment hne => Function.update_of_ne hne ..
  have hnew : (system.create process).segments system.issued = { creator := some process } :=
    Function.update_self ..
  have hself : (Phase.sizing system.issued).role.Holds (system.create process) process := by
    refine ⟨⟨Nat.lt_succ_self _, by rw [hnew], rfl⟩, ?_, ?_⟩ <;>
      simp [System.Ready, System.header, hnew]
  have hremover : ∀ third, (Phase.sizing system.issued).role ≠ .remover third := nofun
  refine
    { h with
      roles := ?_
      observed := h.observed_setPhase nofun
      tally := fun segment => ?_
      inside := ?_
      named := ?_
      unlinked := ?_
      marked := ?_
      fresh := ?_
      alone := fun _ _ _ => h.alone_setPhase fun third hrole => absurd hrole (hremover third)
      kept := ?_ }
  · refine (Function.forall_update_iff system.phases fun other (one : Phase) =>
      one.role.Holds (system.create process) other).mpr ⟨hself, fun other hne => ?_⟩
    exact (h.roles other).create hnone rfl (fun segment hlt => hold segment hlt.ne) rfl
  · have husers : (system.create process).users segment = system.users segment :=
      users_setPhase_of_iff (by simp [System.setSegment, hphase, Phase.counted])
    have htally := h.tally segment
    rw [husers]
    by_cases hsame : segment = system.issued
    · subst hsame
      rw [System.header, hfresh] at htally
      rw [System.header, hnew]
      exact htally
    · rw [System.header, hold segment hsame]
      exact htally
  · rintro segment ⟨⟩
    exact Nat.lt_succ_self _
  · refine forall_setSegment (P := fun third one => one.header.ready = true →
      one.header.attached ≠ kRemoving → some system.issued = some third) nofun ?_
    intro third hready hnot
    exact absurd (hnone.symm.trans (h.named third hready hnot)) nofun
  · refine forall_setSegment (P := fun third one => third < system.issued + 1 →
      one.unlinks = if some system.issued = some third then 0 else 1) ?_ ?_
    · simp
    · grind [h.unlinked]
  · exact forall_setSegment (P := fun _ one => one.header.ready = true →
      one.markedBy = one.creator) nofun h.marked
  · refine forall_setSegment (P := fun third one => system.issued + 1 ≤ third → one = {}) ?_ ?_
    · omega
    · exact fun third hle => h.fresh third (Nat.le_of_succ_le hle)
  · refine forall_setSegment (P := fun third one => third ∈ removed →
      one.header.attached = kRemoving) ?_ h.kept
    intro hkept
    have hremoving := h.kept system.issued hkept
    rw [System.header, hfresh] at hremoving
    exact absurd hremoving hzero

theorem Sound.unlink (h : Sound asked removed system) {segment : Nat} {after : After}
    (hphase : system.phases process = .unlinking segment after) :
    Sound asked removed (system.unlink.leave process after) := by
  obtain ⟨hinside, hnamed, hdoomed⟩ := h.roleAt hphase
  have hremover : (system.phases process).role = .remover segment := by rw [hphase]; rfl
  obtain ⟨value, hvalue⟩ : ∃ value, value = { system.segments segment with
    unlinks := (system.segments segment).unlinks + 1 } := ⟨_, rfl⟩
  obtain ⟨unlinked, hunlinked⟩ : ∃ unlinked : System Process,
    unlinked = { system.setSegment segment value with name := none } := ⟨_, rfl⟩
  have hunlink : system.unlink = unlinked := by
    simp [System.unlink, hnamed, hvalue, hunlinked]
  have hheader : ∀ third, unlinked.header third = system.header third := by
    rw [hunlinked]
    refine forall_setSegment (P := fun third one => one.header = system.header third) ?_ ?_
    · rw [hvalue, System.header]
    · exact fun _ => rfl
  have hroles : ∀ other, other ≠ process → (system.phases other).role.Holds unlinked other :=
    fun other hne => h.holds_unlink hne hremover (by rw [hunlinked]; rfl) hheader
      (by rw [hunlinked]; rfl)
  have hgone : Sound asked removed (unlinked.setPhase process .outside) := by
    subst hunlinked
    have hremover : ∀ third, Phase.outside.role ≠ .remover third := nofun
    refine { h with
      roles := (Function.forall_update_iff system.phases fun other (one : Phase) =>
        one.role.Holds _ other).mpr ⟨trivial, hroles⟩
      observed := h.observed_setPhase nofun
      tally := fun third => ?_
      inside := nofun
      named := ?_
      unlinked := ?_
      marked := ?_
      fresh := ?_
      alone := fun _ _ _ => h.alone_setPhase fun third hrole => absurd hrole (hremover third)
      kept := ?_ }
    · have husers : (system.setPhase process .outside).users third = system.users third :=
        users_setPhase_of_iff (by rw [hphase]; rfl)
      exact (congrArg₂ Tally husers (congrArg Header.attached (hheader third))).mpr (h.tally third)
    · intro third hready hnot
      have hready : system.Ready third := (congrArg Header.ready (hheader third)).symm.trans hready
      have hnot : (system.header third).attached ≠ kRemoving := by rwa [← hheader third]
      -- a ready segment that is not being removed would have kept its name
      obtain rfl : segment = third :=
        Option.some.inj (hnamed.symm.trans (h.named third hready hnot))
      exact absurd hready (hdoomed.resolve_left hnot).2
    · refine (Function.forall_update_iff system.segments fun third one => third < system.issued →
        one.unlinks = if none = some third then 0 else 1).mpr ⟨?_, fun third hne hthird => ?_⟩
      · simp [hvalue, h.unlinked segment hinside, hnamed]
      · simp [h.unlinked third hthird, hnamed, hne.symm]
    · refine forall_setSegment (P := fun _ one => one.header.ready = true →
        one.markedBy = one.creator) ?_ h.marked
      rw [hvalue]
      exact h.marked segment
    · refine forall_setSegment (P := fun third one => system.issued ≤ third → one = {}) ?_ h.fresh
      omega
    · exact fun third hthird =>
        (congrArg Header.attached (hheader third)).trans (h.kept third hthird)
  rw [hunlink, ← leave_setPhase unlinked process .outside]
  exact hgone.leave (Function.update_self ..) rfl after

theorem Sound.count (h : Sound asked removed system) {segment : Nat} {attached : BitVec 32}
    (hinside : segment < system.issued)
    (hmine : system.Ready segment ∨ (system.segments segment).creator = some process)
    (hnot : (system.header segment).attached ≠ kRemoving)
    (hself : phase.role.Holds (system.setAttached segment attached) process)
    (hobserved : phase.observed? = none)
    (hcounted : ∀ third, third ≠ segment →
      (phase.counted = some third ↔ (system.phases process).counted = some third))
    (htally : Tally ((system.setPhase process phase).users segment) attached)
    (hremover : ∀ third, phase.role = .remover third → third = segment) :
    Sound asked removed ((system.setAttached segment attached).setPhase process phase) := by
  refine h.write hinside hmine rfl rfl (fun hready => ⟨hready, rfl⟩) ?_ ?_ ?_ hself hobserved
    hcounted htally ?_
  · exact fun hremoving => absurd hremoving hnot
  · exact fun hready _ => h.named segment hready hnot
  · exact h.marked segment
  · intro third hrole
    rw [hremover third hrole]
    exact h.sole hmine hnot

theorem Sound.attach (h : Sound asked removed system) {segment : Nat} {created : Bool}
    {observed : BitVec 32}
    (hphase : system.phases process = .attaching segment created observed)
    (hfew : observed ≠ kRemoving - 1) (hsame : (system.header segment).attached = observed) :
    Sound asked removed ((system.setAttached segment (observed + 1)).setPhase process
      (.claiming segment created)) := by
  have hrole := h.roleAt hphase
  have hnot : (system.header segment).attached ≠ kRemoving := by
    intro hremoving
    exact h.observed process (by rw [hphase, ← hremoving, hsame]; rfl)
  have hout : process ∉ system.users segment := by
    simp [System.users, hphase, Phase.counted]
  have hcounted : ∀ third, third ≠ segment → ((Phase.claiming segment created).counted =
      some third ↔ (system.phases process).counted = some third) := by
    intro third hne
    simp [hphase, Phase.counted, hne.symm]
  have htally : Tally ((system.setPhase process (.claiming segment created)).users segment)
      (observed + 1) := by
    have hcounted : (Phase.claiming segment created).counted = some segment := rfl
    rw [users_setPhase, if_pos hcounted, ← hsame]
    exact tally_insert (h.tally segment) hout hnot (hsame ▸ hfew)
  cases created with
  | true =>
      exact h.count hrole.1.1 (.inr hrole.1.2.1) hnot
        ⟨(made_setAttached ..).mpr hrole.1, (fits_setAttached ..).mpr hrole.2.2.2⟩ rfl hcounted
        htally nofun
  | false =>
      exact h.count hrole.1 (.inl hrole.2.1) hnot
        ⟨hrole.1, (ready_setAttached ..).mpr hrole.2.1, (fits_setAttached ..).mpr hrole.2.2⟩ rfl
        hcounted htally nofun

theorem Sound.detach (h : Sound asked removed system) {segment : Nat} {remove : Bool}
    {after : After} (hphase : system.phases process = .detaching segment remove after)
    (hself : phase.role.Holds
      (system.setAttached segment ((system.header segment).attached - 1)) process)
    (hnone : phase.counted = none) (hobserved : phase.observed? = none)
    (hremover : ∀ third, phase.role = .remover third → third = segment) :
    Sound asked removed ((system.setAttached segment
      ((system.header segment).attached - 1)).setPhase process phase) := by
  have hin : process ∈ system.users segment := by
    simp [System.users, hphase, Phase.counted]
  have hmine : system.Ready segment ∨ (system.segments segment).creator = some process :=
    (h.counted_ready hin).2.imp_right fun hmade => hmade.2.1
  have hnot := h.not_removing hin
  refine h.count (h.counted_ready hin).1 hmine hnot hself hobserved ?_ ?_ hremover
  · intro third hne
    rw [hnone, hphase]
    simp [Phase.counted, hne.symm]
  · rw [users_setPhase, if_neg (by simp [hnone])]
    exact tally_erase (h.tally segment) hin hnot

theorem Sound.mark (h : Sound asked removed system) {segment : Nat} {after : After}
    (hphase : system.phases process = .marking segment after)
    (hzero : (system.header segment).attached = 0) :
    Sound asked removed ((system.setAttached segment kRemoving).setPhase process
      (.unlinking segment after)) := by
  obtain ⟨hinside, hmine⟩ := h.roleAt hphase
  have hnot : (system.header segment).attached ≠ kRemoving := by
    rw [hzero]
    decide
  have hname : system.name = some segment := by
    rcases hmine with hready | ⟨hmade, -⟩
    · exact h.named segment hready hnot
    · exact hmade.2.2
  refine h.count hinside (hmine.imp_right fun hmade => hmade.1.2.1) hnot ?_ rfl ?_ ?_ ?_
  · exact ⟨hinside, hname, .inl (attached_setAttached ..)⟩
  · simp [hphase, Phase.counted]
  · have htally := h.tally segment
    rw [Tally, if_neg hnot, hzero] at htally
    rw [users_setPhase_of_iff (by rw [hphase]; rfl), Tally, if_pos rfl]
    exact Set.encard_eq_zero.mp htally
  · rintro third ⟨⟩
    rfl

theorem Sound.writeOwn (h : Sound asked removed system) {segment : Nat} {value : Segment Process}
    (hmade : system.Made process segment)
    (hcreator : value.creator = (system.segments segment).creator)
    (hunlinks : value.unlinks = (system.segments segment).unlinks)
    (hattached : value.header.attached = (system.header segment).attached)
    (hready : system.Ready segment →
      value.header.ready = true ∧ value.header.shape = (system.header segment).shape)
    (hmarked : value.header.ready = true → value.markedBy = value.creator)
    (hself : phase.role.Holds (system.setSegment segment value) process)
    (hobserved : phase.observed? = none)
    (hcounted : phase.counted = (system.phases process).counted)
    (hremover : ∀ third, phase.role ≠ .remover third) :
    Sound asked removed ((system.setSegment segment value).setPhase process phase) := by
  refine h.write hmade.1 (.inr hmade.2.1) hcreator hunlinks hready ?_ ?_ hmarked hself hobserved
    ?_ ?_ ?_
  · rw [hattached]
    exact fun hremoving => hremoving
  · exact fun _ _ => hmade.2.2
  · exact fun third _ => by rw [hcounted]
  · rw [users_setPhase_of_iff (by rw [hcounted]), hattached]
    exact h.tally segment
  · exact fun third hrole => absurd hrole (hremover third)

theorem Sound.markReady (h : Sound asked removed system) {segment : Nat}
    (hphase : system.phases process = .attached segment true) :
    Sound asked removed (system.setSegment segment { system.segments segment with
      header := { system.header segment with ready := true }
      markedBy := some process }) := by
  obtain ⟨hmade, hfits⟩ := h.roleAt hphase
  obtain ⟨value, hvalue⟩ : ∃ value, value = { system.segments segment with
    header := { system.header segment with ready := true }
    markedBy := some process } := ⟨_, rfl⟩
  have hself : (Phase.attached segment true).role.Holds (system.setSegment segment value)
      process := by
    refine ⟨⟨hmade.1, ?_, hmade.2.2⟩, ?_⟩
    · simp [System.setSegment, hvalue, hmade.2.1]
    · simpa [System.Fits, System.header, System.setSegment, hvalue, Header.shape] using hfits
  have hstay : (system.setSegment segment value).setPhase process (.attached segment true) =
      system.setSegment segment value := setPhase_self hphase
  rw [← hvalue, ← hstay]
  subst hvalue
  exact h.writeOwn hmade rfl rfl rfl (fun _ => ⟨rfl, rfl⟩) (fun _ => hmade.2.1.symm) hself rfl
    (by rw [hphase]) nofun

theorem Sound.construct (h : Sound asked removed system) {segment : Nat}
    (hphase : system.phases process = .constructing segment) :
    Sound asked removed ((system.setHeader segment
      (.create (system.requests process).shape)).setPhase process (.loading segment true)) := by
  obtain ⟨hmade, hnever, hzero⟩ := h.roleAt hphase
  refine h.writeOwn hmade rfl rfl hzero.symm (fun hready => absurd hready hnever) nofun ?_ rfl
    (by rw [hphase]; rfl) nofun
  refine ⟨⟨hmade.1, ?_, hmade.2.2⟩, ?_, ?_, ?_⟩
  · simp [System.setSegment, hmade.2.1]
  · simp [System.Ready, System.header, System.setSegment, Header.create]
  · simp [System.header, System.setSegment, Header.create]
  · simpa [System.Fits, System.header, System.setSegment] using
      shape_create (system.requests process).shape

theorem Sound.sized (h : Sound asked removed system) {segment : Nat} {size : Size}
    (hphase : system.phases process = .sizing segment) :
    Sound asked removed ((system.setSegment segment
      { system.segments segment with size }).setPhase process (.mapping segment true size)) := by
  obtain ⟨hmade, hnever, hzero⟩ := h.roleAt hphase
  refine h.writeOwn hmade rfl rfl rfl (fun hready => ⟨hready, rfl⟩) (h.marked segment) ?_ rfl
    (by rw [hphase]; rfl) nofun
  refine ⟨⟨hmade.1, ?_, hmade.2.2⟩, ?_, ?_⟩
  · simp [System.setSegment, hmade.2.1]
  · simpa [System.Ready, System.header, System.setSegment] using hnever
  · simpa [System.header, System.setSegment] using hzero

theorem Sound.observe (h : Sound asked removed system) {segment : Nat} {created : Bool}
    {before : Phase} (hphase : system.phases process = before) (hnone : none = before.counted)
    (hrole : before.role = (Phase.loading segment created).role) :
    Sound asked removed (system.observe process segment created) := by
  have hself := h.roleAt hphase
  rw [hrole] at hself
  rw [System.observe]
  split
  · cases created with
    | true => exact h.onward hphase hself hnone rfl nofun
    | false => exact h.onward hphase hself.1 hnone rfl nofun
  · rename_i hnot
    have hobserved : some (system.header segment).attached ≠ some kRemoving :=
      fun heq => hnot (Option.some.inj heq)
    cases created with
    | true => exact h.setPhase hself (hphase ▸ hnone) hobserved nofun
    | false => exact h.setPhase hself (hphase ▸ hnone) hobserved nofun

theorem Sound.giveUp (h : Sound asked removed system) {segment : Nat} {after : After}
    {before : Phase} (hphase : system.phases process = before) (hnone : none = before.counted)
    (hyoung : Role.Holds system process (.young segment)) :
    Sound asked removed (system.setPhase process (.unlinking segment after)) := by
  obtain ⟨hmade, hnever, hzero⟩ := hyoung
  refine h.setPhase ⟨hmade.1, hmade.2.2, .inr ⟨hmade.2.1, hnever⟩⟩ (hphase ▸ hnone) nofun ?_
  rintro third ⟨⟩
  refine h.sole (.inr hmade.2.1) ?_
  rw [hzero]
  decide

theorem Sound.readState (h : Sound asked removed system) {segment : Nat} {created counted : Bool}
    {after : After}
    (hphase : system.phases process = .readingState segment created counted after)
    {failure : Option Int} (hstep : system.advance process failure = some next) :
    Sound asked removed next := by
  have hself := h.roleAt hphase
  simp only [System.advance, hphase, Option.some.injEq] at hstep
  subst hstep
  cases counted with
  | true =>
      rw [if_pos rfl]
      cases created with
      | false => exact h.onward hphase hself rfl rfl nofun
      | true =>
          cases hready : (system.header segment).ready with
          | true =>
              have hfits : Role.Holds system process (.user segment) :=
                ⟨hself.1.1, hready, hself.2⟩
              exact h.onward hphase hfits rfl rfl nofun
          | false =>
              have hleaver : Role.Holds system process (.leaver segment) :=
                ⟨hself.1, by simp [System.Ready, hready]⟩
              exact h.onward hphase hleaver rfl rfl nofun
  | false =>
      rw [if_neg Bool.false_ne_true]
      cases created with
      | false => exact h.leave hphase rfl after
      | true =>
          split
          · exact h.giveUp hphase rfl ⟨hself.1, hself.2.1, hself.2.2.1⟩
          · exact h.leave hphase rfl after

theorem Sound.countDown (h : Sound asked removed system) {segment : Nat} {remove : Bool}
    {after : After}
    (hphase : system.phases process = .detaching segment remove after)
    {failure : Option Int} (hstep : system.advance process failure = some next) :
    Sound asked removed next := by
  have hself := h.roleAt hphase
  simp only [System.advance, hphase, Option.some.injEq] at hstep
  subst hstep
  split
  · rename_i hlast
    refine h.detach hphase ?_ rfl rfl nofun
    cases remove with
    | false => exact ⟨hself.1, .inl ((ready_setAttached ..).mpr hself.2.1)⟩
    | true =>
        refine ⟨hself.1.1, .inr ⟨(made_setAttached ..).mpr hself.1, ?_, ?_⟩⟩
        · exact fun hready => hself.2 ((ready_setAttached ..).mp hready)
        · rw [attached_setAttached, hlast.1]
          rfl
  · split
    · rename_i hremove
      subst hremove
      refine h.detach hphase ?_ rfl rfl ?_
      · refine ⟨hself.1.1, hself.1.2.2, .inr ⟨((made_setAttached ..).mpr hself.1).2.1, ?_⟩⟩
        exact fun hready => hself.2 ((ready_setAttached ..).mp hready)
      · rintro third ⟨⟩
        rfl
    · rw [← leave_setPhase _ process .outside]
      have hself : Phase.outside.role.Holds
          (system.setAttached segment ((system.header segment).attached - 1)) process := trivial
      have hgone := h.detach hphase hself rfl rfl nofun
      exact hgone.leave (Function.update_self ..) rfl after

theorem Sound.advance (h : Sound asked removed system)
    (hfew : (system.phases process).observed? ≠ some (kRemoving - 1))
    {failure : Option Int} (hstep : system.advance process failure = some next) :
    Sound asked removed next := by
  cases hphase : system.phases process with
  | outside => simp [System.advance, hphase] at hstep
  | attached segment created => simp [System.advance, hphase] at hstep
  | creating =>
      cases failure with
      | some errno =>
          simp only [System.advance, hphase, Option.some.injEq] at hstep
          exact hstep ▸ h.finish hphase trivial rfl rfl nofun
      | none =>
          simp only [System.advance, hphase] at hstep
          split at hstep
          · exact Option.some.inj hstep ▸ h.create hphase ‹_›
          · split at hstep
            · exact Option.some.inj hstep ▸ h.finish hphase trivial rfl rfl nofun
            · exact Option.some.inj hstep ▸ h.onward hphase trivial rfl rfl nofun
  | opening =>
      cases failure with
      | some errno =>
          simp only [System.advance, hphase, Option.some.injEq] at hstep
          exact hstep ▸ h.finish hphase trivial rfl rfl nofun
      | none =>
          simp only [System.advance, hphase] at hstep
          split at hstep
          · exact Option.some.inj hstep ▸ h.finish hphase trivial rfl rfl nofun
          · exact Option.some.inj hstep ▸ h.onward hphase (h.inside _ ‹_›) rfl rfl nofun
  | sizing segment =>
      cases failure with
      | some errno =>
          simp only [System.advance, hphase, Option.some.injEq] at hstep
          exact hstep ▸ h.giveUp hphase rfl (h.roleAt hphase)
      | none =>
          simp only [System.advance, hphase, Option.some.injEq] at hstep
          exact hstep ▸ h.sized hphase
  | constructing segment =>
      simp only [System.advance, hphase, Option.some.injEq] at hstep
      exact hstep ▸ h.construct hphase
  | mapping segment created bytes =>
      have hself := h.roleAt hphase
      cases failure <;> cases created <;>
        simp only [System.advance, hphase, Option.some.injEq] at hstep
      · exact hstep ▸ h.onward hphase hself rfl rfl nofun
      · exact hstep ▸ h.onward hphase hself rfl rfl nofun
      · exact hstep ▸ h.finish hphase trivial rfl rfl nofun
      · exact hstep ▸ h.giveUp hphase rfl hself
  | waitingSize segment =>
      cases failure with
      | some errno =>
          simp only [System.advance, hphase, Option.some.injEq] at hstep
          exact hstep ▸ h.finish hphase trivial rfl rfl nofun
      | none =>
          have hinside : segment < system.issued := h.roleAt hphase
          simp only [System.advance, hphase] at hstep
          split at hstep
          · cases hstep
          · exact Option.some.inj hstep ▸ h.onward hphase hinside rfl rfl nofun
  | waitingReady segment bytes =>
      have hinside : segment < system.issued := h.roleAt hphase
      simp only [System.advance, hphase] at hstep
      split at hstep
      · exact Option.some.inj hstep ▸ h.onward hphase ⟨hinside, ‹_›⟩ rfl rfl nofun
      · split at hstep
        · exact Option.some.inj hstep ▸ h.onward hphase hinside rfl rfl nofun
        · cases hstep
  | comparing segment bytes =>
      obtain ⟨hinside, hready⟩ := h.roleAt hphase
      simp only [System.advance, hphase, Option.some.injEq] at hstep
      subst hstep
      split
      · exact h.onward hphase hinside rfl rfl nofun
      · split
        · rename_i hsame
          exact h.onward hphase ⟨hinside, hready, shape_of_sameShape hsame⟩ rfl rfl nofun
        · exact h.onward hphase hinside rfl rfl nofun
  | loading segment created =>
      simp only [System.advance, hphase, Option.some.injEq] at hstep
      exact hstep ▸ h.observe hphase rfl rfl
  | attaching segment created observed =>
      simp only [System.advance, hphase] at hstep
      split at hstep
      · rename_i hsame
        refine Option.some.inj hstep ▸ h.attach hphase (fun hlast => hfew ?_) hsame.1
        rw [hphase, ← hlast]
        rfl
      · refine Option.some.inj hstep ▸ h.observe hphase rfl ?_
        cases created <;> rfl
  | claiming segment created =>
      have hself := h.roleAt hphase
      cases failure <;> cases created <;>
        simp only [System.advance, hphase, Option.some.injEq] at hstep
      · exact hstep ▸ h.finish hphase hself rfl rfl nofun
      · exact hstep ▸ h.finish hphase hself rfl rfl nofun
      · exact hstep ▸ h.onward hphase hself rfl rfl nofun
      · exact hstep ▸ h.onward hphase hself rfl rfl nofun
  | readingState segment created counted after => exact h.readState hphase hstep
  | detaching segment remove after => exact h.countDown hphase hstep
  | marking segment after =>
      simp only [System.advance, hphase, Option.some.injEq] at hstep
      subst hstep
      split
      · exact h.mark hphase ‹_›
      · exact h.leave hphase rfl after
  | unlinking segment after =>
      simp only [System.advance, hphase, Option.some.injEq] at hstep
      exact hstep ▸ h.unlink hphase
  | retrying =>
      cases failure with
      | some errno =>
          simp only [System.advance, hphase, Option.some.injEq] at hstep
          exact hstep ▸ h.finish hphase trivial rfl rfl nofun
      | none =>
          simp only [System.advance, hphase, Option.some.injEq] at hstep
          exact hstep ▸ h.start hphase rfl rfl (h.asks process)

/-! ### Whole runs -/

/-- Processes ask for shapes of one kind, and the counter never counts up to its mark. -/
def Allowed (asked : Shape → Prop) (system : System Process) : Process × Move → Prop
  | (_, .open request) => asked request.shape
  | (process, .advance _) => (system.phases process).observed? ≠ some (kRemoving - 1)
  | (_, .markReady) | (_, .destroy) => True

instance decidableAllowed [DecidablePred asked] (system : System Process) :
    ∀ label, Decidable (Allowed asked system label)
  | (_, .open request) => inferInstanceAs (Decidable (asked request.shape))
  | (process, .advance _) =>
      inferInstanceAs (Decidable ((system.phases process).observed? ≠ some (kRemoving - 1)))
  | (_, .markReady) | (_, .destroy) => isTrue trivial

theorem Sound.step (h : Sound asked removed system) {label : Process × Move}
    (hallowed : Allowed asked system label) (hstep : step system label = some next) :
    Sound asked removed next := by
  obtain ⟨process, move⟩ := label
  cases move with
  | «open» request =>
      simp only [SharedSegment.step] at hstep
      split at hstep
      · rename_i hphase
        exact Option.some.inj hstep ▸ h.start hphase rfl rfl hallowed
      · cases hstep
  | markReady =>
      simp only [SharedSegment.step] at hstep
      split at hstep
      · rename_i hphase
        exact Option.some.inj hstep ▸ h.markReady hphase
      · cases hstep
  | destroy =>
      simp only [SharedSegment.step] at hstep
      split at hstep
      · rename_i segment created hphase
        have hself := h.roleAt hphase
        cases created with
        | true => exact Option.some.inj hstep ▸ h.onward hphase hself rfl rfl nofun
        | false => exact Option.some.inj hstep ▸ h.onward hphase hself rfl rfl nofun
      · cases hstep
  | advance failure => exact h.advance hallowed hstep

/-- Who is attached, as the users of a segment may rely on it. -/
structure Agreement (system : System Process) : Prop where
  counted : ∀ segment, (system.header segment).attached ≠ kRemoving →
    (system.users segment).encard = (system.header segment).attached.toNat
  removing : ∀ segment, (system.header segment).attached = kRemoving → system.users segment = ∅
  unlinked : ∀ segment, (system.segments segment).unlinks ≤ 1
  /-- Whoever is going to remove the name finds its own segment under it, -/
  remover : ∀ process segment, (system.phases process).role = .remover segment →
    system.name = some segment
  /-- and is the only one to do so. -/
  alone : ∀ process other segment, (system.phases process).role = .remover segment →
    (system.phases other).role = .remover segment → process = other
  same : ∀ process other segment third, process ≠ other → process ∈ system.users segment →
    other ∈ system.users third → segment = third
  ready : ∀ process other segment, process ≠ other → process ∈ system.users segment →
    other ∈ system.users segment → system.Ready segment ∧
      (system.segments segment).markedBy = (system.segments segment).creator
  fits : ∀ process other segment, process ≠ other → process ∈ system.users segment →
    other ∈ system.users segment → (system.header segment).shape = (system.requests process).shape ∧
      (system.header segment).shape = (system.requests other).shape

omit [DecidableEq Process] in
theorem Sound.ready_of_two (h : Sound asked removed system) {other : Process} {segment : Nat}
    (hne : process ≠ other) (hone : process ∈ system.users segment)
    (htwo : other ∈ system.users segment) : system.Ready segment := by
  rcases (h.counted_ready hone).2 with hready | hmade
  · exact hready
  · refine (h.counted_ready htwo).2.resolve_right fun hother => hne ?_
    exact Option.some.inj (hmade.2.1.symm.trans hother.2.1)

omit [DecidableEq Process] in
theorem Sound.agreement (h : Sound Shape.Short removed system) : Agreement system where
  counted segment hnot := by
    have htally := h.tally segment
    rwa [Tally, if_neg hnot] at htally
  removing segment hremoving := by
    have htally := h.tally segment
    rwa [Tally, if_pos hremoving] at htally
  unlinked segment := by
    by_cases hinside : segment < system.issued
    · rw [h.unlinked segment hinside]
      split <;> omega
    · rw [h.fresh segment (not_lt.mp hinside)]
      exact Nat.zero_le 1
  remover process segment hrole := by
    have hholds := h.roles process
    rw [hrole] at hholds
    exact hholds.2.1
  alone := h.alone
  same process other segment third _ hone htwo :=
    Option.some.inj ((h.name_of_counted hone).symm.trans (h.name_of_counted htwo))
  ready process other segment hne hone htwo :=
    ⟨h.ready_of_two hne hone htwo, h.marked segment (h.ready_of_two hne hone htwo)⟩
  fits process other segment hne hone htwo :=
    have hready := h.ready_of_two hne hone htwo
    ⟨(h.counted_fits hone hready).trans (h.asks process).stored_eq,
      (h.counted_fits htwo hready).trans (h.asks other).stored_eq⟩

theorem sound_of_run {moves : List (Process × Move)} (h : Sound asked removed system)
    (hallowed : Machine.Meets step (Allowed asked) system moves)
    (hrun : Machine.run step system moves = some next) : Sound asked removed next :=
  Machine.invariant_of_meets (fun _ _ _ h hallowed hstep => h.step hallowed hstep) h hallowed hrun

/-- In every run the processes agree on who is attached to which segment, and a segment
that is being removed gets no user again. -/
theorem segment_agreement {moves : List (Process × Move)}
    (hallowed : Machine.Meets step (Allowed Shape.Short) {} moves)
    (hrun : Machine.run step {} moves = some system) :
    Agreement system ∧ ∀ more final, Machine.Meets step (Allowed Shape.Short) system more →
      Machine.run step system more = some final → ∀ segment,
        (system.header segment).attached = kRemoving →
          (final.header segment).attached = kRemoving ∧ final.users segment = ∅ := by
  have hempty : ({} : Shape).Short := ⟨by decide, List.not_mem_nil⟩
  have h := sound_of_run (sound_initial hempty) hallowed hrun
  refine ⟨h.agreement, ?_⟩
  intro more final hmore hfinal segment hremoving
  have hkept : Sound Shape.Short {segment} system := { h with kept := by simpa using hremoving }
  have hlater := sound_of_run hkept hmore hfinal
  have hmark := hlater.kept segment rfl
  exact ⟨hmark, hlater.agreement.removing segment hmark⟩

end Roles

def createThenAttach (first second : Shape) : List (Fin 2 × Move) :=
  [(0, .open { shape := first })] ++ List.replicate 7 (0, .advance none) ++ [(0, .markReady)] ++
    [(1, .open { shape := second })] ++ List.replicate 9 (1, .advance none)

theorem segment_agreement_createThenAttach :
    ∃ system, Machine.run step {} (createThenAttach {} {}) = some system ∧
      Agreement system ∧ ∀ more final, Machine.Meets step (Allowed Shape.Short) system more →
        Machine.run step system more = some final → ∀ segment,
          (system.header segment).attached = kRemoving →
            (final.header segment).attached = kRemoving ∧ final.users segment = ∅ := by
  obtain ⟨system, hrun⟩ := Option.isSome_iff_exists.mp
    (by decide +kernel : (Machine.run step {} (createThenAttach {} {})).isSome = true)
  exact ⟨system, hrun, segment_agreement (by decide +kernel) hrun⟩

/-- Two kinds of which `strncpy` keeps the same 95 bytes. -/
def longKind (last : BitVec 8) : Shape :=
  { replacerKind := List.replicate 95 65#8 ++ [last] }

/-- Processes that ask for different kinds attach to the same segment. -/
theorem different_kinds_attached :
    ∃ system, Machine.run step {} (createThenAttach (longKind 66#8) (longKind 67#8)) = some system ∧
      system.phases 0 = .attached 0 true ∧ system.phases 1 = .attached 0 false ∧
      (system.requests 0).shape = longKind 66#8 ∧ (system.requests 1).shape = longKind 67#8 ∧
      (system.header 0).shape ≠ longKind 66#8 ∧ (system.header 0).shape ≠ longKind 67#8 ∧
      ¬Agreement system := by
  have hseen : ((Machine.run step {} (createThenAttach (longKind 66#8) (longKind 67#8))).map
      fun system => (system.phases 0, system.phases 1, (system.requests 0).shape,
        (system.requests 1).shape, (system.header 0).shape)) =
      some (.attached 0 true, .attached 0 false, longKind 66#8, longKind 67#8,
        { replacerKind := List.replicate 95 65#8 }) := by
    decide +kernel
  obtain ⟨system, hrun, hfacts⟩ := Option.map_eq_some_iff.mp hseen
  simp only [Prod.mk.injEq] at hfacts
  obtain ⟨hzero, hone, hfirst, hsecond, hshape⟩ := hfacts
  have hnotFirst : (system.header 0).shape ≠ longKind 66#8 := by
    rw [hshape]
    decide +kernel
  have hnotSecond : (system.header 0).shape ≠ longKind 67#8 := by
    rw [hshape]
    decide +kernel
  refine ⟨system, hrun, hzero, hone, hfirst, hsecond, hnotFirst, hnotSecond, fun h => ?_⟩
  have hfits := h.fits 0 1 0 (by decide) (by simp [System.users, hzero, Phase.counted])
    (by simp [System.users, hone, Phase.counted])
  exact hnotFirst (hfits.1.trans hfirst)

end TelePath.SharedSegment
