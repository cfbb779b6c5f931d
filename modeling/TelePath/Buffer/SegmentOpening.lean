import TelePath.Buffer.SegmentUsers

/-!
Opening a segment in the mode `kCreateOrAttach`.

A process that is refused the exclusive creation of a name opens the name with a second
system call.  It finds a segment as long as the name is not removed between the two
calls; everything that can go wrong later is a timeout, a failing system call or a
segment without a free process slot.
-/

namespace TelePath.SharedSegment

open Logic

/-- The steps that may fail without a failing system call and without a timeout. -/
def Phase.mayFail : Phase → Bool
  | .attaching .. | .claiming .. => true
  | _ => false

def Phase.removesName : Phase → Bool
  | .unlinking .. => true
  | _ => false

def Phase.segment? : Phase → Option Nat
  | .outside | .creating | .opening | .retrying => none
  | .sizing segment | .waitingSize segment | .mapping segment _ _ => some segment
  | .constructing segment | .waitingReady segment _ | .comparing segment _ => some segment
  | .loading segment _ | .attaching segment _ _ | .claiming segment _ => some segment
  | .attached segment _ | .readingState segment _ _ _ | .detaching segment _ _ => some segment
  | .marking segment _ | .unlinking segment _ => some segment

/-- What an `Open` returns that has counted itself and finds every process slot taken. -/
def noFreeSlot : Error :=
  error .resourceExhausted "shared memory segment has no free process slot"

/-- The header is filled in for `shape`, up to readiness and counter. -/
def Header.Created (shape : Shape) (header : Header) : Prop :=
  header.magic = kMagic ∧ header.layoutVersion = kLayoutVersion ∧
    header.sameShape shape shape.total = true

theorem created_create (shape : Shape) : (Header.create shape).Created shape := by
  simp [Header.Created, Header.create, Header.sameShape]

section Opening

variable {Process : Type}

/-- All processes ask for `shape`, no system call fails and nothing times out, and no name
is removed while a process is between its two calls. -/
def Undisturbed (shape : Shape) (system : System Process) : Process × Move → Prop
  | (_, .open request) => request.shape = shape
  | (process, .advance failure) =>
      (failure.isSome = true → (system.phases process).mayFail = true) ∧
        ((system.phases process).removesName = true → ∀ other, system.phases other = .opening →
          (system.requests other).mode ≠ .createOrAttach)
  | (_, .markReady) | (_, .destroy) => True

instance decidableUndisturbed [Fintype Process] (shape : Shape) (system : System Process) :
    ∀ label, Decidable (Undisturbed shape system label)
  | (_, .open request) => inferInstanceAs (Decidable (request.shape = shape))
  | (process, .advance failure) =>
      inferInstanceAs (Decidable ((failure.isSome = true → (system.phases process).mayFail = true) ∧
        ((system.phases process).removesName = true → ∀ other, system.phases other = .opening →
          (system.requests other).mode ≠ .createOrAttach)))
  | (_, .markReady) | (_, .destroy) => isTrue trivial

def Found (entry : Process × Request × Outcome) : Prop :=
  entry.2.1.mode = .createOrAttach →
    entry.2.2 = .error noFreeSlot ∨ ∃ segment created, entry.2.2 = .ok (segment, created)

/-- The only error that a destructor can be followed by. -/
def After.Suits : After → Prop
  | .failed error => error = noFreeSlot
  | .retry | .destroyed => True

def Phase.Suits (shape : Shape) (system : System Process) (process : Process) : Phase → Prop
  | .outside | .creating | .sizing _ | .waitingSize _ | .constructing _ | .retrying => True
  | .opening => (system.requests process).mode = .createOrAttach → system.name ≠ none
  | .mapping _ _ bytes | .waitingReady _ bytes => bytes = shape.total
  | .comparing segment bytes => bytes = shape.total ∧ (system.header segment).Created shape
  | .loading segment _ | .attaching segment _ _ | .claiming segment _ | .attached segment _ =>
      (system.header segment).Created shape
  | .readingState _ _ _ after | .detaching _ _ after | .marking _ after | .unlinking _ after =>
      after.Suits

structure Calm (shape : Shape) (system : System Process) : Prop where
  suits : ∀ process, (system.phases process).Suits shape system process
  asked : ∀ process, system.phases process ≠ .outside → (system.requests process).shape = shape
  opened : ∀ process, ∀ segment ∈ (system.phases process).segment?, segment < system.issued
  named : ∀ segment ∈ system.name, segment < system.issued
  fresh : ∀ segment, system.issued ≤ segment → system.segments segment = {}
  sizes : ∀ segment, (system.segments segment).size = 0 ∨
    (system.segments segment).size = shape.total
  ready : ∀ segment, system.Ready segment → (system.header segment).Created shape
  found : ∀ entry ∈ system.returned, Found entry

theorem calm_initial (shape : Shape) : Calm shape ({} : System Process) where
  suits _ := trivial
  asked _ h := absurd rfl h
  opened _ _ h := by cases h
  named _ h := by cases h
  fresh _ _ := rfl
  sizes _ := .inl rfl
  ready _ h := by simp [System.Ready, System.header] at h
  found _ h := by cases h

variable {shape : Shape} {system next : System Process} {process : Process} {phase : Phase}

theorem Phase.Suits.mono {other : Process} (h : phase.Suits shape system other)
    (hname : phase = .opening → (system.requests other).mode = .createOrAttach →
      system.name ≠ none → next.name ≠ none)
    (hrequest : next.requests other = system.requests other)
    (hcreated : ∀ segment ∈ phase.segment?, (system.header segment).Created shape →
      (next.header segment).Created shape) : phase.Suits shape next other := by
  cases phase with
  | opening =>
      intro hmode
      rw [hrequest] at hmode
      exact hname rfl hmode (h hmode)
  | comparing segment bytes => exact ⟨h.1, hcreated segment rfl h.2⟩
  | loading segment created => exact hcreated segment rfl h
  | attaching segment created observed => exact hcreated segment rfl h
  | claiming segment created => exact hcreated segment rfl h
  | attached segment created => exact hcreated segment rfl h
  | _ => exact h

theorem Calm.inside (h : Calm shape system) {segment : Nat}
    (hphase : system.phases process = phase) (hopened : phase.segment? = some segment) :
    segment < system.issued :=
  h.opened process segment (by rw [hphase, hopened]; rfl)

theorem Calm.suitsAt (h : Calm shape system) (hphase : system.phases process = phase) :
    phase.Suits shape system process :=
  hphase ▸ h.suits process

theorem Calm.append (h : Calm shape system) {entry : Process × Request × Outcome}
    (hentry : Found entry) :
    Calm shape { system with returned := system.returned ++ [entry] } := by
  refine { h with suits := fun other => ?_, found := ?_ }
  · exact (h.suits other).mono (fun _ _ hname => hname) rfl fun _ _ hcreated => hcreated
  · intro other hother
    rcases List.mem_append.mp hother with hold | hnew
    · exact h.found other hold
    · rw [List.mem_singleton.mp hnew]
      exact hentry

variable [DecidableEq Process]

theorem Calm.moveTo (h : Calm shape system) (hself : phase.Suits shape system process)
    (hasked : phase ≠ .outside → (system.requests process).shape = shape)
    (hopened : ∀ segment ∈ phase.segment?, segment < system.issued) :
    Calm shape (system.setPhase process phase) := by
  have hsuits : ∀ {phase : Phase} {new other}, phase.Suits shape system other →
      phase.Suits shape (system.setPhase process new) other := fun hsuits =>
    hsuits.mono (fun _ _ hname => hname) rfl fun _ _ hcreated => hcreated
  refine { h with suits := ?_, asked := ?_, opened := ?_ }
  · refine (Function.forall_update_iff system.phases fun other (one : Phase) =>
      one.Suits shape (system.setPhase process phase) other).mpr ⟨hsuits hself, ?_⟩
    exact fun other _ => hsuits (h.suits other)
  · exact (Function.forall_update_iff system.phases fun other (one : Phase) => one ≠ .outside →
      (system.requests other).shape = shape).mpr ⟨hasked, fun other _ => h.asked other⟩
  · exact (Function.forall_update_iff system.phases fun _ (one : Phase) =>
      ∀ segment ∈ one.segment?, segment < system.issued).mpr
        ⟨hopened, fun other _ => h.opened other⟩

theorem Calm.setPhase (h : Calm shape system) (hactive : system.phases process ≠ .outside)
    (hself : phase.Suits shape system process)
    (hopened : ∀ segment ∈ phase.segment?, segment < system.issued) :
    Calm shape (system.setPhase process phase) :=
  h.moveTo hself (fun _ => h.asked process hactive) hopened

theorem Calm.onward (h : Calm shape system) {segment : Nat}
    (hactive : system.phases process ≠ .outside) (hinside : segment < system.issued)
    (hself : phase.Suits shape system process) (hopened : phase.segment? = some segment) :
    Calm shape (system.setPhase process phase) := by
  refine h.setPhase hactive hself ?_
  rw [hopened]
  rintro third ⟨⟩
  exact hinside

theorem Calm.finish (h : Calm shape system) {outcome : Outcome}
    (hactive : system.phases process ≠ .outside)
    (hfound : Found (process, system.requests process, outcome))
    (hself : phase.Suits shape system process)
    (hopened : ∀ segment ∈ phase.segment?, segment < system.issued) :
    Calm shape (system.finish process outcome phase) := by
  refine (h.append hfound).setPhase hactive ?_ hopened
  exact hself.mono (fun _ _ hname => hname) rfl fun _ _ hcreated => hcreated

theorem Calm.leave (h : Calm shape system) {after : After} (hafter : after.Suits)
    (hactive : system.phases process ≠ .outside) : Calm shape (system.leave process after) := by
  cases after with
  | failed error =>
      cases hafter
      exact h.finish hactive (fun _ => .inl rfl) trivial nofun
  | retry => exact h.setPhase hactive trivial nofun
  | destroyed => exact h.setPhase hactive trivial nofun

theorem Calm.start (h : Calm shape system) {request : Request}
    (hphase : system.phases process = .outside ∨ system.phases process = .retrying)
    (hasked : request.shape = shape) : Calm shape (system.start process request) := by
  have hopening : request.entry = .opening → request.mode = .attach := by
    rw [Request.entry]
    split <;> simp_all
  have hnew : Calm shape
      { system with requests := Function.update system.requests process request } := by
    refine { h with suits := fun other => ?_, asked := fun other => ?_ }
    · by_cases hwho : other = process
      · subst hwho
        rcases hphase with hphase | hphase <;> exact hphase ▸ trivial
      · exact (h.suits other).mono (fun _ _ hname => hname) (Function.update_of_ne hwho ..)
          fun _ _ hcreated => hcreated
    · exact (Function.forall_update_iff system.requests fun other (one : Request) =>
        system.phases other ≠ .outside → one.shape = shape).mpr
          ⟨fun _ => hasked, fun other _ => h.asked other⟩ other
  refine hnew.moveTo ?_ (fun _ => ?_) ?_
  · cases hentry : request.entry with
    | opening =>
        intro hmode
        simp [hopening hentry] at hmode
    | _ => simp_all [Request.entry, Phase.Suits, ite_eq_iff]
  · simpa using hasked
  · rw [Request.entry]
    split <;> simp [Phase.segment?]

theorem Calm.setSegment (h : Calm shape system) {segment : Nat} {value : Segment Process}
    (hinside : segment < system.issued) (hsize : value.size = 0 ∨ value.size = shape.total)
    (hcreated : (system.header segment).Created shape → value.header.Created shape)
    (hready : value.header.ready = true → value.header.Created shape) :
    Calm shape (system.setSegment segment value) := by
  have hkept := (Function.forall_update_iff system.segments fun third (one : Segment Process) =>
    (system.header third).Created shape → one.header.Created shape).mpr
      ⟨hcreated, fun _ _ hold => hold⟩
  refine { h with suits := fun other => ?_, fresh := ?_, sizes := ?_, ready := ?_ }
  · exact (h.suits other).mono (fun _ _ hname => hname) rfl fun third _ => hkept third
  · refine (Function.forall_update_iff system.segments fun third (one : Segment Process) =>
      system.issued ≤ third → one = {}).mpr ⟨fun hle => ?_, fun third _ => h.fresh third⟩
    omega
  · exact (Function.forall_update_iff system.segments fun _ (one : Segment Process) =>
      one.size = 0 ∨ one.size = shape.total).mpr ⟨hsize, fun third _ => h.sizes third⟩
  · exact (Function.forall_update_iff system.segments fun _ (one : Segment Process) =>
      one.header.ready = true → one.header.Created shape).mpr
        ⟨hready, fun third _ => h.ready third⟩

theorem Calm.setAttached (h : Calm shape system) {segment : Nat} (attached : BitVec 32)
    (hinside : segment < system.issued) : Calm shape (system.setAttached segment attached) :=
  h.setSegment hinside (h.sizes segment) (fun hcreated => hcreated)
    fun hready => h.ready segment hready

theorem Calm.unlink (h : Calm shape system)
    (hquiet : ∀ other, system.phases other = .opening →
      (system.requests other).mode ≠ .createOrAttach) : Calm shape system.unlink := by
  cases hname : system.name with
  | none =>
      rw [System.unlink, hname]
      exact h
  | some segment =>
      have hcounted : Calm shape (system.setSegment segment { system.segments segment with
          unlinks := (system.segments segment).unlinks + 1 }) :=
        h.setSegment (h.named segment hname) (h.sizes segment) (fun hcreated => hcreated)
          fun hready => h.ready segment hready
      have hunlink : Calm shape { system.setSegment segment { system.segments segment with
          unlinks := (system.segments segment).unlinks + 1 } with name := none } := by
        refine { hcounted with suits := fun other => ?_, named := by simp }
        refine (hcounted.suits other).mono ?_ rfl fun _ _ hcreated => hcreated
        exact fun hopening hmode => absurd hmode (hquiet other hopening)
      simpa [System.unlink, hname] using hunlink

theorem Calm.create (h : Calm shape system) (hactive : system.phases process ≠ .outside) :
    Calm shape (system.create process) := by
  have hissued : Calm shape
      { system with name := some system.issued, issued := system.issued + 1 } := by
    refine { h with suits := fun other => ?_, opened := ?_, named := ?_, fresh := ?_ }
    · exact (h.suits other).mono (fun _ _ _ => nofun) rfl fun _ _ hcreated => hcreated
    · exact fun other segment hsegment => Nat.lt_succ_of_lt (h.opened other segment hsegment)
    · rintro segment ⟨⟩
      exact Nat.lt_succ_self _
    · exact fun segment hle => h.fresh segment (Nat.le_of_succ_le hle)
  have hnew : Calm shape ({ system with
      name := some system.issued, issued := system.issued + 1 }.setSegment system.issued
        { creator := some process }) := by
    refine hissued.setSegment (Nat.lt_succ_self _) (.inl rfl) ?_ nofun
    rw [System.header, h.fresh system.issued le_rfl]
    exact fun hcreated => hcreated
  exact hnew.onward hactive (Nat.lt_succ_self _) trivial rfl

theorem Calm.observe (h : Calm shape system) {segment : Nat} {created : Bool}
    (hactive : system.phases process ≠ .outside) (hinside : segment < system.issued)
    (hcreated : (system.header segment).Created shape) :
    Calm shape (system.observe process segment created) := by
  rw [System.observe]
  split
  · exact h.onward hactive hinside trivial rfl
  · exact h.onward hactive hinside hcreated rfl

omit [DecidableEq Process] in
theorem created_setAttached {segment : Nat} {attached : BitVec 32}
    (h : (system.header segment).Created shape) :
    ((system.setAttached segment attached).header segment).Created shape := by
  simpa [System.header, System.setAttached, System.setHeader, System.setSegment, Header.Created,
    Header.sameShape] using h

theorem Calm.advance (h : Calm shape system) {failure : Option Int}
    (hquiet : Undisturbed shape system (process, .advance failure))
    (hstep : system.advance process failure = some next) : Calm shape next := by
  obtain ⟨hfailure, hremoves⟩ := hquiet
  have hactive : system.phases process ≠ .outside := by
    intro hphase
    simp [System.advance, hphase] at hstep
  -- all that may fail are a CAS and the search for a process slot
  have hnone : (system.phases process).mayFail = false → failure = none := by
    intro hnot
    cases failure with
    | none => rfl
    | some errno => exact absurd (hfailure rfl) (by simp [hnot])
  have hasked := h.asked process hactive
  cases hphase : system.phases process with
  | outside => exact absurd hphase hactive
  | attached segment created => simp [System.advance, hphase] at hstep
  | creating =>
      cases hnone (by rw [hphase]; rfl)
      cases hname : system.name with
      | none =>
          simp only [System.advance, hphase, hname, Option.some.injEq] at hstep
          exact hstep ▸ h.create hactive
      | some segment =>
          simp only [System.advance, hphase, hname] at hstep
          split at hstep
          · rename_i hcreate
            refine Option.some.inj hstep ▸ h.finish hactive ?_ trivial (by simp [Phase.segment?])
            intro hmode
            simp [hcreate] at hmode
          · refine Option.some.inj hstep ▸ h.setPhase hactive ?_ (by simp [Phase.segment?])
            intro _
            simp [hname]
  | opening =>
      cases hnone (by rw [hphase]; rfl)
      cases hname : system.name with
      | none =>
          simp only [System.advance, hphase, hname, Option.some.injEq] at hstep
          refine hstep ▸ h.finish hactive ?_ trivial (by simp [Phase.segment?])
          exact fun hmode => absurd hname (h.suitsAt hphase hmode)
      | some segment =>
          simp only [System.advance, hphase, hname, Option.some.injEq] at hstep
          exact hstep ▸ h.onward hactive (h.named segment hname) trivial rfl
  | sizing segment =>
      have hinside := h.inside hphase rfl
      cases hnone (by rw [hphase]; rfl)
      simp only [System.advance, hphase, Option.some.injEq, hasked] at hstep
      refine hstep ▸ Calm.onward (h.setSegment hinside (.inr rfl) ?_ ?_) hactive hinside rfl rfl
      · exact fun hcreated => hcreated
      · exact fun hready => h.ready segment hready
  | waitingSize segment =>
      cases hnone (by rw [hphase]; rfl)
      simp only [System.advance, hphase] at hstep
      split at hstep
      · cases hstep
      · rename_i hlarge
        have htotal : (system.segments segment).size = shape.total := by
          refine (h.sizes segment).resolve_left fun hzero => hlarge ?_
          rw [hzero]
          decide
        exact Option.some.inj hstep ▸ h.onward hactive (h.inside hphase rfl) htotal rfl
  | mapping segment created bytes =>
      cases hnone (by rw [hphase]; rfl)
      simp only [System.advance, hphase, Option.some.injEq] at hstep
      have hbytes : bytes = shape.total := h.suitsAt hphase
      cases created with
      | true => exact hstep ▸ h.onward hactive (h.inside hphase rfl) trivial rfl
      | false => exact hstep ▸ h.onward hactive (h.inside hphase rfl) hbytes rfl
  | constructing segment =>
      have hinside := h.inside hphase rfl
      simp only [System.advance, hphase, Option.some.injEq, hasked] at hstep
      refine hstep ▸ Calm.onward (h.setSegment hinside (h.sizes segment)
        (fun _ => created_create shape) fun _ => created_create shape) hactive hinside ?_ rfl
      simpa [Phase.Suits, System.header, System.setHeader, System.setSegment] using
        created_create shape
  | waitingReady segment bytes =>
      cases hnone (by rw [hphase]; rfl)
      simp only [System.advance, hphase] at hstep
      split at hstep
      · rename_i hready
        exact Option.some.inj hstep ▸ h.onward hactive (h.inside hphase rfl)
          ⟨h.suitsAt hphase, h.ready segment hready⟩ rfl
      · cases hstep
  | comparing segment bytes =>
      obtain ⟨rfl, hcreated⟩ := h.suitsAt hphase
      obtain ⟨hmagic, hversion, hsame⟩ := id hcreated
      simp only [System.advance, hphase, Option.some.injEq, hasked, hmagic,
        hversion, hsame, ne_eq, not_true_eq_false, or_self, if_false, if_true] at hstep
      exact hstep ▸ h.onward hactive (h.inside hphase rfl) hcreated rfl
  | loading segment created =>
      simp only [System.advance, hphase, Option.some.injEq] at hstep
      exact hstep ▸ h.observe hactive (h.inside hphase rfl) (h.suitsAt hphase)
  | attaching segment created observed =>
      have hinside := h.inside hphase rfl
      have hcreated : (system.header segment).Created shape := h.suitsAt hphase
      simp only [System.advance, hphase] at hstep
      split at hstep
      · exact Option.some.inj hstep ▸ (h.setAttached _ hinside).onward hactive hinside
          (created_setAttached hcreated) rfl
      · exact Option.some.inj hstep ▸ h.observe hactive hinside hcreated
  | claiming segment created =>
      have hcreated : (system.header segment).Created shape := h.suitsAt hphase
      cases failure with
      | some errno =>
          simp only [System.advance, hphase, Option.some.injEq] at hstep
          exact hstep ▸ h.onward hactive (h.inside hphase rfl) (by exact rfl) rfl
      | none =>
          simp only [System.advance, hphase, Option.some.injEq] at hstep
          refine hstep ▸ h.finish hactive (fun _ => .inr ⟨segment, created, rfl⟩) hcreated ?_
          rintro third ⟨⟩
          exact h.inside hphase rfl
  | readingState segment created counted after =>
      have hafter : after.Suits := h.suitsAt hphase
      simp only [System.advance, hphase, Option.some.injEq] at hstep
      subst hstep
      split
      · exact h.onward hactive (h.inside hphase rfl) hafter rfl
      · split
        · exact h.onward hactive (h.inside hphase rfl) hafter rfl
        · exact h.leave hafter hactive
  | detaching segment remove after =>
      have hinside := h.inside hphase rfl
      have hafter : after.Suits := h.suitsAt hphase
      have hcounted := h.setAttached ((system.header segment).attached - 1) hinside
      simp only [System.advance, hphase, Option.some.injEq] at hstep
      subst hstep
      split
      · exact hcounted.onward hactive hinside hafter rfl
      · split
        · exact hcounted.onward hactive hinside hafter rfl
        · exact hcounted.leave hafter hactive
  | marking segment after =>
      have hinside := h.inside hphase rfl
      have hafter : after.Suits := h.suitsAt hphase
      simp only [System.advance, hphase, Option.some.injEq] at hstep
      subst hstep
      split
      · exact (h.setAttached _ hinside).onward hactive hinside hafter rfl
      · exact h.leave hafter hactive
  | unlinking segment after =>
      have hphases : system.unlink.phases = system.phases := by
        rw [System.unlink]
        split <;> rfl
      simp only [System.advance, hphase, Option.some.injEq] at hstep
      refine hstep ▸ (h.unlink (hremoves (by rw [hphase]; rfl))).leave (h.suitsAt hphase) ?_
      rw [hphases]
      exact hactive
  | retrying =>
      cases hnone (by rw [hphase]; rfl)
      simp only [System.advance, hphase, Option.some.injEq] at hstep
      exact hstep ▸ h.start (.inr hphase) hasked

theorem Calm.step (h : Calm shape system) {label : Process × Move}
    (hquiet : Undisturbed shape system label) (hstep : step system label = some next) :
    Calm shape next := by
  obtain ⟨process, move⟩ := label
  cases move with
  | «open» request =>
      simp only [SharedSegment.step] at hstep
      split at hstep
      · rename_i houtside
        exact Option.some.inj hstep ▸ h.start (.inl houtside) hquiet
      · cases hstep
  | markReady =>
      simp only [SharedSegment.step] at hstep
      split at hstep
      · rename_i segment hphase
        have hcreated : (system.header segment).Created shape := h.suitsAt hphase
        exact Option.some.inj hstep ▸ h.setSegment (h.inside hphase rfl) (h.sizes segment)
          (fun hcreated => hcreated) fun _ => hcreated
      · cases hstep
  | destroy =>
      simp only [SharedSegment.step] at hstep
      split at hstep
      · rename_i segment created hphase
        have hactive : system.phases process ≠ .outside := by simp [hphase]
        exact Option.some.inj hstep ▸ h.onward hactive (h.inside hphase rfl) trivial rfl
      · cases hstep
  | advance failure => exact h.advance hquiet hstep

/-- The segment that a process has got from `Open` still has its name and counts its users;
the process created it, or it is ready. -/
def Live (system : System Process) (process : Process) (segment : Nat) (created : Bool) : Prop :=
  system.name = some segment ∧ (system.header segment).attached ≠ kRemoving ∧
    if created then (system.segments segment).creator = some process else system.Ready segment

omit [DecidableEq Process] in
theorem Sound.live {asked : Shape → Prop} {removed : Set Nat} (h : Sound asked removed system)
    {segment : Nat} {created : Bool} (hphase : system.phases process = .attached segment created) :
    Live system process segment created := by
  have hcounted : process ∈ system.users segment := by
    simp [System.users, hphase, Phase.counted]
  refine ⟨h.name_of_counted hcounted, h.not_removing hcounted, ?_⟩
  have hrole := h.roles process
  rw [hphase] at hrole
  cases created with
  | true => exact hrole.1.2.1
  | false => exact hrole.2.1

end Opening

/-- Process 1 is refused the creation, then process 0 leaves as the last user and removes
the name, then process 1 opens it. -/
def lastUserLeavesBetween : List (Fin 2 × Move) :=
  [(0, .open {})] ++ List.replicate 7 (0, .advance none) ++ [(0, .markReady)] ++
    [(1, .open {}), (1, .advance none)] ++ [(0, .destroy)] ++
    List.replicate 4 (0, .advance none) ++ [(1, .advance none)]

end TelePath.SharedSegment
