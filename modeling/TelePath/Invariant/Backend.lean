import TelePath.Invariant.Handovers

/-!
The backend completes a request: its tickets and frames get their results, a write reaches
the disk and a read fills frames that nobody looks at yet.
-/

namespace TelePath

open FrameControl

variable {n blockSize : Nat}

theorem Shared.complete_eq (shared : Shared n blockSize) (index : Nat)
    (request : DiskRequest n blockSize) (status : Status) (left : Fin n → Page blockSize) :
    shared.complete index request status left =
      { shared with
        frameData := (shared.complete index request status left).frameData
        files := (shared.complete index request status left).files
        inFlight := shared.inFlight.eraseIdx index
        completions := shared.completions ++ [⟨request.token, status⟩] } := by
  cases hoperation : request.operation <;> by_cases hok : status = ok <;>
    simp [Shared.complete, Shared.performRequest, Shared.failRequest, hoperation, hok]

section Complete

variable {shared : Shared n blockSize} {index : Nat} {request : DiskRequest n blockSize}
  {status : Status} {left : Fin n → Page blockSize} {rest : Multiset (Token n blockSize)}

theorem Shared.parked_complete (h : shared.inFlight[index]? = some request) (status : Status)
    (left : Fin n → Page blockSize) : ∃ core,
      shared.parked = shared.parkedBy none request.token + core ∧
      (shared.complete index request status left).parked =
        shared.parkedBy (some status) request.token + core := by
  have hby : ∀ result token, (shared.complete index request status left).parkedBy result token =
      shared.parkedBy result token := by
    intro result token
    rw [shared.complete_eq]
    cases token <;> rfl
  have hinFlight : (shared.complete index request status left).inFlight =
      shared.inFlight.eraseIdx index := rfl
  have hcompletions : (shared.complete index request status left).completions =
      shared.completions ++ [⟨request.token, status⟩] := rfl
  have hforeground : (shared.complete index request status left).foregroundQueue =
      shared.foregroundQueue := by
    rw [shared.complete_eq]
  have hbackground : (shared.complete index request status left).backgroundQueue =
      shared.backgroundQueue := by
    rw [shared.complete_eq]
  refine ⟨((shared.inFlight.eraseIdx index).map fun request =>
      shared.parkedBy none request.token).sum +
    (shared.completions.map fun completion =>
      shared.parkedBy (some completion.status) completion.token).sum +
    ↑((shared.foregroundQueue ++ shared.backgroundQueue).map Shared.parkedTask), ?_, ?_⟩
  · rw [Shared.parked, sum_map_eraseIdx _ h]
    abel
  · simp only [Shared.parked, hby, hinFlight, hcompletions, hforeground, hbackground,
      List.map_append, List.sum_append, List.map_singleton, List.sum_singleton]
    abel

theorem parkedBy_load (shared : Shared n blockSize) (id : LoadId) (result : Option Status)
    (rest : Multiset (Token n blockSize)) :
    shared.parkedBy result (.load id) + rest =
      (shared.loads id).frameTokens (.ofResult result) +
        ({.load id (shared.loads id)} + (shared.loads id).promise + rest) := by
  rw [Shared.parkedBy, AsyncLoad.tokens]
  abel

theorem ofResult_ne_reading (result : Option Status) (waiter : WaiterId) :
    Fill.ofResult result ≠ .reading waiter := by
  cases result with
  | none => simp [Fill.ofResult]
  | some status => by_cases hok : status = ok <;> simp [Fill.ofResult, hok]

theorem Control.complete (h : Control shared (shared.parkedBy none request.token + rest)) :
    Control (shared.complete index request status left)
      (shared.parkedBy (some status) request.token + rest) := by
  rw [shared.complete_eq]
  suffices hcontrol : Control shared (shared.parkedBy (some status) request.token + rest) from
    hcontrol.elsewhere rfl rfl rfl rfl
  cases htoken : request.token with
  | waiter waiter =>
      rw [htoken] at h
      exact h.retoken (by simp [Shared.parkedBy, Token.rights])
        (by simp [Shared.parkedBy, Token.Holds])
  | load id =>
      rw [htoken, parkedBy_load] at h
      rw [parkedBy_load]
      refine h.retoken (held_frameTokens _ _ _) fun token hmem => ?_
      obtain ⟨entry, hentry, rfl⟩ := mem_frameTokens hmem
      exact h.holds (.loading entry.reservation.frame (.installed entry.tag .empty))
        (Multiset.mem_add.mpr (.inl (frameTokens_mem hentry .empty)))

theorem Operations.complete (h : Operations shared (shared.parkedBy none request.token + rest)) :
    Operations (shared.complete index request status left)
      (shared.parkedBy (some status) request.token + rest) := by
  rw [shared.complete_eq]
  suffices hoperations : Operations shared (shared.parkedBy (some status) request.token + rest) from
    hoperations.agree rfl le_rfl
  cases htoken : request.token with
  | waiter waiter =>
      rw [htoken] at h
      exact h.exchange (.singleton rfl) (.singleton rfl)
  | load id =>
      rw [htoken, parkedBy_load] at h
      rw [parkedBy_load]
      exact h.exchange (frameTokens_offOperations _ _) (frameTokens_offOperations _ _)

theorem Requests.complete (h : Requests shared (shared.parkedBy none request.token + rest))
    (hafter : ∀ token ∈ (shared.complete index request status left).parked,
      token ∈ shared.parkedBy (some status) request.token + rest) :
    Requests (shared.complete index request status left)
      (shared.parkedBy (some status) request.token + rest) := by
  have hparked : ∀ request' ∈ (shared.complete index request status left).inFlight, ∀ waiter,
      request'.token = .waiter waiter →
        .ticket waiter none ∈ (shared.complete index request status left).parked := by
    intro request' hrequest' waiter hwaiter
    exact Shared.mem_parked_inFlight _ hrequest' (by simp [hwaiter, Shared.parkedBy])
  have hlanded : Requests (shared.complete index request status left)
      (shared.parkedBy none request.token + rest) := by
    rw [shared.complete_eq]
    have hold : ∀ {other : DiskRequest n blockSize}, other ∈ shared.inFlight.eraseIdx index →
        other ∈ shared.inFlight := List.mem_of_mem_eraseIdx
    exact ⟨h.fresh, h.owner, h.pending, h.single, h.settled,
      fun other hmem => h.asks other (hold hmem), fun other hmem => h.ticketed other (hold hmem),
      fun hstopped other hmem => h.claimed hstopped other (hold hmem), h.load,
      fun other hmem => h.loading other (hold hmem), h.refused, h.tasks⟩
  cases htoken : request.token with
  | waiter waiter =>
      rw [htoken] at hlanded hafter
      exact hlanded.setTicket (some status) fun request' hrequest' other hother =>
        hafter _ (hparked request' hrequest' other hother)
  | load id =>
      rw [htoken, parkedBy_load] at hlanded
      rw [parkedBy_load]
      exact hlanded.exchange (frameTokens_offRequests _ (ofResult_ne_reading _))
        (frameTokens_offRequests _ (ofResult_ne_reading _))

/-! Which bytes a completion changes. -/

theorem complete_data_of_ne {frame : Fin n}
    (h : (shared.complete index request status left).pages.data frame ≠
      shared.pages.data frame) :
    ∃ frames, request.operation = .read frames ∧ frame ∈ frames := by
  cases hoperation : request.operation with
  | read frames =>
      refine ⟨frames, rfl, ?_⟩
      by_contra hnot
      refine h ?_
      change (shared.complete index request status left).frameData frame = shared.frameData frame
      by_cases hok : status = ok
      · simp only [Shared.complete, hok, if_true, Shared.performRequest, hoperation]
        rw [List.findIdx?_eq_none_iff.mpr]
        intro other hmem
        simp only [decide_eq_false_iff_not]
        rintro rfl
        exact hnot hmem
      · simp [Shared.complete, hok, Shared.failRequest, hoperation, hnot]
  | write page =>
      refine absurd ?_ h
      change (shared.complete index request status left).frameData frame = shared.frameData frame
      by_cases hok : status = ok <;>
        simp [Shared.complete, hok, Shared.performRequest, Shared.failRequest, hoperation]
  | sync =>
      refine absurd ?_ h
      change (shared.complete index request status left).frameData frame = shared.frameData frame
      by_cases hok : status = ok <;>
        simp [Shared.complete, hok, Shared.performRequest, Shared.failRequest, hoperation]

theorem Shared.readBlock_of_ne (shared : Shared n blockSize) {tag other : BufferTag}
    (h : other ≠ tag) (page : Page blockSize) :
    (Function.update shared.files tag.fileId
      ((shared.files tag.fileId).writeBlock tag.blockId.toNat page) other.fileId).readBlock
        other.blockId.toNat = shared.diskPage other := by
  by_cases hfile : other.fileId = tag.fileId
  · have hblock : other.blockId.toNat ≠ tag.blockId.toNat := by
      intro heq
      refine h ?_
      cases other
      cases tag
      simp_all [BitVec.toNat_inj]
    rw [hfile, Function.update_self, BackingFile.readBlock_writeBlock_of_ne _ _ hblock, ← hfile]
    rfl
  · rw [Function.update_of_ne hfile]
    rfl

theorem complete_write {page : Page blockSize} (hwrite : request.operation = .write page) :
    (shared.complete index request ok left).pages.disk =
      Function.update shared.pages.disk request.tag page := by
  have hfiles : (shared.complete index request ok left).files =
      Function.update shared.files request.tag.fileId
        ((shared.files request.tag.fileId).writeBlock request.tag.blockId.toNat page) := by
    simp [Shared.complete, Shared.performRequest, hwrite]
  funext tag
  change (shared.complete index request ok left).diskPage tag = _
  rw [Shared.diskPage, hfiles]
  by_cases htag : tag = request.tag
  · subst htag
    rw [Function.update_self, Function.update_self, BackingFile.readBlock_writeBlock_self]
  · rw [Function.update_of_ne htag]
    exact shared.readBlock_of_ne htag page

theorem complete_disk (shared : Shared n blockSize) (index : Nat)
    (request : DiskRequest n blockSize) (status : Status) (left : Fin n → Page blockSize) :
    (shared.complete index request status left).pages.disk = shared.pages.disk ∨
      ∃ page, request.operation = .write page ∧ status = ok ∧
        (shared.complete index request status left).pages.disk =
          Function.update shared.pages.disk request.tag page := by
  cases hoperation : request.operation with
  | write page =>
      by_cases hok : status = ok
      · subst hok
        exact .inr ⟨page, rfl, rfl, complete_write hoperation⟩
      · refine .inl ?_
        funext tag
        change (shared.complete index request status left).diskPage tag = shared.diskPage tag
        simp [Shared.diskPage, Shared.complete, hok, Shared.failRequest, hoperation]
  | read frames =>
      refine .inl ?_
      funext tag
      change (shared.complete index request status left).diskPage tag = shared.diskPage tag
      by_cases hok : status = ok <;>
        simp [Shared.diskPage, Shared.complete, hok, Shared.performRequest, Shared.failRequest,
          hoperation]
  | sync =>
      refine .inl ?_
      funext tag
      change (shared.complete index request status left).diskPage tag = shared.diskPage tag
      by_cases hok : status = ok <;>
        simp [Shared.diskPage, Shared.complete, hok, Shared.performRequest, Shared.failRequest,
          hoperation]

theorem complete_read {frames : List (Fin n)} (hread : request.operation = .read frames)
    (hnodup : frames.Nodup) {i : Nat} {frame : Fin n} (hframe : frames[i]? = some frame) :
    (shared.complete index request ok left).pages.data frame =
      shared.pages.disk
        { request.tag with blockId := request.tag.blockId + BitVec.ofNat 64 i } := by
  have hfind : frames.findIdx? (· = frame) = some i := by
    obtain ⟨hlt, hget⟩ := List.getElem?_eq_some_iff.mp hframe
    refine List.findIdx?_eq_some_iff_getElem.mpr ⟨hlt, by simpa using hget, fun j hj => ?_⟩
    simp only [Bool.not_eq_true, decide_eq_false_iff_not]
    intro heq
    exact Nat.ne_of_lt hj ((hnodup.getElem_inj_iff).mp (heq.trans hget.symm))
  change (shared.complete index request ok left).frameData frame = _
  simp only [Shared.complete, if_true, Shared.performRequest, hread, hfind]
  rfl

/-! Whom a request in flight serves. -/

theorem Requests.serves {owned : Multiset (Token n blockSize)} (h : Requests shared owned)
    (hrunning : shared.stopped = false) (hmem : request ∈ shared.inFlight) :
    (∃ waiter purpose token, request.token = .waiter waiter ∧ token ∈ owned ∧
      token.purpose? = some (waiter, purpose) ∧ purpose.Asks waiter request) ∨
      ∃ id, request.token = .load id ∧ request = (shared.loads id).request id := by
  cases htoken : request.token with
  | waiter waiter =>
      obtain ⟨token, howned, hawaits⟩ := h.claimed hrunning request hmem waiter htoken
      obtain ⟨⟨other, purpose⟩, hpurpose, heq⟩ := (Option.any_eq_true _ _).mp hawaits
      obtain rfl : other = waiter := by simpa using heq
      exact .inl ⟨other, purpose, token, rfl, howned, hpurpose,
        h.asks request hmem token howned other purpose htoken hpurpose⟩
  | load id => exact .inr ⟨id, rfl, h.loading request hmem id htoken⟩

theorem Requests.reads (h : Requests shared (shared.parkedBy none request.token + rest))
    (hrunning : shared.stopped = false) (hmem : request ∈ shared.inFlight)
    {frames : List (Fin n)} (hread : request.operation = .read frames) {frame : Fin n}
    (hframe : frame ∈ frames) :
    ∃ tag fill, .loading frame (.installed tag fill) ∈
        shared.parkedBy none request.token + rest ∧
      (fill = .empty ∨ ∃ waiter, request.token = .waiter waiter ∧ fill = .reading waiter) := by
  rcases h.serves hrunning hmem with ⟨waiter, purpose, token, hwaiter, howned, hpurpose, hasks⟩ |
    ⟨id, htoken, hrequest⟩
  · cases purpose with
    | fill other tag =>
        obtain rfl := Token.fill_of_purpose? hpurpose
        rw [hasks] at hread
        obtain rfl : [other] = frames := by simpa using hread
        obtain rfl := List.mem_singleton.mp hframe
        exact ⟨tag, _, howned, .inr ⟨waiter, hwaiter, rfl⟩⟩
    | write other tag copy =>
        rw [hasks] at hread
        cases hread
    | sync =>
        rw [hasks.2] at hread
        cases hread
  · rw [hrequest] at hread
    obtain rfl : (shared.loads id).entries.map (·.reservation.frame) = frames := by
      simpa [AsyncLoad.request] using hread
    obtain ⟨entry, hentry, rfl⟩ := List.mem_map.mp hframe
    refine ⟨entry.tag, .empty, ?_, .inl rfl⟩
    rw [htoken, parkedBy_load]
    exact Multiset.mem_add.mpr (.inl (frameTokens_mem hentry .empty))

theorem Requests.writes {owned : Multiset (Token n blockSize)} (h : Requests shared owned)
    (hrunning : shared.stopped = false) (hmem : request ∈ shared.inFlight)
    {page : Page blockSize} (hwrite : request.operation = .write page) :
    ∃ frame waiter, request.token = .waiter waiter ∧
      .writeback frame (.writing request.tag page waiter) ∈ owned := by
  rcases h.serves hrunning hmem with ⟨waiter, purpose, token, htoken, howned, hpurpose, hasks⟩ |
    ⟨id, -, hrequest⟩
  · cases purpose with
    | fill other tag =>
        rw [hasks] at hwrite
        cases hwrite
    | write frame tag copy =>
        obtain rfl := Token.write_of_purpose? hpurpose
        subst hasks
        obtain rfl : copy = page := by simpa using hwrite
        exact ⟨frame, waiter, rfl, howned⟩
    | sync =>
        rw [hasks.2] at hwrite
        cases hwrite
  · rw [hrequest] at hwrite
    cases hwrite

/-! What becomes of pages. -/

theorem mem_parkedBy {result : Option Status} {completion : IoCompletion}
    {token : Token n blockSize} (h : token ∈ shared.parkedBy result completion) :
    (∃ waiter, completion = .waiter waiter ∧ token = .ticket waiter result) ∨
      (∃ id, ∃ entry ∈ (shared.loads id).entries, completion = .load id ∧
        token = .loading entry.reservation.frame (.installed entry.tag (.ofResult result))) ∨
      (∃ id load, token = .load id load) ∨ ∃ operation pins, token = .delivery operation pins := by
  cases completion with
  | waiter waiter => exact .inl ⟨waiter, rfl, Multiset.mem_singleton.mp h⟩
  | load id =>
      rw [← add_zero (shared.parkedBy _ _), parkedBy_load, add_zero, Multiset.mem_add,
        Multiset.mem_add, Multiset.mem_singleton] at h
      rcases h with h | rfl | h
      · obtain ⟨entry, hentry, rfl⟩ := mem_frameTokens h
        exact .inr (.inl ⟨id, entry, hentry, rfl, rfl⟩)
      · exact .inr (.inr (.inl ⟨id, _, rfl⟩))
      · cases hoperation : (shared.loads id).operation with
        | none => simp [AsyncLoad.promise, hoperation] at h
        | some operation =>
            simp only [AsyncLoad.promise, hoperation, Multiset.mem_singleton] at h
            exact .inr (.inr (.inr ⟨operation, _, h⟩))

theorem Marked.complete (h : Marked shared.pages (shared.parkedBy none request.token + rest)) :
    Marked (shared.complete index request status left).pages
      (shared.parkedBy (some status) request.token + rest) := by
  refine h.plain (by rw [shared.complete_eq]; rfl) fun token hmem frame => ?_
  rcases mem_parkedBy hmem with ⟨_, -, rfl⟩ | ⟨_, _, -, -, rfl⟩ | ⟨_, _, rfl⟩ | ⟨_, _, rfl⟩ <;> rfl

end Complete

namespace Control

variable {shared : Shared n blockSize} {owned : Multiset (Token n blockSize)} {frame : Fin n}

theorem loading_eq (h : Control shared owned) {stage stage' : LoadStage}
    (hmem : .loading frame stage ∈ owned) (hmem' : .loading frame stage' ∈ owned) :
    stage = stage' := by
  have hle : held owned frame .loading ≤ 1 := by
    rw [(h.counts frame).loading]
    split <;> omega
  have heq := eq_of_tally_le_one hle hmem hmem' (by simp [Token.rights]) (by simp [Token.rights])
  cases heq
  rfl

theorem writeback_eq (h : Control shared owned) {stage stage' : WritebackStage blockSize}
    (hmem : .writeback frame stage ∈ owned) (hmem' : .writeback frame stage' ∈ owned) :
    stage = stage' := by
  obtain ⟨rest, rfl⟩ := Multiset.exists_cons_of_mem hmem
  rw [← Multiset.singleton_add] at h
  rcases Multiset.mem_cons.mp hmem' with heq | hrest
  · cases heq
    rfl
  · exact absurd hrest (h.writeback_unique (Multiset.mem_singleton_self _) stage')

theorem writeback_of_tag [Fact (n ≤ 2 ^ 31)]
    (h : Control shared owned) {other : Fin n} {tag : BufferTag}
    {stage stage' : WritebackStage blockSize} (hmem : .writeback frame stage ∈ owned)
    (hmem' : .writeback other stage' ∈ owned) (htag : stage.tag? = some tag)
    (htag' : stage'.tag? = some tag) : frame = other ∧ stage = stage' := by
  obtain rfl : frame = other := by
    refine h.resident_unique (h.of_writeback hmem).2.1 (h.of_writeback hmem').2.1 ?_
    exact (h.holds _ hmem tag htag).trans (h.holds _ hmem' tag htag').symm
  exact ⟨rfl, h.writeback_eq hmem hmem'⟩

theorem not_installed_of_writeback [Fact (n ≤ 2 ^ 31)]
    (h : Control shared owned) {other : Fin n} {tag : BufferTag}
    {stage : WritebackStage blockSize} (hmem : .writeback frame stage ∈ owned)
    (htag : stage.tag? = some tag) {loading : LoadStage} {fill : Fill}
    (hload : loading = .installed tag fill ∨ loading = .recorded tag fill) :
    .loading other loading ∉ owned := fun hmem' =>
  h.not_resident_of_installed hmem' hload (h.holds _ hmem tag htag) (h.of_writeback hmem).2.1

end Control

theorem WritebackStage.tag?_of_snapshot? {stage : WritebackStage blockSize} {tag : BufferTag}
    {snapshot : Page blockSize} (h : stage.snapshot? = some (tag, snapshot)) :
    stage.tag? = some tag := by
  cases stage <;> simp_all [WritebackStage.snapshot?, WritebackStage.tag?]

theorem LoadStage.of_filled? {stage : LoadStage} {tag : BufferTag}
    (h : stage.filled? = some tag) :
    stage = .installed tag .filled ∨ stage = .recorded tag .filled := by
  cases stage with
  | installed known fill | recorded known fill =>
      cases fill <;> simp_all [LoadStage.filled?]
  | _ => cases h

section Bytes

variable {shared : Shared n blockSize} {index : Nat} {request : DiskRequest n blockSize}
  {status : Status} {left : Fin n → Page blockSize} {rest : Multiset (Token n blockSize)}

theorem complete_data (hrequests : Requests shared (shared.parkedBy none request.token + rest))
    (hcontrol : Control shared (shared.parkedBy none request.token + rest))
    (hrunning : shared.stopped = false) (hmem : request ∈ shared.inFlight) {frame : Fin n}
    {stage : LoadStage} (hloading : .loading frame stage ∈ shared.parkedBy none request.token + rest)
    (hfilled : stage.filled? ≠ none) :
    (shared.complete index request status left).pages.data frame = shared.pages.data frame := by
  by_contra hne
  obtain ⟨frames, hread, hframe⟩ := complete_data_of_ne hne
  obtain ⟨tag, fill, hmem', hempty⟩ := hrequests.reads hrunning hmem hread hframe
  obtain rfl := hcontrol.loading_eq hloading hmem'
  rcases hempty with rfl | ⟨waiter, -, rfl⟩ <;> exact hfilled rfl

theorem complete_data_resident
    (hrequests : Requests shared (shared.parkedBy none request.token + rest))
    (hcontrol : Control shared (shared.parkedBy none request.token + rest))
    (hrunning : shared.stopped = false) (hmem : request ∈ shared.inFlight) {frame : Fin n}
    (hresident : (shared.view frame).state = .resident) :
    (shared.complete index request status left).pages.data frame = shared.pages.data frame := by
  by_contra hne
  obtain ⟨frames, hread, hframe⟩ := complete_data_of_ne hne
  obtain ⟨tag, fill, hmem', -⟩ := hrequests.reads hrunning hmem hread hframe
  exact absurd ((hcontrol.state_of_loading hmem').symm.trans hresident) (by decide)

theorem complete_disk_writing
    (hrequests : Requests shared (shared.parkedBy none request.token + rest))
    (hrunning : shared.stopped = false) (hmem : request ∈ shared.inFlight) {tag : BufferTag}
    (hne : (shared.complete index request status left).pages.disk tag ≠ shared.pages.disk tag) :
    ∃ frame page waiter, request.token = .waiter waiter ∧
      .writeback frame (.writing tag page waiter) ∈
        shared.parkedBy none request.token + rest := by
  rcases complete_disk shared index request status left with hsame | ⟨page, hwrite, -, hdisk⟩
  · exact absurd (congrFun hsame tag) hne
  · obtain ⟨frame, waiter, hwaiter, hwriting⟩ := hrequests.writes hrunning hmem hwrite
    obtain rfl : request.tag = tag := by
      by_contra htag
      exact hne (by rw [hdisk, Function.update_of_ne (Ne.symm htag)])
    exact ⟨frame, page, waiter, hwaiter, hwriting⟩

theorem complete_load (hcontrol : Control shared (shared.parkedBy none request.token + rest))
    (hrequests : Requests shared (shared.parkedBy none request.token + rest))
    (hmem : request ∈ shared.inFlight) {id : LoadId} (htoken : request.token = .load id)
    {entry : AsyncLoadEntry n} (hentry : entry ∈ (shared.loads id).entries) :
    (shared.complete index request ok left).pages.data entry.reservation.frame =
      (shared.complete index request ok left).pages.disk entry.tag := by
  have hrequest := hrequests.loading request hmem id htoken
  have hread : request.operation = .read ((shared.loads id).entries.map (·.reservation.frame)) := by
    rw [hrequest]
    rfl
  have hload : .load id (shared.loads id) ∈ shared.parkedBy none request.token + rest := by
    simp [htoken, Shared.parkedBy]
  obtain ⟨-, -, hconsecutive⟩ := hrequests.load id _ hload
  have hnodup : ((shared.loads id).entries.map (·.reservation.frame)).Nodup := by
    refine List.nodup_iff_count_le_one.mpr fun frame => ?_
    have hone : held (shared.parkedBy none request.token + rest) frame .loading ≤ 1 := by
      rw [(hcontrol.counts frame).loading]
      split <;> omega
    rw [htoken, parkedBy_load, held_add] at hone
    have hcount : held ((shared.loads id).frameTokens (.ofResult none) :
        Multiset (Token n blockSize)) frame .loading =
          ((shared.loads id).entries.map (·.reservation.frame)).count frame := by
      rw [AsyncLoad.frameTokens, held, tally, Multiset.coe_countP, List.countP_map,
        List.count_eq_countP, List.countP_map]
      refine List.countP_congr fun entry _ => ?_
      simp only [Function.comp_apply, Token.rights, List.mem_singleton, Prod.mk.injEq, true_and,
        decide_eq_true_eq, beq_iff_eq]
      exact eq_comm
    omega
  have hdisk : (shared.complete index request ok left).pages.disk = shared.pages.disk := by
    refine (complete_disk shared index request ok left).resolve_right ?_
    rintro ⟨page, hwrite, -⟩
    cases hread.symm.trans hwrite
  obtain ⟨i, hi⟩ := List.mem_iff_getElem?.mp hentry
  have hframe : ((shared.loads id).entries.map (·.reservation.frame))[i]? =
      some entry.reservation.frame := by
    rw [List.getElem?_map, hi]
    rfl
  rw [complete_read hread hnodup hframe, hdisk, hconsecutive i entry hi, hrequest]
  rfl

theorem Data.completeRequest [Fact (n ≤ 2 ^ 31)]
    {bytes : BufferTag → Page blockSize} {unwritten : Fin n → Bool}
    (hcontrol : Control shared (shared.parkedBy none request.token + rest))
    (hmarked : Marked shared.pages (shared.parkedBy none request.token + rest))
    (hrequests : Requests shared (shared.parkedBy none request.token + rest))
    (hrunning : shared.stopped = false) (hmem : request ∈ shared.inFlight)
    (h : Data bytes unwritten shared.pages (shared.parkedBy none request.token + rest)) :
    Data bytes unwritten (shared.complete index request status left).pages
      (shared.parkedBy (some status) request.token + rest) := by
  have hview : (shared.complete index request status left).pages.view = shared.pages.view := by
    rw [shared.complete_eq]
    rfl
  have htag : (shared.complete index request status left).pages.tag = shared.pages.tag := by
    rw [shared.complete_eq]
    rfl
  refine ⟨fun tag => ?_, fun frame hstate hexclusive => ?_, fun token htoken frame => ?_⟩
  · have hdirty : (∃ frame, DirtyFrame shared.pages frame tag) →
        ∃ frame, DirtyFrame (shared.complete index request status left).pages frame tag := by
      rintro ⟨frame, hstate, hdirty, hown⟩
      exact ⟨frame, by rwa [hview], by rwa [hview], by rwa [htag]⟩
    by_cases hdisk : (shared.complete index request status left).pages.disk tag =
        shared.pages.disk tag
    · rw [hdisk]
      exact (h.disk tag).imp_right hdirty
    · obtain ⟨frame, page, waiter, -, hwriting⟩ :=
        complete_disk_writing hrequests hrunning hmem hdisk
      obtain ⟨-, hstate, hset⟩ := hcontrol.of_writeback hwriting
      exact .inr (hdirty ⟨frame, hstate, hset, hcontrol.holds _ hwriting tag rfl⟩)
  · rw [hview] at hstate hexclusive
    rw [htag, complete_data_resident hrequests hcontrol hrunning hmem hstate]
    exact h.resident frame hstate hexclusive
  · rcases Multiset.mem_add.mp htoken with hgiven | hrest
    · rcases mem_parkedBy hgiven with ⟨_, -, rfl⟩ | ⟨id, entry, hentry, hkind, rfl⟩ |
        ⟨_, _, rfl⟩ | ⟨_, _, rfl⟩
      · exact reports_of_unwatched trivial
      · refine reports_loading fun tag hknown => ?_
        obtain rfl : status = ok := by
          by_contra hfailed
          simp [Fill.ofResult, hfailed, LoadStage.filled?] at hknown
        obtain rfl : entry.tag = tag := by simpa [Fill.ofResult, LoadStage.filled?] using hknown
        exact complete_load hcontrol hrequests hmem hkind hentry
      · exact reports_of_unwatched trivial
      · exact reports_of_unwatched trivial
    · have hold : token ∈ shared.parkedBy none request.token + rest := mem_rest hrest
      have hreports := h.reports token hold frame
      refine ⟨fun hmark => ?_, hreports.zeroed, fun stage tag snapshot hstage hcopy => ?_,
        fun stage tag snapshot hstage hcopy hlanded => ?_, fun stage tag hstage hfilled => ?_⟩
      · have hresident := (hmarked token hold frame .clean hmark).1 (by decide)
        rw [htag, complete_data_resident hrequests hcontrol hrunning hmem hresident]
        exact hreports.clean hmark
      · rw [hview]
        exact hreports.copied stage tag snapshot hstage hcopy
      · rw [← hreports.landed stage tag snapshot hstage hcopy hlanded]
        by_contra hne
        obtain ⟨other, page, waiter, -, hwriting⟩ :=
          complete_disk_writing hrequests hrunning hmem hne
        subst hstage
        obtain ⟨-, rfl⟩ := hcontrol.writeback_of_tag hold hwriting
          (WritebackStage.tag?_of_snapshot? hcopy) rfl
        cases hlanded
      · subst hstage
        rw [complete_data hrequests hcontrol hrunning hmem hold (by simp [hfilled])]
        rw [hreports.filled stage tag rfl hfilled]
        by_contra hne
        obtain ⟨other, page, waiter, -, hwriting⟩ :=
          complete_disk_writing hrequests hrunning hmem (Ne.symm hne)
        exact hcontrol.not_installed_of_writeback hwriting rfl (LoadStage.of_filled? hfilled) hold

theorem Purpose.Done.complete [Fact (n ≤ 2 ^ 31)]
    (hcontrol : Control shared (shared.parkedBy none request.token + rest))
    (hrequests : Requests shared (shared.parkedBy none request.token + rest))
    (hrunning : shared.stopped = false) (hmem : request ∈ shared.inFlight)
    {owner : Token n blockSize} (howner : owner ∈ shared.parkedBy none request.token + rest)
    {waiter : WaiterId} {purpose : Purpose n blockSize}
    (hpurpose : owner.purpose? = some (waiter, purpose)) (hother : request.token ≠ .waiter waiter)
    (h : purpose.Done shared.pages) :
    purpose.Done (shared.complete index request status left).pages := by
  cases purpose with
  | fill frame tag =>
      obtain rfl := Token.fill_of_purpose? hpurpose
      have hdata : (shared.complete index request status left).pages.data frame =
          shared.pages.data frame := by
        by_contra hne
        obtain ⟨frames, hread, hframe⟩ := complete_data_of_ne hne
        obtain ⟨known, fill, hmem', hfill⟩ := hrequests.reads hrunning hmem hread hframe
        cases hcontrol.loading_eq howner hmem'
        rcases hfill with hempty | ⟨reader, hreader, hfill⟩
        · cases hempty
        · cases hfill
          exact hother hreader
      rw [Purpose.Done, hdata, h]
      by_contra hne
      obtain ⟨other, page, writer, -, hwriting⟩ :=
        complete_disk_writing hrequests hrunning hmem (Ne.symm hne)
      exact hcontrol.not_installed_of_writeback hwriting rfl (.inl rfl) howner
  | write frame tag copy =>
      obtain rfl := Token.write_of_purpose? hpurpose
      rw [Purpose.Done, ← h]
      by_contra hne
      obtain ⟨other, page, writer, hwriter, hwriting⟩ :=
        complete_disk_writing hrequests hrunning hmem hne
      obtain ⟨-, heq⟩ := hcontrol.writeback_of_tag howner hwriting rfl rfl
      cases heq
      exact hother hwriter
  | sync => trivial

theorem Purpose.Asks.done {waiter : WaiterId} {purpose : Purpose n blockSize}
    (h : purpose.Asks waiter request) :
    purpose.Done (shared.complete index request ok left).pages := by
  cases purpose with
  | fill frame tag =>
      have hread : request.operation = .read [frame] := by rw [h]
      have hdisk : (shared.complete index request ok left).pages.disk = shared.pages.disk := by
        refine (complete_disk shared index request ok left).resolve_right ?_
        rintro ⟨page, hwrite, -⟩
        cases hread.symm.trans hwrite
      rw [Purpose.Done, complete_read hread (List.nodup_singleton frame)
        (i := 0) (List.getElem?_cons_zero ..), hdisk, h]
      simp
  | write frame tag copy =>
      have hwrite : request.operation = .write copy := by rw [h]
      rw [Purpose.Done, complete_write hwrite, h, Function.update_self]
  | sync => trivial

theorem Landed.completeRequest {effect effect' : Purpose n blockSize → Prop}
    (hrequests : Requests shared (shared.parkedBy none request.token + rest))
    (hmem : request ∈ shared.inFlight)
    (h : Landed effect shared (shared.parkedBy none request.token + rest))
    (hsync : effect' .sync)
    (hdone : ∀ owner ∈ shared.parkedBy none request.token + rest, ∀ waiter purpose,
      owner.purpose? = some (waiter, purpose) → purpose.Asks waiter request → status = ok →
        effect' purpose)
    (hstable : ∀ owner ∈ shared.parkedBy none request.token + rest, ∀ waiter purpose,
      owner.purpose? = some (waiter, purpose) → request.token ≠ .waiter waiter →
        effect purpose → effect' purpose) :
    Landed effect' (shared.complete index request status left)
      (shared.parkedBy (some status) request.token + rest) := by
  have hwaiters : (shared.complete index request status left).waiters = shared.waiters := by
    rw [shared.complete_eq]
  intro owner howner waiter purpose hpurpose
  have hold : owner ∈ shared.parkedBy none request.token + rest := by
    rcases Multiset.mem_add.mp howner with hgiven | hrest
    · rcases mem_parkedBy hgiven with ⟨_, -, rfl⟩ | ⟨_, entry, -, -, rfl⟩ | ⟨_, _, rfl⟩ |
        ⟨_, _, rfl⟩
      · cases hpurpose
      · have hoff : (.loading entry.reservation.frame
            (.installed entry.tag (.ofResult (some status))) : Token n blockSize).onRequests = false :=
          offRequests_installed _ _ (ofResult_ne_reading (some status))
        rw [Token.onRequests_of_purpose? hpurpose] at hoff
        cases hoff
      · cases hpurpose
      · cases hpurpose
    · exact mem_rest hrest
  rw [hwaiters]
  by_cases hown : request.token = .waiter waiter
  · -- the request of this very owner
    have hasks := hrequests.asks request hmem owner hold waiter purpose hown hpurpose
    have hpending := hrequests.pending owner hold waiter purpose hpurpose
    have hsingle := hrequests.single owner hold waiter purpose hpurpose
    rw [hown, Shared.parkedBy, tally_add, tally_singleton, Token.isTicket_ticket] at hpending hsingle
    simp only [decide_true, if_true] at hpending hsingle
    refine ⟨fun hticket => ?_, fun hnone => absurd hnone (by omega)⟩
    rcases Multiset.mem_add.mp hticket with hgiven | hrest
    · refine hdone owner hold waiter purpose hpurpose hasks ?_
      simpa [hown, Shared.parkedBy, eq_comm] using hgiven
    · rcases hsingle with rfl | hsingle
      · exact hsync
      · have hpos : 0 < tally (Token.isTicket waiter) rest := tally_pos hrest (by simp)
        omega
  · obtain ⟨hticketed, hsettled⟩ := h owner hold waiter purpose hpurpose
    have hkeep := hstable owner hold waiter purpose hpurpose hown
    refine ⟨fun hticket => hkeep (hticketed ?_), fun hpending herror =>
      hkeep (hsettled hpending herror)⟩
    rcases Multiset.mem_add.mp hticket with hgiven | hrest
    · rcases mem_parkedBy hgiven with ⟨other, hother, heq⟩ | ⟨_, _, -, -, heq⟩ | ⟨_, _, heq⟩ |
        ⟨_, _, heq⟩ <;> cases heq
      exact absurd hother hown
    · exact mem_rest hrest

theorem Landed.complete [Fact (n ≤ 2 ^ 31)]
    (hcontrol : Control shared (shared.parkedBy none request.token + rest))
    (hrequests : Requests shared (shared.parkedBy none request.token + rest))
    (hrunning : shared.stopped = false) (hmem : request ∈ shared.inFlight)
    (h : Landed (Purpose.Done shared.pages) shared
      (shared.parkedBy none request.token + rest)) :
    Landed (Purpose.Done (shared.complete index request status left).pages)
      (shared.complete index request status left)
      (shared.parkedBy (some status) request.token + rest) := by
  refine h.completeRequest hrequests hmem trivial ?_ ?_
  · rintro owner - waiter purpose - hasks rfl
    exact hasks.done
  · intro owner howner waiter purpose hpurpose hother hdone
    exact hdone.complete hcontrol hrequests hrunning hmem howner hpurpose hother

end Bytes

end TelePath
