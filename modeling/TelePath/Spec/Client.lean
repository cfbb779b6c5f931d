import Mathlib.Algebra.BigOperators.Group.Finset.Piecewise
import TelePath.Run
import TelePath.Spec.Background

/-!
What a client owns between two calls, and that every call starts from it and leads back
to it.
-/

namespace TelePath

open FrameControl Logic Manager

variable {n blockSize : Nat}

def Handle.grip (handle : Handle n) : Multiset (Token n blockSize) :=
  {.pin handle.frame handle.tag} +
    {if handle.exclusive then .exclusive handle.frame else .shared handle.frame}

/-- What a handle may do to its page. -/
def Handle.latch (handle : Handle n) (mark : Mark) : Latch :=
  if handle.exclusive then .writer mark else .reader

def grips (handles : List (Handle n)) : Multiset (Token n blockSize) :=
  (handles.map Handle.grip).sum

/-- The rights that come with the latches of some handles. -/
inductive Rights : List (Handle n) → Multiset (Token n blockSize) → Prop where
  | nil : Rights [] 0
  | cons {handle : Handle n} {handles : List (Handle n)} {rights : Multiset (Token n blockSize)}
      (mark : Mark) (hmark : handle.markedDirty = true → mark = .dirty)
      (hrights : Rights handles rights) :
      Rights (handle :: handles) ({(handle.latch mark).token handle.frame} + rights)

theorem Rights.append {first second : List (Handle n)}
    {rights rights' : Multiset (Token n blockSize)} (h : Rights first rights)
    (h' : Rights second rights') : Rights (first ++ second) (rights + rights') := by
  induction h with
  | nil => rwa [zero_add]
  | cons mark hmark _ ih =>
      rw [add_assoc]
      exact .cons mark hmark ih

theorem Rights.single {handle : Handle n} (mark : Mark)
    (hmark : handle.markedDirty = true → mark = .dirty) :
    Rights [handle] ({(handle.latch mark).token handle.frame} : Multiset (Token n blockSize)) :=
  .cons mark hmark .nil

theorem grips_append (first second : List (Handle n)) :
    (grips (first ++ second) : Multiset (Token n blockSize)) = grips first + grips second := by
  rw [grips, List.map_append, List.sum_append]
  rfl

theorem grips_split {handles : List (Handle n)} {index : Nat} {handle : Handle n}
    (h : handles[index]? = some handle) : (grips handles : Multiset (Token n blockSize)) =
      handle.grip + grips (handles.eraseIdx index) := by
  induction handles generalizing index with
  | nil => cases h
  | cons first rest ih =>
      cases index with
      | zero =>
          cases h
          rfl
      | succ index =>
          have hrest : (grips (first :: rest) : Multiset (Token n blockSize)) =
              first.grip + grips rest := rfl
          rw [hrest, ih h, add_left_comm]
          rfl

theorem Rights.split {handles : List (Handle n)} {rights : Multiset (Token n blockSize)}
    (h : Rights handles rights) {index : Nat} {handle : Handle n}
    (hindex : handles[index]? = some handle) :
    ∃ mark others, (handle.markedDirty = true → mark = .dirty) ∧
      rights = {(handle.latch mark).token handle.frame} + others ∧
      Rights (handles.eraseIdx index) others ∧
      ∀ (update : Handle n → Handle n) (mark' : Mark),
        ((update handle).markedDirty = true → mark' = .dirty) →
          Rights (handles.modify index update)
            ({((update handle).latch mark').token (update handle).frame} + others) := by
  induction h generalizing index with
  | nil => cases hindex
  | @cons first rest rights mark hmark hrights ih =>
      cases index with
      | zero =>
          cases hindex
          exact ⟨mark, rights, hmark, rfl, hrights, fun update mark' hmark' =>
            .cons mark' hmark' hrights⟩
      | succ index =>
          obtain ⟨mark', others, hmark', rfl, herase, hmodify⟩ := ih hindex
          refine ⟨mark', {(first.latch mark).token first.frame} + others, hmark', ?_,
            .cons mark hmark herase, fun update mark'' hmark'' => ?_⟩
          · rw [add_left_comm]
          · rw [add_left_comm]
            exact .cons mark hmark (hmodify update mark'' hmark'')

/-- The operations that the operation objects of a client own. -/
def Keeps (operations : Nat → Option OperationId) (tokens : Multiset (Token n blockSize)) : Prop :=
  ∃ support : Finset Nat, (∀ i ∉ support, operations i = none) ∧
    tokens = ∑ i ∈ support, (operations i).elim 0 fun id => {.operation id (.stored [])}

theorem Keeps.split {operations : Nat → Option OperationId}
    {tokens : Multiset (Token n blockSize)} (h : Keeps operations tokens) (index : Nat) :
    ∃ others, tokens = ((operations index).elim 0 fun id => {.operation id (.stored [])}) + others ∧
      ∀ current : Option OperationId, Keeps (Function.update operations index current)
        ((current.elim 0 fun id => {.operation id (.stored [])}) + others) := by
  obtain ⟨support, hsupport, rfl⟩ := h
  have hone : ∀ (operations : Nat → Option OperationId), (∀ i ∉ support, operations i = none) →
      ∑ i ∈ support, ((operations i).elim 0 fun id => {.operation id (.stored [])}) =
        ((operations index).elim 0 fun id => {.operation id (.stored [])}) +
          ∑ i ∈ support.erase index,
            ((operations i).elim (0 : Multiset (Token n blockSize)) fun id =>
              {.operation id (.stored [])}) := by
    intro operations hnone
    by_cases hmem : index ∈ support
    · exact (Finset.add_sum_erase _ _ hmem).symm
    · rw [hnone index hmem, Finset.erase_eq_of_notMem hmem]
      exact (zero_add _).symm
  refine ⟨_, hone operations hsupport, fun current => ⟨insert index support, ?_, ?_⟩⟩
  · intro i hi
    rw [Finset.mem_insert, not_or] at hi
    rw [Function.update_of_ne hi.1]
    exact hsupport i hi.2
  · rw [← Finset.insert_erase (Finset.mem_insert_self index support), Finset.sum_insert (by simp),
      Function.update_self]
    congr 1
    refine Finset.sum_congr (by rw [Finset.erase_insert_eq_erase]) fun i hi => ?_
    rw [Function.update_of_ne (Finset.ne_of_mem_erase hi)]

def Client.Owns (client : Client n) (tokens : Multiset (Token n blockSize)) : Prop :=
  ∃ rights kept left, Rights client.handles rights ∧ Keeps client.operations kept ∧
    (∀ token ∈ left, ∃ id, token = .operation id (.stored [])) ∧
      tokens = grips client.handles + rights + kept + left

theorem client_owns_nothing : ({} : Client n).Owns (0 : Multiset (Token n blockSize)) :=
  ⟨0, 0, 0, .nil, ⟨∅, fun _ _ => rfl, rfl⟩, by simp, rfl⟩

/-- The handles that live on while a call runs. -/
def Call.keeps (handles : List (Handle n)) : Call n blockSize → List (Handle n)
  | .release index => handles.eraseIdx index
  | _ => handles

/-- A call runs by the rules and leads to what the client then owns.  The handles that
live on stay in its context. -/
def Runs (client : Client n) (call : Call n blockSize) (tokens : Multiset (Token n blockSize))
    (program : Prog n blockSize (Outcome n)) : Prop :=
  ∃ context P, tokens = P + context ∧ grips (call.keeps client.handles) ≤ context ∧
    Ensures Rule context program
      (fun outcome Q => (client.finish call outcome).Owns (Q + context)) P

namespace Client

variable {client : Client n} {call : Call n blockSize} {tokens : Multiset (Token n blockSize)}

theorem Owns.grips_le (h : client.Owns tokens) : grips client.handles ≤ tokens := by
  obtain ⟨rights, kept, left, -, -, -, rfl⟩ := h
  rw [add_assoc, add_assoc]
  exact Multiset.le_add_right _ _

theorem Owns.runs (h : client.Owns tokens) {program : Prog n blockSize (Outcome n)}
    (hkeeps : call.keeps client.handles = client.handles)
    (hprogram : Ensures Rule tokens program
      (fun outcome Q => (client.finish call outcome).Owns (Q + tokens)) 0) :
    Runs client call tokens program :=
  ⟨tokens, 0, (zero_add _).symm, by rw [hkeeps]; exact h.grips_le, hprogram⟩

theorem Owns.runs_status (h : client.Owns tokens) {program : Prog n blockSize Status}
    (hkeeps : call.keeps client.handles = client.handles)
    (hfinish : ∀ status, client.finish call (.status status) = client)
    (hprogram : Ensures Rule tokens program (fun _ Q => Q = 0) 0) :
    Runs client call tokens (do return .status (← program)) := by
  refine h.runs hkeeps (hprogram.seq ?_)
  rintro status _ rfl
  refine ensures_done.mpr ?_
  rwa [hfinish, zero_add]

theorem Owns.addHandles (h : client.Owns tokens) {handles : List (Handle n)}
    {rights : Multiset (Token n blockSize)} (hrights : Rights handles rights) :
    ({ client with handles := client.handles ++ handles } : Client n).Owns
      (grips handles + rights + tokens) := by
  obtain ⟨rights', kept, left, hrights', hkept, hleft, rfl⟩ := h
  refine ⟨rights' + rights, kept, left, hrights'.append hrights, hkept, hleft, ?_⟩
  rw [grips_append]
  abel

theorem Owns.splitHandle (h : client.Owns tokens) {index : Nat} {handle : Handle n}
    (hindex : client.handles[index]? = some handle) :
    ∃ mark others, (handle.markedDirty = true → mark = .dirty) ∧
      tokens = {(handle.latch mark).token handle.frame} + (handle.grip + others) ∧
      grips (client.handles.eraseIdx index) ≤ others ∧
      ({ client with handles := client.handles.eraseIdx index } : Client n).Owns others ∧
      ∀ (update : Handle n → Handle n) (mark' : Mark),
        (update handle).grip = (handle.grip : Multiset (Token n blockSize)) →
        ((update handle).markedDirty = true → mark' = .dirty) →
          ({ client with handles := client.handles.modify index update } : Client n).Owns
            ({((update handle).latch mark').token (update handle).frame} +
              (handle.grip + others)) := by
  obtain ⟨rights, kept, left, hrights, hkept, hleft, rfl⟩ := h
  obtain ⟨mark, others, hmark, rfl, herase, hmodify⟩ := hrights.split hindex
  refine ⟨mark, grips (client.handles.eraseIdx index) + others + kept + left, hmark, ?_, ?_,
    ⟨others, kept, left, herase, hkept, hleft, rfl⟩, fun update mark' hgrip hmark' => ?_⟩
  · rw [grips_split hindex]
    abel
  · rw [add_assoc, add_assoc]
    exact Multiset.le_add_right _ _
  · refine ⟨_, kept, left, hmodify update mark' hmark', hkept, hleft, ?_⟩
    have hother : (client.handles.modify index update).eraseIdx index =
        client.handles.eraseIdx index := List.eraseIdx_modify_of_eq ..
    have hupdated : (client.handles.modify index update)[index]? = some (update handle) := by
      simp [hindex]
    rw [grips_split hupdated, hother, hgrip]
    abel

theorem Owns.splitOperation (h : client.Owns tokens) (index : Nat) :
    ∃ others, tokens =
        ((client.operations index).elim 0 fun id => {.operation id (.stored [])}) + others ∧
      grips client.handles ≤ others ∧
      ∀ current : Option OperationId,
        ({ client with operations := Function.update client.operations index current } :
          Client n).Owns ((current.elim 0 fun id => {.operation id (.stored [])}) + others) := by
  obtain ⟨rights, kept, left, hrights, hkept, hleft, rfl⟩ := h
  obtain ⟨others, rfl, hupdate⟩ := hkept.split index
  refine ⟨grips client.handles + rights + others + left, by abel, ?_, fun current => ?_⟩
  · rw [add_assoc, add_assoc]
    exact Multiset.le_add_right _ _
  · exact ⟨rights, _, left, hrights, hupdate current, hleft, by abel⟩

theorem Owns.leave (h : client.Owns tokens) (id : OperationId) :
    client.Owns ({.operation id (.stored [])} + tokens) := by
  obtain ⟨rights, kept, left, hrights, hkept, hleft, rfl⟩ := h
  refine ⟨rights, kept, {.operation id (.stored [])} + left, hrights, hkept, ?_, by abel⟩
  intro token hmem
  rcases Multiset.mem_add.mp hmem with hnew | hold
  · exact ⟨id, Multiset.mem_singleton.mp hnew⟩
  · exact hleft token hold

end Client

section Calls

variable {client : Client n} {tokens : Multiset (Token n blockSize)} {options : Options}
  {index : Nat} {handle : Handle n}

theorem releaseProgram_spec (context : Multiset (Token n blockSize)) (handle : Handle n)
    (mark : Mark) :
    Ensures Rule context (releaseProgram handle : Prog n blockSize Unit) (fun _ Q => Q = 0)
      ({(handle.latch mark).token handle.frame} + handle.grip) := by
  rw [releaseProgram, Handle.latch, Handle.grip]
  split
  · refine (releaseExclusiveHandle_spec handle.frame handle.tag mark).of_eq ?_
    simp only [Latch.token]
    abel
  · refine (releaseSharedHandle_spec handle.frame handle.tag).of_eq ?_
    simp only [Latch.token]
    abel

theorem release_runs (howns : client.Owns tokens)
    (hindex : client.handles[index]? = some handle) :
    Runs client (.release index : Call n blockSize) tokens (do
      releaseProgram handle
      return .status ok) := by
  obtain ⟨mark, others, -, rfl, hothers, herased, -⟩ := howns.splitHandle hindex
  refine ⟨others, {(handle.latch mark).token handle.frame} + handle.grip, (add_assoc _ _ _).symm,
    hothers, (releaseProgram_spec others handle mark).seq ?_⟩
  rintro _ _ rfl
  refine ensures_done.mpr ?_
  rwa [zero_add]

theorem runs_exclusive (howns : client.Owns tokens)
    (hindex : client.handles[index]? = some handle) (hexclusive : handle.exclusive = true)
    (call : Call n blockSize) {program : Prog n blockSize Unit} (update : Handle n → Handle n)
    (hkeeps : call.keeps client.handles = client.handles)
    (hfinish : client.finish call (.status ok) =
      { client with handles := client.handles.modify index update })
    (hupdate : (update handle).grip = (handle.grip : Multiset (Token n blockSize)) ∧
      (update handle).exclusive = true ∧ (update handle).frame = handle.frame)
    (hprogram : ∀ (context : Multiset (Token n blockSize)) (mark : Mark),
      (handle.markedDirty = true → mark = .dirty) →
        Ensures Rule (context + ({.pin handle.frame handle.tag} + {.exclusive handle.frame})) program
          (fun _ Q => ∃ mark', ((update handle).markedDirty = true → mark' = .dirty) ∧
            Q = {.writer handle.frame mark'}) {.writer handle.frame mark}) :
    Runs client call tokens (do
      program
      return .status ok) := by
  obtain ⟨mark, others, hmark, rfl, hothers, -, hmodify⟩ := howns.splitHandle hindex
  have hgrip : (handle.grip : Multiset (Token n blockSize)) =
      {.pin handle.frame handle.tag} + {.exclusive handle.frame} := by
    rw [Handle.grip, if_pos hexclusive]
  have hlatch : ∀ (other : Handle n) (mark : Mark), other.exclusive = true →
      ((other.latch mark).token other.frame : Token n blockSize) = .writer other.frame mark := by
    intro other mark hother
    rw [Handle.latch, if_pos hother]
    rfl
  refine ⟨others + handle.grip, {(handle.latch mark).token handle.frame},
    by rw [add_comm others], ?_, ?_⟩
  · rw [hkeeps, grips_split hindex, add_comm]
    exact add_le_add_left hothers _
  · rw [hlatch handle mark hexclusive, hgrip]
    refine (hprogram others mark hmark).seq ?_
    rintro _ _ ⟨mark', hmark', rfl⟩
    refine ensures_done.mpr ?_
    have howns' := hmodify update mark' hupdate.1 hmark'
    rw [hlatch _ _ hupdate.2.1, hupdate.2.2, hgrip] at howns'
    rw [hfinish, add_comm others]
    exact howns'

theorem flushHandle_runs (howns : client.Owns tokens)
    (hindex : client.handles[index]? = some handle) :
    Runs client (.flushHandle index : Call n blockSize) tokens (do
      return .status (← flushHandleProgram options handle)) := by
  obtain ⟨mark, others, -, rfl, hothers, -, -⟩ := howns.splitHandle hindex
  refine ⟨handle.grip + others, {(handle.latch mark).token handle.frame}, rfl, ?_, ?_⟩
  · change grips client.handles ≤ _
    rw [grips_split hindex]
    exact add_le_add_right hothers _
  · have hflush : Ensures Rule (handle.grip + others)
        (flushHandleProgram options handle : Prog n blockSize Status)
        (fun _ Q => Q = {(handle.latch mark).token handle.frame})
        {(handle.latch mark).token handle.frame} := by
      refine whenUsable_spec ?_
      split
      · exact flushFrameOnce_spec options.writeback handle.frame true (handle.latch mark)
      · exact runForegroundFlush_spec options.writeback handle.frame true (handle.latch mark)
    refine hflush.seq ?_
    rintro status _ rfl
    exact ensures_done.mpr howns

theorem sharedHandle_owns (howns : client.Owns tokens) (frame : Fin n) (tag : BufferTag) :
    ({ client with handles := client.handles ++ [⟨frame, tag, false, false⟩] } : Client n).Owns
      ({.pin frame tag} + ({.shared frame} + {.reader frame}) + tokens) := by
  have hrights : Rights [(⟨frame, tag, false, false⟩ : Handle n)]
      ({.reader frame} : Multiset (Token n blockSize)) := .single .clean nofun
  rw [← add_assoc {Token.pin frame tag}]
  exact howns.addHandles hrights

theorem exclusiveHandle_owns (howns : client.Owns tokens) (frame : Fin n) (tag : BufferTag)
    (mark : Mark) :
    ({ client with handles := client.handles ++ [⟨frame, tag, true, false⟩] } : Client n).Owns
      ({.pin frame tag} + ({.exclusive frame} + {.writer frame mark}) + tokens) := by
  have hrights : Rights [(⟨frame, tag, true, false⟩ : Handle n)]
      ({.writer frame mark} : Multiset (Token n blockSize)) := .single mark nofun
  rw [← add_assoc {Token.pin frame tag}]
  exact howns.addHandles hrights

theorem readBuffer_runs (howns : client.Owns tokens) (tag : BufferTag)
    (strategy : Option StrategyId) :
    Runs client (.readBuffer tag strategy : Call n blockSize) tokens (do
      return .handle ((← readBuffer options.writeback tag strategy).map
        (⟨·, tag, false, false⟩))) := by
  refine howns.runs rfl ((readBuffer_spec options.writeback tag strategy).seq ?_)
  intro result Q hresult
  refine ensures_done.mpr ?_
  cases result with
  | error error =>
      cases hresult
      rwa [zero_add]
  | ok frame =>
      cases hresult
      exact sharedHandle_owns howns frame tag

theorem readBufferExclusive_runs (howns : client.Owns tokens) (tag : BufferTag)
    (strategy : Option StrategyId) (mode : ReadBufferMode) :
    Runs client (.readBufferExclusive tag strategy mode : Call n blockSize) tokens (do
      return .handle ((← readBufferExclusive options.writeback tag strategy mode).map
        (⟨·, tag, true, false⟩))) := by
  refine howns.runs rfl ((readBufferExclusive_spec options.writeback tag strategy mode).seq ?_)
  intro result Q hresult
  refine ensures_done.mpr ?_
  cases result with
  | error error =>
      cases hresult
      rwa [zero_add]
  | ok frame =>
      obtain ⟨mark, rfl⟩ := hresult
      exact exclusiveHandle_owns howns frame tag mark

theorem markDirty_runs (howns : client.Owns tokens)
    (hindex : client.handles[index]? = some handle) (hexclusive : handle.exclusive = true)
    (lsn : Lsn) :
    Runs client (.markDirty index lsn : Call n blockSize) tokens (do
      markHandleDirty handle.frame handle.tag lsn
      return .status ok) := by
  refine runs_exclusive howns hindex hexclusive _ ({ · with markedDirty := true }) rfl rfl
    ⟨rfl, hexclusive, rfl⟩ fun context mark _ => ?_
  exact (markHandleDirty_spec handle.frame handle.tag lsn mark).mono
    fun _ _ h => ⟨.dirty, fun _ => rfl, h⟩

theorem mutableData_runs (howns : client.Owns tokens)
    (hindex : client.handles[index]? = some handle) (hexclusive : handle.exclusive = true) :
    Runs client (.mutableData index : Call n blockSize) tokens (do
      if !handle.markedDirty then markHandleDirty handle.frame handle.tag kInvalidLsn
      return .status ok) := by
  have hmark : ∀ (context : Multiset (Token n blockSize)) (mark : Mark),
      (handle.markedDirty = true → mark = .dirty) →
        Ensures Rule (context + ({.pin handle.frame handle.tag} + {.exclusive handle.frame}))
          (if !handle.markedDirty then markHandleDirty handle.frame handle.tag kInvalidLsn
            else pure ())
          (fun _ Q => ∃ mark', (true = true → mark' = .dirty) ∧
            Q = {.writer handle.frame mark'}) {.writer handle.frame mark} := by
    intro context mark hmark
    cases hmarked : handle.markedDirty with
    | true => exact ⟨mark, fun _ => hmark hmarked, rfl⟩
    | false =>
        exact (markHandleDirty_spec handle.frame handle.tag kInvalidLsn mark).mono
          fun _ _ h => ⟨.dirty, fun _ => rfl, h⟩
  have hruns := runs_exclusive howns hindex hexclusive (.mutableData index)
    ({ · with markedDirty := true }) rfl rfl ⟨rfl, hexclusive, rfl⟩ hmark
  obtain ⟨context, P, htokens, hkeeps, hensures⟩ := hruns
  refine ⟨context, P, htokens, hkeeps, ?_⟩
  cases hmarked : handle.markedDirty <;> simpa [hmarked] using hensures

theorem write_runs (howns : client.Owns tokens)
    (hindex : client.handles[index]? = some handle) (hexclusive : handle.exclusive = true)
    (hmarked : handle.markedDirty = true) (page : Page blockSize) :
    Runs client (.write index page) tokens (do
      act (.writeFrame handle.frame page)
      return .status ok) := by
  refine runs_exclusive howns hindex hexclusive _ id rfl ?_ ⟨rfl, hexclusive, rfl⟩
    fun context mark hmark => ?_
  · rw [List.modify_id]
    rfl
  · obtain rfl := hmark hmarked
    refine ensures_last (.trade (.writeFrame handle.frame handle.tag page)) (add_zero _).symm
      (by rw [add_zero, add_comm]) ?_
    rintro _ _ rfl
    exact ⟨.dirty, fun _ => rfl, add_zero _⟩

theorem startReadBuffers_runs (howns : client.Owns tokens) (operation : Nat) (file : FileId)
    (block : BlockId) (count : Nat) (strategy : Option StrategyId) :
    Runs client (.startReadBuffers operation file block count strategy : Call n blockSize) tokens
      (do
        let (status, state) ← startReadBuffers options.writeback options.maxRequestBlocks
          (client.operations operation) file block count strategy
        return .operation status state) := by
  refine howns.runs rfl ((startReadBuffers_spec _ _ _ _ _ _ _).seq ?_)
  rintro ⟨status, state⟩ Q hresult
  refine ensures_done.mpr ?_
  obtain ⟨others, htokens, -, hupdate⟩ := howns.splitOperation operation
  rcases hresult with ⟨rfl, rfl⟩ | ⟨hnone, id, rfl, rfl⟩
  · rw [zero_add, htokens]
    exact hupdate _
  · rw [hnone, Option.elim_none, zero_add] at htokens
    rw [htokens]
    exact hupdate (some id)

theorem sharedHandles_owns (howns : client.Owns tokens) (pages : List (Fin n × BufferTag)) :
    ({ client with
        handles := client.handles ++ pages.map fun (frame, tag) => ⟨frame, tag, false, false⟩ } :
      Client n).Owns (sharedTokens pages + tokens) := by
  induction pages generalizing client tokens with
  | nil =>
      rw [List.map_nil, List.append_nil]
      exact (zero_add tokens).symm ▸ howns
  | cons page rest ih =>
      have hfirst := ih (sharedHandle_owns howns page.1 page.2)
      have hsum : sharedTokens (page :: rest) + tokens = sharedTokens rest +
          ({.pin page.1 page.2} + ({.shared page.1} + {.reader page.1}) + tokens) := by
        rw [sharedTokens, List.map_cons, List.sum_cons, sharedTokens]
        abel
      rw [hsum]
      simpa using hfirst

theorem waitReadBuffers_runs (howns : client.Owns tokens) (operation : Nat) :
    Runs client (.waitReadBuffers operation : Call n blockSize) tokens (do
      let (handles, status) ← waitReadBuffers options.writeback (client.operations operation)
      return .handles (handles.map fun (frame, tag) => ⟨frame, tag, false, false⟩) status) := by
  obtain ⟨others, htokens, hothers, hupdate⟩ := howns.splitOperation operation
  have hnone := hupdate none
  rw [Option.elim_none, zero_add] at hnone
  refine ⟨others, _, htokens, hothers, (waitReadBuffers_spec _ _).seq ?_⟩
  rintro ⟨pages, status⟩ Q hresult
  refine ensures_done.mpr ?_
  cases hoperation : client.operations operation with
  | none =>
      rw [hoperation] at hresult
      cases hresult
      exact sharedHandles_owns hnone pages
  | some id =>
      rw [hoperation] at hresult
      rcases hresult with rfl | ⟨rfl, rfl⟩
      · exact sharedHandles_owns hnone pages
      · have hempty : (sharedTokens [] : Multiset (Token n blockSize)) = 0 := rfl
        have hleft := sharedHandles_owns (hnone.leave id) []
        rw [hempty, zero_add] at hleft
        exact hleft

theorem destroyOperation_runs (howns : client.Owns tokens) (operation : Nat) :
    Runs client (.destroyOperation operation : Call n blockSize) tokens (do
      destroyOperation options.writeback (client.operations operation)
      return .status ok) := by
  obtain ⟨others, htokens, hothers, hupdate⟩ := howns.splitOperation operation
  have hnone := hupdate none
  rw [Option.elim_none, zero_add] at hnone
  refine ⟨others, _, htokens, hothers, (destroyOperation_spec _ _).seq ?_⟩
  rintro _ Q hresult
  refine ensures_done.mpr ?_
  cases hoperation : client.operations operation with
  | none =>
      rw [hoperation] at hresult
      cases hresult
      rwa [zero_add]
  | some id =>
      rw [hoperation] at hresult
      rcases hresult with rfl | ⟨-, rfl⟩
      · exact (zero_add others).symm ▸ hnone
      · exact hnone.leave id

theorem callProgram_runs {call : Call n blockSize} {program : Prog n blockSize (Outcome n)}
    (howns : client.Owns tokens) (hvalid : callProgram options client call = some program) :
    Runs client call tokens program := by
  cases call with
  | readBuffer tag strategy =>
      cases hvalid
      exact readBuffer_runs howns tag strategy
  | readBufferExclusive tag strategy mode =>
      cases hvalid
      exact readBufferExclusive_runs howns tag strategy mode
  | release index =>
      obtain ⟨handle, hindex, rfl⟩ := Option.map_eq_some_iff.mp hvalid
      exact release_runs howns hindex
  | mutableData index =>
      obtain ⟨handle, hhandle, rfl⟩ := Option.map_eq_some_iff.mp hvalid
      obtain ⟨hindex, hexclusive⟩ := Option.filter_eq_some_iff.mp hhandle
      exact mutableData_runs howns hindex hexclusive
  | write index page =>
      obtain ⟨handle, hhandle, rfl⟩ := Option.map_eq_some_iff.mp hvalid
      obtain ⟨hindex, hwritable⟩ := Option.filter_eq_some_iff.mp hhandle
      obtain ⟨hexclusive, hmarked⟩ := Bool.and_eq_true_iff.mp hwritable
      exact write_runs howns hindex hexclusive hmarked page
  | markDirty index lsn =>
      obtain ⟨handle, hhandle, rfl⟩ := Option.map_eq_some_iff.mp hvalid
      obtain ⟨hindex, hexclusive⟩ := Option.filter_eq_some_iff.mp hhandle
      exact markDirty_runs howns hindex hexclusive lsn
  | flushHandle index =>
      obtain ⟨handle, hindex, rfl⟩ := Option.map_eq_some_iff.mp hvalid
      exact flushHandle_runs howns hindex
  | flushBuffer tag =>
      cases hvalid
      exact howns.runs_status rfl (fun _ => rfl) (flushBuffer_spec options.writeback tag)
  | flushAll =>
      cases hvalid
      exact howns.runs_status rfl (fun _ => rfl) (flushAll_spec options.writeback)
  | flushFileBuffers file =>
      cases hvalid
      exact howns.runs_status rfl (fun _ => rfl) (flushFileBuffers_spec options.writeback file)
  | syncFile file =>
      cases hvalid
      exact howns.runs_status rfl (fun _ => rfl) (syncFile_spec file)
  | checkpointBuffers lsn =>
      cases hvalid
      exact howns.runs_status rfl (fun _ => rfl) (checkpointBuffers_spec options.writeback lsn)
  | minRecLsn =>
      cases hvalid
      refine howns.runs rfl (ensures_after_silent silent_minRecLsn fun lsn => ensures_done.mpr ?_)
      rwa [zero_add]
  | prefetchBuffer file block count =>
      cases hvalid
      exact howns.runs_status rfl (fun _ => rfl)
        (prefetchBuffer_spec options.writeback options.maxRequestBlocks file block count)
  | startReadBuffers operation file block count strategy =>
      cases hvalid
      exact startReadBuffers_runs howns operation file block count strategy
  | waitReadBuffers operation =>
      cases hvalid
      exact waitReadBuffers_runs howns operation
  | destroyOperation operation =>
      cases hvalid
      exact destroyOperation_runs howns operation
  | dropFileBuffers file first =>
      cases hvalid
      exact howns.runs_status rfl (fun _ => rfl) (dropFileBuffers_spec file first)

end Calls

end TelePath
