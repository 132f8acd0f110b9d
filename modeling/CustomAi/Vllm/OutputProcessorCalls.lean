import CustomAi.Vllm.OutputProcessorSpec

/-!
# Calls of the output processor

Processing an output and adding a request keep the books of the output processor.
-/

namespace CustomAi.Vllm

open Option OutputProcessor ParentRequest Dict

variable {L D : Type}

namespace OutputProcessor

variable {s s' : OutputProcessor L D} {pending : List RequestId} {id p : RequestId}
  {r r' : TrackedRequest L D} {parents' : Dict RequestId (ParentRequest L)} {finished : Bool}
  {decodeNext : D → List TokenId → List Char × D}

/-- The engine makes pooling outputs for pooling requests, and log probabilities for requests that
ask for them. -/
structure Accepts (r : TrackedRequest L D) (output : SampledOutput L) : Prop where
  pooling : r.pooling = output.hasPoolingOutput
  logprobs : r.logprobs = none → output.newLogprobs = none

lemma Inv.parentReq_eq_none (h : s.Inv) (hr : s.requestStates.get? id = some r)
    (hnot : r.pooling = true ∨ r.streamingInput = true) : r.parentReq = none := by
  cases hp : r.parentReq with
  | none => rfl
  | some p =>
    have hok := h.books.childOk id r p hr hp
    rcases hnot with hpool | hstream
    · rw [hok.pooling] at hpool
      cases hpool
    · rw [hok.streamingInput] at hstream
      cases hstream

lemma ParentsAfter.of_none {parents : Dict RequestId (ParentRequest L)}
    (h : ParentsAfter parents parents' none id finished) : ParentsAfter parents parents' none id false := by
  refine ⟨h.get?_eq, fun p parent' hp => ?_⟩
  obtain ⟨parent, hparent, hid, hparams, hlen, hchildren⟩ := h.same p parent' hp
  refine ⟨parent, hparent, hid, hparams, hlen, ?_⟩
  rw [hchildren, if_neg (fun hc => nomatch hc.1), if_neg (fun hc => nomatch hc.1)]

lemma Inv.put (h : s.Inv) (hr : s.requestStates.get? id = some r) (hsame : SameBooks r r')
    (hp : ParentsAfter s.parents parents' r.parentReq id false) :
    Inv { s with requestStates := s.requestStates.set id r', parents := parents' } := by
  refine ⟨h.books.update hr hsame hp, fun hall => ?_⟩
  have hnone := hall id
  rw [get?_set_self] at hnone
  cases hnone

lemma Inv.freeCompleted (h : s.Inv) (hr : s.requestStates.get? id = some r)
    (hsame : SameBooks r r') (hstream : r'.streamingInput = r.streamingInput) {finishReason : Option FinishReason}
    (hp : ParentsAfter s.parents parents' r.parentReq id finishReason.isSome) :
    ∃ s', OutputProcessor.freeCompleted { s with parents := parents' } r' finishReason = .ok s' ∧ s'.Inv := by
  have hid : r'.requestId = id := hsame.requestId.trans (h.books.keyed id r hr)
  unfold OutputProcessor.freeCompleted
  simp only [hid]
  split
  · next hnone =>
    rw [hnone] at hp
    exact ⟨_, rfl, h.put hr hsame hp⟩
  · next hfin =>
    have hsome : finishReason.isSome = true := isSome_iff_ne_none.mpr hfin
    rw [hsome] at hp
    split
    · next hstr =>
      -- a streaming session has no parent
      have hnone := h.parentReq_eq_none hr (.inr (hstream.symm.trans hstr))
      rw [hnone] at hp
      have hkeep : ∀ r'' : TrackedRequest L D, r''.toRequestState = r'.toRequestState →
          r''.parentReq = r'.parentReq → r''.pooling = r'.pooling → ∀ key, key = id →
          Inv { s with requestStates := s.requestStates.set key r'', parents := parents' } := by
        rintro r'' hstate hparent hpooling key rfl
        refine h.put hr ⟨?_, ?_, ?_, ?_, ?_, fun hne => absurd hnone hne⟩ (hnone ▸ hp.of_none)
        · rw [hstate, hsame.requestId]
        · rw [hstate, hsame.externalReqId]
        · rw [hstate, hsame.requestIndex]
        · rw [hparent, hsame.parentReq]
        · rw [hpooling, hsame.pooling]
      split
      · refine ⟨_, rfl, hkeep _ ?_ ?_ ?_ _ hid⟩ <;> rfl
      · refine ⟨_, rfl, hkeep _ ?_ ?_ ?_ _ ?_⟩ <;> rfl
    · exact h.finishRequest hr hsame hp fun x => get?_set _ _ _ _

lemma Inv.processOutput (h : s.Inv) (output : SampledOutput L)
    (hacc : ∀ r, s.requestStates.get? output.requestId = some r → Accepts r output)
    (hint : ∀ r, s.requestStates.get? output.requestId = some r → r.pooling = true → r.streamInterval ≤ 1) :
    ∃ outs ids s', s.processOutput decodeNext output = .ok (outs, ids, s') ∧ s'.Inv := by
  unfold OutputProcessor.processOutput
  cases hr : s.requestStates.get? output.requestId with
  | none => exact ⟨_, _, _, rfl, h⟩
  | some r =>
    obtain ⟨hpooling, hlogprobs⟩ := hacc r hr
    have hinterval := hint r hr
    cases hpool : output.hasPoolingOutput with
    | true =>
      have hnone := h.parentReq_eq_none hr (.inl (hpooling.trans hpool))
      obtain ⟨out, hout⟩ : ∃ out, r.makePoolingOutput output.finishReason = .ok out := by
        unfold TrackedRequest.makePoolingOutput
        rw [ensure_of (hinterval (hpooling.trans hpool))]
        split
        · exact ⟨_, rfl⟩
        · exact ⟨_, rfl⟩
      have hsame : SameBooks r r := ⟨rfl, rfl, rfl, rfl, rfl, fun _ => rfl⟩
      obtain ⟨s', hfree, hinv⟩ := h.freeCompleted hr hsame rfl (hnone ▸ ParentsAfter.refl s.parents _)
      simp only [ite_true, hout, ok_bind, pure_eq_ok]
      change ∃ outs ids t, (do
        let self ← OutputProcessor.freeCompleted { s with parents := s.parents } r
          output.finishReason
        Except.ok (_, _, self)) = Except.ok (outs, ids, t) ∧ t.Inv
      rw [hfree]
      exact ⟨_, _, _, rfl, hinv⟩
    | false =>
      have hindex : ∀ parent ∈ r.parentReq.bind s.parents.get?, parent.samplingParams.outputKind = .finalOnly →
          r.requestIndex < parent.outputAggregator.length := by
        intro parent hparent hkind
        obtain ⟨q, hq, hparent⟩ := bind_eq_some_iff.mp hparent
        rw [(h.books.parentOk q parent hparent).2 hkind]
        exact (h.books.childOk _ r q hr hq).index parent hparent
      obtain ⟨out, finishReason, state, parent, hprocess, hsame, hreported⟩ :=
        RequestState.processOutput_reported decodeNext hindex output hlogprobs
      rw [h.books.keyed _ r hr] at hreported
      have hbooks : SameBooks r { r with toRequestState := state } :=
        ⟨hsame.requestId, hsame.externalReqId, hsame.requestIndex, rfl, rfl, fun _ => rfl⟩
      obtain ⟨s', hfree, hinv⟩ := h.freeCompleted hr hbooks rfl (parentsAfter_of_reported hreported)
      simp only [Bool.false_eq_true, ite_false, ensure_of (hpooling.trans hpool), hprocess, ok_bind, pure_eq_ok]
      rw [hfree]
      exact ⟨_, _, _, rfl, hinv⟩

/-- The parent of a new child, after `get_child_info`. -/
structure Enrolled (s : OutputProcessor L D) (parents' : Dict RequestId (ParentRequest L))
    (r : TrackedRequest L D) (id p : RequestId) (old parent : ParentRequest L) : Prop where
  before : s.parents.get? p = some old
  after : parents'.get? p = some parent
  requestId : parent.requestId = old.requestId
  samplingParams : parent.samplingParams = old.samplingParams
  aggregator : parent.outputAggregator = old.outputAggregator
  children : parent.childRequests = insert id old.childRequests
  clean : p ∈ s.parentRequests ∨ old.childRequests = ∅
  childOk : ChildOk parents' r p

/-- The parents when the request is new: only its own parent, if it has one, has changed. -/
def ParentsWith (s : OutputProcessor L D) (parents' : Dict RequestId (ParentRequest L))
    (r : TrackedRequest L D) (id : RequestId) : Prop :=
  ∀ q, (r.parentReq ≠ some q ∧ parents'.get? q = s.parents.get? q) ∨
    (r.parentReq = some q ∧ ∃ old parent, Enrolled s parents' r id q old parent)

section

variable (h : ParentsWith s parents' r id)
include h

lemma ParentsWith.get?_eq_none (q : RequestId) : parents'.get? q = none ↔ s.parents.get? q = none := by
  rcases h q with ⟨-, heq⟩ | ⟨-, old, parent, hq⟩
  · rw [heq]
  · simp [hq.before, hq.after]

lemma ParentsWith.childRequests (q : RequestId) : ((parents'.get? q).map (·.childRequests)).getD ∅ =
      if r.parentReq = some q then insert id (s.childRequests q) else s.childRequests q := by
  unfold OutputProcessor.childRequests
  rcases h q with ⟨hne, heq⟩ | ⟨hp, old, parent, hq⟩
  · rw [heq, if_neg hne]
  · rw [if_pos hp, hq.before, hq.after, map_some, map_some, getD_some, getD_some, hq.children]

lemma ParentsWith.same {q : RequestId} {parent : ParentRequest L} (hq : parents'.get? q = some parent) :
    ∃ old, s.parents.get? q = some old ∧ parent.requestId = old.requestId ∧
      parent.samplingParams = old.samplingParams ∧ parent.outputAggregator = old.outputAggregator := by
  rcases h q with ⟨-, heq⟩ | ⟨-, old, parent', hen⟩
  · exact ⟨parent, heq ▸ hq, rfl, rfl, rfl⟩
  · rw [hen.after, some.injEq] at hq
    subst hq
    exact ⟨old, hen.before, hen.requestId, hen.samplingParams, hen.aggregator⟩

end

lemma Inv.track (h : s.Inv) (hid : r.requestId = id) (hnew : s.requestStates.get? id = none)
    (hfree : s.parents.get? id = none) (hparents : ParentsWith s parents' r id) :
    Inv { s with
      requestsDrained := false
      requestStates := s.requestStates.set id r
      parents := parents'
      parentRequests := r.parentReq.elim s.parentRequests (insert · s.parentRequests)
      externalReqIds := s.externalReqIds.set r.externalReqId
        (s.externalReqIds.listAt r.externalReqId ++ [id]) } := by
  set t : OutputProcessor L D := { s with
    requestsDrained := false
    requestStates := s.requestStates.set id r
    parents := parents'
    parentRequests := r.parentReq.elim s.parentRequests (insert · s.parentRequests)
    externalReqIds := s.externalReqIds.set r.externalReqId
      (s.externalReqIds.listAt r.externalReqId ++ [id]) } with ht
  have hbooks := h.books
  have hget : ∀ x, t.requestStates.get? x =
      if x = id then some r else s.requestStates.get? x := fun x => get?_set _ _ _ _
  have hchild : ∀ x q, t.Child x q ↔ (x = id ∧ r.parentReq = some q) ∨ s.Child x q := by
    intro x q
    unfold Child
    rw [hget]
    by_cases hx : x = id
    · simp [hx, hnew]
    · simp [hx]
  have hext : ∀ e x, t.HasExternalId e x ↔ s.HasExternalId e x ∨ (e = r.externalReqId ∧ x = id) := by
    intro e x
    unfold HasExternalId
    rw [hget]
    by_cases hx : x = id
    · simp [hx, hnew, eq_comm]
    · simp [hx]
  have hmem : ∀ q, q ∈ t.parentRequests ↔ r.parentReq = some q ∨ q ∈ s.parentRequests := by
    intro q
    change q ∈ r.parentReq.elim _ _ ↔ _
    cases r.parentReq with
    | none => simp
    | some p => simp [eq_comm]
  have hlist : ∀ q, t.childRequests q =
      if r.parentReq = some q then insert id (s.childRequests q) else s.childRequests q :=
    hparents.childRequests
  have hindex := hbooks.external.append (k := r.externalReqId) (x := id) (by
    rintro ⟨⟨rx, hrx, -⟩, -⟩
    rw [hnew] at hrx
    cases hrx)
  refine ⟨⟨fun x rx hx => ?_, hindex.congr fun e x => ?_, fun x q hq => ?_, fun q hq => ?_,
    fun q hq => ?_, fun x q hq => ?_, fun q hq x hx => ?_, fun q x hx => ?_, fun q hq => ?_,
    fun x rx q hx hq => ?_, fun q parent hq => ?_, nofun⟩, fun hall => ?_⟩
  · rw [hget] at hx
    split at hx
    · next he => rw [← some.inj hx, he, hid]
    · exact hbooks.keyed x rx hx
  · rw [hext]
    simp
  · rw [hmem]
    exact ((hchild x q).mp hq).imp (fun hnew => hnew.2) fun hold => hbooks.registered x q hold
  · simp only [hchild]
    rcases (hmem q).mp hq with hp | hold
    · exact .inl ⟨id, .inl ⟨rfl, hp⟩⟩
    · obtain ⟨x, hx⟩ := (hbooks.justified q hold).resolve_right List.not_mem_nil
      exact .inl ⟨x, .inr hx⟩
  · intro hnone
    have hnone' := (hparents.get?_eq_none q).mp hnone
    rcases (hmem q).mp hq with hp | hold
    · rcases hparents q with ⟨hne, -⟩ | ⟨-, old, parent, hen⟩
      · exact hne hp
      · rw [hen.before] at hnone'
        cases hnone'
    · exact hbooks.made q hold hnone'
  · rw [hlist]
    rcases (hchild x q).mp hq with ⟨rfl, hp⟩ | hold
    · rw [if_pos hp]
      exact Finset.mem_insert_self _ _
    · split
      · exact Finset.mem_insert_of_mem (hbooks.listed x q hold)
      · exact hbooks.listed x q hold
  · rw [hlist] at hx
    rw [hchild]
    have hold : q ∈ s.parentRequests → x ∈ s.childRequests q → s.Child x q := fun hq' hx' =>
      (hbooks.children q hq' x hx').resolve_right fun hpend => List.not_mem_nil hpend.1
    split at hx
    · next hp =>
      rcases Finset.mem_insert.mp hx with rfl | hx
      · exact .inl (.inl ⟨rfl, hp⟩)
      · rcases hparents q with ⟨hne, -⟩ | ⟨-, old, parent, hen⟩
        · exact absurd hp hne
        · rcases hen.clean with hq' | hempty
          · exact .inl (.inr (hold hq' hx))
          · unfold childRequests at hx
            rw [hen.before, map_some, hempty] at hx
            exact absurd hx (Finset.notMem_empty x)
    · next hne => exact .inl (.inr (hold (((hmem q).mp hq).resolve_left hne) hx))
  · rw [hlist] at hx
    refine (hparents.get?_eq_none x).mpr ?_
    split at hx
    · rcases Finset.mem_insert.mp hx with rfl | hx
      · exact hfree
      · exact hbooks.unique q x hx
    · exact hbooks.unique q x hx
  · have hq' : s.parents.get? q ≠ none := fun hn => hq ((hparents.get?_eq_none q).mpr hn)
    rw [hget, if_neg fun he : q = id => hq' (he ▸ hfree)]
    exact hbooks.disjoint q hq'
  · rw [hget] at hx
    split at hx
    · cases hx
      rcases hparents q with ⟨hne, -⟩ | ⟨-, old, parent, hen⟩
      · exact absurd hq hne
      · exact hen.childOk
    · have hok := hbooks.childOk x rx q hx hq
      refine ⟨hok.pooling, hok.streamingInput, fun parent hparent => ?_⟩
      obtain ⟨old, hold, -, hparams, -⟩ := hparents.same hparent
      rw [hparams]
      exact hok.index old hold
  · obtain ⟨old, hold, hoid, hparams, hagg⟩ := hparents.same hq
    rw [hoid, hparams, hagg]
    exact hbooks.parentOk q old hold
  · have hnone := hall id
    rw [hget, if_pos rfl] at hnone
    cases hnone

lemma Inv.updateStreaming (h : s.Inv) (hr : s.requestStates.get? id = some r)
    (hnone : r.parentReq = none) (request : AddedRequest L D) :
    ∃ s', s.updateStreamingRequestState r request = .ok s' ∧ s'.Inv := by
  have hid := h.books.keyed _ r hr
  have hput : ∀ r' : TrackedRequest L D, r'.toRequestState = r.toRequestState →
      r'.parentReq = r.parentReq → r'.pooling = r.pooling → ∀ key, key = r.requestId →
      Inv { s with requestStates := s.requestStates.set key r' } := by
    rintro r' hstate hparent hpooling key rfl
    rw [hid]
    have hsame : SameBooks r r' := ⟨by rw [hstate], by rw [hstate], by rw [hstate], hparent,
      hpooling, fun hne => absurd hnone hne⟩
    exact h.put hr hsame (hnone ▸ ParentsAfter.refl s.parents _)
  unfold updateStreamingRequestState
  split
  · split
    · refine h.finishRequest hr ⟨rfl, rfl, rfl, rfl, rfl, fun _ => rfl⟩
        (hnone ▸ ParentsAfter.refl s.parents _) fun x => ?_
      split
      · next hx => rw [hx, hr]
      · rfl
    · refine ⟨_, rfl, hput _ ?_ ?_ ?_ _ ?_⟩ <;> rfl
    · refine ⟨_, rfl, hput _ ?_ ?_ ?_ _ ?_⟩ <;> rfl
  · split
    · refine ⟨_, rfl, hput _ ?_ ?_ ?_ _ ?_⟩ <;> rfl
    · refine ⟨_, rfl, hput _ ?_ ?_ ?_ _ ?_⟩ <;> rfl

lemma Inv.addRequest (h : s.Inv) (request : AddedRequest L D)
    (hold : ∀ r, s.requestStates.get? request.state.requestId = some r → r.parentReq = none)
    (hnew : s.requestStates.get? request.state.requestId = none →
      s.parents.get? request.state.requestId = none) : ∃ s', s.addRequest request none = .ok s' ∧ s'.Inv := by
  unfold OutputProcessor.addRequest
  dsimp only
  cases hr : s.requestStates.get? request.state.requestId with
  | none =>
    refine ⟨_, rfl, ?_⟩
    refine h.track (r := { request.state with
      parentReq := none
      pooling := request.pooling
      streamingInput := request.resumable
      inputChunkQueue := if request.resumable then some [] else none }) rfl hr (hnew hr)
      fun q => .inl ⟨nofun, rfl⟩
  | some r => exact h.updateStreaming hr (hold r hr) request

lemma Inv.addChild (h : s.Inv) {parent : ParentRequest L} {index : ℕ}
    (hparent : s.parents.get? p = some parent) (hindex : index < parent.samplingParams.n)
    (hdead : s.requestStates.get? (childReqId p index) = none)
    (hfree : s.parents.get? (childReqId p index) = none)
    (hclean : p ∈ s.parentRequests ∨ s.childRequests p = ∅) (request : AddedRequest L D)
    (hplain : request.pooling = false ∧ request.resumable = false) :
    ∃ s', s.addChild p index request = .ok s' ∧ s'.Inv := by
  obtain ⟨hpid, -⟩ := h.books.parentOk p parent hparent
  obtain ⟨hchildId, cached, hinfo⟩ := parent.getChildInfo_spec index
  rw [hpid] at hchildId hinfo
  cases hget : parent.getChildInfo index with
  | mk requestId rest =>
    obtain ⟨params, parent'⟩ := rest
    rw [hget] at hchildId hinfo
    change parent' = _ at hinfo
    subst hchildId
    unfold OutputProcessor.addChild OutputProcessor.addRequest
    simp only [hparent, hget, hdead]
    refine ⟨_, rfl, ?_⟩
    refine h.track (r := {
      toRequestState := { request.state with
        requestId := childReqId p index
        externalReqId := parent'.externalReqId
        requestIndex := index
        outputKind := params.outputKind }
      parentReq := some p
      pooling := request.pooling
      streamingInput := request.resumable
      inputChunkQueue := if request.resumable then some [] else none }) rfl hdead hfree fun q => ?_
    by_cases hq : q = p
    · subst hq
      refine .inr ⟨rfl, parent, parent', hparent, get?_set_self _ _ _, ?_, ?_, ?_, ?_, ?_,
        hplain.1, hplain.2, fun parent'' hset => ?_⟩
      · rw [hinfo]
        exact hpid.symm
      · rw [hinfo]
      · rw [hinfo]
      · rw [hinfo]
      · refine hclean.imp_right fun hempty => ?_
        unfold OutputProcessor.childRequests at hempty
        rw [hparent, map_some] at hempty
        exact hempty
      · rw [get?_set_self, some.injEq] at hset
        rw [← hset, hinfo]
        exact hindex
    · exact .inl ⟨fun he => hq (some.inj he).symm, get?_set_of_ne _ _ hq⟩

lemma Inv.newParent (h : s.Inv) (hnew : s.parents.get? p = none)
    (hdead : s.requestStates.get? p = none) (hfree : ∀ q, p ∉ s.childRequests q)
    (externalReqId : RequestId) (params : ParallelSamplingParams) :
    Inv { s with parents := s.parents.set p (.new p externalReqId params) } := by
  have hbooks := h.books
  set t : OutputProcessor L D := { s with parents := s.parents.set p (.new p externalReqId params) }
  have hget : ∀ q, t.parents.get? q = if q = p then some (.new p externalReqId params) else s.parents.get? q :=
    fun q => get?_set _ _ _ _
  have hlist : ∀ q, t.childRequests q = s.childRequests q := by
    intro q
    unfold childRequests
    rw [hget]
    by_cases hq : q = p
    · rw [if_pos hq, hq, hnew]
      rfl
    · rw [if_neg hq]
  have hne : ∀ q, s.parents.get? q ≠ none → q ≠ p := fun q hq he => hq (he ▸ hnew)
  refine ⟨⟨hbooks.keyed, hbooks.external, hbooks.registered, hbooks.justified, fun q hq => ?_,
    fun x q hq => ?_, fun q hq x hx => ?_, fun q x hx => ?_, fun q hq => ?_,
    fun x r q hx hq => ?_, fun q parent hq => ?_, hbooks.drained⟩, h.drained⟩
  · rw [hget, if_neg (hne q (hbooks.made q hq))]
    exact hbooks.made q hq
  · rw [hlist]
    exact hbooks.listed x q hq
  · rw [hlist] at hx
    exact hbooks.children q hq x hx
  · rw [hlist] at hx
    rw [hget, if_neg fun he : x = p => hfree q (he ▸ hx)]
    exact hbooks.unique q x hx
  · by_cases he : q = p
    · exact he ▸ hdead
    · rw [hget, if_neg he] at hq
      exact hbooks.disjoint q hq
  · have hok := hbooks.childOk x r q hx hq
    refine ⟨hok.pooling, hok.streamingInput, fun parent hparent => ?_⟩
    have hqp : q ≠ p := hne q (hbooks.made q (hbooks.registered x q ⟨r, hx, hq⟩))
    rw [hget, if_neg hqp] at hparent
    exact hok.index parent hparent
  · rw [hget] at hq
    split at hq
    · next he =>
      rw [← some.inj hq]
      refine ⟨he.symm, fun hkind => ?_⟩
      have hkind' : params.outputKind = .finalOnly := hkind
      simp [ParentRequest.new, hkind']
    · exact hbooks.parentOk q parent hq

end OutputProcessor

end CustomAi.Vllm
