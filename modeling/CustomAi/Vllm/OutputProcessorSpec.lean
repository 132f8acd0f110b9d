import CustomAi.Vllm.OutputProcessor

/-!
# The books of the output processor

What the maps of the output processor must say about the requests it tracks, and what making an
output, adding a request and finishing one do to them.
-/

namespace CustomAi.Vllm

open List Option

variable {L D : Type}

namespace RequestState

structure Same (r r' : RequestState L D) : Prop where
  requestId : r'.requestId = r.requestId
  externalReqId : r'.externalReqId = r.externalReqId
  requestIndex : r'.requestIndex = r.requestIndex
  queue : r'.queue = r.queue
  streamInterval : r'.streamInterval = r.streamInterval
  logprobs : r'.logprobs = none ↔ r.logprobs = none

/-- `get_outputs` has been called on the parent, if there is one. -/
def ParentReported (requestId : RequestId) (finished : Bool) :
    Option (ParentRequest L) → Option (ParentRequest L) → Prop
  | none, parent' => parent' = none
  | some parent, parent' => ∃ p, parent' = some p ∧ parent.Reported p requestId finished

variable {self : RequestState L D} {parentReq : Option (ParentRequest L)}

lemma ParentReported.refl (requestId : RequestId) (parentReq : Option (ParentRequest L)) :
    ParentReported requestId false parentReq parentReq := by
  cases parentReq with
  | none => rfl
  | some parent => exact ⟨parent, rfl, parent.outputAggregator, rfl, rfl⟩

lemma newCompletionOutput_fields (self : RequestState L D) (tokenIds : List TokenId)
    (finishReason : Option FinishReason) (stopReason : Option StopReason) :
    (self.newCompletionOutput tokenIds finishReason stopReason).1.index = self.requestIndex ∧
    (self.newCompletionOutput tokenIds finishReason stopReason).1.finished = finishReason.isSome ∧
    self.Same (self.newCompletionOutput tokenIds finishReason stopReason).2 :=
  ⟨rfl, rfl, rfl, rfl, rfl, rfl, rfl, Iff.rfl⟩

lemma makeRequestOutput_reported (hindex : ∀ parent ∈ parentReq, parent.samplingParams.outputKind = .finalOnly →
      self.requestIndex < parent.outputAggregator.length)
    (newTokenIds : List TokenId) (finishReason : Option FinishReason) (stopReason : Option StopReason) :
    ∃ out self' parentReq', self.makeRequestOutput parentReq newTokenIds finishReason stopReason =
      .ok (out, self', parentReq') ∧ self.Same self' ∧
      ParentReported self.requestId finishReason.isSome parentReq parentReq' := by
  have hskip : ∀ c : Prop, (c → finishReason = none) → c →
      self.Same self ∧ ParentReported self.requestId finishReason.isSome parentReq parentReq := by
    intro c hnone hc
    rw [hnone hc]
    exact ⟨⟨rfl, rfl, rfl, rfl, rfl, Iff.rfl⟩, .refl _ _⟩
  unfold makeRequestOutput
  simp only [pure_eq_ok]
  split
  · next hc =>
    exact ⟨_, _, _, rfl, hskip _ (fun h => not_isSome_iff_eq_none.mp h.1) hc⟩
  · split
    · next hc =>
      exact ⟨_, _, _, rfl, hskip _ (fun h => not_isSome_iff_eq_none.mp fun hs => h.2 (.inl hs)) hc⟩
    · cases parentReq with
      | none => exact ⟨_, _, _, rfl, ⟨rfl, rfl, rfl, rfl, rfl, Iff.rfl⟩, rfl⟩
      | some parent =>
        set delayed := decide (1 < self.streamInterval ∧ self.outputKind = .delta)
        set state : RequestState L D := { self with
          sentTokensOffset := if delayed = true then self.detokenizer.outputTokenIds.length
            else self.sentTokensOffset }
        set toSend := if delayed = true then
          self.detokenizer.outputTokenIds.drop self.sentTokensOffset else newTokenIds
        obtain ⟨hidx, hfin, hsame⟩ := state.newCompletionOutput_fields toSend finishReason stopReason
        obtain ⟨outputs, finished, parent', hget, hreported⟩ := parent.getOutputs_reported
          (state.newCompletionOutput toSend finishReason stopReason).2.requestId
          (fun hkind => hidx.symm ▸ hindex parent rfl hkind)
        rw [hfin] at hreported
        simp only [hget, ok_bind]
        have hstate : self.Same (state.newCompletionOutput toSend finishReason stopReason).2 :=
          ⟨hsame.requestId, hsame.externalReqId, hsame.requestIndex, hsame.queue,
            hsame.streamInterval, hsame.logprobs⟩
        split
        · exact ⟨_, _, _, rfl, hstate, parent', rfl, hreported⟩
        · exact ⟨_, _, _, rfl, hstate, parent', rfl, hreported⟩

lemma Same.trans {r r' r'' : RequestState L D} (h : r.Same r') (h' : r'.Same r'') : r.Same r'' :=
  ⟨h'.requestId.trans h.requestId, h'.externalReqId.trans h.externalReqId,
    h'.requestIndex.trans h.requestIndex, h'.queue.trans h.queue,
    h'.streamInterval.trans h.streamInterval, h'.logprobs.trans h.logprobs⟩

lemma processOutput_reported (decodeNext : D → List TokenId → List Char × D)
    (hindex : ∀ parent ∈ parentReq, parent.samplingParams.outputKind = .finalOnly →
      self.requestIndex < parent.outputAggregator.length) (output : SampledOutput L)
    (hlogprobs : self.logprobs = none → output.newLogprobs = none) :
    ∃ out finishReason self' parentReq', self.processOutput decodeNext parentReq output =
      .ok (out, finishReason, self', parentReq') ∧ self.Same self' ∧
      ParentReported self.requestId finishReason.isSome parentReq parentReq' := by
  obtain ⟨logprobs, hlp, hnone⟩ : ∃ logprobs, self.updateLogprobs output.newLogprobs =
      .ok logprobs ∧ (logprobs = none ↔ self.logprobs = none) := by
    unfold updateLogprobs
    cases hl : output.newLogprobs with
    | none => exact ⟨_, rfl, Iff.rfl⟩
    | some l =>
      cases hs : self.logprobs with
      | none =>
        rw [hlogprobs hs] at hl
        cases hl
      | some old => exact ⟨some (old ++ l), rfl, by simp⟩
  unfold processOutput
  cases hupdate : self.detokenizer.update decodeNext output.newTokenIds
      (decide (output.finishReason = some .stop)) with
  | mk stopString detokenizer =>
    obtain ⟨out, self', parentReq', hmake, hsame, hreported⟩ :=
      makeRequestOutput_reported (show ∀ parent ∈ parentReq, parent.samplingParams.outputKind = .finalOnly →
          ({ self with detokenizer, logprobs } : RequestState L D).requestIndex <
            parent.outputAggregator.length from hindex) output.newTokenIds
        (if stopString.isSome then some .stop else output.finishReason)
        ((stopString.map .string).or (output.stopReason.map .token))
    simp only [hlp, hmake, ok_bind, pure_eq_ok]
    have hmid : self.Same ({ self with detokenizer, logprobs } : RequestState L D) :=
      ⟨rfl, rfl, rfl, rfl, rfl, hnone⟩
    exact ⟨_, _, _, _, rfl, hmid.trans hsame, hreported⟩

end RequestState

namespace OutputProcessor

def Child (s : OutputProcessor L D) (requestId parentReq : RequestId) : Prop :=
  ∃ r, s.requestStates.get? requestId = some r ∧ r.parentReq = some parentReq

def HasExternalId (s : OutputProcessor L D) (externalReqId requestId : RequestId) : Prop :=
  ∃ r, s.requestStates.get? requestId = some r ∧ r.externalReqId = externalReqId

/-- A child is neither pooled nor a streaming session, and has one of the `n` indices. -/
structure ChildOk (parents : Dict RequestId (ParentRequest L)) (r : TrackedRequest L D)
    (parentReq : RequestId) : Prop where
  pooling : r.pooling = false
  streamingInput : r.streamingInput = false
  index : ∀ parent, parents.get? parentReq = some parent → r.requestIndex < parent.samplingParams.n

/-- The books while the requests in `pending`, which are out of the index, are being aborted. -/
structure Books (s : OutputProcessor L D) (pending : List RequestId) : Prop where
  keyed : ∀ id r, s.requestStates.get? id = some r → r.requestId = id
  external : s.externalReqIds.Indexes fun ext id => s.HasExternalId ext id ∧ id ∉ pending
  registered : ∀ id p, s.Child id p → p ∈ s.parentRequests
  justified : ∀ p ∈ s.parentRequests, (∃ id, s.Child id p) ∨ p ∈ pending
  made : ∀ p ∈ s.parentRequests, s.parents.get? p ≠ none
  listed : ∀ id p, s.Child id p → id ∈ s.childRequests p
  children : ∀ p ∈ s.parentRequests, ∀ id ∈ s.childRequests p, s.Child id p ∨
    (p ∈ pending ∧ s.requestStates.get? id = none)
  unique : ∀ p, ∀ id ∈ s.childRequests p, s.parents.get? id = none
  disjoint : ∀ p, s.parents.get? p ≠ none → s.requestStates.get? p = none
  childOk : ∀ id r p, s.requestStates.get? id = some r → r.parentReq = some p → ChildOk s.parents r p
  parentOk : ∀ p parent, s.parents.get? p = some parent → parent.requestId = p ∧
    (parent.samplingParams.outputKind = .finalOnly → parent.outputAggregator.length = parent.samplingParams.n)
  drained : s.requestsDrained = true → ∀ id, s.requestStates.get? id = none

/-- The parents after `get_outputs` for a request, which is dropped if it has finished. -/
structure ParentsAfter (parents parents' : Dict RequestId (ParentRequest L))
    (parentReq : Option RequestId) (requestId : RequestId) (finished : Bool) : Prop where
  get?_eq : ∀ p, parents'.get? p = none ↔ parents.get? p = none
  same : ∀ p parent', parents'.get? p = some parent' → ∃ parent, parents.get? p = some parent ∧
    parent'.requestId = parent.requestId ∧ parent'.samplingParams = parent.samplingParams ∧
    parent'.outputAggregator.length = parent.outputAggregator.length ∧
    parent'.childRequests = if parentReq = some p ∧ finished = true then
      parent.childRequests.erase requestId else parent.childRequests

variable {s s' : OutputProcessor L D} {pending : List RequestId} {id p : RequestId}
  {r r' : TrackedRequest L D} {parents' : Dict RequestId (ParentRequest L)} {finished : Bool}

variable {requestStates' : Dict RequestId (TrackedRequest L D)}
  (parents : Dict RequestId (ParentRequest L))

lemma ParentsAfter.refl (id : RequestId) : ParentsAfter parents parents none id finished :=
  ⟨fun _ => Iff.rfl, fun p parent hp => ⟨parent, hp, rfl, rfl, rfl, by simp⟩⟩

lemma ParentsAfter.refl_false (parentReq : Option RequestId) (id : RequestId) :
    ParentsAfter parents parents parentReq id false :=
  ⟨fun _ => Iff.rfl, fun p parent hp => ⟨parent, hp, rfl, rfl, rfl, by simp⟩⟩

variable {parentReq : Option RequestId}

lemma ParentsAfter.childRequests (h : ParentsAfter s.parents parents' parentReq id finished) (p : RequestId) :
    ({ s with parents := parents' } : OutputProcessor L D).childRequests p =
      if parentReq = some p ∧ finished = true then (s.childRequests p).erase id
      else s.childRequests p := by
  unfold OutputProcessor.childRequests
  cases hp : parents'.get? p with
  | none =>
    rw [(h.get?_eq p).mp hp]
    simp
  | some parent' =>
    obtain ⟨parent, hparent, -, -, -, hchildren⟩ := h.same p parent' hp
    rw [hparent, map_some, map_some, getD_some, getD_some, hchildren]

lemma parentsAfter_of_reported {parent' : Option (ParentRequest L)}
    (h : RequestState.ParentReported id finished (parentReq.bind s.parents.get?) parent') :
    ParentsAfter s.parents (writeParent s.parents parentReq parent') parentReq id finished := by
  cases parentReq with
  | none =>
    exact .refl _ _
  | some p =>
    rw [bind_some] at h
    cases hp : s.parents.get? p with
    | none =>
      rw [hp] at h
      cases h
      refine ⟨fun _ => Iff.rfl, fun q parent hq => ⟨parent, hq, rfl, rfl, rfl, ?_⟩⟩
      rw [if_neg]
      rintro ⟨heq, -⟩
      change s.parents.get? q = some parent at hq
      rw [← some.inj heq, hp] at hq
      cases hq
    | some parent =>
      rw [hp] at h
      obtain ⟨p', rfl, agg, hagg, rfl⟩ := h
      refine ⟨fun q => ?_, fun q parent' hq => ?_⟩
      · change (s.parents.set p _).get? q = none ↔ _
        rw [Dict.get?_set]
        by_cases hqp : q = p
        · simp [hqp, hp]
        · simp [hqp]
      · change (s.parents.set p _).get? q = some parent' at hq
        rw [Dict.get?_set] at hq
        by_cases hqp : q = p
        · rw [if_pos hqp, some.injEq] at hq
          subst hq hqp
          refine ⟨parent, hp, rfl, rfl, hagg, ?_⟩
          simp
        · rw [if_neg hqp] at hq
          refine ⟨parent', hq, rfl, rfl, rfl, ?_⟩
          rw [if_neg fun heq => hqp (some.inj heq.1).symm]

structure SameBooks (r r' : TrackedRequest L D) : Prop where
  requestId : r'.requestId = r.requestId
  externalReqId : r'.externalReqId = r.externalReqId
  requestIndex : r'.requestIndex = r.requestIndex
  parentReq : r'.parentReq = r.parentReq
  pooling : r'.pooling = r.pooling
  streamingInput : r.parentReq ≠ none → r'.streamingInput = r.streamingInput

lemma ChildOk.after {parents : Dict RequestId (ParentRequest L)}
    (h : ChildOk parents r p) (hp : ParentsAfter parents parents' parentReq id finished) :
    ChildOk parents' r p := by
  refine ⟨h.pooling, h.streamingInput, fun parent' hparent' => ?_⟩
  obtain ⟨parent, hparent, -, hparams, -, -⟩ := hp.same p parent' hparent'
  rw [hparams]
  exact h.index parent hparent

lemma Books.parentOk_after (h : s.Books pending)
    (hp : ParentsAfter s.parents parents' parentReq id finished) (p : RequestId)
    (parent : ParentRequest L) (hparent : parents'.get? p = some parent) :
    parent.requestId = p ∧ (parent.samplingParams.outputKind = .finalOnly →
      parent.outputAggregator.length = parent.samplingParams.n) := by
  obtain ⟨old, hold, hid, hparams, hlen, -⟩ := hp.same p parent hparent
  rw [hid, hparams, hlen]
  exact h.parentOk p old hold

lemma Books.update (h : s.Books pending) (hr : s.requestStates.get? id = some r)
    (hsame : SameBooks r r') (hp : ParentsAfter s.parents parents' r.parentReq id false) :
    Books { s with requestStates := s.requestStates.set id r', parents := parents' } pending := by
  set t : OutputProcessor L D := { s with requestStates := s.requestStates.set id r', parents := parents' }
  have hget : ∀ x, t.requestStates.get? x =
      if x = id then some r' else s.requestStates.get? x := fun x => Dict.get?_set _ _ _ _
  have hchild : ∀ x q, t.Child x q ↔ s.Child x q := by
    intro x q
    unfold Child
    rw [hget]
    by_cases hx : x = id
    · simp [hx, hr, hsame.parentReq]
    · rw [if_neg hx]
  have hext : ∀ e x, t.HasExternalId e x ↔ s.HasExternalId e x := by
    intro e x
    unfold HasExternalId
    rw [hget]
    by_cases hx : x = id
    · simp [hx, hr, hsame.externalReqId]
    · rw [if_neg hx]
  have hdead : ∀ x, t.requestStates.get? x = none ↔ s.requestStates.get? x = none := by
    intro x
    rw [hget]
    by_cases hx : x = id
    · simp [hx, hr]
    · rw [if_neg hx]
  have hchildren : ∀ q, t.childRequests q = s.childRequests q := by
    intro q
    refine (hp.childRequests q).trans ?_
    rw [if_neg]
    rintro ⟨-, hfalse⟩
    cases hfalse
  refine ⟨fun x rx hx => ?_, h.external.congr fun e x => by rw [hext], fun x q hq => ?_,
    fun q hq => ?_, fun q hq => ?_, fun x q hq => ?_, fun q hq x hx => ?_, fun q x hx => ?_,
    fun q hq => ?_, fun x rx q hx hq => ?_, h.parentOk_after hp, fun hd x => ?_⟩
  · rw [hget] at hx
    split at hx
    · next he => rw [← some.inj hx, hsame.requestId, he, h.keyed id r hr]
    · exact h.keyed x rx hx
  · exact h.registered x q ((hchild x q).mp hq)
  · simp only [hchild]
    exact h.justified q hq
  · exact fun hn => h.made q hq ((hp.get?_eq q).mp hn)
  · rw [hchildren]
    exact h.listed x q ((hchild x q).mp hq)
  · rw [hchild, hdead]
    exact h.children q hq x (hchildren q ▸ hx)
  · exact (hp.get?_eq x).mpr (h.unique q x (hchildren q ▸ hx))
  · exact (hdead q).mpr (h.disjoint q fun hn => hq ((hp.get?_eq q).mpr hn))
  · rw [hget] at hx
    split at hx
    · cases hx
      rw [hsame.parentReq] at hq
      have hok := (h.childOk id r q hr hq).after hp
      refine ⟨hsame.pooling.trans hok.pooling, ?_, fun parent hparent => ?_⟩
      · rw [hsame.streamingInput (by rw [hq]; nofun)]
        exact hok.streamingInput
      · rw [hsame.requestIndex]
        exact hok.index parent hparent
    · exact (h.childOk x rx q hx hq).after hp
  · exact (hdead x).mpr (h.drained hd x)

lemma Books.remove (h : s.Books (id :: pending)) (hr : s.requestStates.get? id = some r)
    (hrs : ∀ x, requestStates'.get? x = if x = id then none else s.requestStates.get? x)
    (hp : ParentsAfter s.parents parents' r.parentReq id finished)
    (hkeep : ∀ q, r.parentReq = some q → q ∈ pending ∨ (finished = true ∧ ∃ id', id' ≠ id ∧ s.Child id' q)) :
    Books { s with requestStates := requestStates', parents := parents' } pending := by
  set t : OutputProcessor L D := { s with requestStates := requestStates', parents := parents' }
  have hget : ∀ x, t.requestStates.get? x = if x = id then none else s.requestStates.get? x := hrs
  have hchild : ∀ x q, t.Child x q ↔ x ≠ id ∧ s.Child x q := by
    intro x q
    unfold Child
    rw [hget]
    by_cases hx : x = id
    · simp [hx]
    · simp [hx]
  have hext : ∀ e x, t.HasExternalId e x ↔ x ≠ id ∧ s.HasExternalId e x := by
    intro e x
    unfold HasExternalId
    rw [hget]
    by_cases hx : x = id
    · simp [hx]
    · simp [hx]
  have hdead : ∀ x, s.requestStates.get? x = none → t.requestStates.get? x = none := by
    intro x hx
    rw [hget, hx, ite_self]
  have hself : ∀ q ∈ s.parentRequests, q ≠ id := by
    intro q hq he
    have hdis := h.disjoint q (h.made q hq)
    rw [he, hr] at hdis
    cases hdis
  have hsub : ∀ q, t.childRequests q ⊆ s.childRequests q := by
    intro q
    rw [show t.childRequests q = _ from hp.childRequests q]
    split
    · exact Finset.erase_subset _ _
    · exact Finset.Subset.refl _
  refine ⟨fun x rx hx => ?_, h.external.congr fun e x => ?_, fun x q hq => ?_, fun q hq => ?_,
    fun q hq => ?_, fun x q hq => ?_, fun q hq x hx => ?_, fun q x hx => ?_, fun q hq => ?_,
    fun x rx q hx hq => ?_, h.parentOk_after hp, fun hd x => hdead x (h.drained hd x)⟩
  · rw [hget] at hx
    split at hx
    · cases hx
    · exact h.keyed x rx hx
  · rw [hext, mem_cons, not_or]
    exact ⟨fun ⟨he, hne, hx⟩ => ⟨⟨hne, he⟩, hx⟩, fun ⟨⟨hne, he⟩, hx⟩ => ⟨he, hne, hx⟩⟩
  · exact h.registered x q ((hchild x q).mp hq).2
  · simp only [hchild]
    rcases h.justified q hq with ⟨x, hx⟩ | hpend
    · by_cases he : x = id
      · subst he
        obtain ⟨rx, hrx, hparent⟩ := hx
        rw [hr, some.injEq] at hrx
        subst hrx
        rcases hkeep q hparent with hpend | ⟨-, x', hne, hx'⟩
        · exact .inr hpend
        · exact .inl ⟨x', hne, hx'⟩
      · exact .inl ⟨x, he, hx⟩
    · exact .inr ((mem_cons.mp hpend).resolve_left (hself q hq))
  · exact fun hn => h.made q hq ((hp.get?_eq q).mp hn)
  · obtain ⟨hne, hq⟩ := (hchild x q).mp hq
    rw [show t.childRequests q = _ from hp.childRequests q]
    split
    · exact Finset.mem_erase.mpr ⟨hne, h.listed x q hq⟩
    · exact h.listed x q hq
  · rcases h.children q hq x (hsub q hx) with hchildx | ⟨hpend, hx'⟩
    · by_cases he : x = id
      · -- a child that is still listed was not reported, so its parent is about to go
        subst he
        obtain ⟨rx, hrx, hparent⟩ := hchildx
        rw [hr, some.injEq] at hrx
        subst hrx
        refine .inr ⟨?_, by rw [hget, if_pos rfl]⟩
        refine (hkeep q hparent).resolve_right ?_
        rintro ⟨hfin, -⟩
        rw [show t.childRequests q = _ from hp.childRequests q, if_pos ⟨hparent, hfin⟩] at hx
        exact (Finset.mem_erase.mp hx).1 rfl
      · exact .inl ((hchild x q).mpr ⟨he, hchildx⟩)
    · exact .inr ⟨(mem_cons.mp hpend).resolve_left (hself q hq), hdead x hx'⟩
  · exact (hp.get?_eq x).mpr (h.unique q x (hsub q hx))
  · exact hdead q (h.disjoint q fun hn => hq ((hp.get?_eq q).mpr hn))
  · rw [hget] at hx
    split at hx
    · cases hx
    · exact (h.childOk x rx q hx hq).after hp

lemma Books.widen {pending' : List RequestId} (h : s.Books pending) (hsub : ∀ x ∈ pending, x ∈ pending')
    (hdead : ∀ x ∈ pending', x ∈ pending ∨ s.requestStates.get? x = none) : s.Books pending' := by
  refine ⟨h.keyed, h.external.congr fun e x => ?_, h.registered, fun p hp => ?_, h.made, h.listed,
    fun p hp x hx => ?_, h.unique, h.disjoint, h.childOk, h.parentOk, h.drained⟩
  · constructor
    · rintro ⟨⟨r, hr, he⟩, hx⟩
      refine ⟨⟨r, hr, he⟩, fun hx' => ?_⟩
      rcases hdead x hx' with hmem | hnone
      · exact hx hmem
      · rw [hnone] at hr
        cases hr
    · exact fun ⟨he, hx⟩ => ⟨he, fun hmem => hx (hsub x hmem)⟩
  · exact (h.justified p hp).imp_right (hsub p)
  · exact (h.children p hp x hx).imp_right fun ⟨hmem, hnone⟩ => ⟨hsub p hmem, hnone⟩

lemma Books.unregister (h : s.Books (p :: pending)) (hdead : s.requestStates.get? p = none)
    (hno : ∀ x, ¬s.Child x p) : Books { s with parentRequests := s.parentRequests.erase p } pending := by
  have hne : ∀ {q}, q ∈ s.parentRequests.erase p → q ≠ p ∧ q ∈ s.parentRequests :=
    fun hq => Finset.mem_erase.mp hq
  refine ⟨h.keyed, h.external.congr fun e x => ?_, fun x q hq => ?_, fun q hq => ?_,
    fun q hq => h.made q (hne hq).2, h.listed, fun q hq x hx => ?_, h.unique, h.disjoint,
    h.childOk, h.parentOk, h.drained⟩
  · constructor
    · exact fun ⟨he, hx⟩ => ⟨he, fun hm => hx (mem_cons_of_mem p hm)⟩
    · rintro ⟨⟨r, hr, he⟩, hx⟩
      refine ⟨⟨r, hr, he⟩, fun hm => ?_⟩
      rcases mem_cons.mp hm with rfl | hm
      · rw [hdead] at hr
        cases hr
      · exact hx hm
  · refine Finset.mem_erase.mpr ⟨fun he => hno x (he ▸ hq), h.registered x q hq⟩
  · obtain ⟨hqp, hq'⟩ := hne hq
    exact (h.justified q hq').imp_right fun hm => (mem_cons.mp hm).resolve_left hqp
  · obtain ⟨hqp, hq'⟩ := hne hq
    exact (h.children q hq' x hx).imp_right fun ⟨hm, hnone⟩ =>
      ⟨(mem_cons.mp hm).resolve_left hqp, hnone⟩

lemma Books.removeInternalId (h : s.Books pending) (hr : s.requestStates.get? id = some r)
    (hid : id ∉ pending) : s.removeInternalId r.externalReqId id =
      .ok { s with externalReqIds := s.externalReqIds.removeFrom r.externalReqId id } ∧
    Books { s with externalReqIds := s.externalReqIds.removeFrom r.externalReqId id }
      (id :: pending) := by
  have hmem : id ∈ s.externalReqIds.listAt r.externalReqId := (h.external.mem_iff _ _).mpr ⟨⟨r, hr, rfl⟩, hid⟩
  refine ⟨?_, h.keyed, (h.external.removeFrom r.externalReqId id).congr fun e x => ?_,
    h.registered, fun q hq => ?_, h.made, h.listed, fun q hq x hx => ?_, h.unique, h.disjoint,
    h.childOk, h.parentOk, h.drained⟩
  · unfold OutputProcessor.removeInternalId
    rw [ensure_of hmem, ok_bind, pure_eq_ok]
  · rw [mem_cons, not_or]
    constructor
    · rintro ⟨⟨⟨rx, hrx, he⟩, hx⟩, hno⟩
      refine ⟨⟨rx, hrx, he⟩, fun hxid => ?_, hx⟩
      subst hxid
      rw [hr, some.injEq] at hrx
      subst hrx
      exact hno ⟨he.symm, rfl⟩
    · exact fun ⟨he, hne, hx⟩ => ⟨⟨he, hx⟩, fun hh => hne hh.2⟩
  · exact (h.justified q hq).imp_right (mem_cons_of_mem id)
  · exact (h.children q hq x hx).imp_right fun ⟨hm, hnone⟩ => ⟨mem_cons_of_mem id hm, hnone⟩

structure Inv (s : OutputProcessor L D) : Prop where
  books : s.Books []
  drained : (∀ id, s.requestStates.get? id = none) → s.requestsDrained = true

lemma keys_eq_nil_iff {d : Dict RequestId (TrackedRequest L D)} : d.keys = [] ↔ ∀ id, d.get? id = none := by
  rw [eq_nil_iff_forall_not_mem]
  refine forall_congr' fun id => ?_
  rw [Dict.mem_keys_iff, Dict.contains, not_isSome_iff_eq_none]

lemma Books.setDrained (h : s.Books pending) : s.setDrained.Books pending := by
  unfold OutputProcessor.setDrained
  split
  · next hnil =>
    exact ⟨h.keyed, h.external, h.registered, h.justified, h.made, h.listed, h.children, h.unique,
      h.disjoint, h.childOk, h.parentOk, fun _ => keys_eq_nil_iff.mp hnil⟩
  · exact h

lemma Books.inv (h : s.Books []) : s.setDrained.Inv := by
  refine ⟨h.setDrained, fun hall => ?_⟩
  unfold OutputProcessor.setDrained at *
  split
  · rfl
  · next hne =>
    rw [if_neg hne] at hall
    exact absurd (keys_eq_nil_iff.mpr hall) hne

lemma Books.parent_dead (h : s.Books pending) {x : RequestId} (hx : s.Child x p) : s.requestStates.get? p = none :=
  h.disjoint p (h.made p (h.registered x p hx))

lemma Inv.finishRequest (h : s.Inv) (hr : s.requestStates.get? id = some r)
    (hsame : SameBooks r r') (hp : ParentsAfter s.parents parents' r.parentReq id true)
    (hset : ∀ x, requestStates'.get? x = if x = id then some r' else s.requestStates.get? x) :
    ∃ s', OutputProcessor.finishRequest
      { s with requestStates := requestStates', parents := parents' } r' = .ok s' ∧ s'.Inv := by
  have hid : r'.requestId = id := hsame.requestId.trans (h.books.keyed id r hr)
  obtain ⟨-, hbooks⟩ := h.books.removeInternalId hr not_mem_nil
  have hmem : id ∈ s.externalReqIds.listAt r.externalReqId :=
    (h.books.external.mem_iff _ _).mpr ⟨⟨r, hr, rfl⟩, not_mem_nil⟩
  have hcontains : requestStates'.contains id = true := by
    unfold Dict.contains
    rw [hset, if_pos rfl]
    rfl
  have hrs : ∀ x, (requestStates'.erase id).get? x = if x = id then none else s.requestStates.get? x := by
    intro x
    rw [Dict.get?_erase, hset]
    split <;> rfl
  unfold OutputProcessor.finishRequest OutputProcessor.removeInternalId
  simp only [hid, hcontains, ensure_of, hsame.externalReqId, hsame.parentReq, hmem, ok_bind, pure_eq_ok]
  refine ⟨_, rfl, Books.inv ?_⟩
  cases hparent : r.parentReq with
  | none =>
    exact hbooks.remove hr hrs hp (by rw [hparent]; rintro _ ⟨⟩)
  | some p =>
    have hchild : s.Child id p := ⟨r, hr, hparent⟩
    have hlisted : ∀ t : Dict RequestId (TrackedRequest L D), ∀ e,
        ({ s with requestStates := t, parents := parents', externalReqIds := e } :
          OutputProcessor L D).childRequests p = (s.childRequests p).erase id := by
      intro t e
      refine (hp.childRequests p).trans ?_
      rw [if_pos ⟨hparent, rfl⟩]
    simp only [hlisted]
    split
    · next hempty =>
      -- the last child of its parent
      have hpdead := h.books.parent_dead hchild
      have hwide := hbooks.widen (show ∀ x ∈ [id], x ∈ [id, p] by simp) (fun x hx => by
        rcases mem_cons.mp hx with rfl | hx
        · exact .inl mem_cons_self
        · exact .inr (mem_singleton.mp hx ▸ hpdead))
      have hrest := hwide.remove hr hrs hp fun q hq => by
        rw [hparent, some.injEq] at hq
        exact .inl (mem_singleton.mpr hq.symm)
      refine hrest.unregister ((hrs p).trans ?_) fun x hx => ?_
      · rw [hpdead, ite_self]
      · have hmem := hrest.listed x p hx
        rw [hlisted, hempty] at hmem
        exact Finset.notMem_empty x hmem
    · next hne =>
      refine hbooks.remove hr hrs hp fun q hq => .inr ⟨rfl, ?_⟩
      rw [hparent, some.injEq] at hq
      subst hq
      obtain ⟨x, hx⟩ := Finset.nonempty_iff_ne_empty.mpr hne
      obtain ⟨hxid, hx⟩ := Finset.mem_erase.mp hx
      refine ⟨x, hxid, (h.books.children p (h.books.registered id p hchild) x hx).resolve_right ?_⟩
      exact fun hpend => not_mem_nil hpend.1

end OutputProcessor

end CustomAi.Vllm
