import CustomAi.Lib.Run
import CustomAi.Vllm.BatchCondense

/-!
# Runs of the persistent batch

The steps of the model runner as calls to the batch: first removals, then additions, then
`condense`, swaps, and `refresh_metadata`, whose update goes to the logits processors.
-/

namespace CustomAi.Vllm

open Slots List Function Option MinPLogitsProcessor CachedRequestState

variable {G F T : Type}

inductive BatchCall (G F : Type)
  | removeRequest (reqId : RequestId)
  | addRequest (request : CachedRequestState G F)
  | condense
  | swapStates (i1 i2 : ℕ)
  | refreshMetadata

inductive BatchPhase
  | between
  | removing
  | adding
  | condensed
  deriving DecidableEq, Repr

/-- The batch, the requests that the runner has put into it, and its logits processors. -/
structure BatchRunner (G F T : Type) where
  batch : InputBatch G F
  requests : Dict RequestId (CachedRequestState G F)
  phase : BatchPhase
  reqEntries : Dict ℕ T
  minP : MinPLogitsProcessor F

namespace BatchRunner

variable [Zero F] [DecidableEq F]

def start (isPoolingModel : Bool) (maxNumReqs : ℕ) (vocabSize : ℤ) : BatchRunner G F T where
  batch := .new isPoolingModel maxNumReqs vocabSize
  requests := .empty
  phase := .between
  reqEntries := .empty
  minP := .new

section Step

variable (f32 : Float32 F)
  (newState : BatchSamplingParams F → Option (List TokenId) → List TokenId → Option T)
  (truthy : T → Bool)

def step (s : BatchRunner G F T) : BatchCall G F → Except PyError (BatchRunner G F T)
  | .removeRequest reqId => do
    let (_, batch) ← s.batch.removeRequest reqId
    return { s with batch, requests := s.requests.erase reqId, phase := .removing }
  | .addRequest request => do
    let (_, batch) ← s.batch.addRequest f32 request
    return { s with batch, requests := s.requests.set request.reqId request, phase := .adding }
  | .condense => do
    let batch ← s.batch.condense
    return { s with batch, phase := .condensed }
  | .swapStates i1 i2 => do
    let batch ← s.batch.swapStates i1 i2
    return { s with batch }
  | .refreshMetadata =>
    let (batchUpdate, batch) := s.batch.refreshMetadata
    .ok { s with
      batch
      phase := .between
      reqEntries := (processDictUpdates newState truthy s.reqEntries batchUpdate).1
      minP := s.minP.updateState f32 batchUpdate }

end Step

/-- The order of the calls, and what the runner promises about the requests it adds and the
indices it swaps. -/
def Allowed (s : BatchRunner G F T) : BatchCall G F → Prop
  | .removeRequest _ => s.phase = .between ∨ s.phase = .removing
  | .addRequest r => s.phase ≠ .condensed ∧ s.requests.get? r.reqId = none ∧
    s.batch.numReqs < s.batch.maxNumReqs ∧ r.WellFormed ∧
    (s.batch.isPoolingModel = true ↔ r.samplingParams = none) ∧ (r.samplingParams = none → r.poolingParams ≠ none)
  | .condense => s.phase ≠ .condensed
  | .swapStates i1 i2 => s.phase = .condensed ∧ i1 < s.batch.numReqs ∧ i2 < s.batch.numReqs
  | .refreshMetadata => s.phase = .condensed

/-- No left-over entry gets in the way, swapped masks are alike, and no min-p is lost. -/
def Clean (f32 : Float32 F) (s : BatchRunner G F T) : BatchCall G F → Prop
  | .addRequest r => s.batch.AddClean s.batch.nextIndex r ∧
    ∀ params, r.samplingParams = some params → f32.round params.minP = 0 → params.minP = 0
  | .condense => s.batch.CondenseClean
  | .swapStates i1 i2 => s.batch.SwapClean i1 i2
  | _ => True

def requestAt (s : BatchRunner G F T) (i : ℕ) : Option (CachedRequestState G F) :=
  (s.batch.owner i).bind s.requests.get?

end BatchRunner

/-- Index `i` holds the data of `r` in all columns. -/
structure InputBatch.Holds [Zero F] (f32 : Float32 F) (b : InputBatch G F) (i : ℕ)
    (r : CachedRequestState G F) : Prop where
  output : b.reqOutputTokenIds[i]? = some (some r.outputTokenIds)
  spec : b.specTokenIds.getD i [] = []
  row : b.rows i = r.row
  tokens : r.TokensFit (b.tokenIdsCpu i)
  isToken : r.FlagsFit (b.isTokenIds i)
  embeds : b.reqPromptEmbeds.get? i = r.promptEmbeds
  needs : b.logitsProcessingNeedsTokenIds i = r.needsTokenIds
  accepted : b.numAcceptedTokensCpu i = 1
  sampling : ∀ params, r.samplingParams = some params → b.samplingRows i = params.row f32 b.vocabSize
  generator : b.generators.get? i = r.ownGenerator
  badWords : b.badWordsTokenIds.get? i = r.badWords
  mask : b.maskRow i = r.tokenMask

def CachedRequestState.processorState
    (newState : BatchSamplingParams F → Option (List TokenId) → List TokenId → Option T)
    (r : CachedRequestState G F) : Option T :=
  r.samplingParams.bind fun params => newState params r.promptTokenIds r.outputTokenIds

/-- The `min_p` of a request as it is stored. -/
def CachedRequestState.minP [Zero F] (f32 : Float32 F) (r : CachedRequestState G F) : F :=
  r.samplingParams.elim 0 fun params => f32.round params.minP

variable [Zero F] [DecidableEq F] {f32 : Float32 F}
  {newState : BatchSamplingParams F → Option (List TokenId) → List TokenId → Option T}
  {truthy : T → Bool}

/-- Batch and processors hold each request at its index, without holes. -/
structure BatchRunner.Agrees (f32 : Float32 F)
    (newState : BatchSamplingParams F → Option (List TokenId) → List TokenId → Option T)
    (s : BatchRunner G F T) : Prop where
  length : s.batch.reqIds.length = s.batch.numReqs
  inverse : ∀ id i, s.batch.reqIdToIndex.get? id = some i ↔ s.batch.reqIds[i]? = some (some id)
  present : ∀ id, s.batch.reqIdToIndex.get? id ≠ none ↔ s.requests.get? id ≠ none
  holds : ∀ i < s.batch.numReqs, ∃ r, s.requestAt i = some r ∧ s.batch.Holds f32 i r
  empty : ∀ i, s.batch.numReqs ≤ i → s.requestAt i = none
  sparse : ∀ i, s.reqEntries.get? i = (s.requestAt i).bind (·.processorState newState)
  minP : ∀ i, s.minP.minPCpu i = (s.requestAt i).elim 0 (·.minP f32)
  minPCount : s.minP.minPCount = ((Finset.range s.batch.maxNumReqs).filter fun i => s.minP.minPCpu i ≠ 0).card

namespace BatchRunner

/-- A runner in the middle of a step that began with the requests `begun`. -/
structure InvWith (f32 : Float32 F)
    (newState : BatchSamplingParams F → Option (List TokenId) → List TokenId → Option T)
    (s : BatchRunner G F T) (slots begun : ℕ → Option (CachedRequestState G F)) : Prop where
  batch : InputBatch.Inv f32 s.batch slots begun
  keyed : ∀ id r, s.requests.get? id = some r → r.reqId = id
  lists : ∀ r, (∃ i, slots i = some r) ↔ s.requests.get? r.reqId = some r
  holes : s.phase ≠ .condensed → s.batch.Open slots ∧ s.batch.batchUpdateBuilder.moved = []
  unread : s.phase = .between ∨ s.phase = .removing → s.batch.batchUpdateBuilder.isRemovedSorted = false
  dense : s.phase = .between ∨ s.phase = .condensed → s.batch.Dense slots
  unchanged : s.phase = .between → begun = slots
  entries : s.reqEntries.get? = fun i => (begun i).bind (·.processorState newState)
  counted : s.minP.Counted s.batch.maxNumReqs
  minP : s.minP.sparse = fun i => (begun i).bind fun r => MinPLogitsProcessor.entry (r.minP f32)

def Inv (f32 : Float32 F)
    (newState : BatchSamplingParams F → Option (List TokenId) → List TokenId → Option T)
    (s : BatchRunner G F T) : Prop := ∃ slots begun, s.InvWith f32 newState slots begun

variable {s s' : BatchRunner G F T} {slots begun : ℕ → Option (CachedRequestState G F)}

lemma InvWith.requestAt_eq (h : s.InvWith f32 newState slots begun) (i : ℕ) : s.requestAt i = slots i := by
  unfold requestAt
  rw [h.batch.indexed.occupied]
  cases hr : slots i with
  | none => rfl
  | some r => exact (h.lists r).mp ⟨i, hr⟩

lemma InvWith.agrees (h : s.InvWith f32 newState slots begun) (hphase : s.phase = .between) :
    s.Agrees f32 newState := by
  have hdense := h.dense (.inl hphase)
  have hbegun := h.unchanged hphase
  have hlength : s.batch.reqIds.length = s.batch.numReqs :=
    (h.batch.indexed.numReqs_eq.trans (filled_eq_of_iff h.batch.indexed.bound hdense)).symm
  have hcolumns := h.batch.columns
  refine ⟨hlength, fun id i => ?_, fun id => ?_, fun i hi => ?_, fun i hi => ?_, fun i => ?_, fun i => ?_, ?_⟩
  · rw [h.batch.indexed.inverse id i]
    exact join_eq_some_iff
  · constructor
    · intro hget
      obtain ⟨i, hi⟩ := ne_none_iff_exists'.mp hget
      obtain ⟨r, hr, rfl⟩ := h.batch.indexed.exists_of_get? hi
      rw [(h.lists r).mp ⟨i, hr⟩]
      exact some_ne_none r
    · intro hget
      obtain ⟨r, hr⟩ := ne_none_iff_exists'.mp hget
      have hid := h.keyed id r hr
      obtain ⟨i, hi⟩ := (h.lists r).mpr (hid ▸ hr)
      rw [← hid, (h.batch.indexed.inverse r.reqId i).mpr (h.batch.indexed.owner_eq hi)]
      exact some_ne_none i
  · rw [h.requestAt_eq]
    obtain ⟨r, hr⟩ := ne_none_iff_exists'.mp ((hdense i).mpr (hlength ▸ hi))
    have hgen := hcolumns.generators i not_mem_nil
    have hbad := hcolumns.badWords i not_mem_nil
    rw [hr] at hgen hbad
    exact ⟨r, hr, hcolumns.output i r hr, hcolumns.spec_getD i, hcolumns.rows i r hr,
      hcolumns.tokens i r hr, hcolumns.isToken i r hr, hcolumns.embeds i r hr,
      hcolumns.needs i r hr, hcolumns.accepted i, hcolumns.sampling i r hr, hgen, hbad, hcolumns.mask i r hr⟩
  · rw [h.requestAt_eq]
    by_contra hne
    have hlt := (hdense i).mp hne
    omega
  · rw [h.requestAt_eq, ← hbegun, h.entries]
  · rw [h.requestAt_eq, ← hbegun]
    have hsparse := congrFun h.minP i
    cases hr : begun i with
    | none =>
      rw [hr] at hsparse
      exact sparse_eq_none_iff.mp hsparse
    | some r =>
      rw [hr] at hsparse
      exact entry_inj hsparse
  · rw [h.counted.count]
    unfold filled sparse
    simp only [entry_isSome]

lemma inv_start (isPoolingModel : Bool) (maxNumReqs : ℕ) (vocabSize : ℤ) :
    (start isPoolingModel maxNumReqs vocabSize : BatchRunner G F T).Inv f32 newState := by
  have hnone : ∀ {α : Type} {c : ℕ → α} {fits : α → CachedRequestState G F → Prop},
      Follows c (fun _ => none) fits := by
    intro α c fits i r hr
    cases hr
  refine ⟨fun _ => none, fun _ => none, ?_⟩
  exact {
    batch := {
      columns := {
        output := hnone
        spec := fun l hl => eq_of_mem_replicate hl
        rows := hnone
        tokens := hnone
        isToken := hnone
        embeds := hnone
        needs := hnone
        accepted := fun _ => rfl
        sampling := hnone
        generators := fun _ _ => rfl
        badWords := fun _ _ => rfl
        mask := hnone }
      kinds := ⟨fun _ _ hr => (by cases hr), fun _ => rfl, fun _ _ => rfl⟩
      indexed := ⟨fun _ => rfl, fun _ _ => iff_of_false nofun nofun, rfl, Nat.zero_le _⟩
      freed := ⟨nodup_nil, nofun, nofun⟩
      recorded := ⟨fun _ _ _ => rfl, nofun, nofun, fun _ _ => rfl⟩ }
    keyed := fun _ _ hr => by cases hr
    lists := fun r => iff_of_false (fun ⟨_, hr⟩ => by cases hr) nofun
    holes := fun _ => ⟨fun i => iff_of_false nofun fun h => absurd h.1 (Nat.not_lt_zero i), rfl⟩
    unread := fun _ => rfl
    dense := fun _ i => iff_of_false (fun h => h rfl) (Nat.not_lt_zero i)
    unchanged := fun _ => rfl
    entries := rfl
    counted := ⟨fun _ _ => rfl, by
      have hfilled := filled_eq_of_iff (d := (new : MinPLogitsProcessor F).sparse)
        (Nat.zero_le maxNumReqs) fun i => iff_of_false (fun h => h (if_pos rfl))
          (Nat.not_lt_zero i)
      exact (congrArg Nat.cast hfilled).symm⟩
    minP := funext fun _ => if_pos rfl }

section

variable (h : s.InvWith f32 newState slots begun)
include h

lemma InvWith.removeRequest {reqId : RequestId} (hphase : s.phase = .between ∨ s.phase = .removing) :
    ∃ s', s.step f32 newState truthy (.removeRequest reqId) = .ok s' ∧ s'.Inv f32 newState := by
  have hnot : s.phase ≠ .condensed := by
    rcases hphase with hp | hp
    · rw [hp]
      decide
    · rw [hp]
      decide
  obtain ⟨hopen, hmoved⟩ := h.holes hnot
  obtain ⟨index, b', slots', hcall, hinv, hopen', hsorted', hmoved', hmax, hslots⟩ :=
    h.batch.removeRequest hopen (h.unread hphase) hmoved reqId
  refine ⟨{ s with batch := b', requests := s.requests.erase reqId, phase := .removing }, ?_,
    slots', begun, hinv, fun id r hr => ?_, fun r => ?_, fun _ => ⟨hopen', hmoved'⟩,
    fun _ => hsorted', by simp, by simp, h.entries, ?_, h.minP⟩
  · unfold step
    dsimp only
    rw [hcall]
    rfl
  · rw [Dict.get?_erase] at hr
    split at hr
    · cases hr
    · exact h.keyed id r hr
  · rw [Dict.get?_erase]
    by_cases hid : r.reqId = reqId
    · rw [if_pos hid]
      refine iff_of_false ?_ (by rintro ⟨⟩)
      rintro ⟨i, hi⟩
      exact ((hslots i r).mp hi).2 hid
    · rw [if_neg hid, ← h.lists r]
      constructor
      · rintro ⟨i, hi⟩
        exact ⟨i, ((hslots i r).mp hi).1⟩
      · rintro ⟨i, hi⟩
        exact ⟨i, (hslots i r).mpr ⟨hi, hid⟩⟩
  · rw [hmax]
    exact h.counted

lemma InvWith.addRequest {r : CachedRequestState G F}
    (hallowed : s.Allowed (.addRequest r)) (hclean : s.Clean f32 (.addRequest r)) :
    ∃ s', s.step f32 newState truthy (.addRequest r) = .ok s' ∧ s'.Inv f32 newState := by
  obtain ⟨hphase, hnew, hcap, hwf, hkind, hpooling⟩ := hallowed
  obtain ⟨hopen, hmoved⟩ := h.holes hphase
  have hids : ∀ i r', slots i = some r' → r'.reqId ≠ r.reqId := by
    intro i r' hr' hid
    have hget := (h.lists r').mp ⟨i, hr'⟩
    rw [hid, hnew] at hget
    cases hget
  obtain ⟨b', hcall, hinv, hopen', hmoved', hmax, hfree⟩ :=
    h.batch.addRequest hopen hmoved ⟨hids, hcap, hwf, hkind, hpooling, hclean.1, hclean.2⟩
  refine ⟨{ s with batch := b', requests := s.requests.set r.reqId r, phase := .adding }, ?_,
    Function.update slots s.batch.nextIndex (some r), begun, hinv, fun id r' hr => ?_,
    fun r' => ?_, fun _ => ⟨hopen', hmoved'⟩, nofun, nofun, nofun, h.entries, ?_, h.minP⟩
  · unfold step
    dsimp only
    rw [hcall]
    rfl
  · rw [Dict.get?_set] at hr
    split at hr
    · next hid =>
      rw [hid, some.inj hr]
    · exact h.keyed id r' hr
  · rw [Dict.get?_set]
    by_cases hid : r'.reqId = r.reqId
    · rw [if_pos hid]
      constructor
      · rintro ⟨i, hi⟩
        rw [update_apply] at hi
        split at hi
        · exact hi
        · exact absurd hid (hids i r' hi)
      · intro heq
        exact ⟨s.batch.nextIndex, (update_self _ _ _).trans heq⟩
    · rw [if_neg hid, ← h.lists r']
      constructor
      · rintro ⟨i, hi⟩
        rw [update_apply] at hi
        split at hi
        · exact absurd (congrArg reqId (some.inj hi).symm) hid
        · exact ⟨i, hi⟩
      · rintro ⟨i, hi⟩
        refine ⟨i, ?_⟩
        have hne : i ≠ s.batch.nextIndex := by
          rintro rfl
          rw [hfree] at hi
          cases hi
        rw [update_of_ne hne, hi]
  · rw [hmax]
    exact h.counted

lemma InvWith.condense (hphase : s.phase ≠ .condensed) (hclean : s.batch.CondenseClean) :
    ∃ s', s.step f32 newState truthy .condense = .ok s' ∧ s'.Inv f32 newState := by
  obtain ⟨b', slots', hcall, hinv, hdense, hmax, hvalues⟩ := h.batch.condense (h.holes hphase).1 hclean
  refine ⟨{ s with batch := b', phase := .condensed }, ?_, slots', begun, hinv, h.keyed,
    fun r => (hvalues r).trans (h.lists r), fun hne => absurd rfl hne, nofun, fun _ => hdense,
    nofun, h.entries, ?_, h.minP⟩
  · unfold step
    rw [hcall]
    rfl
  · rw [hmax]
    exact h.counted

lemma InvWith.swapStates {i1 i2 : ℕ} (hallowed : s.Allowed (.swapStates i1 i2)) (hclean : s.batch.SwapClean i1 i2) :
    ∃ s', s.step f32 newState truthy (.swapStates i1 i2) = .ok s' ∧ s'.Inv f32 newState := by
  obtain ⟨hphase, hi1, hi2⟩ := hallowed
  have hdense := h.dense (.inr hphase)
  have hlength : s.batch.numReqs = s.batch.reqIds.length :=
    h.batch.indexed.numReqs_eq.trans (filled_eq_of_iff h.batch.indexed.bound hdense)
  obtain ⟨b', hcall, hinv, hdense', hmax⟩ := h.batch.swapStates hdense (hlength ▸ hi1) (hlength ▸ hi2) hclean
  refine ⟨{ s with batch := b' }, ?_, swap i1 i2 slots, begun, hinv, h.keyed,
    fun r => (InputBatch.exists_swap_iff i1 i2 r).trans (h.lists r),
    fun hne => absurd hphase hne, fun hp => ?_, fun _ => hdense', fun hp => ?_, h.entries, ?_, h.minP⟩
  · unfold step
    dsimp only
    rw [hcall]
    rfl
  · rcases hp with hp | hp
    · cases hphase.symm.trans hp
    · cases hphase.symm.trans hp
  · cases hphase.symm.trans hp
  · rw [hmax]
    exact h.counted

end

omit [Zero F] [DecidableEq F] in
lemma processorState_eq (r : CachedRequestState G F) : r.processorState newState =
    r.content.bind fun c => newState c.1 c.2.1 c.2.2 := by
  unfold processorState content
  cases r.samplingParams with
  | none => rfl
  | some params => rfl

lemma minP_entry_eq (r : CachedRequestState G F) : entry (r.minP f32) =
    r.content.bind fun c => entry (f32.round c.1.minP) := by
  unfold CachedRequestState.minP CachedRequestState.content
  cases r.samplingParams with
  | none => exact if_pos rfl
  | some params => rfl

omit [Zero F] [DecidableEq F] in
lemma bind_of_content {α : Type} {f : CachedRequestState G F → Option α}
    {g : BatchSamplingParams F × Option (List TokenId) × List TokenId → Option α}
    (hf : ∀ r, f r = r.content.bind g) (d : ℕ → Option (CachedRequestState G F)) :
    (fun i => (d i).bind f) = fun i => ((d i).bind content).bind g := by
  funext i
  rw [bind_assoc]
  congr 1
  funext r
  exact hf r

variable (truthy) in
lemma InvWith.updated (h : s.InvWith f32 newState slots begun) :
    (processDictUpdates newState truthy s.reqEntries s.batch.refreshMetadata.1).1.get? =
      (fun i => (slots i).bind (·.processorState newState)) ∧
    (s.minP.updateState f32 s.batch.refreshMetadata.1).Counted s.batch.maxNumReqs ∧
    (s.minP.updateState f32 s.batch.refreshMetadata.1).sparse =
      fun i => (slots i).bind fun r => entry (r.minP f32) := by
  obtain ⟨builder, -, -, -, -, -, hpooling, hsampling⟩ := s.batch.refreshMetadata_spec
  have hentries := h.entries
  have hminP := h.minP
  rw [bind_of_content processorState_eq] at hentries
  rw [bind_of_content minP_entry_eq] at hminP
  rw [bind_of_content processorState_eq, bind_of_content minP_entry_eq]
  cases hpool : s.batch.isPoolingModel with
  | true =>
    -- no request has anything to say to the processors
    rw [hpooling hpool]
    refine ⟨hentries.trans ?_, h.counted, hminP.trans ?_⟩
    · funext i
      rw [h.batch.recorded.pooling hpool i, h.batch.content_eq_none hpool i]
    · funext i
      rw [h.batch.recorded.pooling hpool i, h.batch.content_eq_none hpool i]
  | false =>
    have htracks := h.batch.recorded.tracks hpool
    have hreplay := fun {β : Type} (f : _ → Option β) =>
      replay_eq htracks (fun i hi => (h.batch.freed.free i hi).2)
        (fun v hv => ⟨(h.batch.recorded.moved v hv).1, (h.batch.recorded.moved v hv).2.1⟩) f
    have hfits : MinPLogitsProcessor.Fits s.batch.maxNumReqs f32 ⟨s.batch.numReqs,
        s.batch.batchUpdateBuilder.removed, s.batch.batchUpdateBuilder.added, s.batch.batchUpdateBuilder.moved⟩ :=
      ⟨h.batch.recorded.added, fun i hi => (h.batch.freed.free i hi).1,
        fun v hv => (h.batch.recorded.moved v hv).2.2⟩
    rcases hsampling hpool with hsome | ⟨hnone, hremoved, hadded, hmoved⟩
    · obtain ⟨hcounted, hsparse⟩ := h.counted.updateState hfits
      rw [hsome]
      refine ⟨(processDictUpdates_get? _ _).trans ?_, hcounted, hsparse.trans ?_⟩
      · rw [hentries]
        exact hreplay fun c => newState c.1 c.2.1 c.2.2
      · rw [hminP]
        exact hreplay fun c => entry (f32.round c.1.minP)
    · rw [hnone]
      rw [hremoved, hadded, hmoved] at hreplay
      refine ⟨hentries.trans ?_, h.counted, hminP.trans ?_⟩
      · exact (replay_nil _ _).symm.trans (hreplay _)
      · exact (replay_nil _ _).symm.trans (hreplay _)

lemma InvWith.refreshMetadata (h : s.InvWith f32 newState slots begun) (hphase : s.phase = .condensed) :
    ∃ s', s.step f32 newState truthy .refreshMetadata = .ok s' ∧ s'.Inv f32 newState := by
  obtain ⟨hentries, hcounted, hsparse⟩ := h.updated truthy
  obtain ⟨builder, hbatch, hsorted, hremoved, hadded, hmoved, -⟩ := s.batch.refreshMetadata_spec
  have hdense := h.dense (.inr hphase)
  obtain ⟨hinv, hopen⟩ := h.batch.restart hdense hremoved hadded hmoved
  refine ⟨{ s with
    batch := { s.batch with batchUpdateBuilder := builder }
    phase := .between
    reqEntries := (processDictUpdates newState truthy s.reqEntries s.batch.refreshMetadata.1).1
    minP := s.minP.updateState f32 s.batch.refreshMetadata.1 }, ?_, slots, slots, hinv, h.keyed,
    h.lists, fun _ => ⟨hopen, hmoved⟩, fun _ => hsorted, fun _ => hdense, fun _ => rfl, hentries, hcounted, hsparse⟩
  rw [← hbatch]
  rfl

lemma Inv.step (h : s.Inv f32 newState) {c : BatchCall G F} (hallowed : s.Allowed c)
    (hclean : s.Clean f32 c) : ∃ s', s.step f32 newState truthy c = .ok s' ∧ s'.Inv f32 newState := by
  obtain ⟨slots, begun, h⟩ := h
  cases c with
  | removeRequest reqId => exact h.removeRequest hallowed
  | addRequest request => exact h.addRequest hallowed hclean
  | condense => exact h.condense hallowed hclean
  | swapStates i1 i2 => exact h.swapStates hallowed hclean
  | refreshMetadata => exact h.refreshMetadata hallowed

/-- In every run of clean calls, the batch and the processors agree after each step, and no call
fails. -/
theorem reaches_agrees {isPoolingModel : Bool} {maxNumReqs : ℕ} {vocabSize : ℤ}
    (h : Reaches (BatchRunner.step f32 newState truthy) (fun s c => s.Allowed c ∧ s.Clean f32 c)
      (start isPoolingModel maxNumReqs vocabSize : BatchRunner G F T) s) :
    (s.phase = .between → s.Agrees f32 newState) ∧
    ∀ c, s.Allowed c → s.Clean f32 c → ∃ s', s.step f32 newState truthy c = .ok s' := by
  have hinv : s.Inv f32 newState := by
    refine h.invariant (inv_start isPoolingModel maxNumReqs vocabSize) ?_
    intro s c s' hs hc hstep
    obtain ⟨t, ht, hinv⟩ := hs.step hc.1 hc.2
    rw [hstep] at ht
    exact Except.ok.inj ht ▸ hinv
  constructor
  · intro hphase
    obtain ⟨slots, begun, hs⟩ := hinv
    exact hs.agrees hphase
  · intro c hallowed hclean
    obtain ⟨t, ht, -⟩ := hinv.step hallowed hclean
    exact ⟨t, ht⟩

instance (r : CachedRequestState G F) : Decidable r.WellFormed :=
  decidable_of_iff ((r.promptTokenIds.isSome || r.promptEmbeds.isSome) = true ∧
      (r.promptTokenIds.all fun tokens => r.promptEmbeds.all fun embeds =>
        embeds.length = tokens.length) = true) (by
    unfold CachedRequestState.WellFormed
    cases r.promptTokenIds with
    | none => simp [isSome_iff_ne_none]
    | some tokens =>
      cases r.promptEmbeds with
      | none => simp
      | some embeds => simp)

omit [Zero F] [DecidableEq F] in
instance (b : InputBatch G F) (last empty : ℕ) : Decidable (b.MoveClean last empty) :=
  decidable_of_iff ((b.reqPromptEmbeds.get? last ≠ none ∨ b.reqPromptEmbeds.get? empty = none) ∧
      b.logitsProcessingNeedsTokenIds last = b.logitsProcessingNeedsTokenIds empty)
    ⟨fun h => ⟨h.1, h.2⟩, fun h => ⟨h.embeds, h.needs⟩⟩

omit [Zero F] [DecidableEq F] in
instance (b : InputBatch G F) : Decidable b.CondenseClean :=
  decidableBAll (fun v : ℕ × ℕ => b.MoveClean v.1 v.2) _

omit [Zero F] [DecidableEq F] in
instance (s : BatchRunner G F T) : ∀ c, Decidable (s.Allowed c)
  | .removeRequest _ => inferInstanceAs (Decidable (_ ∨ _))
  | .addRequest r => decidable_of_iff (s.phase ≠ .condensed ∧
      (s.requests.get? r.reqId).isNone = true ∧ s.batch.numReqs < s.batch.maxNumReqs ∧
      r.WellFormed ∧ (s.batch.isPoolingModel = true ↔ r.samplingParams.isNone = true) ∧
      (r.samplingParams.isNone = true → r.poolingParams.isNone = false)) (by
    unfold Allowed
    simp only [isNone_iff_eq_none, isNone_eq_false_iff, isSome_iff_ne_none])
  | .condense => inferInstanceAs (Decidable (_ ≠ _))
  | .swapStates _ _ => inferInstanceAs (Decidable (_ ∧ _))
  | .refreshMetadata => inferInstanceAs (Decidable (_ = _))

def Tame (s : BatchRunner Unit ℕ ℕ) (c : BatchCall Unit ℕ) : Prop :=
  s.Allowed c ∧ s.batch.allowedTokenIdsMask.isNone = true ∧ match c with
  | .addRequest r => r.promptEmbeds ≠ none ∨ s.batch.reqPromptEmbeds.get? s.batch.nextIndex = none
  | .condense => s.batch.CondenseClean
  | .swapStates i1 i2 =>
    s.batch.logitsProcessingNeedsTokenIds i1 = s.batch.logitsProcessingNeedsTokenIds i2
  | _ => True

instance (s : BatchRunner Unit ℕ ℕ) (c : BatchCall Unit ℕ) : Decidable (s.Tame c) :=
  @instDecidableAnd _ _ _ <| @instDecidableAnd _ _ _ <| match c with
  | .removeRequest _ => inferInstanceAs (Decidable True)
  | .addRequest _ => inferInstanceAs (Decidable (_ ∨ _))
  | .condense => inferInstanceAs (Decidable s.batch.CondenseClean)
  | .swapStates _ _ => inferInstanceAs (Decidable (_ = _))
  | .refreshMetadata => inferInstanceAs (Decidable True)

def exactFloat : Float32 ℕ := ⟨fun x => x, rfl⟩

lemma Tame.clean {s : BatchRunner Unit ℕ ℕ} {c : BatchCall Unit ℕ} (h : s.Tame c) :
    s.Allowed c ∧ s.Clean exactFloat c := by
  obtain ⟨hallowed, hnone, hcall⟩ := h
  have hmask : s.batch.maskRow = fun _ _ => false := by
    unfold InputBatch.maskRow
    rw [isNone_iff_eq_none.mp hnone]
    rfl
  refine ⟨hallowed, ?_⟩
  cases c with
  | removeRequest reqId => trivial
  | addRequest request => exact ⟨⟨hcall, .inr (congrFun hmask _)⟩, fun params _ h => h⟩
  | condense => exact hcall
  | swapStates i1 i2 => exact ⟨(congrFun hmask i1).trans (congrFun hmask i2).symm, hcall⟩
  | refreshMetadata => trivial

def keepMinP (params : BatchSamplingParams ℕ) (_ : Option (List TokenId)) (_ : List TokenId) :
    Option ℕ := MinPLogitsProcessor.entry params.minP

def smallRequest (reqId : RequestId) (minP : ℕ) (promptEmbeds : Option (List Bytes)) :
    CachedRequestState Unit ℕ where
  reqId
  promptTokenIds := if promptEmbeds = none then some [7] else none
  samplingParams := some ⟨false, 1, 1, 0, 0, 0, 1, minP, [], []⟩
  blockIds := [[1]]
  numComputedTokens := 0
  outputTokenIds := [9]
  promptEmbeds

/-- Two requests are added and swapped, then the first leaves and the other one moves down. -/
def pairCalls : List (BatchCall Unit ℕ) :=
  [.addRequest (smallRequest "a" 3 none), .addRequest (smallRequest "b" 5 none), .condense,
    .swapStates 0 1, .refreshMetadata, .removeRequest "b", .condense, .refreshMetadata]

theorem reaches_agrees_pair : ∃ s : BatchRunner Unit ℕ ℕ,
    Reaches (BatchRunner.step exactFloat keepMinP fun _ => true)
      (fun s c => s.Allowed c ∧ s.Clean exactFloat c) (start false 4 100) s ∧
    s.phase = .between ∧ s.batch.reqIds = [some "a"] ∧ s.reqEntries.get? 0 = some 3 ∧
    s.Agrees exactFloat keepMinP := by
  have hrun : (runAllowed (BatchRunner.step exactFloat keepMinP fun _ => true) Tame
      (start false 4 100) pairCalls).map (fun s => (s.phase, s.batch.reqIds, s.reqEntries.get? 0)) =
      some (.between, [some "a"], some 3) := by decide +kernel
  obtain ⟨s, hs, hfacts⟩ := map_eq_some_iff.mp hrun
  obtain ⟨hphase, hids, hentry⟩ : s.phase = .between ∧ s.batch.reqIds = [some "a"] ∧
      s.reqEntries.get? 0 = some 3 := by
    simpa only [Prod.mk.injEq] using hfacts
  have hreach := (Reaches.start.append_runAllowed hs).mono fun _ _ h => h.clean
  exact ⟨s, hreach, hphase, hids, hentry, (reaches_agrees hreach).1 hphase⟩

def embedsCalls : List (BatchCall Unit ℕ) :=
  [.addRequest (smallRequest "a" 3 (some [[1]])), .condense, .refreshMetadata,
    .removeRequest "a", .addRequest (smallRequest "b" 5 none), .condense, .refreshMetadata]

/-- The embeddings of a request that has left are taken for those of the next one. -/
theorem removed_embeds_stay : ∃ s : BatchRunner Unit ℕ ℕ,
    Reaches (BatchRunner.step exactFloat keepMinP fun _ => true) Allowed (start false 4 100) s ∧
    s.phase = .between ∧ (s.requestAt 0).map (·.promptEmbeds.isSome) = some false ∧
    s.batch.reqPromptEmbeds.get? 0 = some [[1]] ∧ ¬s.Agrees exactFloat keepMinP := by
  have hrun : (runAllowed (BatchRunner.step exactFloat keepMinP fun _ => true) Allowed
      (start false 4 100) embedsCalls).any (fun s => s.phase = .between ∧ s.batch.numReqs = 1 ∧
        (s.requestAt 0).map (·.promptEmbeds.isSome) = some false ∧
        s.batch.reqPromptEmbeds.get? 0 = some [[1]]) = true := by decide +kernel
  obtain ⟨s, hs, hfacts⟩ := (any_eq_true _ _).mp hrun
  obtain ⟨hphase, hnum, hrequest, hembeds⟩ := of_decide_eq_true hfacts
  refine ⟨s, Reaches.start.append_runAllowed hs, hphase, hrequest, hembeds, fun hagrees => ?_⟩
  obtain ⟨r, hr, hholds⟩ := hagrees.holds 0 (hnum ▸ Nat.one_pos)
  have hown := hholds.embeds
  rw [hr, map_some, ← hown, hembeds] at hrequest
  cases hrequest

end BatchRunner

end CustomAi.Vllm
