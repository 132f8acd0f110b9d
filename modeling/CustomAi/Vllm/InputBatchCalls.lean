import CustomAi.Vllm.InputBatchSpec

/-!
# The calls to the persistent batch

The index, the list of freed indices and the recorded update of a batch in the middle of a step, and
what the calls do to them.
-/

namespace CustomAi.Vllm

open List Slots Function Option Except CachedRequestState

variable {G F : Type} [Zero F] {f32 : Float32 F}

namespace InputBatch

def owner (b : InputBatch G F) : ℕ → Option RequestId := fun i => (b.reqIds[i]?).join

/-- Ids and indices are those of the requests in the slots. -/
structure Indexed (b : InputBatch G F) (slots : ℕ → Option (CachedRequestState G F)) : Prop where
  occupied : ∀ i, b.owner i = (slots i).map (·.reqId)
  inverse : Inverse b.reqIdToIndex b.owner
  outputLength : b.reqOutputTokenIds.length = b.reqIds.length
  bound : b.reqIds.length ≤ b.maxNumReqs

structure Freed (b : InputBatch G F) (slots : ℕ → Option (CachedRequestState G F)) : Prop where
  nodup : b.batchUpdateBuilder.removed.Nodup
  sorted : b.batchUpdateBuilder.isRemovedSorted = true → b.batchUpdateBuilder.removed.Pairwise (· ≥ ·)
  free : ∀ i ∈ b.batchUpdateBuilder.removed, i < b.maxNumReqs ∧ slots i = none

/-- Replaying the recorded update gives what is in the slots, but for the freed indices. -/
structure Recorded (f32 : Float32 F) (b : InputBatch G F)
    (slots start : ℕ → Option (CachedRequestState G F)) : Prop where
  tracks : b.isPoolingModel = false → Tracks (applyMoves b.batchUpdateBuilder.moved (applyAdds
      (fun a => some (a.params, a.promptTokIds, a.outputTokIds)) b.batchUpdateBuilder.added
      fun i => (start i).bind CachedRequestState.content)) slots CachedRequestState.content
      b.batchUpdateBuilder.removed
  moved : ∀ v ∈ b.batchUpdateBuilder.moved,
    v.aIndex ∉ b.batchUpdateBuilder.removed ∧ v.bIndex ∉ b.batchUpdateBuilder.removed ∧
    v.aIndex < b.maxNumReqs ∧ v.bIndex < b.maxNumReqs ∧ (v.direct = .unidirectional → v.aIndex ≠ v.bIndex)
  added : ∀ a ∈ b.batchUpdateBuilder.added, a.index < b.maxNumReqs ∧
    (f32.round a.params.minP = 0 → a.params.minP = 0)
  pooling : b.isPoolingModel = true → ∀ i, (start i).bind CachedRequestState.content = none

/-- A batch in the middle of a step that began with the requests `start`. -/
structure Inv (f32 : Float32 F) (b : InputBatch G F)
    (slots start : ℕ → Option (CachedRequestState G F)) : Prop where
  columns : Columns f32 b slots
  kinds : b.Kinds slots
  indexed : b.Indexed slots
  freed : b.Freed slots
  recorded : Recorded f32 b slots start

def Open (b : InputBatch G F) (slots : ℕ → Option (CachedRequestState G F)) : Prop :=
  ∀ i, i ∈ b.batchUpdateBuilder.removed ↔ i < b.reqIds.length ∧ slots i = none

def Dense (b : InputBatch G F) (slots : ℕ → Option (CachedRequestState G F)) : Prop :=
  ∀ i, slots i ≠ none ↔ i < b.reqIds.length

variable {b b' : InputBatch G F} {slots start : ℕ → Option (CachedRequestState G F)} {i : ℕ}
  {r : CachedRequestState G F}

section Index

omit [Zero F]

section

variable (h : b.Indexed slots)
include h

lemma Indexed.owner_eq (hr : slots i = some r) : b.owner i = some r.reqId := by
  rw [h.occupied, hr, map_some]

lemma Indexed.owner_eq_none (hi : slots i = none) : b.owner i = none := by
  rw [h.occupied, hi, map_none]

lemma Indexed.reqIds_eq (hr : slots i = some r) :
    b.reqIds[i]? = some (some r.reqId) := join_eq_some_iff.mp (h.owner_eq hr)

lemma Indexed.lt (hi : slots i ≠ none) : i < b.reqIds.length := by
  obtain ⟨r, hr⟩ := ne_none_iff_exists'.mp hi
  exact (List.getElem?_eq_some_iff.mp (h.reqIds_eq hr)).1

lemma Indexed.inj {j : ℕ} {r' : CachedRequestState G F}
    (hr : slots i = some r) (hr' : slots j = some r') (hid : r.reqId = r'.reqId) : i = j :=
  h.inverse.inj (h.owner_eq hr) (hid ▸ h.owner_eq hr')

lemma Indexed.exists_of_get? {reqId : RequestId}
    (hi : b.reqIdToIndex.get? reqId = some i) : ∃ r, slots i = some r ∧ r.reqId = reqId := by
  have howner := (h.inverse reqId i).mp hi
  rw [h.occupied] at howner
  exact map_eq_some_iff.mp howner

lemma Indexed.numReqs_eq : b.numReqs = filled b.maxNumReqs slots := by
  have hsize := h.inverse.size_eq (n := b.maxNumReqs) fun i hi => by
    rw [h.occupied] at hi
    refine Nat.lt_of_lt_of_le (h.lt fun hnone => hi ?_) h.bound
    rw [hnone, map_none]
  unfold numReqs
  rw [hsize]
  unfold filled
  simp only [h.occupied, isSome_map]

end

lemma owner_set {x : Option RequestId} (hids : b'.reqIds = b.reqIds.set i x)
    (hi : i < b.reqIds.length) : b'.owner = update b.owner i x := by
  funext j
  unfold owner
  rw [hids, update_apply]
  by_cases hji : j = i
  · rw [if_pos hji, hji, getElem?_set_self hi, join_some]
  · rw [if_neg hji, getElem?_set_ne (Ne.symm hji)]

end Index

structure SameSettings (b b' : InputBatch G F) : Prop where
  isPoolingModel : b'.isPoolingModel = b.isPoolingModel
  maxNumReqs : b'.maxNumReqs = b.maxNumReqs
  mask : b.isPoolingModel = true → b.allowedTokenIdsMask = none → b'.allowedTokenIdsMask = none
  needs : b.isPoolingModel = false → b'.logitsProcessingNeedsTokenIds = b.logitsProcessingNeedsTokenIds

omit [Zero F] in
lemma Kinds.of_slots (h : b.Kinds slots) (hsame : b.SameSettings b') {slots' : ℕ → Option (CachedRequestState G F)}
    (hkind : ∀ j r, slots' j = some r → (b.isPoolingModel = true ↔ r.samplingParams = none)) : b'.Kinds slots' := by
  refine ⟨fun j r hr => ?_, fun hpool => ?_, fun hpool j => ?_⟩
  · rw [hsame.isPoolingModel]
    exact hkind j r hr
  · rw [hsame.isPoolingModel] at hpool
    exact hsame.mask hpool (h.mask hpool)
  · rw [hsame.isPoolingModel] at hpool
    rw [hsame.needs hpool]
    exact h.needs hpool j

omit [Zero F] in
lemma clearColumns_same (b : InputBatch G F) (i : ℕ) : b.SameSettings (b.clearColumns i) ∧
    (b.clearColumns i).reqOutputTokenIds = b.reqOutputTokenIds.set i none := by
  unfold clearColumns
  dsimp only
  split
  · exact ⟨⟨rfl, rfl, fun _ hnone => hnone, fun _ => rfl⟩, rfl⟩
  · refine ⟨⟨rfl, rfl, fun _ hnone => ?_, fun _ => rfl⟩, rfl⟩
    dsimp only
    rw [hnone, map_none]

lemma Inv.removeRequest (h : Inv f32 b slots start) (hopen : b.Open slots)
    (hsorted : b.batchUpdateBuilder.isRemovedSorted = false)
    (hmoved : b.batchUpdateBuilder.moved = []) (reqId : RequestId) :
    ∃ index b' slots', b.removeRequest reqId = .ok (index, b') ∧ Inv f32 b' slots' start ∧
      b'.Open slots' ∧ b'.batchUpdateBuilder.isRemovedSorted = false ∧
      b'.batchUpdateBuilder.moved = [] ∧ b'.maxNumReqs = b.maxNumReqs ∧
      ∀ i r, slots' i = some r ↔ slots i = some r ∧ r.reqId ≠ reqId := by
  unfold InputBatch.removeRequest
  cases hindex : b.reqIdToIndex.get? reqId with
  | none =>
    refine ⟨none, b, slots, rfl, h, hopen, hsorted, hmoved, rfl, fun i r => ?_⟩
    constructor
    · intro hr
      refine ⟨hr, fun hid => ?_⟩
      have hget := (h.indexed.inverse r.reqId i).mpr (h.indexed.owner_eq hr)
      rw [hid, hindex] at hget
      cases hget
    · exact fun hr => hr.1
  | some i =>
    obtain ⟨r, hr, rfl⟩ := h.indexed.exists_of_get? hindex
    have hlt : i < b.reqIds.length := h.indexed.lt (by rw [hr]; rintro ⟨⟩)
    have hmem : i ∉ b.batchUpdateBuilder.removed := by
      intro hmem
      rw [(h.freed.free i hmem).2] at hr
      cases hr
    obtain ⟨hsame, hout⟩ := b.clearColumns_same i
    have hslots : ∀ j, update slots i none j = none ↔ j = i ∨ slots j = none := by
      intro j
      rw [update_apply]
      split
      · next hji => simp [hji]
      · next hji => simp [hji]
    have hleft : ∀ j r', update slots i none j = some r' ↔ slots j = some r' ∧ r'.reqId ≠ r.reqId := by
      intro j r'
      rw [update_apply]
      by_cases hji : j = i
      · rw [if_pos hji, hji, hr]
        constructor
        · intro hnone
          cases hnone
        · rintro ⟨heq, hne⟩
          exact absurd (congrArg reqId (some.inj heq).symm) hne
      · rw [if_neg hji]
        constructor
        · exact fun hj => ⟨hj, fun hid => hji (h.indexed.inj hj hr hid)⟩
        · exact fun hj => hj.1
    simp only [BatchUpdateBuilder.removedAppend, hsorted, ensure_of, ok_bind, pure_eq_ok]
    set b' : InputBatch G F := { b.clearColumns i with
      reqIdToIndex := b.reqIdToIndex.erase r.reqId
      batchUpdateBuilder := { b.batchUpdateBuilder with
        removed := b.batchUpdateBuilder.removed ++ [i]
        isRemovedSorted := false }
      reqIds := b.reqIds.set i none } with hb'
    have howner : b'.owner = update b.owner i none := owner_set rfl hlt
    have hsame' : b.SameSettings b' := ⟨hsame.isPoolingModel, hsame.maxNumReqs, hsame.mask, hsame.needs⟩
    have hkinds := h.kinds.of_slots hsame' fun j r' hj =>
      h.kinds.sampling j r' ((hleft j r').mp hj).1
    have hindexed : b'.Indexed (update slots i none) := by
      refine ⟨?_, ?_, ?_, ?_⟩
      · intro j
        rw [howner, update_apply, update_apply]
        split
        · rfl
        · exact h.indexed.occupied j
      · rw [howner]
        exact h.indexed.inverse.empty (h.indexed.owner_eq hr)
      · rw [hout, length_set, length_set]
        exact h.indexed.outputLength
      · rw [hsame.maxNumReqs, length_set]
        exact h.indexed.bound
    have hfreed : b'.Freed (update slots i none) := by
      refine ⟨?_, (by rintro ⟨⟩), fun j hj => ?_⟩
      · exact Nodup.append h.freed.nodup (nodup_singleton i) (disjoint_singleton.mpr hmem)
      · rw [hsame.maxNumReqs, hslots]
        rcases mem_append.mp hj with hj | hj
        · obtain ⟨hlt', hfree⟩ := h.freed.free j hj
          exact ⟨hlt', .inr hfree⟩
        · rw [mem_singleton.mp hj]
          exact ⟨Nat.lt_of_lt_of_le hlt h.indexed.bound, .inl rfl⟩
    have hrecorded : Recorded f32 b' (update slots i none) start := by
      refine ⟨fun hpool => ?_, fun v hv => ?_, fun a ha => ?_,
        fun hpool => h.recorded.pooling (hsame.isPoolingModel.symm.trans hpool)⟩
      · exact (h.recorded.tracks (hsame.isPoolingModel.symm.trans hpool)).empty (fun _ _ => rfl)
          (fun j hj => mem_append_left _ hj)
          (.inl (mem_append_right _ (mem_singleton.mpr rfl)))
      · rw [hmoved] at hv
        cases hv
      · rw [hsame.maxNumReqs]
        exact h.recorded.added a ha
    refine ⟨some i, b', _, rfl, ⟨(h.columns.clear h.kinds i).withIndex _ _ _, hkinds, hindexed,
      hfreed, hrecorded⟩, fun j => ?_, rfl, hmoved, hsame.maxNumReqs, hleft⟩
    change j ∈ b.batchUpdateBuilder.removed ++ [i] ↔ j < (b.reqIds.set i none).length ∧ _
    rw [mem_append, hopen, mem_singleton, length_set, hslots]
    constructor
    · rintro (⟨hj, hfree⟩ | rfl)
      · exact ⟨hj, .inr hfree⟩
      · exact ⟨hlt, .inl rfl⟩
    · rintro ⟨hj, rfl | hfree⟩
      · exact .inr rfl
      · exact .inl ⟨hj, hfree⟩

def nextIndex (b : InputBatch G F) : ℕ := b.batchUpdateBuilder.popRemoved.1.getD b.numReqs

lemma addColumns_same (h : b.addColumns f32 i r = .ok b')
    (hkind : b.isPoolingModel = true ↔ r.samplingParams = none) :
    b.SameSettings b' ∧ b'.batchUpdateBuilder = b.batchUpdateBuilder ∧
    b'.reqIdToIndex = b.reqIdToIndex ∧ b'.reqOutputTokenIds = if i = b.reqIds.length then
      b.reqOutputTokenIds ++ [some r.outputTokenIds] else b.reqOutputTokenIds.set i (some r.outputTokenIds) := by
  obtain ⟨n, -, h⟩ := bind_eq_ok.mp h
  cases hparams : r.samplingParams with
  | none =>
    have hpool := hkind.mpr hparams
    simp only [hparams] at h
    cases hpooling : r.poolingParams with
    | none =>
      simp only [hpooling] at h
      cases h
    | some params =>
      simp only [hpooling, pure_eq_ok, ok.injEq] at h
      subst h
      refine ⟨⟨rfl, rfl, fun _ hnone => hnone, fun hnot => ?_⟩, rfl, rfl, rfl⟩
      rw [hpool] at hnot
      cases hnot
  | some params =>
    simp only [hparams, pure_eq_ok, ok.injEq] at h
    subst h
    refine ⟨⟨rfl, rfl, fun hpool => ?_, fun _ => rfl⟩, rfl, rfl, rfl⟩
    rw [hkind.mp hpool] at hparams
    cases hparams

omit [Zero F] in
lemma Freed.pop (h : b.Freed slots) {rest : List ℕ} {index : ℕ}
    (hperm : (rest ++ [index]).Perm b.batchUpdateBuilder.removed) :
    index ∈ b.batchUpdateBuilder.removed ∧ index ∉ rest ∧ rest.Nodup ∧
      ∀ j, j ∈ b.batchUpdateBuilder.removed ↔ j = index ∨ j ∈ rest := by
  have hnodup := hperm.nodup_iff.mpr h.nodup
  have hmem : ∀ j, j ∈ b.batchUpdateBuilder.removed ↔ j = index ∨ j ∈ rest := by
    intro j
    rw [← hperm.mem_iff, mem_append, mem_singleton, or_comm]
  refine ⟨(hmem index).mpr (.inl rfl), ?_, hnodup.sublist (sublist_append_left _ _), hmem⟩
  exact fun hin => (nodup_append.mp hnodup).2.2 index hin index (mem_singleton.mpr rfl)
    rfl

structure Taken (b : InputBatch G F) (builder : BatchUpdateBuilder F) : Prop where
  added : builder.added = b.batchUpdateBuilder.added
  moved : builder.moved = b.batchUpdateBuilder.moved
  nodup : builder.removed.Nodup
  sorted : builder.isRemovedSorted = true → builder.removed.Pairwise (· ≥ ·)
  mem_iff : ∀ j, j ∈ builder.removed ↔ j ∈ b.batchUpdateBuilder.removed ∧ j ≠ b.nextIndex

lemma Inv.nextIndex_spec (h : Inv f32 b slots start) (hopen : b.Open slots) (hcap : b.numReqs < b.maxNumReqs) :
    slots b.nextIndex = none ∧ b.nextIndex < b.maxNumReqs ∧ b.nextIndex ≤ b.reqIds.length ∧
      b.Taken b.batchUpdateBuilder.popRemoved.2 := by
  rcases b.batchUpdateBuilder.popRemoved_spec h.freed.sorted with ⟨hnil, hpop⟩ |
    ⟨rest, index, hpop, hperm, hpair⟩
  · -- nothing was removed, so the new request comes last
    have hfull : ∀ i, slots i ≠ none ↔ i < b.reqIds.length := by
      intro i
      constructor
      · exact h.indexed.lt
      · intro hi hnone
        have hmem := (hopen i).mpr ⟨hi, hnone⟩
        rw [hnil] at hmem
        exact not_mem_nil hmem
    have hnum : b.numReqs = b.reqIds.length := h.indexed.numReqs_eq.trans (filled_eq_of_iff h.indexed.bound hfull)
    have hnext : b.nextIndex = b.reqIds.length := by
      unfold nextIndex
      rw [hpop, getD_none, hnum]
    rw [hnext, hpop]
    refine ⟨?_, hnum ▸ hcap, le_rfl, rfl, rfl, h.freed.nodup, h.freed.sorted, fun j => ?_⟩
    · by_contra hne
      exact absurd ((hfull _).mp hne) (Nat.lt_irrefl _)
    · simp [hnil]
  · obtain ⟨hmem, hnot, hnodup, hall⟩ := h.freed.pop hperm
    obtain ⟨hlt, hfree⟩ := (hopen index).mp hmem
    have hnext : b.nextIndex = index := by
      unfold nextIndex
      rw [hpop, getD_some]
    have htaken : ∀ j, j ∈ rest ↔ j ∈ b.batchUpdateBuilder.removed ∧ j ≠ b.nextIndex := by
      intro j
      rw [hall, hnext]
      constructor
      · intro hj
        exact ⟨.inr hj, fun he => hnot (he ▸ hj)⟩
      · rintro ⟨he | hj, hne⟩
        · exact absurd he hne
        · exact hj
    rw [hpop]
    refine ⟨hnext ▸ hfree, hnext ▸ (h.freed.free index hmem).1, hnext ▸ hlt.le, rfl, rfl, hnodup,
      fun _ => (pairwise_append.mp hpair).1, htaken⟩

/-- What the callers of `add_request` promise, and no left-over entry is in the way. -/
structure Addable (f32 : Float32 F) (b : InputBatch G F)
    (slots : ℕ → Option (CachedRequestState G F)) (r : CachedRequestState G F) : Prop where
  new : ∀ i r', slots i = some r' → r'.reqId ≠ r.reqId
  capacity : b.numReqs < b.maxNumReqs
  wellFormed : r.WellFormed
  kind : b.isPoolingModel = true ↔ r.samplingParams = none
  pooling : r.samplingParams = none → r.poolingParams ≠ none
  clean : b.AddClean b.nextIndex r
  round : ∀ params, r.samplingParams = some params → f32.round params.minP = 0 → params.minP = 0

def registered (b : InputBatch G F) (r : CachedRequestState G F) : BatchUpdateBuilder F :=
  { b.batchUpdateBuilder.popRemoved.2 with
    added := r.samplingParams.elim b.batchUpdateBuilder.popRemoved.2.added fun params =>
      b.batchUpdateBuilder.popRemoved.2.added ++ [⟨b.nextIndex, params, r.promptTokenIds, r.outputTokenIds⟩] }

omit [Zero F] in
lemma registerAddRequest_eq (hlt : b.nextIndex < b.maxNumReqs) (r : CachedRequestState G F) :
    b.registerAddRequest r = .ok (b.nextIndex, { b with batchUpdateBuilder := b.registered r }) := by
  unfold registerAddRequest registered
  unfold nextIndex at hlt ⊢
  cases hpop : b.batchUpdateBuilder.popRemoved with
  | mk removed builder =>
    rw [hpop] at hlt
    simp only [ensure_of hlt, ok_bind, pure_eq_ok]

lemma Recorded.add (h : Recorded f32 b slots start) (htaken : b.Taken b.batchUpdateBuilder.popRemoved.2)
    (hmoved : b.batchUpdateBuilder.moved = []) (hlt : b.nextIndex < b.maxNumReqs)
    (hadd : Addable f32 b slots r) {t : InputBatch G F} (hpool : t.isPoolingModel = b.isPoolingModel)
    (hmax : t.maxNumReqs = b.maxNumReqs) (hbuilder : t.batchUpdateBuilder = b.registered r) :
    Recorded f32 t (update slots b.nextIndex (some r)) start := by
  have hmoved' : (b.registered r).moved = [] := htaken.moved.trans hmoved
  refine ⟨fun hnot => ?_, fun v hv => ?_, fun a ha => ?_, fun hpool' => h.pooling (hpool.symm.trans hpool')⟩
  · rw [hpool] at hnot
    have htracks := h.tracks hnot
    obtain ⟨params, hparams⟩ : ∃ params, r.samplingParams = some params := by
      refine ne_none_iff_exists'.mp fun hnone => ?_
      rw [hadd.kind.mpr hnone] at hnot
      cases hnot
    have hadded : (b.registered r).added = b.batchUpdateBuilder.added ++
        [⟨b.nextIndex, params, r.promptTokenIds, r.outputTokenIds⟩] := by
      unfold registered
      rw [hparams, elim_some, htaken.added]
    rw [hbuilder, hmoved', hadded, applyAdds_append]
    rw [hmoved] at htracks
    refine htracks.fill (fun j hj => update_of_ne hj _ _) ?_ fun j hj => ?_
    · refine (update_self _ _ _).trans ?_
      unfold content
      rw [hparams, map_some]
    · by_cases hji : j = b.nextIndex
      · exact .inl hji
      · exact .inr ((htaken.mem_iff j).mpr ⟨hj, hji⟩)
  · rw [hbuilder, hmoved'] at hv
    cases hv
  · rw [hbuilder] at ha
    rw [hmax]
    unfold registered at ha
    rw [htaken.added] at ha
    cases hparams : r.samplingParams with
    | none =>
      rw [hparams] at ha
      exact h.added a ha
    | some params =>
      rw [hparams] at ha
      rcases mem_append.mp ha with ha | ha
      · exact h.added a ha
      · rw [mem_singleton.mp ha]
        exact ⟨hlt, hadd.round params hparams⟩

lemma Inv.addRequest (h : Inv f32 b slots start) (hopen : b.Open slots)
    (hmoved : b.batchUpdateBuilder.moved = []) (hadd : Addable f32 b slots r) :
    ∃ b', b.addRequest f32 r = .ok (b.nextIndex, b') ∧
      Inv f32 b' (update slots b.nextIndex (some r)) start ∧
      b'.Open (update slots b.nextIndex (some r)) ∧
      b'.batchUpdateBuilder.moved = [] ∧ b'.maxNumReqs = b.maxNumReqs ∧ slots b.nextIndex = none := by
  obtain ⟨hfree, hltMax, hle, htaken⟩ := h.nextIndex_spec hopen hadd.capacity
  have hregister := registerAddRequest_eq hltMax r
  have hcolumns : Columns f32 { b with batchUpdateBuilder := b.registered r } slots := h.columns.withIndex _ _ _
  have hkinds : Kinds { b with batchUpdateBuilder := b.registered r } slots :=
    ⟨h.kinds.sampling, h.kinds.mask, h.kinds.needs⟩
  obtain ⟨b', hb', hcolumns'⟩ := hcolumns.add hkinds hfree hadd.wellFormed hadd.kind hadd.pooling
    h.indexed.outputLength hle ⟨hadd.clean.embeds, hadd.clean.mask⟩
  obtain ⟨hsame, hbuilder, hindex', hout⟩ := addColumns_same hb' hadd.kind
  have hmoved' : (b.registered r).moved = [] := htaken.moved.trans hmoved
  have hslots : ∀ j, update slots b.nextIndex (some r) j = none ↔ slots j = none ∧ j ≠ b.nextIndex := by
    intro j
    rw [update_apply]
    split
    · next hj => simp [hj]
    · next hj => simp [hj]
  set i := b.nextIndex
  set reqIds := if i = b.reqIds.length then b.reqIds ++ [some r.reqId]
    else b.reqIds.set i (some r.reqId) with hreqIds
  set t : InputBatch G F := { b' with
    reqIds
    reqIdToIndex := b'.reqIdToIndex.set r.reqId i }
  have hresult : b.addRequest f32 r = .ok (i, t) := by
    unfold InputBatch.addRequest
    rw [hregister]
    change (do
      let self ← addColumns f32 { b with batchUpdateBuilder := b.registered r } i r
      Except.ok (i, { self with reqIds, reqIdToIndex := self.reqIdToIndex.set r.reqId i })) = _
    rw [hb']
    rfl
  have hlength : reqIds.length = if i = b.reqIds.length then b.reqIds.length + 1
      else b.reqIds.length := by
    rw [hreqIds]
    split
    · rw [length_append, length_singleton]
    · rw [length_set]
  have howner : t.owner = update b.owner i (some r.reqId) := by
    funext j
    unfold owner
    rw [update_apply]
    rw [getElem?_stored rfl hle]
    split
    · rfl
    · rfl
  have hindexed : t.Indexed (update slots i (some r)) := by
    refine ⟨fun j => ?_, ?_, ?_, ?_⟩
    · rw [howner, update_apply, update_apply]
      split
      · rfl
      · exact h.indexed.occupied j
    · rw [howner]
      change Inverse (b'.reqIdToIndex.set r.reqId i) _
      rw [hindex']
      refine h.indexed.inverse.fill (h.indexed.owner_eq_none hfree) fun j hj => ?_
      rw [h.indexed.occupied] at hj
      obtain ⟨r', hr', hid⟩ := map_eq_some_iff.mp hj
      exact hadd.new j r' hr' hid
    · rw [hout, hlength]
      have hold := h.indexed.outputLength
      split
      · rw [length_append, length_singleton, hold]
      · rw [length_set, hold]
    · rw [hlength, hsame.maxNumReqs]
      have hold := h.indexed.bound
      split
      · change b.reqIds.length + 1 ≤ b.maxNumReqs
        omega
      · exact hold
  have hfreed : t.Freed (update slots i (some r)) := by
    refine ⟨?_, ?_, fun j hj => ?_⟩
    · rw [hbuilder]
      exact htaken.nodup
    · rw [hbuilder]
      exact htaken.sorted
    · rw [hbuilder] at hj
      rw [hsame.maxNumReqs, hslots]
      obtain ⟨hold, hne⟩ := (htaken.mem_iff j).mp hj
      obtain ⟨hlt, hnone⟩ := h.freed.free j hold
      exact ⟨hlt, hnone, hne⟩
  have hopen' : t.Open (update slots i (some r)) := by
    intro j
    rw [hbuilder, hslots, hlength]
    change j ∈ b.batchUpdateBuilder.popRemoved.2.removed ↔ _
    rw [htaken.mem_iff, hopen]
    constructor
    · rintro ⟨⟨hlt, hnone⟩, hne⟩
      refine ⟨?_, hnone, hne⟩
      split
      · omega
      · exact hlt
    · rintro ⟨hlt, hnone, hne⟩
      refine ⟨⟨?_, hnone⟩, hne⟩
      split at hlt
      · omega
      · exact hlt
  refine ⟨t, hresult, ⟨hcolumns'.withIndex _ _ _, ⟨fun j r' hj => ?_, fun hpool => ?_,
    fun hpool => ?_⟩, hindexed, hfreed, ?_⟩, hopen', ?_, hsame.maxNumReqs, hfree⟩
  · rw [hsame.isPoolingModel]
    rw [update_apply] at hj
    split at hj
    · rw [← some.inj hj]
      exact hadd.kind
    · exact h.kinds.sampling j r' hj
  · have hpool' : b.isPoolingModel = true := hsame.isPoolingModel.symm.trans hpool
    exact hsame.mask hpool' (h.kinds.mask hpool')
  · have hpool' : b.isPoolingModel = false := hsame.isPoolingModel.symm.trans hpool
    rw [hsame.needs hpool']
    exact h.kinds.needs hpool'
  · exact h.recorded.add htaken hmoved hltMax hadd hsame.isPoolingModel hsame.maxNumReqs hbuilder
  · rw [hbuilder]
    exact hmoved'

omit [Zero F] in
lemma moveColumns_same (b : InputBatch G F) (last empty : ℕ) : b.SameSettings (b.moveColumns last empty) ∧
    (b.moveColumns last empty).reqOutputTokenIds.length = b.reqOutputTokenIds.length := by
  have hlength : ((b.reqOutputTokenIds.set empty (b.reqOutputTokenIds.getD last none)).set last
      none).length = b.reqOutputTokenIds.length := by
    rw [length_set, length_set]
  unfold moveColumns
  dsimp only
  split
  · exact ⟨⟨rfl, rfl, fun _ hnone => hnone, fun _ => rfl⟩, hlength⟩
  · refine ⟨⟨rfl, rfl, fun _ hnone => ?_, fun _ => rfl⟩, hlength⟩
    dsimp only
    rw [hnone, map_none]

omit [Zero F] in
lemma popRemoved_concat (u : BatchUpdateBuilder F) (hsorted : u.isRemovedSorted = true) {rest : List ℕ} {empty : ℕ}
    (hremoved : u.removed = rest ++ [empty]) : u.popRemoved.2 = { u with removed := rest } := by
  have hsome : u.removed ≠ [] := by
    rw [hremoved]
    exact append_ne_nil_of_right_ne_nil rest (cons_ne_nil empty [])
  have hensure : u.ensureRemovedSorted = u := if_pos hsorted
  unfold BatchUpdateBuilder.popRemoved
  rw [if_neg hsome, hensure]
  dsimp only
  rw [hremoved, dropLast_concat]

/-- The record after a move down, which takes the last freed index. -/
def movedBuilder (b : InputBatch G F) (rest : List ℕ) (last empty : ℕ) : BatchUpdateBuilder F :=
  if b.isPoolingModel then { b.batchUpdateBuilder with removed := rest }
  else { b.batchUpdateBuilder with
    removed := rest
    moved := b.batchUpdateBuilder.moved ++ [⟨last, empty, .unidirectional⟩] }

omit [Zero F] in
lemma movedBuilder_fields (b : InputBatch G F) (rest : List ℕ) (last empty : ℕ) :
    (b.movedBuilder rest last empty).removed = rest ∧
      (b.movedBuilder rest last empty).isRemovedSorted = b.batchUpdateBuilder.isRemovedSorted ∧
      (b.movedBuilder rest last empty).added = b.batchUpdateBuilder.added := by
  unfold movedBuilder
  split
  · exact ⟨rfl, rfl, rfl⟩
  · exact ⟨rfl, rfl, rfl⟩

section MoveDown

variable {t : InputBatch G F} {rest : List ℕ} {last empty : ℕ} (hlast : slots last = some r) (hlt : empty < last)
  (hmax : t.maxNumReqs = b.maxNumReqs)
include hlast hlt hmax

omit [Zero F] in
lemma Indexed.moveDown (h : b.Indexed slots) (hempty : slots empty = none)
    (hids : t.reqIds = (b.reqIds.set empty (some r.reqId)).set last none)
    (hindex : t.reqIdToIndex = b.reqIdToIndex.set r.reqId empty)
    (hout : t.reqOutputTokenIds.length = b.reqOutputTokenIds.length) : t.Indexed (move last empty slots) := by
  have hlastLt : last < b.reqIds.length := h.lt (by rw [hlast]; nofun)
  have howner : t.owner = move last empty b.owner := by
    funext j
    rw [move_apply]
    unfold owner
    rw [hids]
    have hne : empty ≠ last := Nat.ne_of_lt hlt
    by_cases hje : j = empty
    · rw [if_pos hje, hje, getElem?_set_ne (Ne.symm hne),
        getElem?_set_self (Nat.lt_trans hlt hlastLt), h.reqIds_eq hlast]
    · rw [if_neg hje]
      by_cases hjl : j = last
      · rw [if_pos hjl, hjl, getElem?_set_self (by rwa [length_set])]
        rfl
      · rw [if_neg hjl, getElem?_set_ne (Ne.symm hjl), getElem?_set_ne (Ne.symm hje)]
  have hlength : t.reqIds.length = b.reqIds.length := by
    rw [hids, length_set, length_set]
  refine ⟨fun j => ?_, ?_, ?_, ?_⟩
  · rw [howner, move_apply, move_apply, h.occupied, h.occupied]
    split
    · rfl
    · split
      · rfl
      · rfl
  · rw [howner, hindex]
    exact h.inverse.move (h.owner_eq hlast) (h.owner_eq_none hempty)
  · rw [hlength]
    exact hout.trans h.outputLength
  · rw [hlength, hmax]
    exact h.bound

variable (hfreed : b.Freed slots) (hremoved : b.batchUpdateBuilder.removed = rest ++ [empty])
  (hbuilder : t.batchUpdateBuilder = b.movedBuilder rest last empty)
include hfreed hremoved hbuilder

omit [Zero F] hlast hlt in
lemma Freed.moveDown (hsorted : b.batchUpdateBuilder.isRemovedSorted = true) : t.Freed (move last empty slots) := by
  obtain ⟨-, hnot, hnodup, hall⟩ := hfreed.pop (Perm.of_eq hremoved.symm)
  have hrest : t.batchUpdateBuilder.removed = rest := hbuilder ▸ (b.movedBuilder_fields rest last empty).1
  refine ⟨?_, fun _ => ?_, fun j hj => ?_⟩
  · rw [hrest]
    exact hnodup
  · have hpair := hfreed.sorted hsorted
    rw [hremoved] at hpair
    rw [hrest]
    exact (pairwise_append.mp hpair).1
  · rw [hrest] at hj
    obtain ⟨hjMax, hjNone⟩ := hfreed.free j ((hall j).mpr (.inr hj))
    rw [hmax, move_apply, if_neg (fun he : j = empty => hnot (he ▸ hj)), hjNone, ite_self]
    exact ⟨hjMax, rfl⟩

lemma Recorded.moveDown (h : Recorded f32 b slots start) (hlastMax : last < b.maxNumReqs)
    (hpooling : t.isPoolingModel = b.isPoolingModel) : Recorded f32 t (move last empty slots) start := by
  obtain ⟨hmem, hnot, -, hall⟩ := hfreed.pop (Perm.of_eq hremoved.symm)
  obtain ⟨hrest, -, hadded⟩ := b.movedBuilder_fields rest last empty
  have hlastNot : last ∉ b.batchUpdateBuilder.removed := by
    intro hin
    rw [(hfreed.free last hin).2] at hlast
    cases hlast
  have hold : ∀ v ∈ b.batchUpdateBuilder.moved, v.aIndex ∉ rest ∧ v.bIndex ∉ rest ∧ v.aIndex < b.maxNumReqs ∧
      v.bIndex < b.maxNumReqs ∧ (v.direct = .unidirectional → v.aIndex ≠ v.bIndex) := by
    intro v hv
    obtain ⟨ha, hb, hrest'⟩ := h.moved v hv
    exact ⟨fun hin => ha ((hall _).mpr (.inr hin)), fun hin => hb ((hall _).mpr (.inr hin)), hrest'⟩
  refine ⟨fun hpool => ?_, fun v hv => ?_, fun a ha => ?_, fun hpool => h.pooling (hpooling.symm.trans hpool)⟩
  · have hnot' : b.isPoolingModel = false := hpooling.symm.trans hpool
    rw [hbuilder]
    unfold movedBuilder
    rw [hnot', if_neg (by decide), applyMoves_append]
    exact (h.tracks hnot').move hlastNot (fun _ => rfl) fun j hj => (hall j).mp hj
  · rw [hbuilder, hrest, hmax]
    rw [hbuilder] at hv
    unfold movedBuilder at hv
    split at hv
    · exact hold v hv
    · rcases mem_append.mp hv with hv | hv
      · exact hold v hv
      · rw [mem_singleton.mp hv]
        exact ⟨fun hin => hlastNot ((hall _).mpr (.inr hin)), hnot, hlastMax, (hfreed.free empty hmem).1,
          fun _ => Nat.ne_of_gt hlt⟩
  · rw [hbuilder, hadded] at ha
    rw [hmax]
    exact h.added a ha

end MoveDown

lemma Inv.moveDown (h : Inv f32 b slots start)
    (hsorted : b.batchUpdateBuilder.isRemovedSorted = true) {rest : List ℕ} {last empty : ℕ}
    (hremoved : b.batchUpdateBuilder.removed = rest ++ [empty]) (hlast : slots last = some r)
    (hlt : empty < last) (hclean : b.MoveClean last empty) :
    ∃ b', b.moveDown last empty = .ok b' ∧ Inv f32 b' (move last empty slots) start ∧
      b'.batchUpdateBuilder.removed = rest ∧ b'.batchUpdateBuilder.isRemovedSorted = true ∧
      b'.reqIds.length = b.reqIds.length ∧ b'.maxNumReqs = b.maxNumReqs := by
  have hempty : slots empty = none := by
    refine (h.freed.free empty ?_).2
    rw [hremoved]
    exact mem_append_right rest (mem_singleton_self empty)
  have hlastLt : last < b.reqIds.length := h.indexed.lt (by rw [hlast]; nofun)
  obtain ⟨hsame, hout⟩ := b.moveColumns_same last empty
  obtain ⟨hrest, hflag, -⟩ := b.movedBuilder_fields rest last empty
  set t : InputBatch G F := { b.moveColumns last empty with
    reqIds := (b.reqIds.set empty (some r.reqId)).set last none
    reqIdToIndex := b.reqIdToIndex.set r.reqId empty
    batchUpdateBuilder := b.movedBuilder rest last empty }
  have hresult : b.moveDown last empty = .ok t := by
    unfold InputBatch.moveDown
    simp only [h.indexed.reqIds_eq hlast, popRemoved_concat _ hsorted hremoved]
    rfl
  have hsame' : b.SameSettings t := ⟨hsame.isPoolingModel, hsame.maxNumReqs, hsame.mask, hsame.needs⟩
  have hkinds : t.Kinds (move last empty slots) := by
    refine h.kinds.of_slots hsame' fun j r' hj => ?_
    rw [move_apply] at hj
    split at hj
    · exact h.kinds.sampling last r' hj
    · split at hj
      · cases hj
      · exact h.kinds.sampling j r' hj
  have hcolumns := h.columns.move h.kinds hlast hempty
    (h.indexed.outputLength ▸ Nat.lt_trans hlt hlastLt) hclean
  have hlastMax := Nat.lt_of_lt_of_le hlastLt h.indexed.bound
  refine ⟨t, hresult, ⟨hcolumns.withIndex _ _ _, hkinds, h.indexed.moveDown hlast hlt hsame.maxNumReqs hempty rfl
    rfl hout, h.freed.moveDown hsame.maxNumReqs hremoved rfl hsorted, h.recorded.moveDown hlast hlt
    hsame.maxNumReqs h.freed hremoved rfl hlastMax hsame.isPoolingModel⟩, hrest, hflag.trans hsorted, ?_,
    hsame.maxNumReqs⟩
  rw [length_set, length_set]

end InputBatch

end CustomAi.Vllm
