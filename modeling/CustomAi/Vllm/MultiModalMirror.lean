import CustomAi.Vllm.MultiModalCache

/-!
# Mirrored multimodal caches

The caches of P0 and P1 keep the same keys in the same order as long as each request accesses its
hashes in the same order of last accesses on both sides, and the earliest item of a hash in the
prompt is the one that P0 sends.
-/

namespace CustomAi.Vllm

open List LRUCache MultiModalProcessorCacheItemMetadata

variable {V U : Type} (getItemSize : V → ℕ) (capacity : ℕ) (recompute : U → ℕ → U)
  (s : String → ℕ) {known : String → Bool} {items : List (MmItem V U)}

def pick (known : String → Bool) (item : MmItem V U) : Option (V × List U) :=
  if known item.mmHash then none else item.data

def senderOps (known : String → Bool) (items : List (MmItem V U)) :
    List (String × Option (MultiModalProcessorCacheItemMetadata U)) :=
  items.map fun item => (item.mmHash, (pick known item).map (metadata getItemSize))

def sends (known : String → Bool) : List (MmItem V U) → List (Option V)
  | [] => []
  | item :: items => (if known item.mmHash then none else item.data.map Prod.fst) ::
      sends (fun mmHash => known mmHash || mmHash = item.mmHash) items

lemma pick_missing {item : MmItem V U} {data : V × List U} (hknown : known item.mmHash = false)
    (hdata : item.data = some data) : pick known item = some data := by
  unfold pick
  rw [hknown, hdata]
  rfl

lemma missingItems_eq (modality : String) (idx : ℕ)
    (h : ∀ item ∈ items, known item.mmHash = false → item.data.isSome) :
    missingItems modality idx (items.zip (items.map fun item => known item.mmHash)) =
      .ok (items.filterMap (pick known)) := by
  induction items generalizing idx with
  | nil => rfl
  | cons item items ih =>
    have hrest := ih (idx + 1) fun item hitem => h item (mem_cons_of_mem _ hitem)
    rw [map_cons, zip_cons_cons, missingItems]
    cases hknown : known item.mmHash with
    | true =>
      have hpick : pick known item = none := if_pos hknown
      rw [if_pos rfl, hrest, filterMap_cons_none hpick]
    | false =>
      obtain ⟨data, hdata⟩ := Option.isSome_iff_exists.mp (h item mem_cons_self hknown)
      rw [hdata, hrest, filterMap_cons_some (pick_missing hknown hdata)]
      rfl

variable {mmHash : String}

variable {c c' : LRUCache String (MultiModalProcessorCacheItemMetadata U)}
  {outs : List (MultiModalProcessorCacheItemMetadata U × Bool)} {x : MmItem V U × ℕ}
  {mods : MmItems V U} {known' : String → Bool} {processed : String → Option V} (idx : ℕ)

lemma senderGetAndUpdateItem_of_ok {out : MultiModalProcessorCacheItemMetadata U × Bool}
    {mmItem : Option (V × List U)}
    (h : getOrSet itemSize capacity (expectedCached mmHash)
      mmHash (mmItem.map (metadata getItemSize)) c = .ok out c') :
    senderGetAndUpdateItem getItemSize capacity mmItem mmHash c =
      .ok (if out.2 then none else mmItem.map Prod.fst, out.1.promptUpdates) c' :=
  eStateM_bind_ok h _

lemma mergeItems_of_ok (h : ∀ item ∈ items, known item.mmHash = false → item.data.isSome)
    (hrun : getOrSetAll itemSize capacity expectedCached
      (senderOps getItemSize known items) c = .ok outs c') :
    ∃ merged, mergeItems getItemSize capacity recompute idx
        (items.map MmItem.mmHash) (items.map fun item => known item.mmHash)
        (items.filterMap (pick known)) c = .ok merged c' ∧ merged.map Prod.fst = zipWith
        (fun item out => if out.2 then none else (pick known item).map Prod.fst) items outs := by
  induction items generalizing c idx outs with
  | nil =>
    cases hrun
    exact ⟨[], rfl, rfl⟩
  | cons item items ih =>
    have h' : ∀ item ∈ items, known item.mmHash = false → item.data.isSome :=
      fun item hitem => h item (mem_cons_of_mem _ hitem)
    unfold senderOps at hrun
    rw [map_cons, getOrSetAll] at hrun
    obtain ⟨out, c1, hstep, hrun⟩ := eStateM_bind_eq_ok.mp hrun
    obtain ⟨outs', c2, hrest, hrun⟩ := eStateM_bind_eq_ok.mp hrun
    cases hrun
    obtain ⟨merged, hmerge, hmerged⟩ := ih (idx + 1) h' hrest
    have hsend := senderGetAndUpdateItem_of_ok getItemSize capacity hstep
    rw [map_cons, map_cons, zipWith_cons_cons]
    cases hknown : known item.mmHash with
    | true =>
      have hpick : pick known item = none := if_pos hknown
      rw [hpick] at hsend ⊢
      rw [filterMap_cons_none hpick, mergeItems, eStateM_bind_ok hsend]
      dsimp only
      rw [eStateM_bind_ok hmerge]
      exact ⟨_, rfl, by rw [map_cons, hmerged]⟩
    | false =>
      obtain ⟨data, hdata⟩ := Option.isSome_iff_exists.mp (h item mem_cons_self hknown)
      have hpick := pick_missing hknown hdata
      rw [hpick] at hsend ⊢
      rw [filterMap_cons_some hpick, mergeItems, eStateM_bind_ok hsend]
      dsimp only
      rw [eStateM_bind_ok hmerge]
      exact ⟨_, rfl, by rw [map_cons, hmerged]⟩

lemma mergeModalities_of_ok (h : ∀ item ∈ mods.flat, known item.mmHash = false → item.data.isSome)
    (hrun : getOrSetAll itemSize capacity expectedCached
      (senderOps getItemSize known mods.flat) c = .ok outs c') :
    ∃ merged, mergeModalities getItemSize capacity recompute (mods.map fun m =>
        ⟨m.2.map MmItem.mmHash, m.2.map fun item => known item.mmHash,
          m.2.filterMap (pick known)⟩) c = .ok merged c' ∧ merged.flatten.map Prod.fst = zipWith
        (fun item out => if out.2 then none else (pick known item).map Prod.fst) mods.flat outs := by
  induction mods generalizing c outs with
  | nil =>
    cases hrun
    exact ⟨[], rfl, rfl⟩
  | cons m mods ih =>
    obtain ⟨modality, items⟩ := m
    have hflat : MmItems.flat ((modality, items) :: mods) = items ++ MmItems.flat mods := rfl
    rw [hflat] at h hrun ⊢
    unfold senderOps at hrun
    rw [map_append] at hrun
    obtain ⟨c1, o, o', ho, ho', rfl, hlen⟩ := getOrSetAll_append hrun
    obtain ⟨merged, hmerge, hmerged⟩ := mergeItems_of_ok getItemSize capacity recompute 0
      (fun item hitem => h item (mem_append_left _ hitem)) ho
    obtain ⟨rest, hrest, hrested⟩ := ih (fun item hitem => h item (mem_append_right _ hitem)) ho'
    rw [length_map] at hlen
    refine ⟨merged :: rest, ?_, ?_⟩
    · rw [map_cons, mergeModalities, eStateM_bind_ok hmerge, eStateM_bind_ok hrest]
      rfl
    · rw [flatten_cons, map_append, hmerged, hrested, zipWith_append hlen.symm]

lemma getCacheMissingItems_eq (h : ∀ item ∈ mods.flat, c.data.contains item.mmHash = false → item.data.isSome) :
    getCacheMissingItems c mods = .ok (mods.map fun m =>
      ⟨m.2.map MmItem.mmHash, m.2.map fun item => c.data.contains item.mmHash,
        m.2.filterMap (pick c.data.contains)⟩) := by
  induction mods with
  | nil => rfl
  | cons m mods ih =>
    obtain ⟨modality, items⟩ := m
    have hmissing := missingItems_eq modality 0
      fun item hitem => h item (mem_append_left _ hitem)
    rw [getCacheMissingItems, isCached, hmissing]
    rw [ih fun item hitem => h item (mem_append_right _ hitem)]
    rfl

section

variable (hle : ∀ mmHash, known mmHash = true → known' mmHash = true)
include hle

lemma zipWith_hits {υ : Type} {op : MmItem V U → Option υ} {outs : List (υ × Bool)}
    (h : outs.map Prod.snd = hits known' (items.map fun item => (item.mmHash, op item))) :
    zipWith (fun item out => if out.2 then none else (pick known item).map Prod.fst)
      items outs = sends known' items := by
  induction items generalizing known' outs with
  | nil => rfl
  | cons item items ih =>
    rw [map_cons] at h
    obtain ⟨out, outs', rfl, hout, houts⟩ := map_eq_cons_iff.mp h
    rw [zipWith_cons_cons, sends, hout, ih (fun mmHash hk => ?_) houts]
    · cases hk : known' item.mmHash with
      | true => rfl
      | false =>
        have hnot : known item.mmHash = false := by
          rw [← Bool.not_eq_true]
          intro hyes
          rw [hle _ hyes] at hk
          cases hk
        rw [pick, hnot]
        rfl
    · rw [hle mmHash hk]
      rfl

lemma supplied_senderOps
    (hsize : ∀ item ∈ items, ∀ data, item.data = some data → getItemSize data.1 = s item.mmHash)
    (hgiven : ∀ item ∈ items, known item.mmHash = false → item.data.isSome) :
    Supplied s itemSize known' (senderOps getItemSize known items) := by
  induction items generalizing known' with
  | nil => trivial
  | cons item items ih =>
    refine ⟨fun hnot => ?_, ih (fun mmHash hk => ?_)
      (fun item hitem => hsize item (mem_cons_of_mem _ hitem))
      (fun item hitem => hgiven item (mem_cons_of_mem _ hitem))⟩
    · have hknown : known item.mmHash = false := by
        rw [← Bool.not_eq_true]
        intro hyes
        rw [hle _ hyes] at hnot
        cases hnot
      obtain ⟨data, hdata⟩ := Option.isSome_iff_exists.mp (hgiven item mem_cons_self hknown)
      have hpick : pick known item = some data := by
        unfold pick
        rw [hknown, hdata]
        rfl
      exact ⟨metadata getItemSize data, congrArg (Option.map (metadata getItemSize)) hpick,
        hsize item mem_cons_self data hdata⟩
    · rw [hle mmHash hk]
      rfl

end

lemma mergeMmKwargs_spec (hfull : Full s itemSize capacity c)
    (hsize : ∀ item ∈ mods.flat, ∀ data, item.data = some data → getItemSize data.1 = s item.mmHash)
    (hgiven : ∀ item ∈ mods.flat, c.data.contains item.mmHash = false → item.data.isSome)
    (hfits : ((mods.flat.map MmItem.mmHash).dedup.map s).sum ≤ capacity) :
    ∃ modalities c' merged, getCacheMissingItems c mods = .ok modalities ∧
      mergeMmKwargs getItemSize capacity recompute modalities c = .ok merged c' ∧
      merged.flatten.map Prod.fst = sends c.data.contains mods.flat ∧
      Full s itemSize capacity c' ∧
      c'.order = accessed s capacity c.order (mods.flat.map MmItem.mmHash) := by
  have hkeys : (senderOps getItemSize c.data.contains mods.flat).map Prod.fst = mods.flat.map MmItem.mmHash := by
    unfold senderOps
    rw [map_map]
    rfl
  rw [← hkeys] at hfits
  obtain ⟨c', outs, hrun, hfull', horder, -, -, hhits, -⟩ := access_spec expectedCached hfull
    hfits (supplied_senderOps getItemSize s (fun _ hk => hk) hsize hgiven)
  rw [hkeys] at hrun horder
  obtain ⟨merged, hmerge, hmerged⟩ := mergeModalities_of_ok getItemSize capacity recompute hgiven hrun
  have htouched : ∀ mods : MmItems V U, (mods.map fun m =>
      (⟨m.2.map MmItem.mmHash, m.2.map fun item => c.data.contains item.mmHash,
        m.2.filterMap (pick c.data.contains)⟩ : MmModality V U)).flatMap MmModality.hashes =
          mods.flat.map MmItem.mmHash := by
    intro mods
    unfold MmItems.flat
    rw [flatMap_map, map_flatMap]
  refine ⟨_, c', merged, getCacheMissingItems_eq hgiven, ?_, ?_, hfull', horder⟩
  · unfold mergeMmKwargs mergedHashes
    rw [htouched]
    exact hmerge
  · rw [hmerged]
    exact zipWith_hits (fun _ hk => hk) hhits

lemma sends_of_find? {n idx : ℕ} {item : MmItem V U} (hknown : known mmHash = false)
    (h : (items.zipIdx n).find? (fun x => x.1.mmHash = mmHash) = some (item, idx)) :
    ∃ j, idx = n + j ∧ ((sends known items)[j]?).join = item.data.map Prod.fst ∧
      items.find? (fun x => x.mmHash = mmHash) = some item := by
  induction items generalizing n known with
  | nil => cases h
  | cons x items ih =>
    rw [zipIdx_cons, find?_cons] at h
    rw [find?_cons]
    by_cases hx : x.mmHash = mmHash
    · rw [decide_eq_true hx] at h ⊢
      obtain ⟨rfl, rfl⟩ := Prod.mk.inj (Option.some.inj h)
      refine ⟨0, rfl, ?_, rfl⟩
      rw [sends, hx, hknown]
      rfl
    · rw [decide_eq_false hx] at h ⊢
      let known' : String → Bool := fun h => known h || h = x.mmHash
      have hknown' : known' mmHash = false := by simp [known', hknown, Ne.symm hx]
      obtain ⟨j, rfl, hj, hfind⟩ := ih hknown' h
      exact ⟨j + 1, by omega, hj, hfind⟩

lemma recordItem_of_ne {mmHash' : String} (h : mmHash ≠ mmHash') (kwargs : Option V) :
    recordItem processed mmHash' kwargs mmHash = processed mmHash := by
  cases kwargs with
  | none => rfl
  | some v => exact Function.update_of_ne h _ _

lemma record_sends : record processed (items.zip (sends known items)) mmHash =
      if known mmHash then processed mmHash else
        match (items.find? fun item => item.mmHash = mmHash).bind MmItem.data with
        | some data => some data.1
        | none => processed mmHash := by
  induction items generalizing known processed with
  | nil => simp [record]
  | cons item items ih =>
    rw [sends, zip_cons_cons, record, foldl_cons]
    refine ih.trans ?_
    rw [find?_cons]
    by_cases hitem : item.mmHash = mmHash
    · subst hitem
      rw [decide_eq_true rfl, Bool.or_true]
      cases hknown : known item.mmHash with
      | true => rfl
      | false =>
        dsimp only [Option.bind_some]
        cases item.data with
        | none => rfl
        | some data => exact Function.update_self _ _ _
    · rw [decide_eq_false hitem, decide_eq_false (Ne.symm hitem), Bool.or_false, recordItem_of_ne (Ne.symm hitem)]

lemma record_of_known (h : known mmHash = true) :
    record processed (items.zip (sends known items)) mmHash = processed mmHash := by
  rw [record_sends, if_pos h]

lemma record_of_not_mem (h : mmHash ∉ items.map MmItem.mmHash) :
    record processed (items.zip (sends known items)) mmHash = processed mmHash := by
  have hnone : items.find? (fun item => item.mmHash = mmHash) = none := by
    rw [find?_eq_none]
    intro item hitem
    simp only [decide_eq_true_eq]
    rintro rfl
    exact h (mem_map_of_mem hitem)
  rw [record_sends, hnone]
  split <;> rfl

/-- The sizes are those of the hashes, items that are not cached have data, and all fit. -/
structure MmRequest.Valid (st : MmCaches V U) (r : MmRequest V U) : Prop where
  size : ∀ item ∈ r.items.flat, ∀ data, item.data = some data → getItemSize data.1 = s item.mmHash
  given : ∀ item ∈ r.items.flat, st.p0.data.contains item.mmHash = false → item.data.isSome
  fits : ((r.items.flat.map MmItem.mmHash).dedup.map s).sum ≤ capacity

/-- The prompt and the modalities have the hashes in one order, and the keys of P1 are the hashes. -/
structure MmRequest.Aligned (st : MmCaches V U) (r : MmRequest V U) : Prop where
  last : (r.items.flat.map MmItem.mmHash).dedup = ((argsortMmPositions r.items.flat).map fun x => x.1.mmHash).dedup
  first : ∀ mmHash, st.p0.data.contains mmHash = false →
    (argsortMmPositions r.items.flat).find? (fun x => x.1.mmHash = mmHash) =
      r.items.flat.zipIdx.find? fun x => x.1.mmHash = mmHash
  keys : ∀ item ∈ r.items.flat, item.mmHash = "" → r.lora = none

structure Mirrored (st : MmCaches V U) : Prop where
  p0 : Full s MultiModalProcessorCacheItemMetadata.itemSize capacity st.p0
  p1 : Full s getItemSize capacity st.p1
  order : st.p0.order = st.p1.order
  values : ∀ mmHash v, st.p1.data.get? mmHash = some v → st.processed mmHash = some v

lemma cacheKey_eq {lora : Option String} {data : Option V}
    (h : mmHash = "" → lora = none) :
    MmFeatureSpec.cacheKey ⟨mmHash, getMmIdentifier lora mmHash, data⟩ = mmHash := by
  unfold MmFeatureSpec.cacheKey
  split
  · rfl
  · next hempty =>
    rw [h (not_not.mp hempty)]
    rfl

lemma mem_of_mem_argsort (h : x ∈ argsortMmPositions items) : x.1 ∈ items := by
  have hmem := (perm_insertionSort _ _).subset h
  exact fst_mem_of_mem_zipIdx hmem

lemma mem_argsort_hash : mmHash ∈ (argsortMmPositions items).map (fun x => x.1.mmHash) ↔
      mmHash ∈ items.map MmItem.mmHash := by
  have hperm : ((argsortMmPositions items).map fun x => x.1.mmHash).Perm
      (items.zipIdx.map fun x => x.1.mmHash) := (perm_insertionSort _ _).map _
  have hzip : (items.zipIdx.map fun x => x.1.mmHash) = items.map MmItem.mmHash := by
    show items.zipIdx.map (MmItem.mmHash ∘ Prod.fst) = _
    rw [← map_map, zipIdx_map_fst]
  rw [hperm.mem_iff, hzip]

variable {getItemSize capacity s} {st : MmCaches V U} {r : MmRequest V U}

lemma exists_sent (hv : r.Valid getItemSize capacity s st) (ha : r.Aligned st)
    (hknown : st.p0.data.contains mmHash = false)
    (hmem : mmHash ∈ (argsortMmPositions r.items.flat).map fun x => x.1.mmHash) :
    ∃ (x : MmItem V U × ℕ) (data : V × List U),
      (argsortMmPositions r.items.flat).find? (fun x => x.1.mmHash = mmHash) = some x ∧
      ((sends st.p0.data.contains r.items.flat)[x.2]?).join = some data.1 ∧ getItemSize data.1 = s mmHash ∧
      record st.processed (r.items.flat.zip (sends st.p0.data.contains r.items.flat)) mmHash = some data.1 := by
  obtain ⟨y, hy, hyhash⟩ := mem_map.mp hmem
  have hsome : ((argsortMmPositions r.items.flat).find? fun x => x.1.mmHash = mmHash).isSome := by
    rw [find?_isSome]
    exact ⟨y, hy, decide_eq_true hyhash⟩
  obtain ⟨⟨item, idx⟩, hfind⟩ := Option.isSome_iff_exists.mp hsome
  have hhash : item.mmHash = mmHash := by simpa using find?_some hfind
  have hitem : item ∈ r.items.flat := mem_of_mem_argsort (mem_of_find?_eq_some hfind)
  obtain ⟨j, rfl, hj, hfirst⟩ := sends_of_find? hknown ((ha.first mmHash hknown).symm.trans hfind)
  obtain ⟨data, hdata⟩ := Option.isSome_iff_exists.mp (hv.given item hitem (hhash ▸ hknown))
  refine ⟨_, data, hfind, ?_, hhash ▸ hv.size item hitem data hdata, ?_⟩
  · rw [Nat.zero_add, hj, hdata]
    rfl
  · rw [record_sends, hknown, if_neg Bool.false_ne_true, hfirst, Option.bind_some, hdata]

lemma getAndUpdateFeatures_spec (hm : Mirrored getItemSize capacity s st)
    (hv : r.Valid getItemSize capacity s st) (ha : r.Aligned st) :
    ∃ c' out, getAndUpdateFeatures getItemSize capacity
        (mmFeatures r.lora r.items.flat (sends st.p0.data.contains r.items.flat)) st.p1 = .ok out c' ∧
      Full s getItemSize capacity c' ∧ c'.order = accessed s capacity st.p1.order
        ((argsortMmPositions r.items.flat).map fun x => x.1.mmHash) ∧
      (∀ mmHash v, c'.data.get? mmHash = some v → record st.processed
        (r.items.flat.zip (sends st.p0.data.contains r.items.flat)) mmHash = some v) ∧
      out.map some = (argsortMmPositions r.items.flat).map fun x => record st.processed
        (r.items.flat.zip (sends st.p0.data.contains r.items.flat)) x.1.mmHash := by
  set sorted := argsortMmPositions r.items.flat with hsorted
  set kwargs := sends st.p0.data.contains r.items.flat
  let op : MmItem V U × ℕ → String × Option V := fun x => (x.1.mmHash, (kwargs[x.2]?).join)
  have hknown : st.p0.data.contains = st.p1.data.contains := by
    funext k
    rw [Bool.eq_iff_iff, hm.p0.contains_iff, hm.p1.contains_iff, hm.order]
  have hkey : ∀ x ∈ sorted, MmFeatureSpec.cacheKey ⟨x.1.mmHash,
      getMmIdentifier r.lora x.1.mmHash, (kwargs[x.2]?).join⟩ = x.1.mmHash :=
    fun x hx => cacheKey_eq (ha.keys x.1 (mem_of_mem_argsort hx))
  have hkeys : (mmFeatures r.lora r.items.flat kwargs).map MmFeatureSpec.cacheKey =
      sorted.map fun x => x.1.mmHash := by
    unfold mmFeatures
    rw [map_map]
    exact map_congr_left hkey
  have hops : featureItems (mmFeatures r.lora r.items.flat kwargs) = sorted.map op := by
    unfold featureItems mmFeatures
    rw [map_map]
    exact map_congr_left fun x hx => congrArg (·, (kwargs[x.2]?).join) (hkey x hx)
  have hopkeys : (sorted.map op).map Prod.fst = sorted.map fun x => x.1.mmHash := by
    rw [map_map]
    rfl
  have hsup : Supplied s getItemSize st.p1.data.contains (sorted.map op) := by
    rw [← hknown]
    refine supplied_of_split fun l o l' heq ho hl => ?_
    obtain ⟨a, a', ha', rfl, hrest⟩ := map_eq_append_iff.mp heq
    obtain ⟨x, a'', rfl, rfl, -⟩ := map_eq_cons_iff.mp hrest
    have hx : sorted.find? (fun y => y.1.mmHash = x.1.mmHash) = some x := by
      have hnone : a.find? (fun y => y.1.mmHash = x.1.mmHash) = none := by
        rw [find?_eq_none]
        intro y hy
        rw [decide_eq_true_eq]
        intro hhash
        exact hl (mem_map.mpr ⟨op y, mem_map_of_mem hy, hhash⟩)
      rw [ha', find?_append, hnone, Option.none_or]
      exact find?_cons_of_pos (decide_eq_true rfl)
    obtain ⟨y, data, hfind, hsent, hsize, -⟩ := exists_sent hv ha ho
      (mem_map.mpr ⟨x, by rw [← hsorted, ha']; simp, rfl⟩)
    obtain rfl : x = y := Option.some.inj (hx.symm.trans hfind)
    exact ⟨data.1, hsent, hsize⟩
  have hfits : (((sorted.map op).map Prod.fst).dedup.map s).sum ≤ capacity := by
    rw [hopkeys, ← ha.last]
    exact hv.fits
  obtain ⟨c', outs, hrun, hfull, horder, hnew, hold, -, houts⟩ := access_spec expectedCached hm.p1 hfits hsup
  rw [hopkeys] at hrun horder hnew hold
  have hvalue : ∀ mmHash ∈ sorted.map (fun x => x.1.mmHash), valueOf st.p1.data (sorted.map op) mmHash =
        record st.processed (r.items.flat.zip kwargs) mmHash := by
    intro mmHash hmem
    cases hget : st.p1.data.get? mmHash with
    | some v =>
      have hyes : st.p0.data.contains mmHash = true := by
        rw [hknown]
        unfold Dict.contains
        rw [hget]
        rfl
      rw [valueOf_of_some hget, record_of_known hyes, hm.values mmHash v hget]
    | none =>
      have hnot : st.p0.data.contains mmHash = false := by
        rw [hknown]
        unfold Dict.contains
        rw [hget]
        rfl
      obtain ⟨y, data, hfind, hsent, -, hrecord⟩ := exists_sent hv ha hnot hmem
      have hfind' : sorted.find? ((fun o => decide (o.1 = mmHash)) ∘ op) = some y := hfind
      rw [valueOf_eq_find? hget, find?_map, hfind', hrecord]
      exact hsent
  refine ⟨c', outs.map Prod.fst, ?_, hfull, horder, fun mmHash v hget => ?_, ?_⟩
  · unfold getAndUpdateFeatures
    rw [hkeys, hops, eStateM_bind_ok hrun]
    rfl
  · by_cases hmem : mmHash ∈ sorted.map fun x => x.1.mmHash
    · rw [← hvalue mmHash hmem, ← hnew mmHash hmem, hget]
    · have hin : mmHash ∈ c'.order := hfull.listed mmHash (by
        unfold Dict.contains
        rw [hget]
        rfl)
      rw [hold mmHash hin hmem] at hget
      rw [record_of_not_mem (fun h => hmem (mem_argsort_hash.mpr h))]
      exact hm.values mmHash v hget
  · rw [map_map, show (some ∘ Prod.fst : V × Bool → Option V) = fun out => some out.1 from rfl, houts, map_map]
    exact map_congr_left fun x hx => hvalue x.1.mmHash (mem_map.mpr ⟨x, hx, rfl⟩)

variable (getItemSize capacity s)

/-- The caches stay mirrored, and the engine gets the items of the request. -/
theorem handleRequest_spec (hm : Mirrored getItemSize capacity s st)
    (hv : r.Valid getItemSize capacity s st) (ha : r.Aligned st) :
    ∃ st' out, handleRequest getItemSize capacity recompute st r = .ok (st', out) ∧
      Mirrored getItemSize capacity s st' ∧
      out.map some = (argsortMmPositions r.items.flat).map fun x => st'.processed x.1.mmHash := by
  obtain ⟨modalities, p0, merged, hmissing, hmerge, hsent, hfull0, horder0⟩ :=
    mergeMmKwargs_spec getItemSize capacity recompute s hm.p0 hv.size hv.given hv.fits
  obtain ⟨p1, out, hrun, hfull1, horder1, hvalues, hout⟩ := getAndUpdateFeatures_spec hm hv ha
  refine ⟨⟨p0, p1, record st.processed (r.items.flat.zip (sends st.p0.data.contains r.items.flat))⟩,
    out, ?_, ⟨hfull0, hfull1, ?_, hvalues⟩, hout⟩
  · unfold handleRequest
    rw [hmissing, Except.mapError, ok_bind, hmerge, outcome, ok_bind]
    dsimp only
    rw [hsent, hrun]
    rfl
  · rw [horder0, horder1, hm.order, accessed_congr ha.last]

def mmStep (st : MmCaches V U) (r : MmRequest V U) : Except CacheFailure (MmCaches V U) :=
  (handleRequest getItemSize capacity recompute st r).map Prod.fst

def MmCaches.start : MmCaches V U := ⟨.empty, .empty, fun _ => none⟩

lemma mirrored_start : Mirrored getItemSize capacity s (.start : MmCaches V U) :=
  ⟨full_empty, full_empty, rfl, nofun⟩

lemma Mirrored.contains_eq {getItemSize : V → ℕ} {capacity : ℕ} {s : String → ℕ}
    (hm : Mirrored getItemSize capacity s st) (mmHash : String) :
    st.p0.data.contains mmHash = st.p1.data.contains mmHash := by
  rw [Bool.eq_iff_iff, hm.p0.contains_iff, hm.p1.contains_iff, hm.order]

/-- In a run of aligned requests the caches have the same keys, and the next one is handled on both. -/
theorem multimodal_caches_mirror {st : MmCaches V U} (h : Reaches (mmStep getItemSize capacity recompute)
      (fun st r => r.Valid getItemSize capacity s st ∧ r.Aligned st) .start st) :
    (∀ mmHash, st.p0.data.contains mmHash = st.p1.data.contains mmHash) ∧
      ∀ r : MmRequest V U, r.Valid getItemSize capacity s st → r.Aligned st →
        ∃ st' out, handleRequest getItemSize capacity recompute st r = .ok (st', out) ∧
          (∀ mmHash, st'.p0.data.contains mmHash = st'.p1.data.contains mmHash) ∧ out.map some =
            (argsortMmPositions r.items.flat).map fun x => st'.processed x.1.mmHash := by
  have hm : Mirrored getItemSize capacity s st := by
    refine h.invariant (mirrored_start getItemSize capacity s) fun st r st' hm hr hstep => ?_
    obtain ⟨st'', out, hrun, hm', -⟩ := handleRequest_spec getItemSize capacity recompute s hm hr.1 hr.2
    unfold mmStep at hstep
    rw [hrun] at hstep
    rw [← Except.ok.inj hstep]
    exact hm'
  refine ⟨hm.contains_eq, fun r hv ha => ?_⟩
  obtain ⟨st', out, hrun, hm', hout⟩ := handleRequest_spec getItemSize capacity recompute s hm hv ha
  exact ⟨st', out, hrun, hm'.contains_eq, hout⟩

def unitItem (mmHash : String) (offset : ℕ) : MmItem ℕ Unit := ⟨mmHash, some (offset, []), offset⟩

def imageAndAudio : MmRequest ℕ Unit :=
  ⟨[("image", [unitItem "a" 10]), ("audio", [unitItem "b" 5])], none⟩

def imageThenAudio : MmRequest ℕ Unit :=
  ⟨[("image", [unitItem "a" 5]), ("audio", [unitItem "b" 10])], none⟩

def oneImage : MmRequest ℕ Unit := ⟨[("image", [unitItem "c" 0])], none⟩

lemma valid_unitItems {st : MmCaches ℕ Unit} {r : MmRequest ℕ Unit}
    (h : ∀ item ∈ r.items.flat, item.data = some (item.offset, []))
    (hlen : (r.items.flat.map MmItem.mmHash).dedup.length ≤ 2) : r.Valid (fun _ => 1) 2 (fun _ => 1) st := by
  refine ⟨fun _ _ _ _ => rfl, fun item hitem _ => by rw [h item hitem]; rfl, ?_⟩
  simpa using hlen

/-- The second request evicts the image of the first one on both sides. -/
theorem multimodal_caches_mirror_in_order :
    let st := nextState (mmStep (fun _ => 1) 2 fun update _ => update)
      (nextState (mmStep (fun _ => 1) 2 fun update _ => update) .start imageThenAudio) oneImage
    st.p0.data.contains "a" = false ∧ st.p1.data.contains "a" = false := by
  have hfirst : imageThenAudio.Valid (fun _ => 1) 2 (fun _ => 1) .start ∧ imageThenAudio.Aligned .start :=
    ⟨valid_unitItems (by decide) (by decide), by decide, fun _ _ => rfl, by decide⟩
  have hreach : Reaches (mmStep (fun _ => 1) 2 fun update _ => update)
      (fun st r => r.Valid (fun _ => 1) 2 (fun _ => 1) st ∧ r.Aligned st) .start
      (nextState (mmStep (fun _ => 1) 2 fun update _ => update) .start imageThenAudio) :=
    Reaches.start.next hfirst (by decide)
  have hsecond := hreach.next (a := oneImage) ⟨valid_unitItems (by decide) (by decide),
    by decide, fun _ _ => rfl, by decide⟩ (by decide)
  have hevicted := (multimodal_caches_mirror (fun _ => 1) 2 (fun update _ => update) (fun _ => 1) hsecond).1 "a"
  exact ⟨by decide, hevicted.symm.trans (by decide)⟩

/-- P0 evicts the image for the next one, and P1 the audio. -/
theorem multimodal_caches_diverge : ¬ ∀ st : MmCaches ℕ Unit, Reaches (mmStep (fun _ => 1) 2 fun update _ => update)
      (fun st r => r.Valid (fun _ => 1) 2 (fun _ => 1) st) .start st →
    ∀ mmHash, st.p0.data.contains mmHash = st.p1.data.contains mmHash := by
  intro hall
  have hfirst : Reaches (mmStep (fun _ => 1) 2 fun update _ => update)
      (fun st r => r.Valid (fun _ => 1) 2 (fun _ => 1) st) .start
      (nextState (mmStep (fun _ => 1) 2 fun update _ => update) .start imageAndAudio) :=
    Reaches.start.next (valid_unitItems (by decide) (by decide)) (by decide)
  have hsecond := hall _ (hfirst.next (a := oneImage) (valid_unitItems (by decide) (by decide))
    (by decide)) "a"
  revert hsecond
  decide

end CustomAi.Vllm
