import Mathlib.Data.List.Sort
import CustomAi.Lib.LRUCalls
import CustomAi.Lib.Run

/-!
# Multimodal caches

`_get_cache_missing_items` and `_merge_mm_kwargs` on a `MultiModalProcessorSenderCache` (P0), the
features that `process_inputs` sends, and `get_and_update_features` of a `MultiModalReceiverCache`
(P1). What the processor makes of an item is its kwargs item and its prompt updates.
-/

namespace CustomAi.Vllm

open List LRUCache

variable {V U : Type}

structure MultiModalProcessorCacheItemMetadata (U : Type) where
  itemSize : ℕ
  promptUpdates : List U

abbrev SenderCache (U : Type) := LRUCache String (MultiModalProcessorCacheItemMetadata U)

structure MmItem (V U : Type) where
  mmHash : String
  data : Option (V × List U)
  offset : ℕ

abbrev MmItems (V U : Type) := List (String × List (MmItem V U))

def MmItems.flat (items : MmItems V U) : List (MmItem V U) := items.flatMap Prod.snd

def isCached {υ : Type} (cache : LRUCache String υ) (items : List (MmItem V U)) : List Bool :=
  items.map fun item => cache.data.contains item.mmHash

def expectedCached (mmHash : String) : PyError :=
  .assertionError ("Expected a cached item for mm_hash='" ++ mmHash ++ "'")

section Sender

variable (getItemSize : V → ℕ) (capacity : ℕ) (recompute : U → ℕ → U)

def missingItems (modality : String) : ℕ → List (MmItem V U × Bool) →
    Except PyError (List (V × List U))
  | _, [] => .ok []
  | idx, (item, cached) :: items =>
    if cached then missingItems modality (idx + 1) items
    else
      match item.data with
      | none => .error (.valueError (s!"Cache miss for {modality} at index {idx} " ++
          "but data is not provided."))
      | some data => do
        let rest ← missingItems modality (idx + 1) items
        return data :: rest

/-- The inputs of `_merge_mm_kwargs` for one modality. -/
structure MmModality (V U : Type) where
  hashes : List String
  isCached : List Bool
  missing : List (V × List U)

/-- `_get_cache_missing_items`, and the processor on these items. -/
def getCacheMissingItems (cache : LRUCache String (MultiModalProcessorCacheItemMetadata U)) :
    MmItems V U → Except PyError (List (MmModality V U))
  | [] => .ok []
  | (modality, items) :: rest => do
    let missing ← missingItems modality 0 (items.zip (isCached cache items))
    let rest ← getCacheMissingItems cache rest
    return ⟨items.map MmItem.mmHash, isCached cache items, missing⟩ :: rest

def metadata (item : V × List U) : MultiModalProcessorCacheItemMetadata U :=
  ⟨getItemSize item.1, item.2⟩

/-- `MultiModalProcessorSenderCache.get_and_update_item` -/
def senderGetAndUpdateItem (mmItem : Option (V × List U)) (mmHash : String) :
    EStateM CacheFailure (SenderCache U) (Option V × List U) := do
  let (cached, hit) ← getOrSet MultiModalProcessorCacheItemMetadata.itemSize capacity
    (expectedCached mmHash) mmHash (mmItem.map (metadata getItemSize))
  return (if hit then none else mmItem.map Prod.fst, cached.promptUpdates)

/-- The loop of `_merge_mm_kwargs` over the items of one modality. -/
def mergeItems : ℕ → List String → List Bool → List (V × List U) →
    EStateM CacheFailure (SenderCache U) (List (Option V × List U))
  | _, [], _, _ => pure []
  | itemIdx, itemHash :: hashes, true :: isCached, missing => do
    let (kwargs, updates) ← senderGetAndUpdateItem getItemSize capacity none itemHash
    let merged ← mergeItems (itemIdx + 1) hashes isCached missing
    return (kwargs, updates.map fun update => recompute update itemIdx) :: merged
  | itemIdx, itemHash :: hashes, false :: isCached, item :: missing => do
    let (kwargs, updates) ← senderGetAndUpdateItem getItemSize capacity (some item) itemHash
    let merged ← mergeItems (itemIdx + 1) hashes isCached missing
    return (kwargs, updates.map fun update => recompute update itemIdx) :: merged
  | _, _ :: _, false :: _, [] => throw (.raised .indexError)
  | _, _ :: _, [], _ => throw (.raised .indexError)

def mergeModalities : List (MmModality V U) →
    EStateM CacheFailure (SenderCache U) (List (List (Option V × List U)))
  | [] => pure []
  | m :: rest => do
    let merged ← mergeItems getItemSize capacity recompute 0 m.hashes m.isCached m.missing
    let rest ← mergeModalities rest
    return merged :: rest

def mergedHashes (modalities : List (MmModality V U)) : List String :=
  modalities.flatMap MmModality.hashes

def mergeMmKwargs (modalities : List (MmModality V U)) :
    EStateM CacheFailure (SenderCache U) (List (List (Option V × List U))) := fun cache =>
  mergeModalities getItemSize capacity recompute modalities ((mergedHashes modalities).foldl touch cache)

end Sender

/-- `MultiModalFeatureSpec`, as far as the receiver cache reads it -/
structure MmFeatureSpec (V : Type) where
  mmHash : String
  identifier : String
  data : Option V

/-- `_get_mm_identifier`, where `lora` is the name of a LoRA on the tower connector. -/
def getMmIdentifier (lora : Option String) (mmHash : String) : String :=
  match lora with
  | none => mmHash
  | some name => name ++ ":" ++ mmHash

/-- `argsort_mm_positions`, for the items modality by modality -/
def argsortMmPositions (items : List (MmItem V U)) : List (MmItem V U × ℕ) :=
  items.zipIdx.insertionSort fun x y => x.1.offset ≤ y.1.offset

/-- The features of `process_inputs`. -/
def mmFeatures (lora : Option String) (items : List (MmItem V U)) (kwargs : List (Option V)) :
    List (MmFeatureSpec V) :=
  (argsortMmPositions items).map fun (item, idx) =>
    ⟨item.mmHash, getMmIdentifier lora item.mmHash, (kwargs[idx]?).join⟩

/-- `feature.mm_hash or feature.identifier` -/
def MmFeatureSpec.cacheKey (feature : MmFeatureSpec V) : String :=
  if feature.mmHash ≠ "" then feature.mmHash else feature.identifier

def featureItems (features : List (MmFeatureSpec V)) : List (String × Option V) :=
  features.map fun feature => (feature.cacheKey, feature.data)

/-- `get_and_update_features` of a `MultiModalReceiverCache` -/
def getAndUpdateFeatures (getItemSize : V → ℕ) (capacity : ℕ)
    (features : List (MmFeatureSpec V)) : EStateM CacheFailure (LRUCache String V) (List V) :=
  fun cache =>
    (getOrSetAll getItemSize capacity expectedCached (featureItems features) >>= fun out =>
      pure (out.map Prod.fst)) ((features.map MmFeatureSpec.cacheKey).foldl touch cache)

structure MmCaches (V U : Type) where
  p0 : LRUCache String (MultiModalProcessorCacheItemMetadata U)
  p1 : LRUCache String V
  processed : String → Option V

structure MmRequest (V U : Type) where
  items : MmItems V U
  lora : Option String

def recordItem (processed : String → Option V) (mmHash : String) :
    Option V → String → Option V
  | none => processed
  | some v => Function.update processed mmHash (some v)

def record (processed : String → Option V) (sent : List (MmItem V U × Option V)) :
    String → Option V :=
  sent.foldl (fun processed x => recordItem processed x.1.mmHash x.2) processed

def handleRequest (getItemSize : V → ℕ) (capacity : ℕ) (recompute : U → ℕ → U) (s : MmCaches V U)
    (r : MmRequest V U) : Except CacheFailure (MmCaches V U × List V) := do
  let modalities ← (getCacheMissingItems s.p0 r.items).mapError .raised
  let (p0, merged) ← outcome (mergeMmKwargs getItemSize capacity recompute modalities s.p0)
  let kwargs := merged.flatten.map Prod.fst
  let (p1, out) ← outcome (getAndUpdateFeatures getItemSize capacity
    (mmFeatures r.lora r.items.flat kwargs) s.p1)
  return (⟨p0, p1, record s.processed (r.items.flat.zip kwargs)⟩, out)

/-!
## Calls that raise

When the items of every call are cached or given, and fit together, every call ends and the order
of the cache has the cached keys only. A touched item that is never inserted stays in the order, and
a later eviction does not end.
-/

section

variable (getItemSize : V → ℕ) (capacity : ℕ) (recompute : U → ℕ → U)

variable {modalities : List (MmModality V U)} (cache : SenderCache U) (mmItem : Option (V × List U))
  (features : List (MmFeatureSpec V)) (mmHash : String) (itemIdx : ℕ)

def itemAccesses : List String → List Bool → List (V × List U) →
    List (String × Option (MultiModalProcessorCacheItemMetadata U)) × Bool
  | [], _, _ => ([], true)
  | itemHash :: hashes, true :: isCached, missing =>
    let (ops, complete) := itemAccesses hashes isCached missing
    ((itemHash, none) :: ops, complete)
  | itemHash :: hashes, false :: isCached, item :: missing =>
    let (ops, complete) := itemAccesses hashes isCached missing
    ((itemHash, some (metadata getItemSize item)) :: ops, complete)
  | _ :: _, false :: _, [] => ([], false)
  | _ :: _, [], _ => ([], false)

def mergeAccesses : List (MmModality V U) →
    List (String × Option (MultiModalProcessorCacheItemMetadata U)) × Bool
  | [] => ([], true)
  | m :: rest =>
    let (ops, complete) := itemAccesses getItemSize m.hashes m.isCached m.missing
    if complete then (ops ++ (mergeAccesses rest).1, (mergeAccesses rest).2) else (ops, false)

variable {getItemSize capacity recompute}

lemma bare_senderGetAndUpdateItem (c : SenderCache U) :
    bare (senderGetAndUpdateItem getItemSize capacity mmItem mmHash c) =
      bare (getOrSet MultiModalProcessorCacheItemMetadata.itemSize capacity
        (expectedCached mmHash) mmHash (mmItem.map (metadata getItemSize)) c) := by
  exact bare_bind_pure _ _ _

lemma bare_mergeItems (hashes : List String) (isCached : List Bool) (missing : List (V × List U))
    (c : SenderCache U) : bare (mergeItems getItemSize capacity recompute itemIdx hashes isCached missing c) =
      bare ((getOrSetAll MultiModalProcessorCacheItemMetadata.itemSize capacity expectedCached
        (itemAccesses getItemSize hashes isCached missing).1 >>= fun _ =>
          if (itemAccesses getItemSize hashes isCached missing).2 then pure ()
          else throw (.raised .indexError)) c) := by
  induction hashes generalizing itemIdx isCached missing c with
  | nil => rfl
  | cons itemHash hashes ih =>
    cases isCached with
    | nil => rfl
    | cons cached isCached =>
      cases cached with
      | true =>
        unfold mergeItems itemAccesses
        rw [getOrSetAll, bind_assoc]
        refine bare_bind_congr (bare_senderGetAndUpdateItem none itemHash c) fun p out t => ?_
        rw [bare_bind_pure, ih, bind_assoc]
        refine bare_bind_congr rfl fun outs outs' t' => ?_
        rw [pure_bind]
      | false =>
        cases missing with
        | nil => rfl
        | cons item missing =>
          unfold mergeItems itemAccesses
          rw [getOrSetAll, bind_assoc]
          refine bare_bind_congr (bare_senderGetAndUpdateItem (some item) itemHash c)
            fun p out t => ?_
          rw [bare_bind_pure, ih, bind_assoc]
          refine bare_bind_congr rfl fun outs outs' t' => ?_
          rw [pure_bind]

lemma bare_mergeModalities (modalities : List (MmModality V U)) (c : SenderCache U) :
    bare (mergeModalities getItemSize capacity recompute modalities c) =
      bare ((getOrSetAll MultiModalProcessorCacheItemMetadata.itemSize capacity expectedCached
        (mergeAccesses getItemSize modalities).1 >>= fun _ =>
          if (mergeAccesses getItemSize modalities).2 then pure () else throw (.raised .indexError)) c) := by
  induction modalities generalizing c with
  | nil => rfl
  | cons m rest ih =>
    unfold mergeModalities mergeAccesses
    have hitems : bare (mergeItems getItemSize capacity recompute 0 m.hashes m.isCached
      m.missing c) = _ := bare_mergeItems 0 m.hashes m.isCached m.missing c
    generalize itemAccesses getItemSize m.hashes m.isCached m.missing = accesses at hitems ⊢
    obtain ⟨ops, complete⟩ := accesses
    cases complete with
    | true =>
      simp only [↓reduceIte] at hitems ⊢
      rw [bare_bind_pure] at hitems
      refine Eq.trans ?_ (bare_bind_congr
        (bare_getOrSetAll_append expectedCached ops _ c).symm fun _ _ _ => rfl)
      rw [bind_assoc]
      refine bare_bind_congr hitems fun merged outs t => ?_
      rw [bare_bind_pure, ih]
    | false =>
      have hraises : ∀ {β : Type} (f : Unit → EStateM CacheFailure (SenderCache U) β)
          (s : SenderCache U), bare ((throw (.raised .indexError) >>= f) s) =
            bare ((throw (.raised .indexError) : EStateM CacheFailure (SenderCache U) Unit) s) :=
        fun _ _ => rfl
      refine Eq.trans (b := bare (((getOrSetAll
        MultiModalProcessorCacheItemMetadata.itemSize capacity expectedCached ops >>= fun _ =>
          (throw (.raised .indexError) : EStateM CacheFailure (SenderCache U) Unit)) >>= fun _ =>
            mergeModalities getItemSize capacity recompute rest) c)) ?_ ?_
      · refine bare_bind_congr hitems fun merged _ t => bare_bind_pure _ _ _
      · rw [bind_assoc]
        exact bare_bind_congr rfl fun outs outs' t => hraises _ _

lemma itemAccesses_hashes (hashes : List String) (isCached : List Bool) (missing : List (V × List U)) :
    (itemAccesses getItemSize hashes isCached missing).1.map Prod.fst <+: hashes ∧
      ((itemAccesses getItemSize hashes isCached missing).2 = true →
        (itemAccesses getItemSize hashes isCached missing).1.map Prod.fst = hashes) := by
  induction hashes generalizing isCached missing with
  | nil => exact ⟨ nil_prefix, fun _ => rfl⟩
  | cons itemHash hashes ih =>
    cases isCached with
    | nil => exact ⟨ nil_prefix, nofun⟩
    | cons cached isCached =>
      cases cached with
      | true =>
        obtain ⟨hfirst, hall⟩ := ih isCached missing
        exact ⟨cons_prefix_cons.mpr ⟨rfl, hfirst⟩, fun h => congrArg _ (hall h)⟩
      | false =>
        cases missing with
        | nil => exact ⟨ nil_prefix, nofun⟩
        | cons item missing =>
          obtain ⟨hfirst, hall⟩ := ih isCached missing
          exact ⟨cons_prefix_cons.mpr ⟨rfl, hfirst⟩, fun h => congrArg _ (hall h)⟩

lemma mergeAccesses_hashes (modalities : List (MmModality V U)) :
    (mergeAccesses getItemSize modalities).1.map Prod.fst <+: mergedHashes modalities := by
  induction modalities with
  | nil => exact nil_prefix
  | cons m rest ih =>
    have hitems : (itemAccesses getItemSize m.hashes m.isCached m.missing).1.map Prod.fst <+:
      m.hashes ∧ _ := itemAccesses_hashes m.hashes m.isCached m.missing
    obtain ⟨hfirst, hall⟩ := hitems
    unfold mergeAccesses mergedHashes
    dsimp only
    cases hcomplete : (itemAccesses getItemSize m.hashes m.isCached m.missing).2 with
    | true =>
      rw [if_pos rfl, map_append, hall hcomplete]
      exact (prefix_append_right_inj _).mpr ih
    | false =>
      exact hfirst.trans ( prefix_append _ _)

lemma leaves_mergeMmKwargs (modalities : List (MmModality V U)) (c : SenderCache U) :
    leaves (mergeMmKwargs getItemSize capacity recompute modalities c) =
      leaves (getOrSetAll MultiModalProcessorCacheItemMetadata.itemSize capacity expectedCached
        (mergeAccesses getItemSize modalities).1 ((mergedHashes modalities).foldl touch c)) := by
  unfold mergeMmKwargs
  rw [← leaves_bare, bare_mergeModalities, leaves_bare, leaves_bind_throw]

lemma leaves_getAndUpdateFeatures (c : LRUCache String V) :
    leaves (getAndUpdateFeatures getItemSize capacity features c) =
      leaves (getOrSetAll getItemSize capacity expectedCached (featureItems features)
        ((features.map MmFeatureSpec.cacheKey).foldl touch c)) :=
  leaves_bind_pure _ _ _

lemma featureItems_keys : (featureItems features).map Prod.fst = features.map MmFeatureSpec.cacheKey := by
  unfold featureItems
  rw [map_map]
  rfl

/-- What P1 receives is cached or given, and fits. -/
def FeaturesFit (getItemSize : V → ℕ) (capacity : ℕ) (c : LRUCache String V)
    (features : List (MmFeatureSpec V)) : Prop :=
  Fits getItemSize capacity (features.map MmFeatureSpec.cacheKey) (featureItems features) c

/-- What P0 merges is cached or given, and fits. -/
def HashesFit (getItemSize : V → ℕ) (capacity : ℕ) (c : SenderCache U)
    (modalities : List (MmModality V U)) : Prop :=
  Fits MultiModalProcessorCacheItemMetadata.itemSize capacity (mergedHashes modalities)
    (mergeAccesses getItemSize modalities).1 c

def receiverStep (getItemSize : V → ℕ) (capacity : ℕ) (c : LRUCache String V)
    (features : List (MmFeatureSpec V)) : Except CacheFailure (LRUCache String V) :=
  leaves (getAndUpdateFeatures getItemSize capacity features c)

def senderStep (getItemSize : V → ℕ) (capacity : ℕ) (recompute : U → ℕ → U) (c : SenderCache U)
    (modalities : List (MmModality V U)) : Except CacheFailure (SenderCache U) :=
  leaves (mergeMmKwargs getItemSize capacity recompute modalities c)

lemma receiverStep_sound {c : LRUCache String V} (hc : Sound getItemSize capacity c)
    {features : List (MmFeatureSpec V)} (h : FeaturesFit getItemSize capacity c features) :
    ∃ c', receiverStep getItemSize capacity c features = .ok c' ∧ Sound getItemSize capacity c' := by
  obtain ⟨c', outs, hrun, hc'⟩ := hc.access expectedCached h fun op hop => by
    rw [← featureItems_keys]
    exact mem_map_of_mem hop
  refine ⟨c', ?_, hc'⟩
  unfold receiverStep
  rw [leaves_getAndUpdateFeatures, hrun]
  rfl

lemma senderStep_sound {c : SenderCache U} (hc : Sound MultiModalProcessorCacheItemMetadata.itemSize capacity c)
    (h : HashesFit getItemSize capacity c modalities) :
    ∃ c', senderStep getItemSize capacity recompute c modalities = .ok c' ∧
      Sound MultiModalProcessorCacheItemMetadata.itemSize capacity c' := by
  obtain ⟨c', outs, hrun, hc'⟩ := hc.access expectedCached h fun op hop =>
    (mergeAccesses_hashes modalities).subset (mem_map_of_mem hop)
  refine ⟨c', ?_, hc'⟩
  unfold senderStep
  rw [leaves_mergeMmKwargs, hrun]
  rfl

lemma featuresFit_of_sound {c c' : LRUCache String V} (hc : Sound getItemSize capacity c)
    {features : List (MmFeatureSpec V)} (hnd : (features.map MmFeatureSpec.cacheKey).Nodup)
    (h : receiverStep getItemSize capacity c features = .ok c')
    (hc' : Sound getItemSize capacity c') : FeaturesFit getItemSize capacity c features := by
  unfold receiverStep at h
  rw [leaves_getAndUpdateFeatures] at h
  refine hc.fits_of_access expectedCached hnd ?_ h hc'
  rw [featureItems_keys]

lemma hashesFit_of_sound {c c' : SenderCache U}
    (hc : Sound MultiModalProcessorCacheItemMetadata.itemSize capacity c) (hnd : (mergedHashes modalities).Nodup)
    (h : senderStep getItemSize capacity recompute c modalities = .ok c')
    (hc' : Sound MultiModalProcessorCacheItemMetadata.itemSize capacity c') :
    HashesFit getItemSize capacity c modalities := by
  unfold senderStep at h
  rw [leaves_mergeMmKwargs] at h
  exact hc.fits_of_access expectedCached hnd (mergeAccesses_hashes modalities) h hc'

variable (getItemSize capacity recompute)

/-- A run of calls that fit ends and leaves the cached keys in the order. A call without repeated
keys that does so fits. -/
theorem multimodal_calls_end :
    (∀ c, Reaches (receiverStep getItemSize capacity) (FeaturesFit getItemSize capacity) .empty c →
      Sound getItemSize capacity c ∧ ∀ features, (FeaturesFit getItemSize capacity c features →
          ∃ c', receiverStep getItemSize capacity c features = .ok c' ∧ Sound getItemSize capacity c') ∧
        ((features.map MmFeatureSpec.cacheKey).Nodup → ∀ c', receiverStep getItemSize capacity c features = .ok c' →
            Sound getItemSize capacity c' → FeaturesFit getItemSize capacity c features)) ∧
    ∀ c, Reaches (senderStep getItemSize capacity recompute) (HashesFit getItemSize capacity) .empty c →
      Sound MultiModalProcessorCacheItemMetadata.itemSize capacity c ∧ ∀ modalities,
        (HashesFit getItemSize capacity c modalities →
          ∃ c', senderStep getItemSize capacity recompute c modalities = .ok c' ∧
            Sound MultiModalProcessorCacheItemMetadata.itemSize capacity c') ∧ ((mergedHashes modalities).Nodup →
          ∀ c', senderStep getItemSize capacity recompute c modalities = .ok c' →
            Sound MultiModalProcessorCacheItemMetadata.itemSize capacity c' →
              HashesFit getItemSize capacity c modalities) := by
  constructor
  · intro c hreach
    have hc : Sound getItemSize capacity c := by
      refine hreach.invariant sound_empty fun c features c' hc hfit hstep => ?_
      obtain ⟨c1, hrun, hc1⟩ := receiverStep_sound hc hfit
      cases hstep.symm.trans hrun
      exact hc1
    exact ⟨hc, fun features => ⟨receiverStep_sound hc, fun hnd c' => featuresFit_of_sound hc hnd⟩⟩
  · intro c hreach
    have hc : Sound MultiModalProcessorCacheItemMetadata.itemSize capacity c := by
      refine hreach.invariant sound_empty fun c modalities c' hc hfit hstep => ?_
      have hends : ∃ c1, senderStep getItemSize capacity recompute c modalities = .ok c1 ∧ _ :=
        senderStep_sound hc hfit
      obtain ⟨c1, hrun, hc1⟩ := hends
      cases hstep.symm.trans hrun
      exact hc1
    exact ⟨hc, fun modalities => ⟨senderStep_sound hc, fun hnd c' => hashesFit_of_sound hc hnd⟩⟩

end

def sizedFeature (mmHash : String) (size : ℕ) : MmFeatureSpec ℕ := ⟨mmHash, mmHash, some size⟩

/-- The second request evicts what is left of the first one. -/
theorem multimodal_calls_end_two :
    Sound id 2 (⟨["c", "b"], ((.empty : Dict String ℕ).set "b" 1).set "c" 1⟩ :
      LRUCache String ℕ) := by
  have hfirst : FeaturesFit id 2 .empty [sizedFeature "a" 1, sizedFeature "b" 1] :=
    ⟨by decide, by decide⟩
  have hsecond : FeaturesFit id 2 ⟨["a", "b"], ((.empty : Dict String ℕ).set "a" 1).set "b" 1⟩
      [sizedFeature "c" 1, sizedFeature "b" 1] := ⟨by decide, by decide⟩
  have hreach : Reaches (receiverStep id 2) (FeaturesFit id 2) .empty
      ⟨["c", "b"], (((.empty : Dict String ℕ).set "b" 1).set "c" 1)⟩ :=
    .step _ (.step _ .start hfirst rfl) hsecond rfl
  exact ((multimodal_calls_end id 2 fun (update : Unit) _ => update).1 _ hreach).1

/-- `a` is too large to be inserted, and is to be evicted later. -/
theorem multimodal_call_hangs : ¬ ∀ c, Reaches (receiverStep id 1) (fun _ _ => True) .empty c →
    ∀ features, ∃ c', receiverStep id 1 c features = .ok c' := by
  intro hall
  have hrun : runSteps (receiverStep id 1) (.empty : LRUCache String ℕ)
      [[sizedFeature "a" 2], [sizedFeature "b" 1]] =
        .ok ⟨["a", "b"], ((.empty : Dict String ℕ).set "b" 1)⟩ := rfl
  obtain ⟨c', hstep⟩ := hall _ (Reaches.start.append_runSteps hrun) [sizedFeature "c" 1]
  cases hstep

end CustomAi.Vllm
