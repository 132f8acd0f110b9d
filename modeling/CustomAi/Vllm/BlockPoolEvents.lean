import Mathlib.Data.Set.Card
import CustomAi.Vllm.BlockPoolCoherence

/-!
# KV cache events and the prefix cache

A block pool reports every block that enters or leaves its index.
-/

namespace CustomAi.Vllm

open List Option Except BlockPool Multiset

namespace KVCacheEvent

def replayCounts (held : Multiset ExternalBlockHash) : KVCacheEvent → Multiset ExternalBlockHash
  | blockStored hashes _ _ _ _ _ _ => held + hashes
  | blockRemoved hashes _ => held - hashes
  | allBlocksCleared => 0

def replaySet (held : Finset ExternalBlockHash) : KVCacheEvent → Finset ExternalBlockHash
  | blockStored hashes _ _ _ _ _ _ => held ∪ hashes.toFinset
  | blockRemoved hashes _ => held \ hashes.toFinset
  | allBlocksCleared => ∅

variable {set : Finset ExternalBlockHash} {counts : Multiset ExternalBlockHash}

lemma replaySet_subset (h : ∀ x ∈ set, x ∈ counts) (e : KVCacheEvent) :
    ∀ x ∈ e.replaySet set, x ∈ e.replayCounts counts := by
  intro x hx
  cases e with
  | blockStored hashes =>
    simp only [replaySet, Finset.mem_union, List.mem_toFinset] at hx
    simp only [replayCounts, mem_add, mem_coe]
    exact hx.imp_left (h x)
  | blockRemoved hashes =>
    simp only [replaySet, Finset.mem_sdiff, List.mem_toFinset] at hx
    have hzero : hashes.count x = 0 := List.count_eq_zero.mpr hx.2
    rw [replayCounts, ← count_pos, count_sub, coe_count, hzero,
      Nat.sub_zero, count_pos]
    exact h x hx.1
  | allBlocksCleared => simp [replaySet] at hx

lemma foldl_replaySet_subset (h : ∀ x ∈ set, x ∈ counts) (log : List KVCacheEvent) :
    ∀ x ∈ log.foldl replaySet set, x ∈ log.foldl replayCounts counts := by
  induction log generalizing set counts with
  | nil => exact h
  | cons e rest ih => exact ih (replaySet_subset h e)

end KVCacheEvent

lemma getBlockHash_append (h : BlockHash) (g : ℕ) : getBlockHash (h ++ groupIdBytes g) = h := by
  simp [getBlockHash, groupIdBytes]

namespace BlockPool

open KVCacheEvent

def takeEvents (p : BlockPool) : List KVCacheEvent × BlockPool :=
  if !p.enableKvCacheEvents then ([], p) else (p.kvEventQueue, { p with kvEventQueue := [] })

lemma takeEvents_eq {p : BlockPool} (hev : p.enableKvCacheEvents = true) :
    p.takeEvents = (p.kvEventQueue, { p with kvEventQueue := [] }) := by
  unfold takeEvents
  rw [hev]
  rfl

/-- The blocks cached under a hash that is published as `x`. -/
def publishedAs (p : BlockPool) (x : ExternalBlockHash) : Set BlockId :=
  {b | ∃ key, p.hashOf b = some key ∧ maybeConvertBlockHash p.useIntBlockHashes (getBlockHash key) = x}

/-- The hashes `held` are those of the cached blocks, with multiplicity. -/
structure HeldAs (p : BlockPool) (held : Multiset ExternalBlockHash) : Prop where
  finite : {b | p.hashOf b ≠ none}.Finite
  count_eq : ∀ x, held.count x = (p.publishedAs x).ncard

/-- The events published on the way from `p` to `p'` turn the hashes of the blocks of `p` into
those of `p'`. -/
structure Published (p p' : BlockPool) : Prop where
  enabled : p'.enableKvCacheEvents = p.enableKvCacheEvents
  useInt : p'.useIntBlockHashes = p.useIntBlockHashes
  replay : ∃ events, p'.kvEventQueue = p.kvEventQueue ++ events ∧
    ∀ held, p.HeldAs held → p'.HeldAs (events.foldl replayCounts held)

variable {p p' q : BlockPool}

lemma publishedAs_finite (h : {b | p.hashOf b ≠ none}.Finite) (x : ExternalBlockHash) :
    (p.publishedAs x).Finite := by
  refine h.subset ?_
  rintro b ⟨key, hkey, -⟩
  simp [hkey]

lemma publishedAs_congr (hh : p'.hashOf = p.hashOf)
    (hu : p'.useIntBlockHashes = p.useIntBlockHashes) (x : ExternalBlockHash) :
    p'.publishedAs x = p.publishedAs x := by
  unfold publishedAs
  rw [hh, hu]

variable {held : Multiset ExternalBlockHash}

lemma HeldAs.congr (h : p.HeldAs held)
    (hh : p'.hashOf = p.hashOf) (hu : p'.useIntBlockHashes = p.useIntBlockHashes) : p'.HeldAs held := by
  refine ⟨by rw [hh]; exact h.finite, fun x => ?_⟩
  rw [publishedAs_congr hh hu]
  exact h.count_eq x

lemma Published.of_same (he : p'.enableKvCacheEvents = p.enableKvCacheEvents)
    (hu : p'.useIntBlockHashes = p.useIntBlockHashes) (hq : p'.kvEventQueue = p.kvEventQueue)
    (hh : p'.hashOf = p.hashOf) : Published p p' :=
  ⟨he, hu, [], by rw [hq, append_nil], fun _ h => h.congr hh hu⟩

lemma Published.refl (p : BlockPool) : Published p p := .of_same rfl rfl rfl rfl

lemma Published.trans (h : Published p q) (h' : Published q p') : Published p p' := by
  obtain ⟨events, hevents, hreplay⟩ := h.replay
  obtain ⟨events', hevents', hreplay'⟩ := h'.replay
  refine ⟨h'.enabled.trans h.enabled, h'.useInt.trans h.useInt, events ++ events', ?_, ?_⟩
  · rw [hevents', hevents, append_assoc]
  · intro held hheld
    rw [foldl_append]
    exact hreplay' _ (hreplay held hheld)

variable {key : BlockHashWithGroupId} {blocks ret : List BlockId} {op : Op} {groupId : ℕ}

lemma HeldAs.store {b : BlockId} (h : p.HeldAs held) (hnone : p.hashOf b = none)
    (hh : ∀ y, p'.hashOf y = if y = b then some key else p.hashOf y)
    (hu : p'.useIntBlockHashes = p.useIntBlockHashes) :
    p'.HeldAs (maybeConvertBlockHash p.useIntBlockHashes (getBlockHash key) ::ₘ held) := by
  have hfinite : {y | p'.hashOf y ≠ none}.Finite := by
    refine (h.finite.insert b).subset fun y hy => ?_
    by_cases hyb : y = b
    · exact .inl hyb
    · have hy' : p'.hashOf y ≠ none := hy
      rw [hh, if_neg hyb] at hy'
      exact .inr hy'
  refine ⟨hfinite, fun x => ?_⟩
  have hmem : ∀ y, y ∈ p'.publishedAs x ↔
      (y = b ∧ maybeConvertBlockHash p.useIntBlockHashes (getBlockHash key) = x) ∨ y ∈ p.publishedAs x := by
    intro y
    unfold publishedAs
    simp only [Set.mem_ofPred_eq, hh, hu]
    by_cases hyb : y = b
    · subst hyb
      simp [hnone]
    · simp [hyb]
  rw [Multiset.count_cons, h.count_eq]
  by_cases hx : maybeConvertBlockHash p.useIntBlockHashes (getBlockHash key) = x
  · have hset : p'.publishedAs x = insert b (p.publishedAs x) := by
      ext y
      simp [hmem, hx]
    have hnot : b ∉ p.publishedAs x := by
      rintro ⟨k, hk, -⟩
      rw [hnone] at hk
      cases hk
    rw [hset, Set.ncard_insert_of_notMem hnot (publishedAs_finite h.finite x), if_pos hx.symm]
  · have hset : p'.publishedAs x = p.publishedAs x := by
      ext y
      simp [hmem, hx]
    rw [hset, if_neg (Ne.symm hx), Nat.add_zero]

lemma HeldAs.remove {b : BlockId} (h : p.HeldAs held) (hb : p.hashOf b = some key)
    (hh : ∀ y, p'.hashOf y = if y = b then none else p.hashOf y) (hu : p'.useIntBlockHashes = p.useIntBlockHashes) :
    p'.HeldAs (held - {maybeConvertBlockHash p.useIntBlockHashes (getBlockHash key)}) := by
  have hfinite : {y | p'.hashOf y ≠ none}.Finite := by
    refine h.finite.subset fun y hy => ?_
    have hy' : p'.hashOf y ≠ none := hy
    rw [hh] at hy'
    split at hy'
    · exact absurd rfl hy'
    · exact hy'
  refine ⟨hfinite, fun x => ?_⟩
  have hmem : ∀ y, y ∈ p'.publishedAs x ↔ y ∈ p.publishedAs x ∧ y ≠ b := by
    intro y
    unfold publishedAs
    simp only [Set.mem_ofPred_eq, hh, hu]
    by_cases hyb : y = b
    · simp [hyb]
    · simp [hyb]
  rw [Multiset.count_sub, Multiset.count_singleton, h.count_eq]
  have hset : p'.publishedAs x = p.publishedAs x \ {b} := by
    ext y
    simp [hmem]
  rw [hset]
  by_cases hx : maybeConvertBlockHash p.useIntBlockHashes (getBlockHash key) = x
  · have hin : b ∈ p.publishedAs x := ⟨key, hb, hx⟩
    rw [if_pos hx.symm, Set.ncard_sdiff_singleton_of_mem hin]
  · have hnot : b ∉ p.publishedAs x := by
      rintro ⟨k, hk, hkx⟩
      rw [hb] at hk
      exact hx (some.inj hk ▸ hkx)
    rw [if_neg (Ne.symm hx), Nat.sub_zero, Set.sdiff_singleton_eq_self hnot]

lemma maybeEvict_published (h : p.Coherent) (hev : p.enableKvCacheEvents = true) (b : BlockId) :
    Published p (p.maybeEvictCachedBlock b).2 := by
  obtain ⟨hspec, hfst⟩ := maybeEvict_spec h b
  have hhash : ∀ y, (p.maybeEvictCachedBlock b).2.hashOf y = if y = b then none else p.hashOf y := by
    intro y
    by_cases hy : y = b
    · rw [if_pos hy]
      exact hspec.hashOf_of y hy
    · rw [if_neg hy]
      exact hspec.hashOf_of_not y hy
  have hb : p.hashOf b = (p.blocks b).blockHash := rfl
  revert hfst hhash
  unfold maybeEvictCachedBlock
  cases hk : (p.blocks b).blockHash with
  | none => exact fun _ _ => .refl p
  | some key =>
    rw [hk] at hb
    simp only [hb, isSome_some]
    cases hpop : (p.cachedBlockHashToBlock.pop key b).1 with
    | none => simp
    | some x =>
      intro _ hhash
      simp only [modifyBlock, hev, ite_true] at hhash ⊢
      refine ⟨hev.symm, rfl, _, rfl, fun held hheld => ?_⟩
      exact hheld.remove hb hhash rfl

lemma evictBlocks_published (h : p.Coherent) (hev : p.enableKvCacheEvents = true)
    {ids : List BlockId} (hok : evictBlocks ids p = .ok p') : Published p p' := by
  induction ids generalizing p with
  | nil =>
    simp only [evictBlocks, ok.injEq] at hok
    exact hok ▸ .refl p
  | cons id rest ih =>
    simp only [evictBlocks, bind_eq_ok, ensure_eq_ok] at hok
    obtain ⟨_, _, hrest⟩ := hok
    have hone := maybeEvict_published h hev id
    exact hone.trans (ih (maybeEvict_spec h id).1.coherent (hone.enabled.trans hev) hrest)

lemma addRef_published (p : BlockPool) (b : BlockId) (d : ℤ) :
    Published p (p.modifyBlock b (fun k => { k with refCnt := k.refCnt + d })) :=
  .of_same rfl rfl rfl (hashOf_addRef d)

lemma getNewBlocksLoop_published (h : p.Coherent) (hev : p.enableKvCacheEvents = true)
    (hok : getNewBlocksLoop ret p = .ok p') : Published p p' := by
  induction ret generalizing p with
  | nil =>
    simp only [getNewBlocksLoop, ok.injEq] at hok
    exact hok ▸ .refl p
  | cons x rest ih =>
    simp only [getNewBlocksLoop, bind_eq_ok, ensure_eq_ok] at hok
    obtain ⟨_, _, hrest⟩ := hok
    have hone : Published p (if p.enableCaching then (p.maybeEvictCachedBlock x).2 else p) ∧
        (if p.enableCaching then (p.maybeEvictCachedBlock x).2 else p).Coherent := by
      split
      · exact ⟨maybeEvict_published h hev x, (maybeEvict_spec h x).1.coherent⟩
      · exact ⟨.refl p, h⟩
    have htwo := hone.1.trans (addRef_published _ x 1)
    exact htwo.trans (ih (hone.2.addRef x 1) (htwo.enabled.trans hev) hrest)

lemma getNewBlocks_published (h : p.Coherent) (hev : p.enableKvCacheEvents = true) {n : ℤ}
    (hok : p.getNewBlocks n = .ok (ret, p')) : Published p p' := by
  simp only [getNewBlocks, bind_eq_ok, ensure_eq_ok, pure_eq_ok, ok.injEq, Prod.mk.injEq] at hok
  obtain ⟨_, _, ⟨_, queue⟩, _, p1, hloop, rfl, rfl⟩ := hok
  have hq : Published p { p with freeBlockQueue := queue } := .of_same rfl rfl rfl rfl
  exact hq.trans (getNewBlocksLoop_published
    ⟨h.wellFormed, h.stores_iff, h.isNull_iff, h.hashOf_null⟩ hev hloop)

lemma touch_published {l : List BlockId} (hok : touch l p = .ok p') : Published p p' := by
  induction l generalizing p with
  | nil =>
    simp only [touch, ok.injEq] at hok
    exact hok ▸ .refl p
  | cons x rest ih =>
    simp only [touch, bind_eq_ok] at hok
    obtain ⟨queue, _, hrest⟩ := hok
    have hq : Published p { p with freeBlockQueue := queue } := .of_same rfl rfl rfl rfl
    exact (hq.trans (addRef_published _ x 1)).trans (ih hrest)

lemma decrementRefCnts_published (p : BlockPool) (l : List BlockId) : Published p (p.decrementRefCnts l) := by
  induction l generalizing p with
  | nil => exact .refl p
  | cons x rest ih => exact (addRef_published p x (-1)).trans (ih _)

lemma cacheFullBlocksLoop_published (h : p.Coherent) {hashes : List BlockHash} {newHashes : List ExternalBlockHash}
    (hok : cacheFullBlocksLoop groupId blocks hashes p = .ok (newHashes, p')) :
    p'.enableKvCacheEvents = p.enableKvCacheEvents ∧
      p'.useIntBlockHashes = p.useIntBlockHashes ∧ p'.kvEventQueue = p.kvEventQueue ∧
      ∀ held, p.HeldAs held → p'.HeldAs (held + newHashes) := by
  induction blocks generalizing p hashes newHashes with
  | nil =>
    obtain ⟨rfl, rfl⟩ := hok
    exact ⟨rfl, rfl, rfl, fun held hheld => by simpa using hheld⟩
  | cons blk rest ih =>
    obtain ⟨-, hloop⟩ | ⟨hnull, hnone, hash, hashes', newHashes', rfl, hloop, rfl⟩ := cacheFullBlocksLoop_cons hok
    · exact ih h hloop
    · have hne : blk ≠ nullBlock := fun hb => hnull ((h.isNull_iff blk).mpr hb)
      obtain ⟨he, hu, hqueue, hheld'⟩ := ih (h.enter hne hnone _) hloop
      refine ⟨he, hu, hqueue, fun held hheld => ?_⟩
      have hnew := hheld' _ (hheld.store hnone (hashOf_enter _) rfl)
      rw [getBlockHash_append, cons_add, ← add_cons] at hnew
      have hconvert : p'.useIntBlockHashes = p.useIntBlockHashes := hu
      rw [hconvert]
      exact hnew

lemma cacheFullBlocks_published (h : p.Coherent) (hev : p.enableKvCacheEvents = true)
    {request : Request} {numCachedBlocks numFullBlocks blockSize : ℕ}
    (hok : p.cacheFullBlocks request blocks numCachedBlocks numFullBlocks blockSize groupId =
      .ok p') : Published p p' := by
  unfold cacheFullBlocks at hok
  split at hok
  · exact ok.inj hok ▸ .refl p
  · simp only [bind_eq_ok, ensure_eq_ok, Prod.exists] at hok
    obtain ⟨_, _, hashes, _, newHashes, q, hloop, hok⟩ := hok
    obtain ⟨he, hu, hqueue, hheld⟩ := cacheFullBlocksLoop_published h hloop
    simp only [he.trans hev, ite_true, bind_eq_ok, pure_eq_ok, ok.injEq] at hok
    obtain ⟨parent, _, rfl⟩ := hok
    refine ⟨hev.symm, hu, _, congrArg (· ++ _) hqueue, fun held hh => ?_⟩
    exact (hheld held hh).congr rfl rfl

lemma resetPrefixCache_published (hev : p.enableKvCacheEvents = true) : Published p p.resetPrefixCache.2 := by
  unfold resetPrefixCache
  by_cases hused : (p.numGpuBlocks : ℤ) - p.getNumFreeBlocks = 1
  · simp only [hused, hev, ne_eq, not_true_eq_false, ite_false, ite_true]
    refine ⟨hev.symm, rfl, _, rfl, fun held _ => ⟨?_, fun x => ?_⟩⟩
    · simp [hashOf, KVCacheBlock.resetHash]
    · simp [replayCounts, publishedAs, hashOf, KVCacheBlock.resetHash]
  · simp only [hused, ne_eq, not_false_eq_true, ite_true]
    exact .refl p

lemma step_published (h : p.Coherent) (hev : p.enableKvCacheEvents = true)
    (hok : p.step op = .ok p') : Published p p' := by
  cases op with
  | getNewBlocks n =>
    simp only [step, bind_eq_ok, pure_eq_ok, ok.injEq, Prod.exists] at hok
    obtain ⟨ret, q, hq, rfl⟩ := hok
    exact getNewBlocks_published h hev hq
  | touch blocks => exact touch_published hok
  | freeBlocks blocks => exact ok.inj hok ▸ (decrementRefCnts_published p blocks).trans (.of_same rfl rfl rfl rfl)
  | cacheFullBlocks request blocks numCached numFull blockSize groupId =>
    exact cacheFullBlocks_published h hev hok
  | evictBlocks ids => exact evictBlocks_published h hev hok
  | resetPrefixCache => exact ok.inj hok ▸ resetPrefixCache_published hev

def OneGroup (p : BlockPool) : Prop :=
  ∀ b key, p.hashOf b = some key → ∃ h, key = h ++ groupIdBytes 0

def Op.OneGroup : Op → Prop
  | .cacheFullBlocks _ _ _ _ _ kvCacheGroupId => kvCacheGroupId = 0
  | _ => True

instance : (op : Op) → Decidable op.OneGroup
  | .cacheFullBlocks _ _ _ _ _ kvCacheGroupId => inferInstanceAs (Decidable (kvCacheGroupId = 0))
  | .getNewBlocks _ => inferInstanceAs (Decidable True)
  | .touch _ => inferInstanceAs (Decidable True)
  | .freeBlocks _ => inferInstanceAs (Decidable True)
  | .evictBlocks _ => inferInstanceAs (Decidable True)
  | .resetPrefixCache => inferInstanceAs (Decidable True)

lemma OneGroup.of_hashOf (hp : p.OneGroup)
    (h : ∀ b, p'.hashOf b = none ∨ p'.hashOf b = p.hashOf b) : p'.OneGroup := by
  intro b key hkey
  rcases h b with hb | hb
  · rw [hb] at hkey
    cases hkey
  · exact hp b key (hb ▸ hkey)

lemma Evicted.hashOf_cases {evicted : BlockId → Prop} (h : Evicted p p' evicted) (b : BlockId) :
    p'.hashOf b = none ∨ p'.hashOf b = p.hashOf b := by
  by_cases hb : evicted b
  · exact .inl (h.hashOf_of b hb)
  · exact .inr (h.hashOf_of_not b hb)

lemma OneGroup.step (hp : p.OneGroup) (h : p.Coherent) (hop : op.OneGroup)
    (hok : p.step op = .ok p') : p'.OneGroup := by
  cases op with
  | getNewBlocks n =>
    simp only [step, bind_eq_ok, pure_eq_ok, ok.injEq, Prod.exists] at hok
    obtain ⟨ret, q, hq, rfl⟩ := hok
    have hspec := getNewBlocks_spec h hq
    refine hp.of_hashOf fun b => ?_
    by_cases hb : p.enableCaching = true ∧ b ∈ ret
    · exact .inl (hspec.hashOf_of b hb.1 hb.2)
    · exact .inr (hspec.hashOf_of_not b hb)
  | touch blocks => exact hp.of_hashOf fun b => .inr (congrFun (touch_spec h hok).hashOf_eq b)
  | freeBlocks blocks =>
    have hspec := (freeBlocks_spec h blocks).1.hashOf_eq
    exact ok.inj hok ▸ hp.of_hashOf fun b => .inr (congrFun hspec b)
  | cacheFullBlocks request blocks numCached numFull blockSize groupId =>
    by_cases hlt : numCached < numFull
    · obtain ⟨_, hashes, _, hc⟩ := cacheFullBlocks_spec h hok hlt
      intro b key hkey
      by_cases hb : b ∉ (blocks.take numFull).drop numCached ∨ b = nullBlock
      · exact hp b key (hc.hashOf_of_not b hb ▸ hkey)
      · rw [not_or, not_not] at hb
        obtain ⟨j, hj⟩ := List.mem_iff_getElem?.mp hb.1
        obtain ⟨_, hash, _, hhash⟩ := hc.hashOf_of j b hj hb.2
        have hgroup : groupId = 0 := hop
        rw [hhash, hgroup] at hkey
        exact ⟨hash, (some.inj hkey).symm⟩
    · simp only [step, cacheFullBlocks, ge_iff_le, not_lt.mp hlt, ite_true, pure_eq_ok, ok.injEq] at hok
      exact hok ▸ hp
  | evictBlocks ids => exact hp.of_hashOf (evictBlocks_spec h hok).hashOf_cases
  | resetPrefixCache =>
    exact ok.inj hok ▸ hp.of_hashOf (resetPrefixCache_spec h).1.hashOf_cases

lemma hit_iff (h : p.Coherent) (hash : BlockHash) : (∃ blocks, p.getCachedBlock hash [0] = .ok (some blocks)) ↔
      ∃ b, p.hashOf b = some (hash ++ groupIdBytes 0) := by
  constructor
  · rintro ⟨blocks, hok⟩
    cases getCachedBlock_spec h hok with
    | cons hb _ => exact ⟨_, hb.2⟩
  · rintro ⟨b, hb⟩
    have hkey : makeBlockHashWithGroupId hash 0 = .ok (hash ++ groupIdBytes 0) := by
      rw [makeBlockHashWithGroupId_eq_ok]
      exact ⟨by omega, rfl⟩
    cases hone : p.cachedBlockHashToBlock.getOneBlock (hash ++ groupIdBytes 0) with
    | none =>
      have hno := (BlockHashToBlockMap.getOneBlock_spec h.wellFormed _).2 hone b
      exact absurd ((h.stores_iff _ b).mpr hb) hno
    | some block => exact ⟨[block], by simp [getCachedBlock, hkey, hone]⟩

end BlockPool

structure EventFeed where
  pool : BlockPool
  taken : List KVCacheEvent

namespace EventFeed

inductive Op
  | pool (op : BlockPool.Op)
  | takeEvents

def step (f : EventFeed) : Op → Except PyError EventFeed
  | .pool op => do
    let pool ← f.pool.step op
    return { f with pool }
  | .takeEvents =>
    let (events, pool) := f.pool.takeEvents
    .ok ⟨pool, f.taken ++ events⟩

def OneGroup (_ : EventFeed) : Op → Prop
  | .pool op => op.OneGroup
  | .takeEvents => True

instance (f : EventFeed) : (op : Op) → Decidable (f.OneGroup op)
  | .pool op => inferInstanceAs (Decidable op.OneGroup)
  | .takeEvents => inferInstanceAs (Decidable True)

def log (f : EventFeed) : List KVCacheEvent := f.taken ++ f.pool.kvEventQueue

def counts (f : EventFeed) : Multiset ExternalBlockHash := f.log.foldl KVCacheEvent.replayCounts 0

def hashSet (f : EventFeed) : Finset ExternalBlockHash := f.log.foldl KVCacheEvent.replaySet ∅

structure Mirrored (useInt : Bool) (f : EventFeed) : Prop where
  coherent : f.pool.Coherent
  oneGroup : f.pool.OneGroup
  enabled : f.pool.enableKvCacheEvents = true
  useInt_eq : f.pool.useIntBlockHashes = useInt
  heldAs : f.pool.HeldAs f.counts

variable {f f' : EventFeed} {useInt : Bool}

lemma Mirrored.step (h : f.Mirrored useInt) {op : Op} (hop : f.OneGroup op)
    (hok : f.step op = .ok f') : f'.Mirrored useInt := by
  cases op with
  | pool op =>
    simp only [EventFeed.step, bind_eq_ok, pure_eq_ok, ok.injEq] at hok
    obtain ⟨pool, hpool, rfl⟩ := hok
    have hpub := step_published h.coherent h.enabled hpool
    obtain ⟨events, hevents, hreplay⟩ := hpub.replay
    refine ⟨h.coherent.step hpool, h.oneGroup.step h.coherent hop hpool,
      hpub.enabled.trans h.enabled, hpub.useInt.trans h.useInt_eq, ?_⟩
    have hcounts : counts { f with pool } = events.foldl KVCacheEvent.replayCounts f.counts := by
      unfold counts log
      rw [hevents, ← append_assoc, foldl_append]
    rw [hcounts]
    exact hreplay _ h.heldAs
  | takeEvents =>
    simp only [EventFeed.step, takeEvents_eq h.enabled, ok.injEq] at hok
    subst hok
    refine ⟨⟨h.coherent.wellFormed, h.coherent.stores_iff, h.coherent.isNull_iff,
      h.coherent.hashOf_null⟩, h.oneGroup, h.enabled, h.useInt_eq, ?_⟩
    have hcounts : counts ⟨{ f.pool with kvEventQueue := [] }, f.taken ++ f.pool.kvEventQueue⟩ = f.counts := by
      unfold counts log
      rw [append_nil]
    rw [hcounts]
    exact h.heldAs.congr rfl rfl

lemma start_mirrored {numGpuBlocks hashBlockSize : ℕ} {enableCaching : Bool} {p₀ : BlockPool}
    (hnew : new numGpuBlocks enableCaching hashBlockSize true useInt = .ok p₀) :
    Mirrored useInt ⟨p₀, []⟩ := by
  obtain ⟨hcoh, _, _, _, hnone, _⟩ := new_spec hnew
  have hevents : p₀.enableKvCacheEvents = true ∧ p₀.useIntBlockHashes = useInt ∧ p₀.kvEventQueue = [] := by
    simp only [new, bind_eq_ok, pure_eq_ok, ok.injEq, Prod.exists] at hnew
    obtain ⟨_, _, null, queue, _, rfl⟩ := hnew
    exact ⟨rfl, rfl, rfl⟩
  obtain ⟨henabled, huse, hqueue⟩ := hevents
  refine ⟨hcoh, fun b key hkey => ?_, henabled, huse, ?_, fun x => ?_⟩
  · rw [hnone b] at hkey
    cases hkey
  · simp [hnone]
  · simp [counts, log, hqueue, publishedAs, hnone]

/-- A counting consumer holds every hash as often as a block is cached under it. A set holds no
others, but may miss some. -/
theorem reaches_events_mirror_cache (numGpuBlocks hashBlockSize : ℕ) (enableCaching useInt : Bool)
    (p₀ : BlockPool) (hnew : BlockPool.new numGpuBlocks enableCaching hashBlockSize true useInt = .ok p₀)
    (hrun : Reaches step OneGroup ⟨p₀, []⟩ f) :
    (∀ x, f.counts.count x = {b | ∃ hash, f.pool.hashOf b = some (hash ++ groupIdBytes 0) ∧
      maybeConvertBlockHash useInt hash = x}.ncard) ∧
    (∀ x, x ∈ f.counts ↔ ∃ hash blocks, maybeConvertBlockHash useInt hash = x ∧
      f.pool.getCachedBlock hash [0] = .ok (some blocks)) ∧ (useInt = false → ∀ hash, .bytes hash ∈ f.counts ↔
      ∃ blocks, f.pool.getCachedBlock hash [0] = .ok (some blocks)) ∧ ∀ x ∈ f.hashSet, x ∈ f.counts := by
  have h : f.Mirrored useInt := hrun.invariant (start_mirrored hnew) fun g op g' hg hop hok => hg.step hop hok
  have hset : ∀ x, f.pool.publishedAs x = {b | ∃ hash,
      f.pool.hashOf b = some (hash ++ groupIdBytes 0) ∧ maybeConvertBlockHash useInt hash = x} := by
    intro x
    ext b
    unfold publishedAs
    simp only [Set.mem_ofPred_eq, h.useInt_eq]
    constructor
    · rintro ⟨key, hkey, hx⟩
      obtain ⟨hash, rfl⟩ := h.oneGroup b key hkey
      exact ⟨hash, hkey, getBlockHash_append hash 0 ▸ hx⟩
    · rintro ⟨hash, hhash, hx⟩
      exact ⟨_, hhash, (getBlockHash_append hash 0).symm ▸ hx⟩
  have hmem : ∀ x, x ∈ f.counts ↔ ∃ hash blocks, maybeConvertBlockHash useInt hash = x ∧
      f.pool.getCachedBlock hash [0] = .ok (some blocks) := by
    intro x
    rw [← count_pos, h.heldAs.count_eq,
      Set.ncard_pos (publishedAs_finite h.heldAs.finite x), hset]
    constructor
    · rintro ⟨b, hash, hb, hx⟩
      obtain ⟨blocks, hblocks⟩ := (hit_iff h.coherent hash).mpr ⟨b, hb⟩
      exact ⟨hash, blocks, hx, hblocks⟩
    · rintro ⟨hash, blocks, hx, hblocks⟩
      obtain ⟨b, hb⟩ := (hit_iff h.coherent hash).mp ⟨blocks, hblocks⟩
      exact ⟨b, hash, hb, hx⟩
  refine ⟨fun x => ?_, hmem, fun huse hash => ?_, ?_⟩
  · rw [h.heldAs.count_eq, hset]
  · rw [hmem]
    subst huse
    constructor
    · rintro ⟨hash', blocks, hx, hblocks⟩
      obtain rfl := ExternalBlockHash.bytes.inj hx
      exact ⟨blocks, hblocks⟩
    · rintro ⟨blocks, hblocks⟩
      exact ⟨hash, blocks, rfl, hblocks⟩
  · exact KVCacheEvent.foldl_replaySet_subset (by simp) f.log

/-- Two blocks are cached under one hash, the events are taken and one of the blocks is evicted. -/
def duplicateOps : List Op :=
  [.pool (.getNewBlocks 2), .pool (.cacheFullBlocks
    { requestId := "a", promptTokenIds := none, numPromptTokens := 2, allTokenIds := [0, 0]
      samplingParams := ⟨1, 0, false, []⟩, maxTokens := 1, blockHashes := [[7], [7]] }
    [1, 2] 0 2 1 0), .takeEvents, .pool (.freeBlocks [2, 1]), .pool (.evictBlocks [1])]

lemma exists_duplicate_run : ∃ p₀ f, new 4 true 1 true false = .ok p₀ ∧
    Reaches step OneGroup ⟨p₀, []⟩ f ∧ f.hashSet = ∅ ∧ f.pool.getCachedBlock [7] [0] = .ok (some [2]) := by
  have hrun : ((new 4 true 1 true false).toOption.bind fun p₀ =>
      (runAllowed step OneGroup ⟨p₀, []⟩ duplicateOps).map fun f =>
        decide (f.hashSet = ∅ ∧ f.pool.getCachedBlock [7] [0] = .ok (some [2]))) = some true := by
    decide +kernel
  rw [bind_eq_some_iff] at hrun
  obtain ⟨p₀, h0, hrun⟩ := hrun
  rw [map_eq_some_iff] at hrun
  obtain ⟨f, hf, hd⟩ := hrun
  have hd' := of_decide_eq_true hd
  exact ⟨p₀, f, eq_ok_of_toOption h0, Reaches.start.append_runAllowed hf, hd'.1, hd'.2⟩

theorem reaches_events_mirror_cache_duplicates : ∃ p₀ f,
    BlockPool.new 4 true 1 true false = .ok p₀ ∧ Reaches step OneGroup ⟨p₀, []⟩ f ∧
    (.bytes [7] ∈ f.counts ↔ ∃ blocks, f.pool.getCachedBlock [7] [0] = .ok (some blocks)) := by
  obtain ⟨p₀, f, h0, hrun, -, -⟩ := exists_duplicate_run
  exact ⟨p₀, f, h0, hrun, (reaches_events_mirror_cache 4 1 true false p₀ h0 hrun).2.2.1 rfl [7]⟩

/-- A consumer that keeps a set drops a hash that another block still carries. -/
theorem set_consumer_misses_hash : ¬∀ (numGpuBlocks hashBlockSize : ℕ) (enableCaching : Bool)
    (p₀ : BlockPool) (f : EventFeed), BlockPool.new numGpuBlocks enableCaching hashBlockSize true false = .ok p₀ →
    Reaches step OneGroup ⟨p₀, []⟩ f → ∀ hash, .bytes hash ∈ f.hashSet ↔
      ∃ blocks, f.pool.getCachedBlock hash [0] = .ok (some blocks) := by
  intro h
  obtain ⟨p₀, f, h0, hrun, hempty, hhit⟩ := exists_duplicate_run
  have hmem := (h 4 1 true p₀ f h0 hrun [7]).mpr ⟨_, hhit⟩
  rw [hempty] at hmem
  exact absurd hmem (Finset.notMem_empty _)

end EventFeed

end CustomAi.Vllm
