import CustomAi.Vllm.BlockIndex

/-!
# Coherence of the pool and its hash index

What every operation of `BlockPool` does to the hashes, the reference counts and the free queue,
and that the index stays the graph of the block hashes over every run.
-/

namespace CustomAi.Vllm

open List Option Except BlockHashToBlockMap KVCacheBlock

namespace BlockPool

def hashOf (p : BlockPool) (b : BlockId) : Option BlockHashWithGroupId := (p.blocks b).blockHash

def refs (p : BlockPool) (b : BlockId) : ℤ := (p.blocks b).refCnt

structure SameConfig (p p' : BlockPool) : Prop where
  numGpuBlocks : p'.numGpuBlocks = p.numGpuBlocks
  enableCaching : p'.enableCaching = p.enableCaching
  hashBlockSize : p'.hashBlockSize = p.hashBlockSize

lemma SameConfig.refl (p : BlockPool) : SameConfig p p := ⟨rfl, rfl, rfl⟩

lemma SameConfig.trans {p q r : BlockPool} (h : SameConfig p q) (h' : SameConfig q r) : SameConfig p r :=
  ⟨h'.1.trans h.1, h'.2.trans h.2, h'.3.trans h.3⟩

/-- The index is the graph of the block hashes; the null block has none. -/
structure Coherent (p : BlockPool) : Prop where
  wellFormed : p.cachedBlockHashToBlock.WellFormed
  stores_iff : ∀ key b, p.cachedBlockHashToBlock.Stores key b ↔ p.hashOf b = some key
  isNull_iff : ∀ b, (p.blocks b).isNull = true ↔ b = nullBlock
  hashOf_null : p.hashOf nullBlock = none

variable {p p' : BlockPool} {b : BlockId}

lemma Coherent.isNull_eq_false (h : p.Coherent) (hb : b ≠ nullBlock) : (p.blocks b).isNull = false := by
  rw [← Bool.not_eq_true, h.isNull_iff]
  exact hb

lemma Coherent.not_stores_null (h : p.Coherent) (key : BlockHashWithGroupId) :
    ¬p.cachedBlockHashToBlock.Stores key nullBlock := by
  rw [h.stores_iff, h.hashOf_null]
  simp

lemma Coherent.stores_unique (h : p.Coherent) {key key' : BlockHashWithGroupId}
    (hk : p.cachedBlockHashToBlock.Stores key b) (hk' : p.cachedBlockHashToBlock.Stores key' b) : key = key' := by
  rw [h.stores_iff] at hk hk'
  exact some.inj (hk.symm.trans hk')

lemma blocks_modifyBlock (f : KVCacheBlock → KVCacheBlock) (x : BlockId) :
    (p.modifyBlock b f).blocks x = if x = b then f (p.blocks b) else p.blocks x := by
  unfold modifyBlock
  by_cases h : x = b
  · subst h
    simp
  · simp [h]

variable {ret : List BlockId} {groupId : ℕ} (d : ℤ) (key : BlockHashWithGroupId) (x : BlockId)

lemma refs_addRef : (p.modifyBlock b (fun k => { k with refCnt := k.refCnt + d })).refs x =
      p.refs x + if x = b then d else 0 := by
  unfold refs
  rw [blocks_modifyBlock]
  by_cases h : x = b
  · simp [h]
  · simp [h]

lemma count_cons_ite (l : List BlockId) (b : BlockId) :
    ((x :: l).count b : ℤ) = l.count b + if b = x then 1 else 0 := by
  by_cases h : b = x
  · simp [h]
  · simp [h, Ne.symm h]

lemma Coherent.of_same (h : p.Coherent) (hi : p'.cachedBlockHashToBlock = p.cachedBlockHashToBlock)
    (hh : p'.hashOf = p.hashOf) (hn : ∀ b, (p'.blocks b).isNull = (p.blocks b).isNull) : p'.Coherent := by
  refine ⟨hi ▸ h.wellFormed, fun key b => ?_, fun b => ?_, ?_⟩
  · rw [hi, hh, h.stores_iff]
  · rw [hn, h.isNull_iff]
  · rw [hh, h.hashOf_null]

lemma hashOf_addRef : (p.modifyBlock b (fun k => { k with refCnt := k.refCnt + d })).hashOf = p.hashOf := by
  funext x
  unfold hashOf
  rw [blocks_modifyBlock]
  by_cases h : x = b
  · simp [h]
  · simp [h]

lemma isNull_addRef : ((p.modifyBlock b (fun k => { k with refCnt := k.refCnt + d })).blocks x).isNull =
      (p.blocks x).isNull := by
  rw [blocks_modifyBlock]
  by_cases h : x = b
  · simp [h]
  · simp [h]

lemma Coherent.addRef (h : p.Coherent) (b : BlockId) (d : ℤ) :
    (p.modifyBlock b (fun k => { k with refCnt := k.refCnt + d })).Coherent :=
  h.of_same rfl (hashOf_addRef d) (isNull_addRef d)

/-- The pools differ in hashes, index and events at most, and in hashes only inside `evicted`. -/
structure Evicted (p p' : BlockPool) (evicted : BlockId → Prop) : Prop where
  config : SameConfig p p'
  coherent : p'.Coherent
  refs_eq : p'.refs = p.refs
  queue_eq : p'.freeBlockQueue = p.freeBlockQueue
  hashOf_of : ∀ b, evicted b → p'.hashOf b = none
  hashOf_of_not : ∀ b, ¬evicted b → p'.hashOf b = p.hashOf b

lemma maybeEvict_spec (h : p.Coherent) (b : BlockId) : Evicted p (p.maybeEvictCachedBlock b).2 (· = b) ∧
      (p.maybeEvictCachedBlock b).1 = (p.hashOf b).isSome := by
  have hhash : p.hashOf b = (p.blocks b).blockHash := rfl
  unfold maybeEvictCachedBlock
  cases hk : (p.blocks b).blockHash with
  | none =>
    rw [hk] at hhash
    refine ⟨⟨.refl p, h, rfl, rfl, ?_, fun _ _ => rfl⟩, by simp [hhash]⟩
    rintro x rfl
    exact hhash
  | some key =>
    rw [hk] at hhash
    have hstored : p.cachedBlockHashToBlock.Stores key b := (h.stores_iff key b).mpr hhash
    obtain ⟨hwf, hst, hnone⟩ := pop_spec h.wellFormed key b
    obtain ⟨x, hx⟩ := ne_none_iff_exists'.mp (fun hn => hnone.mp hn hstored)
    have hne : b ≠ nullBlock := by
      rintro rfl
      exact h.not_stores_null key hstored
    simp only [hx]
    set map := (p.cachedBlockHashToBlock.pop key b).2
    have hblocks : ∀ y, (({ p with cachedBlockHashToBlock := map } : BlockPool).modifyBlock b
        resetHash).blocks y =
          if y = b then (p.blocks b).resetHash else p.blocks y := fun y => blocks_modifyBlock _ y
    have hev : Evicted p (({ p with cachedBlockHashToBlock := map } : BlockPool).modifyBlock b
        resetHash) (· = b) := by
      refine ⟨⟨rfl, rfl, rfl⟩, ⟨hwf, ?_, ?_, ?_⟩, ?_, rfl, ?_, ?_⟩
      · intro key' y
        change map.Stores key' y ↔ _
        rw [hst, h.stores_iff]
        unfold hashOf
        rw [hblocks]
        by_cases hy : y = b
        · subst hy
          simp only [and_true, ite_true, resetHash, reduceCtorEq, iff_false, not_and, not_not]
          intro hk'
          rw [hk] at hk'
          exact (some.inj hk').symm
        · simp [hy]
      · intro y
        rw [hblocks, ← h.isNull_iff]
        by_cases hy : y = b
        · simp [hy, resetHash]
        · simp [hy]
      · unfold hashOf
        rw [hblocks, if_neg hne.symm]
        exact h.hashOf_null
      · funext y
        unfold refs
        rw [hblocks]
        by_cases hy : y = b
        · simp [hy, resetHash]
        · simp [hy]
      · rintro y rfl
        unfold hashOf
        rw [hblocks]
        simp [resetHash]
      · intro y hy
        unfold hashOf
        rw [hblocks, if_neg hy]
    refine ⟨?_, by simp [hhash]⟩
    split
    · obtain ⟨h1, ⟨h2, h3, h4, h5⟩, h6, h7, h8, h9⟩ := hev
      exact ⟨⟨h1.1, h1.2, h1.3⟩, ⟨h2, h3, h4, h5⟩, h6, h7, h8, h9⟩
    · exact hev

lemma Evicted.trans {q : BlockPool} {s t : BlockId → Prop} (h : Evicted p q s)
    (h' : Evicted q p' t) : Evicted p p' (fun b => s b ∨ t b) := by
  refine ⟨h.config.trans h'.config, h'.coherent, h'.refs_eq.trans h.refs_eq,
    h'.queue_eq.trans h.queue_eq, fun b hb => ?_, fun b hb => ?_⟩
  · by_cases ht : t b
    · exact h'.hashOf_of b ht
    · rw [h'.hashOf_of_not b ht, h.hashOf_of b (hb.resolve_right ht)]
  · rw [not_or] at hb
    rw [h'.hashOf_of_not b hb.2, h.hashOf_of_not b hb.1]

lemma evictBlocks_spec (h : p.Coherent) {ids : List BlockId} (hok : evictBlocks ids p = .ok p') :
    Evicted p p' (· ∈ ids) := by
  induction ids generalizing p with
  | nil =>
    simp only [evictBlocks, ok.injEq] at hok
    subst hok
    exact ⟨.refl p, h, rfl, rfl, by simp, fun _ _ => rfl⟩
  | cons id rest ih =>
    simp only [evictBlocks, bind_eq_ok, ensure_eq_ok] at hok
    obtain ⟨_, _, hrest⟩ := hok
    have h1 := (maybeEvict_spec h id).1
    have h2 := h1.trans (ih h1.coherent hrest)
    simpa only [mem_cons] using h2

/-- `get_new_blocks` takes blocks from the front, evicts them and references each. -/
structure TookNew (p p' : BlockPool) (n : ℤ) (ret : List BlockId) : Prop where
  config : SameConfig p p'
  coherent : p'.Coherent
  le_free : n ≤ p.freeBlockQueue.numFreeBlocks
  ret_eq : ret = p.freeBlockQueue.blocks.take n.toNat
  length_eq : ret.length = n.toNat
  queue_eq : p'.freeBlockQueue = ⟨p.freeBlockQueue.blocks.drop n.toNat, p.freeBlockQueue.numFreeBlocks - n⟩
  refs_eq : ∀ b, p'.refs b = p.refs b + ret.count b
  hashOf_of : ∀ b, p.enableCaching = true → b ∈ ret → p'.hashOf b = none
  hashOf_of_not : ∀ b, ¬(p.enableCaching = true ∧ b ∈ ret) → p'.hashOf b = p.hashOf b

lemma getNewBlocksLoop_spec (h : p.Coherent) (hok : getNewBlocksLoop ret p = .ok p') :
    SameConfig p p' ∧ p'.Coherent ∧ p'.freeBlockQueue = p.freeBlockQueue ∧
      (∀ b, p'.refs b = p.refs b + ret.count b) ∧ (∀ b, p.enableCaching = true → b ∈ ret → p'.hashOf b = none) ∧
      ∀ b, ¬(p.enableCaching = true ∧ b ∈ ret) → p'.hashOf b = p.hashOf b := by
  induction ret generalizing p with
  | nil =>
    simp only [getNewBlocksLoop, ok.injEq] at hok
    subst hok
    exact ⟨.refl p, h, rfl, by simp, by simp, fun _ _ => rfl⟩
  | cons x rest ih =>
    simp only [getNewBlocksLoop, bind_eq_ok, ensure_eq_ok] at hok
    obtain ⟨_, _, hrest⟩ := hok
    have h1 : Evicted p (if p.enableCaching then (p.maybeEvictCachedBlock x).2 else p)
        (fun b => p.enableCaching = true ∧ b = x) := by
      by_cases hc : p.enableCaching = true
      · simpa [hc] using (maybeEvict_spec h x).1
      · simp only [hc, Bool.false_eq_true, ite_false, false_and]
        exact ⟨.refl p, h, rfl, rfl, by simp, fun _ _ => rfl⟩
    set q := if p.enableCaching then (p.maybeEvictCachedBlock x).2 else p
    have hq := h1.coherent.addRef x 1
    obtain ⟨hcfg, hcoh, hqueue, hrefs, hof, hnot⟩ := ih hq hrest
    have henable : (q.modifyBlock x (fun k => { k with refCnt := k.refCnt + 1 })).enableCaching =
        p.enableCaching := h1.config.enableCaching
    rw [henable] at hof hnot
    refine ⟨h1.config.trans ⟨hcfg.1, hcfg.2, hcfg.3⟩, hcoh, hqueue.trans h1.queue_eq, ?_, ?_, ?_⟩
    · intro b
      rw [hrefs, refs_addRef, h1.refs_eq, count_cons_ite]
      omega
    · intro b hc hb
      by_cases hr : b ∈ rest
      · exact hof b hc hr
      · rw [hnot b (fun hcb => hr hcb.2), hashOf_addRef]
        exact h1.hashOf_of b ⟨hc, (mem_cons.mp hb).resolve_right hr⟩
    · intro b hb
      rw [hnot b (fun hcb => hb ⟨hcb.1, mem_cons_of_mem x hcb.2⟩), hashOf_addRef]
      exact h1.hashOf_of_not b (fun hcb => hb ⟨hcb.1, mem_cons.mpr (.inl hcb.2)⟩)

lemma getNewBlocks_spec (h : p.Coherent) {n : ℤ} (hok : p.getNewBlocks n = .ok (ret, p')) :
    TookNew p p' n ret := by
  simp only [getNewBlocks, bind_eq_ok, ensure_eq_ok, pure_eq_ok, ok.injEq, Prod.mk.injEq] at hok
  obtain ⟨_, hle, ⟨ret', queue⟩, hpop, p1, hloop, rfl, rfl⟩ := hok
  have hpopped : ret' = p.freeBlockQueue.blocks.take n.toNat ∧ ret'.length = n.toNat ∧
      queue = ⟨p.freeBlockQueue.blocks.drop n.toNat, p.freeBlockQueue.numFreeBlocks - n⟩ := by
    unfold FreeKVCacheBlockQueue.popleftN at hpop
    by_cases hn : n = 0
    · subst hn
      obtain ⟨rfl, rfl⟩ := hpop
      simp
    · simp only [hn, ite_false, bind_eq_ok, ensure_eq_ok, pure_eq_ok, ok.injEq, Prod.mk.injEq] at hpop
      obtain ⟨_, _, _, hlen, rfl, rfl⟩ := hpop
      refine ⟨rfl, ?_, rfl⟩
      rw [length_take]
      omega
  obtain ⟨rfl, hlen, rfl⟩ := hpopped
  have hcoh : ({ p with freeBlockQueue := ⟨p.freeBlockQueue.blocks.drop n.toNat,
      p.freeBlockQueue.numFreeBlocks - n⟩ } : BlockPool).Coherent :=
    ⟨h.wellFormed, h.stores_iff, h.isNull_iff, h.hashOf_null⟩
  obtain ⟨hcfg, hcoh', hqueue, hrefs, hof, hnot⟩ := getNewBlocksLoop_spec hcoh hloop
  exact ⟨⟨hcfg.1, hcfg.2, hcfg.3⟩, hcoh', hle, rfl, hlen, hqueue, hrefs, hof, hnot⟩

structure Recounted (p p' : BlockPool) (d : BlockId → ℤ) : Prop where
  config : SameConfig p p'
  coherent : p'.Coherent
  refs_eq : ∀ b, p'.refs b = p.refs b + d b
  hashOf_eq : p'.hashOf = p.hashOf

lemma touch_spec (h : p.Coherent) {l : List BlockId} (hok : touch l p = .ok p') :
    Recounted p p' (fun b => l.count b) := by
  induction l generalizing p with
  | nil =>
    simp only [touch, ok.injEq] at hok
    subst hok
    exact ⟨.refl p, h, by simp, rfl⟩
  | cons x rest ih =>
    simp only [touch, bind_eq_ok] at hok
    obtain ⟨queue, _, hrest⟩ := hok
    have hq : ({ p with freeBlockQueue := queue } : BlockPool).Coherent :=
      ⟨h.wellFormed, h.stores_iff, h.isNull_iff, h.hashOf_null⟩
    obtain ⟨hcfg, hcoh, hrefs, hhash⟩ := ih (hq.addRef x 1) hrest
    refine ⟨⟨hcfg.1, hcfg.2, hcfg.3⟩, hcoh, fun b => ?_, ?_⟩
    · rw [hrefs, refs_addRef, count_cons_ite]
      change p.refs b + _ + _ = _
      omega
    · rw [hhash, hashOf_addRef]
      rfl

lemma decrementRefCnts_spec (h : p.Coherent) (l : List BlockId) :
    Recounted p (p.decrementRefCnts l) (fun b => -(l.count b : ℤ)) ∧
      (p.decrementRefCnts l).freeBlockQueue = p.freeBlockQueue := by
  induction l generalizing p with
  | nil => exact ⟨⟨.refl p, h, by simp [decrementRefCnts], rfl⟩, rfl⟩
  | cons x rest ih =>
    obtain ⟨⟨hcfg, hcoh, hrefs, hhash⟩, hqueue⟩ := ih (h.addRef x (-1))
    refine ⟨⟨⟨hcfg.1, hcfg.2, hcfg.3⟩, hcoh, fun b => ?_, ?_⟩, hqueue⟩
    · change ((p.modifyBlock x (fun k => { k with refCnt := k.refCnt + -1 })).decrementRefCnts
        rest).refs b = _
      rw [hrefs, refs_addRef, count_cons_ite]
      split <;> omega
    · change ((p.modifyBlock x (fun k => { k with refCnt := k.refCnt + -1 })).decrementRefCnts
        rest).hashOf = _
      rw [hhash, hashOf_addRef]

lemma freeBlocks_spec (h : p.Coherent) (l : List BlockId) :
    Recounted p (p.freeBlocks l) (fun b => -(l.count b : ℤ)) ∧
      (p.freeBlocks l).freeBlockQueue = p.freeBlockQueue.appendN (l.filter (fun b =>
        decide (p.refs b - l.count b = 0) && !(p.blocks b).isNull)) := by
  obtain ⟨⟨hcfg, hcoh, hrefs, hhash⟩, hqueue⟩ := decrementRefCnts_spec h l
  refine ⟨⟨⟨hcfg.1, hcfg.2, hcfg.3⟩, ⟨hcoh.wellFormed, hcoh.stores_iff, hcoh.isNull_iff,
    hcoh.hashOf_null⟩, hrefs, hhash⟩, ?_⟩
  have hfilter : (fun b => decide (((p.decrementRefCnts l).blocks b).refCnt = 0) &&
      !((p.decrementRefCnts l).blocks b).isNull) =
        (fun b => decide (p.refs b - l.count b = 0) && !(p.blocks b).isNull) := by
    funext b
    have hr : ((p.decrementRefCnts l).blocks b).refCnt = p.refs b - l.count b := hrefs b
    have hn : ((p.decrementRefCnts l).blocks b).isNull = (p.blocks b).isNull := by
      rw [Bool.eq_iff_iff, hcoh.isNull_iff, h.isNull_iff]
    rw [hr, hn]
  unfold freeBlocks
  simp only [hqueue, hfilter]

/-- `b` is cached under `key`. -/
def enter (p : BlockPool) (key : BlockHashWithGroupId) (b : BlockId) : BlockPool :=
  { p.modifyBlock b (fun k => { k with blockHash := some key }) with
    cachedBlockHashToBlock := p.cachedBlockHashToBlock.insert key b }

lemma hashOf_enter : (p.enter key b).hashOf x = if x = b then some key else p.hashOf x := by
  unfold hashOf enter
  rw [blocks_modifyBlock]
  by_cases h : x = b
  · simp [h]
  · simp [h]

lemma refs_enter : (p.enter key b).refs = p.refs := by
  funext x
  unfold refs enter
  rw [blocks_modifyBlock]
  by_cases h : x = b
  · simp [h]
  · simp [h]

lemma Coherent.enter (h : p.Coherent) (hb : b ≠ nullBlock) (hnone : p.hashOf b = none)
    (key : BlockHashWithGroupId) : (p.enter key b).Coherent := by
  obtain ⟨hwf, hst⟩ := insert_spec h.wellFormed key b
  refine ⟨hwf, fun key' x => ?_, fun x => ?_, ?_⟩
  · rw [hashOf_enter]
    refine (hst key' x).trans ?_
    rw [h.stores_iff]
    by_cases hx : x = b
    · subst hx
      simp [hnone, eq_comm]
    · simp [hx]
  · rw [BlockPool.enter, blocks_modifyBlock, ← h.isNull_iff]
    by_cases hx : x = b
    · simp [hx]
    · simp [hx]
  · rw [hashOf_enter, if_neg hb.symm]
    exact h.hashOf_null

/-- The blocks that are not null had no hash and get theirs, position by position. -/
structure Cached (p p' : BlockPool) (groupId : ℕ) (blocks : List BlockId)
    (hashes : List BlockHash) : Prop where
  config : SameConfig p p'
  coherent : p'.Coherent
  refs_eq : p'.refs = p.refs
  queue_eq : p'.freeBlockQueue = p.freeBlockQueue
  hashOf_of : ∀ (j : ℕ) b, blocks[j]? = some b → b ≠ nullBlock → p.hashOf b = none ∧
    ∃ h, hashes[j]? = some h ∧ p'.hashOf b = some (h ++ groupIdBytes groupId)
  hashOf_of_not : ∀ b, b ∉ blocks ∨ b = nullBlock → p'.hashOf b = p.hashOf b

lemma makeBlockHashWithGroupId_eq_ok {h : BlockHash} {g : ℕ} {key : BlockHashWithGroupId} :
    makeBlockHashWithGroupId h g = .ok key ↔ g < 2 ^ 32 ∧ key = h ++ groupIdBytes g := by
  unfold makeBlockHashWithGroupId
  split
  · simp_all [eq_comm]
  · simp_all

variable {blocks : List BlockId}

lemma cacheFullBlocksLoop_cons {blk : BlockId} {rest : List BlockId} {hashes : List BlockHash}
    {newHashes : List ExternalBlockHash}
    (hok : cacheFullBlocksLoop groupId (blk :: rest) hashes p = .ok (newHashes, p')) :
    ((p.blocks blk).isNull = true ∧ cacheFullBlocksLoop groupId rest hashes.tail p = .ok (newHashes, p')) ∨
      ((p.blocks blk).isNull ≠ true ∧ p.hashOf blk = none ∧ ∃ hash hashes' newHashes', hashes = hash :: hashes' ∧
        cacheFullBlocksLoop groupId rest hashes' (p.enter (hash ++ groupIdBytes groupId) blk) =
          .ok (newHashes', p') ∧ newHashes = maybeConvertBlockHash p'.useIntBlockHashes hash :: newHashes') := by
  unfold cacheFullBlocksLoop at hok
  by_cases hnull : (p.blocks blk).isNull = true
  · rw [if_pos hnull] at hok
    exact .inl ⟨hnull, hok⟩
  · rw [if_neg hnull] at hok
    simp only [bind_eq_ok, ensure_eq_ok] at hok
    obtain ⟨_, hnone, hok⟩ := hok
    cases hashes with
    | nil => cases hok
    | cons hash hashes' =>
      simp only [bind_eq_ok, makeBlockHashWithGroupId_eq_ok, pure_eq_ok,
        ok.injEq, Prod.mk.injEq, Prod.exists] at hok
      obtain ⟨_, ⟨_, rfl⟩, newHashes', _, hloop, rfl, rfl⟩ := hok
      exact .inr ⟨hnull, hnone, hash, hashes', newHashes', rfl, hloop, rfl⟩

lemma cacheFullBlocksLoop_spec (h : p.Coherent) {hashes : List BlockHash} {newHashes : List ExternalBlockHash}
    (hok : cacheFullBlocksLoop groupId blocks hashes p = .ok (newHashes, p')) :
    Cached p p' groupId blocks hashes := by
  induction blocks generalizing p hashes newHashes with
  | nil =>
    simp only [cacheFullBlocksLoop, ok.injEq, Prod.mk.injEq] at hok
    obtain ⟨-, rfl⟩ := hok
    exact ⟨.refl p, h, rfl, rfl, by simp, fun _ _ => rfl⟩
  | cons blk rest ih =>
    obtain ⟨hnull, hloop⟩ | ⟨hnull, hnone, hash, hashes', _, rfl, hloop, -⟩ := cacheFullBlocksLoop_cons hok
    · obtain rfl := (h.isNull_iff blk).mp hnull
      obtain ⟨h1, h2, h3, h4, h5, h6⟩ := ih h hloop
      refine ⟨h1, h2, h3, h4, fun j b hj hb => ?_, fun b hb => h6 b ?_⟩
      · cases j with
        | zero =>
          simp only [List.getElem?_cons_zero, some.injEq] at hj
          exact absurd hj.symm hb
        | succ j => simpa using h5 j b (by simpa using hj) hb
      · exact hb.imp_left (fun hb hm => hb (mem_cons_of_mem _ hm))
    · have hne : blk ≠ nullBlock := fun hb => hnull ((h.isNull_iff blk).mpr hb)
      obtain ⟨h1, h2, h3, h4, h5, h6⟩ := ih (h.enter hne hnone _) hloop
      have hblk : blk ∉ rest := by
        intro hm
        obtain ⟨j, hj⟩ := List.mem_iff_getElem?.mp hm
        have hn := (h5 j blk hj hne).1
        rw [hashOf_enter, if_pos rfl] at hn
        cases hn
      refine ⟨⟨h1.1, h1.2, h1.3⟩, h2, h3.trans (refs_enter _), h4, fun j b hj hb => ?_, fun b hb => ?_⟩
      · cases j with
        | zero =>
          simp only [List.getElem?_cons_zero, some.injEq] at hj
          subst hj
          refine ⟨hnone, hash, rfl, ?_⟩
          rw [h6 blk (.inl hblk), hashOf_enter, if_pos rfl]
        | succ j =>
          have hj' : rest[j]? = some b := by simpa using hj
          have hbne : b ≠ blk := by
            rintro rfl
            exact hblk (List.mem_of_getElem? hj')
          obtain ⟨hb1, hb2⟩ := h5 j b hj' hb
          rw [hashOf_enter, if_neg hbne] at hb1
          exact ⟨hb1, by simpa using hb2⟩
      · have hbne : b ≠ blk := by
          rintro rfl
          exact hb.elim (fun hm => hm mem_cons_self) hne
        rw [h6 b (hb.imp_left (fun hb hm => hb (mem_cons_of_mem _ hm))), hashOf_enter, if_neg hbne]

lemma cacheFullBlocks_spec (h : p.Coherent) {request : Request} {numCachedBlocks numFullBlocks blockSize : ℕ}
    (hok : p.cacheFullBlocks request blocks numCachedBlocks numFullBlocks blockSize groupId =
      .ok p') (hlt : numCachedBlocks < numFullBlocks) : numFullBlocks ≤ request.blockHashes.length ∧ ∃ hashes,
      blockHashList request.blockHashes p.hashBlockSize blockSize = .ok hashes ∧
      Cached p p' groupId ((blocks.take numFullBlocks).drop numCachedBlocks) (hashes.drop numCachedBlocks) := by
  unfold cacheFullBlocks at hok
  rw [if_neg (by omega)] at hok
  simp only [bind_eq_ok, ensure_eq_ok, Prod.exists] at hok
  obtain ⟨_, hlen, hashes, hhashes, newHashes, q, hloop, hok⟩ := hok
  refine ⟨hlen, hashes, hhashes, ?_⟩
  have hc := cacheFullBlocksLoop_spec h hloop
  by_cases hev : q.enableKvCacheEvents = true
  · simp only [hev, ite_true, bind_eq_ok, pure_eq_ok, ok.injEq] at hok
    obtain ⟨parent, _, rfl⟩ := hok
    obtain ⟨h1, ⟨h2, h3, h4, h5⟩, h6, h7, h8, h9⟩ := hc
    exact ⟨⟨h1.1, h1.2, h1.3⟩, ⟨h2, h3, h4, h5⟩, h6, h7, h8, h9⟩
  · simp only [hev, Bool.false_eq_true, ite_false, pure_eq_ok, ok.injEq] at hok
    exact hok ▸ hc

lemma resetPrefixCache_spec (h : p.Coherent) :
    Evicted p p.resetPrefixCache.2 (fun _ => p.resetPrefixCache.1 = true) ∧
      (p.resetPrefixCache.1 = false → p.resetPrefixCache.2 = p) ∧
      (p.resetPrefixCache.1 = true ↔ (p.numGpuBlocks : ℤ) - p.getNumFreeBlocks = 1) := by
  unfold resetPrefixCache
  by_cases hused : (p.numGpuBlocks : ℤ) - p.getNumFreeBlocks = 1
  · simp only [hused, ne_eq, not_true_eq_false, ite_false]
    have hcoh : ({ p with cachedBlockHashToBlock := BlockHashToBlockMap.new
                          blocks := fun b => (p.blocks b).resetHash } : BlockPool).Coherent := by
      refine ⟨BlockHashToBlockMap.wellFormed_new, fun key b => ?_, h.isNull_iff, rfl⟩
      constructor
      · intro hs
        exact absurd hs BlockHashToBlockMap.not_stores_new
      · intro hs
        cases hs
    refine ⟨?_, by simp, by simp⟩
    split
    · exact ⟨⟨rfl, rfl, rfl⟩, ⟨hcoh.wellFormed, hcoh.stores_iff, hcoh.isNull_iff,
        hcoh.hashOf_null⟩, rfl, rfl, fun _ _ => rfl, by simp⟩
    · exact ⟨⟨rfl, rfl, rfl⟩, hcoh, rfl, rfl, fun _ _ => rfl, by simp⟩
  · simp only [hused, ne_eq, not_false_eq_true, ite_true]
    exact ⟨⟨.refl p, h, rfl, rfl, by simp, fun _ _ => rfl⟩, by simp, by simp⟩

lemma getCachedBlock_spec (h : p.Coherent) {blockHash : BlockHash} {groupIds : List ℕ}
    (hok : p.getCachedBlock blockHash groupIds = .ok (some blocks)) :
    Forall₂ (fun g b => makeBlockHashWithGroupId blockHash g =
      .ok (blockHash ++ groupIdBytes g) ∧ p.hashOf b = some (blockHash ++ groupIdBytes g)) groupIds blocks := by
  induction groupIds generalizing blocks with
  | nil =>
    simp only [getCachedBlock, ok.injEq, some.injEq] at hok
    subst hok
    exact .nil
  | cons g rest ih =>
    simp only [getCachedBlock, bind_eq_ok] at hok
    obtain ⟨key, hkey, hok⟩ := hok
    obtain ⟨-, rfl⟩ := makeBlockHashWithGroupId_eq_ok.mp hkey
    cases hone : p.cachedBlockHashToBlock.getOneBlock (blockHash ++ groupIdBytes g) with
    | none => simp [hone] at hok
    | some b =>
      simp only [hone, bind_eq_ok, pure_eq_ok, ok.injEq] at hok
      obtain ⟨bs, hbs, heq⟩ := hok
      cases bs with
      | none => cases heq
      | some bs =>
        simp only [map_some, some.injEq] at heq
        subst heq
        have hst := (getOneBlock_spec h.wellFormed _).1 b hone
        exact .cons ⟨hkey, (h.stores_iff _ b).mp hst⟩ (ih hbs)

lemma new_spec {numGpuBlocks hashBlockSize : ℕ} {enableCaching events useInt : Bool}
    (hok : new numGpuBlocks enableCaching hashBlockSize events useInt = .ok p) :
    p.Coherent ∧ p.numGpuBlocks = numGpuBlocks ∧ p.enableCaching = enableCaching ∧
      p.hashBlockSize = hashBlockSize ∧ (∀ b, p.hashOf b = none) ∧ (∀ b, p.refs b = 0) ∧
      p.freeBlockQueue = ⟨(List.range numGpuBlocks).tail, numGpuBlocks - 1⟩ ∧ 0 < numGpuBlocks := by
  simp only [new, bind_eq_ok, ensure_eq_ok, pure_eq_ok, ok.injEq, Prod.exists] at hok
  obtain ⟨_, hpos, null, queue, hpop, rfl⟩ := hok
  obtain ⟨n, rfl⟩ := Nat.exists_eq_succ_of_ne_zero (show numGpuBlocks ≠ 0 by omega)
  simp only [FreeKVCacheBlockQueue.new, FreeKVCacheBlockQueue.popleft, range_succ_eq_map,
    ok.injEq, Prod.mk.injEq] at hpop
  obtain ⟨rfl, rfl⟩ := hpop
  refine ⟨⟨wellFormed_new, fun key b => ?_, fun b => ?_, ?_⟩, rfl, rfl, rfl,
    fun b => ?_, fun b => ?_, ?_, hpos⟩
  · unfold hashOf
    rw [blocks_modifyBlock]
    constructor
    · intro hs
      exact absurd hs not_stores_new
    · intro hs
      split at hs <;> cases hs
  · rw [blocks_modifyBlock]
    by_cases hb : b = nullBlock
    · simp [hb, nullBlock]
    · have hb0 : ¬b = 0 := hb
      simp [hb0, nullBlock]
  · unfold hashOf
    rw [blocks_modifyBlock]
    split <;> rfl
  · unfold hashOf
    rw [blocks_modifyBlock]
    split <;> rfl
  · unfold refs
    rw [blocks_modifyBlock]
    split <;> rfl
  · simp [modifyBlock, range_succ_eq_map]

/-- The operations of the pool that `KVCacheManager` performs, with their arguments. -/
inductive Op
  | getNewBlocks (numBlocks : ℤ)
  | touch (blocks : List BlockId)
  | freeBlocks (orderedBlocks : List BlockId)
  | cacheFullBlocks (request : Request) (blocks : List BlockId)
      (numCachedBlocks numFullBlocks blockSize kvCacheGroupId : ℕ)
  | evictBlocks (blockIds : List BlockId)
  | resetPrefixCache

def step (p : BlockPool) : Op → Except PyError BlockPool
  | .getNewBlocks numBlocks => do
    let (_, p) ← p.getNewBlocks numBlocks
    return p
  | .touch blocks => touch blocks p
  | .freeBlocks orderedBlocks => .ok (p.freeBlocks orderedBlocks)
  | .cacheFullBlocks request blocks numCachedBlocks numFullBlocks blockSize kvCacheGroupId =>
    p.cacheFullBlocks request blocks numCachedBlocks numFullBlocks blockSize kvCacheGroupId
  | .evictBlocks blockIds => evictBlocks blockIds p
  | .resetPrefixCache => .ok p.resetPrefixCache.2

lemma Coherent.step (h : p.Coherent) {op : Op} (hok : p.step op = .ok p') : p'.Coherent := by
  cases op with
  | getNewBlocks n =>
    simp only [BlockPool.step, bind_eq_ok, pure_eq_ok, ok.injEq, Prod.exists] at hok
    obtain ⟨ret, q, hq, rfl⟩ := hok
    exact (getNewBlocks_spec h hq).coherent
  | touch blocks => exact (touch_spec h hok).coherent
  | freeBlocks blocks =>
    simp only [BlockPool.step, ok.injEq] at hok
    exact hok ▸ (freeBlocks_spec h blocks).1.coherent
  | cacheFullBlocks request blocks numCached numFull blockSize groupId =>
    by_cases hlt : numCached < numFull
    · obtain ⟨_, _, _, hc⟩ := cacheFullBlocks_spec h hok hlt
      exact hc.coherent
    · simp only [BlockPool.step, cacheFullBlocks, ge_iff_le, not_lt.mp hlt, ite_true, pure_eq_ok, ok.injEq] at hok
      exact hok ▸ h
  | evictBlocks ids => exact (evictBlocks_spec h hok).coherent
  | resetPrefixCache =>
    simp only [BlockPool.step, ok.injEq] at hok
    exact hok ▸ (resetPrefixCache_spec h).1.coherent

lemma coherent_of_run {numGpuBlocks hashBlockSize : ℕ} {enableCaching events useInt : Bool} {p : BlockPool}
    {ops : List Op} (h : (new numGpuBlocks enableCaching hashBlockSize events useInt).bind
      (runSteps step · ops) = .ok p) : p.Coherent := by
  obtain ⟨p₀, hnew, hrun⟩ := bind_eq_ok.mp h
  exact (Reaches.start.append_runSteps hrun).invariant (new_spec hnew).1 fun q op q' hq _ hok => hq.step hok

/-- The index and the block hashes agree in every reachable state of the pool. -/
theorem reaches_index_coherent (numGpuBlocks hashBlockSize : ℕ)
    (enableCaching enableKvCacheEvents useIntBlockHashes : Bool) (p₀ p : BlockPool)
    (hnew : new numGpuBlocks enableCaching hashBlockSize enableKvCacheEvents useIntBlockHashes =
      .ok p₀) (hrun : Reaches step (fun _ _ => True) p₀ p) :
    (∀ key b, (p.blocks b).blockHash = some key ↔ p.cachedBlockHashToBlock.Stores key b) ∧
    (∀ key key' b, p.cachedBlockHashToBlock.Stores key b → p.cachedBlockHashToBlock.Stores key' b → key = key') ∧
    (∀ key e, p.cachedBlockHashToBlock.cache.get? key = some e → e.blocks ≠ []) ∧
    (∀ key blocks, p.cachedBlockHashToBlock.cache.get? key = some (.many blocks) →
      ∀ id b, blocks.get? id = some b → id = b) ∧ (∀ key, ¬p.cachedBlockHashToBlock.Stores key nullBlock) ∧
    (∀ blockHash groupIds blocks, p.getCachedBlock blockHash groupIds = .ok (some blocks) →
      Forall₂ (fun g b => ∃ key, makeBlockHashWithGroupId blockHash g = .ok key ∧
        (p.blocks b).blockHash = some key) groupIds blocks) := by
  have h : p.Coherent := hrun.invariant (new_spec hnew).1 fun q op q' hq _ hok => hq.step hok
  refine ⟨fun key b => (h.stores_iff key b).symm, fun key key' b => h.stores_unique,
    fun key e he => (h.wellFormed key e he).blocks_ne_nil,
    fun key blocks hb => (h.wellFormed key _ hb).2, h.not_stores_null, fun blockHash groupIds blocks hok => ?_⟩
  exact (getCachedBlock_spec h hok).imp fun g b hgb => ⟨_, hgb⟩

def duplicatesOps : List Op :=
  [.getNewBlocks 2, .cacheFullBlocks
    { requestId := "a", promptTokenIds := none, numPromptTokens := 2, allTokenIds := [0, 0]
      samplingParams := ⟨1, 0, false, []⟩, maxTokens := 1, blockHashes := [[7], [7]] }
    [1, 2] 0 2 1 0, .freeBlocks [2, 1], .evictBlocks [1]]

theorem reaches_index_coherent_duplicates : ∃ p₀ p, new 4 true 1 false false = .ok p₀ ∧
    runSteps step p₀ duplicatesOps = .ok p ∧
    ∀ key b, (p.blocks b).blockHash = some key ↔ p.cachedBlockHashToBlock.Stores key b := by
  obtain ⟨p₀, h0⟩ := exists_eq_ok_of_isOk (x := new 4 true 1 false false) (by decide)
  have hrun : ((new 4 true 1 false false).bind (runSteps step · duplicatesOps)).isOk = true := by
    decide
  rw [h0] at hrun
  obtain ⟨p, hp⟩ := exists_eq_ok_of_isOk hrun
  exact ⟨p₀, p, h0, hp, (reaches_index_coherent 4 1 true false false p₀ p h0
    (Reaches.start.append_runSteps hp)).1⟩

end BlockPool

end CustomAi.Vllm
