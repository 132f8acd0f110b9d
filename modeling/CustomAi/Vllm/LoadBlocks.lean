import CustomAi.Vllm.KVCacheFrame
import CustomAi.Vllm.MambaCapacity

/-!
# The blocks of a load

How many blocks `allocate_slots` gives a request that is to load external tokens, and which blocks
`cache_blocks` enters into the prefix cache.
-/

namespace CustomAi.Vllm

open List Except SingleTypeKVCacheManager

namespace BlockPool

variable {p p' : BlockPool} {b : BlockId}

lemma cacheFullBlocksLoop_blockHash {groupId : ℕ} {blocks : List BlockId}
    {hashes : List BlockHash} {newHashes : List ExternalBlockHash} (hb : b ∉ blocks)
    (hok : cacheFullBlocksLoop groupId blocks hashes p = .ok (newHashes, p')) :
    (p'.blocks b).blockHash = (p.blocks b).blockHash := by
  induction blocks generalizing hashes newHashes p with
  | nil =>
    obtain ⟨-, rfl⟩ := ok_pair_inj hok
    rfl
  | cons blk rest ih =>
    obtain ⟨hne, hrest⟩ := ne_and_not_mem_of_not_mem_cons hb
    obtain ⟨-, hloop⟩ | ⟨-, -, _, _, _, -, hloop, -⟩ := cacheFullBlocksLoop_cons hok
    · exact ih hrest hloop
    · rw [ih hrest hloop, enter]
      simp only [modifyBlock, Function.update_of_ne hne]

lemma cacheFullBlocks_entered {request : Request} {blocks : List BlockId} {numCached numFull blockSize groupId : ℕ}
    (hok : p.cacheFullBlocks request blocks numCached numFull blockSize groupId = .ok p')
    (hb : (p'.blocks b).blockHash ≠ (p.blocks b).blockHash) : ∃ i < numFull, blocks[i]? = some b := by
  unfold cacheFullBlocks at hok
  split at hok
  · obtain rfl := ok.inj hok
    exact absurd rfl hb
  · simp only [bind_eq_ok, Prod.exists] at hok
    obtain ⟨_, -, hashes, -, newHashes, p₁, hloop, hok⟩ := hok
    have hsame : p'.blocks = p₁.blocks := by
      split at hok
      · simp only [bind_eq_ok, pure_eq_ok, ok.injEq] at hok
        obtain ⟨_, -, rfl⟩ := hok
        rfl
      · obtain rfl := ok.inj hok
        rfl
    rw [hsame] at hb
    have hmem : b ∈ (blocks.take numFull).drop numCached := by
      by_contra hmem
      exact hb (cacheFullBlocksLoop_blockHash hmem hloop)
    obtain ⟨i, hi⟩ := mem_iff_getElem?.mp (mem_of_mem_drop hmem)
    rw [List.getElem?_take] at hi
    split at hi
    · exact ⟨i, ‹_›, hi⟩
    · cases hi

end BlockPool

namespace SingleTypeKVCacheManager

variable {m m' m₁ m₂ : SingleTypeKVCacheManager} {p p' p₁ p₂ : BlockPool} {r : RequestId}
  {hits : List BlockId} {numLocal numExternal : ℕ}

/-- The blocks that a load of `numTokens` tokens in all is given. -/
def blocksOfLoad (m : SingleTypeKVCacheManager) (numTokens numEncoderTokens : ℕ) : ℕ :=
  if m.isCrossAttention then cdiv numEncoderTokens m.blockSize
  else cdiv numTokens m.blockSize + m.numSpeculativeBlocks

structure Unknown (m : SingleTypeKVCacheManager) (r : RequestId) : Prop where
  reqBlocks : m.reqBlocks r = []
  numCachedBlock : m.numCachedBlock.contains r = false
  allocated : r ∉ m.allocatedBlockReqs

lemma length_baseAllocateNewBlocks {n : ℕ} {new : List BlockId}
    (hok : m.baseAllocateNewBlocks p r n = .ok (new, m₁, p')) :
    (m₁.reqBlocks r).length = max (m.reqBlocks r).length (cdiv n m.blockSize) := by
  rcases baseAllocateNewBlocks_cases hok with ⟨rfl, -, hle⟩ | ⟨hlt, hget, rfl⟩
  · omega
  · rw [reqBlocks_setReqBlocks, if_pos rfl, length_append, (BlockPool.getNewBlocks_free hget).1]
    omega

lemma length_alignAllocateNewBlocks (hnew : r ∉ m.allocatedBlockReqs) {main k : ℕ}
    (hle : (m.reqBlocks r).length ≤ cdiv main m.blockSize + k) {new : List BlockId}
    (hok : m.alignAllocateNewBlocks p r main k = .ok (new, m₁, p')) :
    (m₁.reqBlocks r).length = cdiv main m.blockSize + k := by
  have hroom : r ∈ m.allocatedBlockReqs → k ≤ (m.reqBlocks r).length := fun h => absurd h hnew
  obtain heq | hlt := hle.eq_or_lt
  · rw [alignAllocateNewBlocks_of_length_eq heq] at hok
    obtain ⟨-, hmp⟩ := ok_pair_inj hok
    obtain ⟨rfl, -⟩ := Prod.mk.inj hmp
    exact heq
  · obtain ⟨l, hlen, heq⟩ := alignAllocateNewBlocks_eq (p := p) hroom hlt
    have hbound := (alignReused_bounds hlt).1
    rw [heq] at hok
    simp only [bind_eq_ok, pure_eq_ok, ok.injEq, Prod.mk.injEq, Prod.exists] at hok
    obtain ⟨new', p₁, hget, -, rfl, -⟩ := hok
    change ((m.setReqBlocks r (l ++ new')).reqBlocks r).length = _
    rw [reqBlocks_setReqBlocks, if_pos rfl, length_append, (BlockPool.getNewBlocks_free hget).1]
    omega

lemma length_allocateNewComputedBlocks (hr : m.Unknown r) (hcross : m.isCrossAttention = false)
    (hbs : 0 < m.blockSize) (hw : m.WindowFits) (hhits : hits.length * m.blockSize ≤ numLocal)
    (hok : m.allocateNewComputedBlocks p r hits numLocal numExternal = .ok (m₁, p')) :
    (m₁.reqBlocks r).length ≤ cdiv (numLocal + numExternal) m.blockSize ∧
      m.SameSettings m₁ ∧ r ∉ m₁.allocatedBlockReqs := by
  simp only [allocateNewComputedBlocks, hcross, Bool.false_eq_true, if_false] at hok
  obtain ⟨-, p₁, new, -, hnew, hreq, hset, hallocated, -⟩ :=
    baseAllocateNewComputedBlocks_cases hr.numCachedBlock hok
  have hskipped : m.numSkippedBlocks (numLocal + numExternal) ≤ (numLocal + numExternal) / m.blockSize := by
    have hle := Int.ediv_le_ediv (by exact_mod_cast hbs : (0 : ℤ) < m.blockSize)
      (hw (numLocal + numExternal))
    exact Int.toNat_le.mpr hle
  have hlen : hits.length ≤ (numLocal + numExternal) / m.blockSize :=
    (Nat.le_div_iff_mul_le hbs).mpr (hhits.trans (Nat.le_add_right _ _))
  have hcdiv := div_le_cdiv (numLocal + numExternal) m.blockSize
  refine ⟨?_, hset, hallocated ▸ hr.allocated⟩
  have hnewlen : new.length ≤ (m.externalBlocks hits numLocal numExternal).toNat := by
    split at hnew
    · exact (BlockPool.getNewBlocks_free hnew).1.le
    · rw [hnew.1]
      exact Nat.zero_le _
  rw [reqBlocks_of_set hreq, if_pos rfl, length_append, length_append, length_replicate, length_drop]
  have hext : (m.externalBlocks hits numLocal numExternal).toNat ≤ cdiv (numLocal + numExternal) m.blockSize -
        max (m.numSkippedBlocks (numLocal + numExternal)) hits.length := by
    unfold externalBlocks
    split
    · omega
    · exact Nat.zero_le _
  omega

lemma length_load (hr : m.Unknown r) (hbs : 0 < m.blockSize) (hw : m.WindowFits)
    (hhits : hits.length * m.blockSize ≤ numLocal) {numEncoderTokens : ℕ} {new : List BlockId}
    (hcomputed : m.allocateNewComputedBlocks p r hits numLocal numExternal = .ok (m₁, p₁))
    (hnew : m₁.allocateNewBlocks p₂ r (if m₁.isCrossAttention then numEncoderTokens else numLocal + numExternal)
      (numLocal + numExternal) = .ok (new, m₂, p')) :
    (m₂.reqBlocks r).length = m.blocksOfLoad (numLocal + numExternal) numEncoderTokens := by
  unfold blocksOfLoad
  cases hcross : m.isCrossAttention with
  | true =>
    simp only [allocateNewComputedBlocks, hcross, if_true, bind_eq_ok, pure_eq_ok,
      ok.injEq, Prod.mk.injEq] at hcomputed
    obtain ⟨_, -, rfl, -⟩ := hcomputed
    have hspec : ∀ a b c d e mode k, m.kvCacheSpec ≠ .mamba a b c d e mode k := by
      intro a b c d e mode k hspec
      simp [isCrossAttention, specManagerMap, hspec] at hcross
    have hbase : m.baseAllocateNewBlocks p₂ r numEncoderTokens = .ok (new, m₂, p') := by
      rw [hcross] at hnew
      unfold allocateNewBlocks at hnew
      split at hnew
      · exact absurd ‹_› (hspec _ _ _ _ _ _ _)
      · exact absurd ‹_› (hspec _ _ _ _ _ _ _)
      · exact hnew
    rw [length_baseAllocateNewBlocks hbase, hr.reqBlocks, if_pos rfl]
    exact Nat.max_eq_right (Nat.zero_le _)
  | false =>
    obtain ⟨hle, hset, hallocated⟩ := length_allocateNewComputedBlocks hr hcross hbs hw hhits hcomputed
    have hcross1 : m₁.isCrossAttention = false := by
      unfold isCrossAttention at hcross ⊢
      rw [hset.kvCacheSpec, hcross]
    rw [hcross1, if_neg Bool.false_ne_true] at hnew
    rw [if_neg Bool.false_ne_true, ← hset.blockSize, ← numSpeculativeBlocks_congr hset.kvCacheSpec]
    rw [← hset.blockSize] at hle hbs
    unfold allocateNewBlocks at hnew
    unfold numSpeculativeBlocks
    split at hnew
    · rename_i hspec
      rw [hspec]
      exact length_alignAllocateNewBlocks hallocated (hle.trans (Nat.le_add_right _ _)) hnew
    · rename_i hspec
      rw [hspec, length_baseAllocateNewBlocks hnew, cdiv_add_mul hbs]
      dsimp only
      omega
    · rename_i hspec
      rw [length_baseAllocateNewBlocks hnew]
      split
      · exact absurd ‹_› (hspec _ _ _ _ _ _ _)
      · omega

lemma Unknown.removeSkippedBlocks (hr : m.Unknown r) {n : ℕ}
    (hok : m.removeSkippedBlocks p r n = .ok (m₁, p')) : m₁.Unknown r := by
  obtain ⟨-, hlen, hcached, -⟩ := removeSkippedBlocks_frame hok
  rw [hr.reqBlocks, length_nil, length_eq_zero_iff] at hlen
  refine ⟨hlen, hcached ▸ hr.numCachedBlock, ?_⟩
  have hsame : ∀ {m m' p p'}, Trimmed r m p m' p' → m'.allocatedBlockReqs = m.allocatedBlockReqs := by
    intro m m' p p' h
    cases h <;> rfl
  obtain ⟨_, _, hbase, hlast⟩ := removeSkippedBlocks_trimmed hok
  exact (hsame hlast).trans (hsame hbase) ▸ hr.allocated

lemma blocksOfLoad_congr (hset : m.SameSettings m') (n k : ℕ) : m'.blocksOfLoad n k = m.blocksOfLoad n k := by
  unfold blocksOfLoad isCrossAttention
  rw [hset.kvCacheSpec, hset.blockSize, numSpeculativeBlocks_congr hset.kvCacheSpec]

lemma windowFits_congr (hset : m.SameSettings m') (h : m.WindowFits) : m'.WindowFits := by
  intro n
  have hskip : m'.getNumSkippedTokens n = m.getNumSkippedTokens n := by
    unfold getNumSkippedTokens
    rw [hset.kvCacheSpec]
  exact hskip ▸ h n

lemma new_blockSize {spec : KVCacheSpec} {enableCaching : Bool} {i dcp pcp : ℕ} (hdcp : 0 < dcp)
    (hpcp : 0 < pcp) : (new spec enableCaching i dcp pcp).blockSize =
      spec.blockSize * (if dcp > 1 then dcp else 1) * (if pcp > 1 then pcp else 1) := by
  have h1 : (if dcp > 1 then dcp else 1) = dcp := by split <;> omega
  have h2 : (if pcp > 1 then pcp else 1) = pcp := by split <;> omega
  rw [h1, h2, Nat.mul_assoc]
  change (if dcp * pcp > 1 then _ else _) = _
  split
  · rfl
  · have : dcp * pcp = 1 := le_antisymm (not_lt.mp ‹_›) (Nat.mul_pos hdcp hpcp)
    rw [this, Nat.mul_one]

lemma cacheBlocks_entered {request : Request} {n : ℕ} {b : BlockId}
    (hok : m.cacheBlocks p request n = .ok (m', p')) (hb : (p'.blocks b).blockHash ≠ (p.blocks b).blockHash) :
    ∃ i, (m.reqBlocks request.requestId)[i]? = some b ∧ (i + 1) * m.blockSize ≤ n := by
  rcases cacheBlocks_cases hok with ⟨-, rfl⟩ | ⟨-, hcache, -⟩
  · exact absurd rfl hb
  · obtain ⟨i, hi, hget⟩ := BlockPool.cacheFullBlocks_entered hcache hb
    exact ⟨i, hget, (Nat.mul_le_mul_right _ hi).trans (Nat.div_mul_le_self _ _)⟩

end SingleTypeKVCacheManager

namespace KVCacheCoordinator

variable {c c' : KVCacheCoordinator} {m : SingleTypeKVCacheManager}

lemma forManagers_one {β : Type} {f : ℕ → SingleTypeKVCacheManager → BlockPool →
      Except PyError (β × SingleTypeKVCacheManager × BlockPool)} {bs : List β}
    (hm : c.singleTypeManagers = [m]) (hok : c.forManagers f = .ok (bs, c')) :
    ∃ b m', f 0 m c.blockPool = .ok (b, m', c'.blockPool) ∧ c'.singleTypeManagers = [m'] := by
  simp only [forManagers, hm, bind_eq_ok, pure_eq_ok, ok.injEq, Prod.mk.injEq, Prod.exists] at hok
  obtain ⟨bs', ms, p, hloop, -, rfl⟩ := hok
  obtain ⟨b, m', p', bs1, ms', p'', hf, hnil, heq⟩ := forEnum_cons_eq_ok.mp hloop
  obtain ⟨rfl, rfl, rfl⟩ := ok_triple_inj hnil
  obtain ⟨-, rfl, rfl⟩ := ok_triple_inj (congrArg (Except.ok (ε := PyError)) heq)
  exact ⟨b, m', hf, rfl⟩

end KVCacheCoordinator

namespace KVCacheManager

variable {k k' : KVCacheManager} {m : SingleTypeKVCacheManager} {request : Request}
  {hits : List (List BlockId)} {numLocal numExternal numEncoderTokens : ℕ}

/-- The arguments of `allocate_slots` for an asynchronous load. -/
def loadArgs (numExternal numEncoderTokens : ℕ) : AllocateSlotsArgs where
  numNewTokens := 0
  numExternalComputedTokens := numExternal
  delayCacheBlocks := true
  numEncoderTokens := numEncoderTokens

lemma allocateSlots_load (hm : k.singleTypeManagers = [m]) (hr : m.Unknown request.requestId)
    (hbs : 0 < m.blockSize) (hw : m.WindowFits) (hzero : request.numComputedTokens = 0)
    (hhits : (KVCacheCoordinator.blocksOfGroup hits 0).length * m.blockSize ≤ numLocal)
    (hext : 0 < numExternal) (hlen : numLocal + numExternal ≤ k.maxModelLen) {new : List (List BlockId)}
    (hok : k.allocateSlots request hits numLocal (loadArgs numExternal numEncoderTokens) =
      .ok (some new, k')) : ∃ m', k'.singleTypeManagers = [m'] ∧ (m'.reqBlocks request.requestId).length =
      m.blocksOfLoad (numLocal + numExternal) numEncoderTokens := by
  have hlocal : numLocalComputedTokens request numLocal = numLocal := by
    unfold numLocalComputedTokens
    rw [hzero, zero_add, Int.toNat_natCast]
  have hneed : k.numTokensNeedSlot request numLocal (loadArgs numExternal numEncoderTokens) =
      numLocal + numExternal := by
    simp only [numTokensNeedSlot, computedTotal, loadArgs, hzero]
    omega
  have hmain : k.numTokensMainModel request numLocal (loadArgs numExternal numEncoderTokens) =
      numLocal + numExternal := by
    simp only [numTokensMainModel, computedTotal, loadArgs, hzero]
    omega
  simp only [allocateSlots, bind_eq_ok, hlocal, hneed, hmain] at hok
  obtain ⟨_, -, c, hremove, need, -, hok⟩ := hok
  split at hok
  · cases (ok_pair_inj hok).1
  · simp only [bind_eq_ok, Prod.exists] at hok
    obtain ⟨c1, hcomputed, new', c2, hnew, hok⟩ := hok
    rw [if_pos (.inr hext)] at hcomputed
    rw [if_pos (.inr rfl)] at hok
    obtain ⟨-, rfl⟩ := ok_pair_inj hok
    simp only [KVCacheCoordinator.removeSkippedBlocks, bind_eq_ok, pure_eq_ok, ok.injEq, Prod.exists] at hremove
    obtain ⟨_, c0, hloop, rfl⟩ := hremove
    obtain ⟨_, m0, hstep, hm0⟩ := KVCacheCoordinator.forManagers_one hm hloop
    simp only [bind_eq_ok, ok.injEq, Prod.mk.injEq, Prod.exists] at hstep
    obtain ⟨m0', p0, hstep, -, rfl, -⟩ := hstep
    have hset := (removeSkippedBlocks_frame hstep).1
    have hr0 := hr.removeSkippedBlocks hstep
    simp only [KVCacheCoordinator.allocateNewComputedBlocks, bind_eq_ok, pure_eq_ok,
      ok.injEq, Prod.exists] at hcomputed
    obtain ⟨_, c1', hloop1, rfl⟩ := hcomputed
    obtain ⟨_, m₁, hstep1, hm1⟩ := KVCacheCoordinator.forManagers_one hm0 hloop1
    simp only [bind_eq_ok, ok.injEq, Prod.mk.injEq, Prod.exists] at hstep1
    obtain ⟨m1', p₁, hstep1, -, rfl, -⟩ := hstep1
    obtain ⟨_, m₂, hstep2, hm2⟩ := KVCacheCoordinator.forManagers_one hm1 hnew
    refine ⟨m₂, hm2, ?_⟩
    rw [← blocksOfLoad_congr hset]
    rw [← hset.blockSize] at hbs hhits
    exact length_load hr0 hbs
      (windowFits_congr hset hw) hhits hstep1 hstep2

lemma Framed.managerFits {config : KVCacheConfig} {maxModelLen hashBlockSize : ℕ}
    {enableCaching useEagle events useInt : Bool} {dcpWorldSize pcpWorldSize : ℕ}
    {k0 : KVCacheManager} (hsizes : ∀ spec ∈ config.kvCacheGroups, 0 < spec.blockSize)
    (hwindows : ∀ attn window, .slidingWindow attn window ∈ config.kvCacheGroups → 0 < window)
    (hnew : new config maxModelLen hashBlockSize enableCaching useEagle events useInt dcpWorldSize
      pcpWorldSize = .ok k0) {touched : RequestId → Prop} (hframe : k0.Framed touched k)
    (hm : m ∈ k.singleTypeManagers) : 0 < m.blockSize ∧ m.WindowFits := by
  simp only [new, bind_eq_ok, pure_eq_ok, ok.injEq] at hnew
  obtain ⟨c0, hc0, rfl⟩ := hnew
  have hb := KVCacheCoordinator.getKvCacheCoordinator_spec hc0
  obtain ⟨i, hi⟩ := mem_iff_getElem?.mp hm
  have hlt : i < c0.singleTypeManagers.length := by
    rw [← hframe.coordinator.length_eq]
    exact (List.getElem?_eq_some_iff.mp hi).1
  have hi0 := List.getElem?_eq_getElem hlt
  have hset := (hframe.coordinator.manager i _ m hi0 hi).settings
  obtain ⟨spec, hspec, heq⟩ := hb.managers.get_eq i _ hi0
  rw [heq] at hset
  have hmem := mem_of_getElem? hspec
  refine ⟨?_, windowFits_of_positive fun attn window hw =>
    hwindows attn window ?_⟩
  · rw [hset.blockSize]
    exact blockSize_new_pos (hsizes spec hmem) _ _ _ _
  · rw [hset.kvCacheSpec] at hw
    have hspec' : spec = .slidingWindow attn window := hw
    exact hspec' ▸ hmem

lemma Framed.one {touched : RequestId → Prop} {m' : SingleTypeKVCacheManager}
    (h : k.Framed touched k') (hm' : k'.singleTypeManagers = [m']) :
    ∃ m, k.singleTypeManagers = [m] ∧ m.Framed touched m' := by
  have hm'' : k'.coordinator.singleTypeManagers = [m'] := hm'
  have hlen : k.coordinator.singleTypeManagers.length = 1 := by
    rw [← h.coordinator.length_eq, hm'']
    rfl
  obtain ⟨m, hm⟩ := length_eq_one_iff.mp hlen
  exact ⟨m, hm, h.coordinator.manager 0 m m' (by rw [hm]; rfl) (by rw [hm'']; rfl)⟩

lemma hits_within_local {config : KVCacheConfig} {maxModelLen hashBlockSize : ℕ}
    {enableCaching useEagle events useInt : Bool} {dcpWorldSize pcpWorldSize : ℕ}
    {k0 : KVCacheManager} (hdcp : 0 < dcpWorldSize) (hpcp : 0 < pcpWorldSize)
    (hnew : new config maxModelLen hashBlockSize enableCaching useEagle events useInt dcpWorldSize
      pcpWorldSize = .ok k0) {touched : RequestId → Prop} (hframe : k0.Framed touched k)
    (hm : k.singleTypeManagers = [m]) (hlookup : k.getComputedBlocks request = .ok (hits, numLocal)) :
    (KVCacheCoordinator.blocksOfGroup hits 0).length * m.blockSize ≤ numLocal := by
  simp only [new, bind_eq_ok, pure_eq_ok, ok.injEq] at hnew
  obtain ⟨c0, hc0, rfl⟩ := hnew
  have hb := KVCacheCoordinator.getKvCacheCoordinator_spec hc0
  have hm' : k.coordinator.singleTypeManagers = [m] := hm
  have hlen : c0.singleTypeManagers.length = 1 := by
    rw [← hframe.coordinator.length_eq, hm']
    rfl
  have hspecs : config.kvCacheGroups.length = 1 := hb.managers.length_eq.symm.trans hlen
  have hkind : k.coordinator.kind = c0.kind := hframe.coordinator.kind
  have hfits := hb.kindFits
  unfold KVCacheCoordinator.KindFits at hfits
  have hnone : (KVCacheCoordinator.blocksOfGroup k.emptyKvCacheBlocks 0).length * m.blockSize ≤ 0 := by
    simp [emptyKvCacheBlocks, hm, KVCacheCoordinator.blocksOfGroup]
  unfold getComputedBlocks at hlookup
  split at hlookup
  · obtain ⟨rfl, rfl⟩ := ok_pair_inj hlookup
    exact hnone
  · unfold KVCacheCoordinator.findLongestCacheHit at hlookup
    rw [hkind] at hlookup
    cases hk : c0.kind with
    | noPrefixCache =>
      simp only [hk] at hlookup
      obtain ⟨rfl, rfl⟩ := ok_pair_inj hlookup
      exact hnone
    | unitary spec blockSize dcp pcp =>
      simp only [hk, bind_eq_ok, pure_eq_ok] at hlookup hfits
      obtain ⟨table, -, hlookup⟩ := hlookup
      obtain ⟨rfl, rfl⟩ := ok_pair_inj hlookup
      obtain ⟨hgroups, -, rfl, rfl, hbs⟩ := hfits
      obtain ⟨m0, hi0⟩ : ∃ m0, c0.singleTypeManagers[0]? = some m0 := ⟨_, List.getElem?_eq_getElem (by omega)⟩
      have hset := (hframe.coordinator.manager 0 m0 m hi0 (by rw [hm']; rfl)).settings
      obtain ⟨spec', hspec', rfl⟩ := hb.managers.get_eq 0 m0 hi0
      rw [hgroups] at hspec'
      obtain rfl : spec = spec' := Option.some.inj hspec'
      have hsize : m.blockSize = blockSize := by
        rw [hset.blockSize, hbs]
        exact (new_blockSize hdcp hpcp)
      rw [hsize]
      cases table <;> rfl
    | hybrid groups lcmBlockSize hbs =>
      simp only [hk] at hfits
      obtain ⟨-, -, -, -, hsplit⟩ := hfits
      have htwo := hsplit.two_le
      have hone : ∀ g ∈ groups, some g.spec = config.kvCacheGroups[0]? := by
        intro g hg
        obtain ⟨j, hj⟩ := exists_mem_of_ne_nil _ (hsplit.split.ids_ne_nil g hg)
        obtain ⟨hlt, hspec⟩ := hsplit.split.spec_eq g hg j hj
        obtain rfl : j = 0 := by omega
        exact hspec.symm
      have hnd := hsplit.split.spec_nodup
      obtain _ | ⟨g1, _ | ⟨g2, rest⟩⟩ := groups
      · simp at htwo
      · simp at htwo
      · have heq : g1.spec = g2.spec := Option.some.inj ((hone g1 (by simp)).trans
          (hone g2 (by simp)).symm)
        simp [heq] at hnd

lemma cacheBlocks_entered {n : ℕ} {b : BlockId} (hm : k.singleTypeManagers = [m])
    (hok : k.cacheBlocks request n = .ok k')
    (hb : (k'.blockPool.blocks b).blockHash ≠ (k.blockPool.blocks b).blockHash) :
    ∃ i, (m.reqBlocks request.requestId)[i]? = some b ∧ (i + 1) * m.blockSize ≤ n := by
  unfold cacheBlocks at hok
  split at hok
  · simp only [KVCacheCoordinator.cacheBlocks, bind_eq_ok, pure_eq_ok, ok.injEq, Prod.exists] at hok
    obtain ⟨c, ⟨_, c', hloop, rfl⟩, rfl⟩ := hok
    obtain ⟨_, m', hstep, -⟩ := KVCacheCoordinator.forManagers_one hm hloop
    simp only [bind_eq_ok, ok.injEq, Prod.mk.injEq, Prod.exists] at hstep
    obtain ⟨m₁, p₁, hstep, -, -, rfl⟩ := hstep
    exact cacheBlocks_entered hstep hb
  · obtain rfl := ok.inj hok
    exact absurd rfl hb

end KVCacheManager

end CustomAi.Vllm
