import CustomAi.Vllm.CoordinatorAccounting

/-!
# Accounting of the KV cache manager

The reference counts and the free queue of the pool are those of the blocks in the lists of the
managers, in every state that the operations of the KV cache manager reach.
-/

namespace CustomAi.Vllm

open List Except KVCacheCoordinator BlockPool

namespace KVCacheManager

/-- The operations of the scheduler; `allocateSlots` gets what a lookup returned. -/
inductive Op
  | allocateSlots (request : Request) (newComputedBlocks : List (List BlockId))
      (numNewComputedTokens : ℕ) (args : AllocateSlotsArgs)
  | free (request : Request)
  | removeSkippedBlocks (requestId : RequestId) (totalComputedTokens : ℕ)
  | cacheBlocks (request : Request) (numComputedTokens : ℕ)
  | evictBlocks (blockIds : List BlockId)
  | resetPrefixCache

def step (k : KVCacheManager) : Op → Except PyError KVCacheManager
  | .allocateSlots request newComputedBlocks numNewComputedTokens args => do
    let (_, k) ← k.allocateSlots request newComputedBlocks numNewComputedTokens args
    return k
  | .free request => k.free request
  | .removeSkippedBlocks requestId totalComputedTokens =>
    k.removeSkippedBlocks requestId totalComputedTokens
  | .cacheBlocks request numComputedTokens => k.cacheBlocks request numComputedTokens
  | .evictBlocks blockIds => k.evictBlocks blockIds
  | .resetPrefixCache => .ok k.resetPrefixCache.2

/-- The hits that `Scheduler.schedule` passes: those of a lookup in the same state, or none. -/
def HitsOfLookup (k : KVCacheManager) (request : Request) (newComputedBlocks : List (List BlockId))
    (numNewComputedTokens : ℕ) : Prop :=
  k.getComputedBlocks request = .ok (newComputedBlocks, numNewComputedTokens) ∨
    newComputedBlocks = k.emptyKvCacheBlocks ∧ numNewComputedTokens = 0

def DistinctHashes (k : KVCacheManager) (request : Request) : Prop :=
  ∀ m ∈ k.singleTypeManagers, ∀ hashes ∈ (BlockPool.blockHashList request.blockHashes
    k.blockPool.hashBlockSize m.blockSize).toOption, hashes.Nodup

def HitsWithinTokens (k : KVCacheManager) (request : Request)
    (newComputedBlocks : List (List BlockId)) (numNewComputedTokens : ℕ)
    (args : AllocateSlotsArgs) : Prop :=
  0 < args.numExternalComputedTokens → ∀ m ∈ k.singleTypeManagers,
    (KVCacheCoordinator.blocksOfGroup newComputedBlocks m.kvCacheGroupId).length ≤
      cdiv (numLocalComputedTokens request numNewComputedTokens + args.numExternalComputedTokens) m.blockSize

def SchedulerCall (k : KVCacheManager) : Op → Prop
  | .allocateSlots request newComputedBlocks numNewComputedTokens _ =>
    k.HitsOfLookup request newComputedBlocks numNewComputedTokens
  | _ => True

/-- Cache hits come from a lookup for a request with distinct hashes. -/
def CleanCall (k : KVCacheManager) : Op → Prop
  | .allocateSlots request newComputedBlocks numNewComputedTokens args =>
    k.HitsOfLookup request newComputedBlocks numNewComputedTokens ∧ k.DistinctHashes request ∧
      k.HitsWithinTokens request newComputedBlocks numNewComputedTokens args
  | _ => True

instance (k : KVCacheManager) (request : Request) (blocks : List (List BlockId)) (n : ℕ) :
    Decidable (k.HitsOfLookup request blocks n) := inferInstanceAs (Decidable (_ ∨ _))

instance (k : KVCacheManager) (request : Request) : Decidable (k.DistinctHashes request) :=
  inferInstanceAs (Decidable (∀ m ∈ _, _))

instance (k : KVCacheManager) (request : Request) (blocks : List (List BlockId)) (n : ℕ)
    (args : AllocateSlotsArgs) : Decidable (k.HitsWithinTokens request blocks n args) :=
  inferInstanceAs (Decidable (_ → _))

instance (k : KVCacheManager) : (op : Op) → Decidable (k.SchedulerCall op)
  | .allocateSlots request blocks n _ =>
    inferInstanceAs (Decidable (k.HitsOfLookup request blocks n))
  | .free _ | .removeSkippedBlocks .. | .cacheBlocks .. | .evictBlocks _ | .resetPrefixCache =>
    isTrue trivial

instance (k : KVCacheManager) : (op : Op) → Decidable (k.CleanCall op)
  | .allocateSlots .. => inferInstanceAs (Decidable (_ ∧ _ ∧ _))
  | .free _ | .removeSkippedBlocks .. | .cacheBlocks .. | .evictBlocks _ | .resetPrefixCache =>
    isTrue trivial

/-- No sink tokens; block sizes and windows are positive. -/
structure ValidGroup (spec : KVCacheSpec) : Prop where
  noSink : KVCacheCoordinator.NoSink spec
  blockSize_pos : 0 < spec.blockSize
  window_pos : ∀ attn window, spec = .slidingWindow attn window → 0 < window

/-- The state of a manager of `config`, whose pool accounts for all holdings. -/
structure AccountingInv (config : KVCacheConfig) (hashBlockSize dcpWorldSize pcpWorldSize : ℕ)
    (k : KVCacheManager) : Prop where
  accounts : k.coordinator.Accounts
  built : ∃ (c₀ : KVCacheCoordinator) (useEagle enableCaching events useInt : Bool),
    c₀.BuiltFrom config useEagle enableCaching events useInt dcpWorldSize pcpWorldSize
      hashBlockSize ∧ c₀.SameShape k.coordinator
  hashBlockSize_eq : k.blockPool.hashBlockSize = hashBlockSize

variable {config : KVCacheConfig} {hashBlockSize dcpWorldSize pcpWorldSize : ℕ}
  {k k' : KVCacheManager}

variable {b : BlockId} {spec : KVCacheSpec} {m : SingleTypeKVCacheManager}

lemma new_inv {maxModelLen : ℕ} {enableCaching useEagle events useInt : Bool}
    (hgroups : ∀ spec ∈ config.kvCacheGroups, ValidGroup spec)
    (hnew : new config maxModelLen hashBlockSize enableCaching useEagle events useInt dcpWorldSize
      pcpWorldSize = .ok k) : AccountingInv config hashBlockSize dcpWorldSize pcpWorldSize k := by
  simp only [new, bind_eq_ok, pure_eq_ok, ok.injEq] at hnew
  obtain ⟨c, hc, rfl⟩ := hnew
  have hb := getKvCacheCoordinator_spec hc
  obtain ⟨pool, hpool, heq⟩ := hb.pool
  have hpool_eq := heq fun spec hs => (hgroups spec hs).noSink
  -- a new manager holds nothing
  have hempty : ∀ m ∈ c.singleTypeManagers, m.held = 0 ∧ m.Sound := by
    intro m hm
    obtain ⟨i, hi⟩ := mem_iff_getElem?.mp hm
    obtain ⟨spec, -, rfl⟩ := hb.managers.get_eq i m hi
    exact ⟨rfl, ⟨fun r => nodup_nil, nofun⟩⟩
  have hheld : c.held = 0 := by
    unfold held
    rw [map_congr_left fun m hm => (hempty m hm).1]
    simp
  refine ⟨⟨fun m hm => (hempty m hm).2, ?_⟩, ⟨c, _, _, _, _, hb, .refl c⟩, ?_⟩
  · rw [hheld, hpool_eq]
    exact BlockPool.Valid.new hpool
  · change c.blockPool.hashBlockSize = _
    rw [hpool_eq]
    exact (new_spec hpool).2.2.2.1

section

variable (h : AccountingInv config hashBlockSize dcpWorldSize pcpWorldSize k)
include h

lemma AccountingInv.of_coordinator (hc : k'.coordinator.Accounts ∧ k.coordinator.SameShape k'.coordinator) :
    AccountingInv config hashBlockSize dcpWorldSize pcpWorldSize k' := by
  obtain ⟨c₀, e, cch, ev, u, hb, hshape⟩ := h.built
  exact ⟨hc.1, ⟨c₀, e, cch, ev, u, hb, hshape.trans hc.2⟩, hc.2.config.hashBlockSize.trans h.hashBlockSize_eq⟩

lemma AccountingInv.manager {i : ℕ} (hi : k.singleTypeManagers[i]? = some m) :
    ∃ spec enableCaching, config.kvCacheGroups[i]? = some spec ∧
      (SingleTypeKVCacheManager.new spec enableCaching i dcpWorldSize pcpWorldSize).SameSettings m := by
  obtain ⟨c₀, _, cch, _, _, hb, hshape⟩ := h.built
  obtain ⟨m0, hi0, hset⟩ := hshape.manager hi
  obtain ⟨spec, hspec, rfl⟩ := hb.managers.get_eq i m0 hi0
  exact ⟨spec, cch, hspec, hset⟩

lemma AccountingInv.kindFits :
    KVCacheCoordinator.KindFits k.coordinator config.kvCacheGroups hashBlockSize dcpWorldSize pcpWorldSize := by
  obtain ⟨c₀, _, _, _, _, hb, hshape⟩ := h.built
  have hfits := hb.kindFits
  unfold KVCacheCoordinator.KindFits at hfits ⊢
  rwa [hshape.kind]

end

lemma blockSize_new_pos (h : 0 < spec.blockSize) (enableCaching : Bool) (i dcp pcp : ℕ) :
    0 < (SingleTypeKVCacheManager.new spec enableCaching i dcp pcp).blockSize := by
  unfold SingleTypeKVCacheManager.new
  split
  · exact Nat.mul_pos h (by omega)
  · exact h

section

variable (h : AccountingInv config hashBlockSize dcpWorldSize pcpWorldSize k)
include h

lemma AccountingInv.managersFit
    (hgroups : ∀ spec ∈ config.kvCacheGroups, ValidGroup spec) : k.coordinator.ManagersFit := by
  intro m hm
  obtain ⟨i, hi⟩ := mem_iff_getElem?.mp hm
  obtain ⟨spec, cch, hspec, hset⟩ := h.manager hi
  have hvalid := hgroups spec (mem_of_getElem? hspec)
  refine ⟨?_, SingleTypeKVCacheManager.windowFits_of_positive fun attn window hm =>
    hvalid.window_pos attn window (hset.kvCacheSpec.symm.trans hm)⟩
  rw [hset.blockSize]
  exact blockSize_new_pos hvalid.blockSize_pos _ _ _ _

lemma AccountingInv.hits  (hdcp : 0 < dcpWorldSize) (hpcp : 0 < pcpWorldSize) {request : Request}
    {blocks : List (List BlockId)} {n : ℕ} (hlookup : k.HitsOfLookup request blocks n)
    (hdist : k.DistinctHashes request) {args : AllocateSlotsArgs}
    (hwithin : k.HitsWithinTokens request blocks n args) :
    k.coordinator.HitsFit blocks (numLocalComputedTokens request n) args.numExternalComputedTokens := by
  intro i m hi
  have hempty : blocksOfGroup k.emptyKvCacheBlocks i = [] := by
    unfold blocksOfGroup emptyKvCacheBlocks
    rw [getD_eq_getElem?_getD, List.getElem?_map]
    cases k.singleTypeManagers[i]? <;> rfl
  have hhit : blocksOfGroup blocks i = [] ∨
      KVCacheCoordinator.HitOf k.blockPool hashBlockSize m.blockSize request.blockHashes i
        (blocksOfGroup blocks i) := by
    rcases hlookup with hlookup | ⟨rfl, -⟩
    · unfold getComputedBlocks at hlookup
      split at hlookup
      · obtain ⟨rfl, -⟩ := ok_pair_inj hlookup
        exact .inl hempty
      · obtain ⟨spec, cch, hspec, hset⟩ := h.manager hi
        exact findLongestCacheHit_hitOf hi hspec hset h.kindFits hdcp hpcp
          h.accounts.valid.coherent hlookup
    · exact .inl hempty
  refine ⟨fun b hb hne => ?_, ?_, fun hext => ?_⟩
  · rcases hhit with hnil | hhit
    · rw [hnil] at hb
      cases hb
    · exact hhit.usable h.accounts.valid hb hne
  · rcases hhit with hnil | hhit
    · rw [hnil]
      exact nodup_nil
    · refine hhit.nodup fun hashes hl => hdist m (mem_of_getElem? hi) hashes ?_
      rw [h.hashBlockSize_eq, hl]
      rfl
  · obtain ⟨spec, cch, -, hset⟩ := h.manager hi
    have hle := hwithin hext m (mem_of_getElem? hi)
    rwa [hset.kvCacheGroupId] at hle

end

section Steps

variable (h : AccountingInv config hashBlockSize dcpWorldSize pcpWorldSize k)

include h

lemma AccountingInv.withBlockPool {p : BlockPool} (hv : p.Valid k.coordinator.held)
    (hcfg : k.blockPool.SameConfig p) :
    AccountingInv config hashBlockSize dcpWorldSize pcpWorldSize (k.withBlockPool p) :=
  h.of_coordinator ⟨h.accounts.withPool hv, .withPool _ hcfg⟩

section

variable (hgroups : ∀ spec ∈ config.kvCacheGroups, ValidGroup spec)
include hgroups

lemma AccountingInv.allocateSlots
    {request : Request} {hits : List (List BlockId)} {n : ℕ} {args : AllocateSlotsArgs}
    (hhits : k.coordinator.HitsFit hits (numLocalComputedTokens request n)
      args.numExternalComputedTokens) {new : Option (List (List BlockId))}
    (hok : k.allocateSlots request hits n args = .ok (new, k')) :
    AccountingInv config hashBlockSize dcpWorldSize pcpWorldSize k' := by
  simp only [KVCacheManager.allocateSlots, bind_eq_ok] at hok
  obtain ⟨_, -, c, hremove, need, -, hok⟩ := hok
  obtain ⟨hacc, hshape⟩ := removeSkippedBlocks_accounted h.accounts hremove
  have hc : AccountingInv config hashBlockSize dcpWorldSize pcpWorldSize
      { k with coordinator := c } := h.of_coordinator ⟨hacc, hshape⟩
  split at hok
  · obtain ⟨-, rfl⟩ := ok_pair_inj hok
    exact hc
  · simp only [bind_eq_ok, Prod.exists] at hok
    obtain ⟨c1, hcomputed, new', c2, hnew, hok⟩ := hok
    have h1 : c1.Accounts ∧ c.SameShape c1 := by
      split at hcomputed
      · refine allocateNewComputedBlocks_accounted hacc
          (hc.managersFit hgroups) (fun i m' hi => ?_) hcomputed
        obtain ⟨m, hm, hset⟩ := hshape.manager hi
        obtain ⟨husable, hnd, hle⟩ := hhits i m hm
        rw [← hset.blockSize] at hle
        rw [← hshape.config.usable_eq] at husable
        exact ⟨husable, hnd, hle⟩
      · obtain rfl := ok.inj hcomputed
        exact ⟨hacc, .refl c⟩
    obtain ⟨hacc2, hshape2⟩ := allocateNewBlocks_accounted h1.1 hnew
    have h2 : AccountingInv config hashBlockSize dcpWorldSize pcpWorldSize
        { k with coordinator := c2 } := hc.of_coordinator ⟨hacc2, h1.2.trans hshape2⟩
    split at hok
    · obtain ⟨-, rfl⟩ := ok_pair_inj hok
      exact h2
    · simp only [bind_eq_ok, pure_eq_ok, ok.injEq, Prod.mk.injEq] at hok
      obtain ⟨c3, hcache, -, rfl⟩ := hok
      exact h2.of_coordinator (cacheBlocks_accounted hacc2 hcache)

lemma AccountingInv.step
    (hdcp : 0 < dcpWorldSize) (hpcp : 0 < pcpWorldSize) {op : Op} (hclean : k.CleanCall op)
    (hok : k.step op = .ok k') : AccountingInv config hashBlockSize dcpWorldSize pcpWorldSize k' := by
  cases op with
  | allocateSlots request hits n args =>
    simp only [KVCacheManager.step, bind_eq_ok, pure_eq_ok, ok.injEq, Prod.exists] at hok
    obtain ⟨new, k1, hok, rfl⟩ := hok
    exact h.allocateSlots hgroups (h.hits hdcp hpcp hclean.1 hclean.2.1 hclean.2.2) hok
  | free request =>
    simp only [KVCacheManager.step, KVCacheManager.free, bind_eq_ok, pure_eq_ok, ok.injEq] at hok
    obtain ⟨c, hc, rfl⟩ := hok
    exact h.of_coordinator (free_accounted h.accounts hc)
  | removeSkippedBlocks requestId total =>
    simp only [KVCacheManager.step, KVCacheManager.removeSkippedBlocks, bind_eq_ok, pure_eq_ok, ok.injEq] at hok
    obtain ⟨c, hc, rfl⟩ := hok
    exact h.of_coordinator (removeSkippedBlocks_accounted h.accounts hc)
  | cacheBlocks request n =>
    simp only [KVCacheManager.step, KVCacheManager.cacheBlocks] at hok
    split at hok
    · simp only [bind_eq_ok, pure_eq_ok, ok.injEq] at hok
      obtain ⟨c, hc, rfl⟩ := hok
      exact h.of_coordinator (cacheBlocks_accounted h.accounts hc)
    · obtain rfl := ok.inj hok
      exact h
  | evictBlocks blockIds =>
    simp only [KVCacheManager.step, KVCacheManager.evictBlocks, bind_eq_ok, pure_eq_ok, ok.injEq] at hok
    obtain ⟨p, hp, rfl⟩ := hok
    have he := evictBlocks_spec h.accounts.valid.coherent hp
    exact h.withBlockPool (h.accounts.valid.evicted he) he.config
  | resetPrefixCache =>
    obtain rfl := ok.inj hok
    have he := (resetPrefixCache_spec h.accounts.valid.coherent).1
    exact h.withBlockPool (h.accounts.valid.evicted he) he.config

end

end Steps

def occurrences (k : KVCacheManager) (b : BlockId) : ℕ :=
  (k.singleTypeManagers.map fun m => m.reqToBlocks.sum fun _ blocks => blocks.count b).sum

/-- Counts are occurrences, and just the unreferenced blocks are free, once. -/
structure Accounting (k : KVCacheManager) : Prop where
  refCnt_eq : ∀ b < k.blockPool.numGpuBlocks, b ≠ nullBlock → (k.blockPool.blocks b).refCnt = k.occurrences b
  count_free : ∀ b < k.blockPool.numGpuBlocks, b ≠ nullBlock → k.blockPool.freeBlockQueue.blocks.count b =
      if (k.blockPool.blocks b).refCnt = 0 then 1 else 0
  null_not_free : nullBlock ∉ k.blockPool.freeBlockQueue.blocks
  numFree_eq : k.blockPool.getNumFreeBlocks + ((Finset.range k.blockPool.numGpuBlocks).filter
      (fun b => b ≠ nullBlock ∧ 0 < (k.blockPool.blocks b).refCnt)).card + 1 = k.blockPool.numGpuBlocks

lemma count_heldOf (d : Dict RequestId (List BlockId)) (hb : b ≠ nullBlock) :
    (SingleTypeKVCacheManager.heldOf d).count b = d.sum fun _ l => l.count b := by
  have hlive : ∀ l : List BlockId, (live l).count b = l.count b := fun l => by
    exact count_filter (by simpa using hb)
  unfold SingleTypeKVCacheManager.heldOf Dict.sum
  induction d.entries with
  | nil => rfl
  | cons e rest ih =>
    simp only [map_cons, sum_cons, Multiset.count_add, Multiset.coe_count, hlive, ih]

lemma count_held (k : KVCacheManager) (hb : b ≠ nullBlock) : k.coordinator.held.count b = k.occurrences b := by
  unfold held occurrences singleTypeManagers
  induction k.coordinator.singleTypeManagers with
  | nil => rfl
  | cons m rest ih =>
    simp only [map_cons, sum_cons, Multiset.count_add, ih]
    congr 1
    exact count_heldOf m.reqToBlocks hb

lemma getNumFreeBlocks_add_card (h : k.coordinator.Accounts) (hpos : 0 < k.blockPool.numGpuBlocks) :
    k.blockPool.getNumFreeBlocks + k.coordinator.held.toFinset.card + 1 = k.blockPool.numGpuBlocks := by
  have husable : k.blockPool.usable.card + 1 = k.blockPool.numGpuBlocks := by
    have hnull : nullBlock ∈ Finset.range k.blockPool.numGpuBlocks := Finset.mem_range.mpr hpos
    unfold usable
    rw [Finset.card_erase_of_mem hnull, Finset.card_range]
    omega
  have hlen : k.blockPool.freeBlockQueue.numFreeBlocks =
      k.blockPool.freeBlockQueue.blocks.length := h.valid.numFree
  have hcard := h.valid.accounts.free_length_add_card
  change k.blockPool.freeBlockQueue.blocks.length + _ = k.blockPool.usable.card at hcard
  unfold getNumFreeBlocks
  omega

lemma accounting_of_accounts (h : k.coordinator.Accounts) (hpos : 0 < k.blockPool.numGpuBlocks) : k.Accounting := by
  have hacc := h.valid.accounts
  have hdom : ∀ b, b ∈ k.blockPool.usable ↔ b ≠ nullBlock ∧ b < k.blockPool.numGpuBlocks :=
    fun b => by simp [usable]
  have hrefs : ∀ b ∈ k.blockPool.usable,
      (k.blockPool.blocks b).refCnt = k.coordinator.held.count b := fun b hb => hacc.refs_eq b hb
  refine ⟨fun b hlt hne => ?_, fun b hlt hne => ?_, fun hnull => ?_, ?_⟩
  · rw [← count_held k hne]
    exact hrefs b ((hdom b).mpr ⟨hne, hlt⟩)
  · have hb := (hdom b).mpr ⟨hne, hlt⟩
    have hnd : k.blockPool.freeBlockQueue.blocks.Nodup := hacc.nodup
    have hfree : b ∈ k.blockPool.freeBlockQueue.blocks ↔ (k.blockPool.blocks b).refCnt = 0 :=
      hacc.mem_free_iff_refs hb
    rw [hnd.count]
    simp only [hfree]
  · exact h.valid.ne_null_of_mem_queue hnull rfl
  · have hfilter : (Finset.range k.blockPool.numGpuBlocks).filter
        (fun b => b ≠ nullBlock ∧ 0 < (k.blockPool.blocks b).refCnt) = k.coordinator.held.toFinset := by
      ext b
      simp only [Finset.mem_filter, Finset.mem_range, Multiset.mem_toFinset]
      constructor
      · rintro ⟨hlt, hne, hpos⟩
        rw [hrefs b ((hdom b).mpr ⟨hne, hlt⟩)] at hpos
        exact Multiset.count_pos.mp (by exact_mod_cast hpos)
      · intro hb
        have hmem := hacc.held_mem b hb
        refine ⟨((hdom b).mp hmem).2, ((hdom b).mp hmem).1, ?_⟩
        rw [hrefs b hmem]
        exact_mod_cast Multiset.count_pos.mpr hb
    rw [hfilter]
    exact getNumFreeBlocks_add_card h hpos

/-- In runs that pass distinct hits of computed tokens the pool accounts for all blocks. -/
theorem reaches_accounting (config : KVCacheConfig) (maxModelLen hashBlockSize dcpWorldSize pcpWorldSize : ℕ)
    (enableCaching useEagle enableKvCacheEvents useIntBlockHashes : Bool) (k₀ k : KVCacheManager)
    (hgroups : ∀ spec ∈ config.kvCacheGroups, ValidGroup spec) (hdcp : 0 < dcpWorldSize) (hpcp : 0 < pcpWorldSize)
    (hnew : new config maxModelLen hashBlockSize enableCaching useEagle enableKvCacheEvents
      useIntBlockHashes dcpWorldSize pcpWorldSize = .ok k₀)
    (hrun : Reaches step CleanCall k₀ k) : k.Accounting := by
  have h : AccountingInv config hashBlockSize dcpWorldSize pcpWorldSize k :=
    hrun.invariant (new_inv hgroups hnew) fun s op s' hs hclean hok =>
      hs.step hgroups hdcp hpcp hclean hok
  obtain ⟨c₀, _, _, _, _, hb, hshape⟩ := h.built
  obtain ⟨pool, hpool, heq⟩ := hb.pool
  have hnum : 0 < k.blockPool.numGpuBlocks := by
    change 0 < k.coordinator.blockPool.numGpuBlocks
    rw [hshape.config.numGpuBlocks, heq fun spec hs => (hgroups spec hs).noSink, (new_spec hpool).2.1]
    exact (new_spec hpool).2.2.2.2.2.2.2
  exact accounting_of_accounts h.accounts hnum

def fourTokens (requestId : RequestId) : Request :=
  { requestId, promptTokenIds := none, numPromptTokens := 4, allTokenIds := [0, 0, 0, 0]
    samplingParams := ⟨1, 0, false, []⟩, maxTokens := 1, blockHashes := [[1], [2], [3], [4]] }

def sharedPrefixOps : List Op :=
  [.allocateSlots (fourTokens "a") [[], []] 0 { numNewTokens := 4 }, .free (fourTokens "a"),
    .allocateSlots (fourTokens "b") [[1, 2, 3], [0, 0, 7]] 3
      { numNewTokens := 0, numExternalComputedTokens := 1 }]

theorem reaches_accounting_shared_prefix : ∃ k₀ k,
    new ⟨16, [KVCacheCoordinator.fullSpec 1, KVCacheCoordinator.windowSpec 1]⟩ 100 1 true false
      false false 1 1 = .ok k₀ ∧ runAllowed step CleanCall k₀ sharedPrefixOps = some k ∧ k.Accounting := by
  obtain ⟨k₀, h0⟩ := exists_eq_ok_of_isOk (x := new ⟨16, [fullSpec 1,
    windowSpec 1]⟩ 100 1 true false false false 1 1) (by decide)
  have hrun : ((new ⟨16, [fullSpec 1, windowSpec 1]⟩ 100 1
      true false false false 1 1).toOption.bind
        (runAllowed step CleanCall · sharedPrefixOps)).isSome = true := by decide +kernel
  rw [h0] at hrun
  obtain ⟨k, hk⟩ := Option.isSome_iff_exists.mp hrun
  refine ⟨k₀, k, h0, hk, reaches_accounting ⟨16, [fullSpec 1,
    windowSpec 1]⟩ 100 1 1 1 true false false false k₀ k ?_ Nat.one_pos
    Nat.one_pos h0 (Reaches.start.append_runAllowed hk)⟩
  intro spec hspec
  rcases mem_cons.mp hspec with rfl | hspec
  · exact ⟨fun _ _ _ _ _ h => (nomatch h), Nat.one_pos, fun _ _ h => (nomatch h)⟩
  · obtain rfl := mem_singleton.mp hspec
    refine ⟨fun _ _ _ _ _ h => (nomatch h), Nat.one_pos, fun attn window h => ?_⟩
    cases h
    exact Nat.two_pos

/-- Two blocks of the sliding window group are evicted before the second request comes. -/
def evictedWindowOps : List Op :=
  [.allocateSlots (fourTokens "a") [[], [], []] 0 { numNewTokens := 4 }, .free (fourTokens "a"),
    .evictBlocks [10, 11],
    .allocateSlots (fourTokens "b") [[1], [5, 6, 7], [9]] 1
      { numNewTokens := 1, numExternalComputedTokens := 1 }]

/-- Three hit blocks for two computed tokens: one block less than none is taken. -/
theorem accounting_broken : ∃ k₀ k, new ⟨16, [KVCacheCoordinator.fullSpec 1, KVCacheCoordinator.fullSpec 2,
      KVCacheCoordinator.windowSpec 1]⟩ 100 1 true false false false 1 1 = .ok k₀ ∧
    Reaches step SchedulerCall k₀ k ∧ ¬k.Accounting := by
  obtain ⟨k₀, h0⟩ := exists_eq_ok_of_isOk (x := new ⟨16, [fullSpec 1,
    fullSpec 2, windowSpec 1]⟩ 100 1 true false false false
    1 1) (by decide)
  have hrun : ((new ⟨16, [fullSpec 1, fullSpec 2,
      windowSpec 1]⟩ 100 1 true false false false 1 1).toOption.bind
        (runAllowed step SchedulerCall · evictedWindowOps)).map (fun k =>
      (k.blockPool.getNumFreeBlocks, ((Finset.range k.blockPool.numGpuBlocks).filter
        (fun b => b ≠ nullBlock ∧ 0 < (k.blockPool.blocks b).refCnt)).card,
        k.blockPool.numGpuBlocks)) = some (8, 8, 16) := by decide +kernel
  rw [h0] at hrun
  obtain ⟨k, hk, hnum⟩ := Option.map_eq_some_iff.mp hrun
  refine ⟨k₀, k, h0, Reaches.start.append_runAllowed hk, fun hacc => ?_⟩
  have hfree := hacc.numFree_eq
  simp only [Prod.mk.injEq] at hnum
  rw [hnum.2.1] at hfree
  omega

end KVCacheManager

end CustomAi.Vllm
