import CustomAi.Vllm.KVCacheAccounting

/-!
# Resetting the prefix cache

`reset_prefix_cache` succeeds when all blocks but the null block are in the free queue.
-/

namespace CustomAi.Vllm

open List Except SingleTypeKVCacheManager BlockPool

namespace KVCacheCoordinator

variable {enableCaching : Bool} {dcpWorldSize pcpWorldSize : ℕ} {p p' : BlockPool}

lemma getManagerForKvCacheSpec_free {spec : KVCacheSpec} {i : ℕ} {m : SingleTypeKVCacheManager}
    (hok : getManagerForKvCacheSpec spec p enableCaching i dcpWorldSize pcpWorldSize = .ok (m, p')) :
    p'.numGpuBlocks = p.numGpuBlocks ∧ p'.getNumFreeBlocks ≤ p.getNumFreeBlocks ∧
      (¬ NoSink spec → p'.getNumFreeBlocks < p.getNumFreeBlocks) := by
  by_cases hsink : NoSink spec
  · rw [(getManagerForKvCacheSpec_spec hok).2 hsink]
    exact ⟨rfl, le_refl _, fun h => absurd hsink h⟩
  · unfold NoSink at hsink
    push Not at hsink
    obtain ⟨attn, headSizeV, window, chunk, sinkLen, rfl⟩ := hsink
    unfold getManagerForKvCacheSpec at hok
    cases sinkLen with
    | none => cases hok
    | some sinkLen =>
      simp only [bind_eq_ok, ensure_eq_ok, pure_eq_ok, ok.injEq, Prod.mk.injEq, Prod.exists] at hok
      obtain ⟨_, ⟨hpos, hmod⟩, blocks, queue, hpop, rfl, rfl⟩ := hok
      -- the sink takes at least one block
      generalize (SingleTypeKVCacheManager.new _ enableCaching i dcpWorldSize
        pcpWorldSize).blockSize = blockSize at hmod hpop
      have hblocks : 0 < sinkLen / blockSize := by
        have hdiv := Nat.div_add_mod sinkLen blockSize
        rw [hmod] at hdiv
        refine Nat.pos_of_ne_zero fun hzero => ?_
        rw [hzero] at hdiv
        omega
      have hlt : queue.numFreeBlocks < p.freeBlockQueue.numFreeBlocks := by
        unfold FreeKVCacheBlockQueue.popleftN at hpop
        rw [if_neg (by exact_mod_cast hblocks.ne')] at hpop
        simp only [bind_eq_ok, pure_eq_ok, ok.injEq, Prod.mk.injEq] at hpop
        obtain ⟨_, _, _, _, _, rfl⟩ := hpop
        dsimp only
        omega
      exact ⟨rfl, hlt.le, fun _ => hlt⟩

lemma newManagers_free {specs : List KVCacheSpec} {i : ℕ} {ms : List SingleTypeKVCacheManager}
    (hok : newManagers enableCaching dcpWorldSize pcpWorldSize i specs p = .ok (ms, p')) :
    p'.numGpuBlocks = p.numGpuBlocks ∧ p'.getNumFreeBlocks ≤ p.getNumFreeBlocks ∧
      ((∃ spec ∈ specs, ¬ NoSink spec) → p'.getNumFreeBlocks < p.getNumFreeBlocks) := by
  induction specs generalizing i p ms with
  | nil =>
    obtain ⟨rfl, rfl⟩ := ok_pair_inj hok
    exact ⟨rfl, le_refl _, fun ⟨spec, hspec, _⟩ => by cases hspec⟩
  | cons spec specs ih =>
    simp only [newManagers, bind_eq_ok, pure_eq_ok, ok.injEq, Prod.mk.injEq, Prod.exists] at hok
    obtain ⟨m, p1, hm, ms', p2, hms, rfl, rfl⟩ := hok
    obtain ⟨hnum, hle, hlt⟩ := getManagerForKvCacheSpec_free hm
    obtain ⟨hnum', hle', hlt'⟩ := ih hms
    refine ⟨hnum'.trans hnum, hle'.trans hle, ?_⟩
    rintro ⟨spec', hspec', hsink⟩
    obtain rfl | hspec' := mem_cons.mp hspec'
    · exact hle'.trans_lt (hlt hsink)
    · exact (hlt' ⟨spec', hspec', hsink⟩).trans_le hle

lemma getKvCacheCoordinator_free {config : KVCacheConfig} {useEagle events useInt : Bool}
    {hashBlockSize : ℕ} {c : KVCacheCoordinator}
    (hok : getKvCacheCoordinator config useEagle enableCaching events useInt dcpWorldSize
      pcpWorldSize hashBlockSize = .ok c) (hsink : ∃ spec ∈ config.kvCacheGroups, ¬ NoSink spec) :
    c.blockPool.getNumFreeBlocks + 1 < c.blockPool.numGpuBlocks := by
  simp only [getKvCacheCoordinator, bind_eq_ok, Prod.exists] at hok
  obtain ⟨pool, hpool, ms, p, hms, hok⟩ := hok
  obtain ⟨-, hnum, -, -, -, -, hqueue, -⟩ := new_spec hpool
  obtain ⟨hnum', -, hlt⟩ := newManagers_free hms
  have hfree : p.getNumFreeBlocks + 1 < p.numGpuBlocks := by
    have hlt := hlt hsink
    unfold getNumFreeBlocks at hlt ⊢
    rw [hqueue] at hlt
    rw [hnum']
    dsimp only at hlt
    omega
  split at hok
  · obtain rfl := ok.inj hok
    exact hfree
  · split at hok
    · simp only [bind_eq_ok, pure_eq_ok, ok.injEq] at hok
      obtain ⟨_, _, rfl⟩ := hok
      exact hfree
    · simp only [bind_eq_ok, pure_eq_ok, ok.injEq, Prod.exists] at hok
      obtain ⟨_, _, _, _, _, _, groups, lcm, _, rfl⟩ := hok
      exact hfree

end KVCacheCoordinator

namespace KVCacheManager

variable {config : KVCacheConfig} {hashBlockSize dcpWorldSize pcpWorldSize : ℕ}
  {k k' : KVCacheManager}

def SomeHeld (k : KVCacheManager) : Prop :=
  ∃ m ∈ k.singleTypeManagers, ∃ requestId, ∃ b ∈ m.reqBlocks requestId, b ≠ nullBlock

structure Cleared (k : KVCacheManager) : Prop where
  blockHash : ∀ b, (k.blockPool.blocks b).blockHash = none
  getOneBlock : ∀ key, k.blockPool.cachedBlockHashToBlock.getOneBlock key = none

/-- The cache is cleared exactly when no block is held. -/
structure ResetsWhenIdle (k : KVCacheManager) : Prop where
  idle : ¬ k.SomeHeld → k.resetPrefixCache.1 = true ∧ k.resetPrefixCache.2.Cleared
  busy : k.SomeHeld → k.resetPrefixCache = (false, k)

lemma resetPrefixCache_cases (h : k.blockPool.Coherent) :
    ((k.blockPool.numGpuBlocks : ℤ) - k.blockPool.getNumFreeBlocks = 1 ∧
      k.resetPrefixCache.1 = true ∧ k.resetPrefixCache.2.Cleared) ∨
    ((k.blockPool.numGpuBlocks : ℤ) - k.blockPool.getNumFreeBlocks ≠ 1 ∧ k.resetPrefixCache = (false, k)) := by
  obtain ⟨hevicted, hsame, hiff⟩ := resetPrefixCache_spec h
  by_cases hdone : k.blockPool.resetPrefixCache.1 = true
  · refine .inl ⟨hiff.mp hdone, hdone, fun b => hevicted.hashOf_of b hdone, fun key => ?_⟩
    cases hone : k.resetPrefixCache.2.blockPool.cachedBlockHashToBlock.getOneBlock key with
    | none => rfl
    | some b =>
      have hstores := (BlockHashToBlockMap.getOneBlock_spec hevicted.coherent.wellFormed key).1 b hone
      have hhash := (hevicted.coherent.stores_iff key b).mp hstores
      rw [hevicted.hashOf_of b hdone] at hhash
      cases hhash
  · refine .inr ⟨fun hone => hdone (hiff.mpr hone), ?_⟩
    have hfalse : k.blockPool.resetPrefixCache.1 = false := by simpa using hdone
    change (k.blockPool.resetPrefixCache.1, k.withBlockPool k.blockPool.resetPrefixCache.2) = _
    rw [hsame hfalse, hfalse]
    rfl

lemma mem_listSum {α : Type*} {a : α} {l : List (Multiset α)} : a ∈ l.sum ↔ ∃ s ∈ l, a ∈ s := by
  induction l with
  | nil => simp
  | cons s rest ih => simp [ih]

lemma mem_held_iff (k : KVCacheManager) (b : BlockId) : b ∈ k.coordinator.held ↔
    ∃ m ∈ k.singleTypeManagers, ∃ requestId, b ∈ m.reqBlocks requestId ∧ b ≠ nullBlock := by
  have hreq : ∀ (m : SingleTypeKVCacheManager) (b : BlockId), b ∈ m.held ↔
      ∃ requestId, b ∈ m.reqBlocks requestId ∧ b ≠ nullBlock := by
    intro m b
    unfold held heldOf Dict.sum
    rw [mem_listSum]
    constructor
    · rintro ⟨_, hs, hb⟩
      obtain ⟨⟨r, l⟩, hentry, rfl⟩ := mem_map.mp hs
      refine ⟨r, ?_⟩
      rw [reqBlocks, (Dict.mem_entries_iff _ r l).mp hentry]
      exact mem_live.mp hb
    · rintro ⟨r, hb⟩
      unfold reqBlocks at hb
      cases hget : m.reqToBlocks.get? r with
      | none => simp [hget] at hb
      | some l =>
        rw [hget] at hb
        exact ⟨_, mem_map_of_mem ((Dict.mem_entries_iff _ r l).mpr hget), mem_live.mpr hb⟩
  unfold KVCacheCoordinator.held singleTypeManagers
  simp only [mem_listSum, mem_map]
  constructor
  · rintro ⟨_, ⟨m, hm, rfl⟩, hb⟩
    exact ⟨m, hm, (hreq m b).mp hb⟩
  · rintro ⟨m, hm, hb⟩
    exact ⟨m.held, ⟨m, hm, rfl⟩, (hreq m b).mpr hb⟩

lemma someHeld_iff (k : KVCacheManager) : k.SomeHeld ↔ ∃ b, b ∈ k.coordinator.held := by
  unfold SomeHeld
  simp only [mem_held_iff]
  constructor
  · rintro ⟨m, hm, r, b, hb⟩
    exact ⟨b, m, hm, r, hb⟩
  · rintro ⟨b, m, hm, r, hb⟩
    exact ⟨m, hm, r, b, hb⟩

lemma resetsWhenIdle_of_accounts (h : k.coordinator.Accounts)
    (hpos : 0 < k.blockPool.numGpuBlocks) : k.ResetsWhenIdle := by
  have hcard := getNumFreeBlocks_add_card h hpos
  have hfree : (k.blockPool.numGpuBlocks : ℤ) - k.blockPool.getNumFreeBlocks = 1 ↔ ¬ k.SomeHeld := by
    have hempty : ¬ k.SomeHeld ↔ k.coordinator.held.toFinset.card = 0 := by
      rw [someHeld_iff, Finset.card_eq_zero, Multiset.toFinset_eq_empty,
        Multiset.eq_zero_iff_forall_notMem, not_exists]
    rw [hempty]
    omega
  obtain ⟨hone, htrue, hcleared⟩ | ⟨hmore, hsame⟩ := resetPrefixCache_cases h.valid.coherent
  · exact ⟨fun _ => ⟨htrue, hcleared⟩, fun hheld => absurd hheld (hfree.mp hone)⟩
  · exact ⟨fun hidle => absurd (hfree.mpr hidle) hmore, fun _ => hsame⟩

lemma AccountingInv.numGpuBlocks_eq (h : AccountingInv config hashBlockSize dcpWorldSize pcpWorldSize k)
    (hgroups : ∀ spec ∈ config.kvCacheGroups, ValidGroup spec) :
    k.blockPool.numGpuBlocks = config.numBlocks ∧ 0 < k.blockPool.numGpuBlocks := by
  obtain ⟨c0, _, _, _, _, hb, hshape⟩ := h.built
  obtain ⟨pool, hpool, heq⟩ := hb.pool
  change k.coordinator.blockPool.numGpuBlocks = _ ∧ 0 < k.coordinator.blockPool.numGpuBlocks
  rw [hshape.config.numGpuBlocks, heq fun spec hs => (hgroups spec hs).noSink, (new_spec hpool).2.1]
  exact ⟨rfl, (new_spec hpool).2.2.2.2.2.2.2⟩

lemma AccountingInv.numGpuBlocks_pos (h : AccountingInv config hashBlockSize dcpWorldSize pcpWorldSize k)
    (hgroups : ∀ spec ∈ config.kvCacheGroups, ValidGroup spec) : 0 < k.blockPool.numGpuBlocks :=
  (h.numGpuBlocks_eq hgroups).2

variable {enableCaching useEagle events useInt : Bool} {maxModelLen : ℕ}

section

variable (hnew : new config maxModelLen hashBlockSize enableCaching useEagle events useInt dcpWorldSize
  pcpWorldSize = .ok k)
include hnew

lemma not_someHeld_new : ¬ k.SomeHeld := by
  simp only [new, bind_eq_ok, pure_eq_ok, ok.injEq] at hnew
  obtain ⟨c, hc, rfl⟩ := hnew
  rintro ⟨m, hm, r, b, hb, -⟩
  obtain ⟨i, hi⟩ := List.mem_iff_getElem?.mp hm
  obtain ⟨spec, -, rfl⟩ := (KVCacheCoordinator.getKvCacheCoordinator_spec hc).managers.get_eq i m hi
  cases hb

lemma not_resetsWhenIdle_new (hsink : ∃ spec ∈ config.kvCacheGroups, ¬ KVCacheCoordinator.NoSink spec) :
    ¬ k.ResetsWhenIdle := by
  intro h
  have htrue := (h.idle (not_someHeld_new hnew)).1
  simp only [new, bind_eq_ok, pure_eq_ok, ok.injEq] at hnew
  obtain ⟨c, hc, rfl⟩ := hnew
  have hfree := KVCacheCoordinator.getKvCacheCoordinator_free hc hsink
  have hused : (c.blockPool.numGpuBlocks : ℤ) - c.blockPool.getNumFreeBlocks ≠ 1 := by omega
  simp [resetPrefixCache, BlockPool.resetPrefixCache, blockPool, hused] at htrue

end

/-- The prefix cache can be reset just when no request holds a block, if and only if there is no
sink group. -/
theorem reaches_resetsWhenIdle_iff (config : KVCacheConfig)
    (maxModelLen hashBlockSize dcpWorldSize pcpWorldSize : ℕ)
    (enableCaching useEagle enableKvCacheEvents useIntBlockHashes : Bool) (k₀ : KVCacheManager)
    (hsizes : ∀ spec ∈ config.kvCacheGroups, 0 < spec.blockSize)
    (hwindows : ∀ attn window, .slidingWindow attn window ∈ config.kvCacheGroups → 0 < window)
    (hdcp : 0 < dcpWorldSize) (hpcp : 0 < pcpWorldSize)
    (hnew : new config maxModelLen hashBlockSize enableCaching useEagle enableKvCacheEvents
      useIntBlockHashes dcpWorldSize pcpWorldSize = .ok k₀) :
    (∀ k, Reaches step CleanCall k₀ k → k.ResetsWhenIdle) ↔
      ∀ spec ∈ config.kvCacheGroups, KVCacheCoordinator.NoSink spec := by
  constructor
  · intro h spec hspec
    by_contra hsink
    exact not_resetsWhenIdle_new hnew ⟨spec, hspec, hsink⟩ (h k₀ .start)
  · intro hsink k hrun
    have hgroups : ∀ spec ∈ config.kvCacheGroups, ValidGroup spec := fun spec hspec =>
      ⟨hsink spec hspec, hsizes spec hspec, fun attn window h => hwindows attn window (h ▸ hspec)⟩
    have h : AccountingInv config hashBlockSize dcpWorldSize pcpWorldSize k :=
      hrun.invariant (new_inv hgroups hnew) fun s op s' hs hclean hok =>
        hs.step hgroups hdcp hpcp hclean hok
    exact resetsWhenIdle_of_accounts h.accounts (h.numGpuBlocks_pos hgroups)

def onePlainGroup : KVCacheConfig := ⟨4, [.fullAttention ⟨1, 1, 1, ⟨"f", 2⟩, none⟩ 1 none none]⟩

def oneSinkGroup : KVCacheConfig :=
  ⟨4, [.sinkFullAttention ⟨1, 1, 1, ⟨"f", 2⟩, none⟩ 1 none none (some 1)]⟩

def oneToken : Request :=
  { requestId := "a", promptTokenIds := none, numPromptTokens := 1, allTokenIds := [0]
    samplingParams := ⟨1, 0, false, []⟩, maxTokens := 1, blockHashes := [[1]] }

/-- A request gets a block and gives it back. -/
theorem reaches_resetsWhenIdle_iff_freed : ∃ k₀ k,
    new onePlainGroup 16 1 true false false false 1 1 = .ok k₀ ∧ runAllowed step CleanCall k₀
      [.allocateSlots oneToken [[]] 0 { numNewTokens := 1 }, .free oneToken] = some k ∧ k.ResetsWhenIdle := by
  obtain ⟨k₀, h0⟩ := exists_eq_ok_of_isOk (x := new onePlainGroup 16 1 true false false false 1 1) (by decide)
  have hrun : ((new onePlainGroup 16 1 true false false false 1 1).toOption.bind
      (runAllowed step CleanCall ·
        [.allocateSlots oneToken [[]] 0 { numNewTokens := 1 }, .free oneToken])).isSome = true := by
    decide +kernel
  rw [h0] at hrun
  obtain ⟨k, hk⟩ := Option.isSome_iff_exists.mp hrun
  have hgroup : ∀ spec ∈ onePlainGroup.kvCacheGroups,
      spec = .fullAttention ⟨1, 1, 1, ⟨"f", 2⟩, none⟩ 1 none none :=
    fun spec hspec => mem_singleton.mp hspec
  refine ⟨k₀, k, h0, hk, (reaches_resetsWhenIdle_iff onePlainGroup 16 1 1 1 true false false false
    k₀ (fun spec hspec => ?_) (fun attn window hspec => ?_) Nat.one_pos Nat.one_pos h0).mpr
    (fun spec hspec => ?_) k (Reaches.start.append_runAllowed hk)⟩
  · rw [hgroup spec hspec]
    exact Nat.one_pos
  · cases hgroup _ hspec
  · rw [hgroup spec hspec]
    exact fun _ _ _ _ _ h => nomatch h

/-- With a sink group the reset of a new cache fails. -/
theorem sink_reset_fails : ∃ k₀, new oneSinkGroup 16 1 true false false false 1 1 = .ok k₀ ∧
    ¬ k₀.ResetsWhenIdle := by
  obtain ⟨k₀, h0⟩ := exists_eq_ok_of_isOk (x := new oneSinkGroup 16 1 true false false false 1 1) (by decide)
  refine ⟨k₀, h0, not_resetsWhenIdle_new h0 ⟨_, mem_singleton_self _, fun h => ?_⟩⟩
  exact h _ _ _ _ _ rfl

end KVCacheManager

end CustomAi.Vllm
