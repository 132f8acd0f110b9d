import CustomAi.Vllm.KVCacheManager
import CustomAi.Vllm.ManagerAccounting

/-!
# The capacity check of one group

What the inherited methods of a manager predict, and what they take from the pool.
-/

namespace CustomAi.Vllm

open List Except BlockPool

/-- The arguments a call of `allocate_slots` passes on to one manager. -/
structure GroupCall where
  requestId : RequestId
  newComputedBlocks : List BlockId
  numLocalComputedTokens : ℕ
  numExternalComputedTokens : ℕ
  numTokensNeedSlot : ℕ
  numTokensMainModel : ℕ
  hasComputed : Bool

/-- Whether `allocate_slots` passes computed blocks to the managers. -/
def KVCacheManager.hasComputed (newComputedBlocks : List (List BlockId))
    (args : KVCacheManager.AllocateSlotsArgs) : Bool :=
  (∃ blocks ∈ newComputedBlocks, blocks ≠ []) ∨ args.numExternalComputedTokens > 0

/-- What a call passes on to the `i`-th manager. -/
def KVCacheManager.groupCall (k : KVCacheManager) (request : Request)
    (newComputedBlocks : List (List BlockId)) (numNewComputedTokens : ℕ)
    (args : KVCacheManager.AllocateSlotsArgs) (i : ℕ) : GroupCall where
  requestId := request.requestId
  newComputedBlocks := KVCacheCoordinator.blocksOfGroup newComputedBlocks i
  numLocalComputedTokens := KVCacheManager.numLocalComputedTokens request numNewComputedTokens
  numExternalComputedTokens := args.numExternalComputedTokens
  numTokensNeedSlot := k.numTokensNeedSlot request numNewComputedTokens args
  numTokensMainModel := k.numTokensMainModel request numNewComputedTokens args
  hasComputed := KVCacheManager.hasComputed newComputedBlocks args

namespace GroupCall

variable (a : GroupCall)

def numTotalComputedTokens : ℕ := a.numLocalComputedTokens + a.numExternalComputedTokens

def predict (m : SingleTypeKVCacheManager) (p : BlockPool) : Except PyError ℤ :=
  m.getNumBlocksToAllocate p a.requestId a.numTokensNeedSlot a.newComputedBlocks
    a.numTotalComputedTokens a.numTokensMainModel

def allocateComputed (m : SingleTypeKVCacheManager) (p : BlockPool) :
    Except PyError (SingleTypeKVCacheManager × BlockPool) :=
  if a.hasComputed then m.allocateNewComputedBlocks p a.requestId a.newComputedBlocks
    a.numLocalComputedTokens a.numExternalComputedTokens
  else .ok (m, p)

def allocateNew (m : SingleTypeKVCacheManager) (p : BlockPool) :
    Except PyError (List BlockId × SingleTypeKVCacheManager × BlockPool) :=
  m.allocateNewBlocks p a.requestId a.numTokensNeedSlot a.numTokensMainModel

/-- The hits are held by no fewer requests in `p₁` than in `p`. -/
def HitsHeld (p p₁ : BlockPool) : Prop :=
  ∀ b ∈ a.newComputedBlocks, (p₁.blocks b).isNull = (p.blocks b).isNull ∧
    ((p.blocks b).isNull = false → 0 ≤ p.refs b ∧ p.refs b ≤ p₁.refs b)

/-- The capacity check holds for one manager: what is taken is no more than predicted, and no
assertion fails. -/
structure Checked (m : SingleTypeKVCacheManager) (p : BlockPool) (need : ℤ) : Prop where
  predicted : a.predict m p = .ok need
  nonneg : 0 ≤ need
  taken_le : ∀ p₁ m₁ p₁', a.HitsHeld p p₁ → a.allocateComputed m p₁ = .ok (m₁, p₁') →
    ∀ p₂ new m₂ p₂', a.allocateNew m₁ p₂ = .ok (new, m₂, p₂') → (p₁.getNumFreeBlocks - p₁'.getNumFreeBlocks) +
        (p₂.getNumFreeBlocks - p₂'.getNumFreeBlocks) ≤ need
  no_assertion : ∀ p₁ m₁ p₁', a.HitsHeld p p₁ → a.allocateComputed m p₁ = .ok (m₁, p₁') →
    ∀ p₂ held, p₂.Valid held → ∀ message, a.allocateNew m₁ p₂ ≠ .error (.assertionError message)

end GroupCall

namespace SingleTypeKVCacheManager

variable {m m' : SingleTypeKVCacheManager} {p p' p₁ : BlockPool} {r : RequestId}
  {hits : List BlockId} {numLocal numExternal : ℕ}

lemma getNumEvictableBlocks_le_of_held {l : List BlockId} (h : ∀ b ∈ l, (p₁.blocks b).isNull = (p.blocks b).isNull ∧
      ((p.blocks b).isNull = false → 0 ≤ p.refs b ∧ p.refs b ≤ p₁.refs b)) :
    getNumEvictableBlocks p₁ l ≤ getNumEvictableBlocks p l := by
  unfold getNumEvictableBlocks
  induction l with
  | nil => exact le_refl 0
  | cons b rest ih =>
    have hrest := ih fun x hx => h x (mem_cons_of_mem b hx)
    obtain ⟨hnull, hle⟩ := h b mem_cons_self
    rw [filter_cons, filter_cons]
    by_cases h1 : (decide ((p₁.blocks b).refCnt = 0) && !(p₁.blocks b).isNull) = true
    · have h0 : (decide ((p.blocks b).refCnt = 0) && !(p.blocks b).isNull) = true := by
        simp only [Bool.and_eq_true, decide_eq_true_eq, Bool.not_eq_true'] at h1 ⊢
        have hn := hnull ▸ h1.2
        have hz : p₁.refs b = 0 := h1.1
        obtain ⟨hpos, hle⟩ := hle hn
        have : p.refs b = 0 := by omega
        exact ⟨this, hn⟩
      rw [if_pos h1, if_pos h0, length_cons]
      exact Nat.succ_le_succ hrest
    · rw [if_neg h1]
      split
      · exact hrest.trans (Nat.le_succ _)
      · exact hrest

lemma baseAllocateNewComputedBlocks_taken (hc : m.numCachedBlock.contains r = false)
    (hhits : ∀ b ∈ hits, (p.blocks b).isNull = false → 0 ≤ p.refs b)
    (hok : m.baseAllocateNewComputedBlocks p r hits numLocal numExternal = .ok (m', p')) :
    p.getNumFreeBlocks - p'.getNumFreeBlocks ≤
        getNumEvictableBlocks p (hits.drop (m.numSkippedBlocks (numLocal + numExternal))) +
          m.externalBlocks hits numLocal numExternal ∧
      (m'.reqBlocks r).length = max (m.numSkippedBlocks (numLocal + numExternal)) hits.length +
        (m.externalBlocks hits numLocal numExternal).toNat := by
  obtain ⟨-, p₁, new, htouch, hnew, hreq, -⟩ := baseAllocateNewComputedBlocks_cases hc hok
  have hle := touch_free_le (fun b hb => hhits b (mem_of_mem_drop hb)) htouch
  have hlen : (m'.reqBlocks r).length =
      max (m.numSkippedBlocks (numLocal + numExternal)) hits.length + new.length := by
    rw [reqBlocks_of_set hreq, if_pos rfl, length_append, length_append, length_replicate, length_drop]
    omega
  split at hnew
  · obtain ⟨hl, hfree⟩ := getNewBlocks_free hnew
    rw [hlen, hl]
    exact ⟨by omega, rfl⟩
  · rename_i hpos
    obtain ⟨rfl, rfl⟩ := hnew
    have hzero : m.externalBlocks hits numLocal numExternal = 0 := if_neg hpos
    rw [hlen, hzero]
    exact ⟨by omega, rfl⟩

lemma baseAllocateNewBlocks_taken {n : ℕ} {new : List BlockId}
    (hok : m.baseAllocateNewBlocks p r n = .ok (new, m', p')) : p.getNumFreeBlocks - p'.getNumFreeBlocks =
      max 0 ((cdiv n m.blockSize : ℤ) - (m.reqBlocks r).length) := by
  rcases baseAllocateNewBlocks_cases hok with ⟨-, rfl, hle⟩ | ⟨hlt, hget, -⟩
  · omega
  · have hfree := (getNewBlocks_free hget).2
    omega

lemma baseAllocateNewBlocks_ne_assertion {held : Multiset BlockId} (hv : p.Valid held) {n : ℕ}
    {message : String} : m.baseAllocateNewBlocks p r n ≠ .error (.assertionError message) := by
  intro hok
  unfold baseAllocateNewBlocks at hok
  simp only [] at hok
  split at hok
  · cases hok
  · rename_i hpos
    rcases hv.getNewBlocks_eq (le_of_lt (not_le.mp hpos)) with ⟨herr, -⟩ | ⟨ret, p', hget⟩
    · rw [herr] at hok
      cases hok
    · rw [hget] at hok
      cases hok

lemma baseGetNumBlocksToAllocate_eq {numTokens total : ℕ} (h : m.numCachedBlock.contains r = true → hits = []) :
    m.baseGetNumBlocksToAllocate p r numTokens hits total = .ok ( if m.numCachedBlock.contains r = true then
        max ((cdiv numTokens m.blockSize : ℤ) - (m.reqBlocks r).length) 0
      else max ((cdiv numTokens m.blockSize : ℤ) -
          max (m.getNumSkippedTokens total / m.blockSize) (hits.length + (m.reqBlocks r).length)) 0 +
        getNumEvictableBlocks p (hits.drop (m.numSkippedBlocks total - (m.reqBlocks r).length))) := by
  unfold baseGetNumBlocksToAllocate
  by_cases hc : m.numCachedBlock.contains r = true
  · simp [hc, h hc]
  · have hdrop : (max 0 (m.getNumSkippedTokens total / (m.blockSize : ℤ) -
        ((m.reqBlocks r).length : ℤ))).toNat = m.numSkippedBlocks total - (m.reqBlocks r).length := by
      unfold numSkippedBlocks
      omega
    simp only [hc, Bool.false_eq_true, ite_false, pure_eq_ok, hdrop]

end SingleTypeKVCacheManager

end CustomAi.Vllm
