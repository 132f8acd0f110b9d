import CustomAi.Vllm.GroupCapacity
import CustomAi.Vllm.ManagerInvariant

/-!
# The capacity check of Mamba groups

`MambaManager` predicts and consumes blocks with formulas of its own.
-/

namespace CustomAi.Vllm

open List SingleTypeKVCacheManager Except Option

namespace SingleTypeKVCacheManager

variable {m m' : SingleTypeKVCacheManager} {p p' : BlockPool} {r : RequestId}

structure MambaFields where
  specBlockSize : ℕ
  mode : MambaCacheMode
  numSpeculativeBlocks : ℕ

def mambaFields (m : SingleTypeKVCacheManager) : Option MambaFields :=
  match m.kvCacheSpec with
  | .mamba specBlockSize _ _ _ _ mode numSpeculativeBlocks =>
    some ⟨specBlockSize, mode, numSpeculativeBlocks⟩
  | _ => none

variable {f : MambaFields}

lemma mambaFields_congr (h : m'.kvCacheSpec = m.kvCacheSpec) : m'.mambaFields = m.mambaFields := by
  unfold mambaFields
  rw [h]

lemma kvCacheSpec_of_mamba (h : m.mambaFields = some f) : ∃ w x y z,
    m.kvCacheSpec = .mamba f.specBlockSize w x y z f.mode f.numSpeculativeBlocks := by
  unfold mambaFields at h
  split at h
  · obtain rfl := some.inj h
    exact ⟨_, _, _, _, ‹_›⟩
  · cases h

lemma getNumSkippedTokens_of_mamba (h : m.mambaFields = some f) (n : ℕ) :
    m.getNumSkippedTokens n = (n : ℤ) - 1 := by
  obtain ⟨_, _, _, _, heq⟩ := kvCacheSpec_of_mamba h
  rw [getNumSkippedTokens, heq]

lemma isCrossAttention_of_mamba (h : m.mambaFields = some f) : m.isCrossAttention = false := by
  obtain ⟨_, _, _, _, heq⟩ := kvCacheSpec_of_mamba h
  rw [isCrossAttention, heq]
  rfl

section Align

variable {k : ℕ}

lemma reuseSpeculativeBlocks_isOk {numSkipped : ℤ} {count idx : ℕ} {l : List BlockId}
    (h : idx + count ≤ l.length) : (reuseSpeculativeBlocks numSkipped count idx l).isOk = true := by
  induction count generalizing idx l with
  | zero => rfl
  | succ count ih =>
    unfold reuseSpeculativeBlocks
    split
    · rw [pyGet?_natCast]
      cases hget : l[idx]? with
      | none =>
        rw [getElem?_eq_none_iff] at hget
        omega
      | some block =>
        simp only [pySet_natCast]
        rw [show (idx : ℤ) + 1 = ((idx + 1 : ℕ) : ℤ) by rfl]
        apply ih
        rw [length_set, length_append]
        omega
    · rfl

/-- The length of the list when the new blocks are taken, with null and reused blocks. -/
def alignReused (m : SingleTypeKVCacheManager) (r : RequestId) (needed k : ℕ) : ℕ :=
  max (m.reqBlocks r).length (needed - 1) +
    if r ∈ m.allocatedBlockReqs then min k (needed - 1 + k - (m.reqBlocks r).length) else 0

/-- What is left to take is one block, and for a request without blocks of its own also the
speculative ones. -/
lemma alignReused_bounds {needed : ℕ} (hlt : (m.reqBlocks r).length < needed + k) :
    m.alignReused r needed k ≤ needed + k ∧ needed + k - m.alignReused r needed k ≤
      if r ∈ m.allocatedBlockReqs then 1 else k + 1 := by
  unfold alignReused
  by_cases hr : r ∈ m.allocatedBlockReqs
  · simp only [hr, ite_true]
    omega
  · simp only [hr, ite_false]
    omega

def alignLastState (m : SingleTypeKVCacheManager) (r : RequestId) (k : ℕ) : Dict RequestId ℤ :=
  if (decide (r ∈ m.allocatedBlockReqs)) = true then
    m.lastStateBlockIdx.set r (((m.reqBlocks r).length : ℤ) - 1 - k)
  else if (m.reqBlocks r).length > 0 then
    m.lastStateBlockIdx.set r (((m.reqBlocks r).length : ℤ) - 1)
  else m.lastStateBlockIdx

variable {main : ℕ}

lemma alignAllocateNewBlocks_eq (hroom : r ∈ m.allocatedBlockReqs → k ≤ (m.reqBlocks r).length)
    (hlt : (m.reqBlocks r).length < cdiv main m.blockSize + k) :
    ∃ l, l.length = m.alignReused r (cdiv main m.blockSize) k ∧ m.alignAllocateNewBlocks p r main k = (do
        let (newBlocks, p) ← p.getNewBlocks
          (((cdiv main m.blockSize + k : ℕ) : ℤ) - m.alignReused r (cdiv main m.blockSize) k)
        return ((l ++ newBlocks).drop (m.reqBlocks r).length,
          { m.setReqBlocks r (l ++ newBlocks) with
            lastStateBlockIdx := m.alignLastState r k
            allocatedBlockReqs := insert r m.allocatedBlockReqs }, p)) := by
  set needed := cdiv main m.blockSize with hneeded
  obtain ⟨hle, hbound⟩ := alignReused_bounds hlt
  have hne : ¬((needed : ℤ) + k = (m.reqBlocks r).length) := by omega
  have hgt : (needed : ℤ) + k > (m.reqBlocks r).length := by omega
  -- the list that the new blocks are appended to
  have hlist : ∃ l, (if (decide (r ∈ m.allocatedBlockReqs)) = true then
        reuseSpeculativeBlocks ((needed : ℤ) + k - k - 1) k (((m.reqBlocks r).length : ℤ) - k)
          (m.reqBlocks r ++ replicate ((needed : ℤ) + k - k - 1 -
            ((m.reqBlocks r).length : ℤ)).toNat nullBlock)
      else pure (m.reqBlocks r ++ replicate ((needed : ℤ) + k - k - 1 -
            ((m.reqBlocks r).length : ℤ)).toNat nullBlock)) = .ok l ∧ l.length = m.alignReused r needed k := by
    unfold alignReused
    by_cases hr : r ∈ m.allocatedBlockReqs
    · have hk := hroom hr
      simp only [hr, decide_true, ite_true]
      rw [show ((m.reqBlocks r).length : ℤ) - k = (((m.reqBlocks r).length - k : ℕ) : ℤ) by omega]
      have hreuse : (reuseSpeculativeBlocks ((needed : ℤ) + k - k - 1) k
          (((m.reqBlocks r).length - k : ℕ) : ℤ)
          (m.reqBlocks r ++ replicate ((needed : ℤ) + k - k - 1 -
            ((m.reqBlocks r).length : ℤ)).toNat nullBlock)).isOk :=
        reuseSpeculativeBlocks_isOk (by rw [length_append]; omega)
      obtain ⟨l, hl⟩ := exists_eq_ok_of_isOk hreuse
      refine ⟨l, hl, ?_⟩
      have hlen := (reuseSpeculativeBlocks_spec hl).2
      rw [length_append, length_replicate] at hlen
      omega
    · simp only [hr, decide_false, Bool.false_eq_true, ite_false, pure_eq_ok, ok.injEq, exists_eq_left']
      rw [length_append, length_replicate]
      omega
  obtain ⟨l, hl, hlen⟩ := hlist
  refine ⟨l, hlen, ?_⟩
  have hnew : ((needed : ℤ) + k - (l.length : ℤ)) = ((needed + k : ℕ) : ℤ) - m.alignReused r needed k := by
    rw [hlen]
    rfl
  have hensure : (needed : ℤ) + k - l.length ≤
      if (decide (r ∈ m.allocatedBlockReqs)) = true then 1 else (k : ℤ) + 1 := by
    by_cases hr : r ∈ m.allocatedBlockReqs
    · simp only [hr, ite_true, decide_true] at hbound ⊢
      omega
    · simp only [hr, ite_false, decide_false, Bool.false_eq_true] at hbound ⊢
      omega
  unfold alignAllocateNewBlocks
  simp only [← hneeded]
  rw [if_neg hne, ensure_of hgt, ok_bind, hl, ok_bind, ensure_of hensure, hnew]
  rfl

lemma alignAllocateNewBlocks_of_length_eq (h : (m.reqBlocks r).length = cdiv main m.blockSize + k) :
    m.alignAllocateNewBlocks p r main k = .ok ([], m, p) := by
  unfold alignAllocateNewBlocks
  rw [if_pos (by omega)]
  rfl

def alignTaken (m : SingleTypeKVCacheManager) (r : RequestId) (needed k : ℕ) : ℤ :=
  if (m.reqBlocks r).length = needed + k then 0
  else ((needed + k : ℕ) : ℤ) - m.alignReused r needed k

lemma alignAllocateNewBlocks_taken (hroom : r ∈ m.allocatedBlockReqs → k ≤ (m.reqBlocks r).length)
    (hle : (m.reqBlocks r).length ≤ cdiv main m.blockSize + k) {new : List BlockId}
    (hok : m.alignAllocateNewBlocks p r main k = .ok (new, m', p')) :
    p.getNumFreeBlocks - p'.getNumFreeBlocks = m.alignTaken r (cdiv main m.blockSize) k := by
  unfold alignTaken
  split
  · rename_i heq
    rw [alignAllocateNewBlocks_of_length_eq heq] at hok
    obtain ⟨-, hmp⟩ := ok_pair_inj hok
    obtain ⟨-, rfl⟩ := Prod.mk.inj hmp
    omega
  · rename_i hne
    obtain ⟨l, -, heq⟩ := alignAllocateNewBlocks_eq (p := p) hroom (lt_of_le_of_ne hle hne)
    rw [heq] at hok
    simp only [bind_eq_ok, pure_eq_ok, ok.injEq, Prod.mk.injEq, Prod.exists] at hok
    obtain ⟨new', p1, hget, -, -, rfl⟩ := hok
    have hfree := (BlockPool.getNewBlocks_free hget).2
    omega

lemma alignAllocateNewBlocks_ne_assertion {held : Multiset BlockId} (hv : p.Valid held)
    (hroom : r ∈ m.allocatedBlockReqs → k ≤ (m.reqBlocks r).length)
    (hle : (m.reqBlocks r).length ≤ cdiv main m.blockSize + k) {message : String} :
    m.alignAllocateNewBlocks p r main k ≠ .error (.assertionError message) := by
  intro hok
  by_cases hne : (m.reqBlocks r).length = cdiv main m.blockSize + k
  · rw [alignAllocateNewBlocks_of_length_eq hne] at hok
    cases hok
  · have hlt := lt_of_le_of_ne hle hne
    obtain ⟨l, -, heq⟩ := alignAllocateNewBlocks_eq (p := p) hroom hlt
    have hbound := (alignReused_bounds hlt).1
    rw [heq] at hok
    rcases hv.getNewBlocks_eq (n := ((cdiv main m.blockSize + k : ℕ) : ℤ) -
      m.alignReused r (cdiv main m.blockSize) k) (by omega) with ⟨herr, -⟩ | ⟨ret, p', hget⟩
    · rw [herr] at hok
      cases hok
    · rw [hget] at hok
      cases hok

end Align

structure Roomy (m : SingleTypeKVCacheManager) : Prop where
  blockSize_pos : 0 < m.blockSize
  room : ∀ r ∈ m.allocatedBlockReqs, m.isMambaAlign = true ∧ m.numSpeculativeBlocks ≤ (m.reqBlocks r).length

section

variable (h : m.Roomy)
include h

lemma Roomy.of_le (hset : m.SameSettings m') (hall : ∀ x ∈ m'.allocatedBlockReqs,
      (x ∈ m.allocatedBlockReqs ∧ (m.reqBlocks x).length ≤ (m'.reqBlocks x).length) ∨
      (m.isMambaAlign = true ∧ m.numSpeculativeBlocks ≤ (m'.reqBlocks x).length)) : m'.Roomy := by
  refine ⟨hset.blockSize ▸ h.blockSize_pos, fun x hx => ?_⟩
  rw [isMambaAlign_congr hset.kvCacheSpec, numSpeculativeBlocks_congr hset.kvCacheSpec]
  rcases hall x hx with ⟨hm, hle⟩ | hroom
  · exact ⟨(h.room x hm).1, (h.room x hm).2.trans hle⟩
  · exact hroom

lemma Roomy.setReqBlocks {l : List BlockId} (hl : (m.reqBlocks r).length ≤ l.length) :
    (m.setReqBlocks r l).Roomy := by
  refine h.of_le ⟨rfl, rfl, rfl, rfl⟩ fun x hx => .inl ⟨hx, ?_⟩
  rw [reqBlocks_setReqBlocks]
  split
  · rename_i hxr
    exact hxr ▸ hl
  · exact le_refl _

variable {n : ℕ} {new : List BlockId}

lemma Roomy.trimmed (ht : Trimmed r m p m' p') : m'.Roomy := by
  cases ht with
  | same => exact h
  | freed _ _ hlen => exact h.setReqBlocks hlen.ge

lemma Roomy.removeSkippedBlocks (hok : m.removeSkippedBlocks p r n = .ok (m', p')) : m'.Roomy := by
  obtain ⟨_, _, hbase, hlast⟩ := removeSkippedBlocks_trimmed hok
  exact (h.trimmed hbase).trimmed hlast

lemma Roomy.allocateNewComputedBlocks {hits : List BlockId} {numLocal numExternal : ℕ}
    (hok : m.allocateNewComputedBlocks p r hits numLocal numExternal = .ok (m', p')) : m'.Roomy := by
  rcases allocateNewComputedBlocks_cases hok with ⟨rfl, -⟩ | ⟨hc, hok⟩
  · exact h
  · obtain ⟨hnil, _, _, -, -, hreq, hset, hall, -⟩ := baseAllocateNewComputedBlocks_cases hc hok
    refine h.of_le hset fun x hx => .inl ⟨hall ▸ hx, ?_⟩
    rw [reqBlocks_of_set hreq]
    split
    · rename_i hxr
      rw [hxr, hnil]
      exact Nat.zero_le _
    · exact le_refl _

lemma Roomy.baseAllocateNewBlocks (hok : m.baseAllocateNewBlocks p r n = .ok (new, m', p')) : m'.Roomy := by
  rcases baseAllocateNewBlocks_cases hok with ⟨rfl, -, -⟩ | ⟨-, -, rfl⟩
  · exact h
  · apply h.setReqBlocks
    rw [length_append]
    exact Nat.le_add_right _ _

lemma Roomy.alignAllocateNewBlocks (halign : m.isMambaAlign = true) {main : ℕ}
    (hok : m.alignAllocateNewBlocks p r main m.numSpeculativeBlocks = .ok (new, m', p')) : m'.Roomy := by
  have hroom := fun hr => (h.room r hr).2
  by_cases heq : (m.reqBlocks r).length = cdiv main m.blockSize + m.numSpeculativeBlocks
  · rw [alignAllocateNewBlocks_of_length_eq heq] at hok
    obtain ⟨-, hmp⟩ := ok_pair_inj hok
    exact (Prod.mk.inj hmp).1 ▸ h
  · -- the assertion excludes that fewer blocks are needed than there are
    have hlt : (m.reqBlocks r).length < cdiv main m.blockSize + m.numSpeculativeBlocks := by
      unfold SingleTypeKVCacheManager.alignAllocateNewBlocks at hok
      rw [if_neg (by omega), bind_eq_ok] at hok
      obtain ⟨_, hgt, -⟩ := hok
      have := ensure_eq_ok.mp hgt
      omega
    obtain ⟨l, hlen, heq⟩ := alignAllocateNewBlocks_eq (p := p) hroom hlt
    rw [heq] at hok
    simp only [bind_eq_ok, pure_eq_ok, ok.injEq, Prod.mk.injEq, Prod.exists] at hok
    obtain ⟨new', p1, hget, -, rfl, -⟩ := hok
    have hnew := (BlockPool.getNewBlocks_free hget).1
    refine h.of_le ⟨rfl, rfl, rfl, rfl⟩ fun x hx => ?_
    change _ ∨ m.isMambaAlign = true ∧ m.numSpeculativeBlocks ≤ ((m.setReqBlocks r (l ++ new')).reqBlocks x).length
    change (x ∈ m.allocatedBlockReqs ∧ (m.reqBlocks x).length ≤
      ((m.setReqBlocks r (l ++ new')).reqBlocks x).length) ∨ _
    rw [reqBlocks_setReqBlocks]
    by_cases hxr : x = r
    · rw [if_pos hxr, length_append]
      exact .inr ⟨halign, by omega⟩
    · rw [if_neg hxr]
      exact .inl ⟨Finset.mem_of_mem_insert_of_ne hx hxr, le_refl _⟩

lemma Roomy.allocateNewBlocks {numTokens main : ℕ}
    (hok : m.allocateNewBlocks p r numTokens main = .ok (new, m', p')) : m'.Roomy := by
  unfold SingleTypeKVCacheManager.allocateNewBlocks at hok
  split at hok
  · rename_i k hspec
    have hk : m.numSpeculativeBlocks = k := by
      unfold numSpeculativeBlocks
      rw [hspec]
    rw [← hk] at hok
    exact h.alignAllocateNewBlocks (by unfold isMambaAlign; rw [hspec]) hok
  · exact h.baseAllocateNewBlocks hok
  · exact h.baseAllocateNewBlocks hok

lemma Roomy.cacheBlocks {request : Request} (hok : m.cacheBlocks p request n = .ok (m', p')) : m'.Roomy := by
  rcases cacheBlocks_cases hok with ⟨rfl, -⟩ | ⟨-, -, rfl⟩
  · exact h
  · exact ⟨h.blockSize_pos, h.room⟩

lemma Roomy.free (p : BlockPool) (r : RequestId) : (m.free p r).1.Roomy := by
  have hget : ∀ m' : SingleTypeKVCacheManager, m'.reqToBlocks = m.reqToBlocks.erase r →
      ∀ x, x ≠ r → m'.reqBlocks x = m.reqBlocks x := by
    intro m' hreq x hx
    unfold reqBlocks
    rw [hreq, Dict.get?_erase, if_neg hx]
  unfold SingleTypeKVCacheManager.free
  simp only []
  split
  · refine h.of_le ⟨rfl, rfl, rfl, rfl⟩ fun x hx => ?_
    obtain ⟨hne, hx⟩ := Finset.mem_erase.mp hx
    refine .inl ⟨hx, le_of_eq (congrArg length (hget _ ?_ x hne).symm)⟩
    rfl
  · rename_i hspec
    refine ⟨h.blockSize_pos, fun x hx => ?_⟩
    -- outside mode align no request is marked as allocated
    have halign := (h.room x hx).1
    unfold isMambaAlign at halign
    split at halign
    · rename_i hmamba
      exact absurd hmamba (hspec _ _ _ _ _ _)
    · cases halign

end

theorem roomy_invariant : ManagerInvariant Roomy where
  removeSkippedBlocks _ _ _ _ _ _ h hok := h.removeSkippedBlocks hok
  allocateNewComputedBlocks _ _ _ _ _ _ _ _ h hok := h.allocateNewComputedBlocks hok
  allocateNewBlocks _ _ _ _ _ _ _ _ h hok := h.allocateNewBlocks hok
  cacheBlocks _ _ _ _ _ _ h hok := h.cacheBlocks hok
  free _ p r h := h.free p r

end SingleTypeKVCacheManager

namespace GroupCall

open SingleTypeKVCacheManager

variable {a : GroupCall} {m : SingleTypeKVCacheManager} {p : BlockPool} {f : MambaFields}

/-- Hits come with the first call and hold local computed tokens; later computed tokens have slots. -/
structure Speculative (a : GroupCall) (m : SingleTypeKVCacheManager) : Prop where
  first : a.hasComputed = true → m.reqBlocks a.requestId = [] ∧ m.numCachedBlock.contains a.requestId = false
  later : a.hasComputed = false → a.newComputedBlocks = [] ∧ a.numExternalComputedTokens = 0
  hits_le : a.newComputedBlocks.length * m.blockSize ≤ a.numLocalComputedTokens
  slots : a.hasComputed = false → a.numLocalComputedTokens ≤ (m.reqBlocks a.requestId).length * m.blockSize
  computed_le_main : a.numTotalComputedTokens ≤ a.numTokensMainModel
  computed_le_slots : a.numTotalComputedTokens ≤ a.numTokensNeedSlot

/-- A later call needs no fewer blocks than the request has, and the new tokens of a first call with
external tokens no block of their own, with two exceptions. -/
def AlignFits (a : GroupCall) (m : SingleTypeKVCacheManager) (p : BlockPool) (k : ℕ) : Prop :=
  (a.hasComputed = false → (m.reqBlocks a.requestId).length ≤ cdiv a.numTokensMainModel m.blockSize + k) ∧
  (a.hasComputed = true → a.numExternalComputedTokens = 0 ∨
    cdiv a.numTokensMainModel m.blockSize = cdiv a.numTotalComputedTokens m.blockSize ∨
    a.newComputedBlocks.length = cdiv a.numTotalComputedTokens m.blockSize ∨
    ∃ b ∈ a.newComputedBlocks, (p.blocks b).refCnt = 0 ∧ (p.blocks b).isNull = false)

/-- Speculative tokens round alike at both block sizes, unless the request has the blocks. -/
def ScaledFits (a : GroupCall) (m : SingleTypeKVCacheManager) (specBlockSize k : ℕ) : Prop :=
  cdiv (a.numTokensNeedSlot + m.blockSize * k) m.blockSize ≤
    max (cdiv (a.numTokensNeedSlot + specBlockSize * k) m.blockSize)
      (max ((a.numTotalComputedTokens - 1) / m.blockSize)
        ((m.reqBlocks a.requestId).length + a.newComputedBlocks.length))

def FieldsFit (a : GroupCall) (m : SingleTypeKVCacheManager) (p : BlockPool) : MambaFields → Prop
  | ⟨_, .align, k⟩ => a.AlignFits m p k
  | ⟨specBlockSize, _, k⟩ => a.ScaledFits m specBlockSize k

def MambaFits (a : GroupCall) (m : SingleTypeKVCacheManager) (p : BlockPool) : Prop :=
  ∀ f ∈ m.mambaFields, a.FieldsFit m p f

instance (a : GroupCall) (m : SingleTypeKVCacheManager) (p : BlockPool) :
    (f : MambaFields) → Decidable (a.FieldsFit m p f)
  | ⟨_, .align, _⟩ => inferInstanceAs (Decidable (_ ∧ _))
  | ⟨_, .none, _⟩ | ⟨_, .all, _⟩ => inferInstanceAs (Decidable (_ ≤ _))

instance (a : GroupCall) (m : SingleTypeKVCacheManager) (p : BlockPool) :
    Decidable (a.MambaFits m p) := inferInstanceAs (Decidable (∀ f ∈ _, _))

lemma hits_length_le (hs : a.Speculative m) (hbs : 0 < m.blockSize) :
    a.newComputedBlocks.length ≤ cdiv a.numTotalComputedTokens m.blockSize := by
  have h := hs.hits_le
  have hle : a.newComputedBlocks.length * m.blockSize ≤ a.numTotalComputedTokens := h.trans (Nat.le_add_right _ _)
  exact ((Nat.le_div_iff_mul_le hbs).mpr hle).trans (div_le_cdiv _ _)

section

variable (hf : m.mambaFields = some f)
include hf

lemma skipped_of_mamba (hbs : 0 < m.blockSize) (n : ℕ) : m.numSkippedBlocks n = (n - 1) / m.blockSize ∧
      (m.getNumSkippedTokens n / m.blockSize : ℤ) ≤ ((n - 1) / m.blockSize : ℕ) ∧
      (0 < n → (m.getNumSkippedTokens n / m.blockSize : ℤ) = ((n - 1) / m.blockSize : ℕ)) := by
  unfold numSkippedBlocks
  rw [getNumSkippedTokens_of_mamba hf]
  rcases Nat.eq_zero_or_pos n with rfl | hn
  · have hneg : (((0 : ℕ) : ℤ) - 1) / (m.blockSize : ℤ) ≤ 0 :=
      Int.ediv_nonpos_of_nonpos_of_neg (by omega) (by exact_mod_cast hbs)
    rw [Nat.zero_div]
    exact ⟨Int.toNat_eq_zero.mpr hneg, hneg, fun h => absurd h (lt_irrefl 0)⟩
  · have hcast : (n : ℤ) - 1 = ((n - 1 : ℕ) : ℤ) := by omega
    rw [hcast, ← Int.natCast_ediv]
    exact ⟨rfl, le_refl _, fun _ => rfl⟩

lemma externalTokens_pos_iff : 0 < m.externalTokens a.numLocalComputedTokens a.numExternalComputedTokens ↔
      0 < a.numExternalComputedTokens := by
  unfold externalTokens
  rw [getNumSkippedTokens_of_mamba hf]
  split
  · omega
  · omega

lemma allocateComputed_taken (hm : m.Roomy) (hs : a.Speculative m)
    (hfirst : a.hasComputed = true) {p1 p1' : BlockPool} {m1 : SingleTypeKVCacheManager}
    (hheld : a.HitsHeld p p1) (hok : a.allocateComputed m p1 = .ok (m1, p1')) :
    p1.getNumFreeBlocks - p1'.getNumFreeBlocks ≤ getNumEvictableBlocks p
          (a.newComputedBlocks.drop ((a.numTotalComputedTokens - 1) / m.blockSize)) +
        (if 0 < a.numExternalComputedTokens then (cdiv a.numTotalComputedTokens m.blockSize : ℤ) -
          max ((a.numTotalComputedTokens - 1) / m.blockSize) a.newComputedBlocks.length else 0) ∧
      (m1.reqBlocks a.requestId).length =
        (if 0 < a.numExternalComputedTokens then cdiv a.numTotalComputedTokens m.blockSize
          else max ((a.numTotalComputedTokens - 1) / m.blockSize) a.newComputedBlocks.length) ∧
      m.SameSettings m1 ∧ m1.Roomy ∧ m1.allocatedBlockReqs = m.allocatedBlockReqs := by
  have hbs := hm.blockSize_pos
  unfold allocateComputed at hok
  rw [if_pos hfirst] at hok
  have hroomy := hm.allocateNewComputedBlocks hok
  unfold allocateNewComputedBlocks at hok
  simp only [isCrossAttention_of_mamba hf, Bool.false_eq_true, ite_false] at hok
  have hcached := (hs.first hfirst).2
  obtain ⟨-, _, _, -, -, -, hset, hall, -⟩ := baseAllocateNewComputedBlocks_cases hcached hok
  obtain ⟨htaken, hlen⟩ := baseAllocateNewComputedBlocks_taken hcached (fun b hb hn => by
    obtain ⟨hnull, hle⟩ := hheld b hb
    obtain ⟨h0, h1⟩ := hle (hnull ▸ hn)
    exact h0.trans h1) hok
  have htotal : a.numLocalComputedTokens + a.numExternalComputedTokens = a.numTotalComputedTokens := rfl
  have hskip := (skipped_of_mamba hf hbs a.numTotalComputedTokens).1
  have hevict : getNumEvictableBlocks p1
        (a.newComputedBlocks.drop ((a.numTotalComputedTokens - 1) / m.blockSize)) ≤ getNumEvictableBlocks p
        (a.newComputedBlocks.drop ((a.numTotalComputedTokens - 1) / m.blockSize)) :=
    getNumEvictableBlocks_le_of_held fun b hb => hheld b (mem_of_mem_drop hb)
  have hhits := hits_length_le hs hbs
  have hlast : (a.numTotalComputedTokens - 1) / m.blockSize ≤ cdiv a.numTotalComputedTokens m.blockSize :=
    (Nat.div_le_div_right (Nat.sub_le _ 1)).trans (div_le_cdiv _ _)
  unfold externalBlocks at htaken hlen
  rw [htotal, hskip] at htaken hlen
  simp only [externalTokens_pos_iff hf] at htaken hlen
  refine ⟨by omega, ?_, hset, hroomy, hall⟩
  rw [hlen]
  split
  · omega
  · rfl

end

lemma allocateComputed_later (hlater : a.hasComputed = false) {p1 p1' : BlockPool}
    {m1 : SingleTypeKVCacheManager} (hok : a.allocateComputed m p1 = .ok (m1, p1')) : m1 = m ∧ p1' = p1 := by
  unfold allocateComputed at hok
  rw [hlater] at hok
  obtain ⟨rfl, rfl⟩ := ok_pair_inj hok
  exact ⟨rfl, rfl⟩

def alignNeed (a : GroupCall) (m : SingleTypeKVCacheManager) (p : BlockPool) (k : ℕ) : ℤ :=
  (if (cdiv a.numTokensMainModel m.blockSize : ℤ) + k - a.newComputedBlocks.length -
      (m.reqBlocks a.requestId).length > 0 then
      (if a.requestId ∈ m.allocatedBlockReqs then 1 else 1 + (k : ℤ))
    else (cdiv a.numTokensMainModel m.blockSize : ℤ) + k - a.newComputedBlocks.length -
      (m.reqBlocks a.requestId).length) + getNumEvictableBlocks p a.newComputedBlocks

section Align

variable {specBlockSize k : ℕ}

lemma methods_of_align (hf : m.mambaFields = some ⟨specBlockSize, .align, k⟩) :
    a.predict m p = .ok (a.alignNeed m p k) ∧
      a.allocateNew m p = m.alignAllocateNewBlocks p a.requestId a.numTokensMainModel k ∧
      m.isMambaAlign = true ∧ m.numSpeculativeBlocks = k := by
  obtain ⟨_, _, _, _, heq⟩ := kvCacheSpec_of_mamba hf
  unfold predict allocateNew getNumBlocksToAllocate allocateNewBlocks isMambaAlign numSpeculativeBlocks
  rw [heq]
  exact ⟨rfl, rfl, rfl, rfl⟩

lemma evictable_pos (h : ∃ b ∈ a.newComputedBlocks, (p.blocks b).refCnt = 0 ∧
    (p.blocks b).isNull = false) : 0 < getNumEvictableBlocks p a.newComputedBlocks := by
  obtain ⟨b, hb, hfree, hnull⟩ := h
  unfold getNumEvictableBlocks
  rw [length_pos_iff_exists_mem]
  exact ⟨b, mem_filter.mpr ⟨hb, by simp [hfree, hnull]⟩⟩

lemma alignTaken_later (hnil : a.newComputedBlocks = [])
    (hle : (m.reqBlocks a.requestId).length ≤ cdiv a.numTokensMainModel m.blockSize + k) :
    m.alignTaken a.requestId (cdiv a.numTokensMainModel m.blockSize) k ≤ a.alignNeed m p k ∧
      0 ≤ a.alignNeed m p k := by
  unfold alignNeed alignTaken
  rw [hnil, length_nil]
  by_cases heq : (m.reqBlocks a.requestId).length = cdiv a.numTokensMainModel m.blockSize + k
  · split <;> omega
  · rw [if_neg heq, if_pos (by omega)]
    have hbound := alignReused_bounds (lt_of_le_of_ne hle heq)
    by_cases hr : a.requestId ∈ m.allocatedBlockReqs
    · rw [if_pos hr] at hbound ⊢
      omega
    · rw [if_neg hr] at hbound ⊢
      omega

lemma alignTaken_first {r : RequestId} {needed : ℕ} (hroom : r ∈ m.allocatedBlockReqs → k = 0) :
    m.alignTaken r needed k = (needed + k : ℕ) - max (m.reqBlocks r).length (needed - 1) := by
  have hreused : m.alignReused r needed k = max (m.reqBlocks r).length (needed - 1) := by
    unfold alignReused
    split
    · rename_i hr
      rw [hroom hr, Nat.zero_min, Nat.add_zero]
    · rw [Nat.add_zero]
  unfold alignTaken
  rw [hreused]
  split
  · omega
  · rfl

lemma alignNeed_first (hbs : 0 < m.blockSize) (hs : a.Speculative m) (hfirst : a.hasComputed = true)
    (hroom : a.requestId ∈ m.allocatedBlockReqs → k = 0) (hfit : a.AlignFits m p k) {len : ℕ}
    (hlen : len = if 0 < a.numExternalComputedTokens then cdiv a.numTotalComputedTokens m.blockSize
      else max ((a.numTotalComputedTokens - 1) / m.blockSize) a.newComputedBlocks.length) :
    (getNumEvictableBlocks p (a.newComputedBlocks.drop ((a.numTotalComputedTokens - 1) / m.blockSize)) : ℤ) +
      (if 0 < a.numExternalComputedTokens then (cdiv a.numTotalComputedTokens m.blockSize : ℤ) -
        max ((a.numTotalComputedTokens - 1) / m.blockSize) a.newComputedBlocks.length else 0) +
      ((cdiv a.numTokensMainModel m.blockSize + k : ℕ) -
        max len (cdiv a.numTokensMainModel m.blockSize - 1)) ≤ a.alignNeed m p k ∧
      len ≤ cdiv a.numTokensMainModel m.blockSize + k ∧ 0 ≤ a.alignNeed m p k := by
  have hhits := hits_length_le hs hbs
  have hmain := cdiv_mono hbs hs.computed_le_main
  have hnil : (m.reqBlocks a.requestId).length = 0 := length_eq_zero_iff.mpr (hs.first hfirst).1
  have hevict : getNumEvictableBlocks p (a.newComputedBlocks.drop
      ((a.numTotalComputedTokens - 1) / m.blockSize)) ≤ getNumEvictableBlocks p a.newComputedBlocks :=
    ((drop_sublist _ _).filter _).length_le
  have hdropped : a.newComputedBlocks.length ≤ (a.numTotalComputedTokens - 1) / m.blockSize →
      getNumEvictableBlocks p (a.newComputedBlocks.drop
        ((a.numTotalComputedTokens - 1) / m.blockSize)) = 0 := fun h => by
    rw [drop_eq_nil_of_le h]
    rfl
  have hlast : 0 < a.numTotalComputedTokens → cdiv a.numTotalComputedTokens m.blockSize =
      (a.numTotalComputedTokens - 1) / m.blockSize + 1 := cdiv_eq_pred_div_add_one hbs
  have hzero : a.numTotalComputedTokens = 0 → cdiv a.numTotalComputedTokens m.blockSize = 0 ∧
      (a.numTotalComputedTokens - 1) / m.blockSize = 0 := fun h => by
    rw [h]
    simp
  have hneed : a.alignNeed m p k =
      (if (cdiv a.numTokensMainModel m.blockSize : ℤ) + k - a.newComputedBlocks.length > 0 then
        1 + (k : ℤ)
      else (cdiv a.numTokensMainModel m.blockSize : ℤ) + k - a.newComputedBlocks.length) +
      getNumEvictableBlocks p a.newComputedBlocks := by
    unfold alignNeed
    rw [hnil]
    by_cases hr : a.requestId ∈ m.allocatedBlockReqs
    · simp [hr, hroom hr]
    · simp [hr]
  have hfit' : a.numExternalComputedTokens = 0 ∨
      cdiv a.numTokensMainModel m.blockSize = cdiv a.numTotalComputedTokens m.blockSize ∨
      a.newComputedBlocks.length = cdiv a.numTotalComputedTokens m.blockSize ∨
      0 < getNumEvictableBlocks p a.newComputedBlocks :=
    (hfit.2 hfirst).imp id (Or.imp id (Or.imp id evictable_pos))
  rcases Nat.eq_zero_or_pos a.numExternalComputedTokens with hext | hext
  · rw [hext, if_neg (lt_irrefl 0)] at hlen
    omega
  · rw [if_pos hext] at hlen ⊢
    omega

/-- There is room for the new blocks, and the prediction covers them. -/
lemma align_covered (hf : m.mambaFields = some ⟨specBlockSize, .align, k⟩) (hm : m.Roomy)
    (hs : a.Speculative m) (hfit : a.AlignFits m p k) {p1 p1' : BlockPool}
    {m1 : SingleTypeKVCacheManager} (hheld : a.HitsHeld p p1) (hok : a.allocateComputed m p1 = .ok (m1, p1')) :
    m1.mambaFields = some ⟨specBlockSize, .align, k⟩ ∧ m1.blockSize = m.blockSize ∧
      (a.requestId ∈ m1.allocatedBlockReqs → k ≤ (m1.reqBlocks a.requestId).length) ∧
      (m1.reqBlocks a.requestId).length ≤ cdiv a.numTokensMainModel m.blockSize + k ∧
      p1.getNumFreeBlocks - p1'.getNumFreeBlocks +
        m1.alignTaken a.requestId (cdiv a.numTokensMainModel m.blockSize) k ≤ a.alignNeed m p k := by
  obtain ⟨-, -, -, hk⟩ := methods_of_align (a := a) (p := p) hf
  cases hc : a.hasComputed with
  | false =>
    obtain ⟨rfl, rfl⟩ := allocateComputed_later hc hok
    have hlen := hfit.1 hc
    have hroom : a.requestId ∈ m1.allocatedBlockReqs → k ≤ (m1.reqBlocks a.requestId).length :=
      fun hr => hk ▸ (hm.room _ hr).2
    have hle := (alignTaken_later (p := p) (hs.later hc).1 hlen).1
    exact ⟨hf, rfl, hroom, hlen, by omega⟩
  | true =>
    obtain ⟨htaken, hlen, hset, hroomy, hall⟩ := allocateComputed_taken hf hm hs hc hheld hok
    have hroom : a.requestId ∈ m1.allocatedBlockReqs → k ≤ (m1.reqBlocks a.requestId).length := fun hr => by
      have h := (hroomy.room _ hr).2
      rwa [numSpeculativeBlocks_congr hset.kvCacheSpec, hk] at h
    have hroom0 : a.requestId ∈ m.allocatedBlockReqs → k = 0 := fun hr => by
      have h := (hm.room _ hr).2
      rw [hk, (hs.first hc).1] at h
      exact Nat.le_zero.mp h
    obtain ⟨hle, hlen', -⟩ := alignNeed_first hm.blockSize_pos hs hc hroom0 hfit hlen
    have hfirst := @alignTaken_first m1 k a.requestId (cdiv a.numTokensMainModel m.blockSize)
      fun hr => hroom0 (hall ▸ hr)
    refine ⟨?_, hset.blockSize, hroom, hlen', by omega⟩
    rw [mambaFields_congr hset.kvCacheSpec, hf]

lemma checked_align (hf : m.mambaFields = some ⟨specBlockSize, .align, k⟩) (hm : m.Roomy)
    (hs : a.Speculative m) (hfit : a.AlignFits m p k) : a.Checked m p (a.alignNeed m p k) := by
  obtain ⟨hpredict, -, -, hk⟩ := methods_of_align (a := a) (p := p) hf
  refine ⟨hpredict, ?_, ?_, ?_⟩
  · cases hc : a.hasComputed with
    | false =>
      exact (alignTaken_later (hs.later hc).1 (hfit.1 hc)).2
    | true =>
      refine (alignNeed_first hm.blockSize_pos hs hc (fun hr => ?_) hfit rfl).2.2
      have h := (hm.room _ hr).2
      rw [hk, (hs.first hc).1] at h
      exact Nat.le_zero.mp h
  · intro p1 m1 p1' hheld hok p2 new m2 p2' hnew
    obtain ⟨hf1, hbs1, hroom, hlen, hle⟩ := align_covered hf hm hs hfit hheld hok
    rw [(methods_of_align (a := a) (p := p2) hf1).2.1] at hnew
    have htaken := alignAllocateNewBlocks_taken hroom (hbs1 ▸ hlen) hnew
    rw [hbs1] at htaken
    omega
  · intro p1 m1 p1' hheld hok p2 held hv message
    obtain ⟨hf1, hbs1, hroom, hlen, -⟩ := align_covered hf hm hs hfit hheld hok
    rw [(methods_of_align (a := a) (p := p2) hf1).2.1]
    exact alignAllocateNewBlocks_ne_assertion hv hroom (hbs1 ▸ hlen)

end Align

section Scaled

variable {specBlockSize k : ℕ} {mode : MambaCacheMode}

def scaledNeed (a : GroupCall) (m : SingleTypeKVCacheManager) (p : BlockPool)
    (specBlockSize k : ℕ) : ℤ :=
  if m.numCachedBlock.contains a.requestId = true then
    max ((cdiv (a.numTokensNeedSlot + specBlockSize * k) m.blockSize : ℤ) - (m.reqBlocks a.requestId).length) 0
  else max ((cdiv (a.numTokensNeedSlot + specBlockSize * k) m.blockSize : ℤ) -
      max (m.getNumSkippedTokens a.numTotalComputedTokens / m.blockSize)
        (a.newComputedBlocks.length + (m.reqBlocks a.requestId).length)) 0 +
    getNumEvictableBlocks p (a.newComputedBlocks.drop
      (m.numSkippedBlocks a.numTotalComputedTokens - (m.reqBlocks a.requestId).length))

lemma scaledNeed_nonneg : 0 ≤ a.scaledNeed m p specBlockSize k := by
  unfold scaledNeed
  split <;> omega

section

variable (hf : m.mambaFields = some ⟨specBlockSize, mode, k⟩)
include hf

lemma predict_of_scaled (hmode : mode ≠ .align)
    (hs : a.Speculative m) : a.predict m p = .ok (a.scaledNeed m p specBlockSize k) := by
  have hnil : m.numCachedBlock.contains a.requestId = true → a.newComputedBlocks = [] := by
    intro hcached
    cases hc : a.hasComputed with
    | false => exact (hs.later hc).1
    | true =>
      rw [(hs.first hc).2] at hcached
      cases hcached
  have hbase := fun n =>
    @baseGetNumBlocksToAllocate_eq m p a.requestId a.newComputedBlocks n a.numTotalComputedTokens hnil
  obtain ⟨_, _, _, _, heq⟩ := kvCacheSpec_of_mamba hf
  unfold predict getNumBlocksToAllocate scaledNeed
  rw [heq]
  cases mode with
  | align => exact absurd rfl hmode
  | none => exact hbase _
  | all => exact hbase _

lemma allocateNew_of_scaled (hmode : mode ≠ .align) (q : BlockPool) : a.allocateNew m q =
      m.baseAllocateNewBlocks q a.requestId (a.numTokensNeedSlot + m.blockSize * k) := by
  obtain ⟨_, _, _, _, heq⟩ := kvCacheSpec_of_mamba hf
  unfold allocateNew allocateNewBlocks
  rw [heq]
  cases mode with
  | align => exact absurd rfl hmode
  | none => rfl
  | all => rfl

lemma scaled_covered (hm : m.Roomy) (hs : a.Speculative m) (hfit : a.ScaledFits m specBlockSize k)
    {p1 p1' : BlockPool} {m1 : SingleTypeKVCacheManager} (hheld : a.HitsHeld p p1)
    (hok : a.allocateComputed m p1 = .ok (m1, p1')) :
    m1.mambaFields = some ⟨specBlockSize, mode, k⟩ ∧ m1.blockSize = m.blockSize ∧
      p1.getNumFreeBlocks - p1'.getNumFreeBlocks +
        max 0 ((cdiv (a.numTokensNeedSlot + m.blockSize * k) m.blockSize : ℤ) -
          (m1.reqBlocks a.requestId).length) ≤ a.scaledNeed m p specBlockSize k := by
  have hbs := hm.blockSize_pos
  obtain ⟨hskip, hskip_le, hskip_eq⟩ := skipped_of_mamba hf hbs a.numTotalComputedTokens
  unfold ScaledFits at hfit
  unfold scaledNeed
  cases hc : a.hasComputed with
  | false =>
    obtain ⟨rfl, rfl⟩ := allocateComputed_later hc hok
    refine ⟨hf, rfl, ?_⟩
    obtain ⟨hnil, hext⟩ := hs.later hc
    rw [hnil, length_nil] at hfit
    -- the computed tokens have slots
    have hslots : (a.numTotalComputedTokens - 1) / m1.blockSize ≤ (m1.reqBlocks a.requestId).length := by
      have h := hs.slots hc
      have htotal : a.numTotalComputedTokens - 1 ≤ (m1.reqBlocks a.requestId).length * m1.blockSize := by
        unfold numTotalComputedTokens
        omega
      calc (a.numTotalComputedTokens - 1) / m1.blockSize
          ≤ (m1.reqBlocks a.requestId).length * m1.blockSize / m1.blockSize :=
            Nat.div_le_div_right htotal
        _ = (m1.reqBlocks a.requestId).length := Nat.mul_div_cancel _ hbs
    rw [hnil, length_nil]
    split <;> omega
  | true =>
    obtain ⟨htaken, hlen, hset, hroomy, -⟩ := allocateComputed_taken hf hm hs hc hheld hok
    have hcached := (hs.first hc).2
    have hnil : (m.reqBlocks a.requestId).length = 0 := length_eq_zero_iff.mpr (hs.first hc).1
    refine ⟨?_, hset.blockSize, ?_⟩
    · rw [mambaFields_congr hset.kvCacheSpec, hf]
    · have hslots : cdiv a.numTotalComputedTokens m.blockSize ≤
          cdiv (a.numTokensNeedSlot + specBlockSize * k) m.blockSize :=
        cdiv_mono hbs (hs.computed_le_slots.trans (Nat.le_add_right _ _))
      rw [hskip, hnil, Nat.sub_zero, if_neg (by rw [hcached]; exact Bool.false_ne_true)]
      rcases Nat.eq_zero_or_pos a.numExternalComputedTokens with hext | hext
      · rw [hext, if_neg (lt_irrefl 0)] at hlen htaken
        omega
      · rw [if_pos hext] at hlen htaken
        omega

lemma checked_scaled (hmode : mode ≠ .align) (hm : m.Roomy) (hs : a.Speculative m)
    (hfit : a.ScaledFits m specBlockSize k) : a.Checked m p (a.scaledNeed m p specBlockSize k) := by
  refine ⟨predict_of_scaled hf hmode hs, scaledNeed_nonneg, ?_, ?_⟩
  · intro p1 m1 p1' hheld hok p2 new m2 p2' hnew
    obtain ⟨hf1, hbs1, hle⟩ := scaled_covered hf hm hs hfit hheld hok
    rw [allocateNew_of_scaled hf1 hmode] at hnew
    have htaken := baseAllocateNewBlocks_taken hnew
    rw [hbs1] at htaken
    omega
  · intro p1 m1 p1' hheld hok p2 held hv message
    obtain ⟨hf1, -, -⟩ := scaled_covered hf hm hs hfit hheld hok
    rw [allocateNew_of_scaled hf1 hmode]
    exact baseAllocateNewBlocks_ne_assertion hv

end

end Scaled

lemma checked_of_mambaFits (hmamba : m.mambaFields = some f) (hm : m.Roomy) (hs : a.Speculative m)
    (hfit : a.MambaFits m p) : ∃ need, a.Checked m p need := by
  obtain ⟨specBlockSize, mode, k⟩ := f
  have hfields := hfit _ hmamba
  cases mode with
  | align => exact ⟨_, checked_align hmamba hm hs hfields⟩
  | none => exact ⟨_, checked_scaled hmamba nofun hm hs hfields⟩
  | all => exact ⟨_, checked_scaled hmamba nofun hm hs hfields⟩

end GroupCall

namespace SingleTypeKVCacheManager

variable {m m' : SingleTypeKVCacheManager} {p p' : BlockPool} {r : RequestId}

lemma freeBlocks_nil (p : BlockPool) : p.freeBlocks [] = p := by
  unfold BlockPool.freeBlocks BlockPool.decrementRefCnts FreeKVCacheBlockQueue.appendN
  simp

lemma Trimmed.frame (h : Trimmed r m p m' p') : m.SameSettings m' ∧
    (m'.reqBlocks r).length = (m.reqBlocks r).length ∧ m'.numCachedBlock = m.numCachedBlock ∧
      (m.reqBlocks r = [] → p' = p) := by
  cases h with
  | same => exact ⟨.refl m, rfl, rfl, fun _ => rfl⟩
  | freed hfreed hperm hlen =>
    refine ⟨⟨rfl, rfl, rfl, rfl⟩, by rw [reqBlocks_setReqBlocks, if_pos rfl, hlen], rfl, fun hnil => ?_⟩
    rw [hnil] at hperm
    rw [(append_eq_nil_iff.mp hperm.nil_eq.symm).1, freeBlocks_nil]

lemma removeSkippedBlocks_frame {n : ℕ} (hok : m.removeSkippedBlocks p r n = .ok (m', p')) :
    m.SameSettings m' ∧ (m'.reqBlocks r).length = (m.reqBlocks r).length ∧
      m'.numCachedBlock = m.numCachedBlock ∧ (m.reqBlocks r = [] → p' = p) := by
  obtain ⟨m₁, p₁, hbase, hlast⟩ := removeSkippedBlocks_trimmed hok
  obtain ⟨hset, hlen, hcached, hpool⟩ := hbase.frame
  obtain ⟨hset', hlen', hcached', hpool'⟩ := hlast.frame
  refine ⟨hset.trans hset', hlen'.trans hlen, hcached'.trans hcached, fun hnil => ?_⟩
  rw [hnil, length_nil, length_eq_zero_iff] at hlen
  exact (hpool' hlen).trans (hpool hnil)

end SingleTypeKVCacheManager

/-- The condition depends on the settings, on the blocks of the request and on the pool. -/
lemma GroupCall.MambaFits.of_frame {a : GroupCall} {m m' : SingleTypeKVCacheManager}
    {p p' : BlockPool} (h : a.MambaFits m p) (hset : m.SameSettings m')
    (hlen : (m'.reqBlocks a.requestId).length = (m.reqBlocks a.requestId).length)
    (hpool : a.hasComputed = true → p' = p) : a.MambaFits m' p' := by
  have halign : ∀ k, a.AlignFits m p k → a.AlignFits m' p' k := by
    intro k h
    unfold AlignFits
    rw [hset.blockSize, hlen]
    exact ⟨h.1, fun hc => hpool hc ▸ h.2 hc⟩
  have hscaled : ∀ specBlockSize k, a.ScaledFits m specBlockSize k → a.ScaledFits m' specBlockSize k := by
    intro specBlockSize k h
    unfold ScaledFits at h ⊢
    rwa [hset.blockSize, hlen]
  intro f hf
  rw [mambaFields_congr hset.kvCacheSpec] at hf
  have hfields := h f hf
  obtain ⟨specBlockSize, mode, k⟩ := f
  cases mode with
  | align => exact halign k hfields
  | none => exact hscaled specBlockSize k hfields
  | all => exact hscaled specBlockSize k hfields

namespace KVCacheManager

variable {k : KVCacheManager}

/-- A call of a speculative run, within the model length, with hits for the first call of a request
only. -/
structure SpeculativeCall (k : KVCacheManager) (request : Request) (hits : List (List BlockId))
    (n : ℕ) (args : AllocateSlotsArgs) : Prop where
  within : numLocalComputedTokens request n + args.numExternalComputedTokens ≤ k.maxModelLen
  counted : 0 ≤ request.numComputedTokens ∧ 0 ≤ args.numNewTokens
  first : hasComputed hits args = true → ∀ m ∈ k.singleTypeManagers,
    m.reqBlocks request.requestId = [] ∧ m.numCachedBlock.contains request.requestId = false
  hits_le : ∀ i < k.singleTypeManagers.length, ∀ m ∈ k.singleTypeManagers[i]?,
    m.mambaFields.isSome → (KVCacheCoordinator.blocksOfGroup hits i).length * m.blockSize ≤
      numLocalComputedTokens request n
  slots : hasComputed hits args = false → ∀ m ∈ k.singleTypeManagers, m.mambaFields.isSome →
    numLocalComputedTokens request n ≤ (m.reqBlocks request.requestId).length * m.blockSize

instance (k : KVCacheManager) (request : Request) (hits : List (List BlockId)) (n : ℕ)
    (args : AllocateSlotsArgs) : Decidable (k.SpeculativeCall request hits n args) :=
  decidable_of_iff (numLocalComputedTokens request n + args.numExternalComputedTokens ≤ k.maxModelLen ∧
      (0 ≤ request.numComputedTokens ∧ 0 ≤ args.numNewTokens) ∧
      (hasComputed hits args = true → ∀ m ∈ k.singleTypeManagers, m.reqBlocks request.requestId = [] ∧
          m.numCachedBlock.contains request.requestId = false) ∧
      (∀ i < k.singleTypeManagers.length, ∀ m ∈ k.singleTypeManagers[i]?,
        m.mambaFields.isSome → (KVCacheCoordinator.blocksOfGroup hits i).length * m.blockSize ≤
          numLocalComputedTokens request n) ∧
      (hasComputed hits args = false → ∀ m ∈ k.singleTypeManagers, m.mambaFields.isSome →
        numLocalComputedTokens request n ≤ (m.reqBlocks request.requestId).length * m.blockSize))
    ⟨fun h => ⟨h.1, h.2.1, h.2.2.1, h.2.2.2.1, h.2.2.2.2⟩,
      fun h => ⟨h.within, h.counted, h.first, h.hits_le, h.slots⟩⟩

/-- The call fits the align-mode managers of all groups. -/
def MambaCallFits (k : KVCacheManager) (request : Request) (hits : List (List BlockId))
    (n : ℕ) (args : AllocateSlotsArgs) : Prop :=
  ∀ i < k.singleTypeManagers.length, ∀ m ∈ k.singleTypeManagers[i]?,
    (k.groupCall request hits n args i).MambaFits m k.blockPool

instance (k : KVCacheManager) (request : Request) (hits : List (List BlockId)) (n : ℕ)
    (args : AllocateSlotsArgs) : Decidable (k.MambaCallFits request hits n args) :=
  inferInstanceAs (Decidable (∀ i < _, ∀ m ∈ _, _))

/-- The capacity check holds for every Mamba group, in the state `c` that
`remove_skipped_blocks` leaves. -/
def MambaChecked (k : KVCacheManager) (request : Request) (hits : List (List BlockId))
    (n : ℕ) (args : AllocateSlotsArgs) (c : KVCacheCoordinator) : Prop :=
  ∀ (i : ℕ) m, c.singleTypeManagers[i]? = some m → m.mambaFields.isSome →
    ∃ need, (k.groupCall request hits n args i).Checked m c.blockPool need

lemma not_hasComputed {hits : List (List BlockId)} {args : AllocateSlotsArgs}
    (h : hasComputed hits args = false) (i : ℕ) :
    KVCacheCoordinator.blocksOfGroup hits i = [] ∧ args.numExternalComputedTokens = 0 := by
  unfold hasComputed at h
  rw [decide_eq_false_iff_not, not_or] at h
  obtain ⟨hhits, hext⟩ := h
  refine ⟨?_, Nat.eq_zero_of_not_pos hext⟩
  by_contra hne
  apply hhits
  unfold KVCacheCoordinator.blocksOfGroup at hne
  rw [getD_eq_getElem?_getD] at hne
  cases hi : hits[i]? with
  | none => exact absurd (by rw [hi]; rfl) hne
  | some blocks =>
    rw [hi] at hne
    exact ⟨blocks, mem_of_getElem? hi, hne⟩

/-- In every run, a speculative call that fits passes the capacity check of every Mamba group. -/
theorem reaches_mamba_capacity (config : KVCacheConfig) (maxModelLen hashBlockSize dcpWorldSize pcpWorldSize : ℕ)
    (enableCaching useEagle enableKvCacheEvents useIntBlockHashes : Bool) (k₀ k : KVCacheManager)
    (hgroups : ∀ spec ∈ config.kvCacheGroups, 0 < spec.blockSize)
    (hnew : new config maxModelLen hashBlockSize enableCaching useEagle enableKvCacheEvents
      useIntBlockHashes dcpWorldSize pcpWorldSize = .ok k₀)
    (hrun : Reaches step (fun _ _ => True) k₀ k) (request : Request) (hits : List (List BlockId))
    (n : ℕ) (args : AllocateSlotsArgs) (hcall : k.SpeculativeCall request hits n args)
    (hfit : k.MambaCallFits request hits n args) (c : KVCacheCoordinator)
    (hremove : k.coordinator.removeSkippedBlocks request.requestId
      (k.totalComputedTokens request n args) = .ok c) : k.MambaChecked request hits n args c := by
  have hroomy : ∀ m ∈ k.singleTypeManagers, m.Roomy := by
    apply reaches_managers roomy_invariant hrun
    intro m hm
    obtain ⟨spec, hspec, i, rfl⟩ := new_managers hnew hm
    exact ⟨blockSize_new_pos (hgroups spec hspec) _ _ _ _, nofun⟩
  simp only [KVCacheCoordinator.removeSkippedBlocks, KVCacheCoordinator.forManagers,
    bind_eq_ok, pure_eq_ok, ok.injEq, Prod.mk.injEq, Prod.exists] at hremove
  obtain ⟨_, c', ⟨bs, ms, p, hloop, -, rfl⟩, rfl⟩ := hremove
  intro i m hi hmamba
  obtain ⟨f, hf⟩ := isSome_iff_exists.mp hmamba
  obtain ⟨m0, q, b, q', hi0, hstep⟩ := forEnum_get hloop hi
  simp only [bind_eq_ok, ok.injEq, Prod.mk.injEq, Prod.exists] at hstep
  obtain ⟨m1, p1, hstep, -, rfl, rfl⟩ := hstep
  obtain ⟨hset, hlen, hcached, -⟩ := removeSkippedBlocks_frame hstep
  have hmem := mem_of_getElem? hi0
  have hlt := (List.getElem?_eq_some_iff.mp hi0).1
  have hf0 : m0.mambaFields = some f := by
    rw [← hf, mambaFields_congr hset.kvCacheSpec]
  have hmamba0 : m0.mambaFields.isSome := by rw [hf0]; rfl
  -- a first call removes nothing
  have hpool : hasComputed hits args = true → p = k.blockPool := by
    intro hfirst
    refine forEnum_store_eq (fun i m q b m' q' hm hok => ?_) hloop
    simp only [bind_eq_ok, ok.injEq, Prod.mk.injEq, Prod.exists] at hok
    obtain ⟨m2, p2, hok, -, rfl, rfl⟩ := hok
    exact (removeSkippedBlocks_frame hok).2.2.2 (hcall.first hfirst m hm).1
  have hwithin := hcall.within
  obtain ⟨hpos, hnew⟩ := hcall.counted
  have htotal : k.computedTotal request n args =
      (numLocalComputedTokens request n + args.numExternalComputedTokens : ℕ) := by
    unfold computedTotal
    unfold numLocalComputedTokens at hwithin ⊢
    omega
  have hspec : (k.groupCall request hits n args i).Speculative m1 := by
    refine ⟨fun h => ?_, fun h => not_hasComputed h i, ?_, fun h => ?_, ?_, ?_⟩
    · obtain ⟨hnil, hno⟩ := hcall.first h m0 hmem
      refine ⟨length_eq_zero_iff.mp ?_, hcached ▸ hno⟩
      change (m1.reqBlocks request.requestId).length = 0
      rw [hlen, hnil, length_nil]
    · rw [hset.blockSize]
      exact hcall.hits_le i hlt m0 hi0 hmamba0
    · change _ ≤ (m1.reqBlocks request.requestId).length * _
      rw [hlen, hset.blockSize]
      exact hcall.slots h m0 hmem hmamba0
    · change numLocalComputedTokens request n + args.numExternalComputedTokens ≤
        (k.computedTotal request n args + args.numNewTokens).toNat
      omega
    · change numLocalComputedTokens request n + args.numExternalComputedTokens ≤
        (min (k.computedTotal request n args + args.numNewTokens + args.numLookaheadTokens) k.maxModelLen).toNat
      omega
  refine GroupCall.checked_of_mambaFits hf ?_ hspec ?_
  · exact roomy_invariant.removeSkippedBlocks _ _ _ _ _ _ (hroomy m0 hmem) hstep
  · exact (hfit i hlt m0 hi0).of_frame hset hlen hpool

/-- A request of two prompt tokens with `numTokens` tokens, `numComputedTokens` of them computed. -/
def draftRequest (numTokens numComputedTokens : ℕ) : Request :=
  { requestId := "r", promptTokenIds := none, numPromptTokens := 2, numComputedTokens
    allTokenIds := List.replicate numTokens 0, samplingParams := ⟨9, 0, false, []⟩, maxTokens := 9 }

/-- A Mamba group in mode align with blocks of four tokens and three speculative blocks. -/
def alignSpec : KVCacheSpec := .mamba 4 [[1]] [⟨"float32", 4⟩] none "mamba2" .align 3

def draftOps : List Op :=
  [.allocateSlots (draftRequest 2 0) [[]] 0 { numNewTokens := 2 },
    .allocateSlots (draftRequest 3 2) [[]] 0 { numNewTokens := 4 }]

/-- Two drafts are accepted, and the next step comes with three new ones. -/
theorem reaches_mamba_capacity_accepted : ∃ k₀ k c,
    new ⟨16, [alignSpec]⟩ 100 4 true false false false 1 1 = .ok k₀ ∧
    runSteps step k₀ draftOps = .ok k ∧
    k.coordinator.removeSkippedBlocks "r"
      (k.totalComputedTokens (draftRequest 6 5) 0 { numNewTokens := 3 }) = .ok c ∧
    k.MambaChecked (draftRequest 6 5) [[]] 0 { numNewTokens := 3 } c := by
  obtain ⟨k₀, h₀⟩ := exists_eq_ok_of_isOk (x := new ⟨16, [alignSpec]⟩ 100 4 true false false false
    1 1) (by decide)
  have hrun : ((new ⟨16, [alignSpec]⟩ 100 4 true false false false 1 1).toOption.bind fun k₀ =>
      (runSteps step k₀ draftOps).toOption.map fun k =>
        decide (k.SpeculativeCall (draftRequest 6 5) [[]] 0 { numNewTokens := 3 } ∧
          k.MambaCallFits (draftRequest 6 5) [[]] 0 { numNewTokens := 3 } ∧
          (k.coordinator.removeSkippedBlocks "r" (k.totalComputedTokens (draftRequest 6 5) 0
            { numNewTokens := 3 })).isOk = true)) = some true := by decide +kernel
  rw [h₀] at hrun
  obtain ⟨k, hk, hcall⟩ := map_eq_some_iff.mp hrun
  obtain ⟨hspec, hfit, hok⟩ := of_decide_eq_true hcall
  obtain ⟨c, hc⟩ := exists_eq_ok_of_isOk hok
  have hk' := eq_ok_of_toOption hk
  exact ⟨k₀, k, c, h₀, hk', hc, reaches_mamba_capacity ⟨16, [alignSpec]⟩ 100 4 1 1 true false false
    false k₀ k (by decide) h₀ (Reaches.start.append_runSteps hk') _ _ _ _ hspec hfit c hc⟩

def SpeculativeStep (k : KVCacheManager) : Op → Prop
  | .allocateSlots request hits n args => k.SpeculativeCall request hits n args
  | _ => True

instance (k : KVCacheManager) : (op : Op) → Decidable (k.SpeculativeStep op)
  | .allocateSlots request hits n args =>
    inferInstanceAs (Decidable (k.SpeculativeCall request hits n args))
  | .free _ | .removeSkippedBlocks .. | .cacheBlocks .. | .evictBlocks _ | .resetPrefixCache =>
    isTrue trivial

/-- The prediction and the error of a call after the drafts were rejected. -/
def rejectedOutcome (k : KVCacheManager) (c : KVCacheCoordinator) :
    List (Option ℤ × Option PyError) :=
  let a := k.groupCall (draftRequest 4 3) [[]] 0 { numNewTokens := 1 } 0
  c.singleTypeManagers.map fun m => ((a.predict m c.blockPool).toOption, match a.allocateNew m c.blockPool with
    | .ok _ => none
    | .error e => some e)

/-- All drafts are rejected: one block less is needed than the request has, and the assertion fails. -/
theorem mamba_capacity_broken : ∃ k₀ k c m,
    new ⟨16, [alignSpec]⟩ 100 4 true false false false 1 1 = .ok k₀ ∧
    Reaches step SpeculativeStep k₀ k ∧
    k.SpeculativeCall (draftRequest 4 3) [[]] 0 { numNewTokens := 1 } ∧
    k.coordinator.removeSkippedBlocks "r"
      (k.totalComputedTokens (draftRequest 4 3) 0 { numNewTokens := 1 }) = .ok c ∧
    c.singleTypeManagers = [m] ∧
    (k.groupCall (draftRequest 4 3) [[]] 0 { numNewTokens := 1 } 0).predict m c.blockPool = .ok (-1) ∧
    (k.groupCall (draftRequest 4 3) [[]] 0 { numNewTokens := 1 } 0).allocateNew m c.blockPool =
      .error (.assertionError "num_required_blocks 4 < len(req_blocks) 5") := by
  obtain ⟨k₀, h₀⟩ := exists_eq_ok_of_isOk (x := new ⟨16, [alignSpec]⟩ 100 4 true false false false
    1 1) (by decide)
  have hrun : ((new ⟨16, [alignSpec]⟩ 100 4 true false false false 1 1).toOption.bind fun k₀ =>
      (runAllowed step SpeculativeStep k₀ draftOps).map fun k =>
        decide (k.SpeculativeCall (draftRequest 4 3) [[]] 0 { numNewTokens := 1 } ∧
          (k.coordinator.removeSkippedBlocks "r" (k.totalComputedTokens (draftRequest 4 3) 0
            { numNewTokens := 1 })).toOption.map (k.rejectedOutcome ·) = some [(some (-1),
              some (.assertionError "num_required_blocks 4 < len(req_blocks) 5"))])) =
      some true := by decide +kernel
  rw [h₀] at hrun
  obtain ⟨k, hk, hcall⟩ := map_eq_some_iff.mp hrun
  obtain ⟨hspec, hout⟩ := of_decide_eq_true hcall
  obtain ⟨c, hc, hout⟩ := map_eq_some_iff.mp hout
  obtain ⟨m, hm, hout⟩ := map_eq_singleton_iff.mp hout
  obtain ⟨hpredict, herror⟩ := Prod.mk.inj hout
  refine ⟨k₀, k, c, m, h₀, Reaches.start.append_runAllowed hk, hspec, eq_ok_of_toOption hc, hm,
    eq_ok_of_toOption hpredict, ?_⟩
  split at herror
  · cases herror
  · rename_i e he
    rw [he, some.inj herror]

end KVCacheManager

end CustomAi.Vllm
