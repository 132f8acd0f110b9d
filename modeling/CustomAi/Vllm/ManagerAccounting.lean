import CustomAi.Vllm.BlockPoolAccounting

/-!
# Accounting of one manager

The holdings of a manager are the blocks in its `req_to_blocks` lists.
-/

namespace CustomAi.Vllm

open List Except BlockPool

variable {l : List BlockId} {b : BlockId}

lemma live_set_null {i : ℕ} (h : l[i]? = some b) : (live l).Perm (live [b] ++ live (l.set i nullBlock)) := by
  induction l generalizing i with
  | nil => simp at h
  | cons x rest ih =>
    cases i with
    | zero =>
      simp only [List.getElem?_cons_zero, Option.some.injEq] at h
      subst h
      have hnull : live (nullBlock :: rest) = live rest := by simp [live]
      rw [set_cons_zero, hnull, ← live_append, singleton_append]
    | succ i =>
      have hrest := ih (by simpa using h)
      have hcons : ∀ l : List BlockId, live (x :: l) = live [x] ++ live l := fun l => by
        rw [← live_append, singleton_append]
      rw [set_cons_succ, hcons rest, hcons (rest.set i nullBlock)]
      refine (hrest.append_left (live [x])).trans ?_
      rw [← append_assoc, ← append_assoc]
      exact perm_append_comm.append_right _

lemma pySet_of_pyGet? {i : ℤ} (h : pyGet? l i = some b)
    (x : BlockId) : ∃ n, l[n]? = some b ∧ pySet l i x = l.set n x := by
  unfold pyGet? at h
  unfold pySet
  cases hi : pyIndex l i with
  | none => simp [hi] at h
  | some n => exact ⟨n, by simpa [hi] using h, rfl⟩

namespace SingleTypeKVCacheManager

lemma removeSkippedLoop_spec (i : ℕ) (l : List BlockId) :
    (live l).Perm ((removeSkippedLoop i l).1 ++ live (removeSkippedLoop i l).2) ∧
      (∀ b ∈ (removeSkippedLoop i l).1, b ≠ nullBlock) ∧ (removeSkippedLoop i l).2.length = l.length := by
  induction i generalizing l with
  | zero => simp [removeSkippedLoop]
  | succ i ih =>
    unfold removeSkippedLoop
    by_cases hnull : l.getD i nullBlock = nullBlock
    · rw [if_pos hnull]
      exact ⟨.refl _, by simp, rfl⟩
    · obtain ⟨hperm, hne, hlen⟩ := ih (l.set i nullBlock)
      have hget : l[i]? = some (l.getD i nullBlock) := by
        rw [getD_eq_getElem?_getD] at hnull ⊢
        cases hi : l[i]? with
        | none => simp [hi] at hnull
        | some b => rfl
      have hone : live [l.getD i nullBlock] = [l.getD i nullBlock] := live_of_forall_ne (by simpa using hnull)
      rw [if_neg hnull]
      refine ⟨?_, ?_, by rw [hlen, length_set]⟩
      · refine (live_set_null hget).trans ?_
        rw [hone]
        exact hperm.cons _
      · intro b hb
        rcases mem_cons.mp hb with rfl | hb
        · exact hnull
        · exact hne b hb

lemma reuseSpeculativeBlocks_spec {numSkipped : ℤ} {count idx : ℕ} {l l' : List BlockId}
    (h : reuseSpeculativeBlocks numSkipped count idx l = .ok l') : (live l).Perm (live l') ∧
      (l'.length : ℤ) = l.length + max 0 (min (count : ℤ) (numSkipped - idx)) := by
  induction count generalizing idx l with
  | zero =>
    simp only [reuseSpeculativeBlocks, ok.injEq] at h
    subst h
    refine ⟨.refl _, ?_⟩
    omega
  | succ count ih =>
    unfold reuseSpeculativeBlocks at h
    by_cases hlt : (idx : ℤ) < numSkipped
    · rw [if_pos hlt, pyGet?_natCast] at h
      cases hget : l[idx]? with
      | none => simp [hget] at h
      | some block =>
        simp only [hget, pySet_natCast] at h
        rw [show (idx : ℤ) + 1 = ((idx + 1 : ℕ) : ℤ) by rfl] at h
        obtain ⟨hperm, hlen⟩ := ih h
        have hidx := (List.getElem?_eq_some_iff.mp hget).1
        refine ⟨Perm.trans ?_ hperm, ?_⟩
        · rw [set_append_left _ _ hidx, live_append]
          exact (live_set_null hget).trans perm_append_comm
        · rw [hlen, length_set, length_append, length_singleton]
          omega
    · rw [if_neg hlt] at h
      obtain rfl := ok.inj h
      refine ⟨.refl _, ?_⟩
      omega

def heldOf (d : Dict RequestId (List BlockId)) : Multiset BlockId :=
  d.sum (fun _ l => (live l : Multiset BlockId))

def held (m : SingleTypeKVCacheManager) : Multiset BlockId := heldOf m.reqToBlocks

/-- The holdings of the requests other than `r`. -/
def heldByOthers (m : SingleTypeKVCacheManager) (r : RequestId) : Multiset BlockId :=
  heldOf (m.reqToBlocks.erase r)

def numSpeculativeBlocks (m : SingleTypeKVCacheManager) : ℕ :=
  match m.kvCacheSpec with
  | .mamba _ _ _ _ _ _ numSpeculativeBlocks => numSpeculativeBlocks
  | _ => 0

def isMambaAlign (m : SingleTypeKVCacheManager) : Bool :=
  match m.kvCacheSpec with
  | .mamba _ _ _ _ _ .align _ => true
  | _ => false

/-- No request holds a block twice, and a request that got blocks in mode align has room for its
speculative ones. -/
structure Sound (m : SingleTypeKVCacheManager) : Prop where
  nodup : ∀ r, (live (m.reqBlocks r)).Nodup
  allocated : ∀ r ∈ m.allocatedBlockReqs, m.isMambaAlign = true ∧ m.numSpeculativeBlocks ≤ (m.reqBlocks r).length

structure SameSettings (m m' : SingleTypeKVCacheManager) : Prop where
  kvCacheSpec : m'.kvCacheSpec = m.kvCacheSpec
  blockSize : m'.blockSize = m.blockSize
  enableCaching : m'.enableCaching = m.enableCaching
  kvCacheGroupId : m'.kvCacheGroupId = m.kvCacheGroupId

variable {m m' : SingleTypeKVCacheManager} {p p' : BlockPool} {r : RequestId}
  {F : Multiset BlockId}

lemma SameSettings.refl (m : SingleTypeKVCacheManager) : m.SameSettings m := ⟨rfl, rfl, rfl, rfl⟩

variable {hits new : List BlockId} {m'' : SingleTypeKVCacheManager}
  {numExternal numLocal numTokens numTokensMainModel : ℕ}

lemma SameSettings.trans (h : m.SameSettings m') (h' : m'.SameSettings m'') : m.SameSettings m'' :=
  ⟨h'.1.trans h.1, h'.2.trans h.2, h'.3.trans h.3, h'.4.trans h.4⟩

lemma numSpeculativeBlocks_congr (h : m'.kvCacheSpec = m.kvCacheSpec) :
    m'.numSpeculativeBlocks = m.numSpeculativeBlocks := by
  unfold numSpeculativeBlocks
  rw [h]

lemma isMambaAlign_congr (h : m'.kvCacheSpec = m.kvCacheSpec) : m'.isMambaAlign = m.isMambaAlign := by
  unfold isMambaAlign
  rw [h]

lemma held_eq (m : SingleTypeKVCacheManager) (r : RequestId) :
    m.held = m.heldByOthers r + live (m.reqBlocks r) := by
  have h := m.reqToBlocks.sum_erase (fun _ l => (live l : Multiset BlockId)) r
  unfold held heldByOthers heldOf reqBlocks
  rw [← h]
  cases m.reqToBlocks.get? r <;> rfl

lemma heldOf_set (d : Dict RequestId (List BlockId)) (r : RequestId) (l : List BlockId) :
    heldOf (d.set r l) = heldOf (d.erase r) + live l := by
  have h := d.sum_set (fun _ l => (live l : Multiset BlockId)) r l
  have h' := d.sum_erase (fun _ l => (live l : Multiset BlockId)) r
  rw [← h', add_assoc, add_comm _ (live l : Multiset BlockId), ← add_assoc] at h
  exact add_right_cancel h

@[simp] lemma held_setReqBlocks (m : SingleTypeKVCacheManager) (r : RequestId)
    (l : List BlockId) : (m.setReqBlocks r l).held = m.heldByOthers r + live l :=
  heldOf_set m.reqToBlocks r l

lemma reqBlocks_of_set {l : List BlockId} (h : m'.reqToBlocks = m.reqToBlocks.set r l) (x : RequestId) :
    m'.reqBlocks x = if x = r then l else m.reqBlocks x := by
  unfold reqBlocks
  rw [h, Dict.get?_set]
  split <;> rfl

lemma reqBlocks_setReqBlocks (m : SingleTypeKVCacheManager) (r x : RequestId) (l : List BlockId) :
    (m.setReqBlocks r l).reqBlocks x = if x = r then l else m.reqBlocks x :=
  reqBlocks_of_set rfl x

lemma Sound.setReqBlocks (h : m.Sound) {l : List BlockId} (hnd : (live l).Nodup)
    (hreq : m'.reqToBlocks = m.reqToBlocks.set r l) (hspec : m'.kvCacheSpec = m.kvCacheSpec)
    (hall : ∀ x ∈ m'.allocatedBlockReqs, x = r ∨ x ∈ m.allocatedBlockReqs) (hlen : r ∈ m'.allocatedBlockReqs →
      m.isMambaAlign = true ∧ m.numSpeculativeBlocks ≤ l.length) : m'.Sound := by
  refine ⟨fun x => ?_, fun x hx => ?_⟩
  · rw [reqBlocks_of_set hreq]
    split
    · exact hnd
    · exact h.nodup x
  · rw [reqBlocks_of_set hreq, numSpeculativeBlocks_congr hspec, isMambaAlign_congr hspec]
    split
    · rename_i hxr
      exact hlen (hxr ▸ hx)
    · rename_i hxr
      exact h.allocated x ((hall x hx).resolve_left hxr)

structure Accounted (m m' : SingleTypeKVCacheManager) (p p' : BlockPool) (F : Multiset BlockId) :
    Prop where
  sound : m'.Sound
  valid : p'.Valid (m'.held + F)
  settings : m.SameSettings m'
  config : p.SameConfig p'

lemma Accounted.refl (hs : m.Sound) (hv : p.Valid (m.held + F)) : Accounted m m p p F :=
  ⟨hs, hv, .refl m, .refl p⟩

lemma Accounted.trans {p'' : BlockPool} (h : Accounted m m' p p' F)
    (h' : Accounted m' m'' p' p'' F) : Accounted m m'' p p'' F :=
  ⟨h'.sound, h'.valid, h.settings.trans h'.settings, h.config.trans h'.config⟩

lemma Valid.mem_usable_of_reqBlocks (hv : p.Valid (m.held + F)) {b : BlockId}
    (hb : b ∈ m.reqBlocks r) (hne : b ≠ nullBlock) : b ∈ p.usable := by
  apply hv.accounts.held_mem
  rw [held_eq m r]
  simp only [Multiset.mem_add, Multiset.mem_coe, mem_live]
  exact .inl (.inr ⟨hb, hne⟩)

lemma append_new_valid (hv : p.Valid (m.held + F)) {l : List BlockId} {n : ℤ} (hn : 0 ≤ n)
    (hnd : (live l).Nodup) (hperm : (live (m.reqBlocks r)).Perm (live l)) (hok : p.getNewBlocks n = .ok (new, p')) :
    p'.Valid ((m.setReqBlocks r (l ++ new)).held + F) ∧ (live (l ++ new)).Nodup ∧
      new.length = n.toNat ∧ p.SameConfig p' := by
  obtain ⟨hv', hnew, hfresh, hlive, ht⟩ := hv.getNewBlocks hn hok
  have hlive_l : (live (m.reqBlocks r) : Multiset BlockId) = live l := Multiset.coe_eq_coe.mpr hperm
  refine ⟨?_, ?_, ht.length_eq, ht.config⟩
  · rw [held_setReqBlocks, live_append, hlive, ← Multiset.coe_add, ← hlive_l, ← add_assoc, ← held_eq]
    rwa [add_right_comm] at hv'
  · rw [live_append, hlive, List.nodup_append]
    refine ⟨hnd, hnew, fun a ha b hb => ?_⟩
    rintro rfl
    apply hfresh a hb
    rw [held_eq m r, hlive_l]
    simp [ha]

lemma baseAllocateNewBlocks_cases (hok : m.baseAllocateNewBlocks p r numTokens = .ok (new, m', p')) :
    (m' = m ∧ p' = p ∧ cdiv numTokens m.blockSize ≤ (m.reqBlocks r).length) ∨
      (m.reqBlocks r).length < cdiv numTokens m.blockSize ∧
        p.getNewBlocks ((cdiv numTokens m.blockSize : ℤ) - (m.reqBlocks r).length) = .ok (new, p') ∧
          m' = m.setReqBlocks r (m.reqBlocks r ++ new) := by
  unfold baseAllocateNewBlocks at hok
  dsimp only at hok
  split at hok
  · obtain ⟨-, hmp⟩ := ok_pair_inj hok
    obtain ⟨rfl, rfl⟩ := Prod.mk.inj hmp
    exact .inl ⟨rfl, rfl, by omega⟩
  · simp only [bind_eq_ok, pure_eq_ok, ok.injEq, Prod.mk.injEq, Prod.exists] at hok
    obtain ⟨_, _, hget, rfl, rfl, rfl⟩ := hok
    exact .inr ⟨by omega, hget, rfl⟩

lemma cacheBlocks_cases {request : Request} (hok : m.cacheBlocks p request numTokens = .ok (m', p')) :
    (m' = m ∧ p' = p) ∨ (m.numCachedBlock.get? request.requestId).getD 0 < numTokens / m.blockSize ∧
      p.cacheFullBlocks request (m.reqBlocks request.requestId)
        ((m.numCachedBlock.get? request.requestId).getD 0) (numTokens / m.blockSize) m.blockSize
        m.kvCacheGroupId = .ok p' ∧
      m' = { m with numCachedBlock := m.numCachedBlock.set request.requestId (numTokens / m.blockSize) } := by
  unfold cacheBlocks at hok
  split at hok
  · cases hok
  · dsimp only at hok
    split at hok
    · obtain ⟨rfl, rfl⟩ := hok
      exact .inl ⟨rfl, rfl⟩
    · simp only [bind_eq_ok, pure_eq_ok, ok.injEq, Prod.mk.injEq] at hok
      obtain ⟨_, hcache, rfl, rfl⟩ := hok
      exact .inr ⟨not_le.mp ‹_›, hcache, rfl⟩

section

variable (hs : m.Sound) (hv : p.Valid (m.held + F))
include hs hv

lemma baseAllocateNewBlocks_accounted
    (hok : m.baseAllocateNewBlocks p r numTokens = .ok (new, m', p')) : Accounted m m' p p' F := by
  rcases baseAllocateNewBlocks_cases hok with ⟨rfl, rfl, -⟩ | ⟨hlt, hget, rfl⟩
  · exact .refl hs hv
  · obtain ⟨hv', hnd, -, hcfg⟩ := append_new_valid hv (by omega) (hs.nodup r) (.refl _) hget
    refine ⟨hs.setReqBlocks hnd rfl rfl (fun x hx => .inr hx) fun hr => ?_, hv', ⟨rfl, rfl, rfl, rfl⟩, hcfg⟩
    rw [length_append]
    exact ⟨(hs.allocated r hr).1, (hs.allocated r hr).2.trans (Nat.le_add_right _ _)⟩

lemma alignAllocateNewBlocks_accounted (halign : m.isMambaAlign = true)
    (hok : m.alignAllocateNewBlocks p r numTokensMainModel m.numSpeculativeBlocks =
      .ok (new, m', p')) : Accounted m m' p p' F := by
  unfold alignAllocateNewBlocks at hok
  set k := m.numSpeculativeBlocks
  set required : ℤ := cdiv numTokensMainModel m.blockSize + k with hreq
  set prev := (m.reqBlocks r).length with hprev
  by_cases heq : required = prev
  · rw [if_pos heq] at hok
    obtain ⟨-, rfl, rfl⟩ := hok
    exact .refl hs hv
  · rw [if_neg heq] at hok
    simp only [bind_eq_ok, ensure_eq_ok, pure_eq_ok, ok.injEq, Prod.mk.injEq, Prod.exists] at hok
    obtain ⟨_, hgt, l, hl, _, _, new', p1, hget, -, rfl, rfl⟩ := hok
    have hpad : live (m.reqBlocks r ++
        replicate (required - k - 1 - prev).toNat nullBlock) = live (m.reqBlocks r) := by simp
    have hlive : (live (m.reqBlocks r)).Perm (live l) ∧ (l.length : ℤ) < required := by
      by_cases hall : r ∈ m.allocatedBlockReqs
      · have hle := (hs.allocated r hall).2
        have hidx : ((m.reqBlocks r).length : ℤ) - k = ((prev - k : ℕ) : ℤ) := by omega
        simp only [hall, decide_true, ite_true] at hl
        rw [hidx] at hl
        obtain ⟨hperm, hlen⟩ := reuseSpeculativeBlocks_spec hl
        rw [hpad] at hperm
        refine ⟨hperm, ?_⟩
        simp only [length_append, length_replicate] at hlen
        omega
      · simp only [hall, decide_false, Bool.false_eq_true, ite_false, ok.injEq] at hl
        subst hl
        refine ⟨by rw [hpad], ?_⟩
        simp only [length_append, length_replicate]
        omega
    have hnd : (live l).Nodup := hlive.1.nodup_iff.mp (hs.nodup r)
    obtain ⟨hv', hnd', hlen, hcfg⟩ := append_new_valid hv (by omega) hnd hlive.1 hget
    refine ⟨hs.setReqBlocks hnd' rfl rfl (fun x hx => ?_) fun _ => ?_, hv', ⟨rfl, rfl, rfl, rfl⟩, hcfg⟩
    · exact Finset.mem_insert.mp hx
    · rw [length_append]
      exact ⟨halign, by omega⟩

lemma allocateNewBlocks_accounted
    (hok : m.allocateNewBlocks p r numTokens numTokensMainModel = .ok (new, m', p')) : Accounted m m' p p' F := by
  unfold allocateNewBlocks at hok
  split at hok
  · rename_i k hspec
    have hk : m.numSpeculativeBlocks = k := by
      unfold numSpeculativeBlocks
      rw [hspec]
    rw [← hk] at hok
    exact alignAllocateNewBlocks_accounted hs hv (by unfold isMambaAlign; rw [hspec]) hok
  · exact baseAllocateNewBlocks_accounted hs hv hok
  · exact baseAllocateNewBlocks_accounted hs hv hok

end

/-- The hits are usable or null, distinct, and not longer than the computed tokens. -/
structure HitsFit (p : BlockPool) (m : SingleTypeKVCacheManager) (hits : List BlockId)
    (numLocalComputedTokens numExternalComputedTokens : ℕ) : Prop where
  usable : ∀ b ∈ hits, b ≠ nullBlock → b ∈ p.usable
  nodup : (live hits).Nodup
  length_le : 0 < numExternalComputedTokens →
    hits.length ≤ cdiv (numLocalComputedTokens + numExternalComputedTokens) m.blockSize

def WindowFits (m : SingleTypeKVCacheManager) : Prop :=
  ∀ n : ℕ, m.getNumSkippedTokens n ≤ n

lemma windowFits_of_positive (h : ∀ attn window, m.kvCacheSpec = .slidingWindow attn window → 0 < window) :
    m.WindowFits := by
  intro n
  unfold getNumSkippedTokens
  cases hspec : m.kvCacheSpec <;> simp only []
  case slidingWindow attn window =>
    have hpos := h attn window hspec
    apply max_le
    · exact Int.natCast_nonneg n
    · omega
  case chunkedLocalAttention attn chunkSize => exact_mod_cast Nat.div_mul_le_self n chunkSize
  case mamba => omega
  all_goals exact Int.natCast_nonneg n

/-- `num_skipped_blocks`, where a negative number of blocks is none. -/
def numSkippedBlocks (m : SingleTypeKVCacheManager) (numTotalComputedTokens : ℕ) : ℕ :=
  (m.getNumSkippedTokens numTotalComputedTokens / m.blockSize).toNat

/-- The external tokens that `allocate_new_computed_blocks` allocates blocks for. -/
def externalTokens (m : SingleTypeKVCacheManager) (numLocal numExternal : ℕ) : ℤ :=
  if m.getNumSkippedTokens (numLocal + numExternal) / m.blockSize > 0 then
    min (((numLocal + numExternal : ℕ) : ℤ) - m.getNumSkippedTokens (numLocal + numExternal)) numExternal
  else numExternal

def externalBlocks (m : SingleTypeKVCacheManager) (hits : List BlockId)
    (numLocal numExternal : ℕ) : ℤ :=
  if 0 < m.externalTokens numLocal numExternal then
    (cdiv (numLocal + numExternal) m.blockSize : ℤ) - max (m.numSkippedBlocks (numLocal + numExternal)) hits.length
  else 0

lemma allocateNewComputedBlocks_cases
    (hok : m.allocateNewComputedBlocks p r hits numLocal numExternal = .ok (m', p')) : (m' = m ∧ p' = p) ∨
      m.numCachedBlock.contains r = false ∧
        m.baseAllocateNewComputedBlocks p r hits numLocal numExternal = .ok (m', p') := by
  unfold allocateNewComputedBlocks at hok
  split at hok
  · simp only [bind_eq_ok, pure_eq_ok, ok.injEq, Prod.mk.injEq] at hok
    obtain ⟨_, -, rfl, rfl⟩ := hok
    exact .inl ⟨rfl, rfl⟩
  · cases hc : m.numCachedBlock.contains r with
    | false => exact .inr ⟨rfl, hok⟩
    | true =>
      unfold baseAllocateNewComputedBlocks at hok
      simp only [hc, ite_true, bind_eq_ok, pure_eq_ok, ok.injEq, Prod.mk.injEq] at hok
      obtain ⟨_, -, rfl, rfl⟩ := hok
      exact .inl ⟨rfl, rfl⟩

/-- A request that was not cached touches the hits behind the skipped blocks and takes new ones. -/
theorem baseAllocateNewComputedBlocks_cases (hc : m.numCachedBlock.contains r = false)
    (hok : m.baseAllocateNewComputedBlocks p r hits numLocal numExternal = .ok (m', p')) :
    m.reqBlocks r = [] ∧ ∃ p₁ new,
      touch (hits.drop (m.numSkippedBlocks (numLocal + numExternal))) p = .ok p₁ ∧
      (if 0 < m.externalTokens numLocal numExternal then
        p₁.getNewBlocks (m.externalBlocks hits numLocal numExternal) = .ok (new, p') else new = [] ∧ p' = p₁) ∧
      m'.reqToBlocks = m.reqToBlocks.set r (replicate (m.numSkippedBlocks (numLocal + numExternal)) nullBlock ++
        hits.drop (m.numSkippedBlocks (numLocal + numExternal)) ++ new) ∧ m.SameSettings m' ∧
      m'.allocatedBlockReqs = m.allocatedBlockReqs ∧ m'.numCachedBlock = m.numCachedBlock.set r
        (max (m.numSkippedBlocks (numLocal + numExternal)) hits.length) := by
  unfold baseAllocateNewComputedBlocks at hok
  simp only [hc, Bool.false_eq_true, ite_false, bind_eq_ok, ensure_eq_ok] at hok
  obtain ⟨_, hempty, p₁, htouch, hok⟩ := hok
  set s := m.numSkippedBlocks (numLocal + numExternal) with hs
  have hsdef : (m.getNumSkippedTokens (numLocal + numExternal) / (m.blockSize : ℤ)).toNat = s := rfl
  rw [hsdef] at htouch hok
  have hdrop : (if m.getNumSkippedTokens (numLocal + numExternal) / (m.blockSize : ℤ) > 0 then
      hits.drop s else hits) = hits.drop s := by
    split
    · rfl
    · have hzero : s = 0 := by omega
      rw [hzero, drop_zero]
  rw [hdrop] at hok htouch
  have htouch' : touch (hits.drop s) p = .ok p₁ := by
    split at htouch
    · exact htouch
    · simp only [bind_eq_ok, ensure_eq_ok, pure_eq_ok, ok.injEq] at htouch
      obtain ⟨_, hnil, rfl⟩ := htouch
      rw [hnil]
      rfl
  have hlen : (replicate s nullBlock ++ hits.drop s).length = max s hits.length := by
    rw [length_append, length_replicate, length_drop]
    omega
  rw [hlen] at hok
  refine ⟨length_eq_zero_iff.mp hempty, p₁, ?_⟩
  have hext : m.externalTokens numLocal numExternal =
      if m.getNumSkippedTokens (numLocal + numExternal) / (m.blockSize : ℤ) > 0 then
        min (((numLocal + numExternal : ℕ) : ℤ) - m.getNumSkippedTokens (numLocal + numExternal)) numExternal
      else numExternal := rfl
  rw [← hext] at hok
  by_cases hpos : 0 < m.externalTokens numLocal numExternal
  · rw [if_pos hpos] at hok
    simp only [bind_eq_ok, pure_eq_ok, ok.injEq, Prod.mk.injEq, Prod.exists] at hok
    obtain ⟨new, p₂, hget, rfl, rfl⟩ := hok
    refine ⟨new, htouch', ?_, Dict.set_set .., ⟨rfl, rfl, rfl, rfl⟩, rfl, rfl⟩
    rw [if_pos hpos, externalBlocks, if_pos hpos]
    exact hget
  · rw [if_neg hpos] at hok
    obtain ⟨rfl, rfl⟩ := ok_pair_inj hok
    refine ⟨[], htouch', ?_, ?_, ⟨rfl, rfl, rfl, rfl⟩, rfl, rfl⟩
    · rw [if_neg hpos]
      exact ⟨rfl, rfl⟩
    · rw [append_nil]
      rfl

section

variable (hs : m.Sound) (hv : p.Valid (m.held + F))
include hs hv

lemma allocateNewComputedBlocks_accounted
    (hbs : 0 < m.blockSize) (hw : m.WindowFits) (hh : HitsFit p m hits numLocal numExternal)
    (hok : m.allocateNewComputedBlocks p r hits numLocal numExternal = .ok (m', p')) : Accounted m m' p p' F := by
  rcases allocateNewComputedBlocks_cases hok with ⟨rfl, rfl⟩ | ⟨hc, hok⟩
  · exact .refl hs hv
  obtain ⟨hnil, p₁, new, htouch, hnew, hreq, hset, hall, -⟩ := baseAllocateNewComputedBlocks_cases hc hok
  set skipped := m.numSkippedBlocks (numLocal + numExternal)
  set blocks := replicate skipped nullBlock ++ hits.drop skipped with hblocks
  have hlive : live blocks = live (hits.drop skipped) := by simp [hblocks]
  have hnd : (live blocks).Nodup := hlive ▸ hh.nodup.sublist ((drop_sublist _ _).filter _)
  have hv₁ : p₁.Valid ((m.setReqBlocks r blocks).held + F) := by
    have hheld : (m.setReqBlocks r blocks).held = m.held + live (hits.drop skipped) := by
      rw [held_setReqBlocks, hlive, held_eq m r, hnil]
      simp
    rw [hheld, add_right_comm]
    exact hv.touch (fun b hb => hh.usable b (mem_of_mem_drop hb)) htouch
  have hv' : p'.Valid ((m.setReqBlocks r (blocks ++ new)).held + F) ∧ (live (blocks ++ new)).Nodup ∧
      p₁.SameConfig p' := by
    split at hnew
    · rename_i hext
      have hnonneg : 0 ≤ m.externalBlocks hits numLocal numExternal := by
        have hpos : 0 < numExternal := by
          unfold externalTokens at hext
          split at hext <;> omega
        have hlen := hh.length_le hpos
        have hle := Int.ediv_le_ediv (by exact_mod_cast hbs : (0 : ℤ) < m.blockSize)
          (hw (numLocal + numExternal))
        have hskip_le : skipped ≤ (numLocal + numExternal) / m.blockSize := Int.toNat_le.mpr hle
        have hdiv := div_le_cdiv (numLocal + numExternal) m.blockSize
        rw [externalBlocks, if_pos hext]
        omega
      have hblk : (m.setReqBlocks r blocks).reqBlocks r = blocks := by rw [reqBlocks_setReqBlocks, if_pos rfl]
      obtain ⟨hv', hnd', -, hcfg⟩ := append_new_valid hv₁ hnonneg hnd (by rw [hblk]) hnew
      have hsame : (m.setReqBlocks r blocks).setReqBlocks r (blocks ++ new) =
          m.setReqBlocks r (blocks ++ new) := by simp [setReqBlocks]
      exact ⟨hsame ▸ hv', hnd', hcfg⟩
    · obtain ⟨rfl, rfl⟩ := hnew
      rw [append_nil]
      exact ⟨hv₁, hnd, .refl _⟩
  refine ⟨hs.setReqBlocks hv'.2.1 hreq hset.kvCacheSpec (fun x hx => .inr (hall ▸ hx)) fun hr => ?_, ?_, hset,
    (touch_spec hv.coherent htouch).config.trans hv'.2.2⟩
  · obtain ⟨halign, hle⟩ := hs.allocated r (hall ▸ hr)
    rw [hnil] at hle
    exact ⟨halign, hle.trans (Nat.zero_le _)⟩
  · have hheld : m'.held = (m.setReqBlocks r (blocks ++ new)).held := congrArg heldOf hreq
    exact hheld ▸ hv'.1

lemma cacheBlocks_accounted {request : Request}
    (hok : m.cacheBlocks p request numTokens = .ok (m', p')) : Accounted m m' p p' F := by
  rcases cacheBlocks_cases hok with ⟨rfl, rfl⟩ | ⟨hlt, hcache, rfl⟩
  · exact .refl hs hv
  · obtain ⟨-, hashes, -, hc⟩ := cacheFullBlocks_spec hv.coherent hcache hlt
    refine ⟨⟨hs.nodup, hs.allocated⟩, hv.cached hc fun b hb hne => ?_, ⟨rfl, rfl, rfl, rfl⟩, hc.config⟩
    exact Valid.mem_usable_of_reqBlocks hv (mem_of_mem_take (mem_of_mem_drop hb)) hne

end

lemma release_valid (hv : p.Valid (m.held + F)) {l removed : List BlockId}
    (hperm : (live (m.reqBlocks r)).Perm (live removed ++ live l)) (hnd : (live (m.reqBlocks r)).Nodup) :
    (p.freeBlocks removed).Valid ((m.setReqBlocks r l).held + F) := by
  have hnd' := hperm.nodup_iff.mp hnd
  have hcoe : (live (m.reqBlocks r) : Multiset BlockId) = live removed + live l := by
    exact Multiset.coe_eq_coe.mpr hperm
  have hheld : m.held + F = live removed + ((m.setReqBlocks r l).held + F) := by
    rw [held_setReqBlocks, held_eq m r, hcoe]
    ac_rfl
  have hle : (live removed : Multiset BlockId) ≤ m.held + F := by
    rw [hheld]
    exact Multiset.le_add_right _ _
  have h := hv.freeBlocks hnd'.of_append_left hle
  rwa [hheld, add_tsub_cancel_left] at h

/-- Blocks of `r` are freed, and null blocks take their places. -/
inductive Trimmed (r : RequestId) (m : SingleTypeKVCacheManager) (p : BlockPool) :
    SingleTypeKVCacheManager → BlockPool → Prop
  | same : Trimmed r m p m p
  | freed {removed l : List BlockId} (hfreed : live removed = removed)
      (hperm : (live (m.reqBlocks r)).Perm (removed ++ live l)) (hlen : l.length = (m.reqBlocks r).length) :
      Trimmed r m p (m.setReqBlocks r l) (p.freeBlocks removed)

lemma baseRemoveSkippedBlocks_trimmed (m : SingleTypeKVCacheManager) (p : BlockPool) (r : RequestId) (n : ℕ) :
    Trimmed r m p (m.baseRemoveSkippedBlocks p r n).1 (m.baseRemoveSkippedBlocks p r n).2 := by
  unfold baseRemoveSkippedBlocks
  dsimp only
  split
  · exact .same
  · obtain ⟨hperm, hne, hlen⟩ := removeSkippedLoop_spec (min (m.getNumSkippedTokens n / m.blockSize)
      ((m.reqBlocks r).length : ℤ)).toNat (m.reqBlocks r)
    exact .freed (live_of_forall_ne hne) hperm hlen

lemma freeLastStateBlock_trimmed {n : ℕ} (hok : m.freeLastStateBlock p r n = .ok (m', p')) :
    Trimmed r m p m' p' := by
  have hsame : Except.ok (m, p) = (Except.ok (m', p') : Except PyError _) → Trimmed r m p m' p' := by
    intro h
    obtain ⟨rfl, rfl⟩ := ok_pair_inj h
    exact .same
  unfold freeLastStateBlock at hok
  split at hok
  · exact hsame hok
  · split at hok
    · dsimp only at hok
      split at hok
      · cases hok
      · rename_i block hget
        split at hok
        · exact hsame hok
        · rename_i hnull
          obtain ⟨rfl, rfl⟩ := ok_pair_inj hok
          obtain ⟨i, hi, hset⟩ := pySet_of_pyGet? hget nullBlock
          have hone : live [block] = [block] := live_of_forall_ne (by simpa using hnull)
          have hperm := live_set_null hi
          rw [hone] at hperm
          rw [hset]
          exact .freed hone hperm length_set
    · exact hsame hok

lemma removeSkippedBlocks_trimmed {n : ℕ} (hok : m.removeSkippedBlocks p r n = .ok (m', p')) :
    ∃ m₁ p₁, Trimmed r m p m₁ p₁ ∧ Trimmed r m₁ p₁ m' p' := by
  refine ⟨_, _, baseRemoveSkippedBlocks_trimmed m p r n, ?_⟩
  unfold removeSkippedBlocks at hok
  dsimp only at hok
  split at hok
  · exact freeLastStateBlock_trimmed hok
  · obtain ⟨rfl, rfl⟩ := ok_pair_inj hok
    exact .same

section

variable (hs : m.Sound) (hv : p.Valid (m.held + F))
include hs hv

lemma free_accounted (r : RequestId) : Accounted m (m.free p r).1 p (m.free p r).2 F := by
  have hrel : (p.freeBlocks (m.reqBlocks r).reverse).Valid ((m.setReqBlocks r []).held + F) := by
    apply release_valid hv _ (hs.nodup r)
    rw [live_nil, append_nil, live, live, filter_reverse]
    exact (reverse_perm _).symm
  have hheld : (m.setReqBlocks r []).held = heldOf (m.reqToBlocks.erase r) := by
    rw [held_setReqBlocks]
    simp [heldByOthers]
  rw [hheld] at hrel
  have hget : ∀ x, ((m.reqToBlocks.erase r).get? x).getD [] = if x = r then [] else m.reqBlocks x := by
    intro x
    rw [Dict.get?_erase]
    split <;> rfl
  have hcfg := (freeBlocks_spec hv.coherent (m.reqBlocks r).reverse).1.config
  have hsound : ∀ m' : SingleTypeKVCacheManager, m'.reqToBlocks = m.reqToBlocks.erase r →
      m'.kvCacheSpec = m.kvCacheSpec → m'.allocatedBlockReqs = m.allocatedBlockReqs.erase r → m'.Sound := by
    intro m' hreq hspec hall
    refine ⟨fun x => ?_, fun x hx => ?_⟩
    · unfold reqBlocks
      rw [hreq, hget]
      split
      · simp
      · exact hs.nodup x
    · rw [hall, Finset.mem_erase] at hx
      unfold reqBlocks
      rw [hreq, hget, if_neg hx.1, numSpeculativeBlocks_congr hspec, isMambaAlign_congr hspec]
      exact hs.allocated x hx.2
  unfold free
  simp only []
  split
  · exact ⟨hsound _ rfl rfl rfl, hrel, ⟨rfl, rfl, rfl, rfl⟩, hcfg⟩
  · rename_i hspec
    refine ⟨hsound _ rfl rfl ?_, hrel, ⟨rfl, rfl, rfl, rfl⟩, hcfg⟩
    -- outside mode align no request is marked as allocated
    rw [Finset.erase_eq_of_notMem]
    intro hr
    have halign := (hs.allocated r hr).1
    unfold isMambaAlign at halign
    split at halign
    · rename_i hmamba
      exact hspec _ _ _ _ _ _ hmamba
    · cases halign

lemma Trimmed.accounted (h : Trimmed r m p m' p') : Accounted m m' p p' F := by
  cases h with
  | same => exact .refl hs hv
  | freed hfreed hperm hlen =>
    refine ⟨hs.setReqBlocks (hperm.nodup_iff.mp (hs.nodup r)).of_append_right rfl rfl (fun x hx => .inr hx)
      fun hr => ?_, release_valid hv (hfreed.symm ▸ hperm) (hs.nodup r), ⟨rfl, rfl, rfl, rfl⟩,
      (freeBlocks_spec hv.coherent _).1.config⟩
    rw [hlen]
    exact hs.allocated r hr

lemma removeSkippedBlocks_accounted {totalComputedTokens : ℕ}
    (hok : m.removeSkippedBlocks p r totalComputedTokens = .ok (m', p')) : Accounted m m' p p' F := by
  obtain ⟨m₁, p₁, hbase, hlast⟩ := removeSkippedBlocks_trimmed hok
  have hacc := hbase.accounted hs hv
  exact hacc.trans (hlast.accounted hacc.sound hacc.valid)

end

end SingleTypeKVCacheManager

end CustomAi.Vllm
