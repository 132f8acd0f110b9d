import Mathlib.Tactic.Ring
import CustomAi.Vllm.BlockPoolCoherence
import CustomAi.Vllm.SingleTypeKVCacheManager

/-!
# Accounting of the pool

The reference counts and the free queue of a valid pool are those of a ledger for the multiset of
all holdings.
-/

namespace CustomAi.Vllm

open List Except FreeKVCacheBlockQueue BlockPool

def live (l : List BlockId) : List BlockId := l.filter (fun b => b ≠ nullBlock)

@[simp] lemma live_nil : live [] = [] := rfl

@[simp] lemma live_append (l l' : List BlockId) : live (l ++ l') = live l ++ live l' :=
  filter_append ..

@[simp] lemma live_replicate_null (n : ℕ) : live (replicate n nullBlock) = [] := by
  unfold live
  rw [filter_eq_nil_iff]
  intro b hb
  simp [eq_of_mem_replicate hb]

variable {l : List BlockId}

lemma mem_live {b : BlockId} : b ∈ live l ↔ b ∈ l ∧ b ≠ nullBlock := by
  simp [live]

lemma live_of_forall_ne (h : ∀ b ∈ l, b ≠ nullBlock) : live l = l := by
  unfold live
  simpa using h

namespace BlockPool

def usable (p : BlockPool) : Finset BlockId := (Finset.range p.numGpuBlocks).erase nullBlock

def ledger (p : BlockPool) : Ledger BlockId := ⟨p.refs, p.freeBlockQueue.blocks⟩

/-- The counts and the queue are those of the holdings `held`, and only usable blocks are
cached. -/
structure Valid (p : BlockPool) (held : Multiset BlockId) : Prop where
  coherent : p.Coherent
  accounts : p.ledger.Accounts p.usable held
  numFree : p.freeBlockQueue.numFreeBlocks = p.freeBlockQueue.blocks.length
  cached_usable : ∀ b key, p.hashOf b = some key → b ∈ p.usable

variable {p p' : BlockPool} {held : Multiset BlockId} {b : BlockId}

lemma ne_null_of_mem_usable (h : b ∈ p.usable) : b ≠ nullBlock := (Finset.mem_erase.mp h).1

lemma SameConfig.usable_eq (h : SameConfig p p') : p'.usable = p.usable := by
  unfold usable
  rw [h.numGpuBlocks]

lemma Valid.ne_null_of_mem_queue (h : p.Valid held) (hb : b ∈ p.freeBlockQueue.blocks) :
    b ≠ nullBlock := ne_null_of_mem_usable (h.accounts.mem_dom_of_mem_free hb)

lemma Coherent.counted_eq (h : p.Coherent) : (fun b => !(p.blocks b).isNull) = fun b => decide (b ≠ nullBlock) := by
  funext b
  rw [Bool.eq_iff_iff, Bool.not_eq_true', ← Bool.not_eq_true, h.isNull_iff, decide_eq_true_iff]

lemma counted_of_mem_usable : ∀ b ∈ p.usable, decide (b ≠ nullBlock) = true :=
  fun _ hb => decide_eq_true (ne_null_of_mem_usable hb)

section

variable (h : p.Valid held)
include h

lemma Valid.evicted {s : BlockId → Prop} (he : Evicted p p' s) : p'.Valid held := by
  refine ⟨he.coherent, ?_, ?_, fun b key hb => ?_⟩
  · unfold ledger
    rw [he.refs_eq, he.queue_eq, he.config.usable_eq]
    exact h.accounts
  · rw [he.queue_eq, h.numFree]
  · rw [he.config.usable_eq]
    by_cases hs : s b
    · rw [he.hashOf_of b hs] at hb
      cases hb
    · exact h.cached_usable b key (he.hashOf_of_not b hs ▸ hb)

lemma Valid.getNewBlocks {n : ℤ} (hn : 0 ≤ n) {ret : List BlockId} (hok : p.getNewBlocks n = .ok (ret, p')) :
    p'.Valid (held + ret) ∧ ret.Nodup ∧ (∀ b ∈ ret, b ∉ held) ∧ live ret = ret ∧ TookNew p p' n ret := by
  have ht := getNewBlocks_spec h.coherent hok
  have hmem : ∀ b ∈ ret, b ∈ p.freeBlockQueue.blocks := fun b hb =>
    mem_of_mem_take (ht.ret_eq ▸ hb)
  have hledger : p'.ledger = p.ledger.take n.toNat := by
    unfold ledger Ledger.take
    rw [ht.queue_eq]
    congr 1
    funext b
    rw [ht.refs_eq, ht.ret_eq]
  refine ⟨⟨ht.coherent, ?_, ?_, fun b key hb => ?_⟩, ?_, fun b hb hm => ?_, ?_, ht⟩
  · rw [hledger, ht.config.usable_eq, ht.ret_eq]
    exact h.accounts.take n.toNat
  · rw [ht.queue_eq]
    have hle := ht.le_free
    have hfree := h.numFree
    simp only [length_drop]
    omega
  · rw [ht.config.usable_eq]
    by_cases hc : p.enableCaching = true ∧ b ∈ ret
    · rw [ht.hashOf_of b hc.1 hc.2] at hb
      cases hb
    · exact h.cached_usable b key (ht.hashOf_of_not b hc ▸ hb)
  · rw [ht.ret_eq]
    exact h.accounts.nodup.sublist (take_sublist _ _)
  · exact Multiset.count_eq_zero.mp (h.accounts.count_eq_zero_of_mem_free (hmem b hb)) hm
  · exact live_of_forall_ne fun b hb => h.ne_null_of_mem_queue (hmem b hb)

lemma Valid.touch {l : List BlockId}
    (hl : ∀ b ∈ l, b ≠ nullBlock → b ∈ p.usable) (hok : touch l p = .ok p') : p'.Valid (held + live l) := by
  induction l generalizing p held with
  | nil =>
    simp only [touch, ok.injEq] at hok
    subst hok
    simpa using h
  | cons x rest ih =>
    simp only [touch, bind_eq_ok] at hok
    obtain ⟨queue, hqueue, hrest⟩ := hok
    have hx := hl x mem_cons_self
    -- the queue loses the block exactly if it is there
    have hq : queue.blocks = p.freeBlockQueue.blocks.filter (fun b => b ∉ [x]) ∧
        queue.numFreeBlocks = queue.blocks.length := by
      split at hqueue
      · simp only [remove, bind_eq_ok, ensure_eq_ok, pure_eq_ok, ok.injEq] at hqueue
        obtain ⟨_, hmem, rfl⟩ := hqueue
        refine ⟨?_, ?_⟩
        · have hnodup : p.freeBlockQueue.blocks.Nodup := h.accounts.nodup
          simp only [mem_singleton]
          rw [hnodup.erase_eq_filter]
          congr 1
          funext b
          by_cases hb : b = x <;> simp [hb]
        · simp only [h.numFree, length_erase_of_mem hmem]
          have := length_pos_of_mem hmem
          omega
      · rename_i hcond
        obtain rfl := ok.inj hqueue
        refine ⟨?_, h.numFree⟩
        symm
        rw [filter_eq_self]
        intro b hb
        have hne : b ≠ x := by
          rintro rfl
          have hu := h.accounts.mem_dom_of_mem_free hb
          exact hcond ⟨(h.accounts.mem_free_iff_refs hu).mp hb,
            h.coherent.isNull_eq_false (ne_null_of_mem_usable hu)⟩
        simpa using hne
    set q := ({ p with freeBlockQueue := queue } : BlockPool).modifyBlock x
      (fun k => { k with refCnt := k.refCnt + 1 })
    have hcoh : ({ p with freeBlockQueue := queue } : BlockPool).Coherent :=
      ⟨h.coherent.wellFormed, h.coherent.stores_iff, h.coherent.isNull_iff, h.coherent.hashOf_null⟩
    have hledger : q.ledger = p.ledger.share [x] := by
      unfold ledger Ledger.share
      congr 1
      · funext b
        rw [refs_addRef]
        by_cases hb : b = x
        · simp [hb, refs]
        · simp [hb, Ne.symm hb, refs]
      · exact hq.1
    have hv : q.Valid (held + live [x]) := by
      refine ⟨hcoh.addRef x 1, ?_, hq.2, fun b key hb => ?_⟩
      · rw [hledger]
        have hs := h.accounts.share counted_of_mem_usable [x] (fun a ha hc => by
          rw [mem_singleton.mp ha] at hc ⊢
          exact hx (of_decide_eq_true hc))
        exact hs
      · rw [hashOf_addRef] at hb
        exact h.cached_usable b key hb
    have hfin := ih hv (fun b hb => hl b (mem_cons_of_mem x hb)) hrest
    rwa [Multiset.add_assoc, Multiset.coe_add, ← live_append] at hfin

lemma Valid.freeBlocks {l : List BlockId} (hnd : (live l).Nodup)
    (hle : (live l : Multiset BlockId) ≤ held) : (p.freeBlocks l).Valid (held - live l) := by
  obtain ⟨⟨hcfg, hcoh, hrefs, hhash⟩, hqueue⟩ := freeBlocks_spec h.coherent l
  have hcounted := h.coherent.counted_eq
  have hfilter : l.filter (fun b => decide (p.refs b - l.count b = 0) && !(p.blocks b).isNull) =
      l.filter (fun b => decide (p.refs b - l.count b = 0) && decide (b ≠ nullBlock)) := by
    congr 1
    funext b
    rw [← congrFun hcounted b]
  have hledger : (p.freeBlocks l).ledger = p.ledger.release (fun b => decide (b ≠ nullBlock)) l := by
    unfold ledger Ledger.release
    congr 1
    · funext b
      rw [hrefs]
      ring
    · rw [hqueue, hfilter]
      rfl
  refine ⟨hcoh, ?_, ?_, fun b key hb => ?_⟩
  · rw [hledger, hcfg.usable_eq]
    exact h.accounts.release counted_of_mem_usable l hnd hle
  · rw [hqueue]
    simp [appendN, h.numFree]
  · rw [hhash] at hb
    rw [hcfg.usable_eq]
    exact h.cached_usable b key hb

lemma Valid.cached {groupId : ℕ} {blocks : List BlockId}
    {hashes : List BlockHash} (hc : Cached p p' groupId blocks hashes)
    (hl : ∀ b ∈ blocks, b ≠ nullBlock → b ∈ p.usable) : p'.Valid held := by
  refine ⟨hc.coherent, ?_, ?_, fun b key hb => ?_⟩
  · unfold ledger
    rw [hc.refs_eq, hc.queue_eq, hc.config.usable_eq]
    exact h.accounts
  · rw [hc.queue_eq, h.numFree]
  · rw [hc.config.usable_eq]
    by_cases hm : b ∈ blocks ∧ b ≠ nullBlock
    · exact hl b hm.1 hm.2
    · rw [hc.hashOf_of_not b (by tauto)] at hb
      exact h.cached_usable b key hb

end

lemma Valid.new {numGpuBlocks hashBlockSize : ℕ} {enableCaching events useInt : Bool}
    (hok : new numGpuBlocks enableCaching hashBlockSize events useInt = .ok p) : p.Valid 0 := by
  obtain ⟨hcoh, hnum, -, -, hhash, hrefs, hqueue, hpos⟩ := new_spec hok
  have hmem : ∀ b, b ∈ (List.range numGpuBlocks).tail ↔ b ∈ p.usable := by
    intro b
    unfold usable
    rw [hnum, Finset.mem_erase, Finset.mem_range, range_eq_range', tail_range', mem_range'_1]
    change _ ↔ b ≠ 0 ∧ b < numGpuBlocks
    omega
  refine ⟨hcoh, ⟨?_, ?_, ?_, ?_⟩, ?_, fun b key hb => ?_⟩
  · intro b _
    simp [ledger, hrefs b]
  · simp
  · change p.freeBlockQueue.blocks.Nodup
    rw [hqueue]
    exact nodup_range.sublist (tail_sublist _)
  · intro b
    change b ∈ p.freeBlockQueue.blocks ↔ _
    rw [hqueue]
    simpa using hmem b
  · rw [hqueue]
    simp only [length_tail, length_range]
    omega
  · rw [hhash] at hb
    cases hb

end BlockPool

end CustomAi.Vllm

/-!
## What operations take from the pool

The number of free blocks after taking new blocks and after touching hits, and when new blocks
can be taken.
-/

namespace CustomAi.Vllm

open List Except

namespace BlockPool

variable {p p' : BlockPool}

lemma maybeEvictCachedBlock_queue (p : BlockPool) (b : BlockId) :
    (p.maybeEvictCachedBlock b).2.freeBlockQueue = p.freeBlockQueue := by
  unfold maybeEvictCachedBlock
  split
  · rfl
  · simp only []
    split
    · rfl
    · split <;> rfl

variable {l : List BlockId}

lemma getNewBlocksLoop_queue (hok : getNewBlocksLoop l p = .ok p') : p'.freeBlockQueue = p.freeBlockQueue := by
  induction l generalizing p with
  | nil => exact ok.inj hok ▸ rfl
  | cons b rest ih =>
    simp only [getNewBlocksLoop, bind_eq_ok, ensure_eq_ok] at hok
    obtain ⟨_, _, hrest⟩ := hok
    rw [ih hrest]
    split
    · exact maybeEvictCachedBlock_queue p b
    · rfl

lemma getNewBlocks_free {n : ℤ} {ret : List BlockId} (hok : p.getNewBlocks n = .ok (ret, p')) :
    ret.length = n.toNat ∧ p'.getNumFreeBlocks = p.getNumFreeBlocks - n := by
  simp only [getNewBlocks, bind_eq_ok, ensure_eq_ok, pure_eq_ok, ok.injEq, Prod.mk.injEq, Prod.exists] at hok
  obtain ⟨_, _, ret', queue, hpop, p1, hloop, rfl, rfl⟩ := hok
  have hqueue := getNewBlocksLoop_queue hloop
  unfold getNumFreeBlocks
  rw [hqueue]
  unfold FreeKVCacheBlockQueue.popleftN at hpop
  split at hpop
  · rename_i hzero
    obtain ⟨rfl, rfl⟩ := ok_pair_inj hpop
    subst hzero
    simp
  · simp only [bind_eq_ok, ensure_eq_ok, pure_eq_ok, ok.injEq, Prod.mk.injEq] at hpop
    obtain ⟨_, _, _, hle, rfl, rfl⟩ := hpop
    refine ⟨?_, rfl⟩
    rw [length_take]
    omega

lemma touch_free_le (hl : ∀ b ∈ l, (p.blocks b).isNull = false → 0 ≤ p.refs b) (hok : touch l p = .ok p') :
    p.getNumFreeBlocks - p'.getNumFreeBlocks ≤ SingleTypeKVCacheManager.getNumEvictableBlocks p l := by
  induction l generalizing p with
  | nil =>
    obtain rfl := ok.inj hok
    simp [SingleTypeKVCacheManager.getNumEvictableBlocks]
  | cons x rest ih =>
    simp only [touch, bind_eq_ok] at hok
    obtain ⟨queue, hqueue, hrest⟩ := hok
    set q := ({ p with freeBlockQueue := queue } : BlockPool).modifyBlock x
      (fun k => { k with refCnt := k.refCnt + 1 }) with hq
    have hrefs : ∀ b, q.refs b = p.refs b + if b = x then 1 else 0 := by
      intro b
      rw [refs_addRef]
      by_cases hb : b = x <;> simp [hb, refs]
    have hnull : ∀ b, (q.blocks b).isNull = (p.blocks b).isNull := fun b => isNull_addRef 1 b
    have hrest' := ih (fun b hb hn => by
      have hb' := hl b (mem_cons_of_mem x hb) (hnull b ▸ hn)
      rw [hrefs]
      split <;> omega) hrest
    -- a block that is evictable after a touch was so before
    have hmono : SingleTypeKVCacheManager.getNumEvictableBlocks q rest ≤
        SingleTypeKVCacheManager.getNumEvictableBlocks p rest := by
      apply Sublist.length_le
      apply monotone_filter_right
      intro b hb
      simp only [Bool.and_eq_true, decide_eq_true_eq, Bool.not_eq_true'] at hb ⊢
      rw [hnull] at hb
      refine ⟨?_, hb.2⟩
      have hb0 : q.refs b = 0 := hb.1
      rw [hrefs] at hb0
      by_cases hbx : b = x
      · have hx := hl x mem_cons_self (hbx ▸ hb.2)
        rw [if_pos hbx, hbx] at hb0
        omega
      · rw [if_neg hbx] at hb0
        simpa [refs] using hb0
    have hcons : (SingleTypeKVCacheManager.getNumEvictableBlocks p (x :: rest) : ℤ) =
        SingleTypeKVCacheManager.getNumEvictableBlocks p rest +
          if (p.blocks x).refCnt = 0 ∧ (p.blocks x).isNull = false then 1 else 0 := by
      unfold SingleTypeKVCacheManager.getNumEvictableBlocks
      rw [filter_cons]
      by_cases hx : (p.blocks x).refCnt = 0 ∧ (p.blocks x).isNull = false
      · simp [hx.1, hx.2]
      · rw [if_neg hx, if_neg (by simpa using hx), add_zero]
    have htake : p.getNumFreeBlocks - q.getNumFreeBlocks =
        if (p.blocks x).refCnt = 0 ∧ (p.blocks x).isNull = false then 1 else 0 := by
      have hqn : q.getNumFreeBlocks = queue.numFreeBlocks := rfl
      rw [hqn]
      unfold getNumFreeBlocks
      split at hqueue
      · rename_i hx
        simp only [FreeKVCacheBlockQueue.remove, bind_eq_ok, pure_eq_ok, ok.injEq] at hqueue
        obtain ⟨_, _, rfl⟩ := hqueue
        rw [if_pos hx]
        simp only []
        omega
      · rename_i hx
        obtain rfl := ok.inj hqueue
        rw [if_neg hx]
        omega
    omega

lemma getNewBlocksLoop_isOk (h : p.Coherent) (hnd : l.Nodup)
    (hl : ∀ b ∈ l, p.refs b = 0) : (getNewBlocksLoop l p).isOk = true := by
  induction l generalizing p with
  | nil => rfl
  | cons x rest ih =>
    have hevict : ∃ q, (if p.enableCaching = true then (p.maybeEvictCachedBlock x).2 else p) = q ∧
        q.Coherent ∧ q.refs = p.refs := by
      split
      · have he := (maybeEvict_spec h x).1
        exact ⟨_, rfl, he.coherent, he.refs_eq⟩
      · exact ⟨_, rfl, h, rfl⟩
    obtain ⟨q, hq, hcoh, hrefs⟩ := hevict
    have hx : (q.blocks x).refCnt = 0 := by
      change q.refs x = 0
      rw [hrefs]
      exact hl x mem_cons_self
    simp only [getNewBlocksLoop, hq, ensure_of hx, ok_bind]
    refine ih (hcoh.addRef x 1) (nodup_cons.mp hnd).2 fun b hb => ?_
    have hne : b ≠ x := by
      rintro rfl
      exact (nodup_cons.mp hnd).1 hb
    rw [refs_addRef, if_neg hne, hrefs, add_zero]
    exact hl b (mem_cons_of_mem x hb)

lemma Valid.getNewBlocks_eq {held : Multiset BlockId} (h : p.Valid held) {n : ℤ} (hn : 0 ≤ n) :
    (p.getNewBlocks n = .error (.valueError s!"Cannot get {n} free blocks from the pool") ∧
        p.getNumFreeBlocks < n) ∨
      ∃ ret p', p.getNewBlocks n = .ok (ret, p') := by
  by_cases hle : n ≤ p.getNumFreeBlocks
  · right
    have hlen : n ≤ p.freeBlockQueue.blocks.length := by
      rw [← h.numFree]
      exact hle
    have hpop : p.freeBlockQueue.popleftN n = .ok (p.freeBlockQueue.blocks.take n.toNat,
        ⟨p.freeBlockQueue.blocks.drop n.toNat, p.freeBlockQueue.numFreeBlocks - n⟩) := by
      unfold FreeKVCacheBlockQueue.popleftN
      by_cases hzero : n = 0
      · subst hzero
        simp
      · have hge : p.freeBlockQueue.numFreeBlocks ≥ n := hle
        rw [if_neg hzero, ensure_of hge, ensure_of hlen]
        rfl
    have hcoh : ({ p with freeBlockQueue := ⟨p.freeBlockQueue.blocks.drop n.toNat,
        p.freeBlockQueue.numFreeBlocks - n⟩ } : BlockPool).Coherent :=
      ⟨h.coherent.wellFormed, h.coherent.stores_iff, h.coherent.isNull_iff, h.coherent.hashOf_null⟩
    have hfree : ∀ b ∈ p.freeBlockQueue.blocks.take n.toNat, p.refs b = 0 := by
      intro b hb
      have hb' : b ∈ p.ledger.free := mem_of_mem_take hb
      exact (h.accounts.mem_free_iff_refs (h.accounts.mem_dom_of_mem_free hb')).mp hb'
    have hnd : (p.freeBlockQueue.blocks.take n.toNat).Nodup := h.accounts.nodup.sublist (take_sublist _ _)
    obtain ⟨p', hloop⟩ := exists_eq_ok_of_isOk (getNewBlocksLoop_isOk hcoh hnd hfree)
    refine ⟨p.freeBlockQueue.blocks.take n.toNat, p', ?_⟩
    unfold BlockPool.getNewBlocks
    rw [ensure_of hle, hpop]
    simp only [ok_bind, hloop, pure_eq_ok]
  · left
    refine ⟨?_, not_le.mp hle⟩
    unfold BlockPool.getNewBlocks ensure
    rw [if_neg hle]
    rfl

end BlockPool

end CustomAi.Vllm
