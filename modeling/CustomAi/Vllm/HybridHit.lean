import CustomAi.Vllm.CacheHitSpec
import CustomAi.Vllm.CoordinatorConfig
import CustomAi.Vllm.KVCacheManager

/-!
# The longest cache hit of a hybrid model

The iteration of `HybridKVCacheCoordinator.find_longest_cache_hit`.
-/

namespace CustomAi.Vllm

open List Function Option Except

namespace KVCacheCoordinator

/-- `_get_block_hashes` -/
def hashesAt (hashBlockSize : ℕ) (blockHashes : List BlockHash) (blockSize : ℕ) :
    List BlockHash :=
  if blockSize = hashBlockSize then blockHashes
  else BlockPool.blockHashListWithBlockSize blockHashes (blockSize / hashBlockSize)

variable {p : BlockPool} {useEagle : Bool} {lcmBlockSize hashBlockSize blockSize : ℕ}
  {blockHashes : List BlockHash}

lemma blockHashList_eq (h : blockSize % hashBlockSize = 0) :
    BlockPool.blockHashList blockHashes hashBlockSize blockSize =
      .ok (hashesAt hashBlockSize blockHashes blockSize) := by
  unfold BlockPool.blockHashList hashesAt
  split
  · rfl
  · rw [ensure_of h]
    rfl

lemma length_hashesAt (hpos : 0 < hashBlockSize) : (hashesAt hashBlockSize blockHashes blockSize).length =
      blockHashes.length / (blockSize / hashBlockSize) := by
  unfold hashesAt
  split
  · rename_i h
    rw [h, Nat.div_self hpos, Nat.div_one]
  · simp [BlockPool.blockHashListWithBlockSize]

lemma length_hashesAt_mul_le (hpos : 0 < hashBlockSize) (h : blockSize % hashBlockSize = 0) :
    (hashesAt hashBlockSize blockHashes blockSize).length * blockSize ≤ blockHashes.length * hashBlockSize := by
  obtain ⟨k, rfl⟩ := Nat.dvd_of_mod_eq_zero h
  rw [length_hashesAt hpos, Nat.mul_div_cancel_left k hpos, Nat.mul_left_comm,
    Nat.mul_comm (blockHashes.length) hashBlockSize]
  exact Nat.mul_le_mul_left _ (Nat.div_mul_le_self _ _)

lemma div_le_length_hashesAt (hpos : 0 < hashBlockSize) (h : blockSize % hashBlockSize = 0)
    {n : ℕ} (hn : n ≤ blockHashes.length * hashBlockSize) :
    n / blockSize ≤ (hashesAt hashBlockSize blockHashes blockSize).length := by
  obtain ⟨k, rfl⟩ := Nat.dvd_of_mod_eq_zero h
  rw [length_hashesAt hpos, Nat.mul_div_cancel_left k hpos, ← Nat.div_div_eq_div_mul]
  apply Nat.div_le_div_right
  calc n / hashBlockSize ≤ blockHashes.length * hashBlockSize / hashBlockSize :=
        Nat.div_le_div_right hn
    _ = blockHashes.length := Nat.mul_div_cancel _ hpos

/-- The lookup of one attention group in `find_longest_cache_hit`. -/
def lookupGroup (p : BlockPool) (useEagle : Bool) (lcmBlockSize hashBlockSize : ℕ)
    (blockHashes : List BlockHash) (g : AttentionGroup) (maxLength : ℕ) :
    Except PyError (List (List BlockId)) := do
  let hashes ← BlockPool.blockHashList blockHashes hashBlockSize g.spec.blockSize
  Vllm.findLongestCacheHit hashes maxLength g.groupIds p g.spec useEagle lcmBlockSize 1 1

def Reused (byGroup : HitBlocksByGroup) (g : AttentionGroup) : Prop :=
  g.spec.isFullAttention = true ∧ (byGroup (g.groupIds.headD 0)).isSome = true

variable {g : AttentionGroup} {rest gs : List AttentionGroup} {byGroup byGroup' : HitBlocksByGroup}
  {curr curr' n : ℕ}

lemma hybridPass_reused (h : Reused byGroup g) :
    hybridPass p useEagle lcmBlockSize hashBlockSize blockHashes (g :: rest) curr byGroup =
      hybridPass p useEagle lcmBlockSize hashBlockSize blockHashes rest
        (curr / g.spec.blockSize * g.spec.blockSize) byGroup := by
  exact if_pos h

lemma hybridPass_scanned (h : ¬Reused byGroup g) :
    hybridPass p useEagle lcmBlockSize hashBlockSize blockHashes (g :: rest) curr byGroup =
      (lookupGroup p useEagle lcmBlockSize hashBlockSize blockHashes g curr >>= fun hitBlocks =>
        hybridPass p useEagle lcmBlockSize hashBlockSize blockHashes rest
          (hitLength hitBlocks * g.spec.blockSize) (setHitBlocks byGroup g.groupIds hitBlocks)) := by
  refine (if_neg h).trans ?_
  unfold lookupGroup
  cases BlockPool.blockHashList blockHashes hashBlockSize g.spec.blockSize <;> rfl

variable {hitBlocks : List (List BlockId)} {specs : List KVCacheSpec} {groupIds : List ℕ} {i : ℕ}

lemma setHitBlocks_of_notMem (hi : i ∉ groupIds) : setHitBlocks byGroup groupIds hitBlocks i = byGroup i := by
  unfold setHitBlocks
  induction groupIds generalizing hitBlocks byGroup with
  | nil => rfl
  | cons j rest ih =>
    cases hitBlocks with
    | nil => rfl
    | cons l hitBlocks =>
      have hij : i ≠ j := by
        rintro rfl
        exact hi mem_cons_self
      rw [zip_cons_cons, foldl_cons, ih fun h => hi (mem_cons_of_mem j h)]
      exact update_of_ne hij _ _

lemma setHitBlocks_get (byGroup : HitBlocksByGroup) {R : ℕ → List BlockId → Prop}
    (hnd : groupIds.Nodup) (h : Forall₂ R groupIds hitBlocks) (hi : i ∈ groupIds) :
    ∃ l, setHitBlocks byGroup groupIds hitBlocks i = some l ∧ R i l := by
  induction h generalizing byGroup with
  | nil => cases hi
  | @cons j l rest hitBlocks hr _ ih =>
    obtain ⟨hj, hnd⟩ := nodup_cons.mp hnd
    have hstep : setHitBlocks byGroup (j :: rest) (l :: hitBlocks) =
        setHitBlocks (Function.update byGroup j (some l)) rest hitBlocks := rfl
    rw [hstep]
    rcases mem_cons.mp hi with rfl | hi
    · exact ⟨l, by rw [setHitBlocks_of_notMem hj, update_self], hr⟩
    · exact ih _ hnd hi

/-- The blocks of a group are hits of `n` blocks. -/
def Known (p : BlockPool) (hashBlockSize : ℕ) (blockHashes : List BlockHash)
    (byGroup : HitBlocksByGroup) (g : AttentionGroup) (n : ℕ) : Prop :=
  ∀ i ∈ g.groupIds, ∃ l, byGroup i = some l ∧
    Hit p (hashesAt hashBlockSize blockHashes g.spec.blockSize) n (g.spec.lookupStart 0 n) i l

lemma Known.congr (h : Known p hashBlockSize blockHashes byGroup g n)
    (heq : ∀ i ∈ g.groupIds, byGroup' i = byGroup i) : Known p hashBlockSize blockHashes byGroup' g n := by
  intro i hi
  rw [heq i hi]
  exact h i hi

structure HybridSetup (p : BlockPool) (useEagle : Bool) (lcmBlockSize hashBlockSize : ℕ)
    (groups : List AttentionGroup) : Prop where
  coherent : p.Coherent
  hashBlockSize_pos : 0 < hashBlockSize
  blockSize_pos : ∀ g ∈ groups, 0 < g.spec.blockSize
  divisible : ∀ g ∈ groups, g.spec.blockSize % hashBlockSize = 0
  dvd_lcm : ∀ g ∈ groups, g.spec.blockSize ∣ lcmBlockSize
  member : ∀ g ∈ groups, g.spec.isHybridMember = true
  eagle : useEagle = true → ∀ g ∈ groups, g.spec.AdmitsEagle lcmBlockSize
  ids_lt : ∀ g ∈ groups, ∀ i ∈ g.groupIds, i < 2 ^ 32
  ids_ne_nil : ∀ g ∈ groups, g.groupIds ≠ []
  ids_nodup : ∀ g ∈ groups, g.groupIds.Nodup
  ids_disjoint : groups.Pairwise (fun g g' => ∀ i ∈ g.groupIds, i ∉ g'.groupIds)

lemma HybridSetup.tail (h : HybridSetup p useEagle lcmBlockSize hashBlockSize (g :: gs)) :
    HybridSetup p useEagle lcmBlockSize hashBlockSize gs where
  coherent := h.coherent
  hashBlockSize_pos := h.hashBlockSize_pos
  blockSize_pos g' hg := h.blockSize_pos g' (mem_cons_of_mem g hg)
  divisible g' hg := h.divisible g' (mem_cons_of_mem g hg)
  dvd_lcm g' hg := h.dvd_lcm g' (mem_cons_of_mem g hg)
  member g' hg := h.member g' (mem_cons_of_mem g hg)
  eagle he g' hg := h.eagle he g' (mem_cons_of_mem g hg)
  ids_lt g' hg := h.ids_lt g' (mem_cons_of_mem g hg)
  ids_ne_nil g' hg := h.ids_ne_nil g' (mem_cons_of_mem g hg)
  ids_nodup g' hg := h.ids_nodup g' (mem_cons_of_mem g hg)
  ids_disjoint := (pairwise_cons.mp h.ids_disjoint).2

lemma KVCacheSpec.lookupStart_eq {spec : KVCacheSpec} (h : spec.isHybridMember = true)
    (maxLength n : ℕ) : spec.lookupStart maxLength n = spec.lookupStart 0 n := by
  cases spec <;> first | rfl | cases h

structure Scanned (p : BlockPool) (lcmBlockSize hashBlockSize : ℕ) (blockHashes : List BlockHash)
    (g : AttentionGroup) (maxLength : ℕ) (table : List (List BlockId)) : Prop where
  hits : HitTable p (hashesAt hashBlockSize blockHashes g.spec.blockSize) (hitLength table)
    (g.spec.lookupStart 0 (hitLength table)) g.groupIds table
  le_hashes : hitLength table ≤ (hashesAt hashBlockSize blockHashes g.spec.blockSize).length
  le_maxLength : hitLength table * g.spec.blockSize ≤ maxLength
  aligned : lcmBlockSize ∣ hitLength table * g.spec.blockSize

section Setup

variable (hs : HybridSetup p useEagle lcmBlockSize hashBlockSize (g :: gs))

include hs

variable {g' : AttentionGroup} {table : List (List BlockId)} (maxLength : ℕ)

lemma HybridSetup.lookupGroup_eq : lookupGroup p useEagle lcmBlockSize hashBlockSize blockHashes g maxLength =
      Vllm.findLongestCacheHit (hashesAt hashBlockSize blockHashes g.spec.blockSize) maxLength
        g.groupIds p g.spec useEagle lcmBlockSize 1 1 := by
  unfold lookupGroup
  rw [blockHashList_eq (hs.divisible g mem_cons_self), ok_bind]

lemma HybridSetup.scanned {maxLength : ℕ}
    (hok : lookupGroup p useEagle lcmBlockSize hashBlockSize blockHashes g maxLength = .ok table) :
    Scanned p lcmBlockSize hashBlockSize blockHashes g maxLength table := by
  rw [hs.lookupGroup_eq] at hok
  have hne := hs.ids_ne_nil g mem_cons_self
  obtain ⟨n, hn, hl⟩ := findLongestCacheHit_spec hs.coherent hne hok
  have hmem := hs.member g mem_cons_self
  have hchunk : g.spec.isChunkedLocal = false := by
    cases hspec : g.spec <;> first | rfl | (rw [hspec] at hmem; cases hmem)
  obtain ⟨hhits, hle, halign⟩ := hl
  rw [KVCacheSpec.lookupStart_eq hmem] at hhits
  obtain rfl := hhits.hitLength_eq hne
  exact ⟨hhits, hn hchunk, hle, halign⟩

lemma HybridSetup.lookupGroup_isOk_iff :
    (∃ table, lookupGroup p useEagle lcmBlockSize hashBlockSize blockHashes g maxLength =
      .ok table) ↔ (g.spec.isFullAttention = false → maxLength / g.spec.blockSize ≤
        (hashesAt hashBlockSize blockHashes g.spec.blockSize).length) := by
  simp only [hs.lookupGroup_eq]
  exact findLongestCacheHit_isOk_iff p _ (hs.ids_lt g mem_cons_self)
    (hs.member g mem_cons_self) fun he => hs.eagle he g mem_cons_self

lemma Scanned.known {maxLength : ℕ} (h : Scanned p lcmBlockSize hashBlockSize blockHashes g maxLength table) :
    Known p hashBlockSize blockHashes (setHitBlocks byGroup g.groupIds table) g (hitLength table) := fun _ hi =>
  setHitBlocks_get byGroup (hs.ids_nodup g mem_cons_self) h.hits hi

lemma HybridSetup.setHitBlocks_other (table : List (List BlockId)) (hg' : g' ∈ gs) {i : ℕ}
    (hi : i ∈ g'.groupIds) : setHitBlocks byGroup g.groupIds table i = byGroup i :=
  setHitBlocks_of_notMem fun h => (pairwise_cons.mp hs.ids_disjoint).1 g' hg' i h hi

lemma HybridSetup.reused_other (table : List (List BlockId)) (hg' : g' ∈ gs) :
    Reused (setHitBlocks byGroup g.groupIds table) g' ↔ Reused byGroup g' := by
  have hne := hs.ids_ne_nil g' (mem_cons_of_mem g hg')
  have hhead : g'.groupIds.headD 0 ∈ g'.groupIds := by
    cases hids : g'.groupIds with
    | nil => exact absurd hids hne
    | cons i _ => exact mem_cons_self
  unfold Reused
  rw [hs.setHitBlocks_other table hg' hhead]

end Setup

def Accepts (p : BlockPool) (useEagle : Bool) (lcmBlockSize hashBlockSize : ℕ)
    (blockHashes : List BlockHash) (g : AttentionGroup) (n : ℕ) : Prop :=
  ∃ table, lookupGroup p useEagle lcmBlockSize hashBlockSize blockHashes g n = .ok table ∧
    hitLength table * g.spec.blockSize = n

/-- A pass shrinks the length, and the scanned groups get blocks for it. -/
structure PassSpec (p : BlockPool) (useEagle : Bool) (lcmBlockSize hashBlockSize : ℕ)
    (blockHashes : List BlockHash) (gs : List AttentionGroup) (curr curr' : ℕ)
    (byGroup byGroup' : HitBlocksByGroup) : Prop where
  le : curr' ≤ curr
  aligned : lcmBlockSize ∣ curr → lcmBlockSize ∣ curr'
  aligned_of_scanned : (∃ g ∈ gs, ¬Reused byGroup g) → lcmBlockSize ∣ curr'
  other : ∀ i, (∀ g ∈ gs, i ∉ g.groupIds) → byGroup' i = byGroup i
  reused : ∀ g ∈ gs, Reused byGroup g → ∀ i ∈ g.groupIds, byGroup' i = byGroup i
  scanned : ∀ g ∈ gs, ¬Reused byGroup g → ∃ n, Known p hashBlockSize blockHashes byGroup' g n ∧
    curr' ≤ n * g.spec.blockSize ∧ n * g.spec.blockSize ≤ curr
  accepts : curr' = curr → ∀ g ∈ gs, ¬Reused byGroup g →
    Accepts p useEagle lcmBlockSize hashBlockSize blockHashes g curr

section

variable (hs : HybridSetup p useEagle lcmBlockSize hashBlockSize gs)
include hs

lemma div_mul_eq_of_dvd_lcm
    (hg : g ∈ gs) {n : ℕ} (hn : lcmBlockSize ∣ n) : n / g.spec.blockSize * g.spec.blockSize = n :=
  Nat.div_mul_cancel ((hs.dvd_lcm g hg).trans hn)

lemma hybridPass_spec (hre : ∀ g ∈ gs, Reused byGroup g → lcmBlockSize ∣ curr)
    (hok : hybridPass p useEagle lcmBlockSize hashBlockSize blockHashes gs curr byGroup = .ok (curr', byGroup')) :
    PassSpec p useEagle lcmBlockSize hashBlockSize blockHashes gs curr curr' byGroup byGroup' := by
  induction gs generalizing curr byGroup with
  | nil =>
    obtain ⟨rfl, rfl⟩ := hok
    exact ⟨le_rfl, id, by simp, fun _ _ => rfl, by simp, by simp, by simp⟩
  | cons g rest ih =>
    by_cases hreused : Reused byGroup g
    · rw [hybridPass_reused hreused, div_mul_eq_of_dvd_lcm hs mem_cons_self
        (hre g mem_cons_self hreused)] at hok
      have h := ih hs.tail (fun g' hg' => hre g' (mem_cons_of_mem g hg')) hok
      refine ⟨h.le, h.aligned, ?_, fun i hi => h.other i fun g' hg' =>
        hi g' (mem_cons_of_mem g hg'), fun g' hg' hr i hi => ?_, fun g' hg' hr => ?_, fun heq g' hg' hr => ?_⟩
      · rintro ⟨g', hg', hr⟩
        rcases mem_cons.mp hg' with rfl | hg'
        · exact absurd hreused hr
        · exact h.aligned_of_scanned ⟨g', hg', hr⟩
      · rcases mem_cons.mp hg' with rfl | hg'
        · exact h.other i fun g' hg' => (pairwise_cons.mp hs.ids_disjoint).1 g' hg' i hi
        · exact h.reused g' hg' hr i hi
      · rcases mem_cons.mp hg' with rfl | hg'
        · exact absurd hreused hr
        · exact h.scanned g' hg' hr
      · rcases mem_cons.mp hg' with rfl | hg'
        · exact absurd hreused hr
        · exact h.accepts heq g' hg' hr
    · rw [hybridPass_scanned hreused, bind_eq_ok] at hok
      obtain ⟨table, htable, hok⟩ := hok
      have hscan := hs.scanned htable
      set curr1 := hitLength table * g.spec.blockSize
      have h := ih hs.tail (fun _ _ _ => hscan.aligned) hok
      have hre' : ∀ g' ∈ rest, Reused (setHitBlocks byGroup g.groupIds table) g' ↔
          Reused byGroup g' := fun g' hg' => hs.reused_other table hg'
      refine ⟨h.le.trans hscan.le_maxLength, fun _ => h.aligned hscan.aligned,
        fun _ => h.aligned hscan.aligned, fun i hi => ?_, fun g' hg' hr i hi => ?_,
        fun g' hg' hr => ?_, fun heq g' hg' hr => ?_⟩
      · rw [h.other i fun g' hg' => hi g' (mem_cons_of_mem g hg')]
        exact setHitBlocks_of_notMem (hi g mem_cons_self)
      · rcases mem_cons.mp hg' with rfl | hg'
        · exact absurd hr hreused
        · rw [h.reused g' hg' ((hre' g' hg').mpr hr) i hi]
          exact hs.setHitBlocks_other table hg' hi
      · rcases mem_cons.mp hg' with rfl | hg'
        · refine ⟨hitLength table, (hscan.known hs).congr fun i hi => h.other i fun g' hg' =>
            (pairwise_cons.mp hs.ids_disjoint).1 g' hg' i hi, h.le, hscan.le_maxLength⟩
        · obtain ⟨n, hk, hle, hge⟩ := h.scanned g' hg' (mt (hre' g' hg').mp hr)
          exact ⟨n, hk, hle, hge.trans hscan.le_maxLength⟩
      · have heq1 : curr1 = curr := le_antisymm hscan.le_maxLength (heq ▸ h.le)
        rcases mem_cons.mp hg' with rfl | hg'
        · exact ⟨table, htable, heq1⟩
        · rw [← heq1]
          exact h.accepts (heq.trans heq1.symm) g' hg' (mt (hre' g' hg').mp hr)

lemma hybridPass_isOk (hfit : curr ≤ blockHashes.length * hashBlockSize) (byGroup : HitBlocksByGroup) :
    ∃ r, hybridPass p useEagle lcmBlockSize hashBlockSize blockHashes gs curr byGroup = .ok r := by
  induction gs generalizing curr byGroup with
  | nil => exact ⟨_, rfl⟩
  | cons g rest ih =>
    by_cases hreused : Reused byGroup g
    · rw [hybridPass_reused hreused]
      exact ih hs.tail ((Nat.div_mul_le_self _ _).trans hfit) byGroup
    · rw [hybridPass_scanned hreused]
      obtain ⟨table, htable⟩ := (hs.lookupGroup_isOk_iff curr).mpr fun _ =>
        div_le_length_hashesAt hs.hashBlockSize_pos (hs.divisible g mem_cons_self) hfit
      rw [htable]
      exact ih hs.tail ((hs.scanned htable).le_maxLength.trans hfit) _

lemma hybridPass_accepts
    (byGroup : HitBlocksByGroup) (haligned : lcmBlockSize ∣ curr) (hacc : ∀ g ∈ gs, ¬Reused byGroup g →
      Accepts p useEagle lcmBlockSize hashBlockSize blockHashes g curr) :
    ∃ byGroup', hybridPass p useEagle lcmBlockSize hashBlockSize blockHashes gs curr byGroup =
      .ok (curr, byGroup') := by
  induction gs generalizing byGroup with
  | nil => exact ⟨_, rfl⟩
  | cons g rest ih =>
    have hrest := fun g' hg' => hacc g' (mem_cons_of_mem g hg')
    by_cases hreused : Reused byGroup g
    · rw [hybridPass_reused hreused, div_mul_eq_of_dvd_lcm hs mem_cons_self haligned]
      exact ih hs.tail byGroup hrest
    · obtain ⟨table, htable, hlen⟩ := hacc g mem_cons_self hreused
      rw [hybridPass_scanned hreused, htable, ok_bind, hlen]
      exact ih hs.tail _ fun g' hg' hr => hrest g' hg' (mt (hs.reused_other table hg').mpr hr)

end

/-- The hit is aligned, hashed and known in every group. -/
structure Settled (p : BlockPool) (lcmBlockSize hashBlockSize : ℕ) (blockHashes : List BlockHash)
    (groups : List AttentionGroup) (hit : ℕ) (byGroup : HitBlocksByGroup) : Prop where
  aligned : lcmBlockSize ∣ hit
  covered : hit ≤ blockHashes.length * hashBlockSize
  known : ∀ g ∈ groups, ∃ n, Known p hashBlockSize blockHashes byGroup g n ∧ hit ≤ n * g.spec.blockSize

variable {groups : List AttentionGroup} {hit : ℕ}

lemma Settled.reused_iff (h : Settled p lcmBlockSize hashBlockSize blockHashes groups hit byGroup)
    (hs : HybridSetup p useEagle lcmBlockSize hashBlockSize groups) (hg : g ∈ groups) :
    Reused byGroup g ↔ g.spec.isFullAttention = true := by
  refine ⟨fun hr => hr.1, fun hfull => ⟨hfull, ?_⟩⟩
  obtain ⟨n, hk, -⟩ := h.known g hg
  have hne := hs.ids_ne_nil g hg
  have hhead : g.groupIds.headD 0 ∈ g.groupIds := by
    cases hids : g.groupIds with
    | nil => exact absurd hids hne
    | cons i _ => exact mem_cons_self
  obtain ⟨l, hl, -⟩ := hk _ hhead
  rw [hl]
  rfl

/-- The iteration ends at a length for which all groups but those of full attention have their
blocks. -/
theorem hybridIterate_settled (hs : HybridSetup p useEagle lcmBlockSize hashBlockSize groups)
    (h : Settled p lcmBlockSize hashBlockSize blockHashes groups hit byGroup) {fuel : ℕ} (hfuel : hit < fuel) :
    ∃ n byGroup', hybridIterate p useEagle lcmBlockSize hashBlockSize blockHashes groups false fuel
        hit byGroup = .ok (n, byGroup') ∧ n ≤ hit ∧ lcmBlockSize ∣ n ∧
      (∀ g ∈ groups, g.spec.isFullAttention = true → ∀ i ∈ g.groupIds, byGroup' i = byGroup i) ∧
      (∀ g ∈ groups, g.spec.isFullAttention = false → ∃ m,
        Known p hashBlockSize blockHashes byGroup' g m ∧ m * g.spec.blockSize = n) ∧
      (n = hit ↔ ∀ g ∈ groups, g.spec.isFullAttention = false →
        Accepts p useEagle lcmBlockSize hashBlockSize blockHashes g hit) := by
  induction fuel generalizing hit byGroup with
  | zero => exact absurd hfuel (Nat.not_lt_zero _)
  | succ fuel ih =>
    obtain ⟨⟨curr, byGroup1⟩, hpass⟩ := hybridPass_isOk hs h.covered byGroup
    have hspec := hybridPass_spec hs (fun _ _ _ => h.aligned) hpass
    have hreused : ∀ g ∈ groups, Reused byGroup g ↔ g.spec.isFullAttention = true :=
      fun g hg => h.reused_iff hs hg
    have hscanned : ∀ g ∈ groups, g.spec.isFullAttention = false → ¬Reused byGroup g := by
      intro g hg hfull hr
      rw [(hreused g hg).mp hr] at hfull
      cases hfull
    rw [hybridIterate, hpass, ok_bind]
    simp only [Bool.false_eq_true, ite_false]
    by_cases hge : curr ≥ hit
    · obtain rfl : curr = hit := le_antisymm hspec.le hge
      rw [if_pos hge]
      refine ⟨curr, byGroup1, rfl, le_rfl, h.aligned, fun g hg hfull => hspec.reused g hg
        ((hreused g hg).mpr hfull), fun g hg hfull => ?_, iff_of_true rfl fun g hg hfull =>
        hspec.accepts rfl g hg (hscanned g hg hfull)⟩
      obtain ⟨m, hk, hle, hge'⟩ := hspec.scanned g hg (hscanned g hg hfull)
      exact ⟨m, hk, le_antisymm hge' hle⟩
    · rw [if_neg hge]
      have hsettled : Settled p lcmBlockSize hashBlockSize blockHashes groups curr byGroup1 := by
        refine ⟨hspec.aligned h.aligned, hspec.le.trans h.covered, fun g hg => ?_⟩
        by_cases hr : Reused byGroup g
        · obtain ⟨n, hk, hle⟩ := h.known g hg
          exact ⟨n, hk.congr (hspec.reused g hg hr), hspec.le.trans hle⟩
        · obtain ⟨n, hk, hle, -⟩ := hspec.scanned g hg hr
          exact ⟨n, hk, hle⟩
      obtain ⟨n, byGroup', hok, hle, halign, hfull, hother, -⟩ := ih hsettled (by omega)
      refine ⟨n, byGroup', hok, hle.trans hspec.le, halign, fun g hg hf i hi => ?_, hother,
        iff_of_false (by omega) fun hacc => ?_⟩
      · rw [hfull g hg hf i hi, hspec.reused g hg ((hreused g hg).mpr hf) i hi]
      · obtain ⟨b, hb⟩ := hybridPass_accepts hs byGroup h.aligned fun g hg hr =>
          hacc g hg (by
            rw [← Bool.not_eq_true]
            exact fun hf => hr ((hreused g hg).mpr hf))
        rw [hpass] at hb
        have hcurr := (ok_pair_inj hb).1
        omega

/-- The iteration after the first two groups; a second full attention group keeps its first blocks. -/
structure Agreed (p : BlockPool) (useEagle : Bool) (lcmBlockSize hashBlockSize : ℕ)
    (blockHashes : List BlockHash) (g₁ g₂ : AttentionGroup) (rest : List AttentionGroup)
    (max hit₂ n : ℕ) (byGroup : HitBlocksByGroup) : Prop where
  le_max : n ≤ max
  aligned : lcmBlockSize ∣ n
  first : ∃ m, Known p hashBlockSize blockHashes byGroup g₁ m ∧ n ≤ m * g₁.spec.blockSize
  others : ∀ g ∈ g₁ :: g₂ :: rest, g.spec.isFullAttention = false → ∃ m,
    Known p hashBlockSize blockHashes byGroup g m ∧ m * g.spec.blockSize = n
  second : g₂.spec.isFullAttention = true → Known p hashBlockSize blockHashes byGroup g₂ hit₂
  later : g₂.spec.isFullAttention = true → n = hit₂ * g₂.spec.blockSize → ∀ g ∈ rest, ∃ m,
    Known p hashBlockSize blockHashes byGroup g m ∧ m * g.spec.blockSize = n
  eq_iff : g₂.spec.isFullAttention = true → (n = hit₂ * g₂.spec.blockSize ↔ ∀ g ∈ rest,
    Accepts p useEagle lcmBlockSize hashBlockSize blockHashes g (hit₂ * g₂.spec.blockSize))

variable {g₁ : AttentionGroup}

theorem hybridIterate_agreed {g₂ : AttentionGroup}
    (hs : HybridSetup p useEagle lcmBlockSize hashBlockSize (g₁ :: g₂ :: rest))
    (hfirst : g₂.spec.isFullAttention = true → g₁.spec.isFullAttention = true) {max : ℕ}
    {t₁ t₂ : List (List BlockId)}
    (h1 : lookupGroup p useEagle lcmBlockSize hashBlockSize blockHashes g₁ max = .ok t₁)
    (h2 : lookupGroup p useEagle lcmBlockSize hashBlockSize blockHashes g₂
      (hitLength t₁ * g₁.spec.blockSize) = .ok t₂) :
    ∃ n byGroup, hybridIterate p useEagle lcmBlockSize hashBlockSize blockHashes
        (g₁ :: g₂ :: rest) (decide (rest = [] ∧ g₁.spec.isFullAttention = true)) (max + 1) max
        (fun _ => none) = .ok (n, byGroup) ∧
      Agreed p useEagle lcmBlockSize hashBlockSize blockHashes g₁ g₂ rest max (hitLength t₂) n byGroup := by
  have hs2 := hs.tail
  have hscan1 := hs.scanned h1
  have hscan2 := hs2.scanned h2
  set groups := g₁ :: g₂ :: rest with hgroups
  set none0 : HitBlocksByGroup := fun _ => none
  set b1 := setHitBlocks none0 g₁.groupIds t₁ with hb1
  set b2 := setHitBlocks b1 g₂.groupIds t₂ with hb2
  set c2 := hitLength t₂ * g₂.spec.blockSize with hc2
  have hfresh : ∀ g, ¬Reused none0 g := fun g hr => by cases hr.2
  have hfresh1 : ∀ g ∈ g₂ :: rest, ¬Reused b1 g := fun g hg hr =>
    hfresh g ((hs.reused_other t₁ hg).mp hr)
  have hfresh2 : ∀ g ∈ rest, ¬Reused b2 g := fun g hg hr =>
    hfresh1 g (mem_cons_of_mem _ hg) ((hs2.reused_other t₂ hg).mp hr)
  have hcover1 : hitLength t₁ * g₁.spec.blockSize ≤ blockHashes.length * hashBlockSize :=
    (Nat.mul_le_mul_right _ hscan1.le_hashes).trans
      (length_hashesAt_mul_le hs.hashBlockSize_pos (hs.divisible g₁ mem_cons_self))
  have hcover2 : c2 ≤ blockHashes.length * hashBlockSize := hscan2.le_maxLength.trans hcover1
  -- the first round
  obtain ⟨⟨curr, b⟩, hrest⟩ := hybridPass_isOk hs2.tail hcover2 b2
  have hround : hybridPass p useEagle lcmBlockSize hashBlockSize blockHashes groups max none0 = .ok (curr, b) := by
    rw [hybridPass_scanned (hfresh g₁), h1, ok_bind,
      hybridPass_scanned (hfresh1 g₂ mem_cons_self), h2, ok_bind, hrest]
  have hspec := hybridPass_spec hs (fun g _ hr => absurd hr (hfresh g)) hround
  have htail := hybridPass_spec hs2.tail (fun g hg hr => absurd hr (hfresh2 g hg)) hrest
  have hsecond : Known p hashBlockSize blockHashes b g₂ (hitLength t₂) :=
    (hscan2.known hs2).congr fun i hi => htail.other i fun g hg =>
      (pairwise_cons.mp hs2.ids_disjoint).1 g hg i hi
  have hc₂max : c2 ≤ max := hscan2.le_maxLength.trans hscan1.le_maxLength
  rw [hybridIterate, hround, ok_bind]
  by_cases hge : curr ≥ max
  · have hcurr : curr = max := le_antisymm hspec.le hge
    have hall : ∀ g ∈ groups, ∃ m, Known p hashBlockSize blockHashes b g m ∧ m * g.spec.blockSize = max := by
      intro g hg
      obtain ⟨m, hk, hle, hge'⟩ := hspec.scanned g hg (hfresh g)
      exact ⟨m, hk, le_antisymm hge' (hge.trans hle)⟩
    have hmax : max = c2 := le_antisymm (hge.trans htail.le) hc₂max
    simp only [if_pos hge]
    refine ⟨max, b, rfl, le_rfl, hcurr ▸ hspec.aligned_of_scanned ⟨g₁, mem_cons_self,
      hfresh g₁⟩, ?_, fun g hg _ => hall g hg, fun _ => hsecond, fun _ _ g hg => hall g
      (mem_cons_of_mem _ (mem_cons_of_mem _ hg)), fun _ => iff_of_true hmax fun g hg =>
      htail.accepts (hcurr.trans hmax) g hg (hfresh2 g hg)⟩
    obtain ⟨m, hk, hm⟩ := hall g₁ mem_cons_self
    exact ⟨m, hk, hm.ge⟩
  · simp only [if_neg hge]
    by_cases hsimple : rest = [] ∧ g₁.spec.isFullAttention = true
    · rw [if_pos (decide_eq_true hsimple)]
      obtain ⟨hnil, hfull1⟩ := hsimple
      subst hnil
      obtain ⟨rfl, rfl⟩ := ok_pair_inj hrest
      refine ⟨c2, b2, rfl, hc₂max, hscan2.aligned, ?_, fun g hg hfull => ?_, fun _ => hsecond,
        by simp, fun _ => iff_of_true rfl (by simp)⟩
      · obtain ⟨m, hk, hle, -⟩ := hspec.scanned g₁ mem_cons_self (hfresh g₁)
        exact ⟨m, hk, hle⟩
      · rcases mem_cons.mp hg with rfl | hg
        · rw [hfull1] at hfull
          cases hfull
        · rw [mem_singleton.mp hg]
          exact ⟨hitLength t₂, hsecond, rfl⟩
    · rw [decide_eq_false hsimple]
      have hsettled : Settled p lcmBlockSize hashBlockSize blockHashes groups curr b := by
        refine ⟨hspec.aligned_of_scanned ⟨g₁, mem_cons_self, hfresh g₁⟩, htail.le.trans hcover2, fun g hg => ?_⟩
        obtain ⟨m, hk, hle, -⟩ := hspec.scanned g hg (hfresh g)
        exact ⟨m, hk, hle⟩
      obtain ⟨n, b', hok, hle, halign, hfull, hother, hiff⟩ := hybridIterate_settled hs hsettled (not_le.mp hge)
      refine ⟨n, b', hok, hle.trans hspec.le, halign, ?_, hother, fun hf2 => ?_,
        fun hf2 hn g hg => ?_, fun hf2 => ⟨fun hn => ?_, fun hacc => ?_⟩⟩
      · by_cases hf1 : g₁.spec.isFullAttention = true
        · obtain ⟨m, hk, hm⟩ := hsettled.known g₁ mem_cons_self
          exact ⟨m, hk.congr (hfull g₁ mem_cons_self hf1), hle.trans hm⟩
        · obtain ⟨m, hk, hm⟩ := hother g₁ mem_cons_self (Bool.not_eq_true _ ▸ hf1)
          exact ⟨m, hk, hm.ge⟩
      · exact hsecond.congr (hfull g₂ (by simp [hgroups]) hf2)
      · have hgm : g ∈ groups := mem_cons_of_mem _ (mem_cons_of_mem _ hg)
        by_cases hf : g.spec.isFullAttention = true
        · obtain ⟨m, hk, hm, hm'⟩ := htail.scanned g hg (hfresh2 g hg)
          exact ⟨m, hk.congr (hfull g hgm hf), by omega⟩
        · exact hother g hgm (Bool.not_eq_true _ ▸ hf)
      · have hcurr : curr = c2 := le_antisymm htail.le (hn.symm.trans_le hle)
        exact fun g hg => htail.accepts hcurr g hg (hfresh2 g hg)
      · obtain ⟨b'', hb''⟩ := hybridPass_accepts hs2.tail b2 hscan2.aligned fun g hg _ => hacc g hg
        rw [hrest] at hb''
        obtain ⟨hcurr, -⟩ := ok_pair_inj hb''
        rw [← hcurr]
        refine hiff.mpr fun g hg hf => ?_
        rcases mem_cons.mp hg with rfl | hg
        · rw [hfirst hf2] at hf
          cases hf
        · rcases mem_cons.mp hg with rfl | hg
          · rw [hf2] at hf
            cases hf
          · rw [hcurr]
            exact hacc g hg

lemma SplitUpTo.ids_disjoint (h : SplitUpTo specs i groups) :
    groups.Pairwise (fun g g' => ∀ j ∈ g.groupIds, j ∉ g'.groupIds) := by
  have hne : groups.Pairwise (fun g g' => g.spec ≠ g'.spec) := pairwise_map.mp h.spec_nodup
  refine hne.imp_of_mem fun {g g'} hg hg' hspec j hj hj' => hspec ?_
  exact some.inj ((h.spec_eq g hg j hj).2.symm.trans (h.spec_eq g' hg' j hj').2)

/-- Block sizes and windows are positive, and eagle is on only where it is allowed. -/
structure HybridSpecs (specs : List KVCacheSpec) (useEagle : Bool) (lcmBlockSize : ℕ) : Prop where
  member : ∀ spec ∈ specs, spec.isHybridMember = true
  blockSize_pos : ∀ spec ∈ specs, 0 < spec.blockSize
  window_pos : ∀ attn window, KVCacheSpec.slidingWindow attn window ∈ specs → 0 < window
  eagle : useEagle = true → ∀ spec ∈ specs, spec.AdmitsEagle lcmBlockSize
  length_le : specs.length ≤ 2 ^ 32

lemma HybridSplit.setup (h : HybridSplit specs groups lcmBlockSize)
    (hspecs : HybridSpecs specs useEagle lcmBlockSize) (hp : p.Coherent)
    (hpos : 0 < hashBlockSize) (hdvd : ∀ spec ∈ specs, spec.blockSize % hashBlockSize = 0) :
    HybridSetup p useEagle lcmBlockSize hashBlockSize groups := by
  have hmem : ∀ g ∈ groups, g.spec ∈ specs := by
    intro g hg
    obtain ⟨j, hj⟩ := exists_mem_of_ne_nil _ (h.split.ids_ne_nil g hg)
    exact mem_of_getElem? (h.split.spec_eq g hg j hj).2
  exact ⟨hp, hpos, fun g hg => hspecs.blockSize_pos _ (hmem g hg), fun g hg => hdvd _ (hmem g hg),
    h.dvd_lcm, fun g hg => hspecs.member _ (hmem g hg),
    fun he g hg => hspecs.eagle he _ (hmem g hg), fun g hg i hi =>
    (h.split.spec_eq g hg i hi).1.trans_le hspecs.length_le, h.split.ids_ne_nil, h.split.ids_nodup,
    h.split.ids_disjoint⟩

/-- What the groups of a lookup of `n` tokens agree on. -/
structure HitAgreement (c : KVCacheCoordinator) (hashBlockSize : ℕ) (blockHashes : List BlockHash)
    (maxCacheHitLength : ℕ) (blocks : List (List BlockId)) (n : ℕ) : Prop where
  le_max : n ≤ maxCacheHitLength
  dvd : ∀ m ∈ c.singleTypeManagers, m.blockSize ∣ n
  length_eq : blocks.length = c.singleTypeManagers.length
  length_mul : ∀ (i : ℕ) m l, c.singleTypeManagers[i]? = some m → blocks[i]? = some l → l.length * m.blockSize = n
  cached : ∀ (i : ℕ) m l, c.singleTypeManagers[i]? = some m → blocks[i]? = some l →
    ∀ (j : ℕ) b, m.getNumSkippedTokens n / m.blockSize ≤ j → l[j]? = some b → b ≠ nullBlock ∧
      ∃ h, (hashesAt hashBlockSize blockHashes m.blockSize)[j]? = some h ∧
        c.blockPool.hashOf b = some (h ++ groupIdBytes i)

/-- There are hashes for all blocks the first group looks up. -/
def FirstCovered (hashBlockSize : ℕ) (blockHashes : List BlockHash) (groups : List AttentionGroup)
    (maxCacheHitLength : ℕ) : Prop :=
  ∀ g ∈ groups.head?, g.spec.isFullAttention = false → maxCacheHitLength / g.spec.blockSize ≤
      (hashesAt hashBlockSize blockHashes g.spec.blockSize).length

/-- If the first two groups are full attention all later ones accept the length they leave. -/
def LaterAccept (p : BlockPool) (useEagle : Bool) (lcmBlockSize hashBlockSize : ℕ)
    (blockHashes : List BlockHash) (groups : List AttentionGroup) (maxCacheHitLength : ℕ) : Prop :=
  ∀ g₁ g₂ rest, groups = g₁ :: g₂ :: rest → g₂.spec.isFullAttention = true → ∀ t₁ t₂,
    lookupGroup p useEagle lcmBlockSize hashBlockSize blockHashes g₁ maxCacheHitLength = .ok t₁ →
    lookupGroup p useEagle lcmBlockSize hashBlockSize blockHashes g₂
      (hitLength t₁ * g₁.spec.blockSize) = .ok t₂ →
    ∀ g ∈ rest, Accepts p useEagle lcmBlockSize hashBlockSize blockHashes g (hitLength t₂ * g₂.spec.blockSize)

lemma lookupStart_le {spec : KVCacheSpec} (hmem : spec.isHybridMember = true)
    (hpos : 0 < spec.blockSize) (hw : ∀ attn window, spec = .slidingWindow attn window → 0 < window)
    {m : SingleTypeKVCacheManager} (hm : m.kvCacheSpec = spec) {k j : ℕ}
    (hj : m.getNumSkippedTokens (k * spec.blockSize) / spec.blockSize ≤ (j : ℤ)) : spec.lookupStart 0 k ≤ j := by
  unfold SingleTypeKVCacheManager.getNumSkippedTokens at hj
  rw [hm] at hj
  have hposz : (0 : ℤ) < spec.blockSize := by exact_mod_cast hpos
  cases spec with
  | slidingWindow attn window =>
    change k - cdiv (window - 1) attn.blockSize ≤ j
    change (max 0 (((k * attn.blockSize : ℕ) : ℤ) - window + 1)) / (attn.blockSize : ℤ) ≤ j at hj
    change (0 : ℤ) < attn.blockSize at hposz
    have hlt := Int.lt_add_one_of_le hj
    rw [Int.ediv_lt_iff_lt_mul hposz] at hlt
    have hbound : k * attn.blockSize - (window - 1) < (j + 1) * attn.blockSize := by
      have hz : ((k * attn.blockSize : ℕ) : ℤ) - window + 1 < ((j + 1) * attn.blockSize : ℕ) := by
        push_cast at *
        omega
      have hjpos : 0 < (j + 1) * attn.blockSize := Nat.mul_pos (Nat.succ_pos j) hpos
      omega
    have hceil := le_mul_cdiv hpos (window - 1)
    change window - 1 ≤ attn.blockSize * cdiv (window - 1) attn.blockSize at hceil
    have hmul : k * attn.blockSize < (j + 1 + cdiv (window - 1) attn.blockSize) * attn.blockSize := by
      rw [Nat.add_mul, Nat.mul_comm (cdiv _ _)]
      omega
    have := Nat.lt_of_mul_lt_mul_right hmul
    omega
  | mamba blockSize =>
    change k - 1 ≤ j
    change (((k * blockSize : ℕ) : ℤ) - 1) / (blockSize : ℤ) ≤ j at hj
    change (0 : ℤ) < blockSize at hposz
    have hlt := Int.lt_add_one_of_le hj
    rw [Int.ediv_lt_iff_lt_mul hposz] at hlt
    have hle : k * blockSize ≤ (j + 1) * blockSize := by
      have hz : ((k * blockSize : ℕ) : ℤ) - 1 < ((j + 1) * blockSize : ℕ) := by
        exact hlt
      omega
    have := Nat.le_of_mul_le_mul_right hle hpos
    omega
  | chunkedLocalAttention | crossAttention | encoderOnlyAttention => cases hmem
  | fullAttention | mlaAttention | sinkFullAttention => exact Nat.zero_le j

lemma truncateFullAttention_first (hf : g₁.spec.isFullAttention = true) (hi : i ∈ g₁.groupIds) :
    truncateFullAttention (g₁ :: rest) n byGroup i = (byGroup i).map (·.take (n / g₁.spec.blockSize)) := by
  simp only [truncateFullAttention]
  rw [if_pos hf]
  exact if_pos hi

lemma truncateFullAttention_other (h : g₁.spec.isFullAttention = false ∨ i ∉ g₁.groupIds) :
    truncateFullAttention (g₁ :: rest) n byGroup i = byGroup i := by
  simp only [truncateFullAttention]
  by_cases hf : g₁.spec.isFullAttention = true
  · rw [if_pos hf]
    exact if_neg (h.resolve_left (by rw [hf]; decide))
  · rw [if_neg hf]

lemma lookupStart_full (hf : g.spec.isFullAttention = true) (k : ℕ) : g.spec.lookupStart 0 k = 0 := by
  cases hspec : g.spec <;> first | rfl | (rw [hspec] at hf; cases hf)

lemma Known.truncate {m : ℕ}
    (hf : g₁.spec.isFullAttention = true) (h : Known p hashBlockSize blockHashes byGroup g₁ m)
    (hle : n ≤ m * g₁.spec.blockSize) :
    Known p hashBlockSize blockHashes (truncateFullAttention (g₁ :: rest) n byGroup) g₁
      (n / g₁.spec.blockSize) := by
  intro i hi
  obtain ⟨l, hl, hhit⟩ := h i hi
  refine ⟨l.take (n / g₁.spec.blockSize), ?_, ?_⟩
  · rw [truncateFullAttention_first hf hi, hl]
    rfl
  · rw [lookupStart_full hf] at hhit ⊢
    exact hhit.take (Nat.div_le_of_le_mul (by rwa [Nat.mul_comm]))

section Hybrid

variable {config : KVCacheConfig} {enableCaching events useInt : Bool}
  {dcpWorldSize pcpWorldSize hashBlockSize₀ : ℕ} {c : KVCacheCoordinator}

lemma hitAgreement_of_known (hc : BuiltFrom c config useEagle enableCaching events useInt 1 1 hashBlockSize₀)
    (hsplit : HybridSplit config.kvCacheGroups groups lcmBlockSize)
    (hspecs : HybridSpecs config.kvCacheGroups useEagle lcmBlockSize) {max : ℕ} (hle : n ≤ max)
    (haligned : lcmBlockSize ∣ n) (hknown : ∀ g ∈ groups, ∃ m,
      Known p hashBlockSize blockHashes byGroup g m ∧ m * g.spec.blockSize = n) :
    HitAgreement { c with blockPool := p } hashBlockSize blockHashes max
      ((List.range c.singleTypeManagers.length).map (fun i => (byGroup i).getD [])) n := by
  -- a manager, its group and the blocks of that
  have hget : ∀ (i : ℕ) m, c.singleTypeManagers[i]? = some m → ∃ g ∈ groups, ∃ k l,
      g.spec ∈ config.kvCacheGroups ∧ m.kvCacheSpec = g.spec ∧ m.blockSize = g.spec.blockSize ∧
      byGroup i = some l ∧ k * g.spec.blockSize = n ∧
      Hit p (hashesAt hashBlockSize blockHashes g.spec.blockSize) k (g.spec.lookupStart 0 k) i
        l := by
    intro i m hi
    obtain ⟨spec, hspec, rfl⟩ := hc.managers.get_eq i m hi
    obtain ⟨g, hg, hig⟩ := hsplit.split.covers i (List.getElem?_eq_some_iff.mp hspec).1
    obtain rfl : spec = g.spec := some.inj (hspec.symm.trans (hsplit.split.spec_eq g hg i hig).2)
    obtain ⟨k, hk, hkn⟩ := hknown g hg
    obtain ⟨l, hl, hhit⟩ := hk i hig
    exact ⟨g, hg, k, l, mem_of_getElem? hspec, rfl, by simp [SingleTypeKVCacheManager.new], hl, hkn, hhit⟩
  have hblocks : ∀ (i : ℕ) l, ((List.range c.singleTypeManagers.length).map
      (fun i => (byGroup i).getD []))[i]? = some l → l = (byGroup i).getD [] := by
    intro i l hl
    rw [List.getElem?_map] at hl
    obtain ⟨j, hj, rfl⟩ := map_eq_some_iff.mp hl
    obtain ⟨hlt, rfl⟩ := List.getElem?_eq_some_iff.mp hj
    rw [getElem_range]
  refine ⟨hle, fun m hm => ?_, by simp, fun i m l hi hl => ?_, fun i m l hi hl j b hj hb => ?_⟩
  · obtain ⟨i, hi⟩ := mem_iff_getElem?.mp hm
    obtain ⟨g, hg, _, _, _, _, hbs, -⟩ := hget i m hi
    rw [hbs]
    exact (hsplit.dvd_lcm g hg).trans haligned
  · obtain ⟨g, -, k, l', _, _, hbs, hl', hkn, hhit⟩ := hget i m hi
    rw [hblocks i l hl, hl', hbs]
    exact hhit.length_eq ▸ hkn
  · obtain ⟨g, hg, k, l', hmem, hspec, hbs, hl', hkn, hhit⟩ := hget i m hi
    rw [hblocks i l hl, hl'] at hb
    rw [hbs, ← hkn] at hj
    have hstart := lookupStart_le (hspecs.member _ hmem) (hspecs.blockSize_pos _ hmem)
      (fun attn window h => hspecs.window_pos attn window (h ▸ hmem)) hspec hj
    have hne := hhit.ne_null j b hstart hb
    rw [hbs]
    exact ⟨hne, hhit.cached j b hb hne⟩

/-- The groups agree on the hit exactly if the first lookup stays within the hashes and the groups
behind two of full attention accept the length these leave. -/
theorem hybrid_hit_agreement_iff
    (hnew : getKvCacheCoordinator config useEagle enableCaching events useInt dcpWorldSize
      pcpWorldSize hashBlockSize₀ = .ok c) (hkind : c.kind = .hybrid groups lcmBlockSize hashBlockSize)
    (hspecs : HybridSpecs config.kvCacheGroups useEagle lcmBlockSize) (hp : p.Coherent)
    (blockHashes : List BlockHash) (maxCacheHitLength : ℕ) :
    (∃ blocks n, ({ c with blockPool := p } : KVCacheCoordinator).findLongestCacheHit blockHashes
        maxCacheHitLength = .ok (blocks, n) ∧
      HitAgreement { c with blockPool := p } hashBlockSize blockHashes maxCacheHitLength blocks
        n) ↔ FirstCovered hashBlockSize blockHashes groups maxCacheHitLength ∧
        LaterAccept p useEagle lcmBlockSize hashBlockSize blockHashes groups maxCacheHitLength := by
  have hc := getKvCacheCoordinator_spec hnew
  have hfits := hc.kindFits
  unfold KindFits at hfits
  rw [hkind] at hfits
  obtain ⟨rfl, rfl, rfl, hdvd, hsplit⟩ := hfits
  obtain ⟨g₁, g₂, rest, rfl⟩ : ∃ g₁ g₂ rest, groups = g₁ :: g₂ :: rest := by
    have htwo := hsplit.two_le
    match groups with
    | [] | [_] => simp at htwo
    | g₁ :: g₂ :: rest => exact ⟨g₁, g₂, rest, rfl⟩
  have hmem1 : g₁.spec ∈ config.kvCacheGroups := by
    obtain ⟨j, hj⟩ := exists_mem_of_ne_nil _ (hsplit.split.ids_ne_nil g₁ mem_cons_self)
    exact mem_of_getElem? (hsplit.split.spec_eq g₁ mem_cons_self j hj).2
  have hpos : 0 < hashBlockSize := by
    rw [Nat.pos_iff_ne_zero]
    rintro rfl
    have h0 := hdvd _ hmem1
    exact absurd (hspecs.blockSize_pos _ hmem1) (by omega)
  have hs := hsplit.setup hspecs hp hpos hdvd
  obtain ⟨hbefore1, hbefore⟩ := pairwise_cons.mp hsplit.fullFirst
  have hfirst := hbefore1 g₂ mem_cons_self
  have hlast : g₂.spec.isFullAttention = false → ∀ g ∈ rest, g.spec.isFullAttention = false := by
    intro hf2 g hg
    rw [← Bool.not_eq_true]
    intro hf
    rw [(pairwise_cons.mp hbefore).1 g hg hf] at hf2
    cases hf2
  have hlookup : ({ c with blockPool := p } : KVCacheCoordinator).findLongestCacheHit blockHashes
      maxCacheHitLength = hybridFindLongestCacheHit p useEagle c.singleTypeManagers.length
        (g₁ :: g₂ :: rest) lcmBlockSize hashBlockSize blockHashes maxCacheHitLength := by
    unfold findLongestCacheHit
    simp only [hkind, hc.useEagle_eq]
  have hsimple : (decide ((g₁ :: g₂ :: rest).length = 2 ∧
      ((g₁ :: g₂ :: rest).head?.any (·.spec.isFullAttention)) = true)) =
      decide (rest = [] ∧ g₁.spec.isFullAttention = true) := by
    simp
  rw [hlookup]
  unfold hybridFindLongestCacheHit
  simp only [hsimple]
  by_cases hcovered : FirstCovered hashBlockSize blockHashes (g₁ :: g₂ :: rest) maxCacheHitLength
  swap
  · -- the first lookup raises
    refine iff_of_false ?_ fun h => hcovered h.1
    rintro ⟨blocks, n, hok, -⟩
    simp only [bind_eq_ok, Prod.exists] at hok
    obtain ⟨hit, byGroup, hiter, -⟩ := hok
    rw [hybridIterate, hybridPass_scanned (fun hr => by cases hr.2)] at hiter
    simp only [bind_eq_ok] at hiter
    obtain ⟨_, ⟨table, htable, -⟩, -⟩ := hiter
    refine hcovered fun g hg hf => ?_
    obtain rfl := some.inj hg
    exact (hs.lookupGroup_isOk_iff maxCacheHitLength).mp ⟨table, htable⟩ hf
  obtain ⟨t₁, h1⟩ := (hs.lookupGroup_isOk_iff maxCacheHitLength).mpr (hcovered g₁ rfl)
  have hscan1 := hs.scanned h1
  obtain ⟨t₂, h2⟩ := (hs.tail.lookupGroup_isOk_iff (hitLength t₁ * g₁.spec.blockSize)).mpr
    fun _ => div_le_length_hashesAt hpos (hs.divisible g₂ (by simp))
      ((Nat.mul_le_mul_right _ hscan1.le_hashes).trans
        (length_hashesAt_mul_le hpos (hs.divisible g₁ mem_cons_self)))
  obtain ⟨n, byGroup, hiter, hag⟩ := hybridIterate_agreed hs hfirst h1 h2
  rw [hiter]
  have hnotfirst : ∀ g ∈ g₂ :: rest, ∀ i ∈ g.groupIds,
      truncateFullAttention (g₁ :: g₂ :: rest) n byGroup i = byGroup i := fun g hg i hi =>
    truncateFullAttention_other (.inr fun h =>
      (pairwise_cons.mp hs.ids_disjoint).1 g hg i h hi)
  have hone : ∃ m, Known p hashBlockSize blockHashes
      (truncateFullAttention (g₁ :: g₂ :: rest) n byGroup) g₁ m ∧ m * g₁.spec.blockSize = n := by
    by_cases hf1 : g₁.spec.isFullAttention = true
    · obtain ⟨m, hk, hle⟩ := hag.first
      exact ⟨_, hk.truncate hf1 hle, div_mul_eq_of_dvd_lcm hs mem_cons_self hag.aligned⟩
    · obtain ⟨m, hk, hm⟩ := hag.others g₁ mem_cons_self (Bool.not_eq_true _ ▸ hf1)
      exact ⟨m, hk.congr fun i _ => truncateFullAttention_other
        (.inl (Bool.not_eq_true _ ▸ hf1)), hm⟩
  constructor
  · rintro ⟨blocks, n', hok, hagree⟩
    obtain ⟨rfl, rfl⟩ := ok_pair_inj hok
    refine ⟨hcovered, fun g1' g2' rest' heq hf2 t1' t2' h1' h2' => ?_⟩
    obtain ⟨rfl, rfl, rfl⟩ := heq
    obtain rfl := ok.inj (h1.symm.trans h1')
    obtain rfl := ok.inj (h2.symm.trans h2')
    apply (hag.eq_iff hf2).mp
    -- the blocks of the second group are those of its lookup
    obtain ⟨i, hi⟩ := exists_mem_of_ne_nil _ (hs.ids_ne_nil g₂ (by simp))
    obtain ⟨hlt, hspec⟩ := hsplit.split.spec_eq g₂ (by simp) i hi
    obtain ⟨l, hl, hhit⟩ := hag.second hf2 i hi
    have hlt' : i < c.singleTypeManagers.length := hc.managers.length_eq ▸ hlt
    obtain ⟨spec, hspec', hm⟩ := hc.managers.get_eq i _ (List.getElem?_eq_getElem hlt')
    obtain rfl := some.inj (hspec.symm.trans hspec')
    have hmul := hagree.length_mul i _ l (List.getElem?_eq_getElem hlt') (by
      rw [List.getElem?_map, List.getElem?_range hlt', map_some, hnotfirst g₂ mem_cons_self i hi, hl]
      rfl)
    rw [hm, hhit.length_eq] at hmul
    exact hmul.symm
  · rintro ⟨-, hlater⟩
    refine ⟨_, n, rfl, hitAgreement_of_known hc hsplit hspecs hag.le_max hag.aligned fun g hg => ?_⟩
    rcases mem_cons.mp hg with rfl | hg'
    · exact hone
    · have htr := hnotfirst g hg'
      by_cases hf2 : g₂.spec.isFullAttention = true
      · have hn := (hag.eq_iff hf2).mpr (hlater g₁ g₂ rest rfl hf2 t₁ t₂ h1 h2)
        rcases mem_cons.mp hg' with rfl | hg'
        · exact ⟨_, (hag.second hf2).congr htr, hn.symm⟩
        · obtain ⟨m, hk, hm⟩ := hag.later hf2 hn g hg'
          exact ⟨m, hk.congr htr, hm⟩
      · have hf2' := Bool.not_eq_true _ ▸ hf2
        obtain ⟨m, hk, hm⟩ := hag.others g hg (by
          rcases mem_cons.mp hg' with rfl | hg'
          · exact hf2'
          · exact hlast hf2' g hg')
        exact ⟨m, hk.congr htr, hm⟩

def oneTokenBlocks (headSize : ℕ) : AttentionSpec :=
  { blockSize := 1, numKvHeads := 1, headSize, dtype := ⟨"float16", 2⟩ }

def fullSpec (headSize : ℕ) : KVCacheSpec :=
  .fullAttention (oneTokenBlocks headSize) headSize none none

def windowSpec (headSize : ℕ) : KVCacheSpec := .slidingWindow (oneTokenBlocks headSize) 2

/-- The first block of a request is cached for the groups `0` and `1`. -/
def firstBlockOps : List BlockPool.Op :=
  let request : Request :=
    { requestId := "a", promptTokenIds := none, numPromptTokens := 2, allTokenIds := [0, 0]
      samplingParams := ⟨1, 0, false, []⟩, maxTokens := 1, blockHashes := [[7], [8]] }
  [.getNewBlocks 2, .cacheFullBlocks request [1] 0 1 1 0, .cacheFullBlocks request [2] 0 1 1 1]

def firstBlockPool : Except PyError BlockPool :=
  (BlockPool.new 4 true 1 false false).bind (runSteps BlockPool.step · firstBlockOps)

lemma firstBlockPool_coherent : ∃ p, firstBlockPool = .ok p ∧ p.Coherent := by
  obtain ⟨p, hp⟩ := exists_eq_ok_of_isOk (x := firstBlockPool) (by decide)
  exact ⟨p, hp, BlockPool.coherent_of_run hp⟩

lemma hybridSpecs_of_small {specs : List KVCacheSpec}
    (hmem : ∀ spec ∈ specs, spec = fullSpec 1 ∨ spec = fullSpec 2 ∨ spec = windowSpec 1)
    (hlen : specs.length ≤ 3) : HybridSpecs specs false 1 := by
  refine ⟨fun spec h => ?_, fun spec h => ?_, fun attn window h => ?_, nofun, hlen.trans (by decide)⟩
  · rcases hmem spec h with rfl | rfl | rfl <;> rfl
  · rcases hmem spec h with rfl | rfl | rfl <;> exact Nat.one_pos
  · rcases hmem _ h with h | h | h
    · cases h
    · cases h
    · cases h
      exact Nat.two_pos

/-- A full attention and a sliding window group that have no common hit. -/
theorem hybrid_hit_agreement_iff_two_groups : ∃ c p,
    getKvCacheCoordinator ⟨4, [fullSpec 1, windowSpec 1]⟩ false true false false 1 1 1 = .ok c ∧
    firstBlockPool = .ok p ∧
    ∃ blocks n, ({ c with blockPool := p } : KVCacheCoordinator).findLongestCacheHit [[7], [8]] 1 =
      .ok (blocks, n) ∧ HitAgreement { c with blockPool := p } 1 [[7], [8]] 1 blocks n := by
  obtain ⟨p, hp, hcoh⟩ := firstBlockPool_coherent
  obtain ⟨c, hc⟩ := exists_eq_ok_of_isOk (x := getKvCacheCoordinator
    ⟨4, [fullSpec 1, windowSpec 1]⟩ false true false false 1 1 1) (by decide)
  have hkind : c.kind = .hybrid [⟨fullSpec 1, [0]⟩, ⟨windowSpec 1, [1]⟩] 1 1 := by
    have h : (getKvCacheCoordinator ⟨4, [fullSpec 1, windowSpec 1]⟩ false true false false 1 1
        1).map (·.kind) = .ok (.hybrid [⟨fullSpec 1, [0]⟩, ⟨windowSpec 1, [1]⟩] 1 1) := by decide
    rw [hc] at h
    exact ok.inj h
  refine ⟨c, p, hc, hp, (hybrid_hit_agreement_iff hc hkind (hybridSpecs_of_small (by decide)
    (by decide)) hcoh [[7], [8]] 1).mpr ⟨?_, ?_⟩⟩
  · intro g hg hf
    obtain rfl := some.inj hg
    cases hf
  · intro g₁ g₂ rest heq hf2
    obtain ⟨-, htail⟩ := List.cons.inj heq
    obtain ⟨rfl, -⟩ := List.cons.inj htail
    cases hf2

/-- With a second full attention group the blocks of that one are not truncated. -/
theorem hybrid_hit_disagreement : ∃ c p,
    getKvCacheCoordinator ⟨4, [fullSpec 1, fullSpec 2, windowSpec 1]⟩ false true false false 1 1 1 = .ok c ∧
    firstBlockPool = .ok p ∧ p.Coherent ∧ HybridSpecs [fullSpec 1, fullSpec 2, windowSpec 1] false 1 ∧
    ¬∃ blocks n, ({ c with blockPool := p } : KVCacheCoordinator).findLongestCacheHit
        [[7], [8]] 1 = .ok (blocks, n) ∧ HitAgreement { c with blockPool := p } 1 [[7], [8]] 1 blocks n := by
  obtain ⟨p, hp, hcoh⟩ := firstBlockPool_coherent
  obtain ⟨c, hc⟩ := exists_eq_ok_of_isOk (x := getKvCacheCoordinator
    ⟨4, [fullSpec 1, fullSpec 2, windowSpec 1]⟩ false true false false 1 1 1) (by decide)
  refine ⟨c, p, hc, hp, hcoh, hybridSpecs_of_small (by decide) (by decide), ?_⟩
  have hrun : (do
      let c ← getKvCacheCoordinator ⟨4, [fullSpec 1, fullSpec 2, windowSpec 1]⟩ false true false
        false 1 1 1
      let p ← firstBlockPool
      let r ← ({ c with blockPool := p } : KVCacheCoordinator).findLongestCacheHit [[7], [8]] 1
      return (c.singleTypeManagers.map (·.blockSize), r)) =
      (.ok ([1, 1, 1], [[], [2], []], 0) : Except PyError _) := by decide
  rw [hc, ok_bind, hp, ok_bind] at hrun
  rintro ⟨blocks, n, hok, hagree⟩
  rw [hok] at hrun
  obtain ⟨hsizes, hr⟩ := ok_pair_inj hrun
  obtain ⟨rfl, rfl⟩ := Prod.mk.inj hr
  have hsize := congrArg (·[1]?) hsizes
  simp only [List.getElem?_map] at hsize
  obtain ⟨m, hm, hbs⟩ := map_eq_some_iff.mp hsize
  have hmul := hagree.length_mul 1 m [2] hm rfl
  rw [hbs] at hmul
  cases hmul

end Hybrid

end KVCacheCoordinator

end CustomAi.Vllm
