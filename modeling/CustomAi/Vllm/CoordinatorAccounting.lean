import CustomAi.Vllm.HybridHit
import CustomAi.Vllm.ManagerAccounting

/-!
# Accounting of the coordinator

The managers share the pool, so that its holdings are the sum of theirs.
-/

namespace CustomAi.Vllm

open List Option Except SingleTypeKVCacheManager

namespace KVCacheCoordinator

def held (c : KVCacheCoordinator) : Multiset BlockId :=
  (c.singleTypeManagers.map SingleTypeKVCacheManager.held).sum

/-- The managers are sound, and the pool counts what they hold. -/
structure Accounts (c : KVCacheCoordinator) : Prop where
  sound : ∀ m ∈ c.singleTypeManagers, m.Sound
  valid : c.blockPool.Valid c.held

structure SameShape (c c' : KVCacheCoordinator) : Prop where
  kind : c'.kind = c.kind
  useEagle : c'.useEagle = c.useEagle
  length_eq : c'.singleTypeManagers.length = c.singleTypeManagers.length
  settings : ∀ (i : ℕ) m m', c.singleTypeManagers[i]? = some m →
    c'.singleTypeManagers[i]? = some m' → m.SameSettings m'
  config : c.blockPool.SameConfig c'.blockPool

variable {c c' : KVCacheCoordinator}

lemma SameShape.refl (c : KVCacheCoordinator) : SameShape c c := by
  refine ⟨rfl, rfl, rfl, fun i m m' h h' => ?_, .refl _⟩
  obtain rfl := some.inj (h.symm.trans h')
  exact .refl m

variable {i : ℕ}

lemma SameShape.manager (h : SameShape c c') {m' : SingleTypeKVCacheManager}
    (hi : c'.singleTypeManagers[i]? = some m') : ∃ m, c.singleTypeManagers[i]? = some m ∧ m.SameSettings m' := by
  have hlt : i < c.singleTypeManagers.length := h.length_eq ▸ (List.getElem?_eq_some_iff.mp hi).1
  exact ⟨_, List.getElem?_eq_getElem hlt, h.settings i _ m' (List.getElem?_eq_getElem hlt) hi⟩

lemma SameShape.trans {c'' : KVCacheCoordinator} (h : SameShape c c') (h' : SameShape c' c'') :
    SameShape c c'' := by
  refine ⟨h'.kind.trans h.kind, h'.useEagle.trans h.useEagle, h'.length_eq.trans h.length_eq,
    fun i m m'' hi hi'' => ?_, h.config.trans h'.config⟩
  obtain ⟨m', hi', hset⟩ := h'.manager hi''
  exact (h.settings i m m' hi hi').trans hset

lemma SameShape.withPool (c : KVCacheCoordinator) {p : BlockPool}
    (h : c.blockPool.SameConfig p) : SameShape c { c with blockPool := p } := by
  refine ⟨rfl, rfl, rfl, fun i m m' hi hi' => ?_, h⟩
  obtain rfl := some.inj (hi.symm.trans hi')
  exact .refl m

lemma forManagers_accounted {β : Type} {f : ℕ → SingleTypeKVCacheManager → BlockPool →
      Except PyError (β × SingleTypeKVCacheManager × BlockPool)} {bs : List β}
    (h : c.Accounts) (hf : ∀ i m p b m' p' F, c.singleTypeManagers[i]? = some m →
      m.Sound → p.Valid (m.held + F) → c.blockPool.SameConfig p → f i m p = .ok (b, m', p') →
      m.Accounted m' p p' F) (hok : c.forManagers f = .ok (bs, c')) : c'.Accounts ∧ SameShape c c' := by
  simp only [forManagers, bind_eq_ok, pure_eq_ok, ok.injEq, Prod.mk.injEq, Prod.exists] at hok
  obtain ⟨bs', ms, p, hloop, rfl, rfl⟩ := hok
  have hstep : ∀ i m p b m' p' F, c.singleTypeManagers[i]? = some m →
      p.Valid (m.held + F) ∧ c.blockPool.SameConfig p → f i m p = .ok (b, m', p') →
      (m'.Sound ∧ m.SameSettings m') ∧ p'.Valid (m'.held + F) ∧ c.blockPool.SameConfig p' := by
    rintro i m p b m' p' F hi ⟨hv, hcfg⟩ hok
    have hacc := hf i m p b m' p' F hi (h.sound m (List.mem_of_getElem? hi)) hv hcfg hok
    exact ⟨⟨hacc.sound, hacc.settings⟩, hacc.valid, hcfg.trans hacc.config⟩
  have hstart : c.blockPool.Valid (c.held + 0) ∧ c.blockPool.SameConfig c.blockPool := by
    rw [add_zero]
    exact ⟨h.valid, .refl _⟩
  obtain ⟨⟨hlen, hpost⟩, hvalid, hcfg⟩ := forEnum_frame
    (fun p H => p.Valid H ∧ c.blockPool.SameConfig p) SingleTypeKVCacheManager.held
    (fun i m => c.singleTypeManagers[i]? = some m) (fun _ m m' => m'.Sound ∧ m.SameSettings m')
    hstep (fun j m hj => by rwa [Nat.zero_add]) hstart hloop
  rw [add_zero] at hvalid
  refine ⟨⟨fun m' hm' => ?_, hvalid⟩, rfl, rfl, hlen, fun i m m' hi hi' =>
    (hpost i m m' hi hi').2, hcfg⟩
  obtain ⟨i, hi'⟩ := List.mem_iff_getElem?.mp hm'
  have hlt : i < c.singleTypeManagers.length := hlen ▸ (List.getElem?_eq_some_iff.mp hi').1
  exact (hpost i _ m' (List.getElem?_eq_getElem hlt) hi').1

variable {requestId : RequestId}

lemma allocateNewBlocks_accounted (h : c.Accounts) {numTokens numTokensMainModel
    numEncoderTokens : ℕ} {new : List (List BlockId)}
    (hok : c.allocateNewBlocks requestId numTokens numTokensMainModel numEncoderTokens =
      .ok (new, c')) : c'.Accounts ∧ SameShape c c' :=
  forManagers_accounted h (fun _ _ _ _ _ _ _ _ hs hv _ hok =>
    SingleTypeKVCacheManager.allocateNewBlocks_accounted hs hv hok) hok

def HitsFit (c : KVCacheCoordinator) (hits : List (List BlockId))
    (numLocalComputedTokens numExternalComputedTokens : ℕ) : Prop :=
  ∀ (i : ℕ) m, c.singleTypeManagers[i]? = some m →
    SingleTypeKVCacheManager.HitsFit c.blockPool m (blocksOfGroup hits i) numLocalComputedTokens
      numExternalComputedTokens

def ManagersFit (c : KVCacheCoordinator) : Prop :=
  ∀ m ∈ c.singleTypeManagers, 0 < m.blockSize ∧ m.WindowFits

section

variable (h : c.Accounts)
include h

lemma allocateNewComputedBlocks_accounted (hfit : c.ManagersFit)
    {hits : List (List BlockId)} {numLocal numExternal : ℕ} (hhits : c.HitsFit hits numLocal numExternal)
    (hok : c.allocateNewComputedBlocks requestId hits numLocal numExternal = .ok c') :
    c'.Accounts ∧ SameShape c c' := by
  obtain ⟨g, bs, hloop, hstep⟩ := forManagers_steps hok
  refine forManagers_accounted h (fun i m p b m' p' F hi hs hv hcfg hok => ?_) hloop
  obtain ⟨hbs, hw⟩ := hfit m (List.mem_of_getElem? hi)
  have hh := hhits i m hi
  refine SingleTypeKVCacheManager.allocateNewComputedBlocks_accounted hs hv hbs hw
    ⟨fun b hb hne => ?_, hh.nodup, hh.length_le⟩ (hstep hok)
  rw [hcfg.usable_eq]
  exact hh.usable b hb hne

lemma cacheBlocks_accounted {request : Request} {numComputedTokens : ℕ}
    (hok : c.cacheBlocks request numComputedTokens = .ok c') : c'.Accounts ∧ SameShape c c' := by
  obtain ⟨g, bs, hloop, hstep⟩ := forManagers_steps hok
  refine forManagers_accounted h (fun i m p b m' p' F hi hs hv _ hok => ?_) hloop
  exact SingleTypeKVCacheManager.cacheBlocks_accounted hs hv (hstep hok)

lemma free_accounted (hok : c.free requestId = .ok c') : c'.Accounts ∧ SameShape c c' := by
  simp only [free, bind_eq_ok, pure_eq_ok, ok.injEq, Prod.exists] at hok
  obtain ⟨bs, c1, hloop, rfl⟩ := hok
  refine forManagers_accounted h (fun i m p b m' p' F hi hs hv _ hok => ?_) hloop
  obtain ⟨-, hmp⟩ := ok_pair_inj hok
  have hacc := free_accounted hs hv requestId
  rwa [hmp] at hacc

lemma removeSkippedBlocks_accounted {totalComputedTokens : ℕ}
    (hok : c.removeSkippedBlocks requestId totalComputedTokens = .ok c') : c'.Accounts ∧ SameShape c c' := by
  obtain ⟨g, bs, hloop, hstep⟩ := forManagers_steps hok
  refine forManagers_accounted h (fun i m p b m' p' F hi hs hv _ hok => ?_) hloop
  exact SingleTypeKVCacheManager.removeSkippedBlocks_accounted hs hv (hstep hok)

lemma Accounts.withPool {p : BlockPool} (hv : p.Valid c.held) :
    ({ c with blockPool := p } : KVCacheCoordinator).Accounts := ⟨h.sound, hv⟩

end

/-- The blocks of group `i` are hits under the hashes of the request. -/
def HitOf (p : BlockPool) (hashBlockSize blockSize : ℕ) (blockHashes : List BlockHash) (i : ℕ)
    (l : List BlockId) : Prop :=
  ∃ hashes n start, BlockPool.blockHashList blockHashes hashBlockSize blockSize = .ok hashes ∧
    Hit p hashes n start i l

variable {p : BlockPool} {hashBlockSize : ℕ} {blockHashes : List BlockHash}

variable {blockSize : ℕ} {l : List BlockId}

section

variable (h : HitOf p hashBlockSize blockSize blockHashes i l)
include h

lemma HitOf.take (k : ℕ) : HitOf p hashBlockSize blockSize blockHashes i (l.take k) := by
  obtain ⟨hashes, n, start, hlist, hhit⟩ := h
  refine ⟨hashes, min k n, start, hlist, ?_⟩
  have hmin : l.take k = l.take (min k n) := by
    rw [take_eq_take_iff, hhit.length_eq]
    omega
  rw [hmin]
  exact hhit.take (min_le_right k n)

lemma HitOf.usable {held : Multiset BlockId} (hv : p.Valid held) {b : BlockId}
    (hb : b ∈ l) (hne : b ≠ nullBlock) : b ∈ p.usable := by
  obtain ⟨hashes, n, start, -, hhit⟩ := h
  obtain ⟨j, hj⟩ := List.mem_iff_getElem?.mp hb
  obtain ⟨hash, -, hkey⟩ := hhit.cached j b hj hne
  exact hv.cached_usable b _ hkey

lemma HitOf.nodup (hdist : ∀ hashes,
      BlockPool.blockHashList blockHashes hashBlockSize blockSize = .ok hashes → hashes.Nodup) :
    (live l).Nodup := by
  obtain ⟨hashes, n, start, hlist, hhit⟩ := h
  have hnd := hdist hashes hlist
  unfold live
  rw [Nodup, pairwise_filter, pairwise_iff_getElem]
  intro j k hj hk hjk hne _ heq
  have hne' : l[j] ≠ nullBlock := of_decide_eq_true hne
  obtain ⟨hash, hh, hkey⟩ := hhit.cached j l[j] (List.getElem?_eq_getElem hj) hne'
  obtain ⟨hash', hh', hkey'⟩ := hhit.cached k l[k] (List.getElem?_eq_getElem hk) (heq ▸ hne')
  rw [← heq, hkey, some.injEq] at hkey'
  obtain rfl := append_cancel_right hkey'
  obtain ⟨hj', rfl⟩ := List.getElem?_eq_some_iff.mp hh
  obtain ⟨hk', hjk'⟩ := List.getElem?_eq_some_iff.mp hh'
  have := (hnd.getElem_inj_iff).mp hjk'
  omega

end

def AllHits (p : BlockPool) (hashBlockSize : ℕ) (blockHashes : List BlockHash)
    (groups : List AttentionGroup) (byGroup : HitBlocksByGroup) : Prop :=
  ∀ i l, byGroup i = some l → ∃ g ∈ groups, i ∈ g.groupIds ∧ HitOf p hashBlockSize g.spec.blockSize blockHashes i l

variable {groups gs : List AttentionGroup} {useEagle : Bool} {lcmBlockSize curr curr' : ℕ}
  {byGroup byGroup' : HitBlocksByGroup}

lemma AllHits.set (h : AllHits p hashBlockSize blockHashes groups byGroup) (hp : p.Coherent)
    {g : AttentionGroup} (hg : g ∈ groups) (hne : g.groupIds ≠ []) (hnd : g.groupIds.Nodup)
    {maxLength : ℕ} {table : List (List BlockId)}
    (hok : lookupGroup p useEagle lcmBlockSize hashBlockSize blockHashes g maxLength = .ok table) :
    AllHits p hashBlockSize blockHashes groups (setHitBlocks byGroup g.groupIds table) := by
  unfold lookupGroup at hok
  rw [bind_eq_ok] at hok
  obtain ⟨hashes, hlist, hok⟩ := hok
  obtain ⟨n, -, hl⟩ := findLongestCacheHit_spec hp hne hok
  intro i l hi
  by_cases hmem : i ∈ g.groupIds
  · obtain ⟨l', hl', hhit⟩ := setHitBlocks_get byGroup hnd hl.hits hmem
    obtain rfl := some.inj (hi.symm.trans hl')
    exact ⟨g, hg, hmem, hashes, n, _, hlist, hhit⟩
  · rw [setHitBlocks_of_notMem hmem] at hi
    exact h i l hi

lemma hybridPass_allHits (hp : p.Coherent) (hgs : ∀ g ∈ gs, g ∈ groups)
    (hne : ∀ g ∈ groups, g.groupIds ≠ []) (hnd : ∀ g ∈ groups, g.groupIds.Nodup)
    (h : AllHits p hashBlockSize blockHashes groups byGroup)
    (hok : hybridPass p useEagle lcmBlockSize hashBlockSize blockHashes gs curr byGroup =
      .ok (curr', byGroup')) : AllHits p hashBlockSize blockHashes groups byGroup' := by
  induction gs generalizing curr byGroup with
  | nil =>
    simp only [hybridPass, ok.injEq, Prod.mk.injEq] at hok
    exact hok.2 ▸ h
  | cons g rest ih =>
    have hrest := fun g' hg' => hgs g' (mem_cons_of_mem g hg')
    by_cases hreused : Reused byGroup g
    · rw [hybridPass_reused hreused] at hok
      exact ih hrest h hok
    · rw [hybridPass_scanned hreused, bind_eq_ok] at hok
      obtain ⟨table, htable, hok⟩ := hok
      have hg := hgs g mem_cons_self
      exact ih hrest (h.set hp hg (hne g hg) (hnd g hg) htable) hok

lemma hybridIterate_allHits (hp : p.Coherent) (hne : ∀ g ∈ groups, g.groupIds ≠ [])
    (hnd : ∀ g ∈ groups, g.groupIds.Nodup) {isSimple : Bool} {fuel hit n : ℕ}
    (h : AllHits p hashBlockSize blockHashes groups byGroup)
    (hok : hybridIterate p useEagle lcmBlockSize hashBlockSize blockHashes groups isSimple fuel hit
      byGroup = .ok (n, byGroup')) : AllHits p hashBlockSize blockHashes groups byGroup' := by
  induction fuel generalizing hit byGroup with
  | zero => cases hok
  | succ fuel ih =>
    simp only [hybridIterate, bind_eq_ok, Prod.exists] at hok
    obtain ⟨curr, byGroup1, hpass, hok⟩ := hok
    have h₁ := hybridPass_allHits hp (fun g hg => hg) hne hnd h hpass
    split at hok
    · exact (ok_pair_inj hok).2 ▸ h₁
    · split at hok
      · exact (ok_pair_inj hok).2 ▸ h₁
      · exact ih h₁ hok

lemma AllHits.truncate (h : AllHits p hashBlockSize blockHashes groups byGroup) (n : ℕ) :
    AllHits p hashBlockSize blockHashes groups (truncateFullAttention groups n byGroup) := by
  cases groups with
  | nil => exact h
  | cons g rest =>
    intro i l hi
    by_cases hfirst : g.spec.isFullAttention = true ∧ i ∈ g.groupIds
    · rw [truncateFullAttention_first hfirst.1 hfirst.2] at hi
      obtain ⟨l', hl', rfl⟩ := map_eq_some_iff.mp hi
      obtain ⟨g', hg', hmem, hhit⟩ := h i l' hl'
      exact ⟨g', hg', hmem, hhit.take _⟩
    · rw [truncateFullAttention_other] at hi
      · exact h i l hi
      · by_cases hf : g.spec.isFullAttention = true
        · exact .inr fun hmem => hfirst ⟨hf, hmem⟩
        · exact .inl (Bool.not_eq_true _ ▸ hf)

theorem findLongestCacheHit_hitOf {specs : List KVCacheSpec} {enableCaching : Bool}
    {dcpWorldSize pcpWorldSize : ℕ} {spec : KVCacheSpec} {m : SingleTypeKVCacheManager}
    (hi : c.singleTypeManagers[i]? = some m) (hspec : specs[i]? = some spec)
    (hset : (new spec enableCaching i dcpWorldSize pcpWorldSize).SameSettings m)
    (hfits : KindFits c specs hashBlockSize dcpWorldSize pcpWorldSize) (hdcp : 0 < dcpWorldSize)
    (hpcp : 0 < pcpWorldSize) (hp : c.blockPool.Coherent) {max n : ℕ} {blocks : List (List BlockId)}
    (hok : c.findLongestCacheHit blockHashes max = .ok (blocks, n)) : blocksOfGroup blocks i = [] ∨
      HitOf c.blockPool hashBlockSize m.blockSize blockHashes i (blocksOfGroup blocks i) := by
  rw [hset.blockSize]
  unfold KindFits at hfits
  unfold findLongestCacheHit at hok
  cases hkind : c.kind with
  | noPrefixCache =>
    simp only [hkind, ok.injEq, Prod.mk.injEq] at hok
    obtain ⟨rfl, -⟩ := hok
    left
    unfold blocksOfGroup
    rw [List.getD_eq_getElem?_getD, List.getElem?_map, hi]
    rfl
  | unitary spec' blockSize dcp pcp =>
    simp only [hkind, bind_eq_ok, pure_eq_ok, ok.injEq, Prod.mk.injEq] at hok hfits
    obtain ⟨rfl, rfl, rfl, rfl, hbs⟩ := hfits
    obtain ⟨table, hfind, rfl, -⟩ := hok
    obtain rfl : i = 0 := by
      have := (List.getElem?_eq_some_iff.mp hspec).1
      simpa using this
    obtain rfl : spec' = spec := some.inj hspec
    obtain ⟨n, -, hl⟩ := findLongestCacheHit_spec hp (cons_ne_nil 0 []) hfind
    right
    have hrow : ∃ l, table = [l] ∧ Hit c.blockPool blockHashes n
        (spec'.lookupStart max n) 0 l := by
      cases hl.hits with
      | cons hhit hnil =>
        cases hnil
        exact ⟨_, rfl, hhit⟩
    obtain ⟨l, rfl, hhit⟩ := hrow
    refine ⟨blockHashes, n, _, ?_, hhit⟩
    have hsize : (new spec' enableCaching 0 dcp pcp).blockSize = blockSize := by
      rw [hbs]
      unfold new
      have h1 : (if dcp > 1 then dcp else 1) = dcp := by split <;> omega
      have h2 : (if pcp > 1 then pcp else 1) = pcp := by split <;> omega
      rw [h1, h2, Nat.mul_assoc]
      split
      · rfl
      · have : dcp * pcp = 1 := le_antisymm (not_lt.mp ‹_›) (Nat.mul_pos hdcp hpcp)
        rw [this, Nat.mul_one]
    unfold BlockPool.blockHashList
    rw [hsize, if_pos rfl]
    rfl
  | hybrid groups lcmBlockSize hbs =>
    simp only [hkind] at hok hfits
    obtain ⟨rfl, rfl, rfl, -, hsplit⟩ := hfits
    simp only [hybridFindLongestCacheHit, bind_eq_ok, pure_eq_ok, ok.injEq, Prod.mk.injEq, Prod.exists] at hok
    obtain ⟨hit, byGroup, hiter, rfl, -⟩ := hok
    have hall := (hybridIterate_allHits hp hsplit.split.ids_ne_nil hsplit.split.ids_nodup
      (fun _ _ h => by cases h) hiter).truncate hit
    have hlt : i < c.singleTypeManagers.length := (List.getElem?_eq_some_iff.mp hi).1
    have hrow : blocksOfGroup ((List.range c.singleTypeManagers.length).map fun i =>
        (truncateFullAttention groups hit byGroup i).getD []) i =
        (truncateFullAttention groups hit byGroup i).getD [] := by
      unfold blocksOfGroup
      rw [List.getD_eq_getElem?_getD, List.getElem?_map, List.getElem?_range hlt]
      rfl
    rw [hrow]
    cases hfound : truncateFullAttention groups hit byGroup i with
    | none => exact .inl rfl
    | some l =>
      right
      obtain ⟨g, hg, hmem, hhit⟩ := hall i l hfound
      obtain rfl : spec = g.spec := some.inj (hspec.symm.trans (hsplit.split.spec_eq g hg i hmem).2)
      exact hhit

end KVCacheCoordinator

end CustomAi.Vllm
