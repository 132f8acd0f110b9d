import CustomAi.Vllm.CacheHitSpec
import CustomAi.Vllm.LocalAttention

/-!
# Chunked local attention and its cache

A query token attends to the positions from the start of its chunk to itself.
-/

namespace CustomAi.Vllm

open List

variable {c bs width : ℤ} {m m' : CommonAttentionMetadata} {rs : List AttentionRequest}

lemma CommonAttentionMetadata.Of.attended_eq (h : m.Of rs) (bs : ℤ) :
    m.attended bs = rs.flatMap fun r => causalSlots bs r.queryLen r.seqLen r.blocks := by
  unfold CommonAttentionMetadata.attended
  rw [h.queryLens_eq, h.seqLens, h.blockTable, zip, zipWith_map_map, zipWith_map_map, flatMap_def]

variable {r : AttentionRequest}

lemma cacheSlot_localPiece (hbs : 0 < bs) (hdvd : bs ∣ c)
    (hr : r.Fits bs width) {a i : ℤ} (hi : 0 ≤ i) (hic : i < c)
    (hstart : 0 ≤ localStart c r.queryLen r.seqLen a) (hchunk : c ∣ localStart c r.queryLen r.seqLen a)
    (hlt : localStart c r.queryLen r.seqLen a + i < r.seqLen) : cacheSlot bs (localPiece c bs width r a).blocks i =
      cacheSlot bs r.blocks (localStart c r.queryLen r.seqLen a + i) := by
  obtain ⟨pages, rfl⟩ := hdvd
  obtain ⟨chunk, hchunk⟩ := hchunk
  rw [mul_assoc] at hchunk
  set start := localStart (bs * pages) r.queryLen r.seqLen a with hs
  have hpage : (start + i) / bs = start / bs + i / bs := by
    rw [hchunk, Int.mul_add_ediv_left _ _ hbs.ne', Int.mul_ediv_cancel_left _ hbs.ne']
  have hpages : (bs * pages).fdiv bs = pages := Int.mul_fdiv_cancel_left _ hbs.ne'
  have hipage : 0 ≤ i / bs ∧ i / bs < pages := by
    refine ⟨Int.ediv_nonneg hi hbs.le, (Int.ediv_lt_iff_lt_mul hbs).mpr ?_⟩
    rw [mul_comm]
    exact hic
  have hwidth : (start + i) / bs < width := (Int.ediv_lt_iff_lt_mul hbs).mpr (hlt.trans_le hr.seqLen_le)
  have hstartPage : 0 ≤ start / bs := Int.ediv_nonneg hstart hbs.le
  have hlocal : localPage (bs * pages) bs width r a (i / bs) = (start + i) / bs := by
    unfold localPage
    rw [← hs, Int.fdiv_eq_ediv_of_nonneg _ hbs.le, hpage]
    exact min_eq_left (by omega)
  have hget : pyGet? (localPiece (bs * pages) bs width r a).blocks (i / bs) =
      pyGet? r.blocks ((start + i) / bs) := by
    obtain ⟨k, hk⟩ := Int.eq_ofNat_of_zero_le hipage.1
    have hrow : ((start + i) / bs : ℤ) < r.blocks.length := by
      rw [hr.length_eq]
      exact hwidth
    rw [pyGet?_eq_some (by omega) hrow, ← hlocal, hk, pyGet?_natCast]
    unfold localPiece npArange
    rw [map_map, getElem?_map, getElem?_range (by omega)]
    rfl
  have hoffset : (start + i) % bs = i % bs := by
    rw [hchunk, Int.mul_add_emod_self_left]
  unfold cacheSlot
  rw [hget, hoffset]

lemma causalSlots_pieces (hc : 0 < c) (hbs : 0 < bs) (hdvd : bs ∣ c)
    (hr : r.Fits bs width) (hle : r.queryLen ≤ r.seqLen) : ((npArange (r.numLocal c)).flatMap fun a =>
      causalSlots bs (localPiece c bs width r a).queryLen (localPiece c bs width r a).seqLen
        (localPiece c bs width r a).blocks) = (npArange r.queryLen).map fun j =>
      chunkSlots c bs r.blocks (r.seqLen - r.queryLen + j) := by
  obtain ⟨k, start, hcut⟩ := cutFacts (s := r.seqLen) hc hr.queryLen_pos
  have hnonneg : 0 ≤ r.numLocal c := by
    have hk := hcut.nonneg
    have hblocks : r.numLocal c = k + 1 := hcut.blocks
    omega
  have hpiece : ∀ a, 0 ≤ a → a < r.numLocal c →
      causalSlots bs (localPiece c bs width r a).queryLen (localPiece c bs width r a).seqLen
        (localPiece c bs width r a).blocks =
      (npArange (localQueryLen c r.queryLen r.seqLen a)).map fun j => chunkSlots c bs r.blocks
        (r.seqLen - r.queryLen + (queryOffset c r.queryLen r.seqLen a + j)) := by
    intro a ha halt
    refine map_congr_left fun j hj => ?_
    obtain ⟨hj0, hjlt⟩ := mem_npArange.mp hj
    obtain ⟨hchunk, hkeys, hps, hlen⟩ := hcut.local_eq hc ha halt hj0 hjlt
    have hstart := localStart_nonneg hc hr.queryLen_pos hle ha
    unfold chunkSlots
    dsimp only [localPiece]
    rw [hkeys, ← hchunk]
    refine map_congr_left fun i hi => ?_
    obtain ⟨hi0, hilt⟩ := mem_npArange.mp hi
    refine cacheSlot_localPiece hbs hdvd hr hi0 ?_ hstart ?_ (by omega)
    · change j < localQueryLen c r.queryLen r.seqLen a at hjlt
      omega
    · rw [hchunk]
      exact Dvd.intro_left _ rfl
  have hoffset := flatMap_npArange
    (fun j => chunkSlots c bs r.blocks (r.seqLen - r.queryLen + j))
    (queryOffset c r.queryLen r.seqLen) (localQueryLen c r.queryLen r.seqLen) hnonneg
    (if_pos le_rfl) fun a ha halt => by
      obtain ⟨hoff, hpos, hnext⟩ := hcut.queryOffset_succ hc ha halt
      exact ⟨hoff, hpos.le, hnext⟩
  have hlast : queryOffset c r.queryLen r.seqLen (r.numLocal c) = r.queryLen := hcut.queryOffset_last
  rw [hlast] at hoffset
  rw [← hoffset]
  refine flatMap_congr fun a ha => ?_
  obtain ⟨ha0, halt⟩ := mem_npArange.mp ha
  exact hpiece a ha0 halt

lemma sum_localQueryLen (hc : 0 < c) (hq : 0 < r.queryLen) :
    ((npArange (r.numLocal c)).map (localQueryLen c r.queryLen r.seqLen)).sum = r.queryLen := by
  obtain ⟨k, start, hcut⟩ := cutFacts (s := r.seqLen) hc hq
  have hsum : ∀ n : ℕ, (n : ℤ) ≤ r.numLocal c → ((npArange n).map (localQueryLen c r.queryLen r.seqLen)).sum =
        queryOffset c r.queryLen r.seqLen n := by
    intro n
    induction n with
    | zero => exact fun _ => rfl
    | succ n ih =>
      intro hn
      have hn0 : (0 : ℤ) ≤ n := Int.natCast_nonneg n
      push_cast at hn ⊢
      obtain ⟨-, -, hnext⟩ := hcut.queryOffset_succ hc hn0 (by
        change (n : ℤ) < r.numLocal c
        omega)
      rw [npArange_succ hn0, map_append, sum_append, ih (by omega), hnext, map_singleton, sum_singleton]
  have hnonneg : 0 ≤ r.numLocal c := by
    have hk := hcut.nonneg
    have hblocks : r.numLocal c = k + 1 := hcut.blocks
    omega
  obtain ⟨n, hn⟩ := Int.eq_ofNat_of_zero_le hnonneg
  rw [hn, hsum n hn.ge, ← hn]
  exact hcut.queryOffset_last

lemma makeLocalAttentionVirtualBatches_attended (hm : m.Of rs) (hne : rs ≠ []) (hc : 0 < c)
    (hbs : 0 < bs) (hdvd : bs ∣ c) (hrs : ∀ r ∈ rs, r.Fits bs width) (hle : ∀ r ∈ rs, r.queryLen ≤ r.seqLen) :
    ∃ m', makeLocalAttentionVirtualBatches c m bs = .ok m' ∧
      (∃ pieces : List (List ℤ), m'.queryLens = pieces.flatten ∧
        (∀ piece ∈ pieces, ∀ n ∈ piece, 0 < n) ∧ pieces.map sum = m.queryLens) ∧
      m'.attended bs = rs.flatMap fun r => (npArange r.queryLen).map fun j =>
        chunkSlots c bs r.blocks (r.seqLen - r.queryLen + j) := by
  have hwidth : 0 < width := by
    obtain ⟨r, hr⟩ := exists_mem_of_ne_nil rs hne
    have hpos := (hrs r hr).queryLen_pos
    have hseq := (hrs r hr).seqLen_le
    have hq := hle r hr
    by_contra hneg
    have hmul : width * bs ≤ 0 := Int.mul_nonpos_of_nonpos_of_nonneg (by omega) hbs.le
    omega
  obtain ⟨m', hok, hof⟩ := makeLocalAttentionVirtualBatches_of hm hne hc hbs hdvd hrs hwidth hle
  refine ⟨m', hok, ⟨rs.map fun r => (npArange (r.numLocal c)).map
    (localQueryLen c r.queryLen r.seqLen), ?_, ?_, ?_⟩, ?_⟩
  · rw [hof.queryLens_eq]
    unfold localRequests
    rw [map_grouped]
    rfl
  · intro piece hpiece n hn
    obtain ⟨r, hr, rfl⟩ := mem_map.mp hpiece
    obtain ⟨a, ha, rfl⟩ := mem_map.mp hn
    obtain ⟨ha0, halt⟩ := mem_npArange.mp ha
    obtain ⟨k, start, hcut⟩ := cutFacts (s := r.seqLen) hc (hrs r hr).queryLen_pos
    exact (hcut.queryOffset_succ hc ha0 halt).2.1
  · rw [hm.queryLens_eq, map_map]
    refine map_congr_left fun r hr => ?_
    exact sum_localQueryLen hc (hrs r hr).queryLen_pos
  · rw [hof.attended_eq]
    unfold localRequests grouped
    rw [flatMap_assoc]
    refine flatMap_congr fun r hr => ?_
    rw [flatMap_map]
    exact causalSlots_pieces hc hbs hdvd (hrs r hr) (hle r hr)

/-- The blocks of a request from the first token on that the manager does not skip are not null. -/
def SingleTypeKVCacheManager.Holds (self : SingleTypeKVCacheManager) (bs : ℤ)
    (r : AttentionRequest) : Prop :=
  ∀ i : ℤ, self.getNumSkippedTokens (r.seqLen - r.queryLen).toNat ≤ i → i < r.seqLen →
    ∃ b, pyGet? r.blocks (i / bs) = some b ∧ b ≠ nullBlock

variable {attn : AttentionSpec} {self : SingleTypeKVCacheManager}

lemma chunkSlots_ne_null {c : ℕ} (hspec : self.kvCacheSpec = .chunkedLocalAttention attn c)
    (hc : 0 < c) (hr : self.Holds bs r) (hle : r.queryLen ≤ r.seqLen) {j : ℤ} (hj : 0 ≤ j)
    (hlt : j < r.queryLen) {slot : Option BlockId × ℤ}
    (hslot : slot ∈ chunkSlots c bs r.blocks (r.seqLen - r.queryLen + j)) :
    ∃ b, slot.1 = some b ∧ b ≠ nullBlock := by
  obtain ⟨i, hi, rfl⟩ := mem_map.mp hslot
  obtain ⟨hi0, hilt⟩ := mem_npArange.mp hi
  refine hr _ ?_ (by omega)
  unfold SingleTypeKVCacheManager.getNumSkippedTokens
  rw [hspec]
  dsimp only
  have hcast : (((r.seqLen - r.queryLen).toNat / c * c : ℕ) : ℤ) = (r.seqLen - r.queryLen) / c * c := by
    push_cast
    rw [Int.toNat_of_nonneg (by omega)]
  have hmono : (r.seqLen - r.queryLen) / c ≤ (r.seqLen - r.queryLen + j) / c :=
    Int.ediv_le_ediv (by omega) (by omega)
  have hmul : (r.seqLen - r.queryLen) / c * c ≤ (r.seqLen - r.queryLen + j) / c * c :=
    Int.mul_le_mul_of_nonneg_right hmono (by omega)
  omega

variable {p : BlockPool} {hashes : List BlockHash} {groupIds : List ℕ}

/-- The positions in `[start, stop)` are in cached blocks, and none of these is null. -/
def CachedBetween (p : BlockPool) (hashes : List BlockHash) (blockSize start stop groupId : ℕ)
    (l : List BlockId) : Prop :=
  ∀ i, start ≤ i → i < stop → ∃ b h, l[i / blockSize]? = some b ∧ b ≠ nullBlock ∧
    hashes[i / blockSize]? = some h ∧ p.hashOf b = some (h ++ groupIdBytes groupId)

lemma chunkedLocalAttention_lookup (h : p.Coherent) {c blockSize maxLength : ℕ} (hc : 0 < c)
    (hdvd : blockSize ∣ c) (hids : ∀ g ∈ groupIds, g < 2 ^ 32) (hlen : maxLength / blockSize ≤ hashes.length) :
    ∃ table n, chunkedLocalAttentionFindLongestCacheHit hashes maxLength groupIds p blockSize c
        false blockSize 1 1 = .ok table ∧ n * blockSize ≤ maxLength ∧ List.Forall₂ (fun g l => l.length = n ∧
        CachedBetween p hashes blockSize (n * blockSize / c * c) (n * blockSize) g l) groupIds table := by
  obtain ⟨computed, hscan⟩ := scanCachedBlocks_isOk p ((hashes.take (maxLength / blockSize)).drop
    (maxLength / c * c / blockSize)) hids
  have hok : chunkedLocalAttentionFindLongestCacheHit hashes maxLength groupIds p blockSize c
      false blockSize 1 1 = .ok (computed.map
        (replicate (maxLength / c * c / blockSize) nullBlock ++ ·)) := by
    unfold chunkedLocalAttentionFindLongestCacheHit
    dsimp only
    rw [ensure_of rfl, ensure_of rfl, ensure_of rfl, ensure_of rfl, hscan]
    simp only [ok_bind]
    rw [ensure_of (.inr (.inl hlen))]
    rfl
  obtain ⟨-, n, hlookup⟩ := chunkedLocalAttentionFindLongestCacheHit_spec h hok
  refine ⟨_, n, hok, hlookup.le_maxLength, ?_⟩
  have hdvdStart : blockSize ∣ maxLength / c * c := Dvd.dvd.mul_left hdvd _
  have hrow : ∀ g l, Hit p hashes n (maxLength / c * c / blockSize) g l ∧
      maxLength / c * c / blockSize ≤ l.length → l.length = n ∧
        CachedBetween p hashes blockSize (n * blockSize / c * c) (n * blockSize) g l := by
    rintro g l ⟨hit, hfirst⟩
    refine ⟨hit.length_eq, fun i hi hilt => ?_⟩
    rw [hit.length_eq] at hfirst
    -- the hit ends in the chunk where the lookup starts
    have hstart : maxLength / c * c ≤ n * blockSize := by
      rw [← Nat.div_mul_cancel hdvdStart]
      exact Nat.mul_le_mul_right _ hfirst
    have hchunk : maxLength / c ≤ n * blockSize / c := (Nat.le_div_iff_mul_le hc).mpr hstart
    have hpage : i / blockSize < n := Nat.div_lt_of_lt_mul (by rwa [Nat.mul_comm])
    have hfirstPage : maxLength / c * c / blockSize ≤ i / blockSize :=
      Nat.div_le_div_right ((Nat.mul_le_mul_right c hchunk).trans hi)
    have hlt : i / blockSize < l.length := hpage.trans_eq hit.length_eq.symm
    have hget := getElem?_eq_getElem hlt
    have hne := hit.ne_null _ _ hfirstPage hget
    obtain ⟨hash, hhash, hcached⟩ := hit.cached _ _ hget hne
    exact ⟨_, hash, hget, hne, hhash, hcached⟩
  have hfirst : ∀ l ∈ computed.map
      (replicate (maxLength / c * c / blockSize) nullBlock ++ ·),
      maxLength / c * c / blockSize ≤ l.length := by
    intro l hl
    obtain ⟨l', -, rfl⟩ := mem_map.mp hl
    rw [length_append, length_replicate]
    exact Nat.le_add_right _ _
  obtain ⟨hrows, hits⟩ := forall₂_iff_zip.mp hlookup.hits
  refine forall₂_iff_zip.mpr ⟨hrows, fun hmem => hrow _ _ ⟨hits hmem, ?_⟩⟩
  exact hfirst _ (of_mem_zip hmem).2

lemma CachedBetween.holds {c : ℕ} (hspec : self.kvCacheSpec = .chunkedLocalAttention attn c)
    {blockSize n groupId : ℕ} {l news pad : List BlockId} (hbs : 0 < blockSize)
    (hl : CachedBetween p hashes blockSize (n * blockSize / c * c) (n * blockSize) groupId l)
    (hlen : l.length = n) (hnews : ∀ b ∈ news, b ≠ nullBlock)
    (hblocks : r.blocks = l ++ news ++ pad) (hq : r.seqLen - r.queryLen = (n * blockSize : ℕ))
    (hseq : r.seqLen ≤ ((n + news.length) * blockSize : ℕ)) : self.Holds blockSize r := by
  intro i hi hlt
  unfold SingleTypeKVCacheManager.getNumSkippedTokens at hi
  rw [hspec, hq] at hi
  obtain ⟨i, rfl⟩ := Int.eq_ofNat_of_zero_le ((Int.natCast_nonneg _).trans hi)
  have hi' : n * blockSize / c * c ≤ i := Int.ofNat_le.mp hi
  have hpage : i / blockSize < n + news.length := by
    refine Nat.div_lt_of_lt_mul ?_
    rw [Nat.mul_comm]
    exact_mod_cast hlt.trans_le hseq
  rw [← Int.natCast_ediv, pyGet?_natCast, hblocks,
    getElem?_append_left (by rw [length_append, hlen]; exact hpage)]
  by_cases hin : i < n * blockSize
  · obtain ⟨b, -, hget, hne, -, -⟩ := hl i hi' hin
    have hfront : i / blockSize < n := Nat.div_lt_of_lt_mul (by rwa [Nat.mul_comm])
    rw [getElem?_append_left (hfront.trans_eq hlen.symm)]
    exact ⟨b, hget, hne⟩
  · have hback : n ≤ i / blockSize := (Nat.le_div_iff_mul_le hbs).mpr (not_lt.mp hin)
    rw [getElem?_append_right (hlen.le.trans hback), hlen]
    have hnew : i / blockSize - n < news.length := by omega
    exact ⟨_, getElem?_eq_getElem hnew, hnews _ (getElem_mem hnew)⟩

/-- Chunked local attention sees exactly its chunk, and with hit and new blocks never reads a null
block. -/
theorem chunkedLocalAttention_sees_chunk (self : SingleTypeKVCacheManager) (attn : AttentionSpec)
    (c : ℕ) (hspec : self.kvCacheSpec = .chunkedLocalAttention attn c) (hc : 0 < c)
    (hbs : 0 < attn.blockSize) (hdvd : attn.blockSize ∣ c) :
    (∀ (m : CommonAttentionMetadata) (rs : List AttentionRequest) (width : ℤ), m.Of rs → rs ≠ [] →
      (∀ r ∈ rs, r.Fits attn.blockSize width ∧ r.queryLen ≤ r.seqLen) →
      ∃ m', makeLocalAttentionVirtualBatches c m attn.blockSize = .ok m' ∧
        (∃ pieces : List (List ℤ), m'.queryLens = pieces.flatten ∧
          (∀ piece ∈ pieces, ∀ n ∈ piece, 0 < n) ∧ pieces.map List.sum = m.queryLens) ∧
        (m'.attended attn.blockSize = rs.flatMap fun r => (npArange r.queryLen).map fun j =>
          chunkSlots c attn.blockSize r.blocks (r.seqLen - r.queryLen + j)) ∧
        ((∀ r ∈ rs, self.Holds attn.blockSize r) → ∀ slots ∈ m'.attended attn.blockSize, ∀ slot ∈ slots,
            ∃ b, slot.1 = some b ∧ b ≠ nullBlock)) ∧
    ∀ (p : BlockPool) (hashes : List BlockHash) (maxLength : ℕ) (groupIds : List ℕ), p.Coherent →
      (∀ g ∈ groupIds, g < 2 ^ 32) → maxLength / attn.blockSize ≤ hashes.length →
      ∃ table n, chunkedLocalAttentionFindLongestCacheHit hashes maxLength groupIds p
          attn.blockSize c false attn.blockSize 1 1 = .ok table ∧ n * attn.blockSize ≤ maxLength ∧
        List.Forall₂ (fun g l => l.length = n ∧ CachedBetween p hashes attn.blockSize
          (n * attn.blockSize / c * c) (n * attn.blockSize) g l) groupIds table ∧
        ∀ l ∈ table, ∀ (r : AttentionRequest) (news pad : List BlockId),
          r.blocks = l ++ news ++ pad → (∀ b ∈ news, b ≠ nullBlock) →
          r.seqLen - r.queryLen = (n * attn.blockSize : ℕ) →
          r.seqLen ≤ ((n + news.length) * attn.blockSize : ℕ) → self.Holds attn.blockSize r := by
  constructor
  · intro m rs width hm hne hrs
    have hdvd' : (attn.blockSize : ℤ) ∣ c := by exact_mod_cast hdvd
    obtain ⟨m', hok, hpieces, hatt⟩ := makeLocalAttentionVirtualBatches_attended hm hne
      (by omega) (by omega) hdvd' (fun r hr => (hrs r hr).1) fun r hr => (hrs r hr).2
    refine ⟨m', hok, hpieces, hatt, fun hheld slots hslots slot hslot => ?_⟩
    rw [hatt] at hslots
    obtain ⟨r, hr, hslots⟩ := mem_flatMap.mp hslots
    obtain ⟨j, hj, rfl⟩ := mem_map.mp hslots
    obtain ⟨hj0, hlt⟩ := mem_npArange.mp hj
    exact chunkSlots_ne_null hspec hc (hheld r hr) (hrs r hr).2 hj0 hlt hslot
  · intro p hashes maxLength groupIds hcoh hids hlen
    obtain ⟨table, n, hok, hle, hrows⟩ := chunkedLocalAttention_lookup hcoh hc hdvd hids hlen
    refine ⟨table, n, hok, hle, hrows, fun l hl r news pad hblocks hnews hq hseq => ?_⟩
    obtain ⟨g, hg⟩ : ∃ g, (l.length = n ∧ CachedBetween p hashes attn.blockSize
        (n * attn.blockSize / c * c) (n * attn.blockSize) g l) := by
      obtain ⟨k, hk, rfl⟩ := getElem_of_mem hl
      exact ⟨_, hrows.get (hrows.length_eq.symm ▸ hk) hk⟩
    exact hg.2.holds hspec hbs hg.1 hnews hblocks hq hseq

def halfSpec : AttentionSpec := ⟨2, 1, 1, ⟨"half", 2⟩, none⟩

def chunkManager : SingleTypeKVCacheManager :=
  ⟨.chunkedLocalAttention halfSpec 4, 2, true, 0, Dict.empty, Dict.empty, Dict.empty, ∅⟩

/-- Three blocks of a request are cached. -/
def threeCached : Except PyError BlockPool :=
  (BlockPool.new 5 true 2 false false).bind (runSteps BlockPool.step · [.getNewBlocks 3, .cacheFullBlocks
    { requestId := "a", promptTokenIds := none, numPromptTokens := 6, allTokenIds := [0, 0, 0, 0, 0, 0]
      samplingParams := ⟨1, 0, false, []⟩, maxTokens := 1, blockHashes := [[1], [2], [3]] }
    [1, 2, 3] 0 3 2 0])

/-- One request with query tokens at positions 2 to 4 in chunks of 4 and blocks of 2, and one that
finds the third of three cached blocks and goes on with block 4. -/
theorem chunkedLocalAttention_sees_chunk_small :
    (∃ m', makeLocalAttentionVirtualBatches 4 ⟨[0, 3], [5], 1, 3, 3, 5, [[5, 6, 7]], [], true, [2]⟩
        2 = .ok m' ∧ m'.attended 2 = [[(some 5, 0), (some 5, 1), (some 6, 0)],
        [(some 5, 0), (some 5, 1), (some 6, 0), (some 6, 1)], [(some 7, 0)]]) ∧
    ∃ p, threeCached = .ok p ∧ chunkedLocalAttentionFindLongestCacheHit [[1], [2], [3]] 7 [0] p 2 4
        false 2 1 1 = .ok [[nullBlock, nullBlock, 3]] ∧
      chunkManager.Holds 2 ⟨2, 8, [nullBlock, nullBlock, 3, 4]⟩ := by
  obtain ⟨hbatch, hlookup⟩ := chunkedLocalAttention_sees_chunk chunkManager halfSpec 4 rfl
    (by decide) (by decide) (by decide)
  constructor
  · obtain ⟨m', hok, -, hatt, -⟩ := hbatch
      ⟨[0, 3], [5], 1, 3, 3, 5, [[5, 6, 7]], [], true, [2]⟩ [⟨3, 5, [5, 6, 7]⟩] 3
      ⟨by decide, rfl, rfl⟩ (by decide) fun r hr => by
        obtain rfl := mem_singleton.mp hr
        exact ⟨⟨by decide, by decide, by decide⟩, by decide⟩
    refine ⟨m', hok, hatt.trans ?_⟩
    decide
  · obtain ⟨p, hp⟩ := exists_eq_ok_of_isOk (x := threeCached) (by decide)
    have hhit : (threeCached.bind fun p => chunkedLocalAttentionFindLongestCacheHit [[1], [2], [3]]
        7 [0] p 2 4 false 2 1 1) = .ok [[nullBlock, nullBlock, 3]] := by decide
    rw [hp] at hhit
    obtain ⟨table, n, hok, -, hrows, hholds⟩ := hlookup p [[1], [2], [3]] 7 [0]
      (BlockPool.coherent_of_run hp) (by decide) (by decide)
    obtain rfl := Except.ok.inj (hok.symm.trans hhit)
    obtain rfl : 3 = n := (forall₂_cons.mp hrows).1.1
    exact ⟨p, hp, hhit, hholds _ mem_cons_self ⟨2, 8, [nullBlock, nullBlock, 3, 4]⟩ [4] [] rfl (by decide)
      (by decide) (by decide)⟩

end CustomAi.Vllm
