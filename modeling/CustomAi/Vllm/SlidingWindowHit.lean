import CustomAi.Vllm.CacheHitSpec

/-!
# The longest sliding window hit

The right-to-left search finds the greatest aligned number of blocks whose last window is cached
for every group, and returns the cached blocks of this window only.
-/

namespace CustomAi.Vllm

open List

def cachedBlockAt (p : BlockPool) (hashes : List BlockHash) (groupId i : ℕ) : Option BlockId :=
  hashes[i]?.bind fun h => p.cachedBlockHashToBlock.getOneBlock (h ++ groupIdBytes groupId)

def CachedAt (p : BlockPool) (hashes : List BlockHash) (groupIds : List ℕ) (i : ℕ) : Prop :=
  ∀ g ∈ groupIds, (cachedBlockAt p hashes g i).isSome

/-- An aligned number of blocks, of which the last `window` ones are cached. -/
structure WindowHit (p : BlockPool) (hashes : List BlockHash) (groupIds : List ℕ)
    (blockSize alignmentTokens window maxNumBlocks n : ℕ) : Prop where
  le : n ≤ maxNumBlocks
  aligned : n * blockSize % alignmentTokens = 0
  cached : ∀ i, n - window ≤ i → i < n → CachedAt p hashes groupIds i

/-- The last `window` of `n` blocks, after null blocks. -/
def windowRow (p : BlockPool) (hashes : List BlockHash) (window n groupId : ℕ) : List BlockId :=
  (List.range n).map fun i =>
    if i < n - window then nullBlock else (cachedBlockAt p hashes groupId i).getD nullBlock

def windowTable (p : BlockPool) (hashes : List BlockHash) (groupIds : List ℕ) (window n : ℕ) :
    List (List BlockId) := groupIds.map (windowRow p hashes window n)

variable {p : BlockPool} {hashes : List BlockHash} {groupIds : List ℕ}
  {blockSize alignmentTokens contiguous maxNumBlocks : ℕ}

variable {i : ℕ} (window : ℕ) (marked : ℕ → Bool) (n groupId : ℕ)

lemma getCachedBlock_eq (hids : ∀ g ∈ groupIds, g < 2 ^ 32) {blockHash : BlockHash}
    (hget : hashes[i]? = some blockHash) : p.getCachedBlock blockHash groupIds =
      .ok (groupIds.mapM fun g => cachedBlockAt p hashes g i) := by
  induction groupIds with
  | nil => rfl
  | cons g rest ih =>
    have hkey : makeBlockHashWithGroupId blockHash g = .ok (blockHash ++ groupIdBytes g) :=
      BlockPool.makeBlockHashWithGroupId_eq_ok.mpr ⟨hids g mem_cons_self, rfl⟩
    have hblock : cachedBlockAt p hashes g i =
        p.cachedBlockHashToBlock.getOneBlock (blockHash ++ groupIdBytes g) := by
      unfold cachedBlockAt
      rw [hget]
      rfl
    unfold BlockPool.getCachedBlock
    rw [hkey, ok_bind, ih fun g' hg' => hids g' (mem_cons_of_mem g hg'), mapM_cons, hblock]
    cases p.cachedBlockHashToBlock.getOneBlock (blockHash ++ groupIdBytes g) with
    | none => rfl
    | some b =>
      cases rest.mapM fun g => cachedBlockAt p hashes g i <;> rfl

def blockAt (p : BlockPool) (hashes : List BlockHash) (i groupId : ℕ) : BlockId :=
  (cachedBlockAt p hashes groupId i).getD nullBlock

lemma mapM_cachedBlockAt (h : CachedAt p hashes groupIds i) :
    (groupIds.mapM fun g => cachedBlockAt p hashes g i) = some (groupIds.map (blockAt p hashes i)) := by
  induction groupIds with
  | nil => rfl
  | cons g rest ih =>
    obtain ⟨b, hb⟩ := Option.isSome_iff_exists.mp (h g mem_cons_self)
    rw [mapM_cons, ih fun g' hg' => h g' (mem_cons_of_mem g hg'), map_cons]
    unfold blockAt
    rw [hb]
    rfl

lemma mapM_cachedBlockAt_none (h : ¬ CachedAt p hashes groupIds i) :
    (groupIds.mapM fun g => cachedBlockAt p hashes g i) = none := by
  induction groupIds with
  | nil => exact absurd nofun h
  | cons g rest ih =>
    rw [mapM_cons]
    cases hb : cachedBlockAt p hashes g i with
    | none => rfl
    | some b =>
      rw [ih fun hrest => h fun g' hg' => ?_]
      · rfl
      · rcases mem_cons.mp hg' with rfl | hg'
        · rw [hb]
          rfl
        · exact hrest g' hg'

def markedRow (p : BlockPool) (hashes : List BlockHash) (marked : ℕ → Bool) (n groupId : ℕ) :
    List BlockId :=
  (List.range n).map fun j => if marked j then blockAt p hashes j groupId else nullBlock

lemma markedRow_set (i groupId : ℕ) : (markedRow p hashes marked n groupId).set i (blockAt p hashes i groupId) =
      markedRow p hashes (fun j => marked j || decide (j = i)) n groupId := by
  unfold markedRow
  refine ext_getElem? fun j => ?_
  rw [getElem?_set, getElem?_map, getElem?_map, length_map, length_range]
  by_cases hij : i = j
  · subst hij
    by_cases hi : i < n
    · rw [if_pos hi, getElem?_range hi]
      simp
    · rw [if_pos rfl, if_neg hi, getElem?_eq_none (by simpa using hi)]
      rfl
  · rw [if_neg hij]
    by_cases hj : j < n
    · rw [getElem?_range hj]
      simp [Ne.symm hij]
    · rw [getElem?_eq_none (by simpa using hj)]
      rfl

lemma zipWith_set_markedRow (i : ℕ) : zipWith (fun computed cached => computed.set i cached)
      (groupIds.map (markedRow p hashes marked n)) (groupIds.map (blockAt p hashes i)) =
        groupIds.map (markedRow p hashes (fun j => marked j || decide (j = i)) n) := by
  rw [zipWith_map, zipWith_self]
  exact map_congr_left fun g _ => markedRow_set marked n i g

lemma take_markedRow {marked : ℕ → Bool} {window n k groupId : ℕ} (hk : k ≤ n)
    (hmarked : ∀ j < k, marked j = decide (k - window ≤ j)) :
    (markedRow p hashes marked n groupId).take k = windowRow p hashes window k groupId := by
  unfold markedRow windowRow
  rw [← map_take, take_range, min_eq_left hk]
  refine map_congr_left fun j hj => ?_
  rw [hmarked j (mem_range.mp hj)]
  by_cases hlt : j < k - window
  · rw [if_pos hlt, decide_eq_false (by omega), if_neg Bool.false_ne_true]
  · rw [if_neg hlt, decide_eq_true (by omega)]
    rfl

/-- A whole window is found, or the first blocks are a hit, and no greater number is. -/
theorem slidingWindowLoop_eq (hne : groupIds ≠ []) (hids : ∀ g ∈ groupIds, g < 2 ^ 32)
    (hlen : maxNumBlocks ≤ hashes.length) {num : ℕ} {marked : ℕ → Bool}
    (hle : i + num ≤ maxNumBlocks) (hmarked : ∀ j, marked j = true → i ≤ j)
    (hrun : ∀ j, i ≤ j → j < i + num → marked j = true ∧ CachedAt p hashes groupIds j)
    (hnum : 0 < num → (i + num) * blockSize % alignmentTokens = 0 ∧ num < contiguous)
    (hmax : ∀ n, i + num < n → ¬ WindowHit p hashes groupIds blockSize alignmentTokens
      (max 1 contiguous) maxNumBlocks n) :
    ∃ n, IsGreatest (WindowHit p hashes groupIds blockSize alignmentTokens (max 1 contiguous) maxNumBlocks) n ∧
      ∃ table num' found, slidingWindowLoop hashes groupIds p blockSize alignmentTokens contiguous
          i num (groupIds.map (markedRow p hashes marked maxNumBlocks)) = .ok (table, num', found) ∧
        if found then table = windowTable p hashes groupIds (max 1 contiguous) n
        else num' = n ∧ table.map (·.take n) = windowTable p hashes groupIds (max 1 contiguous) n := by
  induction i generalizing num marked with
  | zero =>
    refine ⟨num, ⟨⟨by omega, ?_, fun j _ hj => (hrun j (by omega) (by omega)).2⟩, ?_⟩, ?_⟩
    · rcases Nat.eq_zero_or_pos num with rfl | hpos
      · simp
      · simpa using (hnum hpos).1
    · intro n hn
      by_contra hlt
      exact hmax n (by omega) hn
    · refine ⟨_, num, false, rfl, ?_⟩
      refine ⟨rfl, ?_⟩
      unfold windowTable
      rw [map_map]
      refine map_congr_left fun g _ => take_markedRow (by omega) fun j hj => ?_
      rw [(hrun j (by omega) (by omega)).1, decide_eq_true]
      rcases Nat.eq_zero_or_pos num with rfl | hpos
      · omega
      · have := (hnum hpos).2
        omega
  | succ i ih =>
    have hget : hashes[i]? = some hashes[i] := getElem?_eq_getElem (by omega)
    unfold slidingWindowLoop
    simp only [hget, getCachedBlock_eq hids hget, ok_bind]
    by_cases hcached : CachedAt p hashes groupIds i
    · rw [mapM_cachedBlockAt hcached]
      cases hrow : groupIds.map (blockAt p hashes i) with
      | nil => exact absurd (map_eq_nil_iff.mp hrow) hne
      | cons b row =>
        dsimp only
        rw [← hrow, zipWith_set_markedRow]
        split
        · next hskip =>
          obtain ⟨rfl, -, hunaligned⟩ := hskip
          refine ih (by omega) (fun j hj => by have := hmarked j hj; omega)
            (fun j h1 h2 => by omega) (fun h => by omega) fun n hn hhit => ?_
          rcases Nat.lt_or_eq_of_le (Nat.succ_le_of_lt hn) with hlt | rfl
          · exact hmax n hlt hhit
          · exact hunaligned hhit.aligned
        · next hkeep =>
          have hmarked' : ∀ j, (marked j || decide (j = i)) = true → i ≤ j := by
            intro j hj
            rw [Bool.or_eq_true, decide_eq_true_eq] at hj
            exact hj.elim (fun h => by have := hmarked j h; omega) fun h => by omega
          have hrun' : ∀ j, i ≤ j → j < i + (num + 1) → (marked j || decide (j = i)) = true ∧
              CachedAt p hashes groupIds j := by
            intro j h1 h2
            rcases Nat.eq_or_lt_of_le h1 with rfl | hlt
            · exact ⟨by simp, hcached⟩
            · obtain ⟨hm, hc⟩ := hrun j hlt (by omega)
              exact ⟨by rw [hm]; rfl, hc⟩
          have haligned : (i + (num + 1)) * blockSize % alignmentTokens = 0 := by
            rcases Nat.eq_zero_or_pos num with rfl | hpos
            · by_contra hmod
              by_cases hbs : blockSize = alignmentTokens
              · rw [hbs] at hmod
                exact hmod (Nat.mul_mod_left _ _)
              · exact hkeep ⟨rfl, hbs, hmod⟩
            · rw [← (hnum hpos).1]
              congr 2
              omega
          have hmax' : ∀ n, i + (num + 1) < n → ¬ WindowHit p hashes groupIds blockSize
              alignmentTokens (max 1 contiguous) maxNumBlocks n := fun n hn => hmax n (by omega)
          split
          · next henough =>
            have hwindow : max 1 contiguous = num + 1 := by
              rcases Nat.eq_zero_or_pos num with rfl | hpos
              · omega
              · omega
            refine ⟨i + (num + 1), ⟨⟨by omega, haligned, fun j h1 h2 => ?_⟩, fun n hn => ?_⟩, _, _, true, rfl, ?_⟩
            · exact (hrun' j (by omega) h2).2
            · by_contra hlt
              exact hmax' n (by omega) hn
            · rw [if_pos rfl]
              rw [map_map]
              refine map_congr_left fun g _ => take_markedRow (by omega) fun j hj => ?_
              by_cases hij : i ≤ j
              · rw [(hrun' j hij hj).1, decide_eq_true (by omega)]
              · rw [Bool.eq_false_iff.mpr fun h => hij (hmarked' j h)]
                exact (decide_eq_false (by omega)).symm
          · next hmore =>
            exact ih (by omega) hmarked' hrun' (fun _ => ⟨haligned, by omega⟩) hmax'
    · rw [mapM_cachedBlockAt_none hcached]
      refine ih (by omega) (fun j hj => by have := hmarked j hj; omega) (fun j h1 h2 => by omega)
        (fun h => by omega) fun n hn hhit => ?_
      by_cases hgreater : i + 1 + num < n
      · exact hmax n hgreater hhit
      · have hwindow : n - max 1 contiguous ≤ i := by
          rcases Nat.eq_zero_or_pos num with rfl | hpos
          · omega
          · omega
        exact hcached (hhit.cached i hwindow hn)

lemma length_windowRow : (windowRow p hashes window n groupId).length = n := by
  unfold windowRow
  rw [length_map, length_range]

lemma hitLength_windowTable (hne : groupIds ≠ []) (window n : ℕ) :
    hitLength (windowTable p hashes groupIds window n) = n := by
  cases groupIds with
  | nil => exact absurd rfl hne
  | cons g rest => exact length_windowRow window n g

lemma popToAlignment_windowTable (hne : groupIds ≠ []) (window : ℕ) {n : ℕ}
    (h : n * blockSize % alignmentTokens = 0) :
    popToAlignment blockSize alignmentTokens (windowTable p hashes groupIds window n) =
      windowTable p hashes groupIds window n := by
  have haligned : alignedNumBlocks blockSize alignmentTokens n = n := by
    cases n with
    | zero => rfl
    | succ n =>
      exact if_neg fun hbad => hbad.2 h
  unfold popToAlignment
  rw [hitLength_windowTable hne, haligned]
  unfold windowTable
  rw [map_map]
  refine map_congr_left fun g _ => ?_
  exact take_of_length_le (length_windowRow window n g).le

lemma popForEagle_windowTable : popForEagle true (windowTable p hashes groupIds window n) =
      (windowTable p hashes groupIds window n).map dropLast := by
  unfold popForEagle
  split
  · rfl
  · next hempty =>
    have hnil : (windowTable p hashes groupIds window n).headD [] = [] := by
      by_contra hne
      exact hempty ⟨rfl, hne⟩
    cases groupIds with
    | nil => rfl
    | cons g rest =>
      have hn : n = 0 := by
        have hlen : (windowRow p hashes window n g).length = n := length_windowRow window n g
        rw [← hlen]
        exact length_eq_zero_iff.mpr hnil
      unfold windowTable
      rw [hn, map_map]
      exact map_congr_left fun g _ => rfl

variable {maxLength slidingWindow : ℕ}

lemma slidingWindowLoop_start (hne : groupIds ≠ []) (hids : ∀ g ∈ groupIds, g < 2 ^ 32)
    (hlen : maxNumBlocks ≤ hashes.length) :
    ∃ n, IsGreatest (WindowHit p hashes groupIds blockSize alignmentTokens (max 1 contiguous) maxNumBlocks) n ∧
      ∃ table num' found, slidingWindowLoop hashes groupIds p blockSize alignmentTokens contiguous
          maxNumBlocks 0 (groupIds.map fun _ => replicate maxNumBlocks nullBlock) = .ok (table, num', found) ∧
        (if found then table else popToAlignment blockSize alignmentTokens (table.map (·.take num'))) =
            windowTable p hashes groupIds (max 1 contiguous) n := by
  have hstart : (groupIds.map fun _ => replicate maxNumBlocks nullBlock) =
      groupIds.map (markedRow p hashes (fun _ => false) maxNumBlocks) := by
    unfold markedRow
    simp
  rw [hstart]
  have hmarked : ∀ j, (fun _ : ℕ => false) j = true → maxNumBlocks ≤ j := nofun
  have hmax : ∀ n, maxNumBlocks + 0 < n → ¬ WindowHit p hashes groupIds blockSize alignmentTokens
      (max 1 contiguous) maxNumBlocks n := fun n hn hhit => absurd hhit.le (by omega)
  obtain ⟨n, hgreatest, table, num', found, hloop, htable⟩ := slidingWindowLoop_eq hne hids hlen
    le_rfl hmarked (fun j h1 h2 => by omega) (fun h => by omega) hmax
  refine ⟨n, hgreatest, table, num', found, hloop, ?_⟩
  cases found with
  | true =>
    exact htable
  | false =>
    obtain ⟨rfl, htable⟩ := htable
    rw [htable]
    exact popToAlignment_windowTable hne _ hgreatest.1.aligned

lemma lookup_of_loop {table computed : List (List BlockId)} {num' : ℕ} {found useEagle : Bool}
    (heagle : useEagle = true → blockSize = alignmentTokens)
    (hloop : slidingWindowLoop hashes groupIds p blockSize alignmentTokens
      (cdiv (slidingWindow - 1) blockSize + if useEagle then 1 else 0) (maxLength / blockSize) 0
        (groupIds.map fun _ => replicate (maxLength / blockSize) nullBlock) = .ok (computed, num', found))
    (htable : (if found then computed else popToAlignment blockSize alignmentTokens
      (computed.map (·.take num'))) = table) :
    slidingWindowFindLongestCacheHit hashes maxLength groupIds p blockSize slidingWindow useEagle
      alignmentTokens 1 1 = .ok (popForEagle useEagle table) := by
  unfold slidingWindowFindLongestCacheHit
  dsimp only
  rw [hloop, ok_bind]
  rw [htable, ensure_of fun h => heagle h.1]
  rfl

variable (p hashes maxLength blockSize slidingWindow alignmentTokens)

/-- The greatest aligned number of blocks with a cached window is returned. Without all hashes the
search raises. -/
theorem slidingWindowFindLongestCacheHit_exact (hne : groupIds ≠ []) (hids : ∀ g ∈ groupIds, g < 2 ^ 32) :
    (maxLength / blockSize ≤ hashes.length → (∃ n, IsGreatest (WindowHit p hashes groupIds blockSize alignmentTokens
          (max 1 (cdiv (slidingWindow - 1) blockSize)) (maxLength / blockSize)) n ∧
        slidingWindowFindLongestCacheHit hashes maxLength groupIds p blockSize slidingWindow false
          alignmentTokens 1 1 = .ok (windowTable p hashes groupIds
            (max 1 (cdiv (slidingWindow - 1) blockSize)) n)) ∧ (alignmentTokens = blockSize →
        ∃ n, IsGreatest (WindowHit p hashes groupIds blockSize alignmentTokens
            (cdiv (slidingWindow - 1) blockSize + 1) (maxLength / blockSize)) n ∧
          slidingWindowFindLongestCacheHit hashes maxLength groupIds p blockSize slidingWindow true
            alignmentTokens 1 1 = .ok ((windowTable p hashes groupIds
              (cdiv (slidingWindow - 1) blockSize + 1) n).map dropLast))) ∧
    (hashes.length < maxLength / blockSize → ∀ useEagle,
      slidingWindowFindLongestCacheHit hashes maxLength groupIds p blockSize slidingWindow useEagle
        alignmentTokens 1 1 = .error .indexError) := by
  refine ⟨fun hlen => ⟨?_, fun halign => ?_⟩, fun hshort useEagle => ?_⟩
  · obtain ⟨n, hgreatest, table, num', found, hloop, htable⟩ := slidingWindowLoop_start (p := p) hne hids hlen
    exact ⟨n, hgreatest, lookup_of_loop nofun hloop htable⟩
  · have hwindow : max 1 (cdiv (slidingWindow - 1) blockSize + 1) =
        cdiv (slidingWindow - 1) blockSize + 1 := max_eq_right (Nat.le_add_left 1 _)
    obtain ⟨n, hgreatest, table, num', found, hloop, htable⟩ := slidingWindowLoop_start (p := p) hne hids hlen
    rw [hwindow] at hgreatest htable
    refine ⟨n, hgreatest, ?_⟩
    rw [lookup_of_loop (fun _ => halign.symm) hloop htable, popForEagle_windowTable]
  · obtain ⟨i, hi⟩ := Nat.exists_eq_succ_of_ne_zero (Nat.ne_of_gt (Nat.zero_lt_of_lt hshort))
    have hnone : hashes[i]? = none := getElem?_eq_none (by omega)
    unfold slidingWindowFindLongestCacheHit
    rw [ensure_of rfl]
    dsimp only
    rw [hi, slidingWindowLoop, hnone]
    rfl

def secondCached : BlockPool where
  numGpuBlocks := 4
  enableCaching := true
  hashBlockSize := 1
  blocks := fun _ => {}
  freeBlockQueue := .new []
  cachedBlockHashToBlock := BlockHashToBlockMap.new.insert ([8] ++ groupIdBytes 0) 3

/-- One cached block is a window for tokens that look back at one other token. -/
theorem sliding_window_hit_second : ∃ n, IsGreatest (WindowHit secondCached [[7], [8], [9]] [0] 1 1 1 3) n ∧
      slidingWindowFindLongestCacheHit [[7], [8], [9]] 3 [0] secondCached 1 2 false 1 1 1 =
        .ok (windowTable secondCached [[7], [8], [9]] [0] 1 n) := by
  have hne : [0] ≠ [] := cons_ne_nil 0 []
  have hids : ∀ g ∈ [0], g < 2 ^ 32 := by decide
  exact ((slidingWindowFindLongestCacheHit_exact secondCached [[7], [8], [9]] 1 1 3 2 hne hids).1 le_rfl).1

/-- A list with fewer hashes than blocks. -/
theorem sliding_window_hit_short : ¬ ∀ (hashes : List BlockHash) (maxLength : ℕ), ∃ table,
      slidingWindowFindLongestCacheHit hashes maxLength [0] secondCached 1 2 false 1 1 1 = .ok table := by
  intro hall
  obtain ⟨table, htable⟩ := hall [[7]] 2
  cases htable

end CustomAi.Vllm
