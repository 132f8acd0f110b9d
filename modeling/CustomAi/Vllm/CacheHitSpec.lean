import CustomAi.Vllm.BlockPoolCoherence
import CustomAi.Vllm.CacheHit

/-!
# What a cache-hit lookup returns

Every manager class returns, for all its groups, lists of one length.
-/

namespace CustomAi.Vllm

open List Option Except

lemma forall₂_zipWith {α β γ δ : Type} {R : α → β → Prop} {S : α → γ → Prop} {T : α → δ → Prop}
    {f : β → γ → δ} (h : ∀ a b c, R a b → S a c → T a (f b c)) {as : List α} {bs : List β}
    {cs : List γ} (hr : Forall₂ R as bs) (hs : Forall₂ S as cs) : Forall₂ T as (zipWith f bs cs) := by
  induction hr generalizing cs with
  | nil =>
    exact .nil
  | cons hab _ ih =>
    cases hs with
    | cons hac hrest => exact .cons (h _ _ _ hab hac) (ih hrest)

/-- `n` blocks that are null or cached under the hash at their index, and not null from `start` on. -/
structure Hit (p : BlockPool) (hashes : List BlockHash) (n start groupId : ℕ) (l : List BlockId) :
    Prop where
  length_eq : l.length = n
  cached : ∀ (i : ℕ) b, l[i]? = some b → b ≠ nullBlock →
    ∃ h, hashes[i]? = some h ∧ p.hashOf b = some (h ++ groupIdBytes groupId)
  ne_null : ∀ (i : ℕ) b, start ≤ i → l[i]? = some b → b ≠ nullBlock

abbrev HitTable (p : BlockPool) (hashes : List BlockHash) (n start : ℕ) (groupIds : List ℕ)
    (table : List (List BlockId)) : Prop :=
  Forall₂ (Hit p hashes n start) groupIds table

variable {p : BlockPool} {hashes : List BlockHash} {n start groupId : ℕ} {groupIds : List ℕ}
  {l : List BlockId} {table : List (List BlockId)}

lemma Hit.nil (p : BlockPool) (hashes : List BlockHash) (start groupId : ℕ) :
    Hit p hashes 0 start groupId [] := ⟨rfl, by simp, by simp⟩

variable {blockHash : BlockHash} {spec : KVCacheSpec} {k start' : ℕ}

lemma Hit.mono (h : Hit p hashes n start groupId l) (hs : start ≤ start') : Hit p hashes n start' groupId l :=
  ⟨h.length_eq, h.cached, fun i b hi => h.ne_null i b (hs.trans hi)⟩

lemma Hit.take (h : Hit p hashes n start groupId l) (hk : k ≤ n) : Hit p hashes k start groupId (l.take k) := by
  have hget : ∀ (i : ℕ) b, (l.take k)[i]? = some b → l[i]? = some b := by
    intro i b hb
    rw [getElem?_take] at hb
    split at hb
    · exact hb
    · cases hb
  refine ⟨?_, fun i b hb => h.cached i b (hget i b hb), fun i b hi hb =>
    h.ne_null i b hi (hget i b hb)⟩
  rw [length_take, h.length_eq]
  exact min_eq_left hk

lemma Hit.of_take (h : Hit p (hashes.take k) n start groupId l) : Hit p hashes n start groupId l := by
  refine ⟨h.length_eq, fun i b hb hne => ?_, h.ne_null⟩
  obtain ⟨hash, hh, hk⟩ := h.cached i b hb hne
  rw [getElem?_take] at hh
  split at hh
  · exact ⟨hash, hh, hk⟩
  · cases hh

lemma Hit.replicate_append (h : Hit p (hashes.drop k) n start groupId l) :
    Hit p hashes (k + n) (k + start) groupId (replicate k nullBlock ++ l) := by
  have hget : ∀ (i : ℕ) b, (replicate k nullBlock ++ l)[i]? = some b →
      b = nullBlock ∧ i < k ∨ k ≤ i ∧ l[i - k]? = some b := by
    intro i b hb
    by_cases hi : i < k
    · rw [getElem?_append_left (by simpa using hi), getElem?_replicate_of_lt hi] at hb
      exact .inl ⟨(some.inj hb).symm, hi⟩
    · rw [getElem?_append_right (by simpa using not_lt.mp hi), length_replicate] at hb
      exact .inr ⟨not_lt.mp hi, hb⟩
  refine ⟨by simp [h.length_eq], fun i b hb hne => ?_, fun i b hi hb => ?_⟩
  · rcases hget i b hb with ⟨hnull, -⟩ | ⟨hik, hb⟩
    · exact absurd hnull hne
    · obtain ⟨hash, hh, hkey⟩ := h.cached _ b hb hne
      rw [getElem?_drop, Nat.add_sub_cancel' hik] at hh
      exact ⟨hash, hh, hkey⟩
  · rcases hget i b hb with ⟨-, hlt⟩ | ⟨-, hb⟩
    · omega
    · exact h.ne_null _ b (by omega) hb

lemma HitTable.hitLength_eq (h : HitTable p hashes n start groupIds table)
    (hne : groupIds ≠ []) : hitLength table = n := by
  cases h with
  | nil => exact absurd rfl hne
  | cons hhit _ => exact hhit.length_eq

lemma HitTable.nil (p : BlockPool) (hashes : List BlockHash) (start : ℕ) (groupIds : List ℕ) :
    HitTable p hashes 0 start groupIds (groupIds.map fun _ => []) := by
  rw [HitTable, forall₂_map_right_iff, forall₂_same]
  exact fun g _ => .nil p hashes start g

lemma HitTable.map {hashes' : List BlockHash} {n' : ℕ} {f : List BlockId → List BlockId}
    (h : HitTable p hashes n start groupIds table)
    (hf : ∀ g l, Hit p hashes n start g l → Hit p hashes' n' start' g (f l)) :
    HitTable p hashes' n' start' groupIds (table.map f) := by
  rw [HitTable, forall₂_map_right_iff]
  exact h.imp hf

lemma HitTable.mono (h : HitTable p hashes n start groupIds table) (hs : start ≤ start') :
    HitTable p hashes n start' groupIds table :=
  h.imp fun _ _ hh => hh.mono hs

lemma cached_row (h : p.Coherent) {row : List BlockId}
    (hok : p.getCachedBlock blockHash groupIds = .ok (some row)) :
    Forall₂ (fun g b => b ≠ nullBlock ∧ p.hashOf b = some (blockHash ++ groupIdBytes g)) groupIds row := by
  refine (BlockPool.getCachedBlock_spec h hok).imp fun g b hb => ⟨?_, hb.2⟩
  rintro rfl
  rw [h.hashOf_null] at hb
  exact absurd hb.2 (by simp)

lemma alignedNumBlocks_le (blockSize alignmentTokens n : ℕ) : alignedNumBlocks blockSize alignmentTokens n ≤ n := by
  induction n with
  | zero => exact le_rfl
  | succ n ih =>
    unfold alignedNumBlocks
    split
    · exact ih.trans (Nat.le_succ n)
    · exact le_rfl

lemma dvd_alignedNumBlocks (blockSize alignmentTokens n : ℕ) :
    alignmentTokens ∣ alignedNumBlocks blockSize alignmentTokens n * blockSize := by
  induction n with
  | zero => simp [alignedNumBlocks]
  | succ n ih =>
    unfold alignedNumBlocks
    split
    · exact ih
    · rename_i hstop
      by_cases hbs : blockSize = alignmentTokens
      · rw [hbs]
        exact Nat.dvd_mul_left _ _
      · exact Nat.dvd_of_mod_eq_zero (by_contra fun hmod => hstop ⟨hbs, hmod⟩)

lemma HitTable.popToAlignment (h : HitTable p hashes n start groupIds table)
    (hne : groupIds ≠ []) (blockSize alignmentTokens : ℕ) :
    HitTable p hashes (alignedNumBlocks blockSize alignmentTokens n) start groupIds
      (popToAlignment blockSize alignmentTokens table) := by
  unfold CustomAi.Vllm.popToAlignment
  rw [h.hitLength_eq hne]
  exact h.map fun _ _ hh => hh.take (alignedNumBlocks_le _ _ _)

def eagleNumBlocks (useEagle : Bool) (n : ℕ) : ℕ := if useEagle then n - 1 else n

lemma eagleNumBlocks_le (useEagle : Bool) (n : ℕ) : eagleNumBlocks useEagle n ≤ n := by
  unfold eagleNumBlocks
  split <;> omega

lemma HitTable.headD_ne_nil_iff (h : HitTable p hashes n start groupIds table)
    (hne : groupIds ≠ []) : table.headD [] ≠ [] ↔ 0 < n := by
  rw [← h.hitLength_eq hne, hitLength, length_pos_iff]

lemma HitTable.popForEagle (h : HitTable p hashes n start groupIds table) (hne : groupIds ≠ []) (useEagle : Bool) :
    HitTable p hashes (eagleNumBlocks useEagle n) start groupIds (popForEagle useEagle table) := by
  unfold CustomAi.Vllm.popForEagle eagleNumBlocks
  by_cases he : useEagle = true
  · rw [if_pos he]
    by_cases hn : 0 < n
    · rw [if_pos ⟨he, (h.headD_ne_nil_iff hne).mpr hn⟩]
      refine h.map fun g l hh => ?_
      rw [dropLast_eq_take, hh.length_eq]
      exact hh.take (Nat.sub_le n 1)
    · rw [if_neg fun hc => hn ((h.headD_ne_nil_iff hne).mp hc.2)]
      have h0 : n = 0 := by omega
      rwa [h0, Nat.zero_sub, ← h0]
  · rw [if_neg he, if_neg fun hc => he hc.1]
    exact h

/-- The result of a lookup of at most `maxLength` tokens that is a multiple of the alignment. -/
structure Lookup (p : BlockPool) (hashes : List BlockHash) (blockSize maxLength alignmentTokens n
    start : ℕ) (groupIds : List ℕ) (table : List (List BlockId)) : Prop where
  hits : HitTable p hashes n start groupIds table
  le_maxLength : n * blockSize ≤ maxLength
  aligned : alignmentTokens ∣ n * blockSize

lemma scanCachedBlocks_spec (h : p.Coherent) (hok : scanCachedBlocks p groupIds hashes = .ok table) :
    ∃ n ≤ hashes.length, HitTable p hashes n 0 groupIds table := by
  induction hashes generalizing table with
  | nil =>
    simp only [scanCachedBlocks, ok.injEq] at hok
    subst hok
    exact ⟨0, le_rfl, .nil p [] 0 groupIds⟩
  | cons blockHash rest ih =>
    simp only [scanCachedBlocks, bind_eq_ok] at hok
    obtain ⟨cached, hget, hok⟩ := hok
    have hmiss : (pure (groupIds.map fun _ => ([] : List BlockId)) : Except PyError _) =
        .ok table → ∃ n ≤ (blockHash :: rest).length, HitTable p (blockHash :: rest) n 0 groupIds table := by
      intro h
      obtain rfl := ok.inj h
      exact ⟨0, Nat.zero_le _, .nil p _ 0 groupIds⟩
    split at hok
    · exact hmiss hok
    · exact hmiss hok
    · simp only [bind_eq_ok, pure_eq_ok, ok.injEq] at hok
      obtain ⟨computed, hscan, rfl⟩ := hok
      obtain ⟨n, hn, htable⟩ := ih hscan
      refine ⟨n + 1, by simpa using hn, ?_⟩
      refine forall₂_zipWith (fun g b l hb hl => ?_) (cached_row h hget) htable
      refine ⟨by simp [hl.length_eq], fun i x hx hne => ?_, fun i x _ hx => ?_⟩
      · cases i with
        | zero =>
          simp only [getElem?_cons_zero, some.injEq] at hx
          exact ⟨blockHash, rfl, hx ▸ hb.2⟩
        | succ i => exact hl.cached i x (by simpa using hx) hne
      · cases i with
        | zero =>
          simp only [getElem?_cons_zero, some.injEq] at hx
          exact hx ▸ hb.1
        | succ i => exact hl.ne_null i x (Nat.zero_le i) (by simpa using hx)

variable {maxLength alignmentTokens dcpWorldSize pcpWorldSize blockSize : ℕ} {useEagle : Bool}

lemma fullAttentionFindLongestCacheHit_spec (h : p.Coherent) (hne : groupIds ≠ []) {specBlockSize : ℕ}
    (hbs : blockSize = if dcpWorldSize * pcpWorldSize > 1 then
      specBlockSize * (dcpWorldSize * pcpWorldSize) else specBlockSize)
    (hok : fullAttentionFindLongestCacheHit hashes maxLength groupIds p specBlockSize useEagle
      alignmentTokens dcpWorldSize pcpWorldSize = .ok table) :
    ∃ n ≤ hashes.length, Lookup p hashes blockSize maxLength alignmentTokens n 0 groupIds table := by
  unfold fullAttentionFindLongestCacheHit at hok
  simp only [← hbs, bind_eq_ok, pure_eq_ok, ok.injEq] at hok
  obtain ⟨computed, hscan, rfl⟩ := hok
  obtain ⟨n, hn, htable⟩ := scanCachedBlocks_spec h hscan
  rw [length_take] at hn
  set k := alignedNumBlocks blockSize alignmentTokens (eagleNumBlocks useEagle n)
  have hk : k ≤ n := (alignedNumBlocks_le _ _ _).trans (eagleNumBlocks_le _ _)
  have hmax : k ≤ maxLength / blockSize := hk.trans (hn.trans (min_le_left _ _))
  refine ⟨k, hk.trans (hn.trans (min_le_right _ _)), ?_, ?_, dvd_alignedNumBlocks _ _ _⟩
  · exact ((htable.popForEagle hne useEagle).popToAlignment hne blockSize alignmentTokens).imp
      fun _ _ hh => hh.of_take
  · exact (Nat.mul_le_mul_right blockSize hmax).trans (Nat.div_mul_le_self _ _)

/-- The `num` blocks from `i` on are cached. -/
structure WindowRow (p : BlockPool) (hashes : List BlockHash) (maxNumBlocks i num groupId : ℕ)
    (l : List BlockId) : Prop where
  length_eq : l.length = maxNumBlocks
  cached : ∀ (j : ℕ) b, l[j]? = some b → b ≠ nullBlock →
    ∃ h, hashes[j]? = some h ∧ p.hashOf b = some (h ++ groupIdBytes groupId)
  ne_null : ∀ (j : ℕ) b, i ≤ j → j < i + num → l[j]? = some b → b ≠ nullBlock

variable {maxNumBlocks i num : ℕ}

lemma WindowRow.restart (h : WindowRow p hashes maxNumBlocks i num groupId l) (j : ℕ) :
    WindowRow p hashes maxNumBlocks j 0 groupId l :=
  ⟨h.length_eq, h.cached, fun k _ h1 h2 => by omega⟩

lemma WindowRow.set {b : BlockId} (h : WindowRow p hashes maxNumBlocks (i + 1) num groupId l)
    (hget : hashes[i]? = some blockHash)
    (hb : b ≠ nullBlock ∧ p.hashOf b = some (blockHash ++ groupIdBytes groupId)) :
    WindowRow p hashes maxNumBlocks i (num + 1) groupId (l.set i b) := by
  refine ⟨by rw [length_set, h.length_eq], fun j x hx hne => ?_, fun j x hij hj hx => ?_⟩
  · rw [getElem?_set] at hx
    split at hx
    · rename_i hij
      subst hij
      split at hx
      · obtain rfl := some.inj hx
        exact ⟨blockHash, hget, hb.2⟩
      · cases hx
    · exact h.cached j x hx hne
  · rw [getElem?_set] at hx
    split at hx
    · split at hx
      · obtain rfl := some.inj hx
        exact hb.1
      · cases hx
    · exact h.ne_null j x (by omega) (by omega) hx

lemma WindowRow.hit_take (h : WindowRow p hashes maxNumBlocks i num groupId l)
    (hk : k ≤ maxNumBlocks) (hki : k ≤ i + num) : Hit p hashes k i groupId (l.take k) := by
  have hget : ∀ (j : ℕ) b, (l.take k)[j]? = some b → j < k ∧ l[j]? = some b := by
    intro j b hb
    rw [getElem?_take] at hb
    split at hb
    · rename_i hj
      exact ⟨hj, hb⟩
    · cases hb
  refine ⟨?_, fun j b hb hne => h.cached j b (hget j b hb).2 hne, fun j b hij hb => ?_⟩
  · rw [length_take, h.length_eq]
    exact min_eq_left hk
  · obtain ⟨hj, hl⟩ := hget j b hb
    exact h.ne_null j b hij (by omega) hl

/-- The search finds enough hits that end at an aligned block, or counts those at the front. -/
theorem slidingWindowLoop_spec (h : p.Coherent) {contiguous num' : ℕ}
    {computed : List (List BlockId)} {found : Bool}
    (hok : slidingWindowLoop hashes groupIds p blockSize alignmentTokens contiguous i num computed =
      .ok (table, num', found)) (hrows : Forall₂ (WindowRow p hashes maxNumBlocks i num) groupIds computed)
    (hle : i + num ≤ maxNumBlocks) (hlen : 0 < num → i + num ≤ hashes.length)
    (halign : 0 < num → alignmentTokens ∣ (i + num) * blockSize) : if found then
      ∃ n ≤ maxNumBlocks, n ≤ hashes.length ∧ alignmentTokens ∣ n * blockSize ∧
        HitTable p hashes n (n - contiguous) groupIds table else
      num' ≤ maxNumBlocks ∧ (0 < num' → num' ≤ hashes.length) ∧
        Forall₂ (WindowRow p hashes maxNumBlocks 0 num') groupIds table := by
  induction i generalizing num computed with
  | zero =>
    obtain ⟨rfl, rfl, rfl⟩ := hok
    rw [Nat.zero_add] at hle hlen
    exact ⟨hle, hlen, hrows⟩
  | succ i ih =>
    unfold slidingWindowLoop at hok
    cases hget : hashes[i]? with
    | none => simp [hget] at hok
    | some blockHash =>
      have hi : i < hashes.length := (List.getElem?_eq_some_iff.mp hget).1
      simp only [hget, bind_eq_ok] at hok
      obtain ⟨cached, hcached, hok⟩ := hok
      have hrestart : slidingWindowLoop hashes groupIds p blockSize alignmentTokens contiguous i 0
          computed = .ok (table, num', found) → _ := fun hok =>
        ih hok (hrows.imp fun _ _ hr => hr.restart i) (by omega) (by simp) (by simp)
      split at hok
      · exact hrestart hok
      · exact hrestart hok
      · rename_i row _
        split at hok
        · rename_i hskip
          rw [hskip.1] at hok
          exact hrestart hok
        · rename_i hkeep
          have hrow := cached_row h hcached
          have hrows' : Forall₂ (WindowRow p hashes maxNumBlocks i (num + 1)) groupIds
              (zipWith (fun computed cached => computed.set i cached) computed row) :=
            forall₂_zipWith (fun _ _ _ hl hb => hl.set hget hb) hrows hrow
          have halign' : alignmentTokens ∣ (i + (num + 1)) * blockSize := by
            rw [show i + (num + 1) = i + 1 + num by omega]
            rcases Nat.eq_zero_or_pos num with rfl | hpos
            · by_cases hbs : blockSize = alignmentTokens
              · rw [hbs]
                exact Nat.dvd_mul_left _ _
              · exact Nat.dvd_of_mod_eq_zero (by_contra fun hmod => hkeep ⟨rfl, hbs, hmod⟩)
            · exact halign hpos
          have hlen' : i + (num + 1) ≤ hashes.length := by
            rcases Nat.eq_zero_or_pos num with rfl | hpos
            · exact hi
            · omega
          split at hok
          · obtain ⟨rfl, rfl, rfl⟩ := hok
            refine ⟨i + (num + 1), by omega, hlen', halign', ?_⟩
            rw [HitTable, forall₂_map_right_iff]
            exact hrows'.imp fun _ _ hr => (hr.hit_take (by omega) le_rfl).mono (by omega)
          · exact ih hok hrows' (by omega) (fun _ => hlen') (fun _ => halign')

lemma slidingWindowFindLongestCacheHit_spec (h : p.Coherent) (hne : groupIds ≠ []) {slidingWindow : ℕ}
    (hok : slidingWindowFindLongestCacheHit hashes maxLength groupIds p blockSize slidingWindow
      useEagle alignmentTokens dcpWorldSize pcpWorldSize = .ok table) : (dcpWorldSize = 1 ∧ pcpWorldSize = 1) ∧
      ∃ n ≤ hashes.length, Lookup p hashes blockSize maxLength alignmentTokens n
        (n - cdiv (slidingWindow - 1) blockSize) groupIds table := by
  unfold slidingWindowFindLongestCacheHit at hok
  simp only [bind_eq_ok, ensure_eq_ok, Prod.exists] at hok
  obtain ⟨_, hdcp, _, hpcp, computed, num, found, hloop, _, hassert, hok⟩ := hok
  simp only [pure_eq_ok, ok.injEq] at hok
  set contiguous := cdiv (slidingWindow - 1) blockSize + if useEagle = true then 1 else 0
    with hcontig
  set maxNumBlocks := maxLength / blockSize
  have hstart : Forall₂ (WindowRow p hashes maxNumBlocks maxNumBlocks 0) groupIds
      (groupIds.map fun _ => replicate maxNumBlocks nullBlock) := by
    rw [forall₂_map_right_iff, forall₂_same]
    intro g _
    refine ⟨by simp, fun j b hb hne => ?_, fun j b h1 h2 => by omega⟩
    exact absurd (eq_of_mem_replicate (mem_of_getElem? hb)) hne
  have hspec := slidingWindowLoop_spec h hloop hstart le_rfl (by simp) (by simp)
  -- the blocks before eagle drops the last one
  set before := if found = true then computed else popToAlignment blockSize alignmentTokens
    (computed.map (·.take num)) with hbefore
  have htable : ∃ n ≤ maxNumBlocks, n ≤ hashes.length ∧ alignmentTokens ∣ n * blockSize ∧
      HitTable p hashes n (n - contiguous) groupIds before := by
    rw [hbefore]
    split
    · rename_i hf
      rwa [if_pos hf] at hspec
    · rename_i hf
      rw [if_neg hf] at hspec
      obtain ⟨hle, hlen, hrows⟩ := hspec
      have hk := alignedNumBlocks_le blockSize alignmentTokens num
      refine ⟨alignedNumBlocks blockSize alignmentTokens num, hk.trans hle, ?_, dvd_alignedNumBlocks _ _ _, ?_⟩
      · rcases Nat.eq_zero_or_pos num with rfl | hpos
        · exact hk.trans (Nat.zero_le _)
        · exact hk.trans (hlen hpos)
      · have hfront : HitTable p hashes num 0 groupIds (computed.map (·.take num)) := by
          rw [HitTable, forall₂_map_right_iff]
          exact hrows.imp fun _ _ hr => hr.hit_take hle (by omega)
        exact (hfront.popToAlignment hne blockSize alignmentTokens).mono (Nat.zero_le _)
  obtain ⟨n, hn, hlen, halign, hbefore_table⟩ := htable
  have hle := eagleNumBlocks_le useEagle n
  refine ⟨⟨hdcp, hpcp⟩, eagleNumBlocks useEagle n, hle.trans hlen, ?_, ?_, ?_⟩
  · rw [← hok]
    refine (hbefore_table.popForEagle hne useEagle).mono ?_
    rw [hcontig]
    unfold eagleNumBlocks
    split <;> omega
  · exact (Nat.mul_le_mul_right blockSize (hle.trans hn)).trans (Nat.div_mul_le_self _ _)
  · unfold eagleNumBlocks
    by_cases he : useEagle = true
    · rw [if_pos he]
      by_cases hpos : 0 < n
      · rw [hassert ⟨he, (hbefore_table.headD_ne_nil_iff hne).mpr hpos⟩]
        exact Nat.dvd_mul_left _ _
      · rw [show n - 1 = 0 by omega, Nat.zero_mul]
        exact Nat.dvd_zero _
    · rwa [if_neg he]

lemma chunkedLocalAttentionFindLongestCacheHit_spec (h : p.Coherent) {attentionChunkSize : ℕ}
    (hok : chunkedLocalAttentionFindLongestCacheHit hashes maxLength groupIds p blockSize
      attentionChunkSize useEagle alignmentTokens dcpWorldSize pcpWorldSize = .ok table) :
    (dcpWorldSize = 1 ∧ pcpWorldSize = 1) ∧ ∃ n, Lookup p hashes blockSize maxLength alignmentTokens n
        (maxLength / attentionChunkSize * attentionChunkSize / blockSize) groupIds table := by
  unfold chunkedLocalAttentionFindLongestCacheHit at hok
  simp only [bind_eq_ok, ensure_eq_ok, pure_eq_ok, ok.injEq] at hok
  obtain ⟨_, -, _, hdcp, _, hpcp, _, hbs, computed, hscan, _, -, rfl⟩ := hok
  obtain ⟨k, hk, htable⟩ := scanCachedBlocks_spec h hscan
  set first := maxLength / attentionChunkSize * attentionChunkSize / blockSize
  have hfirst : first ≤ maxLength / blockSize := Nat.div_le_div_right (Nat.div_mul_le_self _ _)
  rw [length_drop, length_take] at hk
  refine ⟨⟨hdcp, hpcp⟩, first + k, htable.map fun g l hh => ?_, ?_, ?_⟩
  · rw [drop_take] at hh
    exact hh.of_take.replicate_append
  · have hle : first + k ≤ maxLength / blockSize := by omega
    exact (Nat.mul_le_mul_right blockSize hle).trans (Nat.div_mul_le_self _ _)
  · rw [hbs]
    exact Nat.dvd_mul_left _ _

lemma mambaLoop_spec (h : p.Coherent)
    (hok : mambaLoop hashes groupIds p blockSize alignmentTokens i = .ok table) :
    ∃ n ≤ i, n ≤ hashes.length ∧ alignmentTokens ∣ n * blockSize ∧ HitTable p hashes n (n - 1) groupIds table := by
  induction i with
  | zero =>
    simp only [mambaLoop, ok.injEq] at hok
    subst hok
    exact ⟨0, le_rfl, Nat.zero_le _, by simp, .nil p hashes 0 groupIds⟩
  | succ i ih =>
    unfold mambaLoop at hok
    cases hget : hashes[i]? with
    | none => simp [hget] at hok
    | some blockHash =>
      have hrest : mambaLoop hashes groupIds p blockSize alignmentTokens i = .ok table →
          ∃ n ≤ i + 1, n ≤ hashes.length ∧ alignmentTokens ∣ n * blockSize ∧
            HitTable p hashes n (n - 1) groupIds table := by
        intro hok
        obtain ⟨n, hn, hspec⟩ := ih hok
        exact ⟨n, hn.trans (Nat.le_succ i), hspec⟩
      simp only [hget, bind_eq_ok] at hok
      obtain ⟨cached, hcached, hok⟩ := hok
      split at hok
      · exact hrest hok
      · exact hrest hok
      · split at hok
        · exact hrest hok
        · rename_i hkeep
          simp only [pure_eq_ok, ok.injEq] at hok
          subst hok
          refine ⟨i + 1, le_rfl, (List.getElem?_eq_some_iff.mp hget).1, ?_, ?_⟩
          · by_cases hbs : blockSize = alignmentTokens
            · rw [hbs]
              exact Nat.dvd_mul_left _ _
            · exact Nat.dvd_of_mod_eq_zero (by_contra fun hmod => hkeep ⟨hbs, hmod⟩)
          · rw [HitTable, forall₂_map_right_iff]
            refine (cached_row h hcached).imp fun g b hb => ?_
            have hone : Hit p (hashes.drop i) 1 0 g [b] := by
              have hdrop : (hashes.drop i)[0]? = some blockHash := by
                rw [List.getElem?_drop, Nat.add_zero, hget]
              refine ⟨rfl, fun j x hx _ => ?_, fun j x _ hx => ?_⟩ <;>
              · obtain ⟨rfl, rfl⟩ : j = 0 ∧ x = b := by
                  cases j <;> simp_all
                first
                | exact ⟨blockHash, hdrop, hb.2⟩
                | exact hb.1
            exact hone.replicate_append

/-- The index from which on a lookup of `n` blocks returns no null block. -/
def KVCacheSpec.lookupStart (spec : KVCacheSpec) (maxLength n : ℕ) : ℕ :=
  match spec with
  | .slidingWindow attn window => n - cdiv (window - 1) attn.blockSize
  | .chunkedLocalAttention attn chunkSize => maxLength / chunkSize * chunkSize / attn.blockSize
  | .mamba .. => n - 1
  | _ => 0

def KVCacheSpec.scaledBlockSize (spec : KVCacheSpec) (dcpWorldSize pcpWorldSize : ℕ) : ℕ :=
  if dcpWorldSize * pcpWorldSize > 1 then spec.blockSize * (dcpWorldSize * pcpWorldSize)
  else spec.blockSize

def KVCacheSpec.isChunkedLocal : KVCacheSpec → Bool
  | .chunkedLocalAttention .. => true
  | _ => false

theorem findLongestCacheHit_spec (h : p.Coherent) (hne : groupIds ≠ [])
    (hok : findLongestCacheHit hashes maxLength groupIds p spec useEagle alignmentTokens
      dcpWorldSize pcpWorldSize = .ok table) : ∃ n, (spec.isChunkedLocal = false → n ≤ hashes.length) ∧
      Lookup p hashes (spec.scaledBlockSize dcpWorldSize pcpWorldSize) maxLength alignmentTokens n
        (spec.lookupStart maxLength n) groupIds table := by
  unfold findLongestCacheHit at hok
  cases spec with
  | fullAttention | mlaAttention | sinkFullAttention =>
    obtain ⟨n, hn, hl⟩ := fullAttentionFindLongestCacheHit_spec h hne rfl hok
    exact ⟨n, fun _ => hn, hl⟩
  | slidingWindow =>
    obtain ⟨⟨rfl, rfl⟩, n, hn, hl⟩ := slidingWindowFindLongestCacheHit_spec h hne hok
    exact ⟨n, fun _ => hn, hl⟩
  | chunkedLocalAttention =>
    obtain ⟨⟨rfl, rfl⟩, n, hl⟩ := chunkedLocalAttentionFindLongestCacheHit_spec h hok
    exact ⟨n, nofun, hl⟩
  | mamba =>
    simp only [mambaFindLongestCacheHit, bind_eq_ok, ensure_eq_ok] at hok
    obtain ⟨_, rfl, _, rfl, hok⟩ := hok
    obtain ⟨n, hn, hlen, halign, htable⟩ := mambaLoop_spec h hok
    exact ⟨n, fun _ => hlen, htable, (Nat.mul_le_mul_right _ hn).trans (Nat.div_mul_le_self _ _), halign⟩
  | crossAttention | encoderOnlyAttention => cases hok

lemma getCachedBlock_isOk (p : BlockPool) (blockHash : BlockHash)
    (hids : ∀ g ∈ groupIds, g < 2 ^ 32) : ∃ r, p.getCachedBlock blockHash groupIds = .ok r := by
  induction groupIds with
  | nil => exact ⟨some [], rfl⟩
  | cons g rest ih =>
    have hg := hids g mem_cons_self
    obtain ⟨r, hr⟩ := ih fun g hg => hids g (mem_cons_of_mem _ hg)
    unfold BlockPool.getCachedBlock
    simp only [makeBlockHashWithGroupId, hg, ite_true, ok_bind]
    split
    · exact ⟨none, rfl⟩
    · exact ⟨_, by rw [hr, ok_bind, pure_eq_ok]⟩

lemma scanCachedBlocks_isOk (p : BlockPool) (hashes : List BlockHash)
    (hids : ∀ g ∈ groupIds, g < 2 ^ 32) : ∃ r, scanCachedBlocks p groupIds hashes = .ok r := by
  induction hashes with
  | nil => exact ⟨_, rfl⟩
  | cons blockHash rest ih =>
    obtain ⟨cached, hc⟩ := getCachedBlock_isOk p blockHash hids
    obtain ⟨computed, hr⟩ := ih
    unfold scanCachedBlocks
    rw [hc, ok_bind]
    split
    · exact ⟨_, rfl⟩
    · exact ⟨_, rfl⟩
    · exact ⟨_, by rw [hr, ok_bind, pure_eq_ok]⟩

lemma slidingWindowLoop_isOk (p : BlockPool) (hids : ∀ g ∈ groupIds, g < 2 ^ 32)
    (blockSize alignmentTokens contiguous : ℕ) (hi : i ≤ hashes.length) (num : ℕ) (computed : List (List BlockId)) :
    ∃ r, slidingWindowLoop hashes groupIds p blockSize alignmentTokens contiguous i num computed = .ok r := by
  induction i generalizing num computed with
  | zero => exact ⟨_, rfl⟩
  | succ i ih =>
    have hloop := fun num computed => ih (Nat.le_of_succ_le hi) num computed
    obtain ⟨cached, hc⟩ := getCachedBlock_isOk p hashes[i] hids
    unfold slidingWindowLoop
    simp only [getElem?_eq_getElem hi, hc, ok_bind]
    split
    · exact hloop 0 computed
    · exact hloop 0 computed
    · split
      · exact hloop num computed
      · split
        · exact ⟨_, rfl⟩
        · exact hloop _ _

lemma mambaLoop_isOk (p : BlockPool) (hids : ∀ g ∈ groupIds, g < 2 ^ 32)
    (blockSize alignmentTokens : ℕ) (hi : i ≤ hashes.length) :
    ∃ r, mambaLoop hashes groupIds p blockSize alignmentTokens i = .ok r := by
  induction i with
  | zero => exact ⟨_, rfl⟩
  | succ i ih =>
    have hloop := ih (Nat.le_of_succ_le hi)
    obtain ⟨cached, hc⟩ := getCachedBlock_isOk p hashes[i] hids
    unfold mambaLoop
    simp only [getElem?_eq_getElem hi, hc, ok_bind]
    split
    · exact hloop
    · exact hloop
    · split
      · exact hloop
      · exact ⟨_, rfl⟩

def KVCacheSpec.isHybridMember : KVCacheSpec → Bool
  | .fullAttention .. | .mlaAttention .. | .sinkFullAttention .. | .slidingWindow .. | .mamba .. =>
    true
  | _ => false

def KVCacheSpec.AdmitsEagle (spec : KVCacheSpec) (alignmentTokens : ℕ) : Prop :=
  match spec with
  | .slidingWindow attn _ => attn.blockSize = alignmentTokens
  | _ => True

/-- A lookup returns exactly if it does not start behind the hashes. A left-to-right scan never
does. -/
theorem findLongestCacheHit_isOk_iff (p : BlockPool) (hashes : List BlockHash)
    (hids : ∀ g ∈ groupIds, g < 2 ^ 32) (hspec : spec.isHybridMember = true)
    (heagle : useEagle = true → spec.AdmitsEagle alignmentTokens) :
    (∃ table, findLongestCacheHit hashes maxLength groupIds p spec useEagle alignmentTokens 1 1 = .ok table) ↔
      (spec.isFullAttention = false → maxLength / spec.blockSize ≤ hashes.length) := by
  unfold findLongestCacheHit
  cases spec with
  | fullAttention attn | mlaAttention attn | sinkFullAttention attn =>
    refine iff_of_true ?_ nofun
    obtain ⟨r, hr⟩ := scanCachedBlocks_isOk p (hashes.take (maxLength / attn.blockSize)) hids
    refine ⟨popToAlignment attn.blockSize alignmentTokens (popForEagle useEagle r), ?_⟩
    simp only [fullAttentionFindLongestCacheHit, Nat.mul_one, gt_iff_lt, Nat.lt_irrefl, ite_false,
      hr, ok_bind, pure_eq_ok]
  | slidingWindow attn window =>
    change _ ↔ (_ → maxLength / attn.blockSize ≤ hashes.length)
    simp only [slidingWindowFindLongestCacheHit, ensure_true, ok_bind]
    constructor
    · rintro ⟨table, hok⟩ -
      by_contra hlt
      obtain ⟨i, hi⟩ := Nat.exists_eq_succ_of_ne_zero (n := maxLength / attn.blockSize) (by omega)
      have hnone : hashes[i]? = none := getElem?_eq_none (by omega)
      rw [hi, slidingWindowLoop] at hok
      simp [hnone] at hok
    · intro hle
      obtain ⟨⟨computed, num, found⟩, hr⟩ := slidingWindowLoop_isOk p hids attn.blockSize
        alignmentTokens (cdiv (window - 1) attn.blockSize + if useEagle = true then 1 else 0)
        (hle rfl) 0 (groupIds.map fun _ => replicate (maxLength / attn.blockSize) nullBlock)
      rw [hr, ok_bind]
      rw [ensure_of (show useEagle = true ∧ _ → attn.blockSize = alignmentTokens from
        fun hc => heagle hc.1)]
      exact ⟨_, rfl⟩
  | mamba blockSize =>
    change _ ↔ (_ → maxLength / blockSize ≤ hashes.length)
    simp only [mambaFindLongestCacheHit, ensure_true, ok_bind]
    constructor
    · rintro ⟨table, hok⟩ -
      by_contra hlt
      obtain ⟨i, hi⟩ := Nat.exists_eq_succ_of_ne_zero (n := maxLength / blockSize) (by omega)
      have hnone : hashes[i]? = none := getElem?_eq_none (by omega)
      rw [hi, mambaLoop] at hok
      simp [hnone] at hok
    · exact fun hle => mambaLoop_isOk p hids blockSize alignmentTokens (hle rfl)
  | chunkedLocalAttention | crossAttention | encoderOnlyAttention => cases hspec

end CustomAi.Vllm
