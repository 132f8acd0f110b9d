import CustomAi.Vllm.FeatureKeys
import CustomAi.Vllm.Session

/-!
# Hashes of streaming sessions

A session keeps its tokens, its prompt and its hashes together as long as every update comes when
the prompt and the hashed blocks are computed, and every scan resumes where only the last feature
can reach.
-/

namespace CustomAi.Vllm

open List Option Except Request

/-- The features that overlap the `j`-th block. -/
def overlapAt (blockSize : ℕ) (r : Request) (j : ℕ) : List MultiModalFeatureSpec :=
  overlappingItems r.mmFeatures (j * blockSize) (j * blockSize + blockSize)

structure SessionInv (blockSize : ℕ) (H : CachingHashFn) (r : Request) : Prop where
  hashes : r.blockHashes = chain (blockStep H) [] (blockInputs blockSize r (overlapAt blockSize r))
  features : DisjointFeatures r.mmFeatures
  stop_le : ∀ f ∈ r.mmFeatures, f.stop ≤ r.numPromptTokens
  prompt : ∀ p, r.promptTokenIds = some p → p = r.allTokenIds.take r.numPromptTokens
  numPrompt_le : r.numPromptTokens ≤ r.numTokens

variable {blockSize : ℕ} {H : CachingHashFn} {r r' : Request} {fs : List MultiModalFeatureSpec}

lemma SessionInv.length_blockHashes (h : SessionInv blockSize H r) :
    r.blockHashes.length = r.numTokens / blockSize := by
  rw [h.hashes, length_chain, length_blockInputs]

lemma hashes_extend_overlap (hbs : 0 < blockSize) (hf : DisjointFeatures r.mmFeatures)
    (hh : r.blockHashes = chain (blockStep H) []
      ((blockInputs blockSize r (overlapAt blockSize r)).take r.blockHashes.length))
    (hc : HashClean blockSize r.mmFeatures r.blockHashes.length r.numTokens) :
    r.blockHashes ++ getRequestBlockHasher blockSize H r =
      chain (blockStep H) [] (blockInputs blockSize r (overlapAt blockSize r)) := by
  apply hashes_extend H _ _ hbs hh
  intro j hkj hj
  unfold scannedMmItems overlapAt
  rcases hc with h0 | hlt | hclean
  · rw [if_pos h0, hf.freshMmItems_eq]
  · have hle := (add_le_iff_lt_div hbs).mpr hj
    have hmul := Nat.mul_le_mul_right blockSize hkj
    rw [Nat.add_mul] at hlt
    omega
  · by_cases h0 : r.blockHashes.length = 0
    · rw [if_pos h0, hf.freshMmItems_eq]
    · rw [if_neg h0, hf.resumedMmItems_eq hclean (Nat.mul_le_mul_right blockSize hkj)]

lemma SessionInv.congr (h : SessionInv blockSize H r) (h1 : r'.blockHashes = r.blockHashes)
    (h2 : r'.allTokenIds = r.allTokenIds) (h3 : SameContent r r')
    (h4 : r'.promptTokenIds = r.promptTokenIds) (h5 : r'.numPromptTokens = r.numPromptTokens) :
    SessionInv blockSize H r' := by
  have hnum : r'.numTokens = r.numTokens := by rw [numTokens, h2, numTokens]
  have hinputs : blockInputs blockSize r' (overlapAt blockSize r') =
      blockInputs blockSize r (overlapAt blockSize r) := by
    unfold blockInputs
    rw [hnum]
    apply map_congr_left
    intro j _
    simp only [blockInput, overlapAt, h2, h3.flatKeys_eq, h3.mmFeatures]
  refine ⟨?_, h3.mmFeatures ▸ h.features, ?_, ?_, ?_⟩
  · rw [h1, hinputs, h.hashes]
  · rw [h3.mmFeatures, h5]
    exact h.stop_le
  · rw [h4, h2, h5]
    exact h.prompt
  · rw [hnum, h5]
    exact h.numPrompt_le

lemma SessionInv.append (hbs : 0 < blockSize) (h : SessionInv blockSize H r) (tokenIds : List TokenId)
    (hc : HashClean blockSize r.mmFeatures r.blockHashes.length (r.numTokens + tokenIds.length)) :
    SessionInv blockSize H (r.appendOutputTokenIds (some (getRequestBlockHasher blockSize H)) tokenIds) := by
  set r1 : Request := { r with
    outputTokenIds := r.outputTokenIds ++ tokenIds
    allTokenIds := r.allTokenIds ++ tokenIds }
  have hnum : r1.numTokens = r.numTokens + tokenIds.length := length_append
  have hlen := h.length_blockHashes
  have htake : (blockInputs blockSize r1 (overlapAt blockSize r1)).take r.blockHashes.length =
      blockInputs blockSize r (overlapAt blockSize r) := take_blockInputs_append hbs _ hlen tokenIds
  refine ⟨hashes_extend_overlap (H := H) (r := r1) hbs h.features ?_ (by rw [hnum]; exact hc),
    h.features, h.stop_le, fun p hp => ?_, ?_⟩
  · rw [htake]
    exact h.hashes
  · rw [h.prompt p hp]
    exact (take_append_of_le_length h.numPrompt_le).symm
  · change r.numPromptTokens ≤ r1.numTokens
    rw [hnum]
    exact h.numPrompt_le.trans (Nat.le_add_right _ _)

lemma SessionInv.resumeClean_of_lt (h : SessionInv blockSize H r) {s : ℕ} (hs : r.numTokens < s) :
    ResumeClean r.mmFeatures s := by
  have hall : ∀ f ∈ r.mmFeatures, f.stop < s := fun f hf =>
    ((h.stop_le f hf).trans h.numPrompt_le).trans_lt hs
  exact ⟨fun f hf => (hall f (dropLast_subset _ hf)).le, fun last hl => (hall last (mem_of_mem_getLast? hl)).ne⟩

lemma SessionInv.updateWithOutput (hbs : 0 < blockSize) {maxModelLen : ℕ} {tokens : List TokenId}
    (h : SessionInv blockSize H r)
    (hc : HashClean blockSize r.mmFeatures r.blockHashes.length (r.numTokens + tokens.length))
    (hok : r.updateWithOutput (some (getRequestBlockHasher blockSize H)) maxModelLen tokens =
      .ok r') : SessionInv blockSize H r' := by
  induction tokens generalizing r with
  | nil =>
    simp only [updateWithOutput, ok.injEq] at hok
    exact hok ▸ h
  | cons token rest ih =>
    simp only [updateWithOutput, bind_eq_ok] at hok
    obtain ⟨status, hstatus, hok⟩ := hok
    set r1 := r.appendOutputTokenIds (some (getRequestBlockHasher blockSize H)) [token]
    have hnum : r1.numTokens = r.numTokens + 1 := length_append
    have hc1 : HashClean blockSize r.mmFeatures r.blockHashes.length
        (r.numTokens + [token].length) := by
      rcases hc with h0 | hlt | hclean
      · exact .inl h0
      · simp only [length_cons] at hlt ⊢
        exact .inr (.inl (by simp only [length_nil]; omega))
      · exact .inr (.inr hclean)
    have h₁ : SessionInv blockSize H r1 := h.append hbs [token] hc1
    cases status with
    | some stop =>
      simp only [pure_eq_ok, ok.injEq] at hok
      exact hok ▸ h₁.congr rfl rfl ⟨rfl, rfl, rfl, rfl⟩ rfl rfl
    | none =>
      apply ih h₁ _ hok
      have hk := h.length_blockHashes
      have hk1 := h₁.length_blockHashes
      have hsum : r1.numTokens + rest.length = r.numTokens + (token :: rest).length := by
        rw [length_cons]
        omega
      by_cases hsame : r1.blockHashes.length = r.blockHashes.length
      · rw [hsame, hsum]
        exact hc
      · -- a block was completed, and the next one lies behind all features
        have hgt : r.numTokens < r1.blockHashes.length * blockSize := by
          have hmono : r.blockHashes.length ≤ r1.blockHashes.length := by
            rw [hk, hk1, hnum]
            exact Nat.div_le_div_right (Nat.le_succ _)
          rw [← Nat.div_lt_iff_lt_mul hbs]
          omega
        exact .inr (.inr (h.resumeClean_of_lt hgt))

/-- The prompt and all hashed blocks are computed, the features of the update lie in its prompt, and
hashing can resume. -/
structure UpdateClean (blockSize : ℕ) (r : Request) (u : StreamingUpdate) : Prop where
  prompt_computed : r.numPromptTokens ≤ r.numComputedTokens
  computed_le : r.numComputedTokens ≤ r.numTokens
  hashed_computed : r.blockHashes.length * blockSize ≤ r.numComputedTokens
  features : DisjointFeatures u.mmFeatures
  stop_le : ∀ f ∈ u.mmFeatures, f.stop ≤ (u.promptTokenIds.getD []).length
  hash_clean : HashClean blockSize
    (r.mmFeatures ++ Request.shiftFeatures r.numComputedTokens.toNat u.mmFeatures)
    r.blockHashes.length (r.numComputedTokens.toNat + (u.promptTokenIds.getD []).length)

lemma DisjointFeatures.append_shift (h : DisjointFeatures fs) {gs : List MultiModalFeatureSpec}
    (hg : DisjointFeatures gs) {base : ℕ} (hb : ∀ f ∈ fs, f.stop ≤ base) :
    DisjointFeatures (fs ++ shiftFeatures base gs) := by
  have hshift : ∀ f ∈ shiftFeatures base gs, ∃ g ∈ gs,
      f.offset = g.offset + base ∧ f.stop = g.stop + base := by
    intro f hf
    obtain ⟨g, hgm, rfl⟩ := mem_map.mp hf
    refine ⟨g, hgm, rfl, ?_⟩
    simp only [MultiModalFeatureSpec.stop, PlaceholderRange.stop]
    omega
  refine ⟨fun f hf => ?_, pairwise_append.mpr ⟨h.disjoint, ?_, fun f hf f' hf' => ?_⟩⟩
  · rcases mem_append.mp hf with hf | hf
    · exact h.pos f hf
    · obtain ⟨g, hgm, ho, hs⟩ := hshift f hf
      have := hg.pos g hgm
      omega
  · unfold shiftFeatures
    rw [pairwise_map]
    refine hg.disjoint.imp fun {g g'} hgg' => ?_
    simp only [MultiModalFeatureSpec.stop, MultiModalFeatureSpec.offset, PlaceholderRange.stop] at hgg' ⊢
    omega
  · obtain ⟨g, -, ho, -⟩ := hshift f' hf'
    have := hb f hf
    omega

/-- The prompt is all tokens, and the hashes are theirs. -/
structure SessionConsistent (blockSize : ℕ) (H : CachingHashFn) (r : Request) : Prop where
  prompt_eq : r.promptTokenIds = some r.allTokenIds
  computed_le : r.numComputedTokens ≤ r.numTokens
  hashes : ∀ i < r.blockHashes.length, r.blockHashes[i]? =
    (chain (blockStep H) [] (blockInputs blockSize r (overlapAt blockSize r)))[i]?

lemma SessionInv.updateAsSession (hbs : 0 < blockSize) (h : SessionInv blockSize H r)
    {u : StreamingUpdate} (hu : UpdateClean blockSize r u)
    (hok : r.updateAsSession (some (getRequestBlockHasher blockSize H)) u = .ok r') :
    SessionInv blockSize H r' ∧ SessionConsistent blockSize H r' := by
  unfold Request.updateAsSession at hok
  cases hp : r.promptTokenIds with
  | none => simp [hp] at hok
  | some p =>
    simp only [hp, pure_eq_ok, ok.injEq] at hok
    set new := u.promptTokenIds.getD [] with hnew
    obtain ⟨n, hn⟩ : ∃ n : ℕ, r.numComputedTokens = n :=
      ⟨r.numComputedTokens.toNat, by have := hu.prompt_computed; omega⟩
    have hple : r.numPromptTokens ≤ n := by have := hu.prompt_computed; omega
    have hnle : n ≤ r.numTokens := by have := hu.computed_le; omega
    have hhashed : r.blockHashes.length * blockSize ≤ n := by
      have := hu.hashed_computed
      rw [hn] at this
      exact_mod_cast this
    have hpy : pyTake r.allTokenIds r.numComputedTokens = r.allTokenIds.take n := by
      rw [hn, pyTake_natCast]
    simp only [hpy] at hok
    set kept := r.allTokenIds.take n
    have hlenk : kept.length = n := by
      rw [length_take]
      exact min_eq_left hnle
    have hprompt : p ++ kept.drop r.numPromptTokens = kept := by
      have htake : p = kept.take r.numPromptTokens := by
        rw [h.prompt p hp, take_take, min_eq_left hple]
      rw [htake, take_append_drop]
    set r1 : Request := { r with
      outputTokenIds := []
      mmFeatures := r.mmFeatures ++ Request.shiftFeatures kept.length u.mmFeatures
      allTokenIds := kept ++ new
      promptTokenIds := some (p ++ kept.drop r.numPromptTokens ++ new) }
    have hnum : r1.numTokens = n + new.length := by
      rw [← hlenk]
      exact length_append
    have hstop : ∀ f ∈ r.mmFeatures, f.stop ≤ n := fun f hf => (h.stop_le f hf).trans hple
    have hfeat : DisjointFeatures r1.mmFeatures := by
      change DisjointFeatures (r.mmFeatures ++ Request.shiftFeatures kept.length u.mmFeatures)
      rw [hlenk]
      exact h.features.append_shift hu.features hstop
    have hk : r.blockHashes.length ≤ r1.numTokens / blockSize := by
      rw [Nat.le_div_iff_mul_le hbs, hnum]
      exact hhashed.trans (Nat.le_add_right _ _)
    have htake : (blockInputs blockSize r1 (overlapAt blockSize r1)).take r.blockHashes.length =
        blockInputs blockSize r (overlapAt blockSize r) := by
      rw [take_blockInputs_congr r (overlapAt blockSize r) hk h.length_blockHashes.le,
        take_of_length_le (by rw [length_blockInputs, h.length_blockHashes])]
      intro j hj
      have hend : j * blockSize + blockSize ≤ n := by
        have hmul := Nat.mul_le_mul_right blockSize (Nat.succ_le_of_lt hj)
        rw [Nat.succ_mul] at hmul
        exact hmul.trans hhashed
      have htok : blockTokens blockSize r1.allTokenIds j = blockTokens blockSize r.allTokenIds j := by
        rw [blockTokens_append (hend.trans_eq hlenk.symm)]
        unfold blockTokens
        rw [take_take, min_eq_left hend]
      have hitems : overlapAt blockSize r1 j = overlapAt blockSize r j := by
        unfold overlapAt overlappingItems
        have hnone : (Request.shiftFeatures kept.length u.mmFeatures).filter (fun f => decide
            (f.offset < j * blockSize + blockSize ∧ j * blockSize < f.stop)) = [] := by
          rw [filter_eq_nil_iff]
          intro f hf
          obtain ⟨g, -, rfl⟩ := mem_map.mp hf
          simp only [MultiModalFeatureSpec.offset, decide_eq_true_eq, hlenk]
          omega
        rw [filter_append, hnone, append_nil]
      simp only [blockInput, htok, hitems]
      rfl
    have hhash : r.blockHashes ++ getRequestBlockHasher blockSize H r1 =
        chain (blockStep H) [] (blockInputs blockSize r1 (overlapAt blockSize r1)) := by
      refine hashes_extend_overlap (H := H) (r := r1) hbs hfeat ?_ ?_
      · rw [htake]
        exact h.hashes
      · rw [hnum]
        change HashClean blockSize (r.mmFeatures ++ Request.shiftFeatures kept.length u.mmFeatures)
          r.blockHashes.length _
        rw [hlenk]
        have hclean := hu.hash_clean
        rw [hn] at hclean
        exact hclean
    subst hok
    have hall : p ++ kept.drop r.numPromptTokens ++ new = kept ++ new := by rw [hprompt]
    refine ⟨⟨hhash, hfeat, fun f hf => ?_, fun q hq => ?_, ?_⟩, ⟨?_, ?_, fun i _ => ?_⟩⟩
    · rw [hall, length_append, hlenk]
      rcases mem_append.mp hf with hf | hf
      · exact (hstop f hf).trans (Nat.le_add_right _ _)
      · obtain ⟨g, hg, rfl⟩ := mem_map.mp hf
        have := hu.stop_le g hg
        rw [← hnew] at this
        simp only [MultiModalFeatureSpec.stop, PlaceholderRange.stop] at this ⊢
        omega
    · change q = (kept ++ new).take (p ++ kept.drop r.numPromptTokens ++ new).length
      rw [hall, take_length]
      exact (some.inj hq).symm.trans hall
    · change (p ++ kept.drop r.numPromptTokens ++ new).length ≤ (kept ++ new).length
      rw [hall]
    · exact congrArg some hall
    · change r.numComputedTokens ≤ r1.numTokens
      rw [hn]
      omega
    · exact congrArg (fun l : List BlockHash => l[i]?) hhash

/-- Hashing and updates come when they can resume. -/
def CleanStep (blockSize : ℕ) (r : Request) : SessionOp → Prop
  | .output _ generatedTokenIds =>
      HashClean blockSize r.mmFeatures r.blockHashes.length (r.numTokens + generatedTokenIds.length)
  | .stopped => ∀ u rest, r.streamingQueue = some u :: rest → UpdateClean blockSize r u
  | .addRequest request => r.status = .waitingForStreamingReq →
      ∀ u, StreamingUpdate.fromRequest request = some u → UpdateClean blockSize r u
  | .schedule .. | .preempt => True

lemma SessionInv.step (hbs : 0 < blockSize) (h : SessionInv blockSize H r) {maxModelLen : ℕ}
    {op : SessionOp} {updated : Bool} (hc : CleanStep blockSize r op)
    (hok : sessionStep (some (getRequestBlockHasher blockSize H)) maxModelLen r op = .ok (r', updated)) :
    SessionInv blockSize H r' ∧ (updated = true → SessionConsistent blockSize H r') := by
  cases op with
  | schedule numCached numScheduled =>
    obtain ⟨rfl, rfl⟩ := hok
    refine ⟨?_, by simp⟩
    unfold schedule
    split <;> exact h.congr rfl rfl ⟨rfl, rfl, rfl, rfl⟩ rfl rfl
  | output numRejected tokens =>
    simp only [sessionStep, bind_eq_ok, pure_eq_ok, ok.injEq, Prod.mk.injEq] at hok
    obtain ⟨r1, hr1, rfl, rfl⟩ := hok
    refine ⟨?_, by simp⟩
    unfold updateFromOutput at hr1
    split at hr1
    · exact ok.inj hr1 ▸ h
    · refine SessionInv.updateWithOutput hbs ?_ ?_ hr1
      · exact h.congr rfl rfl ⟨rfl, rfl, rfl, rfl⟩ rfl rfl
      · exact hc
  | stopped =>
    simp only [sessionStep] at hok
    split at hok
    · simp only [bind_eq_ok, pure_eq_ok, ok.injEq, Prod.mk.injEq] at hok
      obtain ⟨r1, hr1, rfl, rfl⟩ := hok
      rename_i hfin
      unfold handleStopped at hr1
      have hnot : r.status ≠ .waiting := by
        intro hw
        rw [hw] at hfin
        cases hfin
      split at hr1
      · obtain rfl := ok.inj hr1
        exact ⟨h, by simp [hnot]⟩
      · split at hr1
        · obtain rfl := ok.inj hr1
          exact ⟨h.congr rfl rfl ⟨rfl, rfl, rfl, rfl⟩ rfl rfl, by simp⟩
        · obtain rfl := ok.inj hr1
          exact ⟨h.congr rfl rfl ⟨rfl, rfl, rfl, rfl⟩ rfl rfl, by simp [hnot]⟩
        · rename_i u rest hq
          have hu := hc u rest hq
          have hres := SessionInv.updateAsSession hbs
            (r := { r with streamingQueue := rest })
            (h.congr rfl rfl ⟨rfl, rfl, rfl, rfl⟩ rfl rfl)
            ⟨hu.1, hu.2, hu.3, hu.4, hu.5, hu.6⟩ hr1
          exact ⟨hres.1, fun _ => hres.2⟩
    · obtain ⟨rfl, rfl⟩ := hok
      exact ⟨h, by simp⟩
  | preempt =>
    simp only [sessionStep, preempt, bind_eq_ok, ensure_eq_ok, pure_eq_ok, ok.injEq, Prod.mk.injEq] at hok
    obtain ⟨_, ⟨_, _, rfl⟩, rfl, rfl⟩ := hok
    exact ⟨h.congr rfl rfl ⟨rfl, rfl, rfl, rfl⟩ rfl rfl, by simp⟩
  | addRequest request =>
    simp only [sessionStep, bind_eq_ok, pure_eq_ok, ok.injEq, Prod.mk.injEq] at hok
    obtain ⟨r1, hr1, rfl, rfl⟩ := hok
    unfold addRequest at hr1
    by_cases hw : r.status = .waitingForStreamingReq
    · simp only [hw, ne_eq, not_true_eq_false, ite_false] at hr1
      cases hu : StreamingUpdate.fromRequest request with
      | none =>
        rw [hu] at hr1
        obtain rfl := ok.inj hr1
        refine ⟨h.congr rfl rfl ⟨rfl, rfl, rfl, rfl⟩ rfl rfl, ?_⟩
        simp only [StreamingUpdate.fromRequest] at hu
        split at hu
        · cases hu
        · simp_all
      | some u =>
        rw [hu] at hr1
        have hres := SessionInv.updateAsSession hbs h (hc hw u hu) hr1
        exact ⟨hres.1, fun _ => hres.2⟩
    · simp only [hw, ne_eq, not_false_eq_true, ite_true, bind_eq_ok, ensure_eq_ok, pure_eq_ok, ok.injEq] at hr1
      obtain ⟨_, _, rfl⟩ := hr1
      exact ⟨h.congr rfl rfl ⟨rfl, rfl, rfl, rfl⟩ rfl rfl, by simp [hw]⟩

lemma SessionInv.new (hbs : 0 < blockSize) {requestId : RequestId}
    {promptTokenIds : Option (List TokenId)} {samplingParams : SamplingParams}
    {eosTokenId : Option TokenId} {promptEmbeds : Option (List Bytes)}
    {mmFeatures : List MultiModalFeatureSpec} {loraRequest : Option LoRARequest}
    {cacheSalt : Option String} {resumable skip : Bool}
    (hnew : Request.new requestId promptTokenIds samplingParams eosTokenId promptEmbeds mmFeatures
      loraRequest cacheSalt (some (getRequestBlockHasher blockSize H)) resumable skip = .ok r)
    (hfeat : DisjointFeatures mmFeatures) (hstop : ∀ f ∈ mmFeatures, f.stop ≤ r.numPromptTokens) :
    SessionInv blockSize H r := by
  obtain ⟨hg, hmm, -, -, -, htok, hnum⟩ := Grown.new hbs hnew hstop
  have hprompt : r.promptTokenIds = promptTokenIds := by
    simp only [Request.new, bind_eq_ok, pure_eq_ok, ok.injEq] at hnew
    obtain ⟨n, -, rfl⟩ := hnew
    rfl
  refine ⟨?_, hmm ▸ hfeat, hg.stop_le, fun p hp => ?_, hnum.ge⟩
  · rw [hg.blockHashes_eq]
    congr 1
    apply map_congr_left
    intro j hj
    have hj' := mem_range.mp hj
    have hne : ¬(0 < r.numPromptBlocks blockSize ∧ j = r.numPromptBlocks blockSize) := by
      rintro ⟨-, rfl⟩
      rw [hnum] at hj'
      exact absurd hj' (lt_irrefl _)
    simp only [blockInput, grownMmItems, hne, ite_false, overlapAt,
      (hmm ▸ hfeat : DisjointFeatures r.mmFeatures).freshMmItems_eq]
  · rw [← hnum, Request.numTokens, take_length, htok, ← hprompt, hp]
    rfl

/-- In a session all of whose steps are clean, every update leaves the session consistent. -/
theorem session_update_consistent (hbs : 0 < blockSize) (maxModelLen : ℕ) (r₀ r r' : Request)
    (op : SessionOp) (requestId : RequestId) (promptTokenIds : Option (List TokenId))
    (samplingParams : SamplingParams) (eosTokenId : Option TokenId)
    (promptEmbeds : Option (List Bytes)) (mmFeatures : List MultiModalFeatureSpec)
    (loraRequest : Option LoRARequest) (cacheSalt : Option String) (skip : Bool)
    (hnew : Request.new requestId promptTokenIds samplingParams eosTokenId promptEmbeds mmFeatures
      loraRequest cacheSalt (some (getRequestBlockHasher blockSize H)) true skip = .ok r₀)
    (hfeat : DisjointFeatures mmFeatures) (hstop : ∀ f ∈ mmFeatures, f.stop ≤ r₀.numPromptTokens)
    (hrun : Reaches (fun r op => (sessionStep (some (getRequestBlockHasher blockSize H))
      maxModelLen r op).map Prod.fst) (CleanStep blockSize) r₀ r) (hclean : CleanStep blockSize r op)
    (hstep : sessionStep (some (getRequestBlockHasher blockSize H)) maxModelLen r op = .ok (r', true)) :
    SessionConsistent blockSize H r' := by
  have hinv : SessionInv blockSize H r := by
    refine hrun.invariant (SessionInv.new hbs hnew hfeat hstop) fun s a s' hs ha hok => ?_
    cases hres : sessionStep (some (getRequestBlockHasher blockSize H)) maxModelLen s a with
    | error e =>
      rw [hres] at hok
      cases hok
    | ok res =>
      rw [hres] at hok
      obtain rfl := ok.inj hok
      exact (hs.step hbs ha hres).1
  exact (hinv.step hbs hclean hstep).2 rfl

def chunkRequest (prompt : List TokenId) : Except PyError Request :=
  Request.new "s" (some prompt) ⟨1, 0, false, []⟩ none none [] none none
    (some (getRequestBlockHasher 2 serializingHashFn)) true false

def chunkStep (r : Request) (op : SessionOp) : Except PyError (Request × Bool) :=
  sessionStep (some (getRequestBlockHasher 2 serializingHashFn)) 100 r op

def nextChunk : Request :=
  { requestId := "s", promptTokenIds := some [5], numPromptTokens := 1, allTokenIds := [5]
    samplingParams := ⟨1, 0, false, []⟩, maxTokens := 1, resumable := true }

def chunkRun (prompt : List TokenId) (ops : List SessionOp) : Except PyError Request := do
  let r ← chunkRequest prompt
  runSteps (fun r op => (chunkStep r op).map Prod.fst) r ops

/-- The hash of a completed block stays when its token is dropped, and a preempted session loses its
tokens. -/
theorem session_update_inconsistent :
    (∃ r r', chunkRun [1, 2, 3] [.addRequest nextChunk, .schedule 0 3, .output 0 [4]] = .ok r ∧
      chunkStep r .stopped = .ok (r', true) ∧ r'.blockHashes[1]? ≠
        (chain (blockStep serializingHashFn) [] (blockInputs 2 r' (overlapAt 2 r')))[1]?) ∧
    ∃ r r', chunkRun [1, 2, 3] [.addRequest nextChunk, .schedule 0 3, .preempt, .output 0 [4]] = .ok r ∧
      chunkStep r .stopped = .ok (r', true) ∧ r'.promptTokenIds ≠ some r'.allTokenIds := by
  refine ⟨⟨_, _, rfl, rfl, ?_⟩, ⟨_, _, rfl, rfl, ?_⟩⟩
  · decide +kernel
  · decide +kernel

def chunkStopped : Request :=
  { requestId := "s", promptTokenIds := some [1, 2], numPromptTokens := 2, allTokenIds := [1, 2, 4]
    outputTokenIds := [4], samplingParams := ⟨1, 0, false, []⟩, maxTokens := 1
    blockHashes := [blockStep serializingHashFn [] ([1, 2], none)], numComputedTokens := 2
    status := .finishedLengthCapped, resumable := true
    streamingQueue := [some ⟨[], some [5], 1, 0, ⟨1, 0, false, []⟩⟩] }

theorem session_update_consistent_run :
    chunkRun [1, 2] [.addRequest nextChunk, .schedule 0 2, .output 0 [4]] = .ok chunkStopped ∧
    ∃ r', chunkStep chunkStopped .stopped = .ok (r', true) ∧ SessionConsistent 2 serializingHashFn r' := by
  refine ⟨rfl, _, rfl, ?_⟩
  refine session_update_consistent (by decide) 100 _ chunkStopped _ .stopped "s" (some [1, 2])
    ⟨1, 0, false, []⟩ none none [] none none false rfl ⟨by simp, by simp⟩ (by simp)
    (.step (.output 0 [4]) (.step (.schedule 0 2) (.step (.addRequest nextChunk) .start ?_ rfl)
      trivial rfl) (.inr (.inl (by decide))) rfl) ?_ rfl
  · intro hw
    cases hw
  · intro u rest hq
    obtain rfl := some.inj (List.cons.inj hq).1
    exact ⟨by decide, by decide, by decide, ⟨by simp, by simp⟩, by simp, .inr (.inl (by decide))⟩

end CustomAi.Vllm
