import CustomAi.Vllm.BlockHashChain

/-!
# Hashing while a request grows

A request hashes its prompt when it is created and every further full block when output tokens
complete it.
-/

namespace CustomAi.Vllm

open List Except Request

namespace Request

/-- A sequence of calls of `append_output_token_ids`. -/
def appendOutputs (blockHasher : Option BlockHasher) (r : Request) (calls : List (List TokenId)) :
    Request :=
  calls.foldl (appendOutputTokenIds blockHasher) r

def numPromptBlocks (blockSize : ℕ) (r : Request) : ℕ := r.numPromptTokens / blockSize

end Request

/-- The features named in the `j`-th block of a request that grew from its prompt. -/
def grownMmItems (blockSize : ℕ) (r : Request) (j : ℕ) : List MultiModalFeatureSpec :=
  if 0 < r.numPromptBlocks blockSize ∧ j = r.numPromptBlocks blockSize then
    resumedMmItems r.mmFeatures (j * blockSize) (j * blockSize) (j * blockSize + blockSize)
  else freshMmItems r.mmFeatures (j * blockSize) (j * blockSize + blockSize)

structure Grown (blockSize : ℕ) (H : CachingHashFn) (r : Request) : Prop where
  blockHashes_eq : r.blockHashes = chain (blockStep H) [] (blockInputs blockSize r (grownMmItems blockSize r))
  numPromptTokens_le : r.numPromptTokens ≤ r.numTokens
  stop_le : ∀ f ∈ r.mmFeatures, f.stop ≤ r.numPromptTokens

variable {blockSize : ℕ} {H : CachingHashFn} {r r' : Request}

lemma Grown.length_blockHashes (h : Grown blockSize H r) : r.blockHashes.length = r.numTokens / blockSize := by
  rw [h.blockHashes_eq, length_chain, length_blockInputs]

structure SameContent (r r' : Request) : Prop where
  mmFeatures : r'.mmFeatures = r.mmFeatures
  loraRequest : r'.loraRequest = r.loraRequest
  cacheSalt : r'.cacheSalt = r.cacheSalt
  promptEmbeds : r'.promptEmbeds = r.promptEmbeds

lemma SameContent.flatKeys_eq (h : SameContent r r') (s e : ℕ) (mm : List ExtraKey) :
    flatKeys r' s e mm = flatKeys r s e mm := by
  simp only [flatKeys, genLoraExtraHashKeys, genCacheSaltKeys, genPromptEmbedsExtraHashKeys,
    h.loraRequest, h.cacheSalt, h.promptEmbeds]

variable {fs : List MultiModalFeatureSpec}

variable {e j s : ℕ}

lemma prompt_lt_of_numPromptBlocks_lt (hbs : 0 < blockSize) (hj : r.numPromptBlocks blockSize < j) :
    r.numPromptTokens < j * blockSize := by
  rw [numPromptBlocks, Nat.div_lt_iff_lt_mul hbs] at hj
  exact hj

lemma Grown.past (hbs : 0 < blockSize) (h : Grown blockSize H r)
    (hj : r.numPromptBlocks blockSize < j) : pastFeatures r.mmFeatures (j * blockSize) :=
  fun last hl => (h.stop_le last (mem_of_mem_getLast? hl)).trans_lt (prompt_lt_of_numPromptBlocks_lt hbs hj)

lemma blockTokens_append {tokens tokens' : List TokenId} (h : j * blockSize + blockSize ≤ tokens.length) :
    blockTokens blockSize (tokens ++ tokens') j = blockTokens blockSize tokens j := by
  unfold blockTokens
  rw [take_append_of_le_length h]

lemma take_blockInputs_append (hbs : 0 < blockSize) (items : ℕ → List MultiModalFeatureSpec)
    (hlen : r.blockHashes.length = r.numTokens / blockSize) (tokenIds : List TokenId) :
    (blockInputs blockSize { r with
      outputTokenIds := r.outputTokenIds ++ tokenIds
      allTokenIds := r.allTokenIds ++ tokenIds } items).take r.blockHashes.length =
        blockInputs blockSize r items := by
  have hle : r.numTokens / blockSize ≤ (r.allTokenIds ++ tokenIds).length / blockSize :=
    Nat.div_le_div_right (length_append ▸ Nat.le_add_right _ _)
  rw [take_blockInputs_congr r items (hlen ▸ hle) hlen.le, take_of_length_le (by rw [length_blockInputs, hlen])]
  intro j hj
  have htok : blockTokens blockSize (r.allTokenIds ++ tokenIds) j = blockTokens blockSize r.allTokenIds j :=
    blockTokens_append ((add_le_iff_lt_div hbs).mpr (hlen ▸ hj))
  simp only [blockInput, htok]
  rfl

section

variable (hbs : 0 < blockSize)
include hbs

lemma Grown.of_fresh (hnil : r.blockHashes = []) (hprompt : r.numPromptTokens ≤ r.numTokens)
    (hk : r.numPromptBlocks blockSize = 0 ∨ r.numTokens = r.numPromptTokens)
    (hstop : ∀ f ∈ r.mmFeatures, f.stop ≤ r.numPromptTokens) :
    Grown blockSize H { r with blockHashes := getRequestBlockHasher blockSize H r } := by
  refine ⟨?_, hprompt, hstop⟩
  have hext := hashes_extend H r (grownMmItems blockSize r) hbs
    (by rw [hnil]; rfl) (fun j _ hj => by
      have hne : ¬(0 < r.numPromptBlocks blockSize ∧ j = r.numPromptBlocks blockSize) := by
        rintro ⟨hpos, rfl⟩
        rcases hk with hk | hk
        · omega
        · rw [hk] at hj
          exact absurd hj (lt_irrefl _)
      simp only [grownMmItems, hne, ite_false, scannedMmItems, hnil, length_nil, ite_true])
  rw [hnil] at hext
  exact hext

lemma Grown.append (h : Grown blockSize H r) (tokenIds : List TokenId) :
    Grown blockSize H (r.appendOutputTokenIds (some (getRequestBlockHasher blockSize H)) tokenIds) := by
  set r1 : Request := { r with
    outputTokenIds := r.outputTokenIds ++ tokenIds
    allTokenIds := r.allTokenIds ++ tokenIds }
  have hnum : r1.numTokens = r.numTokens + tokenIds.length := length_append
  have hprompt : r1.numPromptTokens ≤ r1.numTokens := by
    have := h.numPromptTokens_le
    change r.numPromptTokens ≤ _
    omega
  have hlen := h.length_blockHashes
  have hkle : r.numPromptBlocks blockSize ≤ r.blockHashes.length := by
    rw [hlen]
    exact Nat.div_le_div_right h.numPromptTokens_le
  have htake : (blockInputs blockSize r1 (grownMmItems blockSize r1)).take r.blockHashes.length =
      blockInputs blockSize r (grownMmItems blockSize r) := take_blockInputs_append hbs _ hlen tokenIds
  refine ⟨hashes_extend H r1 (grownMmItems blockSize r1) hbs ?_ ?_, hprompt, h.stop_le⟩
  · rw [htake]
    exact h.blockHashes_eq
  · intro j hkj hj
    have hkj' : r.blockHashes.length ≤ j := hkj
    change grownMmItems blockSize r j = scannedMmItems blockSize r.mmFeatures r.blockHashes.length j
    unfold scannedMmItems grownMmItems
    by_cases h0 : r.blockHashes.length = 0
    · have hk0 : ¬0 < r.numPromptBlocks blockSize := by omega
      simp only [hk0, false_and, ite_false, h0, ite_true]
    · by_cases hpk : j = r.numPromptBlocks blockSize
      · -- the first resumed block is the one after the prompt blocks
        have hjk : j = r.blockHashes.length := by omega
        have hpos : 0 < r.numPromptBlocks blockSize := by omega
        simp only [hpos, hpk, and_self, ite_true, h0, ite_false]
        rw [← hjk, hpk]
      · have hpast : pastFeatures r.mmFeatures (j * blockSize) := h.past hbs (by omega)
        have hne : ¬(0 < r.numPromptBlocks blockSize ∧ j = r.numPromptBlocks blockSize) :=
          fun hc => hpk hc.2
        simp only [hne, ite_false, h0, freshMmItems, resumedMmItems, hpast, ite_true]

lemma Grown.new {requestId : RequestId} {promptTokenIds : Option (List TokenId)} {samplingParams : SamplingParams}
    {eosTokenId : Option TokenId} {promptEmbeds : Option (List Bytes)}
    {mmFeatures : List MultiModalFeatureSpec} {loraRequest : Option LoRARequest}
    {cacheSalt : Option String} {resumable skip : Bool}
    (hnew : Request.new requestId promptTokenIds samplingParams eosTokenId promptEmbeds mmFeatures
      loraRequest cacheSalt (some (getRequestBlockHasher blockSize H)) resumable skip = .ok r)
    (hstop : ∀ f ∈ mmFeatures, f.stop ≤ r.numPromptTokens) :
    Grown blockSize H r ∧ r.mmFeatures = mmFeatures ∧ r.loraRequest = loraRequest ∧
      r.cacheSalt = cacheSalt ∧ r.promptEmbeds = promptEmbeds ∧
      r.allTokenIds = promptTokenIds.getD (replicate r.numPromptTokens 0) ∧ r.numTokens = r.numPromptTokens := by
  simp only [Request.new, bind_eq_ok, pure_eq_ok, ok.injEq] at hnew
  obtain ⟨n, hn, rfl⟩ := hnew
  have hlen : (promptTokenIds.getD (replicate n 0)).length = n := by
    unfold lengthFromPromptTokenIdsOrEmbeds at hn
    cases promptTokenIds with
    | none => simp
    | some ids =>
      cases promptEmbeds with
      | none => simpa using hn
      | some embeds =>
        simp only at hn
        split at hn
        · cases hn
        · simpa using hn
  set request : Request :=
    { requestId, promptTokenIds, promptEmbeds, numPromptTokens := n, samplingParams
      maxTokens := samplingParams.maxTokens
      allTokenIds := promptTokenIds.getD (replicate n 0)
      eosTokenId, mmFeatures, loraRequest, cacheSalt, resumable, skipReadingPrefixCache := skip }
  have hgrown : Grown blockSize H
      { request with blockHashes := getRequestBlockHasher blockSize H request } :=
    Grown.of_fresh hbs rfl hlen.ge (.inr hlen) hstop
  exact ⟨hgrown, rfl, rfl, rfl, rfl, rfl, hlen⟩

lemma Grown.appendOutputs (h : Grown blockSize H r) (calls : List (List TokenId)) :
    Grown blockSize H (r.appendOutputs (some (getRequestBlockHasher blockSize H)) calls) := by
  induction calls generalizing r with
  | nil => exact h
  | cons tokenIds rest ih => exact ih (h.append hbs tokenIds)

end

lemma appendOutputs_same (blockHasher : Option BlockHasher) (calls : List (List TokenId)) :
    SameContent r (r.appendOutputs blockHasher calls) ∧
      (r.appendOutputs blockHasher calls).allTokenIds = r.allTokenIds ++ calls.flatten ∧
      (r.appendOutputs blockHasher calls).numPromptTokens = r.numPromptTokens := by
  induction calls generalizing r with
  | nil => exact ⟨⟨rfl, rfl, rfl, rfl⟩, by simp [appendOutputs], rfl⟩
  | cons tokenIds rest ih =>
    obtain ⟨⟨h1, h2, h3, h4⟩, htok, hprompt⟩ := ih (r := r.appendOutputTokenIds blockHasher tokenIds)
    refine ⟨⟨h1, h2, h3, h4⟩, ?_, hprompt⟩
    change ((r.appendOutputTokenIds blockHasher tokenIds).appendOutputs blockHasher rest).allTokenIds = _
    rw [htok]
    simp [appendOutputTokenIds, extendBlockHashes]

/-- The features that a scan names in a block that ends behind all of them. -/
def reachingItems (fs : List MultiModalFeatureSpec) (s : ℕ) : List MultiModalFeatureSpec :=
  (fs.dropWhile (·.passed s)).filter (fun f => s ≤ f.stop)

/-- Resuming behind the prompt names the features that a full scan names. -/
def ResumeHarmless (blockSize promptLen total : ℕ) (fs : List MultiModalFeatureSpec) : Prop :=
  let s := promptLen / blockSize * blockSize
  promptLen / blockSize = 0 ∨ total < s + blockSize ∨ pastFeatures fs s ∨
    (reachingItems fs s).map (·.identifier) = fs.getLast?.toList.map (·.identifier)

lemma scanItems_eq_filter (h : ∀ f ∈ fs, f.stop < e) : scanItems s e fs = fs.filter (fun f => s ≤ f.stop) := by
  induction fs with
  | nil => rfl
  | cons f rest ih =>
    have hf := h f mem_cons_self
    have hoff : f.offset < e := (Nat.le_add_right _ _).trans_lt hf
    have hrest := ih (fun g hg => h g (mem_cons_of_mem f hg))
    by_cases hs : f.stop < s
    · have hn : ¬s ≤ f.stop := by omega
      simp [scanItems, hoff, hs, hrest, hn]
    · have hn : s ≤ f.stop := by omega
      simp [scanItems, hoff, hs, hf.le, hrest, hn]

lemma mmKeys_inj {gs : List MultiModalFeatureSpec} :
    mmKeys fs = mmKeys gs ↔ fs.map (·.identifier) = gs.map (·.identifier) := by
  have hmap : ∀ l : List MultiModalFeatureSpec, mmKeys l = (l.map (·.identifier)).map ExtraKey.str := by
    intro l
    rw [map_map]
    rfl
  rw [hmap, hmap]
  exact map_injective_iff.mpr (fun _ _ h => ExtraKey.str.inj h) |>.eq_iff

lemma drop_length_sub_one {α : Type} (l : List α) : l.drop (l.length - 1) = l.getLast?.toList := by
  rcases eq_nil_or_concat l with rfl | ⟨l', a, rfl⟩
  · rfl
  · simp

lemma resumed_keys_iff (h : ∀ f ∈ fs, f.stop < e) :
    mmKeys (resumedMmItems fs s s e) = mmKeys (freshMmItems fs s e) ↔ pastFeatures fs s ∨
        (reachingItems fs s).map (·.identifier) = fs.getLast?.toList.map (·.identifier) := by
  by_cases hp : pastFeatures fs s
  · simp [resumedMmItems, freshMmItems, hp]
  · have hlast : scanItems s e fs.getLast?.toList = fs.getLast?.toList := by
      unfold pastFeatures at hp
      push Not at hp
      obtain ⟨last, hl, hs⟩ := hp
      have hmem : last ∈ fs := mem_of_mem_getLast? hl
      rw [hl, scanItems_eq_filter (by simpa using h last hmem)]
      simp [hs]
    have hdrop : ∀ f ∈ fs.dropWhile (·.passed s), f.stop < e := fun f hf =>
      h f ((dropWhile_suffix _).subset hf)
    simp only [resumedMmItems, freshMmItems, hp, ite_false, ite_true, false_or, drop_length_sub_one, hlast]
    rw [mmKeys_inj, scanItems_eq_filter hdrop, eq_comm]
    rfl

lemma extraKeys_congr {mm mm' : List ExtraKey} : flatKeys r s e mm = flatKeys r s e mm' ↔ mm = mm' := by
  simp [flatKeys]

theorem Grown.eq_fresh_iff (hH : H.Injective) (hbs : 0 < blockSize) (h : Grown blockSize H r)
    (h' : Grown blockSize H r') (hsame : SameContent r r') (htok : r'.allTokenIds = r.allTokenIds)
    (hprompt : r'.numTokens = r'.numPromptTokens) : r.blockHashes = r'.blockHashes ↔
      ResumeHarmless blockSize r.numPromptTokens r.numTokens r.mmFeatures := by
  have hnum : r'.numTokens = r.numTokens := by rw [numTokens, htok]; rfl
  set k := r.numPromptBlocks blockSize
  have hkdef : r.numPromptTokens / blockSize = k := rfl
  have hitems : ∀ j < r.numTokens / blockSize, (blockInput blockSize r (grownMmItems blockSize r) j =
        blockInput blockSize r' (grownMmItems blockSize r') j ↔ mmKeys (grownMmItems blockSize r j) =
          mmKeys (freshMmItems r.mmFeatures (j * blockSize) (j * blockSize + blockSize))) := by
    intro j hj
    have hne : ¬(0 < r'.numPromptBlocks blockSize ∧ j = r'.numPromptBlocks blockSize) := by
      rintro ⟨-, rfl⟩
      rw [numPromptBlocks, ← hprompt, hnum] at hj
      exact absurd hj (lt_irrefl _)
    have hgrown : grownMmItems blockSize r' j =
        freshMmItems r.mmFeatures (j * blockSize) (j * blockSize + blockSize) := by
      rw [grownMmItems, if_neg hne, hsame.mmFeatures]
    simp only [blockInput, htok, hsame.flatKeys_eq, hgrown, Prod.mk.injEq, true_and,
      extraKeysTuple_inj, extraKeys_congr]
  have hinputs : r.blockHashes = r'.blockHashes ↔ ∀ j < r.numTokens / blockSize,
      mmKeys (grownMmItems blockSize r j) =
        mmKeys (freshMmItems r.mmFeatures (j * blockSize) (j * blockSize + blockSize)) := by
    rw [h.blockHashes_eq, h'.blockHashes_eq, hH.binding.chain_inj, blockInputs, blockInputs, hnum, map_inj_left]
    constructor
    · intro hall j hj
      exact (hitems j hj).mp (hall j (mem_range.mpr hj))
    · intro hall j hj
      exact (hitems j (mem_range.mp hj)).mpr (hall j (mem_range.mp hj))
  have hafter : ∀ f ∈ r.mmFeatures, f.stop < k * blockSize + blockSize := by
    intro f hf
    have hlt := Nat.lt_mul_div_succ r.numPromptTokens hbs
    have hs := h.stop_le f hf
    have hmul : blockSize * (r.numPromptTokens / blockSize + 1) = k * blockSize + blockSize := by
      rw [hkdef]
      ring
    omega
  have hkeys := resumed_keys_iff (s := k * blockSize) hafter
  rw [hinputs]
  unfold ResumeHarmless
  simp only [hkdef]
  rw [← hkeys]
  constructor
  · intro hall
    by_cases hk0 : k = 0
    · exact .inl hk0
    · by_cases hlt : k < r.numTokens / blockSize
      · have hj := hall k hlt
        rw [grownMmItems, if_pos ⟨Nat.pos_of_ne_zero hk0, rfl⟩] at hj
        exact .inr (.inr hj)
      · have hno : ¬k * blockSize + blockSize ≤ r.numTokens := fun hle =>
          hlt ((add_le_iff_lt_div hbs).mp hle)
        exact .inr (.inl (not_le.mp hno))
  · intro hcond j hj
    by_cases hjk : 0 < k ∧ j = k
    · obtain ⟨hpos, rfl⟩ := hjk
      have hle := (add_le_iff_lt_div hbs).mpr hj
      rw [grownMmItems, if_pos ⟨hpos, rfl⟩]
      rcases hcond with h0 | hlt | heq
      · omega
      · omega
      · exact heq
    · rw [grownMmItems, if_neg hjk]

/-- Appended tokens give the hashes of a fresh request exactly if resuming is harmless. -/
theorem appendOutputs_hashes_eq_iff (hbs : 0 < blockSize) (hH : H.Injective)
    (requestId requestId' : RequestId) (prompt : List TokenId) (calls : List (List TokenId))
    (samplingParams samplingParams' : SamplingParams) (eosTokenId eosTokenId' : Option TokenId)
    (mmFeatures : List MultiModalFeatureSpec) (loraRequest : Option LoRARequest)
    (cacheSalt : Option String) (resumable resumable' skip skip' : Bool)
    (hnew : Request.new requestId (some prompt) samplingParams eosTokenId none mmFeatures
      loraRequest cacheSalt (some (getRequestBlockHasher blockSize H)) resumable skip = .ok r)
    (hnew' : Request.new requestId' (some (prompt ++ calls.flatten)) samplingParams' eosTokenId'
      none mmFeatures loraRequest cacheSalt (some (getRequestBlockHasher blockSize H)) resumable'
      skip' = .ok r') (hstop : ∀ f ∈ mmFeatures, f.stop ≤ prompt.length) :
    (r.appendOutputs (some (getRequestBlockHasher blockSize H)) calls).blockHashes = r'.blockHashes ↔
      ResumeHarmless blockSize prompt.length (prompt.length + calls.flatten.length) mmFeatures := by
  have hprompt : r.numPromptTokens = prompt.length := by
    simp only [new, bind_eq_ok, pure_eq_ok, ok.injEq] at hnew
    obtain ⟨n, hn, rfl⟩ := hnew
    exact (ok.inj hn).symm
  have hprompt' : r'.numPromptTokens = (prompt ++ calls.flatten).length := by
    simp only [new, bind_eq_ok, pure_eq_ok, ok.injEq] at hnew'
    obtain ⟨n, hn, rfl⟩ := hnew'
    exact (ok.inj hn).symm
  obtain ⟨hg, hmm, hlora, hsalt, hemb, htok, -⟩ := Grown.new hbs hnew (by rwa [hprompt])
  obtain ⟨hg', hmm', hlora', hsalt', hemb', htok', hnum'⟩ := Grown.new hbs hnew' (by
    intro f hf
    rw [hprompt', length_append]
    exact (hstop f hf).trans (Nat.le_add_right _ _))
  obtain ⟨hsame, happ, hpr⟩ := appendOutputs_same (r := r) (some (getRequestBlockHasher blockSize H)) calls
  have hcontent : SameContent (r.appendOutputs (some (getRequestBlockHasher blockSize H)) calls)
      r' := by
    refine ⟨?_, ?_, ?_, ?_⟩
    · rw [hsame.mmFeatures, hmm, hmm']
    · rw [hsame.loraRequest, hlora, hlora']
    · rw [hsame.cacheSalt, hsalt, hsalt']
    · rw [hsame.promptEmbeds, hemb, hemb']
  have htokens : r'.allTokenIds =
      (r.appendOutputs (some (getRequestBlockHasher blockSize H)) calls).allTokenIds := by
    rw [happ, htok, htok']
    rfl
  have hiff := (hg.appendOutputs hbs calls).eq_fresh_iff hH hbs hg' hcontent htokens hnum'
  rw [hiff, hpr, hprompt, hsame.mmFeatures, hmm, numTokens, happ, htok]
  simp

/-- A feature that ends at the end of the first block, and is named in the next one again. -/
def edgeFeature : MultiModalFeatureSpec := ⟨"i", ⟨0, 2, none⟩⟩

def edgeRequest (prompt : List TokenId) (mmFeatures : List MultiModalFeatureSpec) :
    Except PyError Request :=
  Request.new "r" (some prompt) ⟨1, 0, false, []⟩ none none mmFeatures none none
    (some (getRequestBlockHasher 2 serializingHashFn)) false false

theorem appendOutputs_hashes_ne : ∃ r r', edgeRequest [1, 2, 3] [edgeFeature] = .ok r ∧
    edgeRequest ([1, 2, 3] ++ [[4]].flatten) [edgeFeature] = .ok r' ∧
    (∀ f ∈ [edgeFeature], f.stop ≤ [1, 2, 3].length) ∧
    (r.appendOutputs (some (getRequestBlockHasher 2 serializingHashFn)) [[4]]).blockHashes ≠ r'.blockHashes := by
  refine ⟨_, _, rfl, rfl, by decide, ?_⟩
  decide +kernel

/-- The same tokens with the feature one token earlier. -/
theorem appendOutputs_hashes_eq_iff_apart : ∃ r r',
    edgeRequest [1, 2, 3] [⟨"i", ⟨0, 1, none⟩⟩] = .ok r ∧
    edgeRequest ([1, 2, 3] ++ [[4], [5, 6]].flatten) [⟨"i", ⟨0, 1, none⟩⟩] = .ok r' ∧
    (r.appendOutputs (some (getRequestBlockHasher 2 serializingHashFn)) [[4], [5, 6]]).blockHashes =
      r'.blockHashes := by
  refine ⟨_, _, rfl, rfl, ?_⟩
  refine (appendOutputs_hashes_eq_iff (by decide) serializingHashFn_collisionFree.toInjective _ _ _
    [[4], [5, 6]] _ _ _ _ _ _ _ _ _ _ _ rfl rfl (by decide)).mpr ?_
  exact .inr (.inr (.inl (by decide)))

end CustomAi.Vllm
