import Mathlib.Data.List.Perm.Basic
import CustomAi.Vllm.FeatureKeys

/-!
# What a block hash says about a request

Two requests whose hashes agree at an index have the same tokens and the same flattened extra keys
in every block up to it.
-/

namespace CustomAi.Vllm

open List Request

/-- The requests made by `Request.__init__` and `append_output_token_ids`, with features that lie in
the prompt. -/
inductive Built (blockSize : ℕ) (H : CachingHashFn) : Request → Prop
  | new {r : Request} {requestId : RequestId} {promptTokenIds : Option (List TokenId)}
      {samplingParams : SamplingParams} {eosTokenId : Option TokenId}
      {promptEmbeds : Option (List Bytes)} {mmFeatures : List MultiModalFeatureSpec}
      {loraRequest : Option LoRARequest} {cacheSalt : Option String} {resumable skip : Bool}
      (hnew : Request.new requestId promptTokenIds samplingParams eosTokenId promptEmbeds
        mmFeatures loraRequest cacheSalt (some (getRequestBlockHasher blockSize H)) resumable
        skip = .ok r)
      (hstop : ∀ f ∈ mmFeatures, f.stop ≤ r.numPromptTokens) : Built blockSize H r
  | append {r : Request} (tokenIds : List TokenId) (h : Built blockSize H r) :
      Built blockSize H (r.appendOutputTokenIds (some (getRequestBlockHasher blockSize H)) tokenIds)

/-- The multimodal items that start from `s` to `e`, as identifier and start offset. -/
def Request.itemsIn (r : Request) (s e : ℕ) : List (String × ℕ) :=
  (r.mmFeatures.filter (fun f => s ≤ f.offset ∧ f.offset < e ∧ f.offset < f.stop)).map
    (fun f => (f.identifier, f.offset))

/-- The requests have the same content in the first `n` tokens. -/
structure SamePrefix (r r' : Request) (n : ℕ) : Prop where
  tokens : r.allTokenIds.take n = r'.allTokenIds.take n
  lora : r.loraRequest.map (·.loraName) = r'.loraRequest.map (·.loraName)
  salt : r.cacheSalt = r'.cacheSalt
  items : (r.itemsIn 0 n).Perm (r'.itemsIn 0 n)

/-- The flattened extra keys of the `j`-th block. -/
def Request.flatKeysAt (blockSize : ℕ) (r : Request) (j : ℕ) : List ExtraKey :=
  flatKeys r (j * blockSize) (j * blockSize + blockSize) (mmKeys (grownMmItems blockSize r j))

/-- No full block up to `i` differs in its tokens or its flattened keys. -/
def SameFlatKeys (blockSize : ℕ) (r r' : Request) (i : ℕ) : Prop :=
  ∀ j ≤ i, blockTokens blockSize r.allTokenIds j = blockTokens blockSize r'.allTokenIds j ∧
    r.flatKeysAt blockSize j = r'.flatKeysAt blockSize j

/-- The items from `s` to `e` that stand at one place of both lists with one offset. -/
def commonItems (s e : ℕ) (fs fs' : List MultiModalFeatureSpec) : List (String × ℕ) :=
  ((fs.zip fs').filter fun p => s ≤ p.1.offset ∧ p.1.offset < e ∧ p.1.offset < p.1.stop ∧
    p.2.offset = p.1.offset ∧ p.2.offset < p.2.stop).map fun p => (p.1.identifier, p.1.offset)

/-- The items of the `j`-th block that its keys do not name at one place with one offset in both
requests. -/
def Request.unnamedItems (blockSize : ℕ) (r r' : Request) (j : ℕ) : List (String × ℕ) :=
  (r.itemsIn (j * blockSize) (j * blockSize + blockSize)).diff
    (commonItems (j * blockSize) (j * blockSize + blockSize) (grownMmItems blockSize r j)
      (grownMmItems blockSize r' j))

/-- What the flattened keys leave out agrees: which optional parts there are, and the items that
they do not name. -/
structure SameOmitted (blockSize : ℕ) (r r' : Request) (i : ℕ) : Prop where
  lora : r.loraRequest.isSome = r'.loraRequest.isSome
  salt : r.cacheSalt.map String.isEmpty = r'.cacheSalt.map String.isEmpty
  unnamed : ∀ j ≤ i, (unnamedItems blockSize r r' j).Perm (unnamedItems blockSize r' r j)

variable {blockSize : ℕ} {H : CachingHashFn} {r r' : Request} {i : ℕ}

lemma Built.grown (hbs : 0 < blockSize) (h : Built blockSize H r) : Grown blockSize H r := by
  induction h with
  | new hnew hstop => exact (Grown.new hbs hnew hstop).1
  | append tokenIds _ ih => exact ih.append hbs tokenIds

lemma take_eq_flatMap_blockTokens (tokens : List TokenId) (n : ℕ) :
    tokens.take (n * blockSize) = (range n).flatMap (blockTokens blockSize tokens) := by
  induction n with
  | zero => simp
  | succ n ih =>
    rw [range_succ, flatMap_append, ← ih, flatMap_singleton, blockTokens,
      show (n + 1) * blockSize = n * blockSize + blockSize by ring]
    conv_lhs => rw [← take_append_drop (n * blockSize) (tokens.take (n * blockSize + blockSize))]
    rw [take_take, min_eq_left (Nat.le_add_right _ _)]

lemma itemsIn_perm_flatMap (blockSize : ℕ) (r : Request) (n : ℕ) :
    (r.itemsIn 0 (n * blockSize)).Perm ((range n).flatMap
      (fun j => r.itemsIn (j * blockSize) (j * blockSize + blockSize))) := by
  induction n with
  | zero => simp [itemsIn]
  | succ n ih =>
    rw [range_succ, flatMap_append, flatMap_singleton]
    refine List.Perm.trans ?_ (ih.append_right _)
    unfold itemsIn
    rw [← map_append]
    apply List.Perm.map
    have hsplit := (filter_append_perm (fun f : MultiModalFeatureSpec =>
      decide (f.offset < n * blockSize)) (r.mmFeatures.filter (fun f => decide
        (0 ≤ f.offset ∧ f.offset < (n + 1) * blockSize ∧ f.offset < f.stop)))).symm
    rw [filter_filter, filter_filter] at hsplit
    have h1 : (fun f : MultiModalFeatureSpec => decide (f.offset < n * blockSize) && decide
        (0 ≤ f.offset ∧ f.offset < (n + 1) * blockSize ∧ f.offset < f.stop)) =
        fun f => decide (0 ≤ f.offset ∧ f.offset < n * blockSize ∧ f.offset < f.stop) := by
      funext f
      rw [← Bool.decide_and, decide_eq_decide, Nat.add_mul]
      omega
    have h2 : (fun f : MultiModalFeatureSpec => !decide (f.offset < n * blockSize) && decide
        (0 ≤ f.offset ∧ f.offset < (n + 1) * blockSize ∧ f.offset < f.stop)) =
        fun f => decide (n * blockSize ≤ f.offset ∧ f.offset < n * blockSize + blockSize ∧ f.offset < f.stop) := by
      funext f
      rw [← decide_not, ← Bool.decide_and, decide_eq_decide, Nat.add_mul]
      omega
    rw [h1, h2] at hsplit
    exact hsplit

lemma itemsIn_perm_of_le {n s e : ℕ} (hen : e ≤ n) (hperm : (r.itemsIn 0 n).Perm (r'.itemsIn 0 n)) :
    (r.itemsIn s e).Perm (r'.itemsIn s e) := by
  have hfilter : ∀ q : Request, (q.itemsIn 0 n).filter (fun x => decide (s ≤ x.2 ∧ x.2 < e)) = q.itemsIn s e := by
    intro q
    unfold itemsIn
    rw [filter_map, filter_filter]
    congr 2
    funext f
    simp only [Function.comp_apply]
    rw [← Bool.decide_and, decide_eq_decide]
    omega
  have hp := hperm.filter (fun x => decide (s ≤ x.2 ∧ x.2 < e))
  rwa [hfilter r, hfilter r'] at hp

lemma grownMmItems_sublist (blockSize : ℕ) (r : Request) (j : ℕ) :
    grownMmItems blockSize r j <+ r.mmFeatures := by
  have hscan : ∀ (s e : ℕ) (fs : List MultiModalFeatureSpec), scanItems s e fs <+ fs := by
    intro s e fs
    induction fs with
    | nil => exact .slnil
    | cons f rest ih =>
      rw [scanItems]
      split_ifs with hoff hstop hend
      · exact ih.cons f
      · exact ih.cons_cons f
      · simp
      · exact nil_sublist _
  unfold grownMmItems resumedMmItems freshMmItems
  split_ifs
  · exact nil_sublist _
  · exact (hscan ..).trans (drop_sublist ..)
  · exact (hscan ..).trans ((dropWhile_sublist _).trans (drop_sublist ..))
  · exact nil_sublist _
  · exact (hscan ..).trans (dropWhile_sublist _)

section

variable {s e : ℕ} {fs fs' : List MultiModalFeatureSpec}

lemma commonItems_cons (s e : ℕ) (f f' : MultiModalFeatureSpec) (fs fs' : List MultiModalFeatureSpec) :
    commonItems s e (f :: fs) (f' :: fs') = (if s ≤ f.offset ∧ f.offset < e ∧ f.offset < f.stop ∧
      f'.offset = f.offset ∧ f'.offset < f'.stop then [(f.identifier, f.offset)] else []) ++
        commonItems s e fs fs' := by
  simp only [commonItems, zip_cons_cons, filter_cons, decide_eq_true_eq]
  split_ifs <;> rfl

lemma commonItems_comm (h : mmKeys fs = mmKeys fs') : commonItems s e fs fs' = commonItems s e fs' fs := by
  induction fs generalizing fs' with
  | nil => rw [map_eq_nil_iff.mp h.symm]
  | cons f fs ih =>
    obtain ⟨f', fs', rfl, hf, hfs⟩ := map_eq_cons_iff.mp h.symm
    rw [commonItems_cons, commonItems_cons, ih hfs.symm, ExtraKey.str.inj hf]
    congr 1
    by_cases hoff : f'.offset = f.offset
    · rw [hoff]
      exact if_congr (by tauto) rfl rfl
    · rw [if_neg (by tauto), if_neg (by tauto)]

lemma commonItems_sublist (fs fs' : List MultiModalFeatureSpec) : commonItems s e fs fs' <+
    (fs.filter (fun f => s ≤ f.offset ∧ f.offset < e ∧ f.offset < f.stop)).map
      (fun f => (f.identifier, f.offset)) := by
  induction fs generalizing fs' with
  | nil => exact nil_sublist _
  | cons f fs ih =>
    cases fs' with
    | nil => exact nil_sublist _
    | cons f' fs' =>
      rw [commonItems_cons, filter_cons]
      split_ifs with hpair hf hf
      · exact (ih fs').cons_cons _
      · simp only [decide_eq_true_eq] at hf
        tauto
      · exact (ih fs').cons _
      · exact ih fs'

end

/-- With equal keys the unnamed items tell the items. -/
lemma unnamedItems_perm_iff {j : ℕ} (h : mmKeys (grownMmItems blockSize r j) = mmKeys (grownMmItems blockSize r' j)) :
    (unnamedItems blockSize r r' j).Perm (unnamedItems blockSize r' r j) ↔
    (r.itemsIn (j * blockSize) (j * blockSize + blockSize)).Perm
      (r'.itemsIn (j * blockSize) (j * blockSize + blockSize)) := by
  unfold unnamedItems
  rw [← commonItems_comm h]
  refine ⟨fun hp => ?_, fun hp => hp.diff_right _⟩
  have hsub : ∀ (q : Request) fs, commonItems (j * blockSize) (j * blockSize + blockSize)
      (grownMmItems blockSize q j) fs <+ q.itemsIn (j * blockSize) (j * blockSize + blockSize) := fun q fs =>
    (commonItems_sublist _ fs).trans (((grownMmItems_sublist blockSize q j).filter _).map _)
  have hsub' := hsub r' (grownMmItems blockSize r j)
  rw [← commonItems_comm h] at hsub'
  exact (subperm_append_diff_self_of_count_le fun x _ => (hsub r _).count_le x).symm.trans
    ((hp.append_left _).trans (subperm_append_diff_self_of_count_le fun x _ => hsub'.count_le x))

def ExtraKey.isStr : ExtraKey → Bool
  | .str _ => true
  | .bytes _ => false

lemma filter_isStr_flatKeys (r : Request) (s e : ℕ) (items : List MultiModalFeatureSpec) :
    (flatKeys r s e (mmKeys items)).filter ExtraKey.isStr =
      genLoraExtraHashKeys r ++ mmKeys items ++ genCacheSaltKeys r s := by
  have hlora : (genLoraExtraHashKeys r).filter ExtraKey.isStr = genLoraExtraHashKeys r := by
    unfold genLoraExtraHashKeys
    split <;> rfl
  have hmm : (mmKeys items).filter ExtraKey.isStr = mmKeys items := by
    rw [filter_eq_self]
    intro k hk
    obtain ⟨f, -, rfl⟩ := mem_map.mp hk
    rfl
  have hsalt : (genCacheSaltKeys r s).filter ExtraKey.isStr = genCacheSaltKeys r s := by
    unfold genCacheSaltKeys
    split
    · rfl
    · split <;> rfl
  have hemb : (genPromptEmbedsExtraHashKeys r s e).filter ExtraKey.isStr = [] := by
    unfold genPromptEmbedsExtraHashKeys
    split <;> rfl
  simp only [flatKeys, filter_append, hlora, hmm, hsalt, hemb, append_nil]

lemma length_loraKeys (r : Request) : (genLoraExtraHashKeys r).length = if r.loraRequest.isSome then 1 else 0 := by
  unfold genLoraExtraHashKeys
  cases r.loraRequest <;> rfl

lemma length_saltKeys (r : Request) (s : ℕ) : (genCacheSaltKeys r s).length =
    if s = 0 ∧ r.cacheSalt.map String.isEmpty = some false then 1 else 0 := by
  unfold genCacheSaltKeys
  cases h : r.cacheSalt with
  | none => simp
  | some salt =>
    by_cases hs : salt = ""
    · simp [hs]
    · by_cases h0 : s = 0
      · simp [hs, h0]
      · simp [h0]

lemma flatKeys_parts {s e : ℕ} {items items' : List MultiModalFeatureSpec}
    (hlora : r.loraRequest.isSome = r'.loraRequest.isSome)
    (hsalt : r.cacheSalt.map String.isEmpty = r'.cacheSalt.map String.isEmpty)
    (heq : flatKeys r s e (mmKeys items) = flatKeys r' s e (mmKeys items')) :
    genLoraExtraHashKeys r = genLoraExtraHashKeys r' ∧ mmKeys items = mmKeys items' ∧
      genCacheSaltKeys r s = genCacheSaltKeys r' s := by
  have hf := congrArg (filter ExtraKey.isStr) heq
  rw [filter_isStr_flatKeys, filter_isStr_flatKeys] at hf
  have hl : (genLoraExtraHashKeys r).length = (genLoraExtraHashKeys r').length := by
    rw [length_loraKeys, length_loraKeys, hlora]
  have hs : (genCacheSaltKeys r s).length = (genCacheSaltKeys r' s).length := by
    rw [length_saltKeys, length_saltKeys, hsalt]
  obtain ⟨hfront, hs'⟩ := append_inj' hf hs
  obtain ⟨hl', hm⟩ := append_inj hfront hl
  exact ⟨hl', hm, hs'⟩

lemma loraName_eq_of_keys (h : genLoraExtraHashKeys r = genLoraExtraHashKeys r') :
    r.loraRequest.map (·.loraName) = r'.loraRequest.map (·.loraName) := by
  unfold genLoraExtraHashKeys at h
  cases hr : r.loraRequest <;> cases hr' : r'.loraRequest <;> simp_all

lemma cacheSalt_eq_of_keys (hsalt : r.cacheSalt.map String.isEmpty = r'.cacheSalt.map String.isEmpty)
    (h : genCacheSaltKeys r 0 = genCacheSaltKeys r' 0) : r.cacheSalt = r'.cacheSalt := by
  unfold genCacheSaltKeys at h
  cases hr : r.cacheSalt with
  | none =>
    rw [hr] at hsalt
    cases hr' : r'.cacheSalt with
    | none => rfl
    | some salt' => simp [hr'] at hsalt
  | some salt =>
    rw [hr] at hsalt h
    cases hr' : r'.cacheSalt with
    | none => simp [hr'] at hsalt
    | some salt' =>
      rw [hr'] at hsalt h
      simp only [Option.map_some, Option.some.injEq] at hsalt
      have hempty : salt = "" ↔ salt' = "" := by
        rw [← String.isEmpty_iff, ← String.isEmpty_iff, hsalt]
      by_cases hs : salt = ""
      · rw [hs, hempty.mp hs]
      · have hs' : ¬salt' = "" := fun h0 => hs (hempty.mpr h0)
        simpa [hs, hs'] using h

lemma take_blockInputs_eq_iff {items items' : ℕ → List MultiModalFeatureSpec}
    (hi : i < r.numTokens / blockSize) (hi' : i < r'.numTokens / blockSize) :
    (blockInputs blockSize r items).take (i + 1) = (blockInputs blockSize r' items').take (i + 1) ↔
      ∀ j ≤ i, blockInput blockSize r items j = blockInput blockSize r' items' j := by
  unfold blockInputs
  rw [← map_take, ← map_take, take_range, take_range, min_eq_left hi, min_eq_left hi', map_inj_left]
  simp only [mem_range, Nat.lt_succ_iff]

theorem Grown.hash_eq_iff (hH : H.Injective) (h : Grown blockSize H r) (h' : Grown blockSize H r')
    (hi : i < r.blockHashes.length) (hi' : i < r'.blockHashes.length) :
    r.blockHashes[i]? = r'.blockHashes[i]? ↔ SameFlatKeys blockSize r r' i := by
  rw [h.length_blockHashes] at hi
  rw [h'.length_blockHashes] at hi'
  rw [h.blockHashes_eq, h'.blockHashes_eq,
    hH.binding.getElem?_eq_iff (by rwa [length_blockInputs]), take_blockInputs_eq_iff hi hi']
  simp only [blockInput, Prod.mk.injEq, extraKeysTuple_inj]
  rfl

lemma SameFlatKeys.samePrefix (h : SameFlatKeys blockSize r r' i)
    (hom : SameOmitted blockSize r r' i) : SamePrefix r r' ((i + 1) * blockSize) := by
  have hparts : ∀ j ≤ i, _ := fun j hj => flatKeys_parts hom.lora hom.salt (h j hj).2
  have h0 := hparts 0 (Nat.zero_le i)
  rw [Nat.zero_mul] at h0
  refine ⟨?_, loraName_eq_of_keys h0.1, cacheSalt_eq_of_keys hom.salt h0.2.2, ?_⟩
  · rw [take_eq_flatMap_blockTokens, take_eq_flatMap_blockTokens]
    apply flatMap_congr
    intro j hj
    exact (h j (Nat.lt_succ_iff.mp (mem_range.mp hj))).1
  · refine (itemsIn_perm_flatMap blockSize r (i + 1)).trans (Perm.trans (Perm.flatMap_left _ fun j hj => ?_)
      (itemsIn_perm_flatMap blockSize r' (i + 1)).symm)
    have hj := Nat.lt_succ_iff.mp (mem_range.mp hj)
    exact (unnamedItems_perm_iff (hparts j hj).2.1).mp (hom.unnamed j hj)

lemma SamePrefix.sameOmitted (h : SameFlatKeys blockSize r r' i)
    (hsame : SamePrefix r r' ((i + 1) * blockSize)) : SameOmitted blockSize r r' i := by
  have hlora : r.loraRequest.isSome = r'.loraRequest.isSome := by
    simpa using congrArg Option.isSome hsame.lora
  have hsalt : r.cacheSalt.map String.isEmpty = r'.cacheSalt.map String.isEmpty := by rw [hsame.salt]
  refine ⟨hlora, hsalt, fun j hj => ?_⟩
  have hle : j * blockSize + blockSize ≤ (i + 1) * blockSize := by
    rw [← Nat.succ_mul]
    exact Nat.mul_le_mul_right blockSize (by omega)
  exact (unnamedItems_perm_iff (flatKeys_parts hlora hsalt (h j hj).2).2.1).mpr (itemsIn_perm_of_le hle hsame.items)

def pairRequest (mmFeatures : List MultiModalFeatureSpec) (loraRequest : Option LoRARequest)
    (cacheSalt : Option String) : Except PyError Request :=
  Request.new "r" (some [7, 7]) ⟨1, 0, false, []⟩ none none mmFeatures loraRequest cacheSalt
    (some (getRequestBlockHasher 2 serializingHashFn)) false false

lemma pairRequest_built {mmFeatures : List MultiModalFeatureSpec}
    {loraRequest : Option LoRARequest} {cacheSalt : Option String}
    (hr : pairRequest mmFeatures loraRequest cacheSalt = .ok r) (hstop : ∀ f ∈ mmFeatures, f.stop ≤ 2) :
    Built 2 serializingHashFn r := by
  have hprompt : r.numPromptTokens = 2 := by
    obtain rfl := Except.ok.inj hr
    rfl
  exact .new hr (by rwa [hprompt])

end CustomAi.Vllm
