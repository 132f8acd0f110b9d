import CustomAi.Vllm.RejectionSampler

/-!
# The constraints of one request

What the sampler computes for a request of a batch depends on that request only.
-/

namespace CustomAi.Vllm

open List GreedyRequest

variable {V : ℕ} {batch : List (GreedyRequest V)}

def GreedyRequest.constrain (r : GreedyRequest V) (past : List (Fin V)) (row : LogitsRow V) :
    LogitsRow V :=
  penalizeRow r.promptTokenIds past r.presencePenalty r.frequencyPenalty r.repetitionPenalty
    (applyBadWordsSingleBatch r.badWordsTokenIds past (fillMasked r.allowedMask row))

lemma applyBadWordsSingleBatch_of (words : List (BadWord V)) (past : List (Fin V))
    (row : LogitsRow V) (v : Fin V) :
    ((∃ word ∈ words, word.follows past = true ∧ word.1.getLast word.2 = v) →
      applyBadWordsSingleBatch words past row v = ⊥) ∧
    ((¬∃ word ∈ words, word.follows past = true ∧ word.1.getLast word.2 = v) →
      applyBadWordsSingleBatch words past row v = row v) := by
  induction words generalizing row with
  | nil => exact ⟨fun ⟨_, h, _⟩ => absurd h not_mem_nil, fun _ => rfl⟩
  | cons word words ih =>
    have hfold : applyBadWordsSingleBatch (word :: words) past row =
        applyBadWordsSingleBatch words past (if word.follows past then
          Function.update row (word.1.getLast word.2) ⊥ else row) := rfl
    obtain ⟨hin, hout⟩ := ih (if word.follows past then
      Function.update row (word.1.getLast word.2) ⊥ else row)
    rw [hfold]
    by_cases hrest : ∃ word ∈ words, word.follows past = true ∧ word.1.getLast word.2 = v
    · refine ⟨fun _ => hin hrest, fun hnone => absurd ?_ hnone⟩
      obtain ⟨w, hw, h⟩ := hrest
      exact ⟨w, mem_cons_of_mem word hw, h⟩
    · rw [hout hrest]
      constructor
      · rintro ⟨w, hw, hfollows, hlast⟩
        rcases mem_cons.mp hw with rfl | hw
        · rw [if_pos hfollows, ← hlast, Function.update_self]
        · exact absurd ⟨w, hw, hfollows, hlast⟩ hrest
      · intro hnone
        split
        · next hfollows =>
          refine Function.update_of_ne (fun heq => hnone ?_) _ _
          exact ⟨word, mem_cons_self, hfollows, heq.symm⟩
        · rfl

lemma applyBadWordsSingleBatch_nil (past : List (Fin V)) (row : LogitsRow V) :
    applyBadWordsSingleBatch [] past row = row := rfl

variable {v : Fin V} {r : GreedyRequest V} {ι : Type} {i : ℕ} (xs : List ι) (k : ℕ)

lemma penalizeRow_congr {row row' : LogitsRow V} (h : row v = row' v)
    (prompt output : List (Fin V)) (presence frequency repetition : ℚ) :
    penalizeRow prompt output presence frequency repetition row v =
      penalizeRow prompt output presence frequency repetition row' v := by
  unfold penalizeRow
  rw [h]

lemma penalizeRow_bot {row : LogitsRow V} (h : row v = ⊥) (prompt output : List (Fin V))
    (presence frequency repetition : ℚ) :
    penalizeRow prompt output presence frequency repetition row v = ⊥ := by
  unfold penalizeRow
  rw [h]
  rfl

lemma GreedyRequest.constrain_eq (r : GreedyRequest V) (past : List (Fin V)) (row : LogitsRow V) :
    applyBadWordsSingleBatch r.badWordsTokenIds past (fillMasked r.allowedMask
      (penalizeRow r.promptTokenIds past r.presencePenalty r.frequencyPenalty r.repetitionPenalty
        row)) = r.constrain past row := by
  funext v
  unfold constrain
  have hleft := applyBadWordsSingleBatch_of r.badWordsTokenIds past (fillMasked r.allowedMask
    (penalizeRow r.promptTokenIds past r.presencePenalty r.frequencyPenalty r.repetitionPenalty
      row)) v
  have hright := applyBadWordsSingleBatch_of r.badWordsTokenIds past
    (fillMasked r.allowedMask row) v
  by_cases hbad : ∃ word ∈ r.badWordsTokenIds, word.follows past = true ∧
      word.1.getLast word.2 = v
  · rw [hleft.1 hbad, penalizeRow_bot (hright.1 hbad)]
  · rw [hleft.2 hbad, penalizeRow_congr (hright.2 hbad)]
    by_cases hmask : r.allowedMask v = true
    · rw [fillMasked, if_pos hmask, penalizeRow_bot (if_pos hmask)]
    · have hsame : fillMasked r.allowedMask row v = row v := if_neg hmask
      rw [fillMasked, if_neg hmask, penalizeRow_congr hsame]

lemma GreedyRequest.penalizeRow_neutral (h : r.hasPenalties = false) (past : List (Fin V))
    (row : LogitsRow V) :
    penalizeRow r.promptTokenIds past r.presencePenalty r.frequencyPenalty r.repetitionPenalty
      row = row := by
  unfold hasPenalties at h
  rw [Bool.or_eq_false_iff, Bool.or_eq_false_iff, bne_eq_false_iff_eq, bne_eq_false_iff_eq,
    bne_eq_false_iff_eq] at h
  obtain ⟨⟨hpresence, hfrequency⟩, hrepetition⟩ := h
  funext v
  unfold penalizeRow
  rw [hpresence, hfrequency, hrepetition]
  simp only [ite_self, div_self one_ne_zero, mul_one, zero_mul, sub_zero]
  exact congrFun WithBot.map_id (row v)

lemma GreedyRequest.fillMasked_of_isEmpty (h : r.allowedTokenIds.isEmpty = true)
    (row : LogitsRow V) : fillMasked r.allowedMask row = row := by
  unfold fillMasked allowedMask
  rw [h]
  rfl

def badWordsEntries (k : ℕ) (batch : List (GreedyRequest V)) : List (ℤ × List (BadWord V)) :=
  ((batch.zipIdx k).filter fun x => !x.1.badWordsTokenIds.isEmpty).map fun x =>
    ((x.2 : ℤ), x.1.badWordsTokenIds)

lemma badWordsEntries_cons (r : GreedyRequest V) (batch : List (GreedyRequest V)) :
    badWordsEntries k (r :: batch) =
      if r.badWordsTokenIds.isEmpty then badWordsEntries (k + 1) batch
      else ((k : ℤ), r.badWordsTokenIds) :: badWordsEntries (k + 1) batch := by
  unfold badWordsEntries
  rw [zipIdx_cons, filter_cons]
  by_cases h : r.badWordsTokenIds.isEmpty = true
  · rw [if_pos h, if_neg (by rw [h]; exact Bool.noConfusion)]
  · rw [if_neg h, if_pos (by rw [Bool.eq_false_iff.mpr h]; rfl), map_cons]

lemma le_of_mem_badWordsEntries {k : ℕ} {x : ℤ × List (BadWord V)}
    (h : x ∈ badWordsEntries k batch) : (k : ℤ) ≤ x.1 := by
  obtain ⟨y, hy, rfl⟩ := mem_map.mp h
  exact Int.ofNat_le.mpr (mem_zipIdx (mem_filter.mp hy).1).1

lemma pairwise_badWordsEntries (batch : List (GreedyRequest V)) :
    (badWordsEntries k batch).Pairwise fun x y => x.1 < y.1 := by
  induction batch generalizing k with
  | nil => exact .nil
  | cons r batch ih =>
    rw [badWordsEntries_cons]
    split
    · exact ih (k + 1)
    · refine pairwise_cons.mpr ⟨fun x hx => ?_, ih (k + 1)⟩
      have hle := le_of_mem_badWordsEntries hx
      exact Int.add_one_le_iff.mp hle

lemma badWords_entries (batch : List (GreedyRequest V)) :
    (makeSamplingMetadata batch).badWordsTokenIds.entries = badWordsEntries 0 batch :=
  entries_dictOf (pairwise_badWordsEntries 0 batch)

lemma get?_badWords (h : batch[i]? = some r) :
    (makeSamplingMetadata batch).badWordsTokenIds.get? i =
      if r.badWordsTokenIds.isEmpty then none else some r.badWordsTokenIds := by
  obtain ⟨hin, hout⟩ := get?_dictOf (pairwise_badWordsEntries 0 batch)
  have hmem : (r, i) ∈ batch.zipIdx := mem_zipIdx_iff_getElem?.mpr h
  split
  · next hempty =>
    refine hout i fun hkey => ?_
    obtain ⟨x, hx, hxi⟩ := mem_map.mp hkey
    obtain ⟨y, hy, rfl⟩ := mem_map.mp hx
    obtain ⟨hy, hyne⟩ := mem_filter.mp hy
    have hyi : y.2 = i := Int.ofNat.inj hxi
    have hyr := mem_zipIdx_iff_getElem?.mp hy
    rw [hyi, h] at hyr
    rw [← Option.some.inj hyr, hempty] at hyne
    cases hyne
  · next hne =>
    refine hin (i, r.badWordsTokenIds) (mem_map.mpr ⟨(r, i), ?_, rfl⟩)
    refine mem_filter.mpr ⟨hmem, ?_⟩
    rw [Bool.eq_false_iff.mpr hne]
    rfl

lemma badWordsEntries_isEmpty (h : (badWordsEntries 0 batch).isEmpty = true) (hr : r ∈ batch) :
    r.badWordsTokenIds = [] := by
  by_contra hne
  obtain ⟨i, hi⟩ := List.getElem?_of_mem hr
  have hmem : ((i : ℤ), r.badWordsTokenIds) ∈ badWordsEntries 0 batch := by
    refine mem_map.mpr ⟨(r, i), mem_filter.mpr ⟨?_, ?_⟩, rfl⟩
    · exact mem_zipIdx_iff_getElem?.mpr hi
    · rw [isEmpty_eq_false_iff.mpr hne]
      rfl
  exact ne_nil_of_mem hmem (isEmpty_iff.mp h)

lemma hasPenalties_of_noPenalties (h : (makeSamplingMetadata batch).noPenalties = true)
    (hr : r ∈ batch) : r.hasPenalties = false := by
  have hany : batch.any hasPenalties = false := Bool.not_eq_true' _ ▸ h
  exact Bool.eq_false_iff.mpr (any_eq_false.mp hany r hr)

lemma outputTokenIds_eq (h : (!(badWordsEntries 0 batch).isEmpty ||
    !(makeSamplingMetadata batch).noPenalties) = true) :
    (makeSamplingMetadata batch).outputTokenIds = batch.map (·.outputTokenIds) := by
  refine if_pos ?_
  rw [Bool.or_comm]
  rw [← badWords_entries] at h
  exact h

lemma pyGet_of_getElem? {α : Type} {l : List α} {x : α} (h : l[i]? = some x) :
    pyGet l i = .ok x := by
  unfold pyGet
  rw [pyGet?_natCast, h]

lemma maskedFill_map (F : ι → LogitsRow V) (mask : ι → Fin V → Bool) :
    maskedFill (xs.map F) (xs.map mask) = .ok (xs.map fun x => fillMasked (mask x) (F x)) := by
  unfold maskedFill
  rw [if_pos (by rw [length_map, length_map]), zipWith_map_map]

lemma applyAllPenalties_map (F : ι → LogitsRow V) (prompt output : ι → List (Fin V))
    (presence frequency repetition : ι → ℚ) :
    applyAllPenalties (xs.map F) (xs.map prompt) (xs.map presence) (xs.map frequency)
      (xs.map repetition) (xs.map output) =
    .ok (xs.map fun x =>
      penalizeRow (prompt x) (output x) (presence x) (frequency x) (repetition x) (F x)) := by
  unfold applyAllPenalties
  rw [ensure_of (by simp only [length_map, and_self]), zip_map',
    zip_map', zip_map', zip_map', zip_map', map_map]
  rfl

lemma foldlM_badWords (F : GreedyRequest V → LogitsRow V) (past : GreedyRequest V → List (Fin V))
    (front : List (LogitsRow V)) (frontPast : List (List (Fin V)))
    (hlen : front.length = frontPast.length) :
    (badWordsEntries front.length batch).foldlM (fun logits x => do
        let row ← pyGet logits x.1
        let past ← pyGet (frontPast ++ batch.map past) x.1
        return pySet logits x.1 (applyBadWordsSingleBatch x.2 past row)) (front ++ batch.map F) =
      (.ok (front ++ batch.map fun r =>
        applyBadWordsSingleBatch r.badWordsTokenIds (past r) (F r)) :
          Except PyError (List (LogitsRow V))) := by
  have hget : ∀ {α : Type} (l l' : List α) (x : α), (l ++ x :: l')[l.length]? = some x := by
    intro α l l' x
    rw [List.getElem?_append_right le_rfl, Nat.sub_self]
    rfl
  induction batch generalizing front frontPast with
  | nil => rfl
  | cons r batch ih =>
    have hrest := fun row : LogitsRow V => ih (front ++ [row]) (frontPast ++ [past r])
      (by rw [length_append, length_append, hlen]; rfl)
    simp only [length_append, length_singleton, append_assoc,
      singleton_append] at hrest
    rw [badWordsEntries_cons, map_cons, map_cons, map_cons]
    split
    · next hempty =>
      rw [isEmpty_iff.mp hempty]
      exact hrest (F r)
    · have hrow : pyGet (front ++ F r :: batch.map F) (front.length : ℤ) = .ok (F r) :=
        pyGet_of_getElem? (hget _ _ _)
      have hpast : pyGet (frontPast ++ past r :: batch.map past) (front.length : ℤ) =
          .ok (past r) := by
        rw [hlen]
        exact pyGet_of_getElem? (hget _ _ _)
      have hset : ∀ row, pySet (front ++ F r :: batch.map F) (front.length : ℤ) row =
          front ++ row :: batch.map F := by
        intro row
        rw [pySet_natCast, set_append_right _ _ le_rfl, Nat.sub_self, set_cons_zero]
      rw [foldlM_cons, hrow, ok_bind, hpast, ok_bind, hset]
      exact hrest _

def GreedyRequest.past (r : GreedyRequest V) (predictBonusToken : Bool) : List (Fin V) :=
  if predictBonusToken then r.outputTokenIds ++ r.specTokenIds else r.outputTokenIds

lemma fillDisallowed_eq (batch : List (GreedyRequest V)) (F : GreedyRequest V → LogitsRow V) :
    fillDisallowed (batch.map F) (makeSamplingMetadata batch).allowedTokenIdsMask =
      .ok (batch.map fun r => fillMasked r.allowedMask (F r)) := by
  by_cases hall : batch.all (·.allowedTokenIds.isEmpty) = true
  · have hnone : (makeSamplingMetadata batch).allowedTokenIdsMask = none := if_pos hall
    rw [hnone]
    refine congrArg Except.ok (map_congr_left fun r hr => ?_)
    exact (fillMasked_of_isEmpty (all_eq_true.mp hall r hr) _).symm
  · have hsome : (makeSamplingMetadata batch).allowedTokenIdsMask =
        some (batch.map allowedMask) := if_neg hall
    rw [hsome]
    exact maskedFill_map batch F allowedMask

lemma combineOutputs_eq (batch : List (GreedyRequest V)) :
    Sampler.combineOutputsWithSpecTokens (batch.map (·.outputTokenIds))
      (some (batch.map (·.specTokenIds))) =
    batch.map fun r => r.outputTokenIds ++ r.specTokenIds := by
  unfold Sampler.combineOutputsWithSpecTokens
  dsimp only
  rw [zipWith_map_map]
  refine map_congr_left fun r _ => ?_
  by_cases h : r.specTokenIds = []
  · rw [if_neg (not_not.mpr h), h, append_nil]
  · rw [if_pos h]

lemma sampler_forward_eq [NeZero V] (batch : List (GreedyRequest V))
    (F : GreedyRequest V → LogitsRow V) (predictBonusToken : Bool) :
    Sampler.forward (batch.map F) (makeSamplingMetadata batch) predictBonusToken =
      .ok (batch.map fun r => argmax (r.constrain (r.past predictBonusToken) (F r))) := by
  have houtputs : (!(badWordsEntries 0 batch).isEmpty ||
      !(makeSamplingMetadata batch).noPenalties) = true →
      (if predictBonusToken && (!(badWordsEntries 0 batch).isEmpty ||
          !(makeSamplingMetadata batch).noPenalties) then
        Sampler.combineOutputsWithSpecTokens (makeSamplingMetadata batch).outputTokenIds
          (makeSamplingMetadata batch).specTokenIds
      else (makeSamplingMetadata batch).outputTokenIds) =
      batch.map fun r => r.past predictBonusToken := by
    intro h
    rw [h, outputTokenIds_eq h]
    cases predictBonusToken with
    | true => exact combineOutputs_eq batch
    | false => rfl
  unfold Sampler.forward Sampler.applyLogitsProcessors
  dsimp only
  rw [badWords_entries, fillDisallowed_eq, ok_bind]
  set outputs := if predictBonusToken && (!(badWordsEntries 0 batch).isEmpty ||
      !(makeSamplingMetadata batch).noPenalties) then
    Sampler.combineOutputsWithSpecTokens (makeSamplingMetadata batch).outputTokenIds
      (makeSamplingMetadata batch).specTokenIds
    else (makeSamplingMetadata batch).outputTokenIds
  have hwords : (if (badWordsEntries 0 batch).isEmpty then
      .ok (batch.map fun r => fillMasked r.allowedMask (F r))
    else applyBadWords (batch.map fun r => fillMasked r.allowedMask (F r))
      (makeSamplingMetadata batch).badWordsTokenIds outputs) =
    .ok (batch.map fun r => applyBadWordsSingleBatch r.badWordsTokenIds
      (r.past predictBonusToken) (fillMasked r.allowedMask (F r))) := by
    split
    · next hempty =>
      refine congrArg Except.ok (map_congr_left fun r hr => ?_)
      rw [badWordsEntries_isEmpty hempty hr, applyBadWordsSingleBatch_nil]
    · next hne =>
      rw [houtputs (by rw [Bool.eq_false_iff.mpr hne]; rfl)]
      unfold applyBadWords
      rw [badWords_entries]
      exact foldlM_badWords (fun r => fillMasked r.allowedMask (F r))
        (fun r => r.past predictBonusToken) [] [] rfl
  rw [hwords, ok_bind]
  have hpenalties : Sampler.applyPenalties (batch.map fun r => applyBadWordsSingleBatch
      r.badWordsTokenIds (r.past predictBonusToken) (fillMasked r.allowedMask (F r)))
      (makeSamplingMetadata batch) outputs =
    .ok (batch.map fun r => r.constrain (r.past predictBonusToken) (F r)) := by
    unfold Sampler.applyPenalties
    split
    · next hnone =>
      refine congrArg Except.ok (map_congr_left fun r hr => ?_)
      unfold constrain
      rw [penalizeRow_neutral (hasPenalties_of_noPenalties hnone hr)]
    · next hsome =>
      have hprompt : (makeSamplingMetadata batch).promptTokenIds =
          some (batch.map (·.promptTokenIds)) := if_neg hsome
      rw [hprompt, houtputs (by rw [Bool.eq_false_iff.mpr hsome, Bool.or_comm]; rfl)]
      exact applyAllPenalties_map batch _ _ _ _ _ _
  rw [hpenalties, ok_bind, map_map]
  rfl

end CustomAi.Vllm
