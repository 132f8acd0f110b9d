import CustomAi.Vllm.SpecDecodeRows

/-!
# The rejection sampler on one batch

Every row of a draft token is processed under the constraints of its own request, and the kernel
accepts the drafts up to the first that is not the largest logit.
-/

namespace CustomAi.Vllm

open List GreedyRequest RejectionSampler

variable {V : ℕ} {α β : Type} {batch : List (GreedyRequest V)}

lemma repeatInterleave_eq {l : List α} {repeats : List ℕ} (h : repeats.length = l.length) :
    repeatInterleave l repeats = .ok (zipWith (fun x n => replicate n x) l repeats).flatten := by
  unfold repeatInterleave
  split
  · next n =>
    obtain ⟨x, rfl⟩ := length_eq_one_iff.mp h.symm
    simp
  · rw [if_pos h]

def draftIndices (batch : List (GreedyRequest V)) : List ℤ :=
  batch.zipIdx.flatMap fun x => replicate x.1.specTokenIds.length (x.2 : ℤ)

lemma repeatIndices_eq (batch : List (GreedyRequest V)) :
    repeatInterleave (npArange batch.length) (batch.map (·.specTokenIds.length)) = .ok (draftIndices batch) := by
  have hlen : (batch.map (·.specTokenIds.length)).length = (npArange batch.length).length := by
    rw [length_map, length_npArange, Int.toNat_natCast]
  have hzip : npArange batch.length = batch.zipIdx.map fun x => (x.2 : ℤ) := by
    unfold npArange
    rw [Int.toNat_natCast, range_eq_range', ← zipIdx_map_snd, map_map]
    rfl
  have hmap : batch.map (·.specTokenIds.length) = batch.zipIdx.map fun x => x.1.specTokenIds.length := by
    conv_lhs => rw [← zipIdx_map_fst 0 batch, map_map]
    rfl
  rw [repeatInterleave_eq hlen, hzip, hmap, zipWith_map_map]
  rfl

lemma gather_draftIndices (f : GreedyRequest V → α) :
    gather (batch.map f) (draftIndices batch) = .ok (draftRows batch fun r _ => f r) := by
  have hrows : (draftRows batch fun r _ => f r) = batch.zipIdx.flatMap fun x =>
      replicate x.1.specTokenIds.length (f x.1) := by
    unfold draftRows
    conv_lhs => rw [← zipIdx_map_fst 0 batch, flatMap_map]
    refine flatMap_congr fun x _ => ?_
    rw [map_const', length_range]
  rw [hrows]
  unfold draftIndices
  have hmem : ∀ x ∈ batch.zipIdx, pyGet (batch.map f) (x.2 : ℤ) = .ok (f x.1) := by
    intro x hx
    refine pyGet_of_getElem? ?_
    rw [getElem?_map, mem_zipIdx_iff_getElem?.mp hx]
    rfl
  generalize batch.zipIdx = l at hmem ⊢
  induction l with
  | nil => rfl
  | cons x l ih =>
    rw [flatMap_cons]
    refine gather_append _ ?_ (ih fun y hy => hmem y (mem_cons_of_mem x hy))
    have hx := mapM_eq_ok (f := pyGet (batch.map f)) (g := fun _ => f x.1)
      (l := replicate x.1.specTokenIds.length (x.2 : ℤ)) fun i hi => by
        rw [eq_of_mem_replicate hi]
        exact hmem x mem_cons_self
    rw [map_replicate] at hx
    exact hx

def draftPairs (batch : List (GreedyRequest V)) : List (GreedyRequest V × ℕ) :=
  draftRows batch fun r j => (r, j)

lemma draftRows_eq_map (G : GreedyRequest V → ℕ → α) :
    draftRows batch G = (draftPairs batch).map fun x => G x.1 x.2 := by
  unfold draftPairs
  rw [map_draftRows]

lemma foldlM_rows (f : List (Fin V) → LogitsRow V → LogitsRow V) (rows : List (LogitsRow V))
    (pasts : List (List (Fin V))) (hlen : rows.length = pasts.length)
    (front more : List (LogitsRow V)) (frontPast morePast : List (List (Fin V)))
    (hfront : front.length = frontPast.length) : (npArange rows.length).foldlM (fun logits k => do
        let row ← pyGet logits (front.length + k)
        let past ← pyGet (frontPast ++ pasts ++ morePast) (front.length + k)
        return pySet logits (front.length + k) (f past row)) (front ++ rows ++ more) =
      (.ok (front ++ zipWith f pasts rows ++ more) : Except PyError (List (LogitsRow V))) := by
  induction rows generalizing front frontPast pasts with
  | nil =>
    rw [length_eq_zero_iff.mp hlen.symm]
    rfl
  | cons row rows ih =>
    obtain ⟨past, pasts, rfl⟩ := exists_cons_of_length_eq_add_one hlen.symm
    rw [length_cons, length_cons, Nat.add_right_cancel_iff] at hlen
    have hrest := ih pasts hlen (front ++ [f past row]) (frontPast ++ [past]) (by
      rw [length_append, length_append, hfront]
      rfl)
    have hrow : pyGet (front ++ row :: rows ++ more) ((front.length : ℤ) + 0) = .ok row := by
      rw [add_zero]
      refine pyGet_of_getElem? ?_
      rw [append_assoc, getElem?_append_right le_rfl, Nat.sub_self]
      rfl
    have hpast : pyGet (frontPast ++ past :: pasts ++ morePast) ((front.length : ℤ) + 0) = .ok past := by
      rw [add_zero, hfront]
      refine pyGet_of_getElem? ?_
      rw [append_assoc, getElem?_append_right le_rfl, Nat.sub_self]
      rfl
    have hset : pySet (front ++ row :: rows ++ more) ((front.length : ℤ) + 0) (f past row) =
        front ++ [f past row] ++ rows ++ more := by
      rw [add_zero, pySet_natCast, append_assoc, set_append_right _ _ le_rfl]
      simp
    have harange : npArange ((row :: rows).length : ℤ) = 0 :: (npArange (rows.length : ℤ)).map (1 + ·) := by
      have hpos : (0 : ℤ) < (row :: rows).length := by
        rw [length_cons]
        omega
      rw [npArange_cons hpos, length_cons, Nat.cast_add, Nat.cast_one, add_sub_cancel_right]
    rw [harange, foldlM_cons, hrow, ok_bind, hpast, ok_bind, hset, pure_eq_ok, ok_bind, foldlM_map]
    rw [length_append] at hrest
    push_cast at hrest
    simp only [add_assoc, append_assoc, singleton_append] at hrest ⊢
    exact hrest

lemma length_badWordsEntries (k : ℕ) (batch : List (GreedyRequest V)) : (badWordsEntries k batch).length =
      (batch.filter fun r => !r.badWordsTokenIds.isEmpty).length := by
  induction batch generalizing k with
  | nil => rfl
  | cons r batch ih =>
    rw [badWordsEntries_cons, filter_cons]
    by_cases h : r.badWordsTokenIds.isEmpty = true
    · rw [if_pos h, if_neg (by rw [h]; exact Bool.noConfusion), ih]
    · rw [if_neg h, if_pos (by rw [Bool.eq_false_iff.mpr h]; rfl), length_cons, length_cons, ih]

lemma draftRows_congr {G G' : GreedyRequest V → ℕ → α} (h : ∀ r ∈ batch, ∀ j, G r j = G' r j) :
    draftRows batch G = draftRows batch G' := by
  refine flatMap_congr fun r hr => ?_
  exact map_congr_left fun j _ => h r hr j

lemma badWordsLoop_eq (d : Dict ℤ (List (BadWord V))) (G : GreedyRequest V → ℕ → LogitsRow V)
    (H : GreedyRequest V → ℕ → List (Fin V)) (i : ℕ) (hget : ∀ k r, batch[k]? = some r → d.get? ((i + k : ℕ) : ℤ) =
      if r.badWordsTokenIds.isEmpty then none else some r.badWordsTokenIds)
    (front : List (LogitsRow V)) (frontPast : List (List (Fin V))) (hfront : front.length = frontPast.length) :
    badWordsLoop d (frontPast ++ draftRows batch H) i front.length
      (batch.filter fun r => !r.badWordsTokenIds.isEmpty).length
      (batch.map (·.specTokenIds.length)) (front ++ draftRows batch G) = .ok (front ++ draftRows batch fun r j =>
      applyBadWordsSingleBatch r.badWordsTokenIds (H r j) (G r j)) := by
  induction batch generalizing i front frontPast with
  | nil => rfl
  | cons r batch ih =>
    have hlenG : ((range r.specTokenIds.length).map (G r)).length = r.specTokenIds.length := by
      rw [length_map, length_range]
    have hlenH : ((range r.specTokenIds.length).map (H r)).length = r.specTokenIds.length := by
      rw [length_map, length_range]
    have hi := hget 0 r rfl
    have hnext : ∀ k r', batch[k]? = some r' → d.get? ((i + 1 + k : ℕ) : ℤ) =
        if r'.badWordsTokenIds.isEmpty then none else some r'.badWordsTokenIds := by
      intro k r' hk
      rw [Nat.add_assoc, Nat.add_comm 1 k]
      exact hget (k + 1) r' hk
    have hrest := fun (rows : List (LogitsRow V)) (hrows : rows.length = r.specTokenIds.length) =>
      ih (i + 1) hnext (front ++ rows) (frontPast ++ (range r.specTokenIds.length).map (H r))
        (by rw [length_append, length_append, hfront, hrows, hlenH])
    rw [Nat.add_zero] at hi
    rw [map_cons, draftRows_cons, draftRows_cons, draftRows_cons, filter_cons]
    unfold badWordsLoop
    rw [hi]
    by_cases hempty : r.badWordsTokenIds.isEmpty = true
    · have hsame : ((range r.specTokenIds.length).map fun j =>
          applyBadWordsSingleBatch r.badWordsTokenIds (H r j) (G r j)) =
          (range r.specTokenIds.length).map (G r) := by
        rw [isEmpty_iff.mp hempty]
        rfl
      have hskip := hrest _ hlenG
      rw [length_append, hlenG] at hskip
      rw [if_pos hempty, if_neg (by rw [hempty]; exact Bool.noConfusion), hsame]
      simp only [append_assoc] at hskip
      exact hskip
    · have hrows := foldlM_rows (applyBadWordsSingleBatch r.badWordsTokenIds)
        ((range r.specTokenIds.length).map (G r))
        ((range r.specTokenIds.length).map (H r)) (hlenG.trans hlenH.symm) front
        (draftRows batch G) frontPast (draftRows batch H) hfront
      rw [zipWith_map_map, hlenG] at hrows
      have hkeep := hrest ((range r.specTokenIds.length).map fun j =>
        applyBadWordsSingleBatch r.badWordsTokenIds (H r j) (G r j))
        (by rw [length_map, length_range])
      rw [length_append, length_map, length_range] at hkeep
      rw [if_neg hempty, if_pos (by rw [Bool.eq_false_iff.mpr hempty]; rfl), length_cons]
      dsimp only
      simp only [append_assoc] at hrows hkeep
      rw [hrows]
      split
      · next hzero =>
        have hnone : ∀ r' ∈ batch, r'.badWordsTokenIds = [] := by
          intro r' hr'
          have hfilter := filter_eq_nil_iff.mp (length_eq_zero_iff.mp hzero) r' hr'
          simpa using hfilter
        have hsame : draftRows batch (fun r j =>
            applyBadWordsSingleBatch r.badWordsTokenIds (H r j) (G r j)) = draftRows batch G :=
          draftRows_congr fun r' hr' j => by rw [hnone r' hr']; rfl
        rw [hsame]
        rfl
      · exact hkeep

def GreedyRequest.history (r : GreedyRequest V) (j : ℕ) : List (Fin V) :=
  r.outputTokenIds ++ r.specTokenIds.take j

def GreedyRequest.penalized (r : GreedyRequest V) (past : List (Fin V)) (row : LogitsRow V) :
    LogitsRow V :=
  penalizeRow r.promptTokenIds past r.presencePenalty r.frequencyPenalty r.repetitionPenalty row

variable (G : GreedyRequest V → ℕ → LogitsRow V)

lemma applyPenalties_eq : applyPenalties (draftRows batch G) (makeSamplingMetadata batch)
      (draftIndices batch) (draftRows batch history) =
    .ok (draftRows batch fun r j => r.penalized (r.history j) (G r j)) := by
  unfold applyPenalties
  split
  · next hnone =>
    refine congrArg Except.ok (draftRows_congr fun r hr j => ?_)
    exact (penalizeRow_neutral (hasPenalties_of_noPenalties hnone hr) _ _).symm
  · next hsome =>
    have hprompt : (makeSamplingMetadata batch).promptTokenIds = some (batch.map (·.promptTokenIds)) := if_neg hsome
    have hpresence : gather (makeSamplingMetadata batch).presencePenalties (draftIndices batch) =
        .ok (draftRows batch fun r _ => r.presencePenalty) := gather_draftIndices _
    have hfrequency : gather (makeSamplingMetadata batch).frequencyPenalties (draftIndices batch) =
        .ok (draftRows batch fun r _ => r.frequencyPenalty) := gather_draftIndices _
    have hrepetition : gather (makeSamplingMetadata batch).repetitionPenalties
        (draftIndices batch) = .ok (draftRows batch fun r _ => r.repetitionPenalty) :=
      gather_draftIndices _
    rw [hprompt]
    dsimp only
    rw [gather_draftIndices, hpresence, hfrequency, hrepetition]
    simp only [draftRows_eq_map]
    exact applyAllPenalties_map (draftPairs batch) _ _ _ _ _ _

lemma fillDisallowed_draftRows : ((makeSamplingMetadata batch).allowedTokenIdsMask.mapM fun mask =>
      gather mask (draftIndices batch)) >>= fillDisallowed (draftRows batch G) =
    .ok (draftRows batch fun r j => fillMasked r.allowedMask (G r j)) := by
  by_cases hall : batch.all (·.allowedTokenIds.isEmpty) = true
  · have hnone : (makeSamplingMetadata batch).allowedTokenIdsMask = none := if_pos hall
    rw [hnone]
    refine congrArg Except.ok (draftRows_congr fun r hr j => ?_)
    exact (fillMasked_of_isEmpty (all_eq_true.mp hall r hr) _).symm
  · have hsome : (makeSamplingMetadata batch).allowedTokenIdsMask =
        some (batch.map allowedMask) := if_neg hall
    have hgather : ((makeSamplingMetadata batch).allowedTokenIdsMask.mapM fun mask =>
        gather mask (draftIndices batch)) = .ok (some (draftRows batch fun r _ => r.allowedMask)) := by
      rw [hsome, Option.mapM_some, gather_draftIndices]
      rfl
    rw [hgather]
    simp only [draftRows_eq_map]
    exact maskedFill_map (draftPairs batch) _ _

/-- Some request has allowed tokens while none has penalties or bad words, and there is a row to
mask. -/
def AllowedOnly (batch : List (GreedyRequest V)) : Prop :=
  (∃ r ∈ batch, r.allowedTokenIds ≠ []) ∧ (∀ r ∈ batch, r.hasPenalties = false ∧ r.badWordsTokenIds = []) ∧
    (batch.length = 1 → ∃ r ∈ batch, r.specTokenIds ≠ [])

lemma applyLogitsProcessors_of_outputs (h : (!(badWordsEntries 0 batch).isEmpty ||
    !(makeSamplingMetadata batch).noPenalties) = true) (G : GreedyRequest V → ℕ → LogitsRow V) :
    applyLogitsProcessors (draftRows batch G) (makeSamplingMetadata batch)
      (specMetadata batch) = .ok (draftRows batch fun r j => r.constrain (r.history j) (G r j)) := by
  have houtputs := outputTokenIds_eq h
  have hpast : (if (!(badWordsEntries 0 batch).isEmpty ||
      !(makeSamplingMetadata batch).noPenalties) = true then
    combineOutputsWithSpecTokens (makeSamplingMetadata batch).outputTokenIds
      (makeSamplingMetadata batch).specTokenIds
    else (makeSamplingMetadata batch).outputTokenIds) = draftRows batch history := by
    rw [if_pos h, houtputs]
    exact combineOutputsWithDrafts_eq batch
  have hfirst : (if ((makeSamplingMetadata batch).allowedTokenIdsMask.isSome ||
      !(makeSamplingMetadata batch).noPenalties) = true then do
        let repeatIndices ← repeatInterleave
          (npArange (makeSamplingMetadata batch).outputTokenIds.length)
          (specMetadata batch).numDraftTokens
        let logits ← applyPenalties (draftRows batch G)
          (makeSamplingMetadata batch) repeatIndices (draftRows batch history)
        let tokenMask ← (makeSamplingMetadata batch).allowedTokenIdsMask.mapM fun mask =>
          gather mask repeatIndices
        fillDisallowed logits tokenMask
      else .ok (draftRows batch G)) = .ok (draftRows batch fun r j =>
        fillMasked r.allowedMask (r.penalized (r.history j) (G r j))) := by
    split
    · rw [houtputs, length_map]
      have hindices : repeatInterleave (npArange batch.length) (specMetadata batch).numDraftTokens =
          .ok (draftIndices batch) := repeatIndices_eq batch
      rw [hindices, ok_bind, applyPenalties_eq]
      exact fillDisallowed_draftRows fun r j => r.penalized (r.history j) (G r j)
    · next hnone =>
      rw [Bool.or_eq_true, not_or] at hnone
      obtain ⟨hmask, hpenalties⟩ := hnone
      have hall : batch.all (·.allowedTokenIds.isEmpty) = true := by
        by_contra hall
        have hsome : (makeSamplingMetadata batch).allowedTokenIdsMask =
          some (batch.map allowedMask) := if_neg hall
        rw [hsome] at hmask
        exact hmask rfl
      have hneutral : (makeSamplingMetadata batch).noPenalties = true := by
        simpa using hpenalties
      refine congrArg Except.ok (draftRows_congr fun r hr j => ?_)
      rw [fillMasked_of_isEmpty (all_eq_true.mp hall r hr)]
      exact (penalizeRow_neutral (hasPenalties_of_noPenalties hneutral hr) _ _).symm
  unfold applyLogitsProcessors
  dsimp only
  rw [badWords_entries, hpast]
  refine (congrArg (· >>= _) hfirst).trans ?_
  have hconstrain : draftRows batch (fun r j => applyBadWordsSingleBatch r.badWordsTokenIds
      (r.history j) (fillMasked r.allowedMask (r.penalized (r.history j) (G r j)))) =
      draftRows batch fun r j => r.constrain (r.history j) (G r j) :=
    draftRows_congr fun r _ j => r.constrain_eq (r.history j) (G r j)
  rw [← hconstrain]
  split
  · next hempty =>
    refine congrArg Except.ok (draftRows_congr fun r hr j => ?_)
    rw [badWordsEntries_isEmpty hempty hr, applyBadWordsSingleBatch_nil]
  · unfold applyBadWordsWithDrafts Dict.size
    rw [badWords_entries, length_badWordsEntries]
    refine badWordsLoop_eq (makeSamplingMetadata batch).badWordsTokenIds _ history 0
      (fun k r hk => ?_) [] [] rfl
    rw [Nat.zero_add]
    exact get?_badWords hk

structure NoOutputs (batch : List (GreedyRequest V)) : Prop where
  words : (badWordsEntries 0 batch).isEmpty = true
  penalties : (makeSamplingMetadata batch).noPenalties = true

lemma noOutputs_of (h : (!(badWordsEntries 0 batch).isEmpty ||
    !(makeSamplingMetadata batch).noPenalties) = false) : NoOutputs batch := by
  rw [Bool.or_eq_false_iff, Bool.not_eq_false', Bool.not_eq_false'] at h
  exact ⟨h.1, h.2⟩

lemma noOutputs_iff : NoOutputs batch ↔ ∀ r ∈ batch, r.hasPenalties = false ∧ r.badWordsTokenIds = [] := by
  constructor
  · intro h r hr
    exact ⟨hasPenalties_of_noPenalties h.penalties hr, badWordsEntries_isEmpty h.words hr⟩
  · intro h
    constructor
    · rw [List.isEmpty_iff, ← List.length_eq_zero_iff, length_badWordsEntries,
        List.length_eq_zero_iff, List.filter_eq_nil_iff]
      intro r hr
      rw [(h r hr).2]
      exact Bool.noConfusion
    · refine (Bool.not_eq_true' _).mpr (any_eq_false.mpr fun r hr => ?_)
      rw [(h r hr).1]
      exact Bool.noConfusion

namespace NoOutputs

variable (h : NoOutputs batch)
include h

lemma outputTokenIds_eq_nil : (makeSamplingMetadata batch).outputTokenIds = [] := by
  refine if_neg ?_
  have hentries : (makeSamplingMetadata batch).badWordsTokenIds.entries.isEmpty = true := by
    rw [badWords_entries]
    exact h.words
  change ¬(!(makeSamplingMetadata batch).noPenalties ||
    !(makeSamplingMetadata batch).badWordsTokenIds.entries.isEmpty) = true
  rw [h.penalties, hentries]
  exact Bool.noConfusion

lemma constrain_eq {r : GreedyRequest V} (hr : r ∈ batch) (past : List (Fin V))
    (row : LogitsRow V) : r.constrain past row = fillMasked r.allowedMask row := by
  unfold constrain
  rw [penalizeRow_neutral (hasPenalties_of_noPenalties h.penalties hr),
    badWordsEntries_isEmpty h.words hr, applyBadWordsSingleBatch_nil]

lemma applyLogitsProcessors_eq (G : GreedyRequest V → ℕ → LogitsRow V) :
    applyLogitsProcessors (draftRows batch G) (makeSamplingMetadata batch)
      (specMetadata batch) = if batch.all (·.allowedTokenIds.isEmpty) then .ok (draftRows batch G)
    else repeatInterleave (npArange 0) (batch.map (·.specTokenIds.length)) >>= fun indices =>
      gather (batch.map allowedMask) indices >>= maskedFill (draftRows batch G) := by
  have hmask : (makeSamplingMetadata batch).allowedTokenIdsMask = if batch.all (·.allowedTokenIds.isEmpty) then none
      else some (batch.map allowedMask) := rfl
  unfold applyLogitsProcessors
  dsimp only
  rw [badWords_entries, h.words, h.penalties, h.outputTokenIds_eq_nil, hmask]
  by_cases hall : batch.all (·.allowedTokenIds.isEmpty) = true
  · rw [if_pos hall, if_pos hall]
    rfl
  · rw [if_neg hall, if_neg hall]
    have hpenalties : ∀ indices : List ℤ, applyPenalties (draftRows batch G)
        (makeSamplingMetadata batch) indices [] = .ok (draftRows batch G) :=
      fun indices => if_pos h.penalties
    have hstep : ∀ indices : List ℤ, (do
        let logits ← applyPenalties (draftRows batch G)
          (makeSamplingMetadata batch) indices []
        let tokenMask ← (some (batch.map allowedMask)).mapM fun mask =>
          gather mask indices
        fillDisallowed logits tokenMask) = gather (batch.map allowedMask) indices >>=
          maskedFill (draftRows batch G) := by
      intro indices
      rw [hpenalties, Option.mapM_some]
      cases gather (batch.map allowedMask) indices with
      | error e => rfl
      | ok masks => rfl
    refine (bind_pure _).trans ?_
    exact bind_congr hstep

end NoOutputs

lemma exists_allowed (h : ¬batch.all (·.allowedTokenIds.isEmpty) = true) : ∃ r ∈ batch, r.allowedTokenIds ≠ [] := by
  rw [Bool.not_eq_true, all_eq_false] at h
  obtain ⟨r, hr, hne⟩ := h
  exact ⟨r, hr, fun hnil => hne (isEmpty_iff.mpr hnil)⟩

lemma applyLogitsProcessors_ok (h : ¬AllowedOnly batch) (G : GreedyRequest V → ℕ → LogitsRow V) :
    applyLogitsProcessors (draftRows batch G) (makeSamplingMetadata batch)
      (specMetadata batch) = .ok (draftRows batch fun r j => r.constrain (r.history j) (G r j)) := by
  cases hneeds : (!(badWordsEntries 0 batch).isEmpty || !(makeSamplingMetadata batch).noPenalties) with
  | true => exact applyLogitsProcessors_of_outputs hneeds G
  | false =>
    have hno := noOutputs_of hneeds
    rw [hno.applyLogitsProcessors_eq]
    by_cases hall : batch.all (·.allowedTokenIds.isEmpty) = true
    · rw [if_pos hall]
      refine congrArg Except.ok (draftRows_congr fun r hr j => ?_)
      rw [hno.constrain_eq hr, fillMasked_of_isEmpty (all_eq_true.mp hall r hr)]
    · have hsingle : batch.length = 1 ∧ ∀ r ∈ batch, r.specTokenIds = [] := by
        by_contra hnot
        refine h ⟨exists_allowed hall, noOutputs_iff.mp hno, fun hone => ?_⟩
        by_contra hnone
        refine hnot ⟨hone, fun r hr => ?_⟩
        by_contra hne
        exact hnone ⟨r, hr, hne⟩
      obtain ⟨hone, hspec⟩ := hsingle
      obtain ⟨r, rfl⟩ := length_eq_one_iff.mp hone
      have hr := hspec r mem_cons_self
      have hrows : ∀ G : GreedyRequest V → ℕ → LogitsRow V, draftRows [r] G = [] := by
        intro G
        unfold draftRows
        rw [flatMap_singleton, hr]
        rfl
      rw [if_neg hall, hrows, hrows, map_singleton]
      rfl

lemma applyLogitsProcessors_error (hbatch : batch ≠ []) (h : AllowedOnly batch)
    (G : GreedyRequest V → ℕ → LogitsRow V) :
    ∃ e, applyLogitsProcessors (draftRows batch G) (makeSamplingMetadata batch)
      (specMetadata batch) = .error e := by
  obtain ⟨⟨r, hr, hallowed⟩, hneutral, hdraft⟩ := h
  have hall : ¬batch.all (·.allowedTokenIds.isEmpty) = true := fun hall =>
    hallowed (isEmpty_iff.mp (all_eq_true.mp hall r hr))
  rw [(noOutputs_iff.mpr hneutral).applyLogitsProcessors_eq, if_neg hall]
  match batch with
  | [] => exact absurd rfl hbatch
  | [r'] =>
    obtain ⟨r'', hr'', hne⟩ := hdraft rfl
    obtain rfl := mem_singleton.mp hr''
    have hlen : ¬(0 = (draftRows [r''] G).length) := by
      unfold draftRows
      rw [flatMap_singleton, length_map, length_range]
      exact fun h0 => hne (length_eq_zero_iff.mp h0.symm)
    refine ⟨.runtimeError "The expanded size of the tensor must match the existing size", ?_⟩
    exact if_neg hlen
  | r1 :: r2 :: rest => exact ⟨_, rfl⟩

end CustomAi.Vllm
