import CustomAi.Vllm.RejectionSamplerSpec

/-!
# The acceptance of draft tokens

The kernel keeps the draft tokens up to the first that is not the target token of its position.
-/

namespace CustomAi.Vllm

open List RejectionSampler

variable {V : ℕ} {α : Type} {batch : List (GreedyRequest V)}

def numAgreeing (drafts targets : List (Fin V)) : ℕ :=
  ((drafts.zip targets).takeWhile fun x => decide (x.1 = x.2)).length

lemma numAgreeing_cons (d t : Fin V) (drafts targets : List (Fin V)) :
    numAgreeing (d :: drafts) (t :: targets) = if d = t then numAgreeing drafts targets + 1 else 0 := by
  unfold numAgreeing
  rw [zip_cons_cons, takeWhile_cons]
  by_cases h : d = t
  · rw [if_pos (decide_eq_true h), if_pos h, length_cons]
  · rw [if_neg (by simpa using h), if_neg h, length_nil]

variable {r : GreedyRequest V} {i : ℕ} (draftTokenIds drafts targetArgmax targets : List (Fin V))

lemma numAgreeing_le : numAgreeing drafts targets ≤ drafts.length := by
  refine (takeWhile_sublist _).length_le.trans ?_
  rw [length_zip]
  exact Nat.min_le_left _ _

def tokenIds (tokens : List (Fin V)) : List ℤ := tokens.map fun t : Fin V => ((t : ℕ) : ℤ)

lemma foldlM_rejected (startIdx : ℤ) (row : List ℤ) (positions : List ℤ) :
    positions.foldlM (greedySampleStep draftTokenIds targetArgmax startIdx)
      (true, row) = .ok (true, row) := by
  induction positions with
  | nil => rfl
  | cons pos positions ih =>
    exact ih

lemma foldlM_greedySampleStep (start : ℕ) (drafts targets : List (Fin V))
    (hlen : targets.length = drafts.length) (done rest : List ℤ) (hrest : drafts.length ≤ rest.length)
    (hd : ∀ j x, drafts[j]? = some x → draftTokenIds[start + done.length + j]? = some x)
    (ht : ∀ j x, targets[j]? = some x → targetArgmax[start + done.length + j]? = some x) :
    ((npArange drafts.length).map ((done.length : ℤ) + ·)).foldlM
      (greedySampleStep draftTokenIds targetArgmax start) (false, done ++ rest) =
    .ok (decide (numAgreeing drafts targets < drafts.length),
      done ++ tokenIds (targets.take (numAgreeing drafts targets + 1)) ++
        rest.drop (targets.take (numAgreeing drafts targets + 1)).length) := by
  induction drafts generalizing targets done rest with
  | nil =>
    rw [length_eq_zero_iff.mp hlen]
    simp [npArange, tokenIds]
  | cons d drafts ih =>
    obtain ⟨t, targets, rfl⟩ := exists_cons_of_length_eq_add_one hlen
    rw [length_cons, length_cons, Nat.add_right_cancel_iff] at hlen
    obtain ⟨x, rest, rfl⟩ := exists_cons_of_length_pos (Nat.lt_of_lt_of_le (by simp) hrest)
    rw [length_cons, length_cons, Nat.add_le_add_iff_right] at hrest
    have harange : npArange ((d :: drafts).length : ℤ) = 0 :: (npArange (drafts.length : ℤ)).map (1 + ·) := by
      have hpos : (0 : ℤ) < (d :: drafts).length := by
        rw [length_cons]
        omega
      rw [npArange_cons hpos, length_cons, Nat.cast_add, Nat.cast_one, add_sub_cancel_right]
    have hdraft : pyGet draftTokenIds ((start : ℤ) + (done.length : ℤ)) = .ok d := by
      have hget := hd 0 d rfl
      exact pyGet_of_getElem? hget
    have htarget : pyGet targetArgmax ((start : ℤ) + (done.length : ℤ)) = .ok t := by
      have hget := ht 0 t rfl
      exact pyGet_of_getElem? hget
    have hset : pySet (done ++ x :: rest) (done.length : ℤ) ((t : ℕ) : ℤ) = (done ++ [((t : ℕ) : ℤ)]) ++ rest := by
      rw [pySet_natCast, set_append_right _ _ le_rfl, Nat.sub_self, set_cons_zero, append_assoc, singleton_append]
    have hstep : greedySampleStep draftTokenIds targetArgmax start
        (false, done ++ x :: rest) (done.length : ℤ) = .ok (decide (d ≠ t), (done ++ [((t : ℕ) : ℤ)]) ++ rest) := by
      unfold greedySampleStep
      rw [hdraft, ok_bind, htarget, ok_bind, hset]
      rfl
    rw [harange, map_cons, add_zero, foldlM_cons, hstep, ok_bind, numAgreeing_cons, map_map]
    by_cases hdt : d = t
    · have hih := ih targets hlen (done ++ [((t : ℕ) : ℤ)]) rest hrest
        (fun j x hx => by
          have hget := hd (j + 1) x hx
          rw [length_append, length_singleton]
          rw [← hget]
          congr 1
          omega)
        (fun j x hx => by
          have hget := ht (j + 1) x hx
          rw [length_append, length_singleton]
          rw [← hget]
          congr 1
          omega)
      have hmap : (npArange (drafts.length : ℤ)).map
          ((fun a => (done.length : ℤ) + a) ∘ fun a => 1 + a) = (npArange (drafts.length : ℤ)).map
            (((done ++ [((t : ℕ) : ℤ)]).length : ℤ) + ·) := by
        refine map_congr_left fun a _ => ?_
        rw [length_append, length_singleton, Function.comp_apply]
        push_cast
        ring
      rw [if_pos hdt, hmap, decide_eq_false (not_not.mpr hdt), hih, append_assoc done]
      congr 2
      exact decide_eq_decide.mpr (Nat.add_lt_add_iff_right).symm
    · rw [if_neg hdt, decide_eq_true hdt, foldlM_rejected, length_cons]
      rfl

/-- The number of draft tokens of the requests before `i`. -/
def draftStart (batch : List (GreedyRequest V)) (i : ℕ) : ℕ :=
  ((batch.take i).map (·.specTokenIds.length)).sum

lemma getElem?_cumsumFrom (sum : ℕ) (h : batch[i]? = some r) :
    (cumsumFrom sum (batch.map fun r => (r.specTokenIds.length : ℤ)))[i]? =
      some ((sum + draftStart batch (i + 1) : ℕ) : ℤ) := by
  unfold draftStart
  induction batch generalizing sum i with
  | nil => cases h
  | cons a batch ih =>
    rw [map_cons, cumsumFrom, take_succ_cons, map_cons, sum_cons]
    cases i with
    | zero => simp
    | succ i =>
      have hrest := ih (sum + a.specTokenIds.length) (i := i) (by simpa using h)
      push_cast at hrest
      rw [getElem?_cons_succ, hrest]
      push_cast
      ring_nf

lemma draftStart_succ (h : batch[i]? = some r) :
    draftStart batch (i + 1) = draftStart batch i + r.specTokenIds.length := by
  unfold draftStart
  rw [take_add_one, h, map_append]
  simp

lemma getElem?_flatMap_drafts {G : GreedyRequest V → List α}
    (hG : ∀ r ∈ batch, (G r).length = r.specTokenIds.length) {j : ℕ} {x : α}
    (h : batch[i]? = some r) (hx : (G r)[j]? = some x) : (batch.flatMap G)[draftStart batch i + j]? = some x := by
  unfold draftStart
  induction batch generalizing i with
  | nil => cases h
  | cons a batch ih =>
    rw [flatMap_cons]
    cases i with
    | zero =>
      obtain rfl := Option.some.inj h
      have hj := (List.getElem?_eq_some_iff.mp hx).1
      rw [take_zero, map_nil, sum_nil, Nat.zero_add, List.getElem?_append_left hj, hx]
    | succ i =>
      have ha := hG a mem_cons_self
      have hrest := ih (fun r hr => hG r (mem_cons_of_mem a hr)) (i := i) (by simpa using h)
      rw [take_succ_cons, map_cons, sum_cons, List.getElem?_append_right (by omega), ← hrest]
      congr 1
      omega

/-- The target tokens up to the first that the drafts miss, or all and the bonus token. -/
lemma kernel_eq (h : batch[i]? = some r) {targets : GreedyRequest V → List (Fin V)}
    (bonus : GreedyRequest V → Fin V) (htargets : ∀ r ∈ batch, (targets r).length = r.specTokenIds.length) {m : ℕ}
    (hm : r.specTokenIds.length ≤ m) : rejectionGreedySampleKernel
      (npCumsum (batch.map fun r => (r.specTokenIds.length : ℤ))) (batch.flatMap (·.specTokenIds))
      (batch.flatMap targets) (batch.map bonus) i (List.replicate (m + 1) PLACEHOLDER_TOKEN_ID) =
    .ok (tokenIds ((targets r ++ [bonus r]).take (numAgreeing r.specTokenIds (targets r) + 1)) ++
      List.replicate (m - numAgreeing r.specTokenIds (targets r)) PLACEHOLDER_TOKEN_ID) := by
  have hstart : (if i = 0 then .ok 0 else
      pyGet (npCumsum (batch.map fun r => (r.specTokenIds.length : ℤ))) ((i - 1 : ℕ) : ℤ)) =
      (.ok ((draftStart batch i : ℕ) : ℤ) : Except PyError ℤ) := by
    cases i with
    | zero => rfl
    | succ i =>
      obtain ⟨r', hr'⟩ : ∃ r', batch[i]? = some r' := by
        have hlt := (List.getElem?_eq_some_iff.mp h).1
        exact ⟨_, List.getElem?_eq_getElem (Nat.lt_of_succ_lt hlt)⟩
      have hget := getElem?_cumsumFrom 0 hr'
      rw [Nat.zero_add] at hget
      rw [if_neg (Nat.succ_ne_zero i)]
      exact pyGet_of_getElem? hget
  have hend : pyGet (npCumsum (batch.map fun r => (r.specTokenIds.length : ℤ))) (i : ℤ) =
      .ok ((draftStart batch i + r.specTokenIds.length : ℕ) : ℤ) := by
    have hget := getElem?_cumsumFrom 0 h
    rw [Nat.zero_add, draftStart_succ h] at hget
    exact pyGet_of_getElem? hget
  have hcount : ((draftStart batch i + r.specTokenIds.length : ℕ) : ℤ) -
      (draftStart batch i : ℕ) = (r.specTokenIds.length : ℤ) := by
    push_cast
    ring
  have hlen := htargets r (mem_of_getElem? h)
  have hloop := foldlM_greedySampleStep (batch.flatMap (·.specTokenIds)) (batch.flatMap targets)
    (draftStart batch i) r.specTokenIds (targets r) hlen []
    (List.replicate (m + 1) PLACEHOLDER_TOKEN_ID)
    (by rw [length_replicate]; omega)
    (fun j x hx => getElem?_flatMap_drafts (fun _ _ => rfl) h hx)
    (fun j x hx => getElem?_flatMap_drafts htargets h hx)
  simp only [length_nil, Nat.cast_zero, zero_add, map_id', nil_append, drop_replicate] at hloop
  have hle := numAgreeing_le r.specTokenIds (targets r)
  unfold rejectionGreedySampleKernel
  rw [hstart, ok_bind, hend, ok_bind, hcount]
  dsimp only
  rw [hloop, ok_bind]
  by_cases hrejected : numAgreeing r.specTokenIds (targets r) < r.specTokenIds.length
  · have htake : (targets r ++ [bonus r]).take (numAgreeing r.specTokenIds (targets r) + 1) =
        (targets r).take (numAgreeing r.specTokenIds (targets r) + 1) :=
      take_append_of_le_length (by omega)
    have hlenTake : ((targets r).take (numAgreeing r.specTokenIds (targets r) + 1)).length =
        numAgreeing r.specTokenIds (targets r) + 1 := by
      rw [length_take]
      omega
    rw [decide_eq_true hrejected, htake, hlenTake, Nat.add_sub_add_right]
    rfl
  · have hall : numAgreeing r.specTokenIds (targets r) = r.specTokenIds.length := by omega
    have hbonus : pyGet (batch.map bonus) (i : ℤ) = .ok (bonus r) := by
      refine pyGet_of_getElem? ?_
      rw [List.getElem?_map, h]
      rfl
    have htake : (targets r).take (r.specTokenIds.length + 1) = targets r := take_of_length_le (by omega)
    have htake' : (targets r ++ [bonus r]).take (r.specTokenIds.length + 1) =
        targets r ++ [bonus r] := take_of_length_le (by
          rw [length_append, length_singleton]
          omega)
    have hreplicate : List.replicate (m + 1 - r.specTokenIds.length) PLACEHOLDER_TOKEN_ID =
        PLACEHOLDER_TOKEN_ID :: List.replicate (m - r.specTokenIds.length) PLACEHOLDER_TOKEN_ID := by
      rw [Nat.sub_add_comm hm, replicate_succ]
    have hset : pySet (tokenIds (targets r) ++ PLACEHOLDER_TOKEN_ID ::
        List.replicate (m - r.specTokenIds.length) PLACEHOLDER_TOKEN_ID)
        (r.specTokenIds.length : ℤ) ((bonus r : ℕ) : ℤ) = tokenIds (targets r ++ [bonus r]) ++
          List.replicate (m - r.specTokenIds.length) PLACEHOLDER_TOKEN_ID := by
      have hids : (tokenIds (targets r)).length = r.specTokenIds.length := by
        unfold tokenIds
        rw [length_map, hlen]
      rw [pySet_natCast, set_append_right _ _ hids.le, hids, Nat.sub_self]
      unfold tokenIds
      rw [map_append, append_assoc]
      rfl
    rw [hall, decide_eq_false (lt_irrefl _), htake, htake', hlen, hreplicate]
    rw [hbonus, ok_bind, hset]
    rfl

end CustomAi.Vllm

/-!
## Speculative decoding and plain decoding

One speculative step of a batch produces, for each request, the first tokens that steps without
draft tokens produce.
-/

namespace CustomAi.Vllm

open List

variable {V : ℕ} [NeZero V] {batch : List (GreedyRequest V)}
variable (model : List (Fin V) → Fin V → ℚ)

def GreedyRequest.greedyToken (r : GreedyRequest V) (past : List (Fin V)) : Fin V :=
  argmax (r.constrain past (modelRow model (r.promptTokenIds ++ past)))

/-- The next `n` tokens of a request. -/
def GreedyRequest.greedyTokens (r : GreedyRequest V) : ℕ → List (Fin V) → List (Fin V)
  | 0, _ => []
  | n + 1, past =>
    r.greedyToken model past :: r.greedyTokens n (past ++ [r.greedyToken model past])

def GreedyRequest.extend (r : GreedyRequest V) (tokens : List (Fin V)) : GreedyRequest V :=
  { r with outputTokenIds := r.outputTokenIds ++ tokens }

lemma plainStep_eq (batch : List (GreedyRequest V)) : plainStep model batch =
      .ok (batch.map fun r => r.extend [r.greedyToken model r.outputTokenIds]) := by
  have hforward := sampler_forward_eq batch (fun r => modelRow model r.tokens) false
  unfold plainStep
  rw [hforward, ok_bind]
  conv_lhs => rw [← map_id batch, map_map]
  rw [zipWith_map_map]
  rfl

lemma plainSteps_eq (n : ℕ) (batch : List (GreedyRequest V)) : plainSteps model n batch =
      .ok (batch.map fun r => r.extend (r.greedyTokens model n r.outputTokenIds)) := by
  induction n generalizing batch with
  | zero =>
    refine congrArg Except.ok ?_
    conv_lhs => rw [← map_id batch]
    refine map_congr_left fun r _ => ?_
    unfold GreedyRequest.extend GreedyRequest.greedyTokens
    rw [append_nil]
    rfl
  | succ n ih =>
    unfold plainSteps
    rw [plainStep_eq, ok_bind, ih, map_map]
    refine congrArg Except.ok (map_congr_left fun r _ => ?_)
    have htokens : ∀ (token : Fin V) (k : ℕ) (past : List (Fin V)),
        (r.extend [token]).greedyTokens model k past = r.greedyTokens model k past := by
      intro token k
      induction k with
      | zero => exact fun _ => rfl
      | succ k ihk => exact fun past => congrArg _ (ihk _)
    rw [Function.comp_apply, htokens]
    unfold GreedyRequest.extend
    rw [append_assoc]
    rfl

variable (r : GreedyRequest V) (past drafts : List (Fin V))

lemma length_greedyTokens (n : ℕ) (past : List (Fin V)) : (r.greedyTokens model n past).length = n := by
  induction n generalizing past with
  | zero => rfl
  | succ n ih => exact congrArg (· + 1) (ih _)

def GreedyRequest.targetTokens (r : GreedyRequest V) (past drafts : List (Fin V)) : List (Fin V) :=
  (List.range (drafts.length + 1)).map fun j => r.greedyToken model (past ++ drafts.take j)

lemma targetTokens_cons (d : Fin V) : r.targetTokens model past (d :: drafts) =
      r.greedyToken model past :: r.targetTokens model (past ++ [d]) drafts := by
  unfold GreedyRequest.targetTokens
  rw [range_succ_eq_map, map_cons, map_map, take_zero, append_nil]
  congr 1
  refine map_congr_left fun j _ => ?_
  rw [Function.comp_apply, take_succ_cons, append_assoc, singleton_append]

lemma targetTokens_take : numAgreeing drafts (r.targetTokens model past drafts) =
        numAgreeing drafts (r.greedyTokens model (drafts.length + 1) past) ∧
      (r.targetTokens model past drafts).take (numAgreeing drafts (r.targetTokens model past drafts) + 1) =
        (r.greedyTokens model (drafts.length + 1) past).take
          (numAgreeing drafts (r.greedyTokens model (drafts.length + 1) past) + 1) := by
  induction drafts generalizing past with
  | nil =>
    unfold GreedyRequest.targetTokens
    simp [numAgreeing, GreedyRequest.greedyTokens]
  | cons d drafts ih =>
    have hgreedy : r.greedyTokens model ((d :: drafts).length + 1) past = r.greedyToken model past ::
          r.greedyTokens model (drafts.length + 1) (past ++ [r.greedyToken model past]) := rfl
    rw [targetTokens_cons, hgreedy, numAgreeing_cons, numAgreeing_cons]
    by_cases hd : d = r.greedyToken model past
    · obtain ⟨hcount, htake⟩ := ih (past ++ [d])
      rw [← hd, if_pos rfl, if_pos rfl, take_succ_cons, hcount]
      rw [hcount] at htake
      exact ⟨rfl, congrArg _ htake⟩
    · rw [if_neg hd, if_neg hd]
      exact ⟨rfl, rfl⟩

omit [NeZero V] in
lemma numAgreeing_append (targets : List (Fin V)) (t : Fin V) (h : targets.length = drafts.length) :
    numAgreeing drafts (targets ++ [t]) = numAgreeing drafts targets := by
  unfold numAgreeing
  have hzip : (drafts ++ []).zip (targets ++ [t]) = drafts.zip targets ++ [].zip [t] := zip_append h.symm
  rw [append_nil, zip_nil_left, append_nil] at hzip
  rw [hzip]

omit [NeZero V] in
lemma maxSpecLen_le_iff (n : ℕ) : (specMetadata batch).maxSpecLen ≤ n ↔ ∀ r ∈ batch, r.specTokenIds.length ≤ n := by
  change (batch.map (·.specTokenIds.length)).foldr max 0 ≤ n ↔ _
  induction batch with
  | nil => simp
  | cons r batch ih =>
    rw [map_cons, foldr_cons, max_le_iff, ih, forall_mem_cons]

def GreedyRequest.draftTargets (r : GreedyRequest V) : List (Fin V) :=
  (List.range r.specTokenIds.length).map fun j => r.greedyToken model (r.history j)

lemma draftTargets_append : r.draftTargets model ++ [r.greedyToken model (r.outputTokenIds ++ r.specTokenIds)] =
      r.targetTokens model r.outputTokenIds r.specTokenIds := by
  unfold GreedyRequest.draftTargets GreedyRequest.targetTokens
  rw [range_succ, map_append, map_singleton, take_length]
  rfl

def GreedyRequest.accepted (r : GreedyRequest V) : List (Fin V) :=
  (r.targetTokens model r.outputTokenIds r.specTokenIds).take
    (numAgreeing r.specTokenIds (r.targetTokens model r.outputTokenIds r.specTokenIds) + 1)

lemma rejectionSample_eq (batch : List (GreedyRequest V)) :
    RejectionSampler.rejectionSample (specMetadata batch) (batch.flatMap (GreedyRequest.draftTargets model))
      (batch.map fun r => r.greedyToken model (r.outputTokenIds ++ r.specTokenIds)) =
    .ok (batch.map fun r => tokenIds (r.accepted model) ++ replicate
      ((specMetadata batch).maxSpecLen - numAgreeing r.specTokenIds (r.draftTargets model))
      PLACEHOLDER_TOKEN_ID) := by
  have htargets : ∀ r ∈ batch, (r.draftTargets model).length = r.specTokenIds.length := by
    intro r _
    unfold GreedyRequest.draftTargets
    rw [length_map, length_range]
  have hsize : (specMetadata batch).numDraftTokens.length = (batch.map fun r =>
      tokenIds (r.accepted model) ++ replicate
        ((specMetadata batch).maxSpecLen - numAgreeing r.specTokenIds (r.draftTargets model))
        PLACEHOLDER_TOKEN_ID).length := by
    rw [length_map]
    exact length_map _
  unfold RejectionSampler.rejectionSample
  rw [hsize]
  refine mapM_range fun k x hx => ?_
  rw [getElem?_map] at hx
  obtain ⟨r, hr, rfl⟩ := Option.map_eq_some_iff.mp hx
  have hmem := mem_of_getElem? hr
  have hkernel := kernel_eq hr
    (fun r => r.greedyToken model (r.outputTokenIds ++ r.specTokenIds)) htargets
    ((maxSpecLen_le_iff _).mp le_rfl r hmem)
  rw [draftTargets_append] at hkernel
  have hcount : numAgreeing r.specTokenIds (r.targetTokens model r.outputTokenIds r.specTokenIds) =
      numAgreeing r.specTokenIds (r.draftTargets model) := by
    rw [← draftTargets_append]
    exact numAgreeing_append _ _ _ (htargets r hmem)
  unfold GreedyRequest.accepted
  rw [hcount]
  exact hkernel

omit [NeZero V] in
lemma parseOutput_eq (tokens : GreedyRequest V → List (Fin V)) (n : GreedyRequest V → ℕ) :
    RejectionSampler.parseOutput (batch.map fun r =>
      tokenIds (tokens r) ++ replicate (n r) PLACEHOLDER_TOKEN_ID) V [] =
    batch.map fun r => tokenIds (tokens r) := by
  unfold RejectionSampler.parseOutput
  simp only [not_mem_nil, if_false]
  have hfst : ∀ l : List (List ℤ), (l.zipIdx.map fun x => x.1.filter fun token =>
      decide (token ≠ PLACEHOLDER_TOKEN_ID ∧ token < V)) = l.map fun row => row.filter fun token =>
        decide (token ≠ PLACEHOLDER_TOKEN_ID ∧ token < V) := by
    intro l
    conv_rhs => rw [← zipIdx_map_fst 0 l, map_map]
    rfl
  rw [hfst, map_map]
  refine map_congr_left fun r _ => ?_
  rw [Function.comp_apply, filter_append]
  have hkeep : (tokenIds (tokens r)).filter (fun token =>
      decide (token ≠ PLACEHOLDER_TOKEN_ID ∧ token < V)) = tokenIds (tokens r) := by
    refine filter_eq_self.mpr fun token htoken => ?_
    obtain ⟨t, -, rfl⟩ := mem_map.mp htoken
    have ht := t.isLt
    unfold PLACEHOLDER_TOKEN_ID
    exact decide_eq_true ⟨by omega, by omega⟩
  have hdrop : (replicate (n r) PLACEHOLDER_TOKEN_ID).filter (fun token =>
      decide (token ≠ PLACEHOLDER_TOKEN_ID ∧ token < V)) = [] := by
    refine filter_eq_nil_iff.mpr fun token htoken => ?_
    rw [eq_of_mem_replicate htoken]
    simp
  rw [hkeep, hdrop, append_nil]

section

variable (hmax : ∀ r ∈ batch, r.specTokenIds.length ≤ MAX_SPEC_LEN)
include hmax

lemma forward_eq : RejectionSampler.forward (specMetadata batch)
      (batch.flatMap fun r => (range (r.specTokenIds.length + 1)).map fun j =>
        modelRow model (r.tokens ++ r.specTokenIds.take j)) (makeSamplingMetadata batch) =
    (RejectionSampler.applyLogitsProcessors
      (draftRows batch fun r j => modelRow model (r.tokens ++ r.specTokenIds.take j))
      (makeSamplingMetadata batch) (specMetadata batch) >>= fun targetLogits =>
      RejectionSampler.rejectionSample (specMetadata batch) (targetLogits.map argmax)
        (batch.map fun r => r.greedyToken model (r.outputTokenIds ++ r.specTokenIds))) := by
  have hbonus := gather_bonusLogits batch
    fun r j => modelRow model (r.tokens ++ r.specTokenIds.take j)
  have htarget := gather_targetLogits batch
    fun r j => modelRow model (r.tokens ++ r.specTokenIds.take j)
  have hsampled : (batch.map fun r => argmax (r.constrain (r.past true)
      (modelRow model (r.tokens ++ r.specTokenIds.take r.specTokenIds.length)))) =
      batch.map fun r => r.greedyToken model (r.outputTokenIds ++ r.specTokenIds) := by
    refine map_congr_left fun r _ => ?_
    unfold GreedyRequest.greedyToken GreedyRequest.tokens
    rw [take_length, append_assoc]
    rfl
  unfold RejectionSampler.forward
  rw [ensure_of ((maxSpecLen_le_iff _).mpr hmax), ok_bind, hbonus, ok_bind,
    sampler_forward_eq, ok_bind, htarget, ok_bind, hsampled]

lemma speculativeStep_ok (h : ¬AllowedOnly batch) :
    speculativeStep model batch = .ok (batch.map fun r => tokenIds (r.accepted model)) := by
  have htargets : ((draftRows batch fun r j => r.constrain (r.history j)
      (modelRow model (r.tokens ++ r.specTokenIds.take j))).map argmax) =
      batch.flatMap (GreedyRequest.draftTargets model) := by
    rw [map_draftRows]
    refine flatMap_congr fun r _ => map_congr_left fun j _ => ?_
    unfold GreedyRequest.greedyToken GreedyRequest.tokens GreedyRequest.history
    dsimp only
    rw [append_assoc]
  unfold speculativeStep
  dsimp only
  rw [calcSpecDecodeMetadata_eq, ok_bind, forward_eq model hmax,
    applyLogitsProcessors_ok h, ok_bind, htargets, rejectionSample_eq, ok_bind, parseOutput_eq]
  rfl

end

lemma speculativeStep_of_allowedOnly (hbatch : batch ≠ [])
    (hmax : ∀ r ∈ batch, r.specTokenIds.length ≤ MAX_SPEC_LEN) (h : AllowedOnly batch) :
    ∃ e, speculativeStep model batch = .error e := by
  obtain ⟨e, he⟩ := applyLogitsProcessors_error hbatch h
    fun r j => modelRow model (r.tokens ++ r.specTokenIds.take j)
  refine ⟨e, ?_⟩
  unfold speculativeStep
  dsimp only
  rw [calcSpecDecodeMetadata_eq, ok_bind, forward_eq model hmax, he]
  rfl

lemma speculativeStep_of_long (hmax : ¬∀ r ∈ batch, r.specTokenIds.length ≤ MAX_SPEC_LEN) :
    speculativeStep model batch = .error (.assertionError "") := by
  have hensure : ensure ((specMetadata batch).maxSpecLen ≤ MAX_SPEC_LEN)
      (PyError.assertionError "") = .error (.assertionError "") :=
    if_neg fun hle => hmax ((maxSpecLen_le_iff _).mp hle)
  unfold speculativeStep
  dsimp only
  rw [calcSpecDecodeMetadata_eq, ok_bind]
  unfold RejectionSampler.forward
  rw [hensure]
  rfl

/-- The output is the leading part of the plain steps: the guessed tokens and one more. -/
def AgreesWithPlain (batch : List (GreedyRequest V)) (outputs : List (List ℤ)) : Prop :=
  outputs.length = batch.length ∧ ∀ (i : ℕ) (r : GreedyRequest V), batch[i]? = some r →
    ∃ (batch' : List (GreedyRequest V)) (r' : GreedyRequest V) (tokens : List (Fin V)),
      plainSteps model (r.specTokenIds.length + 1) (batch.map GreedyRequest.withoutDrafts) =
        .ok batch' ∧ batch'[i]? = some r' ∧ r'.outputTokenIds = r.outputTokenIds ++ tokens ∧
      tokens.length = r.specTokenIds.length + 1 ∧
      outputs[i]? = some (tokenIds (tokens.take (numAgreeing r.specTokenIds tokens + 1)))

lemma agreesWithPlain (batch : List (GreedyRequest V)) :
    AgreesWithPlain model batch (batch.map fun r => tokenIds (r.accepted model)) := by
  refine ⟨length_map _, fun i r hr => ?_⟩
  have htokens : ∀ (k : ℕ) (past : List (Fin V)),
      r.withoutDrafts.greedyTokens model k past = r.greedyTokens model k past := by
    intro k
    induction k with
    | zero => exact fun _ => rfl
    | succ k ih => exact fun past => congrArg _ (ih _)
  refine ⟨_, r.withoutDrafts.extend
      (r.withoutDrafts.greedyTokens model (r.specTokenIds.length + 1) r.outputTokenIds),
    r.greedyTokens model (r.specTokenIds.length + 1) r.outputTokenIds,
    plainSteps_eq model _ _, ?_, ?_, length_greedyTokens model r _ _, ?_⟩
  · rw [map_map, getElem?_map, hr]
    rfl
  · rw [htokens]
    rfl
  · rw [getElem?_map, hr, Option.map_some]
    unfold GreedyRequest.accepted
    rw [(targetTokens_take model r r.outputTokenIds r.specTokenIds).2]

/-- A speculative step agrees with plain decoding exactly when no request has more than
`MAX_SPEC_LEN` drafts and allowed tokens are not the only constraint. -/
theorem speculativeStep_agrees_iff (hbatch : batch ≠ []) :
    (∃ outputs, speculativeStep model batch = .ok outputs ∧ AgreesWithPlain model batch outputs) ↔
      (∀ r ∈ batch, r.specTokenIds.length ≤ MAX_SPEC_LEN) ∧ ¬AllowedOnly batch := by
  constructor
  · rintro ⟨outputs, hok, -⟩
    have hmax : ∀ r ∈ batch, r.specTokenIds.length ≤ MAX_SPEC_LEN := by
      by_contra hmax
      rw [speculativeStep_of_long model hmax] at hok
      cases hok
    refine ⟨hmax, fun hallowed => ?_⟩
    obtain ⟨e, he⟩ := speculativeStep_of_allowedOnly model hbatch hmax hallowed
    rw [he] at hok
    cases hok
  · rintro ⟨hmax, hallowed⟩
    exact ⟨_, speculativeStep_ok model hmax hallowed, agreesWithPlain model batch⟩

/-- Requests with two drafts, one and none, with and without allowed tokens and bad words. -/
def mixedBatch : List (GreedyRequest 3) :=
  [⟨[0], [2], [1, 2], [⟨[1, 1], by decide⟩], 0, 0, 1, by decide, [1, 2]⟩,
    ⟨[0, 1], [], [], [], 0, 0, 1, by decide, [1]⟩, ⟨[2], [1], [], [], 1, 0, 1, by decide, []⟩]

theorem speculativeStep_agrees_small :
    ∃ outputs, speculativeStep (fun tokens v => if v = 1 then (tokens.length : ℚ) else 0) mixedBatch = .ok outputs ∧
      AgreesWithPlain (fun tokens v => if v = 1 then (tokens.length : ℚ) else 0) mixedBatch outputs := by
  refine (speculativeStep_agrees_iff _ (cons_ne_nil _ _)).mpr ⟨by decide, ?_⟩
  rintro ⟨-, hneutral, -⟩
  exact cons_ne_nil _ _ (hneutral _ mem_cons_self).2

/-- A request with allowed tokens, no penalties and no bad words: the step raises. -/
theorem speculativeStep_allowed_raises : ¬∃ outputs, speculativeStep (fun _ _ => 0)
        [(⟨[0], [], [1], [], 0, 0, 1, by decide, [1]⟩ : GreedyRequest 2)] = .ok outputs ∧
      AgreesWithPlain (fun _ _ => 0) [(⟨[0], [], [1], [], 0, 0, 1, by decide, [1]⟩ : GreedyRequest 2)] outputs := by
  rintro ⟨outputs, hok, -⟩
  cases hok

end CustomAi.Vllm
