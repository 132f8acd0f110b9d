import CustomAi.Vllm.SamplerSpec

/-!
# Rows of a batch with draft tokens

The index arrays of `_calc_spec_decode_metadata` select the rows of the draft tokens and the last
row of each request.
-/

namespace CustomAi.Vllm

open List Function

variable {V : ℕ} {α β : Type}

lemma mapM_range {l : List α} {f : ℕ → Except PyError α} (h : ∀ k x, l[k]? = some x → f k = .ok x) :
    (range l.length).mapM f = .ok l := by
  have hrange : range l.length = l.zipIdx.map Prod.snd := by
    rw [zipIdx_map_snd, range_eq_range']
  have hok := mapM_eq_ok (f := fun x : α × ℕ => f x.2) (g := Prod.fst) (l := l.zipIdx)
    fun x hx => h x.2 x.1 (mem_zipIdx_iff_getElem?.mp hx)
  rw [hrange, mapM_map]
  refine hok.trans ?_
  rw [zipIdx_map_fst]

lemma gather_append (l : List α) {indices indices' : List ℤ} {xs xs' : List α}
    (h : gather l indices = .ok xs) (h' : gather l indices' = .ok xs') :
    gather l (indices ++ indices') = .ok (xs ++ xs') := by
  unfold gather at h h' ⊢
  rw [mapM_append, h, h']
  rfl

lemma gather_npArange (l xs : List α) (start : ℕ) (h : ∀ k x, xs[k]? = some x → l[start + k]? = some x) :
    gather l ((npArange xs.length).map fun a => (start : ℤ) + a) = .ok xs := by
  unfold gather npArange
  rw [map_map, mapM_map]
  refine mapM_range fun k x hx => ?_
  exact pyGet_of_getElem? (h k x hx)

lemma gather_segments {ρ : Type} (rs : List ρ) (G : ρ → List α) (n : ρ → ℕ) (c : ℕ)
    (hn : ∀ r ∈ rs, c + n r ≤ (G r).length) (front : List α) :
    gather (front ++ rs.flatMap G) ((zipWith (· + ·) (npRepeat (zipWith (· - ·)
        (cumsumFrom front.length (rs.map fun r => ((G r).length : ℤ)))
        (rs.map fun r => ((G r).length : ℤ))) (rs.map fun r => (n r : ℤ)))
      (grouped rs (fun r => (n r : ℤ)) fun _ a => a)).map (· + (c : ℤ))) =
    .ok (rs.flatMap fun r => ((G r).drop c).take (n r)) := by
  induction rs generalizing front with
  | nil => rfl
  | cons r rs ih =>
    have hr := hn r mem_cons_self
    have hrest := ih (fun r' hr' => hn r' (mem_cons_of_mem r hr')) (front ++ G r)
    rw [length_append, append_assoc] at hrest
    have hlen : (((G r).drop c).take (n r)).length = n r := by
      rw [length_take, length_drop]
      omega
    have hhead : gather (front ++ (G r ++ rs.flatMap G))
        ((npArange (n r)).map fun a => ((front.length + c : ℕ) : ℤ) + a) = .ok (((G r).drop c).take (n r)) := by
      have hrun := gather_npArange (front ++ (G r ++ rs.flatMap G)) (((G r).drop c).take (n r))
        (front.length + c) fun k x hx => by
          have hk : k < n r := by
            rw [← hlen]
            exact (List.getElem?_eq_some_iff.mp hx).1
          rw [List.getElem?_take_of_lt hk, List.getElem?_drop] at hx
          rw [List.getElem?_append_right (by omega), List.getElem?_append_left (by omega), ← hx]
          congr 1
          omega
      rw [hlen] at hrun
      exact hrun
    unfold npRepeat at hrest ⊢
    rw [map_cons, map_cons, cumsumFrom, zipWith_cons_cons,
      zipWith_cons_cons, flatten_cons, grouped_cons, zipWith_append (by
        rw [length_replicate, length_map, length_npArange]), map_append]
    refine gather_append _ ?_ hrest
    rw [← hhead]
    congr 1
    rw [replicate_eq_map, zipWith_map, zipWith_self, map_map]
    refine map_congr_left fun a _ => ?_
    simp only [comp_apply]
    push_cast
    ring

lemma gather_last {ρ : Type} (rs : List ρ) (G : ρ → List α) (last : ρ → α)
    (hlast : ∀ r ∈ rs, (G r).getLast? = some (last r)) (front : List α) : gather (front ++ rs.flatMap G)
      ((cumsumFrom front.length (rs.map fun r => ((G r).length : ℤ))).map (· - 1)) = .ok (rs.map last) := by
  induction rs generalizing front with
  | nil => rfl
  | cons r rs ih =>
    have hrest := ih (fun r' hr' => hlast r' (mem_cons_of_mem r hr')) (front ++ G r)
    rw [length_append, Nat.cast_add, append_assoc] at hrest
    have hr := hlast r mem_cons_self
    have hpos : 0 < (G r).length := length_pos_of_ne_nil fun hnil => by
      rw [hnil] at hr
      cases hr
    have hcast : ((front.length : ℤ) + ((G r).length : ℤ)) - 1 =
        ((front.length + ((G r).length - 1) : ℕ) : ℤ) := by omega
    have hget : (front ++ (G r ++ rs.flatMap G))[front.length + ((G r).length - 1)]? = some (last r) := by
      rw [getElem?_append_right (by omega), getElem?_append_left (by omega), ← hr,
        getLast?_eq_getElem?]
      congr 1
      omega
    unfold gather at hrest ⊢
    rw [flatMap_cons, map_cons, cumsumFrom, map_cons, mapM_cons, hcast, pyGet_of_getElem? hget, hrest, ok_bind]
    rfl

variable {batch : List (GreedyRequest V)}

def draftRows (batch : List (GreedyRequest V)) (G : GreedyRequest V → ℕ → α) : List α :=
  batch.flatMap fun r => (List.range r.specTokenIds.length).map (G r)

lemma draftRows_cons (r : GreedyRequest V) (batch : List (GreedyRequest V)) (G : GreedyRequest V → ℕ → α) :
    draftRows (r :: batch) G = (range r.specTokenIds.length).map (G r) ++ draftRows batch G := rfl

lemma map_draftRows (f : α → β) (batch : List (GreedyRequest V)) (G : GreedyRequest V → ℕ → α) :
    (draftRows batch G).map f = draftRows batch fun r j => f (G r j) := by
  unfold draftRows
  rw [map_flatMap]
  refine flatMap_congr fun r _ => ?_
  rw [map_map]
  rfl

def specMetadata (batch : List (GreedyRequest V)) : SpecDecodeMetadata V :=
  let numDrafts := batch.map fun r => (r.specTokenIds.length : ℤ)
  let numSampled := batch.map fun r => ((r.specTokenIds.length + 1 : ℕ) : ℤ)
  { draftTokenIds := batch.flatMap (·.specTokenIds)
    numDraftTokens := batch.map (·.specTokenIds.length)
    cuNumDraftTokens := npCumsum numDrafts
    targetLogitsIndices := zipWith (· + ·)
      (npRepeat (zipWith (· - ·) (npCumsum numSampled) numSampled) numDrafts)
      (grouped batch (fun r => (r.specTokenIds.length : ℤ)) fun _ a => a)
    bonusLogitsIndices := (npCumsum numSampled).map (· - 1) }

lemma calcSpecDecodeMetadata_eq (last : GreedyRequest V → Fin V) :
    calcSpecDecodeMetadata (batch.map (·.specTokenIds.length))
      (batch.flatMap fun r => last r :: r.specTokenIds) = .ok (specMetadata batch) := by
  have hdrafts := gather_segments batch (fun r => last r :: r.specTokenIds)
    (fun r => r.specTokenIds.length) 1 (fun r _ => by rw [length_cons, Nat.add_comm]) []
  have harange : zipWith (· - ·)
      (npArange (batch.map fun r => (r.specTokenIds.length : ℤ)).sum) _ =
      grouped batch (fun r => (r.specTokenIds.length : ℤ)) fun _ a => a :=
    arange_grouped fun r _ => Int.natCast_nonneg _
  have hsampled : (batch.map fun r => (r.specTokenIds.length : ℤ)).map (· + 1) =
      batch.map fun r => ((r.specTokenIds.length + 1 : ℕ) : ℤ) := by
    rw [map_map]
    rfl
  have htake : (batch.flatMap fun r =>
      ((last r :: r.specTokenIds).drop 1).take r.specTokenIds.length) = batch.flatMap (·.specTokenIds) :=
    flatMap_congr fun r _ => take_length
  have hcast : ((batch.map (·.specTokenIds.length)).map Nat.cast : List ℤ) =
      batch.map fun r => (r.specTokenIds.length : ℤ) := map_map
  rw [htake] at hdrafts
  unfold calcSpecDecodeMetadata getCumsumAndArange
  dsimp only
  rw [hcast, hsampled, harange]
  refine (congrArg (· >>= _) hdrafts).trans ?_
  rfl

lemma gather_targetLogits (batch : List (GreedyRequest V)) (F : GreedyRequest V → ℕ → α) :
    gather (batch.flatMap fun r => (range (r.specTokenIds.length + 1)).map (F r))
      (specMetadata batch).targetLogitsIndices = .ok (draftRows batch F) := by
  have hrows := gather_segments batch
    (fun r => (range (r.specTokenIds.length + 1)).map (F r))
    (fun r => r.specTokenIds.length) 0 (fun r _ => by
      rw [length_map, length_range, Nat.zero_add]
      exact Nat.le_succ _) []
  have htake : (batch.flatMap fun r => (((range (r.specTokenIds.length + 1)).map
      (F r)).drop 0).take r.specTokenIds.length) = draftRows batch F := by
    refine flatMap_congr fun r _ => ?_
    rw [drop_zero, range_succ, map_append, take_left' (by simp)]
  simp only [length_map, length_range, nil_append, Nat.cast_zero, add_zero, map_id', htake] at hrows
  exact hrows

lemma gather_bonusLogits (batch : List (GreedyRequest V)) (F : GreedyRequest V → ℕ → α) :
    gather (batch.flatMap fun r => (range (r.specTokenIds.length + 1)).map (F r))
      (specMetadata batch).bonusLogitsIndices = .ok (batch.map fun r => F r r.specTokenIds.length) := by
  have hrows := gather_last batch
    (fun r => (range (r.specTokenIds.length + 1)).map (F r))
    (fun r => F r r.specTokenIds.length) (fun r _ => by
      rw [range_succ, map_append, map_singleton, getLast?_concat]) []
  simp only [length_map, length_range, nil_append] at hrows
  exact hrows

lemma combineOutputsWithDrafts_eq (batch : List (GreedyRequest V)) :
    RejectionSampler.combineOutputsWithSpecTokens (batch.map (·.outputTokenIds))
      (some (batch.map (·.specTokenIds))) =
    draftRows batch fun r j => r.outputTokenIds ++ r.specTokenIds.take j := by
  have hinner : ∀ (tokens : List (Fin V)) (result : List (List (Fin V))) (out : List (Fin V)),
      tokens.foldl (fun result token => result ++ [(result.getLast?.getD []) ++ [token]])
        (result ++ [out]) = result ++ (range (tokens.length + 1)).map fun j => out ++ tokens.take j := by
    intro tokens
    induction tokens with
    | nil =>
      simp
    | cons token tokens ih =>
      intro result out
      rw [foldl_cons, getLast?_concat, Option.getD_some, ih, length_cons,
        range_succ_eq_map (n := tokens.length + 1), map_cons, map_map, append_assoc]
      congr 1
      rw [take_zero, append_nil, singleton_append]
      congr 1
      refine map_congr_left fun j _ => ?_
      rw [comp_apply, take_succ_cons, append_assoc, singleton_append]
  have houter : ∀ result : List (List (Fin V)),
      ((batch.map fun r => (r.outputTokenIds, r.specTokenIds)).foldl (fun result x =>
        if x.2.length = 0 then result
        else (x.2.take (x.2.length - 1)).foldl (fun result token =>
          result ++ [(result.getLast?.getD []) ++ [token]]) (result ++ [x.1])) result) =
      result ++ draftRows batch fun r j => r.outputTokenIds ++ r.specTokenIds.take j := by
    induction batch with
    | nil => exact fun result => (append_nil result).symm
    | cons r batch ih =>
      intro result
      rw [map_cons, foldl_cons, ih, draftRows_cons]
      split
      · next hzero =>
        rw [hzero]
        rfl
      · next hne =>
        have hpos : r.specTokenIds.length ≠ 0 := hne
        rw [hinner, append_assoc]
        have hlen : (r.specTokenIds.take (r.specTokenIds.length - 1)).length + 1 = r.specTokenIds.length := by
          rw [length_take]
          omega
        rw [hlen]
        congr 2
        refine map_congr_left fun j hj => ?_
        have hj' := mem_range.mp hj
        have hle : j ≤ r.specTokenIds.length - 1 := Nat.le_sub_one_of_lt hj'
        rw [take_take, Nat.min_eq_left hle]
  unfold RejectionSampler.combineOutputsWithSpecTokens
  dsimp only
  rw [zip_map', houter, nil_append]

end CustomAi.Vllm
