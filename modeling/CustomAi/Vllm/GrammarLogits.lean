import Mathlib.Tactic.IntervalCases
import CustomAi.Vllm.GrammarBitmaskSpec

/-!
# Masked logits

The worker finds the rows of a request in its own order of the requests, and every row of the
logits is masked for its position in its request.
-/

namespace CustomAi.Vllm

open List Segments StructuredOutputManager Option

variable {G L : Type}

def maskRow (negInf : L) (row : MaskRow) (logits : List L) : List L :=
  logits.mapIdx fun token x =>
    if token < 32 * row.length ∧ row.allows token = false then negInf else x

/-- `apply_token_bitmask_inplace` masks the rows at the indices, all rows if there are none. -/
def AppliesTokenBitmask (negInf : L)
    (applyTokenBitmaskInplace : List (List L) → List MaskRow → Option (List ℕ) → List (List L)) :
    Prop :=
  ∀ logits bitmask indices, bitmask.length = logits.length →
    applyTokenBitmaskInplace logits bitmask indices = logits.mapIdx fun i row =>
      if indices.all (fun indices => decide (i ∈ indices)) then
        maskRow negInf ((bitmask[i]?).getD []) row
      else row

lemma allows_full {width token : ℕ} (h : token < 32 * width) :
    MaskRow.allows (replicate width (-1)) token = true := by
  unfold MaskRow.allows
  have hword : token / 32 < width := Nat.div_lt_of_lt_mul h
  have hbit : token % 32 < 32 := Nat.mod_lt _ (by decide)
  rw [getElem?_replicate_of_lt hword, getD_some]
  have hones : (-1 : BitVec 32) = BitVec.allOnes 32 := by decide
  rw [hones, BitVec.getLsbD_allOnes]
  exact decide_eq_true hbit

lemma maskRow_full (negInf : L) (width : ℕ) (logits : List L) :
    maskRow negInf (replicate width (-1)) logits = logits := by
  unfold maskRow
  rw [length_replicate]
  refine ext_getElem (length_mapIdx) fun i _ _ => ?_
  rw [getElem_mapIdx]
  refine if_neg fun h => ?_
  rw [allows_full h.1] at h
  exact absurd h.2 (by decide)

variable {logits : List (List L)}
  {kernel : List (List L) → List MaskRow → Option (List ℕ) → List (List L)} {back : List MaskRow}

lemma AppliesTokenBitmask.eq_zipWith {negInf : L} (h : AppliesTokenBitmask negInf kernel)
    {bitmask : List MaskRow} (hlen : bitmask.length = logits.length) {indices : Option (List ℕ)} {width : ℕ}
    (hfull : ∀ js, indices = some js → ∀ i < bitmask.length, i ∉ js → bitmask[i]? = some (replicate width (-1))) :
    kernel logits bitmask indices = zipWith (maskRow negInf) bitmask logits := by
  rw [h logits bitmask indices hlen]
  refine ext_getElem (by simp [hlen]) fun i hi _ => ?_
  rw [length_mapIdx] at hi
  have hi' : i < bitmask.length := hlen ▸ hi
  rw [getElem_mapIdx, getElem_zipWith, getElem?_eq_getElem hi']
  split
  · rfl
  · next hnot =>
    cases indices with
    | none => exact absurd rfl hnot
    | some js =>
      have hmem : i ∉ js := by
        simpa using hnot
      have hrow := hfull js rfl i hi' hmem
      rw [getElem?_eq_getElem hi'] at hrow
      rw [some.inj hrow, maskRow_full]

variable {specTokens : Dict RequestId (List TokenId)} {structOutReqIds reqIds : List RequestId}
  {grammarBitmask rows : List MaskRow} {width : ℕ}

lemma batchIndices_get? (hnd : reqIds.Nodup) (s : Dict RequestId ℕ × ℕ × ℕ) (reqId : RequestId) :
    (reqIds.foldl (batchIndexStep specTokens structOutReqIds) s).1.get? reqId =
      if reqId ∈ reqIds ∧ reqId ∈ structOutReqIds then
        some (s.2.1 + s.2.2 + start (numRows specTokens) reqId reqIds) else s.1.get? reqId := by
  induction reqIds generalizing s with
  | nil => simp
  | cons id reqIds ih =>
    obtain ⟨hid, hnd⟩ := nodup_cons.mp hnd
    rw [foldl_cons, ih hnd]
    unfold batchIndexStep
    dsimp only
    rw [start_cons]
    by_cases hsame : id = reqId
    · subst hsame
      rw [if_neg fun h => hid h.1, if_pos rfl, Nat.add_zero]
      by_cases hstruct : id ∈ structOutReqIds
      · rw [if_pos hstruct, if_pos ⟨mem_cons_self, hstruct⟩, Dict.get?_set_self]
      · rw [if_neg hstruct, if_neg fun h => hstruct h.2]
    · have hmem : reqId ∈ id :: reqIds ↔ reqId ∈ reqIds := by
        rw [mem_cons]
        exact or_iff_right fun h => hsame h.symm
      simp only [hmem, if_neg hsame]
      split
      · unfold numRows draftsOf
        congr 1
        omega
      · split
        · exact Dict.get?_set_of_ne _ _ fun h => hsame h.symm
        · rfl

variable {front : List MaskRow}

lemma scatterRows_eq {logitIdx : ℕ} (s : ScatterState) (hbitmask : grammarBitmask = front ++ rows ++ back)
    (hlen : logitIdx + rows.length ≤ s.sortedBitmask.length) {k : ℕ} (hk : k ≤ rows.length) :
    (range k).foldlM (scatterRow grammarBitmask logitIdx front.length) s =
      .ok ⟨writeAt s.sortedBitmask logitIdx (rows.take k), s.outIndices ++ (range k).map (logitIdx + ·)⟩ := by
  induction k with
  | zero =>
    rw [take_zero, writeAt_nil, range_zero, map_nil, append_nil]
    rfl
  | succ k ih =>
    have hlt : k < rows.length := hk
    have htake : (rows.take k).length = k := length_take_of_le hlt.le
    have hget : grammarBitmask[front.length + k]? = some (rows.get ⟨k, hlt⟩) := by
      rw [hbitmask, append_assoc, getElem?_append_right (Nat.le_add_right _ _),
        Nat.add_sub_cancel_left, getElem?_append_left hlt, getElem?_eq_getElem hlt]
      rfl
    have hfits : logitIdx + (rows.take k).length < s.sortedBitmask.length := by
      omega
    have hset := set_writeAt (rows.get ⟨k, hlt⟩) hfits
    have hnext : rows.take k ++ [rows.get ⟨k, hlt⟩] = rows.take (k + 1) := (take_succ_eq_append_getElem hlt).symm
    rw [htake, hnext] at hset
    have hfit : logitIdx + k < (writeAt s.sortedBitmask logitIdx (rows.take k)).length := by
      rw [length_writeAt (by omega)]
      omega
    rw [range_succ, foldlM_append, ih hlt.le, ok_bind, foldlM_cons]
    unfold scatterRow
    rw [hget]
    dsimp only
    rw [if_pos hfit, hset, map_append, ← append_assoc]
    rfl

/-- The rows in the order of the worker after those of the requests `seen` are copied. -/
structure Scattered (specTokens : Dict RequestId (List TokenId)) (width : ℕ)
    (rowsOf : RequestId → List MaskRow) (reqIds seen : List RequestId) (s : ScatterState) :
    Prop where
  sortedBitmask : s.sortedBitmask = reqIds.flatMap fun id => if id ∈ seen then rowsOf id
    else replicate (numRows specTokens id) (replicate width (-1))
  full : ∀ i < s.sortedBitmask.length, i ∉ s.outIndices → s.sortedBitmask[i]? = some (replicate width (-1))

variable {rowsOf : RequestId → List MaskRow} {seen ids : List RequestId} {s : ScatterState}

variable {reqId : RequestId}

lemma Scattered.step (h : Scattered specTokens width rowsOf reqIds seen s) (hnd : reqIds.Nodup)
    (hrows : ∀ id ∈ reqIds, (rowsOf id).length = numRows specTokens id) (hmem : reqId ∈ reqIds)
    (hstruct : reqId ∈ structOutReqIds)
    (hbitmask : grammarBitmask = front ++ rowsOf reqId ++ back) : ∃ s', scatterRequest specTokens
        (reqIds.foldl (batchIndexStep specTokens structOutReqIds) (.empty, 0, 0)).1
        grammarBitmask (s, front.length) reqId = .ok (s', front.length + numRows specTokens reqId) ∧
      Scattered specTokens width rowsOf reqIds (seen ++ [reqId]) s' := by
  obtain ⟨hsorted, hfull⟩ := h
  have hrow := hrows reqId hmem
  set F : RequestId → List MaskRow := fun id => if id ∈ seen then rowsOf id
    else replicate (numRows specTokens id) (replicate width (-1)) with hF
  have hFlen : ∀ id ∈ reqIds, (F id).length = numRows specTokens id := by
    intro id hid
    rw [hF]
    dsimp only
    split
    · exact hrows id hid
    · exact length_replicate
  have hlen : start (numRows specTokens) reqId reqIds + (rowsOf reqId).length ≤ s.sortedBitmask.length := by
    rw [hsorted, length_flatMap hFlen, hrow]
    exact start_add_le hmem
  have hscatter := scatterRows_eq s hbitmask hlen le_rfl
  rw [take_length] at hscatter
  have hwrite : writeAt s.sortedBitmask (start (numRows specTokens) reqId reqIds) (rowsOf reqId) =
      reqIds.flatMap fun id => if id ∈ seen ++ [reqId] then rowsOf id
        else replicate (numRows specTokens id) (replicate width (-1)) := by
    rw [hsorted, writeAt_start hnd hFlen hmem hrow]
    refine flatMap_congr fun id _ => ?_
    by_cases hid : id = reqId
    · rw [hid, Function.update_self, if_pos (mem_append_right _ (mem_singleton_self _))]
    · rw [Function.update_of_ne hid, hF]
      have hiff : id ∈ seen ++ [reqId] ↔ id ∈ seen := by
        rw [mem_append, mem_singleton]
        exact or_iff_left hid
      simp only [hiff]
  unfold scatterRequest
  rw [batchIndices_get? hnd, if_pos ⟨hmem, hstruct⟩, Nat.zero_add, Nat.zero_add]
  dsimp only
  have hcount : 1 + ((specTokens.get? reqId).getD []).length = (rowsOf reqId).length := hrow.symm
  rw [hcount, hscatter, hrow]
  refine ⟨_, rfl, hwrite, fun i hi hout => ?_⟩
  rw [mem_append, not_or] at hout
  rw [length_writeAt hlen] at hi
  have hbefore := hfull i hi hout.1
  have hnot : i < start (numRows specTokens) reqId reqIds ∨
      start (numRows specTokens) reqId reqIds + (rowsOf reqId).length ≤ i := by
    by_contra hin
    refine hout.2 (mem_map.mpr ⟨i - start (numRows specTokens) reqId reqIds, mem_range.mpr ?_, ?_⟩)
    · omega
    · omega
  rw [← hbefore]
  exact getElem?_writeAt_of_not hlen hnot

lemma Scattered.loop (h : Scattered specTokens width rowsOf reqIds seen s) (hnd : reqIds.Nodup)
    (hrows : ∀ id ∈ reqIds, (rowsOf id).length = numRows specTokens id)
    (hids : ∀ id ∈ ids, id ∈ reqIds ∧ id ∈ structOutReqIds)
    (hbitmask : grammarBitmask = front ++ ids.flatMap rowsOf) : ∃ s', ids.foldlM (scatterRequest specTokens
        (reqIds.foldl (batchIndexStep specTokens structOutReqIds) (.empty, 0, 0)).1
        grammarBitmask) (s, front.length) = .ok s' ∧
      Scattered specTokens width rowsOf reqIds (seen ++ ids) s'.1 := by
  induction ids generalizing seen s front with
  | nil => exact ⟨_, rfl, (append_nil seen).symm ▸ h⟩
  | cons id ids ih =>
    obtain ⟨hmem, hstruct⟩ := hids id mem_cons_self
    rw [flatMap_cons, ← append_assoc] at hbitmask
    obtain ⟨s1, hs1, h1⟩ := h.step hnd hrows hmem hstruct hbitmask
    have hfront : (front ++ rowsOf id).length = front.length + numRows specTokens id := by
      rw [length_append, hrows id hmem]
    obtain ⟨s2, hs2, h2⟩ := ih h1 (fun id' hid' => hids id' (mem_cons_of_mem id hid')) hbitmask
    rw [hfront] at hs2
    refine ⟨s2, ?_, ?_⟩
    · rw [foldlM_cons, hs1, ok_bind, hs2]
    · rw [← singleton_append, ← append_assoc]
      exact h2

lemma applyGrammarBitmask_eq {negInf : L} (hkernel : AppliesTokenBitmask negInf kernel)
    {schedulerOutput : SchedulerOutput}
    (hspec : schedulerOutput.scheduledSpecDecodeTokens = specTokens) (hnd : reqIds.Nodup)
    (hids : ∀ id ∈ structOutReqIds, id ∈ reqIds) (hne : structOutReqIds ≠ [])
    (hrowsOf : ∀ id, (rowsOf id).length = numRows specTokens id)
    (hwidth : ∀ id, HasWidth width (rowsOf id)) {logits : RequestId → List (List L)}
    (hlogits : ∀ id ∈ reqIds, (logits id).length = numRows specTokens id) :
    applyGrammarBitmask kernel schedulerOutput ⟨structOutReqIds, structOutReqIds.flatMap rowsOf⟩
        reqIds (reqIds.flatMap logits) = .ok (reqIds.flatMap fun id => if id ∈ structOutReqIds then
        zipWith (maskRow negInf) (rowsOf id) (logits id) else logits id) := by
  have hhead : ((structOutReqIds.flatMap rowsOf).headD []).length = width := by
    obtain ⟨id, ids, rfl⟩ := exists_cons_of_ne_nil hne
    have hpos : 0 < (rowsOf id).length := by
      rw [hrowsOf]
      exact Nat.lt_add_right _ Nat.one_pos
    obtain ⟨row, rest, hrow⟩ := exists_cons_of_length_pos hpos
    rw [flatMap_cons, hrow]
    exact hwidth id row (hrow ▸ mem_cons_self)
  have hinit : Scattered specTokens width rowsOf reqIds []
      ⟨replicate (reqIds.flatMap logits).length (replicate width (-1)), []⟩ := by
    have htotal : (reqIds.flatMap logits).length = (reqIds.flatMap fun id => replicate (numRows specTokens id)
          (replicate width (-1 : BitVec 32))).length := by
      rw [length_flatMap hlogits, length_flatMap fun id _ => length_replicate]
    constructor
    · rw [htotal, eq_comm]
      refine eq_replicate_iff.mpr ⟨?_, fun row hrow => ?_⟩
      · simp
      · obtain ⟨id, -, hrow⟩ := mem_flatMap.mp hrow
        exact eq_of_mem_replicate hrow
    · intro i hi _
      rw [length_replicate] at hi
      exact getElem?_replicate_of_lt hi
  have hbitmask : structOutReqIds.flatMap rowsOf = [] ++ structOutReqIds.flatMap rowsOf := rfl
  obtain ⟨s, hs, hscattered⟩ := hinit.loop hnd (fun id _ => hrowsOf id)
    (fun id hid => ⟨hids id hid, hid⟩) hbitmask
  rw [nil_append] at hscattered
  have hF : ∀ id ∈ reqIds, (if id ∈ structOutReqIds then rowsOf id
      else replicate (numRows specTokens id) (replicate width (-1))).length = numRows specTokens id := by
    intro id _
    split
    · exact hrowsOf id
    · exact length_replicate
  have hlen : s.1.sortedBitmask.length = (reqIds.flatMap logits).length := by
    rw [hscattered.sortedBitmask, length_flatMap hF, length_flatMap hlogits]
  have hunselected : ∀ js, (if s.1.outIndices.length = (reqIds.flatMap logits).length then none
      else some s.1.outIndices) = some js → ∀ i < s.1.sortedBitmask.length, i ∉ js →
      s.1.sortedBitmask[i]? = some (replicate width (-1)) := by
    intro js hjs i hi hout
    split at hjs
    · cases hjs
    · exact hscattered.full i hi (some.inj hjs ▸ hout)
  have hmasked := hkernel.eq_zipWith hlen hunselected
  unfold applyGrammarBitmask
  dsimp only
  rw [hspec, hhead]
  rw [length_nil] at hs
  rw [hs, ok_bind, hmasked, hscattered.sortedBitmask, zipWith_flatMap _ fun id hid =>
    (hF id hid).trans (hlogits id hid).symm]
  congr 1
  refine flatMap_congr fun id hid => ?_
  split
  · rfl
  · -- full rows mask nothing
    refine ext_getElem ?_ fun i _ _ => ?_
    · rw [length_zipWith, length_replicate, hlogits id hid, min_self]
    · rw [getElem_zipWith, getElem_replicate, maskRow_full]

/-- The bitmask has a row for every request and draft. -/
structure StructuredOutputManager.Ready (manager : StructuredOutputManager) (width : ℕ) :
    Prop where
  allocated : ∀ bitmask, manager.grammarBitmask = some bitmask →
    bitmask.length = manager.maxNumSeqs * (1 + manager.numSpeculativeTokens.getD 0) ∧ HasWidth width bitmask
  backend : ∃ allocateTokenBitmask, manager.backend = some allocateTokenBitmask ∧
    ∀ n, (allocateTokenBitmask n).length = n ∧ HasWidth width (allocateTokenBitmask n)

/-- The logits of a position, masked by the tokens the grammar accepts there. -/
def positionLogits (manager : StructuredOutputManager) (ops : StructuredOutputGrammar G)
    (requests : Dict RequestId (GrammarRequest G)) (scheduled : Dict RequestId (List TokenId))
    (negInf : L) (reqId : RequestId) (i : ℕ) (logits : List L) : List L :=
  match manager.view (requests.get? reqId) with
  | none => logits
  | some v =>
    let before := (draftsOf scheduled reqId).take i
    if ops.constrains reqId v.1 v.2 before then
      logits.mapIdx fun token x =>
        if (ops.acceptTokens (ops.stateAfter reqId v.1 before) reqId [(token : ℤ)]).1 then x
        else negInf
    else logits

variable {ops : StructuredOutputGrammar G} {manager : StructuredOutputManager}
  {requests : Dict RequestId (GrammarRequest G)} {scheduled : Dict RequestId (List TokenId)}

lemma maskRow_eq_positionLogits (hauto : ops.Automaton width) (negInf : L)
    {i : ℕ} (hi : i < numRows scheduled reqId) {row : MaskRow}
    (hget : (manager.maskRows ops width requests scheduled reqId)[i]? = some row) {logits : List L}
    (hvocab : logits.length ≤ 32 * width) : maskRow negInf row logits =
      positionLogits manager ops requests scheduled negInf reqId i logits := by
  unfold maskRows at hget
  unfold positionLogits
  cases hview : manager.view (requests.get? reqId) with
  | none =>
    rw [hview] at hget
    rw [getElem?_replicate_of_lt hi] at hget
    rw [← some.inj hget, maskRow_full]
  | some v =>
    rw [hview] at hget
    dsimp only at hget ⊢
    unfold StructuredOutputGrammar.positionRows at hget
    unfold numRows at hi
    rw [getElem?_map, getElem?_range hi, map_some] at hget
    rw [← some.inj hget]
    unfold StructuredOutputGrammar.positionRow
    by_cases hon : ops.constrains reqId v.1 v.2 ((draftsOf scheduled reqId).take i) = true
    · rw [if_pos hon, if_pos hon]
      have hterm : ops.isTerminated
          (ops.stateAfter reqId v.1 ((draftsOf scheduled reqId).take i)) = false := by
        simpa using (Bool.and_eq_true_iff.mp hon).2
      unfold maskRow
      rw [hauto.length_fill]
      refine ext_getElem (by simp) fun token htoken _ => ?_
      rw [length_mapIdx] at htoken
      have hlt : token < 32 * width := htoken.trans_le hvocab
      have hallows := hauto.fill_allows _ reqId token hterm hlt
      rw [getElem_mapIdx, getElem_mapIdx]
      by_cases haccept : (ops.acceptTokens (ops.stateAfter reqId v.1
          ((draftsOf scheduled reqId).take i)) reqId [(token : ℤ)]).1 = true
      · refine (if_neg fun h => ?_).trans (if_pos haccept).symm
        rw [← hallows, h.2] at haccept
        exact Bool.false_ne_true haccept
      · refine (if_pos ⟨hlt, ?_⟩).trans (if_neg haccept).symm
        rw [hallows]
        exact Bool.eq_false_iff.mpr haccept
    · rw [if_neg hon, if_neg hon, maskRow_full]

lemma zipWith_maskRows (hauto : ops.Automaton width) (negInf : L)
    (hlen : logits.length = numRows scheduled reqId) (hvocab : ∀ row ∈ logits, row.length ≤ 32 * width) :
    zipWith (maskRow negInf) (manager.maskRows ops width requests scheduled reqId) logits =
      logits.mapIdx fun i row => positionLogits manager ops requests scheduled negInf reqId i row := by
  refine ext_getElem ?_ fun i hi hi' => ?_
  · rw [length_zipWith, length_maskRows, hlen, min_self, length_mapIdx, hlen]
  · have hrow : i < logits.length := by
      rwa [length_mapIdx] at hi'
    rw [getElem_zipWith, getElem_mapIdx]
    exact maskRow_eq_positionLogits hauto negInf (hlen ▸ hrow) (getElem?_eq_getElem _)
      (hvocab _ (getElem_mem hrow))

namespace StructuredOutputManager

def structuredIds (requests : Dict RequestId (GrammarRequest G)) (ids : List RequestId) :
    List RequestId :=
  ids.filter fun reqId => (requests.get? reqId).any GrammarRequest.useStructuredOutput

lemma isSome_view (manager : StructuredOutputManager) (request : Option (GrammarRequest G)) :
    (manager.view request).isSome = request.any GrammarRequest.useStructuredOutput := by
  cases request with
  | none => rfl
  | some request =>
    unfold view GrammarRequest.useStructuredOutput
    rw [bind_some, isSome_map]
    rfl

lemma exists_view_of_mem (manager : StructuredOutputManager) {id : RequestId}
    (hid : id ∈ structuredIds requests ids) : ∃ v, manager.view (requests.get? id) = some v := by
  have huse := (mem_filter.mp hid).2
  rw [← isSome_view manager] at huse
  exact isSome_iff_exists.mp huse

lemma view_of_not_mem {id : RequestId} (hmem : id ∈ ids) (hid : id ∉ structuredIds requests ids) :
    manager.view (requests.get? id) = none := by
  have huse : ¬(requests.get? id).any GrammarRequest.useStructuredOutput = true := fun h =>
    hid (mem_filter.mpr ⟨hmem, h⟩)
  rw [← isSome_view manager] at huse
  exact not_isSome_iff_eq_none.mp huse

lemma total_numRows_le {n : ℕ} (hdrafts : ∀ id, (draftsOf scheduled id).length ≤ n) {k : ℕ}
    (hk : ids.length ≤ k) : total (numRows scheduled) ids ≤ k * (1 + n) := by
  refine le_trans ?_ (Nat.mul_le_mul_right (1 + n) hk)
  have hsum := sum_le_card_nsmul (ids.map (numRows scheduled)) (1 + n) fun x hx => by
    obtain ⟨id, -, rfl⟩ := mem_map.mp hx
    exact Nat.add_le_add_left (hdrafts id) 1
  rwa [length_map] at hsum

variable {interleave : List (List (G × ℕ × Bool)) → List (G × ℕ × Bool)}

lemma callGrammarBitmask_eq (hauto : ops.Automaton width)
    (hinterleave : ∀ batches, (interleave batches).Perm batches.flatten)
    (hready : manager.Ready width) (hnd : ids.Nodup) (hne : ids ≠ []) (hcount : ids.length ≤ manager.maxNumSeqs)
    (hdrafts : ∀ id, (draftsOf scheduled id).length ≤ manager.numSpeculativeTokens.getD 0)
    (hview : ∀ id ∈ ids, ∃ v, manager.view (requests.get? id) = some v ∧
      (v.2 = true → ops.ValidDrafts id v.1 (draftsOf scheduled id))) :
    ∃ manager' requests', manager.callGrammarBitmask ops interleave requests ids scheduled =
        .ok (some (ids.flatMap (manager.maskRows ops width requests scheduled)), manager', requests') ∧
      manager'.Ready width ∧ ∀ id, grammarOf requests' id = grammarOf requests id := by
  obtain ⟨allocateTokenBitmask, hbackend, halloc⟩ := hready.backend
  have htotal := total_numRows_le hdrafts hcount
  obtain ⟨bitmask, hbitmask, hlen, hw⟩ : ∃ bitmask, manager.allocatedBitmask = .ok bitmask ∧
      bitmask.length = manager.maxNumSeqs * (1 + manager.numSpeculativeTokens.getD 0) ∧ HasWidth width bitmask := by
    unfold allocatedBitmask
    cases hmask : manager.grammarBitmask with
    | some bitmask => exact ⟨bitmask, rfl, hready.allocated bitmask hmask⟩
    | none =>
      rw [hbackend]
      exact ⟨_, rfl, halloc _⟩
  have hfilled : ∃ s, (if ids.length > fillBitmaskParallelThreshold ∧ manager.numSpeculativeTokens.getD 0 = 0 then
        manager.parallelFill ops interleave requests ids bitmask
      else manager.serialFill ops requests ids scheduled bitmask) = .ok s ∧
      manager.Filled ops width scheduled ids ⟨requests, bitmask, 0⟩ s := by
    split
    · next hparallel =>
      refine parallelFill_eq hauto hnd hw hinterleave (fun id hid => ?_) (fun id _ => ?_)
        (htotal.trans hlen.ge)
      · obtain ⟨v, hv, -⟩ := hview id hid
        exact ⟨v, hv⟩
      · have hzero := hdrafts id
        rw [hparallel.2] at hzero
        exact length_eq_zero_iff.mp (Nat.le_zero.mp hzero)
    · exact serialFill_eq hauto hnd hw hview (htotal.trans hlen.ge)
  obtain ⟨s, hs, hmask, hindex, hgrammar⟩ := hfilled
  have hrowsLen : (ids.flatMap (manager.maskRows ops width requests scheduled)).length =
      total (numRows scheduled) ids := length_flatMap fun id _ => length_maskRows id
  dsimp only at hmask hindex
  rw [Nat.zero_add, ← hrowsLen] at hindex
  unfold callGrammarBitmask
  rw [if_neg hne]
  rw [hbitmask, ok_bind, hs, ok_bind, hindex, hmask, take_writeAt_zero]
  refine ⟨_, _, rfl, ⟨?_, hready.backend⟩, hgrammar⟩
  intro bitmask' hbitmask'
  obtain rfl := some.inj hbitmask'
  refine ⟨?_, hw.writeAt ?_ 0⟩
  · rw [length_writeAt (by omega)]
    exact hlen
  · intro row hrow
    obtain ⟨id, -, hrow⟩ := mem_flatMap.mp hrow
    exact hasWidth_maskRows hauto id row hrow

end StructuredOutputManager

/-- Grammar masks reach the right rows of the logits, whatever the order of the worker and of the
filling threads. -/
theorem grammarBitmask_masks (hauto : ops.Automaton width)
    (interleave : List (List (G × ℕ × Bool)) → List (G × ℕ × Bool))
    (hinterleave : ∀ batches, (interleave batches).Perm batches.flatten)
    (hready : manager.Ready width) (schedulerOutput : SchedulerOutput)
    (hcount : schedulerOutput.numScheduledTokens.keys.length ≤ manager.maxNumSeqs)
    (hscheduled : schedulerOutput.scheduledSpecDecodeTokens = scheduled)
    (hdrafts : ∀ id, (draftsOf scheduled id).length ≤ manager.numSpeculativeTokens.getD 0)
    (hvalid : ∀ id g, manager.view (requests.get? id) = some (g, true) →
      ops.ValidDrafts id g (draftsOf scheduled id)) (negInf : L)
    (kernel : List (List L) → List MaskRow → Option (List ℕ) → List (List L))
    (hkernel : AppliesTokenBitmask negInf kernel)
    (hreqIds : reqIds.Perm schedulerOutput.numScheduledTokens.keys) (logits : RequestId → List (List L))
    (hlogits : ∀ id ∈ reqIds, (logits id).length = numRows scheduled id)
    (hvocab : ∀ id ∈ reqIds, ∀ row ∈ logits id, row.length ≤ 32 * width) : (∃ output manager' requests',
      getGrammarBitmask manager ops interleave requests schedulerOutput = .ok (output, manager', requests') ∧
      maskLogits kernel schedulerOutput output reqIds (reqIds.flatMap logits) =
        .ok (reqIds.flatMap fun id => (logits id).mapIdx fun i row =>
          positionLogits manager ops requests scheduled negInf id i row) ∧
      manager'.Ready width ∧ ∀ id, grammarOf requests' id = grammarOf requests id) ∧
    (manager.numSpeculativeTokens.getD 0 = 0 → ∀ bitmask, HasWidth width bitmask →
      manager.maxNumSeqs ≤ bitmask.length → ∃ s s', manager.parallelFill ops interleave requests
          (structuredIds requests schedulerOutput.numScheduledTokens.keys) bitmask = .ok s ∧
        manager.serialFill ops requests
          (structuredIds requests schedulerOutput.numScheduledTokens.keys) scheduled bitmask =
          .ok s' ∧ s.bitmask = s'.bitmask ∧ s.cumulativeIndex = s'.cumulativeIndex) := by
  have hkeys : schedulerOutput.numScheduledTokens.keys.Nodup := schedulerOutput.numScheduledTokens.nodup_keys
  set ids := structuredIds requests schedulerOutput.numScheduledTokens.keys with hids
  have hnd : ids.Nodup := hkeys.filter _
  have hcount' : ids.length ≤ manager.maxNumSeqs := (length_filter_le _ _).trans hcount
  have hview : ∀ id ∈ ids, ∃ v, manager.view (requests.get? id) = some v ∧
      (v.2 = true → ops.ValidDrafts id v.1 (draftsOf scheduled id)) := by
    intro id hid
    obtain ⟨⟨g, on⟩, hv⟩ := exists_view_of_mem manager hid
    refine ⟨(g, on), hv, fun hon => ?_⟩
    dsimp only at hon ⊢
    rw [hon] at hv
    exact hvalid id g hv
  have hnone : ∀ id ∈ reqIds, id ∉ ids → ((logits id).mapIdx fun i row =>
      positionLogits manager ops requests scheduled negInf id i row) = logits id := by
    intro id hid hnot
    have hrow : (fun i row => positionLogits manager ops requests scheduled negInf id i row) =
        fun _ (row : List L) => row := by
      unfold positionLogits
      rw [view_of_not_mem (hreqIds.mem_iff.mp hid) hnot]
    rw [hrow]
    exact ext_getElem (length_mapIdx) fun i _ _ => getElem_mapIdx ..
  constructor
  · change ∃ output manager' requests', (if ids = [] then _ else _) = _ ∧ _
    by_cases hempty : ids = []
    · rw [if_pos hempty]
      refine ⟨none, manager, requests, rfl, ?_, hready, fun _ => rfl⟩
      refine congrArg Except.ok (flatMap_congr fun id hid => ?_)
      refine (hnone id hid ?_).symm
      rw [hempty]
      exact not_mem_nil
    · obtain ⟨manager', requests', hcall, hready', hgrammar⟩ :=
        callGrammarBitmask_eq hauto hinterleave hready hnd hempty hcount' hdrafts hview
      rw [if_neg hempty, hscheduled]
      have hcall' := hcall
      rw [hids] at hcall'
      unfold structuredIds at hcall'
      rw [hcall']
      refine ⟨_, manager', requests', rfl, ?_, hready', hgrammar⟩
      have hrowsLen : ∀ id, (manager.maskRows ops width requests scheduled id).length =
          numRows scheduled id := fun id => length_maskRows id
      have hwidth : ∀ id, HasWidth width (manager.maskRows ops width requests scheduled id) :=
        fun id => hasWidth_maskRows hauto id
      have happly := applyGrammarBitmask_eq hkernel hscheduled (hreqIds.nodup_iff.mpr hkeys)
        (fun id hid => hreqIds.mem_iff.mpr (mem_of_mem_filter hid)) hempty hrowsLen hwidth
        hlogits
      refine happly.trans (congrArg Except.ok (flatMap_congr fun id hid => ?_))
      split
      · exact zipWith_maskRows hauto negInf (hlogits id hid) (hvocab id hid)
      · next hnot => exact (hnone id hid hnot).symm
  · intro hzero bitmask hw hlen
    have htotal := total_numRows_le hdrafts hcount'
    rw [hzero, Nat.mul_one] at htotal
    have hnil : ∀ id ∈ ids, draftsOf scheduled id = [] := by
      intro id _
      have hid := hdrafts id
      rw [hzero] at hid
      exact length_eq_zero_iff.mp (Nat.le_zero.mp hid)
    have hview' : ∀ id ∈ ids, ∃ v, manager.view (requests.get? id) = some v := by
      intro id hid
      obtain ⟨v, hv, -⟩ := hview id hid
      exact ⟨v, hv⟩
    obtain ⟨s, hs, hfilled⟩ := parallelFill_eq hauto hnd hw hinterleave hview' hnil (htotal.trans hlen)
    obtain ⟨s', hs', hfilled'⟩ := serialFill_eq hauto hnd hw hview (htotal.trans hlen)
    exact ⟨s, s', hs, hs', hfilled.bitmask.trans hfilled'.bitmask.symm,
      hfilled.cumulativeIndex.trans hfilled'.cumulativeIndex.symm⟩

/-- A grammar of up to two tokens, each of them 0 or 1, with the accepted tokens as its state. -/
def twoBits : StructuredOutputGrammar (List TokenId) where
  acceptTokens g _ tokens := match tokens with
    | [token] => if g.length < 2 ∧ (token = 0 ∨ token = 1) then (true, token :: g) else (false, g)
    | _ => (false, g)
  rollback g n := g.drop n
  fillBitmask g := if g.length < 2 then [3] else [0]
  isTerminated g := decide (2 ≤ g.length)

lemma twoBits_automaton : twoBits.Automaton 1 where
  rollback_exact g n g' h := by
    induction h with
    | refl => rfl
    | step reqId token h ha ih =>
      dsimp only [twoBits] at ha ih ⊢
      split at ha
      · next hif =>
        rw [if_pos hif]
        exact ih
      · exact absurd ha Bool.false_ne_true
  length_fill g := by
    dsimp only [twoBits]
    split <;> rfl
  fill_allows g reqId token hterm hlt := by
    dsimp only [twoBits] at hterm ⊢
    have hopen : g.length < 2 := Nat.not_le.mp (of_decide_eq_false hterm)
    interval_cases token <;> simp [hopen] <;> decide

lemma twoBits_drafts (id : RequestId) :
    draftsOf (Dict.empty.set "b" [0, -1]) id = if id = "b" then [0, -1] else [] := by
  unfold draftsOf
  rw [Dict.get?_set]
  split <;> rfl

lemma twoBits_validDrafts (id : RequestId) : twoBits.ValidDrafts id [] [0, -1] := by
  intro before token rest heq _ htoken _
  match before with
  | [] =>
    obtain ⟨rfl, -⟩ := cons.inj heq
    rfl
  | [x] =>
    obtain ⟨-, heq⟩ := cons.inj heq
    exact absurd (cons.inj heq).1.symm htoken
  | x :: y :: l =>
    have hlen := congrArg length heq
    simp only [length_append, length_cons, length_nil] at hlen
    omega

/-- The second of two requests has a grammar, one draft and padding, and comes first in the batch
of the worker. -/
theorem grammarBitmask_masks_small :
    ∃ output manager' requests', getGrammarBitmask
        ⟨some fun n => replicate n [0], none, false, 2, some 2, none⟩ twoBits List.flatten
        ((Dict.empty.set "a" ⟨none, none⟩).set "b" ⟨none, some ⟨[], none⟩⟩)
        ⟨[], {}, (Dict.empty.set "a" 1).set "b" 3, 4, Dict.empty.set "b" [0, -1], .empty, [], ∅,
          []⟩ =
        .ok (output, manager', requests') ∧
      maskLogits (fun logits bitmask indices => logits.mapIdx fun i row =>
          if indices.all (fun indices => decide (i ∈ indices)) then
            maskRow (-9) ((bitmask[i]?).getD []) row
          else row)
        ⟨[], {}, (Dict.empty.set "a" 1).set "b" 3, 4, Dict.empty.set "b" [0, -1], .empty, [], ∅, []⟩
        output ["b", "a"] [[1, 2, 3], [4, 5, 6], [7, 8, 9], [10, 11, 12]] =
        .ok [[1, 2, -9], [4, 5, -9], [7, 8, 9], [10, 11, 12]] := by
  have hready : StructuredOutputManager.Ready
      ⟨some fun n => replicate n [0], none, false, 2, some 2, none⟩ 1 := by
    refine ⟨fun bitmask h => ?_, _, rfl, fun n => ⟨length_replicate, fun row hrow => ?_⟩⟩
    · cases h
    · rw [eq_of_mem_replicate hrow]
      rfl
  have hvalid : ∀ id g, StructuredOutputManager.view
      ⟨some fun n => replicate n [0], none, false, 2, some 2, none⟩
      (((Dict.empty.set "a" ⟨none, none⟩).set "b" ⟨none, some ⟨[], none⟩⟩).get? id) =
        some (g, true) →
      twoBits.ValidDrafts id g (draftsOf (Dict.empty.set "b" [0, -1]) id) := by
    intro id g hg
    rw [twoBits_drafts]
    split
    · next hid =>
      rw [hid] at hg
      obtain rfl : [] = g := (Prod.mk.inj (some.inj hg)).1
      exact twoBits_validDrafts id
    · intro before token rest heq
      exact absurd heq (by simp)
  obtain ⟨⟨output, manager', requests', hget, hmask, -⟩, -⟩ := grammarBitmask_masks
    twoBits_automaton flatten (fun _ => .refl _) hready
    ⟨[], {}, (Dict.empty.set "a" 1).set "b" 3, 4, Dict.empty.set "b" [0, -1], .empty, [], ∅, []⟩
    (by decide) rfl (fun id => by rw [twoBits_drafts]; split <;> decide) hvalid (-9) _
    (fun _ _ _ _ => rfl) (.swap "a" "b" [])
    (fun id => if id = "a" then [[10, 11, 12]] else [[1, 2, 3], [4, 5, 6], [7, 8, 9]]) (by decide)
    (by decide)
  exact ⟨output, manager', requests', hget, hmask.trans (by decide)⟩

end CustomAi.Vllm
