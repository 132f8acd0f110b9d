import CustomAi.Lib.CeilDiv

/-!
# The pages of a retrieval

A page of results is a part of a larger window of the ranked chunks, which is sorted by similarity
and filtered by the threshold.
-/

namespace CustomAi.Ragflow.RetrievalPages

open List Option

variable {C S : Type} [LE S] [DecidableLE S] [Neg S]

/-- The searches for a question: the first and the one with a lower `min_match`. -/
inductive MatchExpr where
  | first (question : String)
  | relaxed (question : String)

/-- What is asked of the data store, numpy and the ranking. -/
structure Backend (C S : Type) where
  /-- The ids at an offset and up to a limit, and the total. -/
  search : MatchExpr → ℕ → ℕ → List C × ℕ
  argsort : List S → List ℕ
  similarity : C → S

/-- `Dealer.search` of a window. -/
def search (backend : Backend C S) (question : String) (page size : ℕ) : List C :=
  let res := backend.search (.first question) ((page - 1) * size) size
  if res.2 = 0 then (backend.search (.relaxed question) ((page - 1) * size) size).1 else res.1

/-- `RERANK_LIMIT` -/
def rerankLimit (pageSize : ℕ) : ℕ := if 1 < pageSize then cdiv 64 pageSize * pageSize else 1

/-- The ids of the chunks that `Dealer.retrieval` returns. -/
def retrieval (backend : Backend C S) (question : String) (page pageSize : ℕ)
    (similarityThreshold : S) : List C :=
  if question = "" then [] else
  let ids := search backend question (cdiv (pageSize * page) (rerankLimit pageSize))
    (rerankLimit pageSize)
  let sim := ids.map backend.similarity
  let sortedIdx := backend.argsort (sim.map (- ·))
  let validIdx := sortedIdx.filter fun i => (sim[i]?).any fun s => decide (similarityThreshold ≤ s)
  let maxPages := max (rerankLimit pageSize / max pageSize 1) 1
  let pageIndex := (page - 1) % maxPages
  let begin := pageIndex * pageSize
  let pageIdx := (validIdx.drop begin).take pageSize
  pageIdx.filterMap (ids[·]?)

/-- The data store answers with slices of fixed ranked lists, and `np.argsort` with an order of
all positions. -/
structure Behaves (backend : Backend C S) (ranked : MatchExpr → List C) : Prop where
  search : ∀ expr offset limit, backend.search expr offset limit =
    (((ranked expr).drop offset).take limit, (ranked expr).length)
  argsort : ∀ sim : List S, (backend.argsort sim).Perm (List.range sim.length)

/-- The list that the pages are taken from. -/
def ranking (ranked : MatchExpr → List C) (question : String) : List C :=
  if (ranked (.first question)).length = 0 then ranked (.relaxed question)
  else ranked (.first question)

/-- The pages have the chunks that reach the threshold, each on one of them. -/
structure Partitions (chunks : List C) (valid : C → Prop) (pageSize : ℕ) (pages : ℕ → List C) :
    Prop where
  once : ∀ c ∈ chunks, valid c → ∃! page, 1 ≤ page ∧ c ∈ pages page
  nodup : ∀ page, 1 ≤ page → (pages page).Nodup
  length_le : ∀ page, 1 ≤ page → (pages page).length ≤ pageSize
  valid : ∀ page, 1 ≤ page → ∀ c ∈ pages page, c ∈ chunks ∧ valid c

variable {backend : Backend C S} {ranked : MatchExpr → List C} {question : String}
  {page pageSize : ℕ} {threshold : S} {l : List C} {c : C}

omit [LE S] [DecidableLE S] [Neg S] in
lemma mem_slice_iff {size i r : ℕ} (hsize : 0 < size) (hnd : l.Nodup) (hr : l[r]? = some c) :
    c ∈ (l.drop (i * size)).take size ↔ r / size = i := by
  rw [List.mem_iff_getElem?]
  simp only [List.getElem?_take, List.getElem?_drop]
  constructor
  · rintro ⟨j, hj⟩
    split_ifs at hj with hlt
    have heq : i * size + j = r := (List.getElem?_inj (List.getElem?_eq_some_iff.mp hj).1 hnd).mp (hj.trans hr.symm)
    rw [← heq, mul_comm, Nat.mul_add_div hsize, Nat.div_eq_of_lt hlt, add_zero]
  · rintro rfl
    refine ⟨r % size, ?_⟩
    rw [if_pos (Nat.mod_lt _ hsize), mul_comm, Nat.div_add_mod, hr]

lemma rerankLimit_eq (h : 1 ≤ pageSize) : ∃ m, 0 < m ∧ rerankLimit pageSize = m * pageSize := by
  unfold rerankLimit
  split_ifs with hsize
  · refine ⟨cdiv 64 pageSize, ?_, rfl⟩
    rw [cdiv_eq_pred_div_add_one (by omega) (by omega)]
    exact Nat.succ_pos _
  · exact ⟨1, one_pos, by omega⟩

/-- The chunks of a window that reach the threshold, in the order they are paged in. -/
def validChunks (backend : Backend C S) (threshold : S) (ids : List C) : List C :=
  ((backend.argsort ((ids.map backend.similarity).map (- ·))).filter fun i =>
    ((ids.map backend.similarity)[i]?).any fun s => decide (threshold ≤ s)).filterMap (ids[·]?)

omit [LE S] [DecidableLE S] [Neg S] in
lemma filterMap_range (l : List C) (p : C → Bool) :
    (range l.length).filterMap (fun i => (l[i]?).filter p) = l.filter p := by
  induction l with
  | nil => rfl
  | cons c rest ih =>
    rw [length_cons, range_succ_eq_map, filterMap_cons, filterMap_map]
    have hrest : (range rest.length).filterMap
        ((fun i => ((c :: rest)[i]?).filter p) ∘ Nat.succ) = rest.filter p := ih
    rw [hrest, getElem?_cons_zero, filter_some, filter_cons]
    by_cases hc : p c = true
    · rw [if_pos hc, if_pos hc]
    · rw [if_neg hc, if_neg hc]

lemma validChunks_perm (threshold : S) (h : Behaves backend ranked) (ids : List C) :
    (validChunks backend threshold ids).Perm (ids.filter fun c => decide (threshold ≤ backend.similarity c)) := by
  have hperm := h.argsort ((ids.map backend.similarity).map (- ·))
  rw [length_map, length_map] at hperm
  refine ((hperm.filter _).filterMap _).trans (Perm.of_eq ?_)
  rw [filterMap_filter, ← filterMap_range]
  refine filterMap_congr fun i _ => ?_
  rw [getElem?_map]
  cases ids[i]? with
  | none => rfl
  | some c => by_cases hc : threshold ≤ backend.similarity c <;> simp [hc, filter_some]

omit [LE S] [DecidableLE S] [Neg S] in
lemma map_some_filterMap {f : ℕ → Option C} {idx : List ℕ} (h : ∀ i ∈ idx, (f i).isSome) :
    (idx.filterMap f).map some = idx.map f := by
  induction idx with
  | nil => rfl
  | cons i rest ih =>
    rw [forall_mem_cons] at h
    obtain ⟨c, hc⟩ := isSome_iff_exists.mp h.1
    rw [filterMap_cons_some hc, map_cons, map_cons, ih h.2, hc]

/-- A page is a slice of the valid chunks of its window. -/
lemma retrieval_eq (h : Behaves backend ranked) (hquestion : question ≠ "") {m : ℕ} (hm : 0 < m)
    (hsize : 1 ≤ pageSize) (hlimit : rerankLimit pageSize = m * pageSize) (hpage : 1 ≤ page) :
    retrieval backend question page pageSize threshold =
      ((validChunks backend threshold (((ranking ranked question).drop
        ((page - 1) / m * (m * pageSize))).take (m * pageSize))).drop
          ((page - 1) % m * pageSize)).take pageSize := by
  have hids : search backend question (cdiv (pageSize * page) (m * pageSize)) (m * pageSize) =
      ((ranking ranked question).drop ((page - 1) / m * (m * pageSize))).take (m * pageSize) := by
    have hwindow : cdiv (pageSize * page) (m * pageSize) - 1 = (page - 1) / m := by
      have hpred : (pageSize * page - 1) / pageSize = page - 1 := by
        obtain ⟨k, rfl⟩ := Nat.exists_eq_add_of_le' hpage
        rw [Nat.mul_succ, Nat.add_sub_assoc hsize, Nat.mul_add_div hsize,
          Nat.div_eq_of_lt (by omega), Nat.add_sub_cancel, add_zero]
      rw [cdiv_eq_pred_div_add_one (Nat.mul_pos hm hsize) (Nat.mul_pos hsize hpage),
        Nat.add_sub_cancel, mul_comm m, ← Nat.div_div_eq_div_mul, hpred]
    unfold search ranking
    rw [h.search, h.search, hwindow]
    dsimp only
    split_ifs <;> rfl
  have hpages : max (m * pageSize / max pageSize 1) 1 = m := by
    rw [max_eq_left hsize, Nat.mul_div_cancel _ hsize, max_eq_left hm]
  unfold retrieval validChunks
  rw [if_neg hquestion, hlimit, hids, hpages]
  generalize ((ranking ranked question).drop ((page - 1) / m * (m * pageSize))).take (m * pageSize) = ids
  have hsome : ∀ i ∈ (backend.argsort ((ids.map backend.similarity).map (- ·))).filter (fun i =>
      ((ids.map backend.similarity)[i]?).any fun s => decide (threshold ≤ s)), (ids[i]?).isSome := by
    intro i hi
    have hany := (mem_filter.mp hi).2
    rw [getElem?_map] at hany
    cases hget : ids[i]? with
    | none =>
      rw [hget] at hany
      cases hany
    | some c => rfl
  refine map_injective_iff.mpr (some_injective C) ?_
  rw [map_some_filterMap fun i hi => hsome i (mem_of_mem_drop (mem_of_mem_take hi)),
    map_take, map_drop, map_take, map_drop, map_some_filterMap hsome]

/-- For every question that is not empty the pages partition the chunks that reach the
threshold. -/
theorem retrieval_partitions (h : Behaves backend ranked) (hquestion : question ≠ "")
    (hsize : 1 ≤ pageSize) (hnd : (ranking ranked question).Nodup) (threshold : S) :
    Partitions (ranking ranked question) (fun c => threshold ≤ backend.similarity c) pageSize
      (fun page => retrieval backend question page pageSize threshold) := by
  obtain ⟨m, hm, hlimit⟩ := rerankLimit_eq hsize
  have hlimit_pos : 0 < m * pageSize := Nat.mul_pos hm hsize
  -- The chunks of a window, and those of them that are paged.
  set ids := fun w => ((ranking ranked question).drop (w * (m * pageSize))).take (m * pageSize)
  have hids : ∀ w, (ids w).Nodup := fun w =>
    (hnd.sublist (drop_sublist _ _)).sublist (take_sublist _ _)
  have hperm := fun w => validChunks_perm threshold h (ids w)
  have hvalid : ∀ w, (validChunks backend threshold (ids w)).Nodup := fun w =>
    (hperm w).nodup_iff.mpr ((hids w).filter _)
  have hpage : ∀ page, 1 ≤ page → retrieval backend question page pageSize threshold =
      ((validChunks backend threshold (ids ((page - 1) / m))).drop
        ((page - 1) % m * pageSize)).take pageSize := fun page hpage =>
    retrieval_eq h hquestion hm hsize hlimit hpage
  have hsub : ∀ w c, c ∈ validChunks backend threshold (ids w) ↔
      c ∈ ids w ∧ threshold ≤ backend.similarity c := fun w c => by
    rw [(hperm w).mem_iff, mem_filter, decide_eq_true_eq]
  constructor
  · intro c hc hle
    obtain ⟨p, hp⟩ := List.mem_iff_getElem?.mp hc
    have hwindow : ∀ w, c ∈ ids w ↔ p / (m * pageSize) = w := fun w =>
      mem_slice_iff hlimit_pos hnd hp
    obtain ⟨r, hr⟩ := List.mem_iff_getElem?.mp ((hsub (p / (m * pageSize)) c).mpr ⟨(hwindow _).mpr rfl, hle⟩)
    have hslice : ∀ i, c ∈ ((validChunks backend threshold (ids (p / (m * pageSize)))).drop
        (i * pageSize)).take pageSize ↔ r / pageSize = i := fun i =>
      mem_slice_iff hsize (hvalid _) hr
    have hlt : r / pageSize < m := by
      have hlen := (hperm (p / (m * pageSize))).length_eq.le.trans (length_filter_le _ _)
      have hr' := (List.getElem?_eq_some_iff.mp hr).1
      refine Nat.div_lt_of_lt_mul ?_
      rw [mul_comm]
      exact (hr'.trans_le hlen).trans_le (length_take_le _ _)
    have hiff : ∀ page, 1 ≤ page → (c ∈ retrieval backend question page pageSize threshold ↔
        page - 1 = p / (m * pageSize) * m + r / pageSize) := by
      intro page hp
      rw [hpage page hp]
      constructor
      · intro hmem
        have hw := (hwindow _).mp
          ((hsub _ c).mp (mem_of_mem_drop (mem_of_mem_take hmem))).1
        rw [← hw] at hmem
        rw [hw, (hslice _).mp hmem, Nat.div_add_mod']
      · intro heq
        have hw : (page - 1) / m = p / (m * pageSize) := by
          rw [heq, mul_comm, Nat.mul_add_div hm, Nat.div_eq_of_lt hlt, add_zero]
        rw [hw, hslice, heq, mul_comm, Nat.mul_add_mod, Nat.mod_eq_of_lt hlt]
    refine ⟨p / (m * pageSize) * m + r / pageSize + 1,
      ⟨Nat.le_add_left _ _, (hiff _ (Nat.le_add_left _ _)).mpr rfl⟩, ?_⟩
    rintro page ⟨hp, hmem⟩
    have heq := (hiff page hp).mp hmem
    omega
  · intro page hp
    rw [hpage page hp]
    exact ((hvalid _).sublist (drop_sublist _ _)).sublist (take_sublist _ _)
  · intro page hp
    rw [hpage page hp]
    exact length_take_le _ _
  · intro page hp c hc
    rw [hpage page hp] at hc
    obtain ⟨hmem, hle⟩ := (hsub _ c).mp (mem_of_mem_drop (mem_of_mem_take hc))
    exact ⟨mem_of_mem_drop (mem_of_mem_take hmem), hle⟩

/-- Two chunks of different similarity, whatever is asked for. -/
def twoChunks : Backend ℕ ℤ where
  search _ offset limit := (([0, 1].drop offset).take limit, 2)
  argsort sim := List.range sim.length
  similarity c := c

theorem retrieval_partitions_two :
    Partitions [0, 1] (fun c => (1 : ℤ) ≤ twoChunks.similarity c) 1
      (fun page => retrieval twoChunks "q" page 1 1) :=
  have hbehaves : Behaves twoChunks fun _ => [0, 1] := ⟨fun _ _ _ => rfl, fun _ => .refl _⟩
  retrieval_partitions hbehaves (by decide) le_rfl (by decide) 1

/-- An empty question is answered with no chunks. -/
theorem empty_question_loses : ∃ ranked : MatchExpr → List ℕ, Behaves twoChunks ranked ∧
    (ranking ranked "").Nodup ∧ ¬ Partitions (ranking ranked "")
      (fun c => (1 : ℤ) ≤ twoChunks.similarity c) 1
      (fun page => retrieval twoChunks "" page 1 1) := by
  refine ⟨fun _ => [0, 1], ⟨fun _ _ _ => rfl, fun _ => .refl _⟩, by decide, fun h => ?_⟩
  obtain ⟨page, ⟨-, hmem⟩, -⟩ := h.once 1 (by decide) (by decide)
  cases hmem

end CustomAi.Ragflow.RetrievalPages
