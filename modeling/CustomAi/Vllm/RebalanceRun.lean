import CustomAi.Vllm.RebalanceTransfer

/-!
# The rows of one rank in a rebalancing

Which rows `move_to_buffer` fills locally, and what `move_from_buffer` copies back.
-/

namespace CustomAi.Vllm

open List

variable {W : Type} {n k d row : ℕ} {oldIndices newIndices : List ℤ}

lemma foldl_copyTensorRow (src : ℕ → ℕ) (w b : ExpertWeights W) (rows : List ℕ) (t row : ℕ) :
    rows.foldl (fun b dst => copyTensorRow k dst (src dst) w b) b t row =
      if row ∈ rows ∧ t < k then w t (src row) else b t row := by
  induction rows generalizing b with
  | nil => exact (if_neg fun h => not_mem_nil h.1).symm
  | cons dst rows ih =>
    rw [foldl_cons, ih]
    by_cases hmem : row ∈ rows ∧ t < k
    · rw [if_pos hmem, if_pos ⟨mem_cons_of_mem dst hmem.1, hmem.2⟩]
    · rw [if_neg hmem]
      unfold copyTensorRow
      by_cases hrow : row = dst ∧ t < k
      · rw [if_pos hrow, if_pos ⟨mem_cons.mpr (.inl hrow.1), hrow.2⟩, hrow.1]
      · rw [if_neg hrow, if_neg]
        rintro ⟨hcons, ht⟩
        rcases mem_cons.mp hcons with heq | hrest
        · exact hrow ⟨heq, ht⟩
        · exact hmem ⟨hrest, ht⟩

lemma foldl_copyTensorRow_self (src : ℕ → ℕ) (w : ExpertWeights W) {rows : List ℕ}
    (hsrc : ∀ r ∈ rows, src r ∉ rows) (t row : ℕ) :
    rows.foldl (fun w dst => copyTensorRow k dst (src dst) w w) w t row =
      if row ∈ rows ∧ t < k then w t (src row) else w t row := by
  induction rows generalizing w with
  | nil => exact (if_neg fun h => not_mem_nil h.1).symm
  | cons dst rows ih =>
    have hother : ∀ t r, r ≠ dst → copyTensorRow k dst (src dst) w w t r = w t r := fun t r hr =>
      if_neg fun h => hr h.1
    rw [foldl_cons, ih _ fun r hr hmem =>
      hsrc r (mem_cons_of_mem dst hr) (mem_cons_of_mem dst hmem)]
    by_cases hmem : row ∈ rows ∧ t < k
    · rw [if_pos hmem, if_pos ⟨mem_cons_of_mem dst hmem.1, hmem.2⟩]
      refine hother t _ fun heq => ?_
      exact hsrc row (mem_cons_of_mem dst hmem.1) (mem_cons.mpr (.inl heq))
    · rw [if_neg hmem]
      by_cases hrow : row = dst
      · rw [hrow]
        exact if_congr (by simp) rfl rfl
      · rw [hother t row hrow, if_neg]
        rintro ⟨hcons, ht⟩
        exact hmem ⟨(mem_cons.mp hcons).resolve_left hrow, ht⟩

lemma mem_localDests : row ∈ (range n).filter (fun row => !isUnchanged n d oldIndices newIndices row &&
      isReceivedLocally n d oldIndices newIndices row) ↔
    row < n ∧ isUnchanged n d oldIndices newIndices row = false ∧
      isReceivedLocally n d oldIndices newIndices row = true := by
  rw [mem_filter, mem_range, Bool.and_eq_true, Bool.not_eq_true']

lemma exists_localCopy (hchanged : isUnchanged n d oldIndices newIndices row = false)
    (hlocal : isReceivedLocally n d oldIndices newIndices row = true) :
    ∃ src < n, localExpert n d oldIndices src = localExpert n d newIndices row ∧
      (dictOf (sendRows n d oldIndices)).get? (localExpert n d newIndices row) = some src := by
  unfold isReceivedLocally at hlocal
  rw [hchanged, Bool.false_or, Bool.and_eq_true, bne_iff_ne, any_eq_true] at hlocal
  obtain ⟨hne, row', hrow', heq⟩ := hlocal
  obtain ⟨src, hsrc⟩ := exists_mem_sendRows hne (mem_range.mp hrow') (beq_iff_eq.mp heq)
  obtain ⟨-, hlt, hold⟩ := mem_sendRows hsrc
  exact ⟨src, hlt, hold, get?_sendRows hsrc⟩

variable (w b received : ExpertWeights W)

lemma localMoves_eq (hrow : row < n) (hchanged : isUnchanged n d oldIndices newIndices row = false)
    (hlocal : isReceivedLocally n d oldIndices newIndices row = true) :
    ∃ src < n, localExpert n d oldIndices src = localExpert n d newIndices row ∧
      ∀ t < k, localMoves n d oldIndices newIndices k w b t row = w t src := by
  obtain ⟨src, hsrc, hold, hget⟩ := exists_localCopy hchanged hlocal
  refine ⟨src, hsrc, hold, fun t ht => ?_⟩
  have hfold : localMoves n d oldIndices newIndices k w b =
      ((range n).filter fun row => !isUnchanged n d oldIndices newIndices row &&
        isReceivedLocally n d oldIndices newIndices row).foldl (fun b dst =>
          copyTensorRow k dst (sourceRow n d oldIndices (localExpert n d newIndices dst)) w b) b :=
    foldl_ext _ _ b fun b dst hdst => by
      obtain ⟨-, hchanged, hlocal⟩ := mem_localDests.mp hdst
      obtain ⟨src, -, -, hget⟩ := exists_localCopy hchanged hlocal
      unfold sourceRow
      rw [hget]
      rfl
  refine (congrFun (congrFun hfold t) row).trans ?_
  rw [foldl_copyTensorRow (fun dst => sourceRow n d oldIndices (localExpert n d newIndices dst)),
    if_pos ⟨mem_localDests.mpr ⟨hrow, hchanged, hlocal⟩, ht⟩]
  unfold sourceRow
  rw [hget]
  rfl

def primaryRow (n d : ℕ) (oldIndices newIndices : List ℤ) (expert : ℤ) : ℕ :=
  ((dictOf (recvRows n d oldIndices newIndices)).get? expert).getD 0

lemma primaryRow_eq {x : ℤ × ℕ} (hx : x ∈ recvRows n d oldIndices newIndices) :
    primaryRow n d oldIndices newIndices x.1 = x.2 := by
  unfold primaryRow
  rw [(get?_dictOf (pairwise_recvRows n d oldIndices newIndices)).1 x hx]
  rfl

def secondaryRows (n d : ℕ) (oldIndices newIndices : List ℤ) : List ℕ :=
  (List.range n).filter fun row => !isUnchanged n d oldIndices newIndices row &&
    !isReceivedLocally n d oldIndices newIndices row &&
    (!decide (row ∈ (recvRows n d oldIndices newIndices).map Prod.snd) &&
      localExpert n d newIndices row != -1)

lemma mem_secondaryRows : row ∈ secondaryRows n d oldIndices newIndices ↔
    row < n ∧ isUnchanged n d oldIndices newIndices row = false ∧
      isReceivedLocally n d oldIndices newIndices row = false ∧
      row ∉ (recvRows n d oldIndices newIndices).map Prod.snd ∧ localExpert n d newIndices row ≠ -1 := by
  unfold secondaryRows
  rw [mem_filter, mem_range, Bool.and_eq_true, Bool.and_eq_true, Bool.and_eq_true,
    Bool.not_eq_true', Bool.not_eq_true', Bool.not_eq_true', decide_eq_false_iff_not, bne_iff_ne, and_assoc]

lemma duplicateRows_eq (n d : ℕ) (oldIndices newIndices : List ℤ) :
    duplicateRows n d newIndices (moveToBufferResult n d oldIndices newIndices) =
      (secondaryRows n d oldIndices newIndices).map fun row =>
        (row, primaryRow n d oldIndices newIndices (localExpert n d newIndices row)) := by
  have hprim : ((((recvRows n d oldIndices newIndices).map Prod.fst).take
        (recvRows n d oldIndices newIndices).length).zip
      (((recvRows n d oldIndices newIndices).map Prod.snd).take
        (recvRows n d oldIndices newIndices).length)).mergeSort expertLe =
      recvRows n d oldIndices newIndices := by
    rw [take_of_length_le (length_map ..).le,
      take_of_length_le (length_map ..).le, zip_map', map_id'' fun _ => rfl]
    exact mergeSort_expertLe (pairwise_recvRows n d oldIndices newIndices)
  unfold duplicateRows moveToBufferResult
  dsimp only
  rw [hprim]
  refine (filterMap_congr fun row hrow => ?_).trans (congrFun filterMap_eq_map' _)
  obtain ⟨hlt, -, hlocal, -, hne⟩ := mem_secondaryRows.mp hrow
  obtain ⟨row', hrow'⟩ := exists_mem_recvRows hlt hne hlocal
  have hfound := npSearchsorted_getElem?
    (pairwise_map.mpr (pairwise_recvRows n d oldIndices newIndices))
    (mem_map_of_mem (f := Prod.fst) hrow')
  rw [getElem?_map] at hfound
  obtain ⟨x, hx, hxe⟩ := Option.map_eq_some_iff.mp hfound
  have hxrow := primaryRow_eq (mem_of_getElem? hx)
  rw [hx]
  dsimp only at hxe ⊢
  rw [if_pos hxe, ← hxrow, hxe]

lemma mem_copiedRows : row ∈ copiedRows n (moveToBufferResult n d oldIndices newIndices) ↔
      row < n ∧ isUnchanged n d oldIndices newIndices row = false ∧
        (isReceivedLocally n d oldIndices newIndices row = true ∨
          row ∈ (recvRows n d oldIndices newIndices).map Prod.snd) := by
  unfold copiedRows moveToBufferResult
  rw [mem_filter, mem_range, Bool.and_eq_true, Bool.not_eq_true', Bool.or_eq_true, decide_eq_true_eq]

lemma primaryRow_spec (hrow : row ∈ secondaryRows n d oldIndices newIndices) :
    ∃ x ∈ recvRows n d oldIndices newIndices, x.1 = localExpert n d newIndices row ∧
      primaryRow n d oldIndices newIndices (localExpert n d newIndices row) = x.2 ∧
      x.2 ∉ secondaryRows n d oldIndices newIndices ∧
      x.2 ∈ copiedRows n (moveToBufferResult n d oldIndices newIndices) := by
  obtain ⟨hlt, -, hlocal, -, hne⟩ := mem_secondaryRows.mp hrow
  obtain ⟨row', hrow'⟩ := exists_mem_recvRows hlt hne hlocal
  obtain ⟨-, hlt', -, hlocal'⟩ := mem_recvRows hrow'
  have hmem := mem_map_of_mem (f := Prod.snd) hrow'
  exact ⟨_, hrow', rfl, primaryRow_eq hrow', fun hsec => (mem_secondaryRows.mp hsec).2.2.2.1 hmem,
    mem_copiedRows.mpr ⟨hlt', (Bool.or_eq_false_iff.mp hlocal').1, .inr hmem⟩⟩

lemma moveFromBuffer_eq (w received : ExpertWeights W) (t row : ℕ) :
    let copied : ExpertWeights W := fun t row =>
      if row ∈ copiedRows n (moveToBufferResult n d oldIndices newIndices) ∧ t < k then
        received t row
      else w t row
    moveFromBuffer n d newIndices k w received (moveToBufferResult n d oldIndices newIndices)
        t row = if row ∈ secondaryRows n d oldIndices newIndices ∧ t < k then
        copied t (primaryRow n d oldIndices newIndices (localExpert n d newIndices row))
      else copied t row := by
  intro copied
  have hcopied : (copiedRows n (moveToBufferResult n d oldIndices newIndices)).foldl
      (fun w dst => copyTensorRow k dst dst received w) w = copied := by
    funext t row
    exact foldl_copyTensorRow id received w _ t row
  unfold moveFromBuffer
  rw [hcopied]
  split
  · next hcount =>
    rw [if_neg]
    rintro ⟨hsec, -⟩
    obtain ⟨x, hx, -⟩ := primaryRow_spec hsec
    exact ne_nil_of_mem hx (length_eq_zero_iff.mp hcount)
  · rw [duplicateRows_eq, foldl_map]
    refine foldl_copyTensorRow_self (fun row =>
      primaryRow n d oldIndices newIndices (localExpert n d newIndices row)) copied
      (fun r hr => ?_) t row
    obtain ⟨x, -, -, hprim, hnot, -⟩ := primaryRow_spec hr
    rw [hprim]
    exact hnot

lemma recvRows_rows_ne (n d : ℕ) (oldIndices newIndices : List ℤ) :
    (recvRows n d oldIndices newIndices).Pairwise fun x y => x.2 ≠ y.2 := by
  refine (pairwise_recvRows n d oldIndices newIndices).imp_of_mem fun {x y} hx hy hlt heq => ?_
  obtain ⟨-, -, hnewx, -⟩ := mem_recvRows hx
  obtain ⟨-, -, hnewy, -⟩ := mem_recvRows hy
  rw [heq, hnewy] at hnewx
  exact hlt.ne hnewx.symm

lemma unchanged_row (hsame : localExpert n d oldIndices row = localExpert n d newIndices row) :
    let result := moveToBufferResult n d oldIndices newIndices
    row ∉ copiedRows n result ∧ row ∉ (duplicateRows n d newIndices result).map Prod.fst ∧
      ∀ t, moveFromBuffer n d newIndices k w received result t row = w t row := by
  intro result
  have hunchanged : isUnchanged n d oldIndices newIndices row = true := beq_iff_eq.mpr hsame
  have hcopied : row ∉ copiedRows n result := fun hmem =>
    absurd (mem_copiedRows.mp hmem).2.1 (by rw [hunchanged]; exact Bool.noConfusion)
  have hsec : row ∉ secondaryRows n d oldIndices newIndices := fun hmem =>
    absurd (mem_secondaryRows.mp hmem).2.1 (by rw [hunchanged]; exact Bool.noConfusion)
  refine ⟨hcopied, ?_, fun t => ?_⟩
  · rw [duplicateRows_eq, map_map]
    exact (map_id' _).symm ▸ hsec
  · rw [moveFromBuffer_eq, if_neg fun hc => hsec hc.1]
    exact if_neg fun hc => hcopied hc.1

lemma copied_row {t : ℕ} (ht : t < k)
    (hmem : row ∈ copiedRows n (moveToBufferResult n d oldIndices newIndices)) :
    moveFromBuffer n d newIndices k w received (moveToBufferResult n d oldIndices newIndices)
      t row = received t row := by
  have hsec : row ∉ secondaryRows n d oldIndices newIndices := by
    intro hsec
    obtain ⟨-, -, hlocal, hprim, -⟩ := mem_secondaryRows.mp hsec
    rcases (mem_copiedRows.mp hmem).2.2 with h | h
    · exact absurd h (Bool.eq_false_iff.mp hlocal)
    · exact hprim h
  rw [moveFromBuffer_eq, if_neg fun hc => hsec hc.1]
  exact if_pos ⟨hmem, ht⟩

lemma secondary_row (hmem : row ∈ secondaryRows n d oldIndices newIndices) :
    ∃ x ∈ recvRows n d oldIndices newIndices, x.1 = localExpert n d newIndices row ∧ ∀ t < k,
      moveFromBuffer n d newIndices k w received (moveToBufferResult n d oldIndices newIndices)
        t row = received t x.2 := by
  obtain ⟨x, hx, hexpert, hprim, -, hcopied⟩ := primaryRow_spec hmem
  refine ⟨x, hx, hexpert, fun t ht => ?_⟩
  rw [moveFromBuffer_eq, if_pos ⟨hmem, ht⟩, hprim]
  exact if_pos ⟨hcopied, ht⟩

end CustomAi.Vllm

/-!
## A whole rebalancing

All ranks post their operations, receive, and copy the rows out of the buffers.
-/

namespace CustomAi.Vllm

open List

variable {W : Type} {n k s d row : ℕ} {group : EpGroup} {oldIndices newIndices : List ℤ}

def labels (n rank : ℕ) (indices : List ℤ) (ops : List (ℕ × ℕ)) : List (ℤ × ℕ) :=
  ops.map fun x => (localExpert n rank indices x.2, x.1)

/-- What the other ranks send to rank `d`, by their global ranks. -/
def inbox (group : EpGroup) (weights : ℕ → ExpertWeights W) (ops : ℕ → List P2POp) (d : ℕ) :
    ℕ → List W := fun peer =>
  match (List.range group.size).find? fun s => group.getGlobalRank s == peer with
  | none => []
  | some s => (sendsTo (group.getGlobalRank d) (ops s)).map fun x => weights s x.1 x.2

lemma receive_of_isends {ops ops' : List P2POp}
    (hops : ∀ op ∈ ops, ∃ t row peer, op = .isend t row peer) (pending : ℕ → List W)
    (buffers : ExpertWeights W) : receive (ops ++ ops') pending buffers = receive ops' pending buffers := by
  induction ops with
  | nil => rfl
  | cons op ops ih =>
    obtain ⟨t, row, peer, rfl⟩ := hops op mem_cons_self
    exact ih fun op' hop' => hops op' (mem_cons_of_mem _ hop')

lemma isends_of_recvsFrom {ops : List P2POp} (hops : ∀ peer, recvsFrom peer ops = []) :
    ∀ op ∈ ops, ∃ t row peer, op = .isend t row peer := by
  intro op hop
  cases op with
  | isend t row peer => exact ⟨t, row, peer, rfl⟩
  | irecv t row peer =>
    have hnone : (if peer = peer then some (t, row) else none) = none :=
      filterMap_eq_nil_iff.mp (hops peer) _ hop
    rw [if_pos rfl] at hnone
    cases hnone

def matchedLabels (n k s d : ℕ) (oldIndices newIndices : List ℤ) : List (ℤ × ℕ) :=
  (((recvRows n d oldIndices newIndices).filter fun x =>
    partner n oldIndices newIndices x.1 d = some s).map Prod.fst).flatMap fun e =>
      (List.range k).map fun t => (e, t)

lemma nodup_matchedLabels (n k s d : ℕ) (oldIndices newIndices : List ℤ) :
    (matchedLabels n k s d oldIndices newIndices).Nodup := by
  have hsorted : (((recvRows n d oldIndices newIndices).filter fun x =>
      partner n oldIndices newIndices x.1 d = some s).map Prod.fst).Pairwise (· < ·) :=
    pairwise_map.mpr ((pairwise_recvRows n d oldIndices newIndices).filter _)
  unfold matchedLabels
  rw [nodup_flatMap]
  constructor
  · intro e _
    exact nodup_range.map fun t t' heq => (Prod.mk.inj heq).2
  · refine hsorted.imp fun {e e'} hlt x hx hx' => ?_
    obtain ⟨t, -, rfl⟩ := mem_map.mp hx
    obtain ⟨t', -, heq⟩ := mem_map.mp hx'
    exact hlt.ne (Prod.mk.inj heq).1.symm

lemma labels_flatMap {l : List (ℤ × ℕ)} {indices : List ℤ} {rank : ℕ}
    (hl : ∀ x ∈ l, localExpert n rank indices x.2 = x.1) (c : ℤ × ℕ → Prop) [DecidablePred c]
    (k : ℕ) : labels n rank indices (l.flatMap fun x =>
      if c x then (range k).map fun t => (t, x.2) else []) =
    ((l.filter fun x => c x).map Prod.fst).flatMap fun e => (range k).map fun t => (e, t) := by
  rw [← flatMap_ite l c fun e => (range k).map fun t => (e, t)]
  unfold labels
  rw [map_flatMap]
  refine flatMap_congr fun x hx => ?_
  by_cases hc : c x
  · rw [if_pos hc, if_pos hc, map_map]
    refine map_congr_left fun t _ => ?_
    exact congrArg (fun e => (e, t)) (hl x hx)
  · rw [if_neg hc, if_neg hc]
    rfl

lemma sendsTo_recvOps (peer k d : ℕ) (l : List (ℤ × ℕ)) :
    sendsTo peer (l.flatMap (recvOps n k d oldIndices newIndices group)) = [] := by
  refine filterMap_eq_nil_iff.mpr fun op hop => ?_
  obtain ⟨x, -, hop⟩ := mem_flatMap.mp hop
  obtain ⟨t, -, rfl⟩ := mem_map.mp hop
  rfl

namespace Rebalancing

variable (h : Rebalancing n group oldIndices newIndices)
include h

lemma inbox_eq (weights : ℕ → ExpertWeights W) (ops : ℕ → List P2POp) (hs : s < group.size)
    (d : ℕ) : inbox group weights ops d (group.getGlobalRank s) =
      (sendsTo (group.getGlobalRank d) (ops s)).map fun x => weights s x.1 x.2 := by
  have hfind : (range group.size).find? (fun r =>
      group.getGlobalRank r == group.getGlobalRank s) = some s := by
    rw [find?_range_eq_some]
    refine ⟨beq_self_eq_true _, mem_range.mpr hs, fun r hr => ?_⟩
    have hne : group.getGlobalRank r ≠ group.getGlobalRank s := fun heq =>
      hr.ne (h.globalRank_inj r s (hr.trans hs) hs heq)
    rw [beq_eq_false_iff_ne.mpr hne]
    rfl
  unfold inbox
  rw [hfind]

lemma recvsFrom_recvOps (hs : s < group.size) (hd : d < group.size) (k : ℕ) :
    recvsFrom (group.getGlobalRank s) ((recvRows n d oldIndices newIndices).flatMap
        (recvOps n k d oldIndices newIndices group)) = (recvRows n d oldIndices newIndices).flatMap fun x =>
        if partner n oldIndices newIndices x.1 d = some s then (range k).map fun t => (t, x.2)
        else [] := by
  unfold recvsFrom
  rw [filterMap_flatMap]
  refine flatMap_congr fun x hx => ?_
  obtain ⟨src, hsrc, hpartner, -⟩ := h.exists_partner hd hx
  unfold recvOps
  rw [hpartner, filterMap_map]
  by_cases heq : src = s
  · rw [if_pos (heq ▸ rfl)]
    refine (filterMap_congr fun t _ => ?_).trans (congrFun filterMap_eq_map' _)
    exact if_pos (heq ▸ rfl)
  · rw [if_neg fun hc => heq (Option.some.inj hc)]
    refine filterMap_eq_nil_iff.mpr fun t _ => if_neg fun hglobal => ?_
    exact heq (h.globalRank_inj src s hsrc hs hglobal)

lemma sourceRow_spec {expert : ℤ} (hne : expert ≠ -1)
    (hpartner : partner n oldIndices newIndices expert d = some s) :
    s < group.size ∧ sourceRow n s oldIndices expert < n ∧
      localExpert n s oldIndices (sourceRow n s oldIndices expert) = expert := by
  obtain ⟨hs, row, hrow, hold⟩ := (mem_holders h.old_length hne).mp
    (mem_of_pairedSender hpartner).1
  obtain ⟨row', hrow'⟩ := exists_mem_sendRows hne hrow hold
  obtain ⟨-, hlt, hold'⟩ := mem_sendRows hrow'
  rw [sourceRow_eq hrow']
  exact ⟨hs, hlt, hold'⟩

/-- The operations of all ranks, and the weights that every rank ends with. -/
theorem moveExperts_spec (k : ℕ) (weights buffers : ℕ → ExpertWeights W) :
    ∃ (moved : ℕ → ExpertWeights W) (ops : ℕ → List P2POp),
      (∀ s < group.size, moveToBuffer n s oldIndices newIndices k (weights s) (buffers s) group =
        .ok (moved s, ops s, moveToBufferResult n s oldIndices newIndices)) ∧
      (∀ s < group.size, WithinGroup group (ops s)) ∧ (∀ s < group.size, ∀ d < group.size,
        labels n s oldIndices (sendsTo (group.getGlobalRank d) (ops s)) =
          labels n d newIndices (recvsFrom (group.getGlobalRank s) (ops d)) ∧
        (labels n s oldIndices (sendsTo (group.getGlobalRank d) (ops s))).Nodup) ∧
      ∀ d < group.size, ∃ pending received,
        receive (ops d) (inbox group weights ops d) (moved d) = some (pending, received) ∧
        (∀ s < group.size, pending (group.getGlobalRank s) = []) ∧
        let result := moveToBufferResult n d oldIndices newIndices
        let weights' := moveFromBuffer n d newIndices k (weights d) received result
        (∀ row < n, localExpert n d newIndices row ≠ -1 → ∃ s < group.size, ∃ src < n,
          localExpert n s oldIndices src = localExpert n d newIndices row ∧
            ∀ t < k, weights' t row = weights s t src) ∧
        ∀ row, localExpert n d oldIndices row = localExpert n d newIndices row →
          row ∉ copiedRows n result ∧ row ∉ (duplicateRows n d newIndices result).map Prod.fst ∧
            ∀ t, weights' t row = weights d t row := by
  choose! sends hmove hwithin hnorecv hsends using fun s (hs : s < group.size) =>
    h.moveToBuffer_eq hs k (weights s) (buffers s)
  have hlabels : ∀ s < group.size, ∀ d < group.size,
      labels n s oldIndices (sendsTo (group.getGlobalRank d) (sends s ++
        (recvRows n s oldIndices newIndices).flatMap
          (recvOps n k s oldIndices newIndices group))) = matchedLabels n k s d oldIndices newIndices := by
    intro s hs d hd
    rw [sendsTo_append, sendsTo_recvOps, append_nil, hsends s hs d hd,
      labels_flatMap fun x hx => (mem_sendRows hx).2.2, h.experts_eq]
    rfl
  refine ⟨fun s => localMoves n s oldIndices newIndices k (weights s) (buffers s), fun s =>
    sends s ++ (recvRows n s oldIndices newIndices).flatMap
      (recvOps n k s oldIndices newIndices group), hmove, ?_, ?_, ?_⟩
  · intro s hs op hop
    rcases mem_append.mp hop with hop | hop
    · exact hwithin s hs op hop
    · obtain ⟨x, hx, hop⟩ := mem_flatMap.mp hop
      obtain ⟨t, -, rfl⟩ := mem_map.mp hop
      obtain ⟨src, hsrc, hpartner, -⟩ := h.exists_partner hs hx
      exact ⟨src, hsrc, congrArg group.getGlobalRank (by rw [hpartner]; rfl)⟩
  · intro s hs d hd
    rw [hlabels s hs d hd]
    refine ⟨?_, nodup_matchedLabels ..⟩
    rw [recvsFrom_append, hnorecv d hd, nil_append, h.recvsFrom_recvOps hs hd,
      labels_flatMap fun x hx => (mem_recvRows hx).2.2.1]
    rfl
  · intro d hd
    have hpending : ∀ s < group.size, inbox group weights (fun s => sends s ++
        (recvRows n s oldIndices newIndices).flatMap
          (recvOps n k s oldIndices newIndices group)) d (group.getGlobalRank s) =
        (recvRows n d oldIndices newIndices).flatMap fun x =>
          if partner n oldIndices newIndices x.1 d = some s then
            (range k).map fun t => weights s t (sourceRow n s oldIndices x.1)
          else [] := by
      intro s hs
      rw [h.inbox_eq weights _ hs, sendsTo_append, sendsTo_recvOps, append_nil, hsends s hs d hd, h.sent_eq]
    obtain ⟨pending, received, hok, hempty, hfilled, hother⟩ := h.receive_eq hd k weights
      (fun x hx => hx) (recvRows_rows_ne n d oldIndices newIndices) hpending
      (localMoves n d oldIndices newIndices k (weights d) (buffers d))
    refine ⟨pending, received, ?_, hempty, ?_, ?_⟩
    · rw [receive_of_isends (isends_of_recvsFrom (hnorecv d hd)), hok]
    · intro row hrow hne
      have hreceived : ∀ x ∈ recvRows n d oldIndices newIndices,
          x.1 = localExpert n d newIndices row → ∃ s < group.size, ∃ src < n,
            localExpert n s oldIndices src = localExpert n d newIndices row ∧
              ∀ t < k, received t x.2 = weights s t src := by
        intro x hx hexpert
        obtain ⟨s, -, hpartner, heq⟩ := hfilled x hx
        obtain ⟨hs, hsrc, hold⟩ := h.sourceRow_spec (hexpert ▸ hne) hpartner
        exact ⟨s, hs, _, hsrc, hold.trans hexpert, heq⟩
      by_cases hsame : localExpert n d oldIndices row = localExpert n d newIndices row
      · exact ⟨d, hd, row, hrow, hsame, fun t _ => (unchanged_row (weights d) received hsame).2.2 t⟩
      have hchanged : isUnchanged n d oldIndices newIndices row = false := beq_eq_false_iff_ne.mpr hsame
      cases hlocal : isReceivedLocally n d oldIndices newIndices row with
      | true =>
        obtain ⟨src, hsrc, hold, hmoved⟩ := localMoves_eq (k := k) (weights d) (buffers d) hrow
          hchanged hlocal
        refine ⟨d, hd, src, hsrc, hold, fun t ht => ?_⟩
        have hnot : ∀ x ∈ recvRows n d oldIndices newIndices, x.2 ≠ row := by
          rintro x hx rfl
          exact absurd hlocal (Bool.eq_false_iff.mp (mem_recvRows hx).2.2.2)
        rw [copied_row (weights d) received ht
          (mem_copiedRows.mpr ⟨hrow, hchanged, .inl hlocal⟩), hother row hnot, hmoved t ht]
      | false =>
        by_cases hprim : row ∈ (recvRows n d oldIndices newIndices).map Prod.snd
        · obtain ⟨x, hx, rfl⟩ := mem_map.mp hprim
          obtain ⟨s, hs, src, hsrc, hold, heq⟩ := hreceived x hx (mem_recvRows hx).2.2.1.symm
          refine ⟨s, hs, src, hsrc, hold, fun t ht => ?_⟩
          rw [copied_row (weights d) received ht
            (mem_copiedRows.mpr ⟨hrow, hchanged, .inr hprim⟩), heq t ht]
        · obtain ⟨x, hx, hexpert, hsec⟩ := secondary_row (k := k) (weights d) received
            (mem_secondaryRows.mpr ⟨hrow, hchanged, hlocal, hprim, hne⟩)
          obtain ⟨s, hs, src, hsrc, hold, heq⟩ := hreceived x hx hexpert
          exact ⟨s, hs, src, hsrc, hold, fun t ht => (hsec t ht).trans (heq t ht)⟩
    · intro row hsame
      exact unchanged_row (weights d) received hsame

end Rebalancing

/-- Two ranks of two rows: expert 2 moves to both rows of the first, expert 1 to the second. -/
theorem Rebalancing.moveExperts_spec_small :
    ∃ (moved : ℕ → ExpertWeights ℤ) (ops : ℕ → List P2POp), ∀ d < 2, ∃ pending received,
      receive (ops d) (inbox ⟨2, id⟩ (fun s t row => (100 * s + 10 * t + row : ℤ)) ops d) (moved d) =
        some (pending, received) ∧ ∀ row < 2, localExpert 2 d [2, 2, 1, -1] row ≠ -1 → ∃ s < 2, ∃ src < 2,
        localExpert 2 s [0, 1, 2, 0] src = localExpert 2 d [2, 2, 1, -1] row ∧
          ∀ t < 3, moveFromBuffer 2 d [2, 2, 1, -1] 3 (fun t row => (100 * d + 10 * t + row : ℤ))
            received (moveToBufferResult 2 d [0, 1, 2, 0] [2, 2, 1, -1]) t row = 100 * s + 10 * t + src := by
  have h : Rebalancing 2 ⟨2, id⟩ [0, 1, 2, 0] [2, 2, 1, -1] := ⟨rfl, rfl, by decide, fun _ _ _ _ heq => heq⟩
  obtain ⟨moved, ops, -, -, -, hall⟩ := h.moveExperts_spec 3
    (fun s t row => (100 * s + 10 * t + row : ℤ)) fun _ _ _ => 0
  refine ⟨moved, ops, fun d hd => ?_⟩
  obtain ⟨pending, received, hok, -, hrows, -⟩ := hall d hd
  exact ⟨pending, received, hok, hrows⟩

end CustomAi.Vllm
