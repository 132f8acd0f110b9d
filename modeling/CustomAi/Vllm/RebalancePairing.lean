import CustomAi.Vllm.RebalanceExecute

/-!
# Who sends what to whom

Sender and receiver find their partner in the same two lists of ranks.
-/

namespace CustomAi.Vllm

open List

def holders (n : ℕ) (indices : List ℤ) (expert : ℤ) : List ℕ :=
  uniqueInOrder ((indices.zipIdx.filter fun x => x.1 = expert).map fun x => x.2 / n)

def receivers (n : ℕ) (oldIndices newIndices : List ℤ) (expert : ℤ) : List ℕ :=
  (holders n newIndices expert).filter fun r => r ∉ holders n oldIndices expert

variable {n size rank row : ℕ} {indices oldIndices newIndices uniqueExperts expertIds : List ℤ}
  {expert : ℤ}

lemma pairwise_zipIdx (l : List ℤ) : l.zipIdx.Pairwise fun x y => x.2 ≤ y.2 := by
  have hrange : (l.zipIdx.map Prod.snd).Pairwise (· < ·) := by
    rw [zipIdx_map_snd]
    exact pairwise_lt_range'
  exact (pairwise_map.mp hrange).imp fun {x y} h => h.le

lemma expertRanks_spec (uniqueExperts : List ℤ) (n : ℕ) (indices : List ℤ) :
    ((expertRanks uniqueExperts n indices).Pairwise fun x y => x.1 < y.1) ∧
      ∀ x, x ∈ expertRanks uniqueExperts n indices ↔
        x.1 ∈ uniqueExperts ∧ x.1 ∈ indices ∧ x.2 = holders n indices x.1 := by
  set relevant := indices.zipIdx.filter fun x => x.1 ∈ uniqueExperts
  set sorted := (relevant.mergeSort lexLe).map fun x => (x.1, x.2 / n)
  have hkeys : sorted.Pairwise fun x y => x.1 ≤ y.1 := by
    rw [pairwise_map]
    refine (pairwise_lexsort relevant).imp fun {x y} h => ?_
    unfold lexLe at h
    rw [decide_eq_true_iff] at h
    omega
  obtain ⟨hpairwise, hmem⟩ := runs_spec hkeys
  have hrows : ∀ e ∈ uniqueExperts, (sorted.filter fun x => x.1 = e).map Prod.snd =
      (indices.zipIdx.filter fun x => x.1 = e).map fun x => x.2 / n := by
    intro e he
    have hfilter : relevant.filter (fun x => x.1 = e) = indices.zipIdx.filter fun x => x.1 = e := by
      rw [filter_filter]
      refine filter_congr fun x _ => ?_
      by_cases hx : x.1 = e
      · rw [decide_eq_true hx, Bool.true_and, hx, decide_eq_true he]
      · rw [decide_eq_false hx, Bool.false_and]
    rw [filter_map, map_map]
    have hsame : (relevant.mergeSort lexLe).filter
        ((fun x : ℤ × ℕ => decide (x.1 = e)) ∘ fun x => (x.1, x.2 / n)) =
        (relevant.mergeSort lexLe).filter fun x => x.1 = e := rfl
    rw [hsame, filter_lexsort ((pairwise_zipIdx indices).filter _), hfilter]
    rfl
  have hin : ∀ e, e ∈ sorted.map Prod.fst ↔ e ∈ uniqueExperts ∧ e ∈ indices := by
    intro e
    rw [map_map, mem_map]
    constructor
    · rintro ⟨x, hx, rfl⟩
      rw [mem_mergeSort, mem_filter, decide_eq_true_iff] at hx
      have hin := fst_mem_of_mem_zipIdx hx.1
      exact ⟨hx.2, hin⟩
    · rintro ⟨he, hi⟩
      obtain ⟨p, hp⟩ := getElem?_of_mem hi
      refine ⟨(e, p), ?_, rfl⟩
      rw [mem_mergeSort, mem_filter, decide_eq_true_iff]
      exact ⟨mk_mem_zipIdx_iff_getElem?.mpr hp, he⟩
  unfold expertRanks
  rw [pairwise_map]
  refine ⟨hpairwise, fun x => ?_⟩
  rw [mem_map]
  constructor
  · rintro ⟨y, hy, rfl⟩
    obtain ⟨hkey, hval⟩ := (hmem y).mp hy
    obtain ⟨he, hi⟩ := (hin _).mp hkey
    refine ⟨he, hi, ?_⟩
    rw [hval, hrows _ he]
    rfl
  · rintro ⟨he, hi, hval⟩
    refine ⟨(x.1, (sorted.filter fun y => y.1 = x.1).map Prod.snd),
      (hmem _).mpr ⟨(hin _).mpr ⟨he, hi⟩, rfl⟩, Prod.ext rfl ?_⟩
    rw [hrows _ he, hval]
    rfl

lemma holders_of_not_mem (h : expert ∉ indices) : holders n indices expert = [] := by
  have hfilter : (indices.zipIdx.filter fun x => x.1 = expert) = [] := by
    refine filter_eq_nil_iff.mpr fun x hx hkey => h ?_
    rw [← of_decide_eq_true hkey]
    exact fst_mem_of_mem_zipIdx hx
  unfold holders
  rw [hfilter]
  rfl

lemma get?_addMissing (d : Dict ℤ (List ℕ)) (h : expert ∈ uniqueExperts) :
    (addMissing uniqueExperts d).get? expert = some ((d.get? expert).getD []) := by
  have hkeep : ∀ (l : List ℤ) (d : Dict ℤ (List ℕ)) ranks, d.get? expert = some ranks →
      (addMissing l d).get? expert = some ranks := by
    intro l
    induction l with
    | nil => exact fun d ranks hd => hd
    | cons e l ih =>
      intro d ranks hd
      refine ih _ ranks ?_
      change (if d.contains e then d else d.set e []).get? expert = some ranks
      split
      · exact hd
      · next hnot =>
        have hne : expert ≠ e := by
          rintro rfl
          unfold Dict.contains at hnot
          rw [hd] at hnot
          exact hnot rfl
        rw [Dict.get?_set_of_ne _ _ hne]
        exact hd
  induction uniqueExperts generalizing d with
  | nil => exact absurd h not_mem_nil
  | cons e l ih =>
    have hstep : addMissing (e :: l) d = addMissing l (if d.contains e then d else d.set e []) := rfl
    rw [hstep]
    by_cases he : expert = e
    · refine hkeep l _ _ ?_
      rw [he]
      unfold Dict.contains
      cases hd : d.get? e with
      | none =>
        have hnot : ¬(none : Option (List ℕ)).isSome = true := Bool.false_ne_true
        rw [if_neg hnot, Dict.get?_set_self]
        rfl
      | some ranks =>
        have hsome : (some ranks).isSome = true := rfl
        rw [if_pos hsome, hd]
        rfl
    · rw [ih _ ((mem_cons.mp h).resolve_left he)]
      split
      · rfl
      · rw [Dict.get?_set_of_ne _ _ he]

lemma getEpRanks_spec (h : expert ∈ expertIds) (n : ℕ) (oldIndices newIndices : List ℤ) :
    let maps := getEpRanksWithExpertsBatch expertIds n oldIndices newIndices
    maps.1.get? expert = some (holders n oldIndices expert) ∧
      maps.2.get? expert = some (receivers n oldIndices newIndices expert) := by
  have hne : expertIds ≠ [] := ne_nil_of_mem h
  have hunique : expert ∈ (npUnique expertIds).map Prod.fst :=
    mem_map.mpr ⟨(expert, expertIds.idxOf expert), mem_npUnique.mpr ⟨h, rfl⟩, rfl⟩
  obtain ⟨hold, holdMem⟩ := expertRanks_spec ((npUnique expertIds).map Prod.fst) n oldIndices
  obtain ⟨hnew, hnewMem⟩ := expertRanks_spec ((npUnique expertIds).map Prod.fst) n newIndices
  have hsend : ((dictOf (expertRanks ((npUnique expertIds).map Prod.fst) n oldIndices)).get?
      expert).getD [] = holders n oldIndices expert := by
    by_cases hin : expert ∈ oldIndices
    · rw [(get?_dictOf hold).1 (expert, holders n oldIndices expert) ((holdMem _).mpr ⟨hunique, hin, rfl⟩)]
      rfl
    · rw [(get?_dictOf hold).2 expert fun hkey => ?_, holders_of_not_mem hin]
      · rfl
      · obtain ⟨x, hx, rfl⟩ := mem_map.mp hkey
        exact hin ((holdMem x).mp hx).2.1
  unfold getEpRanksWithExpertsBatch
  rw [if_neg hne]
  dsimp only
  rw [get?_addMissing _ hunique, get?_addMissing _ hunique, hsend]
  refine ⟨rfl, congrArg some ?_⟩
  set groups := (expertRanks ((npUnique expertIds).map Prod.fst) n newIndices).map fun x =>
    (x.1, x.2.filter fun r => r ∉ ((dictOf (expertRanks ((npUnique expertIds).map Prod.fst) n
      oldIndices)).get? x.1).getD [])
  have hpairwise : groups.Pairwise fun x y => x.1 < y.1 := by
    rw [pairwise_map]
    exact hnew
  by_cases hin : expert ∈ newIndices
  · have hmem : (expert, receivers n oldIndices newIndices expert) ∈ groups := by
      refine mem_map.mpr ⟨(expert, holders n newIndices expert), (hnewMem _).mpr ⟨hunique, hin, rfl⟩, ?_⟩
      rw [hsend]
      rfl
    rw [(get?_dictOf hpairwise).1 _ hmem]
    rfl
  · rw [(get?_dictOf hpairwise).2 expert fun hkey => ?_]
    · unfold receivers
      rw [holders_of_not_mem hin]
      rfl
    · rw [map_map] at hkey
      obtain ⟨x, hx, rfl⟩ := mem_map.mp hkey
      exact hin ((hnewMem x).mp hx).2.1

lemma localExpert_eq_some (hne : expert ≠ -1) :
    localExpert n rank indices row = expert ↔ indices[rank * n + row]? = some expert := by
  unfold localExpert
  cases indices[rank * n + row]? with
  | none =>
    exact iff_of_false hne.symm (by simp)
  | some e => rw [Option.getD_some, Option.some.injEq]

lemma mem_holders (hlen : indices.length = size * n) (hne : expert ≠ -1) : rank ∈ holders n indices expert ↔
      rank < size ∧ ∃ row < n, localExpert n rank indices row = expert := by
  unfold holders
  rw [mem_uniqueInOrder, mem_map]
  constructor
  · rintro ⟨x, hx, rfl⟩
    obtain ⟨hzip, hkey⟩ := mem_filter.mp hx
    have hget := mk_mem_zipIdx_iff_getElem?.mp hzip
    have hlt : x.2 < size * n := hlen ▸ (List.getElem?_eq_some_iff.mp hget).1
    have hpos : 0 < n := by
      by_contra hzero
      rw [Nat.le_zero.mp (not_lt.mp hzero)] at hlt
      omega
    refine ⟨(Nat.div_lt_iff_lt_mul hpos).mpr hlt, x.2 % n, Nat.mod_lt _ hpos, ?_⟩
    rw [localExpert_eq_some hne, Nat.div_add_mod', hget, of_decide_eq_true hkey]
  · rintro ⟨-, row, hrow, hlocal⟩
    rw [localExpert_eq_some hne] at hlocal
    refine ⟨(expert, rank * n + row), mem_filter.mpr
      ⟨mk_mem_zipIdx_iff_getElem?.mpr hlocal, decide_eq_true rfl⟩, ?_⟩
    rw [Nat.mul_comm, Nat.mul_add_div (by omega), Nat.div_eq_of_lt hrow, Nat.add_zero]

lemma nodup_holders (n : ℕ) (indices : List ℤ) (expert : ℤ) : (holders n indices expert).Nodup :=
  nodup_uniqueInOrder _

lemma mem_receivers : rank ∈ receivers n oldIndices newIndices expert ↔
    rank ∈ holders n newIndices expert ∧ rank ∉ holders n oldIndices expert := by
  unfold receivers
  rw [mem_filter, decide_eq_true_iff]

def pairedSender (ranksToSend ranksToRecv : List ℕ) (dst : ℕ) : Option ℕ :=
  let numDstPerSender := ranksToRecv.length / ranksToSend.length
  (ranksToRecv.idxOf? dst).bind fun recverPos =>
    if recverPos < ranksToSend.length * numDstPerSender then
      ranksToSend[recverPos / numDstPerSender]?
    else ranksToSend[recverPos - ranksToSend.length * numDstPerSender]?

variable {ranksToSend ranksToRecv : List ℕ} {src dst : ℕ}

lemma getElem?_eq_some_iff_of_nodup (hnd : ranksToSend.Nodup) {i p : ℕ}
    (hp : ranksToSend[p]? = some src) : ranksToSend[i]? = some src ↔ i = p := by
  constructor
  · intro hi
    obtain ⟨hilt, hi⟩ := List.getElem?_eq_some_iff.mp hi
    obtain ⟨hplt, hp⟩ := List.getElem?_eq_some_iff.mp hp
    exact hnd.getElem_inj_iff.mp (hi.trans hp.symm)
  · rintro rfl
    exact hp

lemma exists_idxOf? (hmem : dst ∈ ranksToRecv) :
    ∃ q, ranksToRecv.idxOf? dst = some q ∧ ranksToRecv[q]? = some dst := by
  obtain ⟨q, hq⟩ := Option.isSome_iff_exists.mp (isSome_idxOf?.mpr hmem)
  obtain ⟨hlt, hget, -⟩ := List.idxOf?_eq_some_iff.mp hq
  exact ⟨q, hq, List.getElem?_eq_some_iff.mpr ⟨hlt, hget⟩⟩

lemma pairedSender_of_get (hnd : ranksToRecv.Nodup) {q : ℕ} (hq : ranksToRecv[q]? = some dst) :
    pairedSender ranksToSend ranksToRecv dst =
      if q < ranksToSend.length * (ranksToRecv.length / ranksToSend.length) then
        ranksToSend[q / (ranksToRecv.length / ranksToSend.length)]?
      else ranksToSend[q - ranksToSend.length * (ranksToRecv.length / ranksToSend.length)]? := by
  obtain ⟨q', hidx, hget⟩ := exists_idxOf? (mem_of_getElem? hq)
  obtain rfl := (getElem?_eq_some_iff_of_nodup hnd hget).mp hq
  unfold pairedSender
  rw [hidx]
  rfl

lemma exists_pairedSender (hne : ranksToSend ≠ []) (hnd : ranksToRecv.Nodup) (hdst : dst ∈ ranksToRecv) :
    ∃ src ∈ ranksToSend, pairedSender ranksToSend ranksToRecv dst = some src ∧
      sendRankOf ranksToSend ranksToRecv dst = .ok src := by
  have hpos : 0 < ranksToSend.length := length_pos_of_ne_nil hne
  obtain ⟨q, hidx, hget⟩ := exists_idxOf? hdst
  have hqlt := (List.getElem?_eq_some_iff.mp hget).1
  have hdiv := Nat.div_add_mod ranksToRecv.length ranksToSend.length
  have hmod := Nat.mod_lt ranksToRecv.length hpos
  have hpaired : pairedSender ranksToSend ranksToRecv dst = _ := pairedSender_of_get hnd hget
  unfold sendRankOf
  rw [hpaired, hidx]
  dsimp only
  set m := ranksToRecv.length / ranksToSend.length
  have hsome : ∃ src, (if q < ranksToSend.length * m then ranksToSend[q / m]?
      else ranksToSend[q - ranksToSend.length * m]?) = some src := by
    split
    · next hlt =>
      have hindex : q / m < ranksToSend.length := Nat.div_lt_of_lt_mul (by rwa [Nat.mul_comm])
      exact ⟨_, List.getElem?_eq_getElem hindex⟩
    · next hnot =>
      have hindex : q - ranksToSend.length * m < ranksToSend.length := by omega
      exact ⟨_, List.getElem?_eq_getElem hindex⟩
  obtain ⟨src, hsrc⟩ := hsome
  rw [hsrc]
  refine ⟨src, ?_, rfl, rfl⟩
  split at hsrc
  · exact mem_of_getElem? hsrc
  · exact mem_of_getElem? hsrc

lemma mem_take_drop {l : List ℕ} {a m x : ℕ} : x ∈ (l.drop a).take m ↔ ∃ q, l[q]? = some x ∧ a ≤ q ∧ q < a + m := by
  rw [mem_iff_getElem?]
  constructor
  · rintro ⟨i, hi⟩
    rw [getElem?_take] at hi
    split at hi
    · next him =>
      rw [getElem?_drop] at hi
      exact ⟨a + i, hi, by omega, by omega⟩
    · cases hi
  · rintro ⟨q, hq, haq, hqm⟩
    refine ⟨q - a, ?_⟩
    rw [getElem?_take_of_lt (by omega), getElem?_drop, Nat.add_sub_cancel' haq]
    exact hq

lemma recvRanksOf_spec (hsend : ranksToSend.Nodup) (hrecv : ranksToRecv.Nodup) (hsrc : src ∈ ranksToSend) :
    ∃ dsts, recvRanksOf ranksToSend ranksToRecv src = .ok dsts ∧ dsts.Nodup ∧
      ∀ d, d ∈ dsts ↔ pairedSender ranksToSend ranksToRecv d = some src := by
  obtain ⟨p, hidx, hp⟩ := exists_idxOf? hsrc
  have hplt := (List.getElem?_eq_some_iff.mp hp).1
  have hpos : 0 < ranksToSend.length := by omega
  set m := ranksToRecv.length / ranksToSend.length with hm
  have hblock : p * m + m ≤ ranksToSend.length * m := by
    rw [← Nat.succ_mul]
    exact Nat.mul_le_mul_right m hplt
  have hok : recvRanksOf ranksToSend ranksToRecv src = .ok ((ranksToRecv.drop (p * m)).take m ++
        (ranksToRecv[ranksToSend.length * m + p]?).toList) := by
    unfold recvRanksOf
    rw [hidx]
    dsimp only
    cases ranksToRecv[ranksToSend.length * m + p]? with
    | none => rw [Option.toList_none, append_nil]
    | some d => rfl
  refine ⟨_, hok, ?_, fun d => ?_⟩
  · rw [List.nodup_append]
    refine ⟨hrecv.sublist ((take_sublist _ _).trans (drop_sublist _ _)), ?_, ?_⟩
    · cases ranksToRecv[ranksToSend.length * m + p]? with
      | none => exact nodup_nil
      | some d => exact nodup_singleton d
    · rintro a ha b hb rfl
      obtain ⟨q, hq, hlo, hhi⟩ := mem_take_drop.mp ha
      have hsame := (getElem?_eq_some_iff_of_nodup hrecv (Option.mem_toList.mp hb)).mp hq
      omega
  · rw [mem_append, mem_take_drop, Option.mem_toList]
    constructor
    · rintro (⟨q, hq, hlo, hhi⟩ | hlast)
      · have hlt : q < ranksToSend.length * m := by omega
        have hindex : q / m = p := Nat.div_eq_of_lt_le hlo (by rwa [Nat.succ_mul])
        rw [pairedSender_of_get hrecv hq, if_pos hlt, hindex]
        exact hp
      · have hnot : ¬ranksToSend.length * m + p < ranksToSend.length * m := by omega
        rw [pairedSender_of_get hrecv hlast, if_neg hnot, Nat.add_sub_cancel_left]
        exact hp
    · intro hpaired
      have hd : d ∈ ranksToRecv := by
        obtain ⟨q, hq, -⟩ := Option.bind_eq_some_iff.mp hpaired
        exact isSome_idxOf?.mp (Option.isSome_iff_exists.mpr ⟨q, hq⟩)
      obtain ⟨q, -, hq⟩ := exists_idxOf? hd
      rw [pairedSender_of_get hrecv hq, ← hm] at hpaired
      split at hpaired
      · next hlt =>
        have hindex := (getElem?_eq_some_iff_of_nodup hsend hp).mp hpaired
        have hmpos : 0 < m := by
          by_contra hzero
          rw [Nat.le_zero.mp (not_lt.mp hzero)] at hlt
          exact Nat.not_lt_zero q hlt
        refine .inl ⟨q, hq, ?_, ?_⟩
        · rw [← hindex]
          exact Nat.div_mul_le_self q m
        · rw [← hindex]
          exact Nat.lt_div_mul_add hmpos
      · next hnot =>
        have hindex := (getElem?_eq_some_iff_of_nodup hsend hp).mp hpaired
        have hqeq : q = ranksToSend.length * m + p := by omega
        exact .inr (hqeq ▸ hq)

end CustomAi.Vllm
