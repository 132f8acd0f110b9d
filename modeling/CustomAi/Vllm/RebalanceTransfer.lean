import CustomAi.Vllm.RebalancePairing

/-!
# The messages of a rebalancing

The operations every rank posts, and that those of any two ranks match in the order posted.
-/

namespace CustomAi.Vllm

open List Function

/-- What `move_to_buffer` is called with on all ranks. -/
structure Rebalancing (n : ℕ) (group : EpGroup) (oldIndices newIndices : List ℤ) : Prop where
  old_length : oldIndices.length = group.size * n
  new_length : newIndices.length = group.size * n
  covered : ∀ expert ∈ newIndices, expert ≠ -1 → expert ∈ oldIndices
  globalRank_inj : ∀ r r', r < group.size → r' < group.size →
    group.getGlobalRank r = group.getGlobalRank r' → r = r'

variable {n k epRank row s d : ℕ} {group : EpGroup} {oldIndices newIndices : List ℤ} {expert : ℤ}
  {x : ℤ × ℕ}

lemma mem_sendRows (h : x ∈ sendRows n epRank oldIndices) :
    x.1 ≠ -1 ∧ x.2 < n ∧ localExpert n epRank oldIndices x.2 = x.1 := by
  obtain ⟨hrow, hne⟩ := mem_filter.mp (mem_of_mem_firstRows h)
  obtain ⟨row, hlt, rfl⟩ := mem_map.mp hrow
  exact ⟨of_decide_eq_true hne, mem_range.mp hlt, rfl⟩

lemma exists_mem_sendRows (hne : expert ≠ -1) (hrow : row < n) (h : localExpert n epRank oldIndices row = expert) :
    ∃ row', (expert, row') ∈ sendRows n epRank oldIndices := by
  refine exists_mem_firstRows (mem_map.mpr ⟨(expert, row), ?_, rfl⟩)
  refine mem_filter.mpr ⟨mem_map.mpr ⟨row, mem_range.mpr hrow, ?_⟩, decide_eq_true hne⟩
  rw [h]

lemma isReceivedLocally_eq_false (hrow : row < n) (hne : localExpert n epRank newIndices row ≠ -1) :
    isReceivedLocally n epRank oldIndices newIndices row = false ↔
      ∀ row' < n, localExpert n epRank oldIndices row' ≠ localExpert n epRank newIndices row := by
  unfold isReceivedLocally isUnchanged
  rw [Bool.or_eq_false_iff, bne_iff_ne.mpr hne, Bool.true_and, any_eq_false, beq_eq_false_iff_ne]
  constructor
  · rintro ⟨-, h⟩ row' hrow' heq
    exact h row' (mem_range.mpr hrow') (beq_iff_eq.mpr heq)
  · intro h
    refine ⟨h row hrow, fun row' hrow' heq => ?_⟩
    exact h row' (mem_range.mp hrow') (beq_iff_eq.mp heq)

lemma mem_recvRows (h : x ∈ recvRows n epRank oldIndices newIndices) :
    x.1 ≠ -1 ∧ x.2 < n ∧ localExpert n epRank newIndices x.2 = x.1 ∧
      isReceivedLocally n epRank oldIndices newIndices x.2 = false := by
  obtain ⟨hrow, hneed⟩ := mem_filter.mp (mem_of_mem_firstRows h)
  obtain ⟨row, hlt, rfl⟩ := mem_map.mp hrow
  rw [Bool.and_eq_true, Bool.not_eq_true', bne_iff_ne] at hneed
  exact ⟨hneed.2, mem_range.mp hlt, rfl, hneed.1⟩

lemma exists_mem_recvRows (hrow : row < n) (hne : localExpert n epRank newIndices row ≠ -1)
    (h : isReceivedLocally n epRank oldIndices newIndices row = false) :
    ∃ row', (localExpert n epRank newIndices row, row') ∈ recvRows n epRank oldIndices newIndices := by
  refine exists_mem_firstRows (mem_map.mpr ⟨(localExpert n epRank newIndices row, row), ?_, rfl⟩)
  refine mem_filter.mpr ⟨mem_map.mpr ⟨row, mem_range.mpr hrow, rfl⟩, ?_⟩
  rw [h]
  exact bne_iff_ne.mpr hne

lemma pairwise_recvRows (n epRank : ℕ) (oldIndices newIndices : List ℤ) :
    (recvRows n epRank oldIndices newIndices).Pairwise fun x y => x.1 < y.1 :=
  pairwise_firstRows _

lemma pairwise_sendRows (n epRank : ℕ) (oldIndices : List ℤ) :
    (sendRows n epRank oldIndices).Pairwise fun x y => x.1 < y.1 :=
  pairwise_firstRows _

lemma mergeSort_expertLe {l : List (ℤ × ℕ)} (h : l.Pairwise fun x y => x.1 < y.1) : l.mergeSort expertLe = l :=
  mergeSort_of_pairwise (h.imp fun {_ _} hlt => decide_eq_true hlt.le)

def partner (n : ℕ) (oldIndices newIndices : List ℤ) (expert : ℤ) (dst : ℕ) : Option ℕ :=
  pairedSender (holders n oldIndices expert) (receivers n oldIndices newIndices expert) dst

lemma mem_of_pairedSender {ranksToSend ranksToRecv : List ℕ}
    (h : pairedSender ranksToSend ranksToRecv d = some s) : s ∈ ranksToSend ∧ d ∈ ranksToRecv := by
  obtain ⟨q, hq, h⟩ := Option.bind_eq_some_iff.mp h
  refine ⟨?_, isSome_idxOf?.mp (Option.isSome_iff_exists.mpr ⟨q, hq⟩)⟩
  split at h
  · exact mem_of_getElem? h
  · exact mem_of_getElem? h

def recvOps (n k dst : ℕ) (oldIndices newIndices : List ℤ) (group : EpGroup) (x : ℤ × ℕ) :
    List P2POp :=
  (List.range k).map fun t => .irecv t x.2
    (group.getGlobalRank ((partner n oldIndices newIndices x.1 dst).getD 0))

def P2POp.peer : P2POp → ℕ
  | .isend _ _ peer => peer
  | .irecv _ _ peer => peer

/-- Peers are ranks of the group. -/
def WithinGroup (group : EpGroup) (ops : List P2POp) : Prop :=
  ∀ op ∈ ops, ∃ r < group.size, op.peer = group.getGlobalRank r

lemma nodup_receivers : (receivers n oldIndices newIndices expert).Nodup :=
  (nodup_holders n newIndices expert).filter _

namespace Rebalancing

variable (h : Rebalancing n group oldIndices newIndices)
include h

lemma mem_receivers_iff (hne : expert ≠ -1) : d ∈ receivers n oldIndices newIndices expert ↔ d < group.size ∧
      (∃ row < n, localExpert n d newIndices row = expert) ∧
      ∀ row < n, localExpert n d oldIndices row ≠ expert := by
  rw [mem_receivers, mem_holders h.new_length hne, mem_holders h.old_length hne]
  constructor
  · rintro ⟨⟨hd, hrow⟩, hnot⟩
    exact ⟨hd, hrow, fun row hlt heq => hnot ⟨hd, row, hlt, heq⟩⟩
  · rintro ⟨hd, hrow, hnone⟩
    refine ⟨⟨hd, hrow⟩, ?_⟩
    rintro ⟨-, row, hlt, heq⟩
    exact hnone row hlt heq

lemma mem_receivers_of_recvRows (hd : d < group.size) (hx : x ∈ recvRows n d oldIndices newIndices) :
    x.1 ≠ -1 ∧ d ∈ receivers n oldIndices newIndices x.1 := by
  obtain ⟨hne, hlt, hnew, hlocal⟩ := mem_recvRows hx
  refine ⟨hne, (h.mem_receivers_iff hne).mpr ⟨hd, ⟨x.2, hlt, hnew⟩, fun row hrow => ?_⟩⟩
  rw [isReceivedLocally_eq_false hlt (hnew.symm ▸ hne)] at hlocal
  rw [← hnew]
  exact hlocal row hrow

lemma holders_ne_nil (hx : x ∈ recvRows n d oldIndices newIndices) : holders n oldIndices x.1 ≠ [] := by
  obtain ⟨hne, hlt, hnew, -⟩ := mem_recvRows hx
  rw [localExpert_eq_some hne] at hnew
  have hold := h.covered x.1 (mem_of_getElem? hnew) hne
  obtain ⟨p, hp⟩ := List.getElem?_of_mem hold
  have hplt : p < group.size * n := h.old_length ▸ (List.getElem?_eq_some_iff.mp hp).1
  have hpos : 0 < n := by omega
  refine ne_nil_of_mem (a := p / n) ((mem_holders h.old_length hne).mpr
    ⟨(Nat.div_lt_iff_lt_mul hpos).mpr hplt, p % n, Nat.mod_lt _ hpos, ?_⟩)
  rw [localExpert_eq_some hne, Nat.div_add_mod']
  exact hp

lemma exists_partner (hd : d < group.size) (hx : x ∈ recvRows n d oldIndices newIndices) :
    ∃ src < group.size, partner n oldIndices newIndices x.1 d = some src ∧
      sendRankOf (holders n oldIndices x.1) (receivers n oldIndices newIndices x.1) d = .ok src := by
  obtain ⟨hne, hrecv⟩ := h.mem_receivers_of_recvRows hd hx
  obtain ⟨src, hsrc, hpaired, hok⟩ := exists_pairedSender (h.holders_ne_nil hx) nodup_receivers hrecv
  exact ⟨src, ((mem_holders h.old_length hne).mp hsrc).1, hpaired, hok⟩

lemma experts_eq (s d : ℕ) : ((sendRows n s oldIndices).filter fun x =>
      partner n oldIndices newIndices x.1 d = some s).map Prod.fst =
    ((recvRows n d oldIndices newIndices).filter fun x =>
      partner n oldIndices newIndices x.1 d = some s).map Prod.fst := by
  have hleft : (((sendRows n s oldIndices).filter fun x =>
      partner n oldIndices newIndices x.1 d = some s).map Prod.fst).Pairwise (· < ·) :=
    pairwise_map.mpr ((pairwise_sendRows n s oldIndices).filter _)
  have hright : (((recvRows n d oldIndices newIndices).filter fun x =>
      partner n oldIndices newIndices x.1 d = some s).map Prod.fst).Pairwise (· < ·) :=
    pairwise_map.mpr ((pairwise_recvRows n d oldIndices newIndices).filter _)
  refine Perm.eq_of_pairwise (fun a b _ _ hab hba => absurd hab hba.asymm) hleft hright ?_
  refine (perm_ext_iff_of_nodup (hleft.imp fun {_ _} h => h.ne)
    (hright.imp fun {_ _} h => h.ne)).mpr fun e => ?_
  rw [mem_map, mem_map]
  constructor
  · rintro ⟨x, hx, rfl⟩
    obtain ⟨hsend, hpartner⟩ := mem_filter.mp hx
    obtain ⟨hne, -, -⟩ := mem_sendRows hsend
    have hmem := (mem_of_pairedSender (of_decide_eq_true hpartner)).2
    obtain ⟨-, ⟨row, hrow, hnew⟩, hnone⟩ := (h.mem_receivers_iff hne).mp hmem
    have hlocal : isReceivedLocally n d oldIndices newIndices row = false :=
      (isReceivedLocally_eq_false hrow (hnew.symm ▸ hne)).mpr fun row' hrow' =>
        hnew.symm ▸ hnone row' hrow'
    obtain ⟨row', hrow'⟩ := exists_mem_recvRows hrow (hnew.symm ▸ hne) hlocal
    rw [hnew] at hrow'
    exact ⟨_, mem_filter.mpr ⟨hrow', hpartner⟩, rfl⟩
  · rintro ⟨x, hx, rfl⟩
    obtain ⟨hrecv, hpartner⟩ := mem_filter.mp hx
    obtain ⟨hne, -⟩ := mem_recvRows hrecv
    have hmem := (mem_of_pairedSender (of_decide_eq_true hpartner)).1
    obtain ⟨-, row, hrow, hold⟩ := (mem_holders h.old_length hne).mp hmem
    obtain ⟨row', hrow'⟩ := exists_mem_sendRows hne hrow hold
    exact ⟨_, mem_filter.mpr ⟨hrow', hpartner⟩, rfl⟩

omit h in
lemma exists_mapM_eq_ok {α β : Type} {f : α → Except PyError β} {P : α → β → Prop} {l : List α}
    (hf : ∀ x ∈ l, ∃ y, f x = .ok y ∧ P x y) : ∃ ys, l.mapM f = .ok ys ∧ Forall₂ P l ys := by
  induction l with
  | nil => exact ⟨[], rfl, .nil⟩
  | cons x l ih =>
    obtain ⟨y, hy, hP⟩ := hf x mem_cons_self
    obtain ⟨ys, hys, hrest⟩ := ih fun z hz => hf z (mem_cons_of_mem x hz)
    refine ⟨y :: ys, ?_, .cons hP hrest⟩
    rw [mapM_cons, hy, hys]
    rfl

variable (peer : ℕ) (ops ops' : List P2POp)

omit h in
lemma sendsTo_append : sendsTo peer (ops ++ ops') = sendsTo peer ops ++ sendsTo peer ops' := filterMap_append

omit h in
lemma recvsFrom_append : recvsFrom peer (ops ++ ops') = recvsFrom peer ops ++ recvsFrom peer ops' :=
  filterMap_append

omit h in
lemma sendsTo_isends (k row p peer : ℕ) : sendsTo peer ((range k).map fun t => .isend t row p) =
      if p = peer then (range k).map fun t => (t, row) else [] := by
  unfold sendsTo
  rw [filterMap_map]
  split
  · next heq =>
    refine (filterMap_congr fun t _ => ?_).trans (congrFun filterMap_eq_map' _)
    exact if_pos heq
  · next hne => exact filterMap_eq_nil_iff.mpr fun t _ => if_neg hne

lemma sendsTo_peers {dsts : List ℕ} (hnd : dsts.Nodup) (hsize : ∀ r ∈ dsts, r < group.size)
    (hd : d < group.size) (k row : ℕ) :
    sendsTo (group.getGlobalRank d) ((dsts.map group.getGlobalRank).flatMap fun peer =>
      (range k).map fun t => .isend t row peer) =
      if d ∈ dsts then (range k).map fun t => (t, row) else [] := by
  induction dsts with
  | nil => rfl
  | cons r dsts ih =>
    obtain ⟨hr, hnd⟩ := nodup_cons.mp hnd
    have hrest := ih hnd fun r' hr' => hsize r' (mem_cons_of_mem r hr')
    rw [map_cons, flatMap_cons, sendsTo_append, hrest, sendsTo_isends]
    by_cases hrd : d = r
    · rw [if_pos (hrd ▸ rfl), if_neg (hrd ▸ hr), if_pos (hrd ▸ mem_cons_self), append_nil]
    · have hglobal : group.getGlobalRank r ≠ group.getGlobalRank d := fun heq =>
        hrd (h.globalRank_inj r d (hsize r mem_cons_self) hd heq).symm
      have hiff : d ∈ r :: dsts ↔ d ∈ dsts := by
        rw [mem_cons]
        exact or_iff_right hrd
      rw [if_neg hglobal, nil_append]
      simp only [hiff]

lemma postSend_eq (hs : s < group.size) (k : ℕ) (hx : x ∈ sendRows n s oldIndices) :
    ∃ ops, postSend k group s (getEpRanksWithExpertsBatch
        ((sendRows n s oldIndices).map Prod.fst) n oldIndices newIndices) x = .ok ops ∧
      WithinGroup group ops ∧ (∀ peer, recvsFrom peer ops = []) ∧
      ∀ r < group.size, sendsTo (group.getGlobalRank r) ops =
        if partner n oldIndices newIndices x.1 r = some s then (range k).map fun t => (t, x.2) else [] := by
  obtain ⟨hne, hlt, hold⟩ := mem_sendRows hx
  obtain ⟨hsend, hrecv⟩ := getEpRanks_spec (mem_map_of_mem hx) n oldIndices newIndices
  have hholder : s ∈ holders n oldIndices x.1 := (mem_holders h.old_length hne).mpr ⟨hs, x.2, hlt, hold⟩
  obtain ⟨dsts, hok, hnd, hmem⟩ := recvRanksOf_spec (nodup_holders n oldIndices x.1)
    (nodup_receivers : (receivers n oldIndices newIndices x.1).Nodup) hholder
  have hsize : ∀ r ∈ dsts, r < group.size := by
    intro r hr
    have hr' := (mem_of_pairedSender ((hmem r).mp hr)).2
    exact ((h.mem_receivers_iff hne).mp hr').1
  refine ⟨(dsts.map group.getGlobalRank).flatMap fun peer =>
    (range k).map fun t => .isend t x.2 peer, ?_, fun op hop => ?_, fun peer => ?_, fun r hr => ?_⟩
  · unfold postSend ranksOf
    rw [hsend, hrecv]
    simp only [ok_bind]
    by_cases hnil : receivers n oldIndices newIndices x.1 = []
    · have hdsts : dsts = [] := by
        refine eq_nil_iff_forall_not_mem.mpr fun r hr => ?_
        have hr' := (mem_of_pairedSender ((hmem r).mp hr)).2
        rw [hnil] at hr'
        exact not_mem_nil hr'
      rw [if_pos (.inr hnil), hdsts]
      rfl
    · have hnot : ¬(holders n oldIndices x.1 = [] ∨ receivers n oldIndices newIndices x.1 = []) :=
        not_or.mpr ⟨ne_nil_of_mem hholder, hnil⟩
      have hpeers : dsts.mapM group.rankToGlobal = .ok (dsts.map group.getGlobalRank) :=
        mapM_eq_ok fun r hr => if_pos (hsize r hr)
      rw [if_neg hnot, hok, ok_bind, hpeers]
      rfl
  · obtain ⟨p, hp, hop⟩ := mem_flatMap.mp hop
    obtain ⟨r, hr, rfl⟩ := mem_map.mp hp
    obtain ⟨t, -, rfl⟩ := mem_map.mp hop
    exact ⟨r, hsize r hr, rfl⟩
  · refine filterMap_eq_nil_iff.mpr fun op hop => ?_
    obtain ⟨p, -, hop⟩ := mem_flatMap.mp hop
    obtain ⟨t, -, rfl⟩ := mem_map.mp hop
    rfl
  · rw [h.sendsTo_peers hnd hsize hr]
    unfold partner
    simp only [hmem]

lemma postRecv_eq (hd : d < group.size) (k : ℕ) (hx : x ∈ recvRows n d oldIndices newIndices) :
    postRecv k group d (getEpRanksWithExpertsBatch
        ((recvRows n d oldIndices newIndices).map Prod.fst) n oldIndices newIndices) x =
      .ok (recvOps n k d oldIndices newIndices group x) := by
  obtain ⟨src, hsrc, hpartner, hok⟩ := h.exists_partner hd hx
  obtain ⟨-, hmem⟩ := h.mem_receivers_of_recvRows hd hx
  obtain ⟨hsend, hrecv⟩ := getEpRanks_spec (mem_map_of_mem hx) n oldIndices newIndices
  have hnot : ¬(holders n oldIndices x.1 = [] ∨ receivers n oldIndices newIndices x.1 = []) :=
    not_or.mpr ⟨h.holders_ne_nil hx, ne_nil_of_mem hmem⟩
  have hpeer : group.rankToGlobal src = .ok (group.getGlobalRank src) := if_pos hsrc
  unfold postRecv ranksOf recvOps
  rw [hsend, hrecv, hpartner]
  simp only [ok_bind]
  rw [if_neg hnot, hok, ok_bind, hpeer]
  rfl

lemma moveToBuffer_eq {W : Type} (hs : s < group.size) (k : ℕ) (expertWeights buffers : ExpertWeights W) :
    ∃ sends : List P2POp, moveToBuffer n s oldIndices newIndices k expertWeights buffers group =
        .ok (localMoves n s oldIndices newIndices k expertWeights buffers,
          sends ++ (recvRows n s oldIndices newIndices).flatMap (recvOps n k s oldIndices newIndices group),
          moveToBufferResult n s oldIndices newIndices) ∧
      WithinGroup group sends ∧ (∀ peer, recvsFrom peer sends = []) ∧
      ∀ r < group.size, sendsTo (group.getGlobalRank r) sends = (sendRows n s oldIndices).flatMap fun x =>
          if partner n oldIndices newIndices x.1 r = some s then (range k).map fun t => (t, x.2) else [] := by
  obtain ⟨sends, hsends, hops⟩ := exists_mapM_eq_ok (P := fun x ops =>
    WithinGroup group ops ∧ (∀ peer, recvsFrom peer ops = []) ∧ ∀ r < group.size,
      sendsTo (group.getGlobalRank r) ops = if partner n oldIndices newIndices x.1 r = some s then
          (range k).map fun t => (t, x.2)
        else []) fun x hx => h.postSend_eq hs k hx
  have hrecvs : (recvRows n s oldIndices newIndices).mapM (postRecv k group s
      (getEpRanksWithExpertsBatch ((recvRows n s oldIndices newIndices).map Prod.fst) n oldIndices
        newIndices)) = .ok ((recvRows n s oldIndices newIndices).map
        (recvOps n k s oldIndices newIndices group)) :=
    mapM_eq_ok fun x hx => h.postRecv_eq hs k hx
  refine ⟨sends.flatten, ?_, ?_, ?_, ?_⟩
  · unfold moveToBuffer
    dsimp only
    rw [ensure_of (h.old_length.trans h.new_length.symm),
      mergeSort_expertLe (pairwise_sendRows n s oldIndices), hsends,
      mergeSort_expertLe (pairwise_recvRows n s oldIndices newIndices), hrecvs, ok_bind]
    rfl
  · intro op hop
    clear hsends
    generalize sendRows n s oldIndices = l at hops
    induction hops with
    | nil => exact absurd hop not_mem_nil
    | cons hfst _ ih =>
      rw [flatten_cons, mem_append] at hop
      rcases hop with hop | hop
      · exact hfst.1 op hop
      · exact ih hop
  · intro peer
    clear hsends
    generalize sendRows n s oldIndices = l at hops ⊢
    induction hops with
    | nil => rfl
    | cons hop _ ih => rw [flatten_cons, recvsFrom_append, hop.2.1 peer, ih, nil_append]
  · intro r hr
    clear hsends
    generalize sendRows n s oldIndices = l at hops ⊢
    induction hops with
    | nil => rfl
    | cons hop _ ih =>
      rw [flatten_cons, sendsTo_append, hop.2.2 r hr, ih, flatMap_cons]

end Rebalancing

end CustomAi.Vllm

/-!
## The weights after a rebalancing

The receives of every rank end, and after the copies out of the buffers every row holds the old
weights of its new expert.
-/

namespace CustomAi.Vllm

open List Function

variable {W : Type} {n k s d : ℕ} {group : EpGroup} {oldIndices newIndices : List ℤ}

lemma receive_append {ops : List P2POp} {ts : List ℕ} {row peer : ℕ} {f : ℕ → W} {rest : List W}
    {pending : ℕ → List W} (hpending : pending peer = ts.map f ++ rest) (buffers : ExpertWeights W) :
    receive (ts.map (fun t => .irecv t row peer) ++ ops) pending buffers =
      receive ops (Function.update pending peer rest) fun t r => if r = row ∧ t ∈ ts then f t else buffers t r := by
  induction ts generalizing pending buffers with
  | nil =>
    rw [map_nil, nil_append] at hpending
    have hpending' : Function.update pending peer rest = pending := by
      rw [← hpending]
      exact update_eq_self peer pending
    rw [hpending']
    congr 1
    funext t r
    rw [if_neg fun h => not_mem_nil h.2]
  | cons t ts ih =>
    rw [map_cons, cons_append] at hpending
    rw [map_cons, cons_append, receive, hpending]
    dsimp only
    rw [ih (update_self ..), update_idem]
    congr 1
    funext t' r
    by_cases hr : r = row
    · by_cases ht' : t' ∈ ts
      · rw [if_pos ⟨hr, ht'⟩, if_pos ⟨hr, mem_cons_of_mem t ht'⟩]
      · rw [if_neg fun h => ht' h.2]
        by_cases htt : t' = t
        · rw [htt, hr, update_self, update_self, if_pos ⟨rfl, mem_cons_self⟩]
        · rw [update_of_ne htt, if_neg fun h =>
            (mem_cons.mp h.2).elim htt ht']
    · rw [if_neg fun h => hr h.1, if_neg fun h => hr h.1]
      by_cases htt : t' = t
      · rw [htt, update_self, update_of_ne hr]
      · rw [update_of_ne htt]

def sourceRow (n rank : ℕ) (oldIndices : List ℤ) (expert : ℤ) : ℕ :=
  ((dictOf (sendRows n rank oldIndices)).get? expert).getD 0

lemma get?_sendRows {x : ℤ × ℕ} (hx : x ∈ sendRows n s oldIndices) :
    (dictOf (sendRows n s oldIndices)).get? x.1 = some x.2 :=
  (get?_dictOf (pairwise_sendRows n s oldIndices)).1 x hx

lemma sourceRow_eq {x : ℤ × ℕ} (hx : x ∈ sendRows n s oldIndices) : sourceRow n s oldIndices x.1 = x.2 := by
  unfold sourceRow
  rw [get?_sendRows hx]
  rfl

lemma flatMap_ite {α : Type} (l : List (ℤ × ℕ)) (c : ℤ × ℕ → Prop) [DecidablePred c]
    (F : ℤ → List α) : (l.flatMap fun x => if c x then F x.1 else []) =
      ((l.filter fun x => c x).map Prod.fst).flatMap F := by
  induction l with
  | nil => rfl
  | cons x l ih =>
    rw [flatMap_cons, ih, filter_cons]
    by_cases hx : c x
    · rw [if_pos hx, if_pos (decide_eq_true hx), map_cons, flatMap_cons]
    · rw [if_neg hx, if_neg (by simpa using hx), nil_append]

namespace Rebalancing

variable (h : Rebalancing n group oldIndices newIndices)
include h

lemma sent_eq (s d k : ℕ) (weights : ExpertWeights W) : ((sendRows n s oldIndices).flatMap fun x =>
      if partner n oldIndices newIndices x.1 d = some s then (range k).map fun t => (t, x.2)
      else []).map (fun x => weights x.1 x.2) = (recvRows n d oldIndices newIndices).flatMap fun x =>
      if partner n oldIndices newIndices x.1 d = some s then
        (range k).map fun t => weights t (sourceRow n s oldIndices x.1) else [] := by
  have hsource : ((sendRows n s oldIndices).flatMap fun x =>
      if partner n oldIndices newIndices x.1 d = some s then
        (range k).map fun t => (t, x.2)
      else []) = (sendRows n s oldIndices).flatMap fun x =>
      if partner n oldIndices newIndices x.1 d = some s then
        (range k).map fun t => (t, sourceRow n s oldIndices x.1)
      else [] := by
    refine flatMap_congr fun x hx => ?_
    rw [sourceRow_eq hx]
  rw [hsource, flatMap_ite _ (fun x => partner n oldIndices newIndices x.1 d = some s)
    fun e => (range k).map fun t => (t, sourceRow n s oldIndices e), h.experts_eq s d,
    flatMap_ite _ (fun x => partner n oldIndices newIndices x.1 d = some s)
    fun e => (range k).map fun t => weights t (sourceRow n s oldIndices e), map_flatMap]
  refine flatMap_congr fun e _ => ?_
  rw [map_map]
  rfl

lemma receive_eq (hd : d < group.size) (k : ℕ) (weights : ℕ → ExpertWeights W)
    {l : List (ℤ × ℕ)} (hl : ∀ x ∈ l, x ∈ recvRows n d oldIndices newIndices)
    (hrows : l.Pairwise fun x y => x.2 ≠ y.2) {pending : ℕ → List W}
    (hpending : ∀ s < group.size, pending (group.getGlobalRank s) = l.flatMap fun x =>
      if partner n oldIndices newIndices x.1 d = some s then
        (range k).map fun t => weights s t (sourceRow n s oldIndices x.1)
      else []) (buffers : ExpertWeights W) :
    ∃ pending' buffers', receive (l.flatMap (recvOps n k d oldIndices newIndices group)) pending
        buffers = some (pending', buffers') ∧ (∀ s < group.size, pending' (group.getGlobalRank s) = []) ∧
      (∀ x ∈ l, ∃ s < group.size, partner n oldIndices newIndices x.1 d = some s ∧
        ∀ t < k, buffers' t x.2 = weights s t (sourceRow n s oldIndices x.1)) ∧
      ∀ row, (∀ x ∈ l, x.2 ≠ row) → ∀ t, buffers' t row = buffers t row := by
  induction l generalizing pending buffers with
  | nil => exact ⟨pending, buffers, rfl, hpending, by simp, fun _ _ _ => rfl⟩
  | cons x l ih =>
    obtain ⟨hne, hrows⟩ := pairwise_cons.mp hrows
    obtain ⟨src, hsrc, hpartner, -⟩ := h.exists_partner hd (hl x mem_cons_self)
    have hsrcPending := hpending src hsrc
    rw [flatMap_cons, if_pos hpartner] at hsrcPending
    have hstep : receive ((range k).map (fun t => .irecv t x.2 (group.getGlobalRank src)) ++
        l.flatMap (recvOps n k d oldIndices newIndices group)) pending buffers = _ :=
      receive_append hsrcPending buffers
    have hpending' : ∀ s < group.size, Function.update pending (group.getGlobalRank src)
        (l.flatMap fun y => if partner n oldIndices newIndices y.1 d = some src then
          (range k).map fun t => weights src t (sourceRow n src oldIndices y.1)
        else []) (group.getGlobalRank s) = l.flatMap fun y =>
          if partner n oldIndices newIndices y.1 d = some s then
            (range k).map fun t => weights s t (sourceRow n s oldIndices y.1)
          else [] := by
      intro s hs
      by_cases hsame : s = src
      · rw [hsame, update_self]
      · have hglobal : group.getGlobalRank s ≠ group.getGlobalRank src := fun heq =>
          hsame (h.globalRank_inj s src hs hsrc heq)
        have hnot : ¬partner n oldIndices newIndices x.1 d = some s := by
          rw [hpartner]
          exact fun heq => hsame (Option.some.inj heq).symm
        rw [update_of_ne hglobal, hpending s hs, flatMap_cons, if_neg hnot, nil_append]
    obtain ⟨pending', buffers', hok, hempty, hfilled, hother⟩ := ih
      (fun y hy => hl y (mem_cons_of_mem x hy)) hrows hpending'
      fun t r => if r = x.2 ∧ t ∈ range k then
        weights src t (sourceRow n src oldIndices x.1)
      else buffers t r
    refine ⟨pending', buffers', ?_, hempty, fun y hy => ?_, fun row hrow t => ?_⟩
    · rw [flatMap_cons]
      have hops : recvOps n k d oldIndices newIndices group x =
          (range k).map fun t => .irecv t x.2 (group.getGlobalRank src) := by
        unfold recvOps
        rw [hpartner]
        rfl
      rw [hops, hstep, hok]
    · rcases mem_cons.mp hy with rfl | hy
      · refine ⟨src, hsrc, hpartner, fun t ht => ?_⟩
        rw [hother y.2 (fun z hz => (hne z hz).symm) t, if_pos ⟨rfl, mem_range.mpr ht⟩]
      · exact hfilled y hy
    · rw [hother row (fun y hy => hrow y (mem_cons_of_mem x hy)) t]
      exact if_neg fun hc => hrow x mem_cons_self hc.1.symm

end Rebalancing

end CustomAi.Vllm
