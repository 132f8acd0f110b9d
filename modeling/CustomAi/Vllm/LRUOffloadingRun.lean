import CustomAi.Lib.Run
import CustomAi.Vllm.LRUOffloadingManager

/-!
# Runs of the LRU offloading manager

The reference count of a block is the number of its loads in flight, or says that its store is.
-/

namespace CustomAi.Vllm

open List Except

namespace LRURun

open OffloadedBlocks LRUOffloadingManager Transfers

structure Inv (numBlocks : ℕ) (s : LRURun) : Prop where
  numBlocks_eq : s.manager.backend.numBlocks = numBlocks
  accounts : s.manager.backend.Accounts (ids s.manager.blocks)
  counted : ∀ h, s.transfers.Matches h (refOf s.manager.blocks h)
  inOrder : s.transfers.InOrder s.manager.blocks.keys

variable {s s' : LRURun} {numBlocks : ℕ} {hs : List BlockHash}

lemma Inv.new (blockSize numBlocks : ℕ) (enableEvents : Bool) :
    (new blockSize numBlocks enableEvents).Inv numBlocks :=
  ⟨rfl, CPUBackend.Accounts.new blockSize numBlocks, fun _ => ⟨by simp [LRURun.new],
    by simp [LRURun.new], by simp [LRURun.new]⟩, ⟨Pairwise.nil, fun _ h => by cases h⟩⟩

variable {d : OffloadedBlocks}

lemma touchLoop_inOrder {t : Transfers} (ho : t.InOrder d.keys)
    (hs : List BlockHash) : (hs.foldl use t).InOrder (touchLoop hs d).keys := by
  induction hs generalizing t d with
  | nil => exact ho
  | cons x rest ih =>
    rw [touchLoop]
    refine ih ?_
    cases he : d.moveToEnd? x with
    | none =>
      have hx : d.get? x = none := Option.map_eq_none_iff.mp he
      exact ho.use_of_notMem (Dict.notMem_keys_of_get? hx)
    | some e =>
      rw [Option.getD_some, Dict.keys_moveToEnd he]
      exact (ho.sublist filter_sublist).use_append (by simp)

section

variable (h : s.Inv numBlocks)
include h

lemma Inv.touch (hs : List BlockHash) : Inv numBlocks ⟨s.manager.touch hs, hs.reverse.foldl use s.transfers⟩ := by
  obtain ⟨hst, hlo, hof⟩ := foldl_use_same hs.reverse s.transfers
  refine ⟨h.numBlocks_eq, ?_, fun x => ?_, touchLoop_inOrder h.inOrder _⟩
  · have hperm : (ids (touchLoop hs.reverse s.manager.blocks)).Perm (ids s.manager.blocks) :=
      (touchLoop_values _ _).map _
    exact h.accounts.of_perm hperm.symm
  · have href : refOf (touchLoop hs.reverse s.manager.blocks) x = refOf s.manager.blocks x := by
      unfold refOf
      rw [touchLoop_get?]
    change Matches _ x (refOf (touchLoop hs.reverse s.manager.blocks) x)
    rw [href]
    exact (h.counted x).congr hst hlo hof

lemma Inv.lt (x : BlockHash) (r : ℤ) (hr : refOf s.manager.blocks x = some r) : r < 2 ^ 31 := by
  have hx := h.counted x
  rw [hr] at hx
  rcases hx with ⟨-, -, -, rfl⟩ | ⟨-, -, -, hlt⟩
  · omega
  · exact hlt

lemma Inv.recounted {t : Transfers} {events : Option (List OffloadingEvent)} (hrec : Recounted s.manager.blocks d)
    (hclock : t.clock = s.transfers.clock) (huse : t.lastUse = s.transfers.lastUse)
    (hcount : ∀ x, t.Matches x (refOf d x)) : Inv numBlocks ⟨⟨s.manager.backend, d, events⟩, t⟩ := by
  refine ⟨h.numBlocks_eq, ?_, hcount, ?_⟩
  · rw [hrec.ids_eq]
    exact h.accounts
  · rw [hrec.keys_eq]
    exact ⟨by rw [huse]; exact h.inOrder.sorted, by rw [huse, hclock]; exact h.inOrder.used⟩

lemma Inv.prepareLoad {blocks : List CPUBlockStatus}
    (hok : prepareLoadLoop hs s.manager.blocks = .ok (blocks, d)) (hfew : s.Countable (.prepareLoad hs)) :
    Recounted s.manager.blocks d ∧ Inv numBlocks ⟨{ s.manager with blocks := d },
      { s.transfers with loading := s.transfers.loading + hs }⟩ := by
  have hfit : ∀ x r, refOf s.manager.blocks x = some r → r + hs.count x < 2 ^ 31 ∨ x ∉ hs := by
    intro x r hr
    by_cases hx : x ∈ hs
    · have hm := h.counted x
      rw [hr] at hm
      have hcount := hfew x hx
      rcases hm with ⟨-, -, -, rfl⟩ | ⟨-, -, rfl, -⟩
      · omega
      · omega
    · exact .inr hx
  obtain ⟨hrec, href, hready⟩ := prepareLoadLoop_spec hok hfit
  refine ⟨hrec, h.recounted hrec rfl rfl fun x => ?_⟩
  rw [href x]
  refine (h.counted x).load fun hx => ?_
  obtain ⟨r, hr, hr0⟩ := hready x hx
  exact ⟨r, hr, hr0, (hfit x r hr).resolve_right (not_not.mpr hx)⟩

lemma Inv.completeLoad (hok : completeLoadLoop hs s.manager.blocks = .ok d) :
    Recounted s.manager.blocks d ∧ Inv numBlocks ⟨{ s.manager with blocks := d },
      { s.transfers with loading := s.transfers.loading - hs }⟩ := by
  obtain ⟨hrec, href, hpos⟩ := completeLoadLoop_spec hok h.lt
  refine ⟨hrec, h.recounted hrec rfl rfl fun x => ?_⟩
  rw [href x]
  exact (h.counted x).unload (hpos x)

lemma Inv.idle_iff (x : BlockHash) : x ∈ idle s.manager.blocks ↔ x ∈ s.transfers.evictable := by
  rw [(h.counted x).evictable_iff]
  exact mem_idle

lemma Inv.prepared (hnd : hs.Nodup) {out : PrepareStoreOutput}
    {m' : LRUOffloadingManager} (hp : Prepared s.manager m' hs out) :
    Inv numBlocks ⟨m', s.transfers.prepared out⟩ := by
  have hnew : ∀ x ∈ out.blockHashesToStore, refOf s.manager.blocks x = none := by
    intro x hx
    rw [hp.toStore_eq, mem_filter] at hx
    rw [refOf_eq_none]
    simpa [Dict.contains] using hx.2
  have hev : ∀ x ∈ out.blockHashesEvicted, refOf s.manager.blocks x = some 0 := by
    intro x hx
    rw [hp.evicted_eq] at hx
    exact mem_idle.mp (mem_of_mem_take hx)
  refine ⟨hp.numBlocks.trans h.numBlocks_eq, hp.accounts, fun x => ?_, ?_⟩
  · rw [hp.refOf_eq]
    exact (h.counted x).prepared (hnew x) (hev x)
  · rw [hp.keys_eq]
    have hold : InOrder { s.transfers with
        storing := s.transfers.storing ∪ out.blockHashesToStore.toFinset
        offloaded := s.transfers.offloaded \ out.blockHashesEvicted.toFinset }
        (s.manager.blocks.keys.filter (· ∉ out.blockHashesEvicted)) := by
      have hsub := h.inOrder.sublist
        (filter_sublist (p := fun x => decide (x ∉ out.blockHashesEvicted)))
      exact ⟨hsub.sorted, hsub.used⟩
    refine hold.foldl_use ?_ fun x hx hmem => ?_
    · rw [hp.toStore_eq]
      exact hnd.filter _
    · have hkey := mem_keys_iff_refOf.mp (mem_of_mem_filter hmem)
      exact hkey (hnew x hx)

end

lemma Inv.stored (h : s.Inv numBlocks) {stored : List BlockHash}
    (hok : storedLoop hs s.manager.blocks = .ok (stored, d))
    (events : Option (List OffloadingEvent)) : Recounted s.manager.blocks d ∧
      Inv numBlocks ⟨⟨s.manager.backend, d, events⟩, s.transfers.completed hs true⟩ := by
  obtain ⟨hrec, href⟩ := storedLoop_spec hok
  refine ⟨hrec, h.recounted hrec rfl rfl fun x => ?_⟩
  rw [href]
  exact (h.counted x).stored hs

lemma Inv.failed (h : s.Inv numBlocks) {b : CPUBackend}
    (hok : failedLoop hs s.manager.backend s.manager.blocks = .ok (b, d)) :
    (∀ x, d.get? x = if x ∈ hs ∧ x ∈ s.transfers.storing then none else s.manager.blocks.get? x) ∧
    Inv numBlocks ⟨{ s.manager with backend := b, blocks := d }, s.transfers.completed hs false⟩ := by
  obtain ⟨hacc, hnum, hsub, hget⟩ := failedLoop_spec h.accounts hok
  have hget' : ∀ x, d.get? x = if x ∈ hs ∧ x ∈ s.transfers.storing then none
      else s.manager.blocks.get? x := by
    intro x
    simp only [hget, (h.counted x).neg_iff]
  refine ⟨hget', hnum.trans h.numBlocks_eq, hacc, fun x => ?_, ?_⟩
  · have hm := (h.counted x).failed hs
    change Matches _ x ((d.get? x).map _)
    rw [hget', apply_ite (Option.map CPUBlockStatus.refCnt)]
    exact hm
  · have ho := h.inOrder.sublist hsub
    exact ⟨ho.sorted, ho.used⟩

/-- A block only leaves if it is evicted for a store or its own store fails. -/
def Survives (s s' : LRURun) (op : OffloadOp) : Prop :=
  ∀ h id, idOf s.manager.blocks h = some id → idOf s'.manager.blocks h = some id ∨
    ((∃ hs, op = .prepareStore hs) ∧ h ∈ s.transfers.evictable) ∨
    ∃ hs, op = .completeStore hs false ∧ h ∈ hs ∧ h ∈ s.transfers.storing

lemma survives_of_recounted (h : Recounted s.manager.blocks d)
    (hd : s'.manager.blocks = d) (op : OffloadOp) : Survives s s' op := by
  intro x id hid
  rw [hd, h.idOf_eq]
  exact .inl hid

lemma Inv.step (h : s.Inv numBlocks) {op : OffloadOp} (hop : s.Countable op)
    (hok : s.step op = .ok s') : s'.Inv numBlocks ∧ Survives s s' op := by
  cases op with
  | lookup hs =>
    obtain rfl := ok.inj hok
    exact ⟨h, survives_of_recounted (.refl _) rfl _⟩
  | touch hs =>
    obtain rfl := ok.inj hok
    refine ⟨h.touch hs, fun x id hid => .inl ?_⟩
    change ((touchLoop hs.reverse s.manager.blocks).get? x).map _ = some id
    rw [touchLoop_get?]
    exact hid
  | prepareStore hs =>
    simp only [LRURun.step, bind_eq_ok, pure_eq_ok, ok.injEq, Prod.exists] at hok
    obtain ⟨out, m', hprep, rfl⟩ := hok
    rcases prepareStore_spec h.accounts hop with ⟨-, hnone⟩ | ⟨-, out', m'', hsome, hp⟩
    · obtain ⟨rfl, rfl⟩ := ok_pair_inj (hnone.symm.trans hprep)
      exact ⟨h, survives_of_recounted (.refl _) rfl _⟩
    · obtain ⟨rfl, rfl⟩ := ok_pair_inj (hsome.symm.trans hprep)
      refine ⟨h.prepared hop hp, fun x id hid => ?_⟩
      by_cases hev : x ∈ out'.blockHashesEvicted
      · have hidle : x ∈ idle s.manager.blocks := mem_of_mem_take (hp.evicted_eq ▸ hev)
        exact .inr (.inl ⟨⟨hs, rfl⟩, (h.idle_iff x).mp hidle⟩)
      · have hst : x ∉ out'.blockHashesToStore := by
          intro hst
          rw [hp.toStore_eq, mem_filter] at hst
          have hno : s.manager.blocks.get? x = none := by simpa [Dict.contains] using hst.2
          unfold idOf at hid
          rw [hno] at hid
          cases hid
        exact .inl ((hp.idOf_eq x hst hev).trans hid)
  | completeStore hs success =>
    cases success with
    | true =>
      simp only [LRURun.step, completeStore, ite_true, bind_eq_ok, pure_eq_ok, ok.injEq, Prod.exists] at hok
      obtain ⟨_, ⟨stored, d, hloop, rfl⟩, rfl⟩ := hok
      obtain ⟨hrec, hinv⟩ := h.stored hloop (emitEvent s.manager.events s.manager.backend stored false)
      exact ⟨hinv, survives_of_recounted hrec rfl _⟩
    | false =>
      simp only [LRURun.step, completeStore, Bool.false_eq_true, ite_false, bind_eq_ok,
        pure_eq_ok, ok.injEq, Prod.exists] at hok
      obtain ⟨_, ⟨b, d, hloop, rfl⟩, rfl⟩ := hok
      obtain ⟨hget, hinv⟩ := h.failed hloop
      refine ⟨hinv, fun x id hid => ?_⟩
      by_cases hx : x ∈ hs ∧ x ∈ s.transfers.storing
      · exact .inr (.inr ⟨hs, rfl, hx⟩)
      · left
        change (d.get? x).map _ = some id
        rw [hget, if_neg hx]
        exact hid
  | prepareLoad hs =>
    simp only [LRURun.step, LRUOffloadingManager.prepareLoad, bind_eq_ok, pure_eq_ok,
      ok.injEq, Prod.mk.injEq, Prod.exists] at hok
    obtain ⟨_, _, ⟨blocks, d, hloop, -, rfl⟩, rfl⟩ := hok
    obtain ⟨hrec, hinv⟩ := h.prepareLoad hloop hop
    exact ⟨hinv, survives_of_recounted hrec rfl _⟩
  | completeLoad hs =>
    simp only [LRURun.step, LRUOffloadingManager.completeLoad, bind_eq_ok, pure_eq_ok, ok.injEq] at hok
    obtain ⟨_, ⟨d, hloop, rfl⟩, rfl⟩ := hok
    obtain ⟨hrec, hinv⟩ := h.completeLoad hloop
    exact ⟨hinv, survives_of_recounted hrec rfl _⟩

lemma inv_of_reaches {blockSize : ℕ} {enableEvents : Bool}
    (hrun : Reaches step Countable (new blockSize numBlocks enableEvents) s) : s.Inv numBlocks :=
  hrun.invariant (.new blockSize numBlocks enableEvents) fun _ _ _ h hop hok => (h.step hop hok).1

lemma Inv.lookup_eq (h : s.Inv numBlocks) (hs : List BlockHash) :
    s.manager.lookup hs = (hs.takeWhile (· ∈ s.transfers.offloaded)).length := by
  induction hs with
  | nil => rfl
  | cons x rest ih =>
    have ho := (h.counted x).offloaded_iff
    unfold LRUOffloadingManager.lookup
    cases hx : s.manager.blocks.get? x with
    | none =>
      rw [refOf_eq_none.mpr hx] at ho
      have hno : x ∉ s.transfers.offloaded := fun hmem => by simpa using ho.mp hmem
      rw [takeWhile_cons_of_neg (by simpa using hno)]
      rfl
    | some block =>
      rw [refOf_of_get? hx] at ho
      simp only
      by_cases hready : block.isReady = true
      · have hyes : x ∈ s.transfers.offloaded := ho.mpr ⟨_, rfl, of_decide_eq_true hready⟩
        rw [if_pos hready, takeWhile_cons_of_pos (by simpa using hyes), ih, length_cons]
      · have hno : x ∉ s.transfers.offloaded := by
          intro hmem
          obtain ⟨n, hn, hn0⟩ := ho.mp hmem
          obtain rfl := Option.some.inj hn
          exact hready (decide_eq_true hn0)
        rw [if_neg hready, takeWhile_cons_of_neg (by simpa using hno)]
        rfl

lemma Inv.card_evictable (h : s.Inv numBlocks) : s.transfers.evictable.card = (idle s.manager.blocks).length := by
  have hnd := idle_nodup s.manager.blocks
  have hset : (idle s.manager.blocks).toFinset = s.transfers.evictable := by
    ext x
    rw [mem_toFinset, h.idle_iff]
  rw [← hset, toFinset_card_of_nodup hnd]

lemma Inv.victims_oldest (h : s.Inv numBlocks) (n : ℕ) : (((idle s.manager.blocks).take n).Pairwise fun x y =>
      s.transfers.lastUse x < s.transfers.lastUse y) ∧
    ∀ x ∈ (idle s.manager.blocks).take n, ∀ y ∈ s.transfers.evictable,
      y ∉ (idle s.manager.blocks).take n → s.transfers.lastUse x < s.transfers.lastUse y := by
  have hsub : (idle s.manager.blocks).Sublist s.manager.blocks.keys := filter_sublist
  have hsorted := (h.inOrder.sublist hsub).sorted
  rw [← take_append_drop n (idle s.manager.blocks), pairwise_append] at hsorted
  refine ⟨hsorted.1, fun x hx y hy hny => hsorted.2.2 x hx y ?_⟩
  have hmem := (h.idle_iff y).mpr hy
  rw [← take_append_drop n (idle s.manager.blocks), mem_append] at hmem
  exact hmem.resolve_left hny

/-- In every reachable state the blocks are accounted for, what is in flight keeps its place, and
`prepare_store` evicts as many as it needs, least recently used first, or refuses. -/
theorem reaches_lru_offloading (blockSize numBlocks : ℕ) (enableEvents : Bool)
    (hrun : Reaches step Countable (new blockSize numBlocks enableEvents) s) : ((ids s.manager.blocks).Nodup ∧
      (ids s.manager.blocks).Disjoint s.manager.backend.allocatedBlocksFreeList ∧
      (∀ id ∈ ids s.manager.blocks, id < s.manager.backend.numAllocatedBlocks) ∧
      (s.manager.blocks.size : ℤ) + s.manager.backend.getNumFreeBlocks = numBlocks) ∧
    (∀ h, h ∈ s.transfers.loading ∨ h ∈ s.transfers.storing → ∃ id, idOf s.manager.blocks h = some id ∧
        ∀ op s', s.Countable op → s.step op = .ok s' → idOf s'.manager.blocks h = some id ∨
          ∃ hs, op = .completeStore hs false ∧ h ∈ hs ∧ h ∈ s.transfers.storing) ∧
    (∀ hs : List BlockHash, hs.Nodup → if s.transfers.evictable.card < s.manager.needed hs then
        s.manager.prepareStore hs = .ok (none, s.manager)
      else ∃ out m', s.manager.prepareStore hs = .ok (some out, m') ∧
        out.blockHashesEvicted.length = s.manager.needed hs ∧
        (∀ h ∈ out.blockHashesEvicted, h ∈ s.transfers.evictable) ∧
        (out.blockHashesEvicted.Pairwise fun h h' => s.transfers.lastUse h < s.transfers.lastUse h') ∧
        ∀ h ∈ out.blockHashesEvicted, ∀ h' ∈ s.transfers.evictable,
          h' ∉ out.blockHashesEvicted → s.transfers.lastUse h < s.transfers.lastUse h') ∧
    (∀ h, h ∈ s.transfers.evictable ↔ refOf s.manager.blocks h = some 0) ∧
    ∀ hs, s.manager.lookup hs = (hs.takeWhile (· ∈ s.transfers.offloaded)).length := by
  have h := inv_of_reaches hrun
  refine ⟨⟨h.accounts.nodup, h.accounts.disjoint, fun id => h.accounts.lt, ?_⟩, ?_, ?_,
    fun x => (h.counted x).evictable_iff, h.lookup_eq⟩
  · have hlen := h.accounts.length_add_free
    have hids : (ids s.manager.blocks).length = s.manager.blocks.size := by
      unfold ids
      rw [length_map, Dict.length_values]
    rw [hids, h.numBlocks_eq] at hlen
    exact hlen
  · intro x hx
    have hm := h.counted x
    have hstored : ∃ r, refOf s.manager.blocks x = some r ∧ x ∉ s.transfers.evictable := by
      cases hr : refOf s.manager.blocks x with
      | none =>
        rw [hr] at hm
        exact (hx.elim hm.2.2 hm.1).elim
      | some r =>
        refine ⟨r, rfl, fun hev => ?_⟩
        rw [hm.evictable_iff] at hev
        rw [hev] at hm
        rcases hm with ⟨_, _, _, hr'⟩ | ⟨hst, _, hr', _⟩
        · omega
        · have hload : x ∉ s.transfers.loading := by
            rw [← Multiset.count_eq_zero]
            omega
          exact hx.elim hload hst
    obtain ⟨r, hr, hnev⟩ := hstored
    obtain ⟨b, hb, -⟩ := get?_of_refOf hr
    refine ⟨b.blockId, idOf_of_get? hb, fun op s' hop hok => ?_⟩
    rcases (h.step hop hok).2 x _ (idOf_of_get? hb) with hkeep | ⟨-, hev⟩ | hfail
    · exact .inl hkeep
    · exact absurd hev hnev
    · exact .inr hfail
  · intro hs hnd
    rw [h.card_evictable]
    rcases prepareStore_spec h.accounts hnd with ⟨hlt, hnone⟩ | ⟨hle, out, m', hsome, hp⟩
    · rw [if_pos hlt]
      exact hnone
    · rw [if_neg (not_lt.mpr hle)]
      obtain ⟨hsorted, hold⟩ := h.victims_oldest (s.manager.needed hs)
      refine ⟨out, m', hsome, ?_, ?_, ?_, ?_⟩
      all_goals rw [hp.evicted_eq]
      · rw [length_take]
        omega
      · exact fun x hx => (h.idle_iff x).mp (mem_of_mem_take hx)
      · exact hsorted
      · exact hold

/-- Two blocks are stored, one of them is loaded and touched, and a third one replaces the other. -/
def replaceOps : List OffloadOp :=
  [.prepareStore [[1], [2]], .completeStore [[1], [2]] true, .prepareLoad [[1]], .touch [[1]], .prepareStore [[3]]]

instance (s : LRURun) : (op : OffloadOp) → Decidable (s.Countable op)
  | .prepareStore blockHashes => inferInstanceAs (Decidable blockHashes.Nodup)
  | .prepareLoad blockHashes => inferInstanceAs (Decidable (∀ blockHash ∈ blockHashes,
      s.transfers.loading.count blockHash + blockHashes.count blockHash < 2 ^ 31))
  | .lookup _ => inferInstanceAs (Decidable True)
  | .touch _ => inferInstanceAs (Decidable True)
  | .completeStore _ _ => inferInstanceAs (Decidable True)
  | .completeLoad _ => inferInstanceAs (Decidable True)

theorem reaches_lru_offloading_replaced : ∃ s,
    Reaches step Countable (new 16 2 false) s ∧ s.manager.blocks.keys = [[1], [3]] ∧
    s.manager.lookup [[1], [2], [3]] = ([[1], [2], [3]].takeWhile (· ∈ s.transfers.offloaded)).length := by
  have hrun : (runAllowed step Countable (new 16 2 false) replaceOps).map (fun s =>
      s.manager.blocks.keys) = some [[1], [3]] := by decide +kernel
  rw [Option.map_eq_some_iff] at hrun
  obtain ⟨s, hs, hkeys⟩ := hrun
  have hreach : Reaches step Countable (new 16 2 false) s := Reaches.start.append_runAllowed hs
  exact ⟨s, hreach, hkeys, (reaches_lru_offloading 16 2 false hreach).2.2.2.2 _⟩

lemma exists_loaded {x : BlockHash} (hreach : Reaches step Distinct (new 16 1 false) s)
    (hzero : s.manager.blocks.get? x = some ⟨0, 0⟩) (ho : x ∈ s.transfers.offloaded) (n : ℕ)
    (hn : n ≤ 2 ^ 31) : ∃ s', Reaches step Distinct (new 16 1 false) s' ∧
      s'.manager.blocks.get? x = some ⟨toCInt32 n, 0⟩ ∧ x ∈ s'.transfers.offloaded := by
  induction n with
  | zero => exact ⟨s, hreach, hzero, ho⟩
  | succ n ih =>
    obtain ⟨t, ht, hget, hto⟩ := ih (by omega)
    have hcast : toCInt32 (n : ℤ) = n := toCInt32_of_lt (by omega) (by omega)
    rw [hcast] at hget
    have hready : CPUBlockStatus.isReady ⟨(n : ℤ), 0⟩ = true := by
      simp [CPUBlockStatus.isReady]
    have hload : t.manager.prepareLoad [x] = .ok (⟨[0]⟩, { t.manager with
        blocks := t.manager.blocks.set x ⟨toCInt32 ((n : ℤ) + 1), 0⟩ }) := by
      simp [LRUOffloadingManager.prepareLoad, prepareLoadLoop, hget, hready,
        CPUBlockStatus.setRefCnt, CPUBackend.getLoadStoreSpec]
    have hstep : t.step (.prepareLoad [x]) = .ok ⟨{ t.manager with
        blocks := t.manager.blocks.set x ⟨toCInt32 ((n : ℤ) + 1), 0⟩ },
        { t.transfers with loading := t.transfers.loading + ([x] : List BlockHash) }⟩ := by
      simp only [LRURun.step, hload, ok_bind, pure_eq_ok]
    exact ⟨_, .step (.prepareLoad [x]) ht trivial hstep, by simp, hto⟩

instance (s : LRURun) : (op : OffloadOp) → Decidable (s.Distinct op)
  | .prepareStore blockHashes => inferInstanceAs (Decidable blockHashes.Nodup)
  | .prepareLoad _ => inferInstanceAs (Decidable True)
  | .lookup _ => inferInstanceAs (Decidable True)
  | .touch _ => inferInstanceAs (Decidable True)
  | .completeStore _ _ => inferInstanceAs (Decidable True)
  | .completeLoad _ => inferInstanceAs (Decidable True)

/-- With 2^31 loads of a block in flight its `ref_cnt` wraps around, and the block counts as not
ready. -/
theorem lookup_misses_loaded_block : ¬∀ (blockSize numBlocks : ℕ) (enableEvents : Bool)
    (s : LRURun), Reaches step Distinct (new blockSize numBlocks enableEvents) s →
    ∀ hs, s.manager.lookup hs = (hs.takeWhile (· ∈ s.transfers.offloaded)).length := by
  intro h
  have hstart : (runAllowed step Distinct (new 16 1 false)
      [.prepareStore [[1]], .completeStore [[1]] true]).map (fun s =>
        decide (s.manager.blocks.get? [1] = some ⟨0, 0⟩ ∧ [1] ∈ s.transfers.offloaded)) =
      some true := by decide +kernel
  rw [Option.map_eq_some_iff] at hstart
  obtain ⟨s, hs, hd⟩ := hstart
  obtain ⟨hzero, ho⟩ := of_decide_eq_true hd
  obtain ⟨t, ht, hget, hto⟩ := exists_loaded (Reaches.start.append_runAllowed hs) hzero ho (2 ^ 31) le_rfl
  have hready : CPUBlockStatus.isReady ⟨toCInt32 2147483648, 0⟩ = true := by
    simpa [LRUOffloadingManager.lookup, hget, hto] using h 16 1 false t ht [[1]]
  cases hready

end LRURun

end CustomAi.Vllm
