import CustomAi.Lib.Run
import CustomAi.Vllm.ARCOffloadingSpec

/-!
# Runs of the ARC offloading manager

Two slips break what the manager is for: touching a block of T1 whose store is in flight raises, and
`prepare_store` evicts before it knows that it can evict enough.
-/

namespace CustomAi.Vllm

open List Option

namespace ARCRun

open ARCOffloadingManager Transfers
open OffloadedBlocks (ids idle)

variable {F : Type} [TargetSize F] {s s' : ARCRun F} {numBlocks : ℕ} {hs : List BlockHash}

/-- Distinct blocks to store, offloaded blocks to load, loads in flight to complete. -/
def Permitted (s : ARCRun F) : OffloadOp → Prop
  | .prepareStore blockHashes => blockHashes.Nodup
  | .prepareLoad blockHashes => ∀ blockHash ∈ blockHashes, blockHash ∈ s.transfers.offloaded
  | .completeLoad blockHashes => (blockHashes : Multiset BlockHash) ≤ s.transfers.loading
  | _ => True

/-- The call touches no block being stored, fails no stored block and evicts enough or nothing. -/
def Clear (s : ARCRun F) : OffloadOp → Prop
  | .touch blockHashes => s.manager.Touchable blockHashes
  | .prepareStore blockHashes => s.manager.needed blockHashes ≤ s.manager.reachable ∨ (s.manager.reachable = 0 ∧
        (idle s.manager.t1).length + (idle s.manager.t2).length < s.manager.needed blockHashes)
  | .completeStore blockHashes false =>
    ∀ blockHash ∈ blockHashes, blockHash ∉ s.transfers.offloaded
  | .prepareLoad blockHashes =>
    ∀ blockHash ∈ blockHashes, s.transfers.loading.count blockHash + blockHashes.count blockHash < 2 ^ 31
  | _ => True

structure Inv (numBlocks : ℕ) (s : ARCRun F) : Prop where
  numBlocks_eq : s.manager.backend.numBlocks = numBlocks
  capacity_eq : s.manager.cacheCapacity = numBlocks
  kept : s.manager.Kept
  counted : ∀ h, s.transfers.Matches h (s.manager.refOf h)

lemma Inv.new (blockSize numBlocks : ℕ) (enableEvents : Bool) :
    Inv numBlocks (new blockSize numBlocks enableEvents : ARCRun F) := by
  refine ⟨rfl, ?_, ⟨fun _ => .inl rfl, CPUBackend.Accounts.new blockSize numBlocks⟩, fun _ =>
    ⟨by simp [ARCRun.new], by simp [ARCRun.new], by simp [ARCRun.new]⟩⟩
  change ((0 : ℕ) : ℤ) + (numBlocks : ℤ) - ((0 : ℕ) : ℤ) = numBlocks
  omega

/-- A block only leaves if it is evicted for a store or its own store fails. -/
def Survives (s s' : ARCRun F) (op : OffloadOp) : Prop :=
  ∀ h id, s.manager.idOf h = some id → s'.manager.idOf h = some id ∨
    ((∃ hs, op = .prepareStore hs) ∧ h ∈ s.transfers.evictable) ∨
    ∃ hs, op = .completeStore hs false ∧ h ∈ hs ∧ h ∈ s.transfers.storing

omit [TargetSize F] in
lemma survives_of_idOf (h : ∀ x, s'.manager.idOf x = s.manager.idOf x) (op : OffloadOp) : Survives s s' op := by
  intro x id hid
  exact .inl ((h x).trans hid)

section

variable (h : s.Inv numBlocks)
include h

omit [TargetSize F] in
lemma Inv.of_same {m : ARCOffloadingManager F} (hk : m.Kept)
    (hsame : SameBackend s.manager m) {t : Transfers} (hc : ∀ x, t.Matches x (m.refOf x)) : Inv numBlocks ⟨m, t⟩ :=
  ⟨by rw [hsame.backend]; exact h.numBlocks_eq, by rw [hsame.cacheCapacity]; exact h.capacity_eq, hk, hc⟩

lemma Inv.touch (ht : s.manager.Touchable hs) :
    ∃ m, s.manager.touch hs = .ok m ∧ Inv numBlocks ⟨m, s.transfers⟩ ∧ ∀ x, m.get? x = s.manager.get? x := by
  have ht' : s.manager.Touchable hs.reverse := fun x hx => ht x (mem_reverse.mp hx)
  rcases touchLoop_spec h.kept hs.reverse with ⟨hnot, -⟩ | ⟨-, m, hok, hk, hsame, hget⟩
  · exact absurd ht' hnot
  · refine ⟨m, hok, h.of_same hk hsame fun x => ?_, hget⟩
    unfold refOf
    rw [hget]
    exact h.counted x

lemma Inv.prepareLoad (hp : s.Permitted (.prepareLoad hs))
    (hc : s.Clear (.prepareLoad hs)) : ∃ spec m, s.manager.prepareLoad hs = .ok (spec, m) ∧
      Inv numBlocks ⟨m, { s.transfers with loading := s.transfers.loading + hs }⟩ ∧
      ∀ x, m.idOf x = s.manager.idOf x := by
  have hready : ∀ x ∈ hs, ∃ r, s.manager.refOf x = some r ∧ 0 ≤ r ∧ r + hs.count x < 2 ^ 31 := by
    intro x hx
    have hm := h.counted x
    obtain ⟨r, hr, hr0⟩ := hm.offloaded_iff.mp (hp x hx)
    refine ⟨r, hr, hr0, ?_⟩
    have hcount := hc x hx
    rw [hr] at hm
    rcases hm with ⟨-, -, -, rfl⟩ | ⟨-, -, rfl, -⟩
    · omega
    · omega
  obtain ⟨blocks, m, hok, hk, hsame, hid, href⟩ := prepareLoadLoop_spec h.kept hready
  refine ⟨CPUBackend.getLoadStoreSpec blocks, m, ?_, h.of_same hk hsame fun x => ?_, hid⟩
  · unfold ARCOffloadingManager.prepareLoad
    rw [hok]
    rfl
  · rw [href]
    exact (h.counted x).load (hready x)

omit [TargetSize F] in
lemma Inv.completeLoad (hp : s.Permitted (.completeLoad hs)) : ∃ m, s.manager.completeLoad hs = .ok m ∧
      Inv numBlocks ⟨m, { s.transfers with loading := s.transfers.loading - hs }⟩ ∧
      ∀ x, m.idOf x = s.manager.idOf x := by
  have hloaded : ∀ x ∈ hs, ∃ r, s.manager.refOf x = some r ∧ (hs.count x : ℤ) ≤ r ∧ r < 2 ^ 31 := by
    intro x hx
    have hle := Multiset.count_le_of_le x hp
    rw [count_coe] at hle
    have hpos := count_pos_iff.mpr hx
    have hm := h.counted x
    cases hr : s.manager.refOf x with
    | none =>
      rw [hr] at hm
      have hzero := Multiset.count_eq_zero.mpr hm.2.2
      omega
    | some r =>
      rw [hr] at hm
      rcases hm with ⟨-, -, hl, -⟩ | ⟨-, -, rfl, hlt⟩
      · have hzero := Multiset.count_eq_zero.mpr hl
        omega
      · exact ⟨_, rfl, by omega, hlt⟩
  obtain ⟨m, hok, hk, hsame, hid, href⟩ := completeLoadLoop_spec h.kept hloaded
  refine ⟨m, hok, h.of_same hk hsame fun x => ?_, hid⟩
  rw [href]
  refine (h.counted x).unload fun hx => ?_
  obtain ⟨r, hr, hle, -⟩ := hloaded x hx
  exact ⟨r, hr, hle⟩

omit [TargetSize F] in
lemma Inv.stored (hs : List BlockHash) :
    Inv numBlocks ⟨s.manager.completeStore hs true, s.transfers.completed hs true⟩ ∧
      ∀ x, (s.manager.completeStore hs true).idOf x = s.manager.idOf x := by
  obtain ⟨hk, hsame, hid, href⟩ := storedLoop_spec h.kept hs
  refine ⟨h.of_same (m := s.manager.completeStore hs true) ⟨hk.disjoint, hk.accounts⟩
    ⟨hsame.1, hsame.2⟩ fun x => ?_, hid⟩
  change Matches _ x ((storedLoop hs s.manager).2.refOf x)
  rw [href]
  exact (h.counted x).stored hs

lemma Inv.failed (hc : s.Clear (.completeStore hs false)) :
    Inv numBlocks ⟨s.manager.completeStore hs false, s.transfers.completed hs false⟩ ∧
      ∀ x, (s.manager.completeStore hs false).get? x = if x ∈ hs then none else s.manager.get? x := by
  have hnot : ∀ x ∈ hs, ∀ r, s.manager.refOf x = some r → r < 0 := by
    intro x hx r hr
    by_contra hge
    exact hc x hx ((h.counted x).offloaded_iff.mpr ⟨r, hr, not_lt.mp hge⟩)
  obtain ⟨hk, hnum, hcap, hget⟩ := failLoop_spec h.kept hnot
  refine ⟨⟨hnum.trans h.numBlocks_eq, hcap.trans h.capacity_eq, hk, fun x => ?_⟩, hget⟩
  have hm := (h.counted x).failed hs
  change Matches _ x (((hs.foldl failOne s.manager).get? x).map _)
  rw [hget]
  by_cases hx : x ∈ hs
  · rw [if_pos hx]
    by_cases hst : x ∈ s.transfers.storing
    · rw [if_pos ⟨hx, hst⟩] at hm
      exact hm
    · -- a hash that is neither stored nor being stored has no block
      have hnone : s.manager.refOf x = none := by
        cases hr : s.manager.refOf x with
        | none => rfl
        | some r =>
          exact absurd ((h.counted x).neg_iff.mp ⟨r, hr, hnot x hx r hr⟩) hst
      rw [if_neg fun hh => hst hh.2, hnone] at hm
      exact hm
  · rw [if_neg hx]
    rw [if_neg fun hh => hx hh.1] at hm
    exact hm

omit [TargetSize F] in
lemma Inv.prepared {out : PrepareStoreOutput} {m : ARCOffloadingManager F}
    (hp : Prepared s.manager m hs out) : Inv numBlocks ⟨m, s.transfers.prepared out⟩ ∧
      Survives s ⟨m, s.transfers.prepared out⟩ (.prepareStore hs) := by
  have hnew : ∀ x ∈ out.blockHashesToStore, s.manager.get? x = none := by
    intro x hx
    rw [hp.toStore_eq] at hx
    exact (mem_toStore.mp hx).2
  refine ⟨⟨hp.numBlocks.trans h.numBlocks_eq, hp.cacheCapacity.trans h.capacity_eq, hp.kept,
    fun x => ?_⟩, fun x id hid => ?_⟩
  · change Matches _ x (m.refOf x)
    rw [hp.refOf_eq]
    exact (h.counted x).prepared (fun hx => refOf_eq_none.mpr (hnew x hx)) (hp.evicted_idle x)
  · by_cases hev : x ∈ out.blockHashesEvicted
    · exact .inr (.inl ⟨⟨hs, rfl⟩, (h.counted x).evictable_iff.mpr (hp.evicted_idle x hev)⟩)
    · have hst : x ∉ out.blockHashesToStore := by
        intro hst
        unfold idOf at hid
        rw [hnew x hst] at hid
        cases hid
      exact .inl ((hp.idOf_eq x hst hev).trans hid)

lemma Inv.step {op : OffloadOp} (hp : s.Permitted op) (hc : s.Clear op) :
    ∃ s', s.step op = .ok s' ∧ s'.Inv numBlocks ∧ Survives s s' op ∧
      ∀ hs, op = .touch hs → ∀ x, s'.manager.get? x = s.manager.get? x := by
  cases op with
  | lookup hs => exact ⟨s, rfl, h, survives_of_idOf (fun _ => rfl) _, by simp⟩
  | touch hs =>
    obtain ⟨m, hok, hinv, hget⟩ := h.touch hc
    refine ⟨⟨m, s.transfers⟩, ?_, hinv, survives_of_idOf (fun x => ?_) _, fun _ _ => hget⟩
    · simp only [ARCRun.step, hok, ok_bind, pure_eq_ok]
    · change (m.get? x).map _ = _
      rw [hget]
      rfl
  | prepareStore hs =>
    rcases prepareStore_spec h.kept hp with ⟨hlt, ev, m, hok, -, -, hsame⟩ | ⟨-, out, m, hok, hprep⟩
    · obtain rfl := hsame (hc.resolve_left (not_le.mpr hlt)).1
      refine ⟨s, ?_, h, survives_of_idOf (fun _ => rfl) _, by simp⟩
      simp only [ARCRun.step, hok, ok_bind, pure_eq_ok, elim_none]
    · obtain ⟨hinv, hsurv⟩ := h.prepared hprep
      refine ⟨_, ?_, hinv, hsurv, by simp⟩
      simp only [ARCRun.step, hok, ok_bind, pure_eq_ok, elim_some]
  | completeStore hs success =>
    cases success with
    | true =>
      obtain ⟨hinv, hid⟩ := h.stored hs
      exact ⟨_, rfl, hinv, survives_of_idOf hid _, by simp⟩
    | false =>
      obtain ⟨hinv, hget⟩ := h.failed hc
      refine ⟨_, rfl, hinv, fun x id hid => ?_, by simp⟩
      by_cases hx : x ∈ hs
      · obtain ⟨b, hb, -⟩ := map_eq_some_iff.mp hid
        refine .inr (.inr ⟨hs, rfl, hx, (h.counted x).neg_iff.mp ⟨b.refCnt, refOf_of_get? hb, ?_⟩⟩)
        by_contra hge
        exact hc x hx ((h.counted x).offloaded_iff.mpr ⟨_, refOf_of_get? hb, not_lt.mp hge⟩)
      · left
        change ((s.manager.completeStore hs false).get? x).map _ = some id
        rw [hget, if_neg hx]
        exact hid
  | prepareLoad hs =>
    obtain ⟨spec, m, hok, hinv, hid⟩ := h.prepareLoad hp hc
    refine ⟨_, ?_, hinv, survives_of_idOf hid _, by simp⟩
    simp only [ARCRun.step, hok, ok_bind, pure_eq_ok]
  | completeLoad hs =>
    obtain ⟨m, hok, hinv, hid⟩ := h.completeLoad hp
    refine ⟨_, ?_, hinv, survives_of_idOf hid _, by simp⟩
    simp only [ARCRun.step, hok, ok_bind, pure_eq_ok]

omit [TargetSize F] in
lemma Inv.card_evictable : s.transfers.evictable.card =
    (idle s.manager.t1).length + (idle s.manager.t2).length := by
  have hmem : ∀ x, x ∈ s.transfers.evictable ↔ x ∈ idle s.manager.t1 ++ idle s.manager.t2 := by
    intro x
    rw [(h.counted x).evictable_iff, mem_append, OffloadedBlocks.mem_idle, OffloadedBlocks.mem_idle]
    unfold refOf ARCOffloadingManager.get? OffloadedBlocks.refOf
    rcases h.kept.disjoint x with hx | hx
    · simp [hx]
    · simp [hx]
  have hnd : (idle s.manager.t1 ++ idle s.manager.t2).Nodup := by
    refine List.nodup_append.mpr ⟨OffloadedBlocks.idle_nodup _, OffloadedBlocks.idle_nodup _, ?_⟩
    rintro x hx _ hx' rfl
    rw [OffloadedBlocks.mem_idle] at hx hx'
    rcases h.kept.disjoint x with hnone | hnone
    · rw [OffloadedBlocks.refOf_eq_none.mpr hnone] at hx
      cases hx
    · rw [OffloadedBlocks.refOf_eq_none.mpr hnone] at hx'
      cases hx'
  have hset : s.transfers.evictable = (idle s.manager.t1 ++ idle s.manager.t2).toFinset := by
    ext x
    rw [List.mem_toFinset, hmem]
  rw [hset, List.toFinset_card_of_nodup hnd, List.length_append]

lemma Inv.touch_iff (hs : List BlockHash) : (∃ m, s.manager.touch hs = .ok m) ↔ s.Clear (.touch hs) := by
  constructor
  · rintro ⟨m, hok⟩ x hx
    rcases touchLoop_spec h.kept hs.reverse with ⟨-, herr⟩ | ⟨ht, -⟩
    · have hcontra := herr.symm.trans hok
      cases hcontra
    · exact ht x (mem_reverse.mpr hx)
  · intro hc
    obtain ⟨m, hok, -⟩ := h.touch hc
    exact ⟨m, hok⟩

lemma Inv.prepareStore_iff (hnd : hs.Nodup) : (∀ m, s.manager.prepareStore hs = .ok (none, m) →
      s.transfers.evictable.card < s.manager.needed hs ∧ m = s.manager) ↔ s.Clear (.prepareStore hs) := by
  have hcard := h.card_evictable
  rcases prepareStore_spec h.kept hnd with ⟨hlt, ev, m', hok, hev, hlen, hsame⟩ | ⟨hle, out, m', hok, -⟩
  · constructor
    · intro hall
      obtain ⟨hfew, rfl⟩ := hall m' hok
      have hfree := hev.free
      refine .inr ⟨by omega, by omega⟩
    · intro hc m hnone
      obtain ⟨-, rfl⟩ := ok_pair_inj (hok.symm.trans hnone)
      obtain ⟨hzero, hfew⟩ := hc.resolve_left (not_le.mpr hlt)
      exact ⟨hcard ▸ hfew, hsame hzero⟩
  · constructor
    · exact fun _ => .inl hle
    · intro _ m hnone
      have hcontra := (ok_pair_inj (hok.symm.trans hnone)).1
      cases hcontra

end

/-- In runs clear of the slips the blocks stay accounted for, calls return, and what is in flight
keeps its place. -/
theorem reaches_arc_offloading (blockSize numBlocks : ℕ) (enableEvents : Bool)
    (hrun : Reaches step (fun s op => s.Permitted op ∧ s.Clear op) (new blockSize numBlocks enableEvents) s) :
    (∀ h, s.manager.t1.get? h = none ∨ s.manager.t2.get? h = none) ∧ (ids s.manager.t1 ++ ids s.manager.t2).Nodup ∧
    (s.manager.t1.size + s.manager.t2.size : ℤ) + s.manager.backend.getNumFreeBlocks =
      s.manager.cacheCapacity ∧ (∀ op, s.Permitted op → s.Clear op → ∃ s', s.step op = .ok s' ∧
      (∀ hs, op = .touch hs → ∀ h, s'.manager.get? h = s.manager.get? h) ∧
      ∀ h, h ∈ s.transfers.loading ∨ h ∈ s.transfers.storing →
        ∃ id, s.manager.idOf h = some id ∧ (s'.manager.idOf h = some id ∨
          ∃ hs, op = .completeStore hs false ∧ h ∈ hs ∧ h ∈ s.transfers.storing)) ∧
    (∀ hs, (∃ m, s.manager.touch hs = .ok m) ↔ s.Clear (.touch hs)) ∧ ∀ hs : List BlockHash, hs.Nodup →
      ((∀ m, s.manager.prepareStore hs = .ok (none, m) →
        s.transfers.evictable.card < s.manager.needed hs ∧ m = s.manager) ↔ s.Clear (.prepareStore hs)) := by
  have h : s.Inv numBlocks := by
    refine hrun.invariant (.new blockSize numBlocks enableEvents) fun t op t' ht hop hok => ?_
    obtain ⟨t'', hok', hinv, -⟩ := ht.step hop.1 hop.2
    exact Except.ok.inj (hok'.symm.trans hok) ▸ hinv
  refine ⟨h.kept.disjoint, h.kept.accounts.nodup, ?_, fun op hp hc => ?_, h.touch_iff,
    fun hs hnd => h.prepareStore_iff hnd⟩
  · have hlen := h.kept.accounts.length_add_free
    unfold ids at hlen
    rw [List.length_append, length_map, length_map, Dict.length_values, Dict.length_values, h.numBlocks_eq] at hlen
    rw [h.capacity_eq, ← hlen]
    rfl
  · obtain ⟨s', hok, -, hsurv, htouch⟩ := h.step hp hc
    refine ⟨s', hok, htouch, fun x hx => ?_⟩
    have hm := h.counted x
    have hne : s.manager.refOf x ≠ none := by
      intro hr
      rw [hr] at hm
      exact hx.elim hm.2.2 hm.1
    obtain ⟨r, hr⟩ := ne_none_iff_exists'.mp hne
    obtain ⟨b, hb, -⟩ := get?_of_refOf hr
    refine ⟨b.blockId, idOf_of_get? hb, ?_⟩
    rcases hsurv x _ (idOf_of_get? hb) with hkeep | ⟨-, hev⟩ | hfail
    · exact .inl hkeep
    · have hload : x ∉ s.transfers.loading := (Finset.mem_filter.mp hev).2
      have hst : x ∉ s.transfers.storing := by
        rw [hm.storing_iff, hm.evictable_iff.mp hev]
        simp
      exact (hx.elim hload hst).elim
    · exact .inr hfail

instance (s : ARCRun F) : (op : OffloadOp) → Decidable (s.Permitted op)
  | .prepareStore blockHashes => inferInstanceAs (Decidable blockHashes.Nodup)
  | .prepareLoad blockHashes => inferInstanceAs (Decidable
      (∀ blockHash ∈ blockHashes, blockHash ∈ s.transfers.offloaded))
  | .completeLoad blockHashes => inferInstanceAs (Decidable
      ((blockHashes : Multiset BlockHash) ≤ s.transfers.loading))
  | .lookup _ => inferInstanceAs (Decidable True)
  | .touch _ => inferInstanceAs (Decidable True)
  | .completeStore _ _ => inferInstanceAs (Decidable True)

instance (s : ARCRun F) : (op : OffloadOp) → Decidable (s.Clear op)
  | .touch blockHashes => inferInstanceAs (Decidable
      (∀ x ∈ blockHashes, ∀ b ∈ s.manager.t1.get? x, b.isReady = true))
  | .prepareStore blockHashes => inferInstanceAs (Decidable
      (s.manager.needed blockHashes ≤ s.manager.reachable ∨ (s.manager.reachable = 0 ∧
        (idle s.manager.t1).length + (idle s.manager.t2).length < s.manager.needed blockHashes)))
  | .completeStore blockHashes false => inferInstanceAs (Decidable
      (∀ blockHash ∈ blockHashes, blockHash ∉ s.transfers.offloaded))
  | .prepareLoad blockHashes => inferInstanceAs (Decidable
      (∀ blockHash ∈ blockHashes, s.transfers.loading.count blockHash + blockHashes.count blockHash < 2 ^ 31))
  | .lookup _ => inferInstanceAs (Decidable True)
  | .completeStore _ true => inferInstanceAs (Decidable True)
  | .completeLoad _ => inferInstanceAs (Decidable True)

/-- Two blocks are stored, one of them is touched and loaded, and a third one replaces the other. -/
def replaceOps : List OffloadOp :=
  [.prepareStore [[1], [2]], .completeStore [[1], [2]] true, .touch [[1]], .prepareLoad [[1]], .prepareStore [[3]]]

theorem reaches_arc_offloading_replaced : ∃ s : ARCRun ℚ,
    Reaches step (fun s op => s.Permitted op ∧ s.Clear op) (new 16 2 false) s ∧
    s.manager.t1.keys = [[3]] ∧ s.manager.t2.keys = [[1]] ∧
    (s.manager.t1.size + s.manager.t2.size : ℤ) + s.manager.backend.getNumFreeBlocks = s.manager.cacheCapacity := by
  have hrun : (runAllowed step (fun s op => s.Permitted op ∧ s.Clear op)
      (new 16 2 false : ARCRun ℚ) replaceOps).map (fun s =>
        (s.manager.t1.keys, s.manager.t2.keys)) = some ([[3]], [[1]]) := by decide +kernel
  rw [map_eq_some_iff] at hrun
  obtain ⟨s, hs, hkeys⟩ := hrun
  obtain ⟨h1, h2⟩ := Prod.mk.inj hkeys
  have hreach := Reaches.start.append_runAllowed hs
  exact ⟨s, hreach, h1, h2, (reaches_arc_offloading 16 2 false hreach).2.2.1⟩

/-- A touch of a block that is being stored raises, and a `prepare_store` that gives up may have
evicted a block. -/
theorem touch_raises_and_eviction_lost : (¬∀ (blockSize numBlocks : ℕ) (enableEvents : Bool) (s : ARCRun ℚ),
      Reaches step Permitted (new blockSize numBlocks enableEvents) s →
      ∀ op, s.Permitted op → (s.step op).isOk = true) ∧
    ¬∀ (blockSize numBlocks : ℕ) (enableEvents : Bool) (s : ARCRun ℚ),
      Reaches step Permitted (new blockSize numBlocks enableEvents) s →
      ∀ hs m, hs.Nodup → s.manager.prepareStore hs = .ok (none, m) →
        m.t1.size + m.t2.size = s.manager.t1.size + s.manager.t2.size := by
  constructor
  · intro h
    have hrun : (runAllowed step Permitted (new 16 1 false : ARCRun ℚ)
        [.prepareStore [[1]]]).map (fun s => (s.step (.touch [[1]])).isOk) = some false := by
      decide +kernel
    rw [map_eq_some_iff] at hrun
    obtain ⟨s, hs, hfail⟩ := hrun
    have hok := h 16 1 false s (Reaches.start.append_runAllowed hs) (.touch [[1]]) trivial
    rw [hfail] at hok
    cases hok
  · intro h
    have hrun : (runAllowed step Permitted (new 16 2 false : ARCRun ℚ)
        [.prepareStore [[1], [2]], .completeStore [[1], [2]] true, .prepareLoad [[2]]]).map
          (fun s => ((s.manager.prepareStore [[3], [4]]).toOption.map fun r =>
            (r.1, r.2.t1.size + r.2.t2.size, s.manager.t1.size + s.manager.t2.size))) =
        some (some (none, 1, 2)) := by
      decide +kernel
    rw [map_eq_some_iff] at hrun
    obtain ⟨s, hs, hlost⟩ := hrun
    rw [map_eq_some_iff] at hlost
    obtain ⟨⟨out, m⟩, hok, hsizes⟩ := hlost
    obtain ⟨rfl, hsizes⟩ := Prod.mk.inj hsizes
    obtain ⟨hone, htwo⟩ := Prod.mk.inj hsizes
    change m.t1.size + m.t2.size = 1 at hone
    have hsame := h 16 2 false s (Reaches.start.append_runAllowed hs) [[3], [4]] m (by decide)
      (eq_ok_of_toOption hok)
    omega

end ARCRun

end CustomAi.Vllm
