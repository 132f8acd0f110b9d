import CustomAi.Vllm.ARCOffloadingManager

/-!
# What the operations of the ARC offloading manager do

T1 and T2 together are one collection of blocks.
-/

namespace CustomAi.Vllm

open List Dict

namespace ARCOffloadingManager

open OffloadedBlocks (ids idle)

variable {F : Type} {m m' : ARCOffloadingManager F} {x : BlockHash} {b : CPUBlockStatus}
  {hs : List BlockHash}

def refOf (m : ARCOffloadingManager F) (h : BlockHash) : Option ℤ := (m.get? h).map (·.refCnt)

def idOf (m : ARCOffloadingManager F) (h : BlockHash) : Option ℕ := (m.get? h).map (·.blockId)

/-- T1 and T2 are disjoint and hold the blocks of the backend. -/
structure Kept (m : ARCOffloadingManager F) : Prop where
  disjoint : ∀ h, m.t1.get? h = none ∨ m.t2.get? h = none
  accounts : m.backend.Accounts (ids m.t1 ++ ids m.t2)

structure SameBackend (m m' : ARCOffloadingManager F) : Prop where
  backend : m'.backend = m.backend
  cacheCapacity : m'.cacheCapacity = m.cacheCapacity

lemma SameBackend.refl (m : ARCOffloadingManager F) : SameBackend m m := ⟨rfl, rfl⟩

variable {n : ARCOffloadingManager F} {evicted : List BlockHash}

lemma SameBackend.trans (h : SameBackend m n) (h' : SameBackend n m') : SameBackend m m' :=
  ⟨h'.1.trans h.1, h'.2.trans h.2⟩

lemma get?_of_t1 (hb : m.t1.get? x = some b) : m.get? x = some b := by
  unfold get?
  rw [hb]
  rfl

lemma get?_of_t2 (hnone : m.t1.get? x = none) : m.get? x = m.t2.get? x := by
  unfold get?
  rw [hnone]
  rfl

lemma Kept.t1_of_t2 (h : m.Kept) (hb : m.t2.get? x = some b) : m.t1.get? x = none :=
  (h.disjoint x).resolve_right (by rw [hb]; simp)

lemma Kept.t2_of_t1 (h : m.Kept) (hb : m.t1.get? x = some b) : m.t2.get? x = none :=
  (h.disjoint x).resolve_left (by rw [hb]; simp)

lemma get?_eq_none : m.get? x = none ↔ m.t1.get? x = none ∧ m.t2.get? x = none := by
  exact Option.or_eq_none_iff

lemma refOf_of_get? (hb : m.get? x = some b) : m.refOf x = some b.refCnt := by
  unfold refOf
  rw [hb]
  rfl

lemma idOf_of_get? (hb : m.get? x = some b) : m.idOf x = some b.blockId := by
  unfold idOf
  rw [hb]
  rfl

lemma get?_of_refOf {r : ℤ} (hr : m.refOf x = some r) : ∃ b, m.get? x = some b ∧ b.refCnt = r :=
  Option.map_eq_some_iff.mp hr

lemma refOf_eq_none : m.refOf x = none ↔ m.get? x = none := Option.map_eq_none_iff

lemma Kept.setBlock (h : m.Kept) (hb : m.get? x = some b) (n : ℤ) :
    (m.setBlock x (b.setRefCnt n)).Kept ∧ SameBackend m (m.setBlock x (b.setRefCnt n)) ∧
      ∀ y, (m.setBlock x (b.setRefCnt n)).get? y = if y = x then some (b.setRefCnt n) else m.get? y := by
  unfold ARCOffloadingManager.setBlock
  cases hx : m.t1.get? x with
  | some b' =>
    obtain rfl := Option.some.inj ((get?_of_t1 hx).symm.trans hb)
    have hc : m.t1.contains x = true := by simp [Dict.contains, hx]
    rw [if_pos hc]
    refine ⟨⟨fun y => ?_, ?_⟩, ⟨rfl, rfl⟩, fun y => ?_⟩
    · rw [Dict.get?_set]
      by_cases hy : y = x
      · exact .inr (hy.symm ▸ h.t2_of_t1 hx)
      · rw [if_neg hy]
        exact h.disjoint y
    · have hids : ids (m.t1.set x (b'.setRefCnt n)) = ids m.t1 := Dict.map_values_set _ hx rfl
      rw [hids]
      exact h.accounts
    · unfold get?
      simp only [Dict.get?_set]
      by_cases hy : y = x
      · simp [hy]
      · simp [hy]
  | none =>
    have hx2 : m.t2.get? x = some b := (get?_of_t2 hx).symm.trans hb
    have hc : ¬m.t1.contains x = true := by simp [Dict.contains, hx]
    rw [if_neg hc]
    refine ⟨⟨fun y => ?_, ?_⟩, ⟨rfl, rfl⟩, fun y => ?_⟩
    · rw [Dict.get?_set]
      by_cases hy : y = x
      · exact .inl (hy.symm ▸ hx)
      · rw [if_neg hy]
        exact h.disjoint y
    · have hids : ids (m.t2.set x (b.setRefCnt n)) = ids m.t2 := Dict.map_values_set _ hx2 rfl
      rw [hids]
      exact h.accounts
    · unfold get?
      simp only [Dict.get?_set]
      by_cases hy : y = x
      · simp [hy, hx]
      · simp [hy]

lemma refOf_of_setBlock {n : ℤ} (hget : ∀ y, m'.get? y =
    if y = x then some (b.setRefCnt n) else m.get? y) (y : BlockHash) :
    m'.refOf y = if y = x then some (toCInt32 n) else m.refOf y := by
  unfold refOf
  rw [hget]
  split <;> rfl

lemma idOf_of_setBlock {n : ℤ} (hb : m.get? x = some b) (hget : ∀ y, m'.get? y =
    if y = x then some (b.setRefCnt n) else m.get? y) (y : BlockHash) : m'.idOf y = m.idOf y := by
  unfold idOf
  rw [hget]
  split
  · next hy => rw [hy, hb]; rfl
  · rfl

section

variable (h : m.Kept)
include h

lemma prepareLoadLoop_spec (hready : ∀ x ∈ hs, ∃ r, m.refOf x = some r ∧ 0 ≤ r ∧ r + hs.count x < 2 ^ 31) :
    ∃ blocks m', prepareLoadLoop hs m = .ok (blocks, m') ∧ m'.Kept ∧ SameBackend m m' ∧
      (∀ y, m'.idOf y = m.idOf y) ∧ ∀ y, m'.refOf y = (m.refOf y).map (· + (hs.count y : ℤ)) := by
  induction hs generalizing m with
  | nil => exact ⟨[], m, rfl, h, .refl m, fun _ => rfl, by simp⟩
  | cons x rest ih =>
    obtain ⟨r, hr, hr0, hlt⟩ := hready x mem_cons_self
    obtain ⟨b, hb, rfl⟩ := get?_of_refOf hr
    rw [count_cons_self] at hlt
    have hcast : toCInt32 (b.refCnt + 1) = b.refCnt + 1 := toCInt32_of_lt (by omega) (by omega)
    obtain ⟨hk, hsame, hget⟩ := h.setBlock hb (b.refCnt + 1)
    have href := refOf_of_setBlock hget
    have hready' : ∀ y ∈ rest, ∃ r, (m.setBlock x (b.setRefCnt (b.refCnt + 1))).refOf y = some r ∧
        0 ≤ r ∧ r + rest.count y < 2 ^ 31 := by
      intro y hy
      rw [href]
      by_cases hyx : y = x
      · subst hyx
        exact ⟨_, if_pos rfl, by omega, by omega⟩
      · obtain ⟨r, hr, hr0, hlt⟩ := hready y (mem_cons_of_mem x hy)
        rw [count_cons_of_ne (Ne.symm hyx)] at hlt
        exact ⟨r, (if_neg hyx).trans hr, hr0, hlt⟩
    obtain ⟨blocks, m', hok, hk', hsame', hid', href'⟩ := ih hk hready'
    have hisReady : b.isReady = true := decide_eq_true hr0
    refine ⟨b.setRefCnt (b.refCnt + 1) :: blocks, m', ?_, hk', hsame.trans hsame', fun y => ?_, fun y => ?_⟩
    · unfold prepareLoadLoop
      simp only [hb, ensure_of hisReady, ok_bind, hok]
      rfl
    · rw [hid', idOf_of_setBlock hb hget]
    · rw [href', href]
      by_cases hyx : y = x
      · subst hyx
        rw [if_pos rfl, hr, count_cons_self, Option.map_some, Option.map_some, Option.some.injEq]
        omega
      · rw [if_neg hyx, count_cons_of_ne (Ne.symm hyx)]

lemma completeLoadLoop_spec (hloaded : ∀ x ∈ hs, ∃ r, m.refOf x = some r ∧ (hs.count x : ℤ) ≤ r ∧ r < 2 ^ 31) :
    ∃ m', completeLoadLoop hs m = .ok m' ∧ m'.Kept ∧ SameBackend m m' ∧ (∀ y, m'.idOf y = m.idOf y) ∧
      ∀ y, m'.refOf y = (m.refOf y).map (· - (hs.count y : ℤ)) := by
  induction hs generalizing m with
  | nil => exact ⟨m, rfl, h, .refl m, fun _ => rfl, by simp⟩
  | cons x rest ih =>
    obtain ⟨r, hr, hle, hlt⟩ := hloaded x mem_cons_self
    obtain ⟨b, hb, rfl⟩ := get?_of_refOf hr
    rw [count_cons_self] at hle
    have hpos : b.refCnt > 0 := by omega
    have hcast : toCInt32 (b.refCnt - 1) = b.refCnt - 1 := toCInt32_of_lt (by omega) (by omega)
    obtain ⟨hk, hsame, hget⟩ := h.setBlock hb (b.refCnt - 1)
    have href := refOf_of_setBlock hget
    have hloaded' : ∀ y ∈ rest, ∃ r, (m.setBlock x (b.setRefCnt (b.refCnt - 1))).refOf y = some r ∧
        (rest.count y : ℤ) ≤ r ∧ r < 2 ^ 31 := by
      intro y hy
      rw [href]
      by_cases hyx : y = x
      · subst hyx
        exact ⟨_, if_pos rfl, by omega, by omega⟩
      · obtain ⟨r, hr, hle, hlt⟩ := hloaded y (mem_cons_of_mem x hy)
        rw [count_cons_of_ne (Ne.symm hyx)] at hle
        exact ⟨r, (if_neg hyx).trans hr, hle, hlt⟩
    obtain ⟨m', hok, hk', hsame', hid', href'⟩ := ih hk hloaded'
    refine ⟨m', ?_, hk', hsame.trans hsame', fun y => ?_, fun y => ?_⟩
    · unfold completeLoadLoop
      simp only [hb, ensure_of hpos, ok_bind, hok]
    · rw [hid', idOf_of_setBlock hb hget]
    · rw [href', href]
      by_cases hyx : y = x
      · subst hyx
        rw [if_pos rfl, hr, count_cons_self, Option.map_some, Option.map_some, Option.some.injEq]
        omega
      · rw [if_neg hyx, count_cons_of_ne (Ne.symm hyx)]

lemma storedLoop_spec (hs : List BlockHash) : (storedLoop hs m).2.Kept ∧ SameBackend m (storedLoop hs m).2 ∧
      (∀ y, (storedLoop hs m).2.idOf y = m.idOf y) ∧ ∀ y, (storedLoop hs m).2.refOf y =
        if y ∈ hs then (m.refOf y).map (max 0) else m.refOf y := by
  induction hs generalizing m with
  | nil => exact ⟨h, .refl m, fun _ => rfl, by simp [storedLoop]⟩
  | cons x rest ih =>
    unfold storedLoop
    cases hx : m.get? x with
    | none =>
      obtain ⟨hk, hsame, hid, href⟩ := ih h
      refine ⟨hk, hsame, hid, fun y => ?_⟩
      simp only [href, mem_cons]
      by_cases hyx : y = x
      · subst hyx
        simp [refOf_eq_none.mpr hx]
      · simp [hyx]
    | some b =>
      by_cases hready : b.isReady = true
      · have hready' : 0 ≤ b.refCnt := of_decide_eq_true hready
        simp only [hready, ite_true]
        obtain ⟨hk, hsame, hid, href⟩ := ih h
        refine ⟨hk, hsame, hid, fun y => ?_⟩
        simp only [href, mem_cons]
        by_cases hyx : y = x
        · subst hyx
          simp [refOf_of_get? hx, hready']
        · simp [hyx]
      · have hready' : b.refCnt < 0 := not_le.mp fun hle => hready (decide_eq_true hle)
        simp only [hready, Bool.false_eq_true, ite_false]
        obtain ⟨hk1, hsame1, hget⟩ := h.setBlock hx 0
        obtain ⟨hk, hsame, hid, href⟩ := ih hk1
        refine ⟨hk, hsame1.trans hsame, fun y => ?_, fun y => ?_⟩
        · rw [hid, idOf_of_setBlock hx hget]
        · have hzero : toCInt32 0 = 0 := rfl
          simp only [href, refOf_of_setBlock hget, hzero, mem_cons]
          by_cases hyx : y = x
          · subst hyx
            simp [refOf_of_get? hx, hready'.le]
          · simp [hyx]

lemma Kept.eraseT1 (hb : m.t1.get? x = some b) (b1 : Dict BlockHash Unit) :
    Kept { m with t1 := m.t1.erase x, b1, backend := m.backend.free b } ∧ ∀ y, ARCOffloadingManager.get?
        { m with t1 := m.t1.erase x, b1, backend := m.backend.free b } y = if y = x then none else m.get? y := by
  have hperm : (ids m.t1).Perm (b.blockId :: ids (m.t1.erase x)) := (values_erase_perm hb).map _
  refine ⟨⟨fun y => ?_, ?_⟩, fun y => ?_⟩
  · rw [get?_erase]
    by_cases hy : y = x
    · exact .inl (if_pos hy)
    · rw [if_neg hy]
      exact h.disjoint y
  · exact CPUBackend.Accounts.free b (h.accounts.of_perm (hperm.append_right _))
  · unfold get?
    simp only [get?_erase]
    by_cases hy : y = x
    · subst hy
      simp [h.t2_of_t1 hb]
    · simp [hy]

lemma Kept.eraseT2 (hb : m.t2.get? x = some b) (b2 : Dict BlockHash Unit) :
    Kept { m with t2 := m.t2.erase x, b2, backend := m.backend.free b } ∧ ∀ y, ARCOffloadingManager.get?
        { m with t2 := m.t2.erase x, b2, backend := m.backend.free b } y = if y = x then none else m.get? y := by
  have hperm : (ids m.t2).Perm (b.blockId :: ids (m.t2.erase x)) := (values_erase_perm hb).map _
  refine ⟨⟨fun y => ?_, ?_⟩, fun y => ?_⟩
  · rw [get?_erase]
    by_cases hy : y = x
    · exact .inr (if_pos hy)
    · rw [if_neg hy]
      exact h.disjoint y
  · refine CPUBackend.Accounts.free b (h.accounts.of_perm ?_)
    exact (hperm.append_left _).trans perm_middle
  · unfold get?
    simp only [get?_erase]
    by_cases hy : y = x
    · subst hy
      simp [h.t1_of_t2 hb]
    · simp [hy]

/-- A block whose store has failed goes back to the backend; a ready block is lost. -/
lemma failOne_spec (hnot : ∀ r, m.refOf x = some r → r < 0) :
    (m.failOne x).Kept ∧ (m.failOne x).backend.numBlocks = m.backend.numBlocks ∧
      (m.failOne x).cacheCapacity = m.cacheCapacity ∧
      ∀ y, (m.failOne x).get? y = if y = x then none else m.get? y := by
  unfold failOne
  cases hx : m.t1.get? x with
  | some b =>
    have hready : ¬b.isReady = true := fun hr =>
      absurd (hnot _ (refOf_of_get? (get?_of_t1 hx))) (not_lt.mpr (of_decide_eq_true hr))
    simp only [hready, Bool.false_eq_true, ite_false]
    obtain ⟨hk, hget⟩ := h.eraseT1 hx m.b1
    exact ⟨hk, rfl, trivial, hget⟩
  | none =>
    cases hx2 : m.t2.get? x with
    | some b =>
      have hready : ¬b.isReady = true := fun hr =>
        absurd (hnot _ (refOf_of_get? ((get?_of_t2 hx).trans hx2))) (not_lt.mpr (of_decide_eq_true hr))
      simp only [hready, Bool.false_eq_true, ite_false]
      obtain ⟨hk, hget⟩ := h.eraseT2 hx2 m.b2
      exact ⟨hk, rfl, trivial, hget⟩
    | none =>
      refine ⟨h, rfl, rfl, fun y => ?_⟩
      by_cases hy : y = x
      · rw [if_pos hy, hy]
        exact get?_eq_none.mpr ⟨hx, hx2⟩
      · rw [if_neg hy]

lemma failLoop_spec (hnot : ∀ x ∈ hs, ∀ r, m.refOf x = some r → r < 0) :
    (hs.foldl failOne m).Kept ∧ (hs.foldl failOne m).backend.numBlocks = m.backend.numBlocks ∧
      (hs.foldl failOne m).cacheCapacity = m.cacheCapacity ∧
      ∀ y, (hs.foldl failOne m).get? y = if y ∈ hs then none else m.get? y := by
  induction hs generalizing m with
  | nil => exact ⟨h, rfl, rfl, by simp⟩
  | cons x rest ih =>
    obtain ⟨hk, hnum, hcap, hget⟩ := failOne_spec h (hnot x mem_cons_self)
    have hnot' : ∀ y ∈ rest, ∀ r, (m.failOne x).refOf y = some r → r < 0 := by
      intro y hy r hr
      unfold refOf at hr
      rw [hget] at hr
      by_cases hyx : y = x
      · rw [if_pos hyx] at hr
        cases hr
      · rw [if_neg hyx] at hr
        exact hnot y (mem_cons_of_mem x hy) r hr
    obtain ⟨hk', hnum', hcap', hget'⟩ := ih hk hnot'
    refine ⟨hk', hnum'.trans hnum, hcap'.trans hcap, fun y => ?_⟩
    rw [foldl_cons, hget', hget]
    by_cases hyx : y = x
    · simp [hyx]
    · simp [hyx]

end

variable [TargetSize F]

/-- A touch moves blocks, and fails exactly for a block of T1 whose store is in flight. -/
lemma touchOne_spec (h : m.Kept) (x : BlockHash) :
    (∃ b, m.t1.get? x = some b ∧ ¬b.isReady = true ∧ m.touchOne x = .error .keyError) ∨
    (∀ b, m.t1.get? x = some b → b.isReady = true) ∧
      ∃ m', m.touchOne x = .ok m' ∧ m'.Kept ∧ SameBackend m m' ∧ (∀ y, m'.get? y = m.get? y) ∧
        (∀ y b, m'.t1.get? y = some b → m.t1.get? y = some b) ∧
        ∀ y b, m.t1.get? y = some b → ¬b.isReady = true → m'.t1.get? y = some b := by
  unfold touchOne
  cases hx : m.t1.get? x with
  | some b =>
    by_cases hready : b.isReady = true
    · refine .inr ⟨fun b' hb' => Option.some.inj hb' ▸ hready, ?_⟩
      simp only [hready, ite_true]
      refine ⟨_, rfl, ⟨fun y => ?_, ?_⟩, ⟨rfl, rfl⟩, fun y => ?_, fun y b' hb' => ?_, fun y b' hb' hnr => ?_⟩
      · rw [get?_erase, get?_set]
        by_cases hy : y = x
        · exact .inl (if_pos hy)
        · rw [if_neg hy, if_neg hy]
          exact h.disjoint y
      · have hperm : (ids m.t1).Perm (b.blockId :: ids (m.t1.erase x)) := (values_erase_perm hx).map _
        have hids : ids (m.t2.set x b) = ids m.t2 ++ [b.blockId] := by
          unfold ids
          rw [values_set_of_new b (h.t2_of_t1 hx), map_append]
          rfl
        rw [hids, ← append_assoc]
        refine h.accounts.of_perm ((hperm.append_right _).trans ?_)
        exact (perm_append_singleton _ _).symm
      · unfold get?
        simp only [get?_erase, get?_set]
        by_cases hy : y = x
        · subst hy
          simp [hx]
        · simp [hy]
      · rw [get?_erase] at hb'
        split at hb'
        · cases hb'
        · exact hb'
      · have hy : y ≠ x := by
          rintro rfl
          rw [hx, Option.some.injEq] at hb'
          exact hnr (hb' ▸ hready)
        rw [get?_erase_of_ne _ hy]
        exact hb'
    · refine .inl ⟨b, rfl, hready, ?_⟩
      have hgone : (m.t1.erase x).moveToEnd? x = none := by
        unfold moveToEnd?
        rw [get?_erase_self]
        rfl
      simp only [hready, Bool.false_eq_true, ite_false, hgone]
  | none =>
    refine .inr ⟨by simp, ?_⟩
    cases hx2 : m.t2.moveToEnd? x with
    | some t2 =>
      refine ⟨_, rfl, ⟨fun y => ?_, ?_⟩, ⟨rfl, rfl⟩, fun y => ?_, fun _ _ hb => hb, fun _ _ hb _ => hb⟩
      · rw [get?_moveToEnd hx2]
        exact h.disjoint y
      · have hperm : (ids t2).Perm (ids m.t2) := (values_moveToEnd_perm hx2).map _
        exact h.accounts.of_perm (hperm.symm.append_left _)
      · unfold get?
        simp only [get?_moveToEnd hx2]
    | none =>
      cases m.b1.moveToEnd? x with
      | some b1 => exact ⟨_, rfl, ⟨h.1, h.2⟩, ⟨rfl, rfl⟩, fun _ => rfl, fun _ _ hb => hb, fun _ _ hb _ => hb⟩
      | none =>
        cases m.b2.moveToEnd? x with
        | some b2 => exact ⟨_, rfl, ⟨h.1, h.2⟩, ⟨rfl, rfl⟩, fun _ => rfl, fun _ _ hb => hb, fun _ _ hb _ => hb⟩
        | none => exact ⟨m, rfl, h, .refl m, fun _ => rfl, fun _ _ hb => hb, fun _ _ hb _ => hb⟩

def Touchable (m : ARCOffloadingManager F) (hs : List BlockHash) : Prop :=
  ∀ x ∈ hs, ∀ b, m.t1.get? x = some b → b.isReady = true

lemma touchLoop_spec (h : m.Kept) (hs : List BlockHash) : (¬m.Touchable hs ∧ touchLoop hs m = .error .keyError) ∨
    (m.Touchable hs ∧ ∃ m', touchLoop hs m = .ok m' ∧ m'.Kept ∧ SameBackend m m' ∧ ∀ y, m'.get? y = m.get? y) := by
  induction hs generalizing m with
  | nil => exact .inr ⟨by simp [Touchable], m, rfl, h, .refl m, fun _ => rfl⟩
  | cons x rest ih =>
    rcases touchOne_spec h x with ⟨b, hb, hnr, herr⟩ | ⟨hready, m1, hok, hk, hsame, hget, hsub, hsup⟩
    · refine .inl ⟨fun ht => hnr (ht x mem_cons_self b hb), ?_⟩
      rw [touchLoop, herr]
      rfl
    · have hiff : m1.Touchable rest ↔ m.Touchable (x :: rest) := by
        constructor
        · intro ht y hy b hb
          rcases mem_cons.mp hy with rfl | hy
          · exact hready b hb
          · by_contra hnr
            exact hnr (ht y hy b (hsup y b hb hnr))
        · exact fun ht y hy b hb => ht y (mem_cons_of_mem x hy) b (hsub y b hb)
      rw [touchLoop, hok, ← hiff]
      rcases ih hk with ⟨hnt, herr⟩ | ⟨ht, m', hok', hk', hsame', hget'⟩
      · exact .inl ⟨hnt, herr⟩
      · exact .inr ⟨ht, m', hok', hk', hsame.trans hsame', fun y => (hget' y).trans (hget y)⟩

/-- How many blocks of T1 the eviction loop can take. -/
def fromT1 (m : ARCOffloadingManager F) : ℕ :=
  min (idle m.t1).length (m.t1.size + 1 - TargetSize.toInt m.targetT1Size).toNat

def reachable (m : ARCOffloadingManager F) : ℕ := m.fromT1 + (idle m.t2).length

lemma findIdle_spec (t : OffloadedBlocks) : (findIdle t = none ∧ idle t = []) ∨
      ∃ x b, findIdle t = some (x, b) ∧ t.get? x = some b ∧ b.refCnt = 0 ∧ x ∈ idle t := by
  unfold findIdle
  cases hf : t.entries.find? (fun e => e.2.refCnt = 0) with
  | none =>
    refine .inl ⟨rfl, ?_⟩
    rw [← OffloadedBlocks.map_fst_filter_entries, map_eq_nil_iff, filter_eq_nil_iff]
    exact List.find?_eq_none.mp hf
  | some e =>
    obtain ⟨x, b⟩ := e
    have hb := (t.mem_entries_iff x b).mp (mem_of_find?_eq_some hf)
    have hzero : b.refCnt = 0 := by simpa using List.find?_some hf
    refine .inr ⟨x, b, rfl, hb, hzero, OffloadedBlocks.mem_idle.mpr ?_⟩
    rw [OffloadedBlocks.refOf_of_get? hb, hzero]

/-- What the eviction of `x` does. -/
structure EvictedOne (m m' : ARCOffloadingManager F) (x : BlockHash) : Prop where
  kept : m'.Kept
  refOf_eq : m.refOf x = some 0
  get?_eq : ∀ y, m'.get? y = if y = x then none else m.get? y
  numBlocks : m'.backend.numBlocks = m.backend.numBlocks
  cacheCapacity : m'.cacheCapacity = m.cacheCapacity
  free : m'.backend.getNumFreeBlocks = m.backend.getNumFreeBlocks + 1
  reachable : m'.reachable + 1 = m.reachable

lemma evictOne_spec (h : m.Kept) : (m.evictOne = none ∧ m.reachable = 0) ∨
    ∃ x m', m.evictOne = some (x, m') ∧ EvictedOne m m' x := by
  have hfrom : (if (m.t1.size : ℤ) ≥ TargetSize.toInt m.targetT1Size then findIdle m.t1 else none) =
        none ∧ m.fromT1 = 0 ∨
      ∃ x b, (if (m.t1.size : ℤ) ≥ TargetSize.toInt m.targetT1Size then findIdle m.t1 else none) =
        some (x, b) ∧ m.t1.get? x = some b ∧ b.refCnt = 0 ∧ x ∈ idle m.t1 ∧
        (m.t1.size : ℤ) ≥ TargetSize.toInt m.targetT1Size := by
    unfold fromT1
    by_cases hge : (m.t1.size : ℤ) ≥ TargetSize.toInt m.targetT1Size
    · simp only [if_pos hge]
      rcases findIdle_spec m.t1 with ⟨hnone, hidle⟩ | ⟨x, b, hsome, hb, hzero, hx⟩
      · refine .inl ⟨hnone, ?_⟩
        rw [hidle]
        rfl
      · exact .inr ⟨x, b, hsome, hb, hzero, hx, hge⟩
    · rw [if_neg hge]
      exact .inl ⟨rfl, by omega⟩
  unfold evictOne
  rcases hfrom with ⟨hnone, hquota⟩ | ⟨x, b, hsome, hb, hzero, hx, hge⟩
  · simp only [hnone]
    rcases findIdle_spec m.t2 with ⟨hnone2, hidle2⟩ | ⟨x, b, hsome2, hb2, hzero2, hx2⟩
    · rw [hnone2]
      refine .inl ⟨rfl, ?_⟩
      unfold reachable
      rw [hquota, hidle2]
      rfl
    · rw [hsome2]
      obtain ⟨hk, hget⟩ := h.eraseT2 hb2 (m.b2.set x ())
      refine .inr ⟨x, _, rfl, hk, ?_, hget, rfl, rfl, CPUBackend.getNumFreeBlocks_free _ _, ?_⟩
      · rw [refOf_of_get? ((get?_of_t2 (h.t1_of_t2 hb2)).trans hb2), hzero2]
      · have hlen := OffloadedBlocks.length_idle_erase hx2
        change m.fromT1 + (idle (m.t2.erase x)).length + 1 = m.fromT1 + (idle m.t2).length
        omega
  · simp only [hsome]
    obtain ⟨hk, hget⟩ := h.eraseT1 hb (m.b1.set x ())
    refine .inr ⟨x, _, rfl, hk, ?_, hget, rfl, rfl, CPUBackend.getNumFreeBlocks_free _ _, ?_⟩
    · rw [refOf_of_get? (get?_of_t1 hb), hzero]
    · have hlen := OffloadedBlocks.length_idle_erase hx
      have hsize := size_erase hb
      change min (idle (m.t1.erase x)).length
        (((m.t1.erase x).size : ℤ) + 1 - TargetSize.toInt m.targetT1Size).toNat +
          (idle m.t2).length + 1 = min (idle m.t1).length
            ((m.t1.size : ℤ) + 1 - TargetSize.toInt m.targetT1Size).toNat + (idle m.t2).length
      omega

/-- What the eviction of `evicted` does. -/
structure Evicted (m m' : ARCOffloadingManager F) (evicted : List BlockHash) : Prop where
  kept : m'.Kept
  refOf_eq : ∀ x ∈ evicted, m.refOf x = some 0
  get?_eq : ∀ y, m'.get? y = if y ∈ evicted then none else m.get? y
  numBlocks : m'.backend.numBlocks = m.backend.numBlocks
  cacheCapacity : m'.cacheCapacity = m.cacheCapacity
  free : m'.backend.getNumFreeBlocks = m.backend.getNumFreeBlocks + evicted.length

lemma Evicted.cons (h : EvictedOne m n x) (h' : Evicted n m' evicted) : Evicted m m' (x :: evicted) := by
  refine ⟨h'.kept, fun y hy => ?_, fun y => ?_, h'.numBlocks.trans h.numBlocks,
    h'.cacheCapacity.trans h.cacheCapacity, ?_⟩
  · rcases mem_cons.mp hy with rfl | hy
    · exact h.refOf_eq
    · have hr := h'.refOf_eq y hy
      unfold refOf at hr ⊢
      rw [h.get?_eq] at hr
      split at hr
      · cases hr
      · exact hr
  · rw [h'.get?_eq, h.get?_eq]
    by_cases hyx : y = x
    · simp [hyx]
    · simp [hyx]
  · rw [h'.free, h.free, length_cons]
    omega

lemma evictLoop_spec (h : m.Kept) (n : ℕ) : ∃ evicted m', Evicted m m' evicted ∧
    evicted.length = min n m.reachable ∧ (evicted = [] → m' = m) ∧
    evictLoop n m = (if m.reachable < n then none else some evicted, m') := by
  induction n generalizing m with
  | zero =>
    refine ⟨[], m, ⟨h, by simp, by simp, rfl, rfl, by simp⟩, by simp, fun _ => rfl, ?_⟩
    rfl
  | succ n ih =>
    unfold evictLoop
    rcases evictOne_spec h with ⟨hnone, hzero⟩ | ⟨x, m1, hsome, hone⟩
    · refine ⟨[], m, ⟨h, by simp, by simp, rfl, rfl, by simp⟩, by simp [hzero], fun _ => rfl, ?_⟩
      rw [hnone, hzero, if_pos (Nat.succ_pos n)]
    · obtain ⟨evicted, m', hev, hlen, -, hloop⟩ := ih hone.kept
      have hreach := hone.reachable
      refine ⟨x :: evicted, m', hev.cons hone, ?_, by simp, ?_⟩
      · rw [length_cons]
        omega
      · rw [hsome]
        simp only [hloop]
        by_cases hlt : m1.reachable < n
        · rw [if_pos hlt, if_pos (by omega)]
          rfl
        · rw [if_neg hlt, if_neg (by omega)]
          rfl

/-- The hashes of `hs` that are in neither cache. -/
def toStore (m : ARCOffloadingManager F) (hs : List BlockHash) : List BlockHash :=
  hs.filter fun h => !m.t1.contains h && !m.t2.contains h

/-- How many blocks must go for the new ones among `hs` to fit. -/
def needed (m : ARCOffloadingManager F) (hs : List BlockHash) : ℕ :=
  ((m.toStore hs).length - m.backend.getNumFreeBlocks).toNat

omit [TargetSize F] in
lemma mem_toStore : x ∈ m.toStore hs ↔ x ∈ hs ∧ m.get? x = none := by
  unfold toStore
  rw [mem_filter, get?_eq_none]
  simp [Dict.contains]

omit [TargetSize F] in
lemma insertLoop_spec {items : List (BlockHash × CPUBlockStatus)}
    (hdisj : ∀ h, m.t1.get? h = none ∨ m.t2.get? h = none)
    (hacc : m.backend.Accounts (ids m.t1 ++ ids m.t2 ++ items.map (·.2.blockId)))
    (hnd : (items.map Prod.fst).Nodup) (hnew : ∀ x ∈ items.map Prod.fst, m.get? x = none)
    (href : ∀ item ∈ items, item.2.refCnt = -1) : (insertLoop items m).Kept ∧ SameBackend m (insertLoop items m) ∧
      (∀ y, y ∉ items.map Prod.fst → (insertLoop items m).get? y = m.get? y) ∧
      ∀ y, (insertLoop items m).refOf y = if y ∈ items.map Prod.fst then some (-1) else m.refOf y := by
  induction items generalizing m with
  | nil =>
    rw [map_nil, append_nil] at hacc
    exact ⟨⟨hdisj, hacc⟩, .refl m, fun _ _ => rfl, fun _ => rfl⟩
  | cons item rest ih =>
    obtain ⟨x, b⟩ := item
    rw [map_cons, nodup_cons] at hnd
    obtain ⟨hx1, hx2⟩ := get?_eq_none.mp (hnew x mem_cons_self)
    set m1 : ARCOffloadingManager F := { m with
      t1 := m.t1.set x b
      b1 := m.b1.erase x
      b2 := m.b2.erase x } with hm1
    have hget : ∀ y, m1.get? y = if y = x then some b else m.get? y := by
      intro y
      unfold get?
      rw [hm1]
      simp only [get?_set]
      by_cases hy : y = x
      · simp [hy]
      · simp [hy]
    have hdisj1 : ∀ h, m1.t1.get? h = none ∨ m1.t2.get? h = none := by
      intro y
      rw [hm1, get?_set]
      by_cases hy : y = x
      · exact .inr (hy.symm ▸ hx2)
      · rw [if_neg hy]
        exact hdisj y
    have hids : ids m1.t1 = ids m.t1 ++ [b.blockId] := by
      unfold ids
      rw [hm1, values_set_of_new b hx1, map_append]
      rfl
    have hacc1 : m1.backend.Accounts (ids m1.t1 ++ ids m1.t2 ++ rest.map (·.2.blockId)) := by
      rw [hids]
      refine hacc.of_perm ?_
      rw [perm_iff_count]
      intro i
      have ht2 : ids m1.t2 = ids m.t2 := rfl
      simp only [ht2, map_cons, count_append, count_cons, count_nil]
      omega
    have hnew1 : ∀ y ∈ rest.map Prod.fst, m1.get? y = none := by
      intro y hy
      have hne : y ≠ x := fun he => hnd.1 (he ▸ hy)
      rw [hget, if_neg hne]
      exact hnew y (mem_cons_of_mem _ hy)
    obtain ⟨hk, hsame, hold, hrefs⟩ := ih hdisj1 hacc1 hnd.2 hnew1 fun i hi => href i (mem_cons_of_mem _ hi)
    refine ⟨hk, ⟨hsame.1, hsame.2⟩, fun y hy => ?_, fun y => ?_⟩
    · rw [map_cons, mem_cons, not_or] at hy
      change (insertLoop rest m1).get? y = _
      rw [hold y hy.2, hget, if_neg hy.1]
    · change (insertLoop rest m1).refOf y = _
      have hone : m1.refOf y = if y = x then some (-1) else m.refOf y := by
        unfold refOf
        rw [hget]
        split
        · rw [Option.map_some, href _ mem_cons_self]
        · rfl
      rw [hrefs, hone, map_cons]
      simp only [mem_cons]
      by_cases hy : y ∈ rest.map Prod.fst
      · simp [hy]
      · simp [hy]

/-- What a successful `prepare_store` does. -/
structure Prepared (m m' : ARCOffloadingManager F) (hs : List BlockHash)
    (out : PrepareStoreOutput) : Prop where
  toStore_eq : out.blockHashesToStore = m.toStore hs
  length_evicted : out.blockHashesEvicted.length = m.needed hs
  evicted_idle : ∀ x ∈ out.blockHashesEvicted, m.refOf x = some 0
  kept : m'.Kept
  numBlocks : m'.backend.numBlocks = m.backend.numBlocks
  cacheCapacity : m'.cacheCapacity = m.cacheCapacity
  refOf_eq : ∀ y, m'.refOf y = if y ∈ out.blockHashesToStore then some (-1)
    else if y ∈ out.blockHashesEvicted then none else m.refOf y
  idOf_eq : ∀ y, y ∉ out.blockHashesToStore → y ∉ out.blockHashesEvicted → m'.idOf y = m.idOf y

lemma prepareStore_of_none (hne : m.toStore hs ≠ [])
    (hloop : evictLoop (m.needed hs) m = (none, m')) : m.prepareStore hs = .ok (none, m') := by
  have hne' : hs.filter (fun h => !m.t1.contains h && !m.t2.contains h) ≠ [] := hne
  have hloop' : evictLoop (((hs.filter fun h => !m.t1.contains h && !m.t2.contains h).length : ℤ) -
    m.backend.getNumFreeBlocks).toNat m = (none, m') := hloop
  unfold prepareStore
  simp only [if_neg hne', hloop', pure_eq_ok]

lemma prepareStore_of_some (hne : m.toStore hs ≠ [])
    (hloop : evictLoop (m.needed hs) m = (some evicted, m')) {blocks : List CPUBlockStatus}
    {backend : CPUBackend} (halloc : m'.backend.allocateBlocks (m.toStore hs) = .ok (blocks, backend))
    (hlen : blocks.length = (m.toStore hs).length) : m.prepareStore hs = .ok
      (some ⟨m.toStore hs, CPUBackend.getLoadStoreSpec blocks, evicted⟩,
        insertLoop ((m.toStore hs).zip blocks) { m' with
          b1 := m'.trimGhosts m'.b1
          b2 := m'.trimGhosts m'.b2
          events := emitEvent m'.events m'.backend evicted true
          backend }) := by
  have hne' : hs.filter (fun h => !m.t1.contains h && !m.t2.contains h) ≠ [] := hne
  have hloop' : evictLoop (((hs.filter fun h => !m.t1.contains h && !m.t2.contains h).length : ℤ) -
    m.backend.getNumFreeBlocks).toNat m = (some evicted, m') := hloop
  unfold prepareStore
  simp only [if_neg hne', hloop']
  change (m'.backend.allocateBlocks (m.toStore hs) >>= _) = _
  rw [halloc]
  change (ensure (blocks.length = (m.toStore hs).length) _ >>= _) = _
  rw [ensure_of hlen]
  rfl

/-- `prepare_store` gives up exactly if it cannot reach enough blocks, having evicted all it could
reach. -/
theorem prepareStore_spec (h : m.Kept) (hnd : hs.Nodup) :
    (m.reachable < m.needed hs ∧ ∃ evicted m', m.prepareStore hs = .ok (none, m') ∧
      Evicted m m' evicted ∧ evicted.length = m.reachable ∧ (m.reachable = 0 → m' = m)) ∨
    (m.needed hs ≤ m.reachable ∧ ∃ out m', m.prepareStore hs = .ok (some out, m') ∧ Prepared m m' hs out) := by
  have hfree0 : 0 ≤ m.backend.getNumFreeBlocks := by
    have hle := h.accounts.allocated_le
    unfold CPUBackend.getNumFreeBlocks
    omega
  by_cases hempty : m.toStore hs = []
  · have hneed : m.needed hs = 0 := by
      unfold needed
      rw [hempty, length_nil]
      omega
    rw [hneed]
    exact .inr ⟨Nat.zero_le _, _, m, if_pos hempty, hempty.symm, hneed.symm, by simp,
      h, rfl, rfl, by simp, fun _ _ _ => rfl⟩
  · obtain ⟨evicted, m1, hev, hlen, hsame, hloop⟩ := evictLoop_spec h (m.needed hs)
    by_cases hlt : m.reachable < m.needed hs
    · rw [if_pos hlt] at hloop
      refine .inl ⟨hlt, evicted, m1, prepareStore_of_none hempty hloop, hev, by omega, fun hzero => hsame ?_⟩
      rw [← length_eq_zero_iff]
      omega
    · rw [if_neg hlt] at hloop
      have hevlen : evicted.length = m.needed hs := by omega
      have hroom : ((m.toStore hs).length : ℤ) ≤ m1.backend.getNumFreeBlocks := by
        rw [hev.free, hevlen]
        unfold needed
        omega
      obtain ⟨blocks, backend, halloc, hblocks, hrefs, hacc, hnum⟩ := hev.kept.accounts.allocateBlocks hroom
      have hfst : ((m.toStore hs).zip blocks).map Prod.fst = m.toStore hs := map_fst_zip hblocks.ge
      have hsnd : ((m.toStore hs).zip blocks).map (·.2.blockId) = blocks.map (·.blockId) := by
        have hzip := congrArg (List.map (·.blockId))
          (show ((m.toStore hs).zip blocks).map Prod.snd = blocks from map_snd_zip hblocks.le)
        rw [map_map] at hzip
        exact hzip
      set m2 : ARCOffloadingManager F := { m1 with
        b1 := m1.trimGhosts m1.b1
        b2 := m1.trimGhosts m1.b2
        events := emitEvent m1.events m1.backend evicted true
        backend }
      have hnew : ∀ x ∈ ((m.toStore hs).zip blocks).map Prod.fst, m2.get? x = none := by
        intro x hx
        rw [hfst] at hx
        change m1.get? x = none
        rw [hev.get?_eq, (mem_toStore.mp hx).2, ite_self]
      obtain ⟨hk, hsame2, hold, href⟩ := insertLoop_spec (m := m2) hev.kept.disjoint
        (by rw [hsnd]; exact hacc) (by rw [hfst]; exact hnd.filter _) hnew
        (fun item hitem => hrefs _ (of_mem_zip hitem).2)
      rw [hfst] at hold href
      refine .inr ⟨not_lt.mp hlt, _, _, prepareStore_of_some hempty hloop halloc hblocks, rfl,
        hevlen, hev.refOf_eq, hk, ?_, ?_, fun y => ?_, fun y hy hye => ?_⟩
      · rw [hsame2.backend]
        exact hnum.trans hev.numBlocks
      · rw [hsame2.cacheCapacity]
        exact hev.cacheCapacity
      · rw [href]
        have hm1 : m2.refOf y = if y ∈ evicted then none else m.refOf y := by
          change (m1.get? y).map _ = _
          rw [hev.get?_eq, apply_ite (Option.map CPUBlockStatus.refCnt)]
          rfl
        rw [hm1]
      · change ((insertLoop _ m2).get? y).map _ = _
        rw [hold y hy]
        change (m1.get? y).map _ = _
        rw [hev.get?_eq, if_neg hye]
        rfl

end ARCOffloadingManager

end CustomAi.Vllm
