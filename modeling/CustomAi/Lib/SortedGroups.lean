import Mathlib.Data.List.Sort
import CustomAi.Lib.Dict

/-!
# Sorting, grouping and unique values

`np.unique`, `np.lexsort`, `np.searchsorted` and the splitting of a sorted array where its keys
change.
-/

namespace CustomAi

open List

universe u

variable {α : Type u} [DecidableEq α]

/-- `x[np.sort(np.unique(x, return_index=True)[1])]`: the values in the order of their first
occurrences. -/
def uniqueInOrder : List α → List α
  | [] => []
  | x :: l => x :: (uniqueInOrder l).filter (· ≠ x)

lemma mem_uniqueInOrder {x : α} {l : List α} : x ∈ uniqueInOrder l ↔ x ∈ l := by
  induction l with
  | nil => exact Iff.rfl
  | cons y l ih =>
    unfold uniqueInOrder
    rw [mem_cons, mem_cons, mem_filter, decide_eq_true_iff]
    tauto

lemma nodup_uniqueInOrder (l : List α) : (uniqueInOrder l).Nodup := by
  induction l with
  | nil => exact nodup_nil
  | cons y l ih =>
    refine nodup_cons.mpr ⟨fun h => ?_, ih.filter _⟩
    rw [mem_filter, decide_eq_true_iff] at h
    exact h.2 rfl

/-- `np.unique(l, return_index=True)` -/
def npUnique (l : List ℤ) : List (ℤ × ℕ) :=
  (l.dedup.mergeSort (fun x y => decide (x ≤ y))).map fun x => (x, l.idxOf x)

lemma pairwise_npUnique (l : List ℤ) : (npUnique l).Pairwise fun x y => x.1 < y.1 := by
  unfold npUnique
  rw [pairwise_map]
  have hsorted : (l.dedup.mergeSort fun x y => decide (x ≤ y)).Pairwise fun x y =>
      decide (x ≤ y) = true := pairwise_mergeSort
    (fun a b c hab hbc => decide_eq_true ((of_decide_eq_true hab).trans (of_decide_eq_true hbc)))
    (fun a b => by
      rcases le_total a b with h | h
      · rw [decide_eq_true h, Bool.true_or]
      · rw [decide_eq_true h, Bool.or_true]) l.dedup
  have hnd : (l.dedup.mergeSort fun x y => decide (x ≤ y)).Nodup := (mergeSort_perm _ _).nodup_iff.mpr l.nodup_dedup
  refine (hsorted.and hnd).imp fun {x y} h => ?_
  exact lt_of_le_of_ne (of_decide_eq_true h.1) h.2

variable {l : List (ℤ × ℕ)} {β : Type} {x : ℤ × ℕ}

lemma mem_npUnique {l : List ℤ} : x ∈ npUnique l ↔ x.1 ∈ l ∧ x.2 = l.idxOf x.1 := by
  unfold npUnique
  rw [mem_map]
  constructor
  · rintro ⟨y, hy, rfl⟩
    rw [mem_mergeSort, mem_dedup] at hy
    exact ⟨hy, rfl⟩
  · rintro ⟨hx, hidx⟩
    refine ⟨x.1, ?_, ?_⟩
    · rw [mem_mergeSort, mem_dedup]
      exact hx
    · rw [← hidx]

/-- The keys of `rows`, each with the value of its first row. -/
def firstRows (rows : List (ℤ × ℕ)) : List (ℤ × ℕ) :=
  (npUnique (rows.map Prod.fst)).filterMap fun x => (rows[x.2]?).map fun y => (x.1, y.2)

variable {rows : List (ℤ × ℕ)}

lemma mem_of_mem_firstRows (hx : x ∈ firstRows rows) : x ∈ rows := by
  obtain ⟨y, hy, hget⟩ := mem_filterMap.mp hx
  obtain ⟨z, hz, rfl⟩ := Option.map_eq_some_iff.mp hget
  obtain ⟨hmem, hidx⟩ := mem_npUnique.mp hy
  have hkey : (rows.map Prod.fst)[y.2]? = some y.1 := by
    rw [hidx]
    exact List.getElem?_idxOf hmem
  rw [List.getElem?_map, hz] at hkey
  rw [← Option.some.inj hkey]
  exact mem_of_getElem? hz

lemma exists_mem_firstRows {key : ℤ} (hkey : key ∈ rows.map Prod.fst) : ∃ row, (key, row) ∈ firstRows rows := by
  have hidx := idxOf_lt_length_iff.mpr hkey
  rw [length_map] at hidx
  refine ⟨(rows.get ⟨_, hidx⟩).2, mem_filterMap.mpr
    ⟨(key, (rows.map Prod.fst).idxOf key), mem_npUnique.mpr ⟨hkey, rfl⟩, ?_⟩⟩
  rw [List.getElem?_eq_getElem hidx]
  rfl

lemma pairwise_firstRows (rows : List (ℤ × ℕ)) : (firstRows rows).Pairwise fun x y => x.1 < y.1 := by
  unfold firstRows
  rw [pairwise_filterMap]
  refine (pairwise_npUnique _).imp fun {x y} h => ?_
  intro a ha b hb
  obtain ⟨_, -, rfl⟩ := Option.map_eq_some_iff.mp ha
  obtain ⟨_, -, rfl⟩ := Option.map_eq_some_iff.mp hb
  exact h

/-- The order of `np.lexsort((second, first))`. -/
def lexLe (x y : ℤ × ℕ) : Bool := decide (x.1 < y.1 ∨ x.1 = y.1 ∧ x.2 ≤ y.2)

lemma pairwise_lexsort (l : List (ℤ × ℕ)) : (l.mergeSort lexLe).Pairwise fun x y => lexLe x y = true := by
  refine pairwise_mergeSort (fun a b c hab hbc => ?_) (fun a b => ?_) l
  · unfold lexLe at hab hbc ⊢
    rw [decide_eq_true_iff] at hab hbc ⊢
    omega
  · unfold lexLe
    rw [Bool.or_eq_true, decide_eq_true_iff, decide_eq_true_iff]
    omega

lemma filter_lexsort (hl : l.Pairwise fun x y => x.2 ≤ y.2) (key : ℤ) :
    (l.mergeSort lexLe).filter (fun x => x.1 = key) = l.filter fun x => x.1 = key := by
  have hperm := (mergeSort_perm l lexLe).filter fun x => decide (x.1 = key)
  refine hperm.eq_of_pairwise (fun x y _ _ hxy hyx => ?_) ((pairwise_lexsort l).filter _) ?_
  · unfold lexLe at hxy hyx
    rw [decide_eq_true_iff] at hxy hyx
    exact Prod.ext (by omega) (by omega)
  · refine List.Pairwise.imp_of_mem (fun {x y} hx hy hle => ?_) (hl.filter _)
    have hxkey := of_decide_eq_true (mem_filter.mp hx).2
    have hykey := of_decide_eq_true (mem_filter.mp hy).2
    exact decide_eq_true (.inr ⟨hxkey.trans hykey.symm, hle⟩)

def runs : List (ℤ × ℕ) → List (ℤ × List ℕ)
  | [] => []
  | x :: l =>
    match runs l with
    | [] => [(x.1, [x.2])]
    | y :: rest => if x.1 = y.1 then (x.1, x.2 :: y.2) :: rest else (x.1, [x.2]) :: y :: rest

lemma runs_spec (hl : l.Pairwise fun x y => x.1 ≤ y.1) : ((runs l).Pairwise fun x y => x.1 < y.1) ∧
      ∀ z, z ∈ runs l ↔ z.1 ∈ l.map Prod.fst ∧ z.2 = (l.filter fun x => x.1 = z.1).map Prod.snd := by
  induction l with
  | nil => exact ⟨.nil, fun z => by simp [runs]⟩
  | cons x l ih =>
    obtain ⟨hx, hl⟩ := pairwise_cons.mp hl
    obtain ⟨hsorted, hmem⟩ := ih hl
    have hkeys : ∀ key ∈ l.map Prod.fst, x.1 ≤ key := by
      intro key hkey
      obtain ⟨y, hy, rfl⟩ := mem_map.mp hkey
      exact hx y hy
    unfold runs
    cases hruns : runs l with
    | nil =>
      have hnil : l = [] := by
        cases l with
        | nil => rfl
        | cons y l =>
          have hy := (hmem (y.1, ((y :: l).filter fun x => x.1 = y.1).map Prod.snd)).mpr
            ⟨mem_cons_self, rfl⟩
          rw [hruns] at hy
          exact absurd hy not_mem_nil
      subst hnil
      refine ⟨pairwise_singleton _ _, fun z => ?_⟩
      rw [mem_singleton, map_singleton, mem_singleton]
      constructor
      · rintro rfl
        exact ⟨rfl, by simp⟩
      · rintro ⟨hkey, hrows⟩
        refine Prod.ext hkey ?_
        rw [hrows, filter_singleton, ← hkey]
        simp
    | cons y rest =>
      rw [hruns] at hsorted hmem
      obtain ⟨hrest, hsorted⟩ := pairwise_cons.mp hsorted
      have hy := (hmem y).mp mem_cons_self
      have hfirst : ∀ key ∈ l.map Prod.fst, y.1 ≤ key := by
        intro key hkey
        have hz := (hmem (key, (l.filter fun x => x.1 = key).map Prod.snd)).mpr ⟨hkey, rfl⟩
        rcases mem_cons.mp hz with hz | hz
        · exact (congrArg Prod.fst hz).ge
        · exact (hrest _ hz).le
      dsimp only
      by_cases hxy : x.1 = y.1
      · rw [if_pos hxy]
        refine ⟨pairwise_cons.mpr ⟨fun z hz => hxy ▸ hrest z hz, hsorted⟩, fun z => ?_⟩
        rw [mem_cons, map_cons, mem_cons]
        by_cases hz : z.1 = x.1
        · have hnot : z ∉ rest := fun h => (hrest z h).ne (hxy ▸ hz.symm)
          have hfilter : ((x :: l).filter fun x => x.1 = z.1).map Prod.snd = x.2 :: y.2 := by
            rw [filter_cons, if_pos (decide_eq_true hz.symm), map_cons, hy.2, hz, hxy]
          rw [or_iff_left hnot, hfilter]
          constructor
          · rintro rfl
            exact ⟨.inl rfl, rfl⟩
          · rintro ⟨-, hrows⟩
            exact Prod.ext hz hrows
        · have hfilter : ((x :: l).filter fun x => x.1 = z.1) = l.filter fun x => x.1 = z.1 := by
            rw [filter_cons, if_neg (by simpa using fun h => hz h.symm)]
          have hne : z ≠ (x.1, x.2 :: y.2) := fun h => hz (congrArg Prod.fst h)
          have hney : z ≠ y := fun h => hz ((congrArg Prod.fst h).trans hxy.symm)
          rw [hfilter, or_iff_right hne, or_iff_right hz, ← hmem, mem_cons, or_iff_right hney]
      · rw [if_neg hxy]
        have hlt : x.1 < y.1 := lt_of_le_of_ne (hkeys _ hy.1) hxy
        refine ⟨pairwise_cons.mpr ⟨fun z hz => ?_, pairwise_cons.mpr
          ⟨hrest, hsorted⟩⟩, fun z => ?_⟩
        · rcases mem_cons.mp hz with rfl | hz
          · exact hlt
          · exact hlt.trans (hrest z hz)
        · have hcons : z.1 ∈ (x :: l).map Prod.fst ↔ z.1 = x.1 ∨ z.1 ∈ l.map Prod.fst := by
            rw [map_cons, mem_cons]
          rw [mem_cons, hcons]
          by_cases hz : z.1 = x.1
          · have hnot : z ∉ y :: rest := by
              intro h
              have hkey := hfirst _ ((hmem z).mp h).1
              omega
            have hfilter : (l.filter fun x => x.1 = z.1) = [] := by
              refine filter_eq_nil_iff.mpr fun w hw h => ?_
              have hkey := hfirst _ (mem_map_of_mem hw)
              have hwz := of_decide_eq_true h
              omega
            rw [or_iff_left hnot, filter_cons, if_pos (decide_eq_true hz.symm), hfilter]
            constructor
            · rintro rfl
              exact ⟨.inl rfl, rfl⟩
            · rintro ⟨-, hrows⟩
              exact Prod.ext hz hrows
          · have hfilter : ((x :: l).filter fun x => x.1 = z.1) = l.filter fun x => x.1 = z.1 := by
              rw [filter_cons, if_neg (by simpa using fun h => hz h.symm)]
            have hne : z ≠ (x.1, [x.2]) := fun h => hz (congrArg Prod.fst h)
            rw [hfilter, or_iff_right hne, or_iff_right hz, hmem]

/-- `{key: value for key, value in l}` -/
def dictOf {β : Type} (l : List (ℤ × β)) : Dict ℤ β := l.foldl (fun d x => d.set x.1 x.2) .empty

lemma get?_dictOf {l : List (ℤ × β)} (hl : l.Pairwise fun x y => x.1 < y.1) :
    (∀ x ∈ l, (dictOf l).get? x.1 = some x.2) ∧ ∀ key, key ∉ l.map Prod.fst → (dictOf l).get? key = none := by
  have hfrom : ∀ d : Dict ℤ β, (∀ x ∈ l, (l.foldl (fun d x => d.set x.1 x.2) d).get? x.1 = some x.2) ∧
        ∀ key, key ∉ l.map Prod.fst → (l.foldl (fun d x => d.set x.1 x.2) d).get? key = d.get? key := by
    induction l with
    | nil => exact fun d => ⟨fun x hx => absurd hx not_mem_nil, fun _ _ => rfl⟩
    | cons y l ih =>
      intro d
      obtain ⟨hy, hl⟩ := pairwise_cons.mp hl
      obtain ⟨hin, hout⟩ := ih hl (d.set y.1 y.2)
      rw [foldl_cons]
      refine ⟨fun x hx => ?_, fun key hkey => ?_⟩
      · rcases mem_cons.mp hx with rfl | hx
        · rw [hout, Dict.get?_set_self]
          intro h
          obtain ⟨z, hz, hkey⟩ := mem_map.mp h
          exact (hy z hz).ne hkey.symm
        · exact hin x hx
      · rw [map_cons, mem_cons, not_or] at hkey
        rw [hout key hkey.2, Dict.get?_set_of_ne _ _ hkey.1]
  obtain ⟨hin, hout⟩ := hfrom .empty
  exact ⟨hin, fun key hkey => (hout key hkey).trans (Dict.get?_empty key)⟩

lemma entries_dictOf {l : List (ℤ × β)} (hl : l.Pairwise fun x y => x.1 < y.1) : (dictOf l).entries = l := by
  have hfrom : ∀ d : Dict ℤ β, (∀ x ∈ l, x.1 ∉ d.entries.map Prod.fst) →
      (l.foldl (fun d x => d.set x.1 x.2) d).entries = d.entries ++ l := by
    induction l with
    | nil => exact fun d _ => (append_nil _).symm
    | cons y l ih =>
      intro d hd
      obtain ⟨hy, hl⟩ := pairwise_cons.mp hl
      have hset : (d.set y.1 y.2).entries = d.entries ++ [y] := Dict.assign_of_not_mem y.1 y.2 (hd y mem_cons_self)
      rw [foldl_cons, ih hl, hset, append_assoc, singleton_append]
      intro x hx hmem
      rw [hset, map_append, mem_append] at hmem
      rcases hmem with hmem | hmem
      · exact hd x (mem_cons_of_mem y hx) hmem
      · exact (hy x hx).ne (mem_singleton.mp hmem).symm
  exact hfrom .empty fun _ _ => not_mem_nil

/-- `np.searchsorted(l, x)` -/
def npSearchsorted (l : List ℤ) (x : ℤ) : ℕ := (l.takeWhile fun y => decide (y < x)).length

lemma npSearchsorted_getElem? {l : List ℤ} (hl : l.Pairwise (· < ·)) {x : ℤ} (hx : x ∈ l) :
    l[npSearchsorted l x]? = some x := by
  induction l with
  | nil => exact absurd hx not_mem_nil
  | cons y l ih =>
    obtain ⟨hy, hl⟩ := pairwise_cons.mp hl
    unfold npSearchsorted
    rw [takeWhile_cons]
    rcases mem_cons.mp hx with rfl | hx
    · rw [if_neg (by simp)]
      rfl
    · rw [if_pos (decide_eq_true (hy x hx)), length_cons]
      exact ih hl hx

end CustomAi
