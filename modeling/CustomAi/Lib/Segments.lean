import Mathlib.Algebra.BigOperators.Group.List.Basic
import Mathlib.Algebra.GroupWithZero.Nat
import Mathlib.Algebra.Order.Group.Nat
import Mathlib.Data.List.Nodup

/-!
# Lists made of segments

A list that consists of a segment for each of a list of keys, the start of each segment, and what
writing rows at a position does to it.
-/

namespace CustomAi.Segments

open List Function

universe u v w

variable {κ : Type u} {α : Type v} {β : Type w}

/-- The rows from `start` on are replaced. -/
def writeAt (l : List α) (start : ℕ) (rows : List α) : List α :=
  l.take start ++ rows ++ l.drop (start + rows.length)

def total (len : κ → ℕ) (keys : List κ) : ℕ := (keys.map len).sum

def start [DecidableEq κ] (len : κ → ℕ) (x : κ) : List κ → ℕ
  | [] => 0
  | k :: keys => if k = x then 0 else len k + start len x keys

variable {l : List α} {i : ℕ} {x : α} {rows : List α}

@[simp] lemma writeAt_nil (l : List α) (i : ℕ) : writeAt l i [] = l := by
  unfold writeAt
  rw [append_nil, length_nil, Nat.add_zero, take_append_drop]

lemma length_writeAt (h : i + rows.length ≤ l.length) : (writeAt l i rows).length = l.length := by
  unfold writeAt
  rw [length_append, length_append, length_take, length_drop]
  omega

lemma set_writeAt (x : α) (h : i + rows.length < l.length) :
    (writeAt l i rows).set (i + rows.length) x = writeAt l i (rows ++ [x]) := by
  unfold writeAt
  have hfront : (l.take i ++ rows).length = i + rows.length := by
    rw [length_append, length_take]
    omega
  have hdrop : l.drop (i + rows.length) = l.get ⟨i + rows.length, h⟩ :: l.drop (i + (rows ++ [x]).length) := by
    rw [length_append, length_singleton]
    exact drop_eq_getElem_cons h
  rw [← hfront, set_append_right _ _ le_rfl, Nat.sub_self, hfront, hdrop, set_cons_zero,
    ← append_assoc, append_assoc _ [x], singleton_append]

lemma writeAt_append {rows' : List α} (h : i + rows.length ≤ l.length) :
    writeAt (writeAt l i rows) (i + rows.length) rows' = writeAt l i (rows ++ rows') := by
  have hfront : (l.take i ++ rows).length = i + rows.length := by
    rw [length_append, length_take]
    omega
  unfold writeAt
  rw [take_append_of_le_length hfront.ge, take_of_length_le hfront.le, drop_append, hfront, Nat.add_sub_cancel_left,
    drop_eq_nil_of_le (by rw [hfront]; exact Nat.le_add_right _ _), nil_append,
    drop_drop, length_append, append_assoc _ rows rows', Nat.add_assoc]

lemma getElem?_writeAt_of_not {j : ℕ} (h : i + rows.length ≤ l.length)
    (hj : j < i ∨ i + rows.length ≤ j) : (writeAt l i rows)[j]? = l[j]? := by
  have htake : (l.take i).length = i := length_take_of_le (Nat.le_of_add_right_le h)
  unfold writeAt
  rw [append_assoc]
  rcases hj with hj | hj
  · rw [List.getElem?_append_left (by rwa [htake]), List.getElem?_take_of_lt hj]
  · rw [List.getElem?_append_right (by omega), List.getElem?_append_right (by omega), List.getElem?_drop]
    congr 1
    omega

lemma take_writeAt_zero (l rows : List α) : (writeAt l 0 rows).take rows.length = rows := by
  unfold writeAt
  rw [take_zero, nil_append, take_append_of_le_length le_rfl, take_length]

lemma total_cons (len : κ → ℕ) (k : κ) (keys : List κ) : total len (k :: keys) = len k + total len keys := by
  unfold total
  rw [map_cons, sum_cons]

variable {keys : List κ} {F : κ → List α} {len : κ → ℕ}

lemma length_flatMap (hF : ∀ k ∈ keys, (F k).length = len k) : (keys.flatMap F).length = total len keys := by
  rw [List.length_flatMap]
  congr 1
  exact map_congr_left hF

lemma zipWith_flatMap {γ : Type*} (f : α → β → γ) {G : κ → List β}
    (h : ∀ k ∈ keys, (F k).length = (G k).length) : zipWith f (keys.flatMap F) (keys.flatMap G) =
      keys.flatMap fun k => zipWith f (F k) (G k) := by
  induction keys with
  | nil => rfl
  | cons k keys ih =>
    rw [flatMap_cons, flatMap_cons, flatMap_cons, zipWith_append (h k mem_cons_self),
      ih fun k' hk' => h k' (mem_cons_of_mem k hk')]

variable [DecidableEq κ]

lemma start_cons (len : κ → ℕ) (x k : κ) (keys : List κ) :
    start len x (k :: keys) = if k = x then 0 else len k + start len x keys := rfl

lemma start_add_le {k : κ} (hk : k ∈ keys) : start len k keys + len k ≤ total len keys := by
  induction keys with
  | nil => exact absurd hk not_mem_nil
  | cons a keys ih =>
    rw [total_cons]
    unfold start
    split
    · next ha =>
      rw [ha]
      omega
    · next ha =>
      have hrest := ih ((mem_cons.mp hk).resolve_left fun h => ha h.symm)
      omega

lemma writeAt_start (hnd : keys.Nodup) (hF : ∀ k ∈ keys, (F k).length = len k) {k : κ}
    (hk : k ∈ keys) (hrows : rows.length = len k) : writeAt (keys.flatMap F) (start len k keys) rows =
      keys.flatMap (Function.update F k rows) := by
  induction keys with
  | nil => exact absurd hk not_mem_nil
  | cons a keys ih =>
    obtain ⟨ha, hnd⟩ := nodup_cons.mp hnd
    have hFa := hF a mem_cons_self
    have hrest : ∀ k' ∈ keys, (F k').length = len k' := fun k' hk' =>
      hF k' (mem_cons_of_mem a hk')
    rw [flatMap_cons, flatMap_cons]
    unfold start
    by_cases hak : a = k
    · rw [if_pos hak]
      subst hak
      have hsame : keys.flatMap (Function.update F a rows) = keys.flatMap F := by
        refine flatMap_congr fun k' hk' => ?_
        have hne : k' ≠ a := fun h => ha (h ▸ hk')
        rw [update_of_ne hne]
      rw [update_self, hsame]
      unfold writeAt
      rw [take_zero, nil_append, Nat.zero_add, hrows, ← hFa, drop_left]
    · rw [if_neg hak, update_of_ne hak]
      have hmem := (mem_cons.mp hk).resolve_left fun h => hak h.symm
      rw [← ih hnd hrest hmem]
      unfold writeAt
      rw [← hFa, take_length_add_append, Nat.add_assoc, drop_length_add_append,
        append_assoc, append_assoc, append_assoc]

end CustomAi.Segments
