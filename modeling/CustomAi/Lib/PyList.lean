import Mathlib.Tactic.Linarith

/-!
# Indexing lists from either end

Python's `l[i]` and `l[i] = x`, where a negative index counts from the end.
-/

namespace CustomAi

open List

universe u

variable {α : Type u}

def pyIndex (l : List α) (i : ℤ) : Option ℕ :=
  if 0 ≤ i then (if i < l.length then some i.toNat else none)
  else if 0 ≤ l.length + i then some (l.length + i).toNat else none

def pyGet? (l : List α) (i : ℤ) : Option α := (pyIndex l i).bind (fun n => l[n]?)

def pySet (l : List α) (i : ℤ) (x : α) : List α :=
  match pyIndex l i with
  | none => l
  | some n => l.set n x

/-- Python's `l[:i]`. -/
def pyTake (l : List α) (i : ℤ) : List α :=
  l.take (if 0 ≤ i then i.toNat else (l.length + i).toNat)

/-- Python's `l[i:j]`. -/
def pySlice (l : List α) (i j : ℤ) : List α :=
  (pyTake l j).drop (if 0 ≤ i then i.toNat else (l.length + i).toNat)

section

variable (l : List α) (n : ℕ)
include l n

@[simp] lemma pyTake_natCast : pyTake l n = l.take n := by
  simp [pyTake]

@[simp] lemma pyGet?_natCast : pyGet? l n = l[n]? := by
  unfold pyGet? pyIndex
  by_cases h : (n : ℤ) < l.length
  · simp [h]
  · have h' : l.length ≤ n := by omega
    simp [h, h']

@[simp] lemma pySet_natCast (x : α) : pySet l n x = l.set n x := by
  unfold pySet pyIndex
  by_cases h : (n : ℤ) < l.length
  · simp [h]
  · have h' : l.length ≤ n := by omega
    simp [h, set_eq_of_length_le h']

lemma pySlice_neg : pySlice l (-(n : ℤ)) l.length = if n = 0 then l else l.drop (l.length - n) := by
  unfold pySlice
  rw [pyTake_natCast, take_length]
  by_cases hn : n = 0
  · simp [hn]
  · have hneg : ¬(0 : ℤ) ≤ -(n : ℤ) := by omega
    have hto : ((l.length : ℤ) + -(n : ℤ)).toNat = l.length - n := by omega
    rw [if_neg hneg, if_neg hn, hto]

end

section

variable [DecidableEq α] {v x : α} {l : List α} {k : ℕ}

lemma take_erase_of_mem (hv : v ∈ l.take (k + 1)) : (l.erase v).take k = (l.take (k + 1)).erase v := by
  induction l generalizing k with
  | nil => simp
  | cons a l ih =>
    by_cases ha : a = v
    · subst ha
      simp
    · rw [erase_cons_tail (by simpa using ha), take_succ_cons, erase_cons_tail (by simpa using ha)]
      cases k with
      | zero => simp [Ne.symm ha] at hv
      | succ k =>
        rw [take_succ_cons, ih]
        simpa [Ne.symm ha] using hv

lemma mem_take_erase (hx : x ∈ l.take k) (hne : x ≠ v) : x ∈ (l.erase v).take k := by
  induction l generalizing k with
  | nil => simp at hx
  | cons a l ih =>
    cases k with
    | zero => simp at hx
    | succ k =>
      rw [take_succ_cons, mem_cons] at hx
      by_cases ha : a = v
      · subst ha
        rw [erase_cons_head]
        exact take_subset_take_left l (Nat.le_succ k) (hx.resolve_left hne)
      · rw [erase_cons_tail (by simpa using ha)]
        rcases hx with rfl | hx
        · exact mem_cons_self
        · exact mem_cons_of_mem _ (ih hx)

end

end CustomAi
