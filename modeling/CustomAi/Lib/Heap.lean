import Mathlib.Data.List.Induction
import Mathlib.Data.List.Perm.Basic

/-!
# Binary heaps in a list

The operations of Python's `heapq`. An item on its way is swapped with the entries that it passes.
Each operation keeps the items.
-/

namespace CustomAi

open List Option

namespace Heap

universe u

variable {α : Type u}

def swap (l : List α) (i j : ℕ) : List α :=
  match l[i]?, l[j]? with
  | some a, some b => (l.set i b).set j a
  | _, _ => l

/-- Whether the entry at `i` is smaller than the one at `j`. -/
def before (lt : α → α → Bool) (l : List α) (i j : ℕ) : Bool :=
  match l[i]?, l[j]? with
  | some a, some b => lt a b
  | _, _ => false

/-- `_siftdown(heap, startpos, pos)`, with at most `fuel` moves. -/
def siftdown (lt : α → α → Bool) (startpos : ℕ) : ℕ → List α → ℕ → List α
  | 0, l, _ => l
  | fuel + 1, l, pos =>
    let parentpos := (pos - 1) / 2
    if pos > startpos ∧ before lt l pos parentpos then
      siftdown lt startpos fuel (swap l pos parentpos) parentpos
    else l

/-- The first loop of `_siftup`: the smaller children move up until a leaf is reached. -/
def sinkToLeaf (lt : α → α → Bool) : ℕ → List α → ℕ → List α × ℕ
  | 0, l, pos => (l, pos)
  | fuel + 1, l, pos =>
    let childpos := 2 * pos + 1
    if childpos < l.length then
      let rightpos := childpos + 1
      let childpos := if rightpos < l.length ∧ ¬before lt l childpos rightpos then rightpos
        else childpos
      sinkToLeaf lt fuel (swap l pos childpos) childpos
    else (l, pos)

/-- `_siftup(heap, pos)` -/
def siftup (lt : α → α → Bool) (l : List α) (pos : ℕ) : List α :=
  let (l', leaf) := sinkToLeaf lt l.length l pos
  siftdown lt pos l.length l' leaf

def heappush (lt : α → α → Bool) (l : List α) (item : α) : List α :=
  siftdown lt 0 (l.length + 1) (l ++ [item]) l.length

/-- `heappop`, unless the heap is empty. -/
def heappop (lt : α → α → Bool) (l : List α) : Option (α × List α) :=
  match l.getLast?, l.dropLast with
  | none, _ => none
  | some lastelt, [] => some (lastelt, [])
  | some lastelt, returnitem :: rest => some (returnitem, siftup lt (lastelt :: rest) 0)

def heapify (lt : α → α → Bool) (l : List α) : List α :=
  (List.range (l.length / 2)).reverse.foldl (siftup lt) l

/-- The items in the order in which `heappop` yields them. -/
def drain (lt : α → α → Bool) : ℕ → List α → List α
  | 0, _ => []
  | fuel + 1, l =>
    match heappop lt l with
    | none => []
    | some (item, rest) => item :: drain lt fuel rest

variable {lt : α → α → Bool} {l : List α}

lemma swap_perm (l : List α) (i j : ℕ) : (swap l i j).Perm l := by
  unfold swap
  split
  · rename_i a b ha hb
    obtain ⟨hi, rfl⟩ := List.getElem?_eq_some_iff.mp ha
    obtain ⟨hj, rfl⟩ := List.getElem?_eq_some_iff.mp hb
    exact set_set_perm hi hj
  · exact .refl _

lemma siftdown_perm (startpos fuel : ℕ) (l : List α) (pos : ℕ) : (siftdown lt startpos fuel l pos).Perm l := by
  induction fuel generalizing l pos with
  | zero => exact .refl _
  | succ fuel ih =>
    rw [siftdown]
    split
    · exact (ih _ _).trans (swap_perm _ _ _)
    · exact .refl _

lemma sinkToLeaf_perm (fuel : ℕ) (l : List α) (pos : ℕ) : (sinkToLeaf lt fuel l pos).1.Perm l := by
  induction fuel generalizing l pos with
  | zero => exact .refl _
  | succ fuel ih =>
    rw [sinkToLeaf]
    split
    · exact (ih _ _).trans (swap_perm _ _ _)
    · exact .refl _

lemma siftup_perm (l : List α) (pos : ℕ) : (siftup lt l pos).Perm l :=
  (siftdown_perm _ _ _ _).trans (sinkToLeaf_perm _ _ _)

lemma heappush_perm (l : List α) (item : α) : (heappush lt l item).Perm (item :: l) :=
  (siftdown_perm _ _ _ _).trans perm_append_comm

lemma heappop_spec {item : α} {rest : List α} (h : heappop lt l = some (item, rest)) :
    l.head? = some item ∧ (item :: rest).Perm l := by
  unfold heappop at h
  cases l using reverseRecOn with
  | nil => cases h
  | append_singleton l x =>
    rw [List.getLast?_append_of_ne_nil _ (cons_ne_nil x []), dropLast_concat] at h
    cases l with
    | nil =>
      obtain ⟨rfl, rfl⟩ := Prod.mk.inj (some.inj h)
      exact ⟨rfl, .refl _⟩
    | cons y l =>
      obtain ⟨rfl, rfl⟩ := Prod.mk.inj (some.inj h)
      refine ⟨rfl, ?_⟩
      have hlast : (x :: l).Perm (l ++ [x]) := (perm_append_singleton x l).symm
      exact ((siftup_perm (x :: l) 0).trans hlast).cons y

lemma heappop_isSome (h : l ≠ []) : (heappop lt l).isSome := by
  unfold heappop
  cases hl : l.getLast? with
  | none => exact absurd (List.getLast?_eq_none_iff.mp hl) h
  | some x => cases l.dropLast <;> rfl

lemma heapify_perm (l : List α) : (heapify lt l).Perm l := by
  unfold heapify
  generalize (List.range (l.length / 2)).reverse = positions
  induction positions generalizing l with
  | nil => exact .refl _
  | cons pos positions ih => exact (ih _).trans (siftup_perm _ _)

theorem drain_perm {fuel : ℕ} (h : l.length ≤ fuel) : (drain lt fuel l).Perm l := by
  induction fuel generalizing l with
  | zero =>
    rw [length_eq_zero_iff.mp (Nat.le_zero.mp h)]
    exact .refl _
  | succ fuel ih =>
    rw [drain]
    cases hpop : heappop lt l with
    | none =>
      have hnil : l = [] := by
        by_contra hne
        have hsome : (heappop lt l).isSome := heappop_isSome hne
        rw [hpop] at hsome
        cases hsome
      rw [hnil]
    | some p =>
      obtain ⟨item, rest⟩ := p
      have hperm := (heappop_spec hpop).2
      have hlen := hperm.length_eq
      rw [length_cons] at hlen
      exact ((ih (by omega)).cons item).trans hperm

end Heap

end CustomAi
