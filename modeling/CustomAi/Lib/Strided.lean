import Mathlib.Data.List.Range
import Mathlib.Algebra.BigOperators.Group.List.Basic
import Mathlib.Algebra.Order.Ring.Int
import Mathlib.Tactic.Ring

/-!
# Strided arrays

Where the elements of an array lie in memory, in row-major order. A dimension is given by its size
and its stride in bytes.
-/

namespace CustomAi

open List

universe u

def stridedOffsets : List (ℕ × ℤ) → ℤ → List ℤ
  | [], base => [base]
  | (n, stride) :: dims, base =>
    (List.range n).flatMap fun (i : ℕ) => stridedOffsets dims (base + i * stride)

def stridedVolume (dims : List (ℕ × ℤ)) : ℕ := (dims.map Prod.fst).prod

def RowMajor (item : ℕ) : List (ℕ × ℤ) → Prop
  | [] => True
  | (n, stride) :: dims =>
    (n = 1 ∨ stride = item * stridedVolume dims) ∧ RowMajor item dims

instance decidableRowMajor (item : ℕ) : (dims : List (ℕ × ℤ)) → Decidable (RowMajor item dims)
  | [] => .isTrue trivial
  | (n, stride) :: dims =>
    letI := decidableRowMajor item dims
    inferInstanceAs (Decidable ((n = 1 ∨ stride = item * stridedVolume dims) ∧ RowMajor item dims))

def Contiguous (item : ℕ) (dims : List (ℕ × ℤ)) : Prop :=
  stridedVolume dims = 0 ∨ RowMajor item dims

instance (item : ℕ) (dims : List (ℕ × ℤ)) : Decidable (Contiguous item dims) :=
  inferInstanceAs (Decidable (_ ∨ _))

lemma flatMap_range_mul (n v : ℕ) : ((range n).flatMap fun i => (range v).map fun k => i * v + k) =
      range (n * v) := by
  induction n with
  | zero => simp
  | succ n ih =>
    rw [range_succ, flatMap_append, ih, Nat.succ_mul, range_add]
    simp

variable {item : ℕ} (memory : ℤ → β) (dims : List (ℕ × ℤ)) (base : ℤ)

lemma length_stridedOffsets : (stridedOffsets dims base).length = stridedVolume dims := by
  induction dims generalizing base with
  | nil => rfl
  | cons d dims ih =>
    unfold stridedOffsets stridedVolume
    rw [length_flatMap]
    simp only [ih]
    simp [stridedVolume]

lemma stridedOffsets_of_rowMajor {dims : List (ℕ × ℤ)} (h : RowMajor item dims) (base : ℤ) :
    stridedOffsets dims base = (range (stridedVolume dims)).map fun (k : ℕ) => base + k * item := by
  induction dims generalizing base with
  | nil => simp [stridedOffsets, stridedVolume]
  | cons d dims ih =>
    obtain ⟨n, stride⟩ := d
    obtain ⟨hstride, hrest⟩ := h
    have hvolume : stridedVolume ((n, stride) :: dims) = n * stridedVolume dims := by
      simp [stridedVolume]
    unfold stridedOffsets
    simp only [ih hrest]
    rw [hvolume, ← flatMap_range_mul, map_flatMap]
    refine flatMap_congr fun i hi => ?_
    rw [map_map]
    refine map_congr_left fun k _ => ?_
    have hi' : i < n := mem_range.mp hi
    simp only [Function.comp_apply, Nat.cast_add, Nat.cast_mul]
    rcases hstride with rfl | rfl
    · obtain rfl : i = 0 := by omega
      simp
    · ring

variable {β : Type u}

def elementBytes (memory : ℤ → β) (item : ℕ) (dims : List (ℕ × ℤ)) (base : ℤ) : List β :=
  (stridedOffsets dims base).flatMap fun o => (List.range item).map fun (j : ℕ) => memory (o + j)

def memoryBytes (memory : ℤ → β) (base : ℤ) (n : ℕ) : List β :=
  (List.range n).map fun (j : ℕ) => memory (base + j)

lemma length_elementBytes (item : ℕ) (dims : List (ℕ × ℤ)) (base : ℤ) :
    (elementBytes memory item dims base).length = stridedVolume dims * item := by
  unfold elementBytes
  rw [← length_stridedOffsets dims base]
  simp

lemma elementBytes_of_contiguous {dims : List (ℕ × ℤ)} (h : Contiguous item dims) (base : ℤ) :
    elementBytes memory item dims base = memoryBytes memory base (stridedVolume dims * item) := by
  rcases h with hzero | hrow
  · have hlen := length_elementBytes memory item dims base
    rw [hzero, Nat.zero_mul] at hlen ⊢
    exact eq_nil_of_length_eq_zero hlen
  · unfold elementBytes memoryBytes
    rw [stridedOffsets_of_rowMajor hrow, flatMap_map, ← flatMap_range_mul, map_flatMap]
    refine flatMap_congr fun k _ => ?_
    rw [map_map]
    refine map_congr_left fun j _ => ?_
    simp only [Function.comp_apply, Nat.cast_add, Nat.cast_mul]
    rw [add_assoc]

end CustomAi
