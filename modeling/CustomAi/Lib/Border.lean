import Mathlib.Order.Basic

/-!
# Borders of the prefixes of a sequence

A border of the first `j` entries is a shorter prefix that they also end with.
-/

namespace CustomAi

variable {α : Type*} {w : ℕ → α} {u v j : ℕ}

/-- The first `v` entries are the last `v` of the first `j`, and `v` is less than `j`. -/
structure Border (w : ℕ → α) (v j : ℕ) : Prop where
  lt : v < j
  eq : ∀ q, q < v → w q = w (j - v + q)

/-- The longest border of the first `j` entries. -/
structure LongestBorder (w : ℕ → α) (v j : ℕ) : Prop extends Border w v j where
  le : ∀ u, Border w u j → u ≤ v

namespace Border

lemma zero (hj : 0 < j) : Border w 0 j := ⟨hj, fun q hq => absurd hq (by omega)⟩

lemma of_succ (h : Border w (v + 1) (j + 1)) : Border w v j := by
  refine ⟨Nat.lt_of_succ_lt_succ h.lt, fun q hq => ?_⟩
  have heq := h.eq q (by omega)
  rwa [show j + 1 - (v + 1) + q = j - v + q by omega] at heq

lemma next_eq (h : Border w (v + 1) (j + 1)) : w v = w j := by
  have hlt := h.lt
  have heq := h.eq v (by omega)
  rwa [show j + 1 - (v + 1) + v = j by omega] at heq

lemma succ (h : Border w v j) (hnext : w v = w j) : Border w (v + 1) (j + 1) := by
  have hlt := h.lt
  refine ⟨by omega, fun q hq => ?_⟩
  rw [show j + 1 - (v + 1) + q = j - v + q by omega]
  rcases Nat.lt_succ_iff_lt_or_eq.mp hq with hq | rfl
  · exact h.eq q hq
  · rw [show j - q + q = j by omega]
    exact hnext

lemma trans (huv : Border w u v) (hvj : Border w v j) : Border w u j := by
  have hu := huv.lt
  have hv := hvj.lt
  refine ⟨Nat.lt_trans hu hv, fun q hq => ?_⟩
  calc w q = w (v - u + q) := huv.eq q hq
    _ = w (j - v + (v - u + q)) := hvj.eq _ (by omega)
    _ = w (j - u + q) := by congr 1; omega

lemma of_lt (hu : Border w u j) (hv : Border w v j) (hlt : u < v) : Border w u v := by
  have hvj := hv.lt
  refine ⟨hlt, fun q hq => ?_⟩
  calc w q = w (j - u + q) := hu.eq q hq
    _ = w (j - v + (v - u + q)) := by congr 1; omega
    _ = w (v - u + q) := (hv.eq _ (by omega)).symm

end Border

lemma LongestBorder.le_of_border {b : ℕ} (h : LongestBorder w b v) (hu : Border w u j)
    (hv : Border w v j) (hlt : u < v) : u ≤ b :=
  h.le u (hu.of_lt hv hlt)

end CustomAi
