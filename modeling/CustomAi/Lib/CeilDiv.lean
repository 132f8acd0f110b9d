import Mathlib.Algebra.Order.Floor.Div
import Mathlib.Tactic.Linarith

/-!
# Ceiling division

`cdiv a b` is the least number of blocks of size `b` that hold `a` items.
-/

namespace CustomAi

/-- `-(a // -b)` on natural numbers. -/
def cdiv (a b : ℕ) : ℕ := (a + b - 1) / b

lemma cdiv_eq_ceilDiv (a b : ℕ) : cdiv a b = a ⌈/⌉ b := rfl

variable {a b c k : ℕ}

@[simp] lemma cdiv_zero_left (b : ℕ) : cdiv 0 b = 0 := by
  rw [cdiv_eq_ceilDiv, zero_ceilDiv]

lemma cdiv_le_iff (hb : 0 < b) : cdiv a b ≤ c ↔ a ≤ b * c := ceilDiv_le_iff_le_mul hb

lemma le_mul_cdiv (hb : 0 < b) (a : ℕ) : a ≤ b * cdiv a b := (cdiv_le_iff hb).mp le_rfl

lemma cdiv_mono (hb : 0 < b) (h : a ≤ c) : cdiv a b ≤ cdiv c b :=
  (cdiv_le_iff hb).mpr (h.trans (le_mul_cdiv hb c))

lemma cdiv_add_mul (hb : 0 < b) (a k : ℕ) : cdiv (a + b * k) b = cdiv a b + k := by
  unfold cdiv
  rw [show a + b * k + b - 1 = a + b - 1 + b * k by omega, Nat.add_mul_div_left _ _ hb]

lemma div_le_cdiv (a b : ℕ) : a / b ≤ cdiv a b := by
  rcases Nat.eq_zero_or_pos b with rfl | hb
  · simp
  · exact Nat.div_le_div_right (by omega)

lemma cdiv_eq_pred_div_add_one (hb : 0 < b) (ha : 0 < a) : cdiv a b = (a - 1) / b + 1 := by
  unfold cdiv
  rw [show a + b - 1 = a - 1 + b by omega, Nat.add_div_right _ hb]

end CustomAi
