import Mathlib.Data.Fintype.Card
import Mathlib.Order.WellFounded

/-!
# Evaluation of an acyclic graph in waves

In each wave some of the waiting vertices are done, and those that follow a vertex just done wait
for the next wave. A waiting vertex is put back as long as one of its ancestors is not done. If no
wave makes a vertex wait again that was done before it, every vertex gets done.
-/

namespace CustomAi

open Relation Finset

variable {V : Type} {E : V → V → Prop} {done waits : ℕ → Set V} {N : ℕ}

/-- The first `N` waves: the vertices done before each wave and those that wait for it. -/
structure Wavefront (E : V → V → Prop) (done waits : ℕ → Set V) (N : ℕ) : Prop where
  start : done 0 = ∅
  roots : ∀ v, (∀ u, ¬ E u v) → v ∈ waits 0
  mono : ∀ k < N, done k ⊆ done (k + 1)
  pushes : ∀ k < N, ∀ x y, E x y → x ∉ done k → x ∈ done (k + 1) →
    y ∉ done k ∧ (y ∈ waits (k + 1) ∨ y ∈ done (k + 1))
  blocked : ∀ k < N, ∀ v, v ∈ waits k → v ∉ done (k + 1) → ∃ a, TransGen E a v ∧ a ∉ done k

namespace Wavefront

variable {k m : ℕ}

section

variable (h : Wavefront E done waits N)
include h

lemma mono_le (hkm : k ≤ m) (hm : m ≤ N) : done k ⊆ done m := by
  induction m with
  | zero => rw [Nat.le_zero.1 hkm]
  | succ m ih =>
    rcases Nat.eq_or_lt_of_le hkm with rfl | hlt
    · exact subset_rfl
    · exact (ih (Nat.le_of_lt_succ hlt) (by omega)).trans (h.mono m (by omega))

lemma pred_done {x y : V} (hxy : E x y) (hk : k ≤ N)
    (hy : y ∈ done k) (hm : m ≤ N) (hx : x ∈ done m) : x ∈ done k := by
  by_contra hnot
  have hkm : k < m := by
    by_contra hle
    exact hnot (h.mono_le (Nat.le_of_not_lt hle) hk hx)
  -- the wave that does `x` comes after `y` is done
  have hstep : ∃ j, k ≤ j ∧ j < m ∧ x ∉ done j ∧ x ∈ done (j + 1) := by
    induction m with
    | zero => omega
    | succ m ih =>
      by_cases hxm : x ∈ done m
      · have hlt : k < m := by
          rcases Nat.eq_or_lt_of_le (Nat.le_of_lt_succ hkm) with rfl | hlt
          · exact absurd hxm hnot
          · exact hlt
        obtain ⟨j, hj, hjm, hrest⟩ := ih (by omega) hxm hlt
        exact ⟨j, hj, by omega, hrest⟩
      · exact ⟨m, Nat.le_of_lt_succ hkm, Nat.lt_succ_self m, hxm, hx⟩
  obtain ⟨j, hkj, hjm, hxj, hxj'⟩ := hstep
  exact (h.pushes j (by omega) x y hxy hxj hxj').1 (h.mono_le hkj (by omega) hy)

lemma ancestor_done {a y : V} (hay : TransGen E a y) (hk : k ≤ N)
    (hy : y ∈ done k) (hm : m ≤ N) (hanc : ∀ x, TransGen E x y → x ∈ done m) : a ∈ done k := by
  induction hay using TransGen.head_induction_on with
  | single hxy => exact h.pred_done hxy hk hy hm (hanc _ (.single hxy))
  | head hxz hzy ih => exact h.pred_done hxz hk ih hm (hanc _ (.head hxz hzy))

lemma waits_of_preds_done {v : V} (hk : k ≤ N) (hv : v ∉ done k)
    (hpred : ∀ u, E u v → u ∈ done k) : ∃ j ≤ k, v ∈ waits j ∧ ∀ u, E u v → u ∈ done j := by
  induction k with
  | zero =>
    refine ⟨0, le_rfl, h.roots v fun u hu => ?_, hpred⟩
    have hmem := hpred u hu
    rw [h.start] at hmem
    exact hmem
  | succ k ih =>
    by_cases hall : ∀ u, E u v → u ∈ done k
    · have hvk : v ∉ done k := fun hm => hv (h.mono k (by omega) hm)
      obtain ⟨j, hj, hrest⟩ := ih (by omega) hvk hall
      exact ⟨j, by omega, hrest⟩
    · push Not at hall
      obtain ⟨u, huv, hu⟩ := hall
      rcases (h.pushes k (by omega) u v huv hu (hpred u huv)).2 with hwait | hdone
      · exact ⟨k + 1, le_rfl, hwait, hpred⟩
      · exact absurd hdone hv

section

variable (hwf : WellFounded E)
include hwf

/-- As long as some vertex is not done, one that waits has all its ancestors done, and the next wave
does it. -/
lemma exists_next (hk : k ≤ N)
    (hnot : ∃ v, v ∉ done k) : ∃ v, v ∉ done k ∧ v ∈ waits k ∧ (k < N → v ∈ done (k + 1)) := by
  obtain ⟨v, hv, hmin⟩ := hwf.transGen.has_min {v | v ∉ done k} hnot
  have hanc : ∀ a, TransGen E a v → a ∈ done k := fun a ha => by
    by_contra hna
    exact hmin a hna ha
  obtain ⟨j, hj, hwait, hpred⟩ := h.waits_of_preds_done (by omega) hv fun u hu => hanc u (.single hu)
  have hnext : j < N → v ∈ done (j + 1) := fun hjN => by
    by_contra hblocked
    obtain ⟨a, ha, hna⟩ := h.blocked j hjN v hwait hblocked
    obtain ⟨u, hau, huv⟩ := TransGen.tail'_iff.1 ha
    rcases reflTransGen_iff_eq_or_transGen.1 hau with rfl | hau
    · exact hna (hpred _ huv)
    · refine hna (h.ancestor_done hau (by omega) (hpred u huv) hk ?_)
      exact fun x hx => hanc x (hx.tail huv)
  rcases Nat.eq_or_lt_of_le hj with rfl | hlt
  · exact ⟨v, hv, hwait, hnext⟩
  · exact absurd (h.mono_le hlt hk (hnext (by omega))) hv

lemma progress (hk : k < N) (hnot : ∃ v, v ∉ done k) : ∃ v, v ∉ done k ∧ v ∈ done (k + 1) := by
  obtain ⟨v, hv, -, hnext⟩ := h.exists_next hwf hk.le hnot
  exact ⟨v, hv, hnext hk⟩

lemma complete_of_no_waits (hnone : ∀ v, v ∉ waits N) (v : V) : v ∈ done N := by
  by_contra hv
  obtain ⟨u, -, hwait, -⟩ := h.exists_next hwf le_rfl ⟨v, hv⟩
  exact hnone u hwait

theorem complete [Fintype V] (hN : Fintype.card V ≤ N) (v : V) : v ∈ done (Fintype.card V) := by
  classical
  have hgrow : ∀ k ≤ Fintype.card V, (∀ v, v ∈ done k) ∨ k ≤ (univ.filter fun v => v ∈ done k).card := by
    intro k hk
    induction k with
    | zero => exact .inr (Nat.zero_le _)
    | succ k ih =>
      by_cases hall : ∀ v, v ∈ done k
      · exact .inl fun v => h.mono k (by omega) (hall v)
      · have hcard := (ih (by omega)).resolve_left hall
        push Not at hall
        obtain ⟨v, hv, hv'⟩ := h.progress hwf (by omega : k < N) hall
        have hsub : (univ.filter fun v => v ∈ done k) ⊂
            univ.filter fun v => v ∈ done (k + 1) := by
          refine (ssubset_iff_of_subset fun u hu => ?_).2 ⟨v, ?_, ?_⟩
          · rw [mem_filter] at hu ⊢
            exact ⟨hu.1, h.mono k (by omega) hu.2⟩
          · exact mem_filter.2 ⟨mem_univ v, hv'⟩
          · exact fun hm => hv (mem_filter.1 hm).2
        have := card_lt_card hsub
        omega
  rcases hgrow _ le_rfl with hall | hcard
  · exact hall v
  · have huniv : (univ.filter fun v => v ∈ done (Fintype.card V)) = univ := by
      refine eq_univ_of_card _ (le_antisymm (card_le_univ _) hcard)
    exact (mem_filter.1 (huniv ▸ mem_univ v)).2

end

end

end Wavefront

end CustomAi
