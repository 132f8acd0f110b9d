import Mathlib.Data.Finset.Card

/-!
# Forests given by parent links

A map from nodes to their parents, in which no node lies below itself.
-/

namespace CustomAi.Lib.Forest

open Function Option Finset

variable {α : Type} {parent parent' : α → Option α} {a b c p : α}

/-- `a` is a child of `b`, or a child of a child, and so on. -/
def Below (parent : α → Option α) : α → α → Prop :=
  Relation.TransGen fun c p => parent c = some p

/-- Nobody is below itself. -/
def Acyclic (parent : α → Option α) : Prop :=
  ∀ a, ¬ Below parent a a

lemma Below.single (h : parent a = some b) : Below parent a b :=
  Relation.TransGen.single h

lemma Below.trans (hab : Below parent a b) (hbc : Below parent b c) : Below parent a c :=
  Relation.TransGen.trans hab hbc

lemma Below.mono (h : ∀ c p, parent' c = some p → parent c = some p) (hab : Below parent' a b) : Below parent a b :=
  Relation.TransGen.mono h _ _ hab

lemma Acyclic.mono (hacyclic : Acyclic parent)
    (h : ∀ c p, parent' c = some p → parent c = some p) : Acyclic parent' :=
  fun a ha => hacyclic a (ha.mono h)

lemma Below.of_parent (h : Below parent a b) (hp : parent a = some p) : p = b ∨ Below parent p b := by
  obtain ⟨q, hq, hqb⟩ := Relation.TransGen.head'_iff.mp h
  rw [hp, some.injEq] at hq
  subst hq
  exact (Relation.reflTransGen_iff_eq_or_transGen.mp hqb).imp (fun e => e.symm) id

lemma not_below_of_root (h : parent a = none) : ¬Below parent a b := by
  intro hbelow
  obtain ⟨p, hp, -⟩ := Relation.TransGen.head'_iff.mp hbelow
  rw [h] at hp
  cases hp

lemma Acyclic.parent_ne_of_below (hacyclic : Acyclic parent) (h : Below parent a c)
    (hc : parent c = some b) : parent a ≠ some b := by
  intro ha
  rcases h.of_parent ha with rfl | hbelow
  · exact hacyclic _ (.single hc)
  · exact hacyclic _ (hbelow.trans (.single hc))

/-- A path under a new link of `a` to `p` uses that link once or not at all, if `p` is not in the
subtree of `a`. -/
lemma Below.of_update [DecidableEq α] {x y : α} (hpa : p ≠ a ∧ ¬ Below parent p a)
    (h : Below (Function.update parent a (some p)) x y) : Below parent x y ∨
      ((x = a ∨ Below parent x a) ∧ (p = y ∨ Below parent p y)) := by
  have hedge : ∀ {c q}, Function.update parent a (some p) c = some q → (c = a ∧ q = p) ∨ parent c = some q := by
    intro c q hcq
    by_cases hc : c = a
    · rw [hc, update_self, some.injEq] at hcq
      exact .inl ⟨hc, hcq.symm⟩
    · rw [update_of_ne hc] at hcq
      exact .inr hcq
  induction h with
  | single hxy =>
    rcases hedge hxy with ⟨rfl, rfl⟩ | hxy
    · exact .inr ⟨.inl rfl, .inl rfl⟩
    · exact .inl (.single hxy)
  | tail _ hcy ih =>
    rcases hedge hcy with ⟨rfl, rfl⟩ | hcy
    · rcases ih with hx | ⟨-, hp⟩
      · exact .inr ⟨.inr hx, .inl rfl⟩
      · rcases hp with hp | hp
        · exact absurd hp hpa.1
        · exact absurd hp hpa.2
    · rcases ih with hx | ⟨hx, hp⟩
      · exact .inl (hx.trans (.single hcy))
      · rcases hp with rfl | hp
        · exact .inr ⟨hx, .inr (.single hcy)⟩
        · exact .inr ⟨hx, .inr (hp.trans (.single hcy))⟩

theorem Acyclic.update [DecidableEq α] (hacyclic : Acyclic parent) {q : Option α}
    (h : ∀ p, q = some p → p ≠ a ∧ ¬ Below parent p a) : Acyclic (Function.update parent a q) := by
  cases q with
  | none =>
    refine hacyclic.mono fun c p hcp => ?_
    by_cases hc : c = a
    · rw [hc, update_self] at hcp
      cases hcp
    · rwa [update_of_ne hc] at hcp
  | some p =>
    have hpa := h p rfl
    intro x hx
    rcases hx.of_update hpa with hx | ⟨hxa, hpx⟩
    · exact hacyclic x hx
    · rcases hxa with rfl | hxa
      · exact hpx.elim hpa.1 hpa.2
      · rcases hpx with rfl | hpx
        · exact hpa.2 hxa
        · exact hpa.2 (hpx.trans hxa)

/-- Every path down from the node has fewer than `n` links. -/
def Shallow (parent : α → Option α) : ℕ → α → Prop
  | 0, _ => False
  | n + 1, a => ∀ c, parent c = some a → Shallow parent n c

lemma Shallow.mono {n : ℕ} (h : Shallow parent n a)
    (hsub : ∀ c p, parent' c = some p → parent c = some p) : Shallow parent' n a := by
  induction n generalizing a with
  | zero => exact h.elim
  | succ n ih => exact fun c hc => ih (h c (hsub c a hc))

lemma Shallow.of_le {n m : ℕ} (h : Shallow parent n a) (hnm : n ≤ m) : Shallow parent m a := by
  induction n generalizing a m with
  | zero => exact h.elim
  | succ n ih =>
    obtain ⟨m, rfl⟩ : ∃ k, m = k + 1 := ⟨m - 1, by omega⟩
    exact fun c hc => ih (h c hc) (by omega)

lemma Acyclic.shallow (hacyclic : Acyclic parent) (nodes : Finset α)
    (hnodes : ∀ c p, parent c = some p → c ∈ nodes) (a : α) : Shallow parent (nodes.card + 1) a := by
  classical
  -- the nodes below a child are among those below the node, without the child itself
  have hrank : ∀ n a, (nodes.filter fun d => Below parent d a).card ≤ n → Shallow parent (n + 1) a := by
    intro n
    induction n with
    | zero =>
      intro a hcard c hc
      have hmem : c ∈ nodes.filter fun d => Below parent d a := mem_filter.mpr ⟨hnodes c a hc, .single hc⟩
      rw [card_eq_zero.mp (Nat.le_zero.mp hcard)] at hmem
      cases hmem
    | succ n ih =>
      intro a hcard c hc
      refine ih c (Nat.le_of_lt_succ (lt_of_lt_of_le ?_ hcard))
      refine card_lt_card (ssubset_iff_of_subset ?_ |>.mpr ⟨c, ?_, ?_⟩)
      · intro d hd
        rw [mem_filter] at hd ⊢
        exact ⟨hd.1, hd.2.trans (.single hc)⟩
      · exact mem_filter.mpr ⟨hnodes c a hc, .single hc⟩
      · intro hself
        exact hacyclic c (mem_filter.mp hself).2
  exact hrank _ a (card_le_card (filter_subset _ _))

end CustomAi.Lib.Forest
