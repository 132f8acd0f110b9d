import Mathlib.Data.Finset.Card
import Mathlib.Tactic.Linarith

/-!
# Reference-counted resources with a queue of free ones

A `Ledger` counts how often each resource is held and keeps the resources nobody holds in a
queue. `Accounts` relates it to the multiset of all holdings. The three operations (taking
resources from the front of the queue, sharing resources somebody may already hold, releasing
holdings) change that multiset as expected. Resources outside `counted` are counted by nobody:
they never enter the queue.
-/

namespace CustomAi

open List

universe u

structure Ledger (α : Type u) where
  refs : α → ℤ
  free : List α

namespace Ledger

variable {α : Type u} [DecidableEq α]

/-- The references and the queue are those of the holdings `held` of the resources `dom`. -/
structure Accounts (L : Ledger α) (dom : Finset α) (held : Multiset α) : Prop where
  refs_eq : ∀ a ∈ dom, L.refs a = held.count a
  held_mem : ∀ a ∈ held, a ∈ dom
  nodup : L.free.Nodup
  mem_free : ∀ a, a ∈ L.free ↔ a ∈ dom ∧ held.count a = 0

/-- The first `n` free resources get one reference each. -/
def take (L : Ledger α) (n : ℕ) : Ledger α :=
  ⟨fun a => L.refs a + (L.free.take n).count a, L.free.drop n⟩

/-- Every occurrence in `l` adds a reference and removes the resource from the queue. -/
def share (L : Ledger α) (l : List α) : Ledger α :=
  ⟨fun a => L.refs a + l.count a, L.free.filter (fun a => a ∉ l)⟩

/-- Every occurrence in `l` drops a reference; resources left without one join the queue. -/
def release (counted : α → Bool) (L : Ledger α) (l : List α) : Ledger α :=
  ⟨fun a => L.refs a - l.count a, L.free ++ l.filter (fun a => decide (L.refs a - l.count a = 0) && counted a)⟩

variable {L : Ledger α} {dom : Finset α} {held : Multiset α} {counted : α → Bool}

namespace Accounts

section

variable (h : L.Accounts dom held)
include h

lemma count_eq_zero_of_mem_free {a : α} (ha : a ∈ L.free) : held.count a = 0 := ((h.mem_free a).mp ha).2

lemma mem_dom_of_mem_free {a : α} (ha : a ∈ L.free) : a ∈ dom :=
  ((h.mem_free a).mp ha).1

lemma mem_free_iff_refs {a : α} (ha : a ∈ dom) : a ∈ L.free ↔ L.refs a = 0 := by
  rw [h.mem_free, h.refs_eq a ha]
  simp [ha]

theorem take (n : ℕ) : (L.take n).Accounts dom (held + ↑(L.free.take n)) := by
  have hsplit : L.free.take n ++ L.free.drop n = L.free := take_append_drop n L.free
  have hdisj : ∀ a ∈ L.free.take n, a ∉ L.free.drop n := fun a ha hb =>
    (disjoint_take_drop h.nodup le_rfl) ha hb
  constructor
  · intro a ha
    simp [Ledger.take, h.refs_eq a ha]
  · intro a ha
    rcases Multiset.mem_add.mp ha with hb | hb
    · exact h.held_mem a hb
    · exact h.mem_dom_of_mem_free (mem_of_mem_take (Multiset.mem_coe.mp hb))
  · exact h.nodup.sublist (drop_sublist n L.free)
  · intro a
    simp only [Ledger.take, Multiset.count_add, Multiset.coe_count, Nat.add_eq_zero_iff, count_eq_zero]
    constructor
    · intro ha
      have hf := (h.mem_free a).mp (mem_of_mem_drop ha)
      exact ⟨hf.1, hf.2, fun ht => hdisj a ht ha⟩
    · rintro ⟨hd, hc, ht⟩
      have hf : a ∈ L.free.take n ++ L.free.drop n := by
        rw [hsplit]
        exact (h.mem_free a).mpr ⟨hd, hc⟩
      exact (mem_append.mp hf).resolve_left ht

theorem share (hc : ∀ a ∈ dom, counted a = true) (l : List α) (hl : ∀ a ∈ l, counted a = true → a ∈ dom) :
    (L.share l).Accounts dom (held + ↑(l.filter counted)) := by
  constructor
  · intro a ha
    simp [Ledger.share, h.refs_eq a ha, count_filter (hc a ha)]
  · intro a ha
    rcases Multiset.mem_add.mp ha with hb | hb
    · exact h.held_mem a hb
    · have hf := mem_filter.mp (Multiset.mem_coe.mp hb)
      exact hl a hf.1 hf.2
  · exact h.nodup.filter _
  · intro a
    simp only [Ledger.share, mem_filter, h.mem_free, Multiset.count_add, Multiset.coe_count,
      Nat.add_eq_zero_iff, count_eq_zero, decide_eq_true_eq]
    constructor
    · rintro ⟨⟨hd, h0⟩, hn⟩
      exact ⟨hd, h0, fun hm => hn hm.1⟩
    · rintro ⟨hd, h0, hn⟩
      exact ⟨⟨hd, h0⟩, fun hm => hn ⟨hm, hc a hd⟩⟩

theorem release (hc : ∀ a ∈ dom, counted a = true) (l : List α)
    (hnd : (l.filter counted).Nodup) (hle : (↑(l.filter counted) : Multiset α) ≤ held) :
    (L.release counted l).Accounts dom (held - ↑(l.filter counted)) := by
  have hdom : ∀ a ∈ l, counted a = true → a ∈ dom := fun a ha hca =>
    h.held_mem a (Multiset.mem_of_le hle (Multiset.mem_coe.mpr (mem_filter.mpr ⟨ha, hca⟩)))
  have hcount : ∀ a ∈ dom, (l.count a : ℤ) ≤ held.count a := by
    intro a ha
    have hb := Multiset.count_le_of_le a hle
    rw [Multiset.coe_count, count_filter (hc a ha)] at hb
    exact_mod_cast hb
  have hsub : ∀ a ∈ dom, ((held - ↑(l.filter counted)).count a : ℤ) = L.refs a - l.count a := by
    intro a ha
    rw [Multiset.count_sub, Multiset.coe_count, count_filter (hc a ha), h.refs_eq a ha]
    have hb := hcount a ha
    omega
  constructor
  · intro a ha
    exact (hsub a ha).symm
  · intro a ha
    exact h.held_mem a (Multiset.mem_of_le (Multiset.sub_le_self _ _) ha)
  · refine h.nodup.append ?_ ?_
    · have hsl : (l.filter (fun a => decide (L.refs a - l.count a = 0) && counted a)).Sublist
          (l.filter counted) := by
        rw [← filter_filter]
        exact filter_sublist
      exact hnd.sublist hsl
    · intro a ha hb
      have hf := mem_filter.mp hb
      have h0 := h.count_eq_zero_of_mem_free ha
      have hle' := hcount a (h.mem_dom_of_mem_free ha)
      have hpos : 0 < l.count a := count_pos_iff.mpr hf.1
      omega
  · intro a
    simp only [Ledger.release, mem_append, mem_filter, Bool.and_eq_true, decide_eq_true_eq]
    constructor
    · rintro (ha | ⟨ha, h0, hca⟩)
      · refine ⟨h.mem_dom_of_mem_free ha, ?_⟩
        rw [Multiset.count_sub, h.count_eq_zero_of_mem_free ha, Nat.zero_sub]
      · have hd := hdom a ha hca
        have hs := hsub a hd
        exact ⟨hd, by omega⟩
    · rintro ⟨hd, h0⟩
      have hs := hsub a hd
      by_cases ha : a ∈ l
      · exact .inr ⟨ha, by omega, hc a hd⟩
      · refine .inl ((h.mem_free a).mpr ⟨hd, ?_⟩)
        have hl0 : l.count a = 0 := count_eq_zero.mpr ha
        have hr := h.refs_eq a hd
        omega

theorem free_length_add_card : L.free.length + held.toFinset.card = dom.card := by
  have hfree : L.free.toFinset.card = L.free.length := toFinset_card_of_nodup h.nodup
  have hdisj : Disjoint L.free.toFinset held.toFinset := by
    rw [Finset.disjoint_left]
    intro a ha hb
    have h0 := h.count_eq_zero_of_mem_free (mem_toFinset.mp ha)
    exact Multiset.count_eq_zero.mp h0 (Multiset.mem_toFinset.mp hb)
  have hunion : L.free.toFinset ∪ held.toFinset = dom := by
    ext a
    simp only [Finset.mem_union, mem_toFinset, Multiset.mem_toFinset, h.mem_free]
    constructor
    · rintro (ha | ha)
      · exact ha.1
      · exact h.held_mem a ha
    · intro ha
      by_cases hm : a ∈ held
      · exact .inr hm
      · exact .inl ⟨ha, Multiset.count_eq_zero.mpr hm⟩
  rw [← hfree, ← Finset.card_union_of_disjoint hdisj, hunion]

end

end Accounts

end Ledger

end CustomAi
