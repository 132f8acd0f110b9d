import Mathlib.Data.List.Nodup
import Mathlib.Data.List.Infix

/-!
# Hash chains

The digest of an item covers the digest of the item before it. If a step hides no information,
two chains that agree at an index agree on everything up to it; if moreover no digest is the
seed of the chains, digests at different indices differ.
-/

namespace CustomAi

open List Option

universe u v

variable {δ : Type u} {β : Type v}

/-- The digests of the items, each computed by `f` from the digest before it. -/
def chain (f : δ → β → δ) : δ → List β → List δ
  | _, [] => []
  | prev, b :: rest => f prev b :: chain f (f prev b) rest

variable {f : δ → β → δ} {seed : δ}

@[simp] lemma length_chain (prev : δ) (l : List β) : (chain f prev l).length = l.length := by
  induction l generalizing prev with
  | nil => rfl
  | cons b rest ih => simp [chain, ih]

lemma chain_append (prev : δ) (l l' : List β) : chain f prev (l ++ l') =
      chain f prev l ++ chain f ((chain f prev l).getLast?.getD prev) l' := by
  induction l generalizing prev with
  | nil => rfl
  | cons b rest ih =>
    have hlast : ((f prev b :: chain f (f prev b) rest).getLast?).getD prev =
        ((chain f (f prev b) rest).getLast?).getD (f prev b) := by
      cases h : chain f (f prev b) rest with
      | nil => rfl
      | cons x y => simp [getLast?_cons]
    simp only [cons_append, chain, ih, hlast]

lemma take_chain (prev : δ) (l : List β) (n : ℕ) : (chain f prev l).take n = chain f prev (l.take n) := by
  induction l generalizing prev n with
  | nil => simp [chain]
  | cons b rest ih =>
    cases n with
    | zero => simp [chain]
    | succ n => simp [chain, ih]

variable {prev : δ} {i : ℕ} {l : List β} {d : δ}

lemma getElem?_chain_congr {l l' : List β}
    (h : l.take (i + 1) = l'.take (i + 1)) : (chain f prev l)[i]? = (chain f prev l')[i]? := by
  have ht := congrArg (chain f prev) h
  rw [← take_chain, ← take_chain] at ht
  have hget := congrArg (fun x : List δ => x[i]?) ht
  simpa [getElem?_take] using hget

lemma getElem?_chain_succ (h : (chain f prev l)[i + 1]? = some d) :
    ∃ d' b, (chain f prev l)[i]? = some d' ∧ l[i + 1]? = some b ∧ d = f d' b := by
  induction l generalizing prev i with
  | nil => simp [chain] at h
  | cons b rest ih =>
    simp only [chain, getElem?_cons_succ] at h ⊢
    cases i with
    | zero =>
      cases rest with
      | nil => simp [chain] at h
      | cons b' rest =>
        simp only [chain, getElem?_cons_zero, some.injEq] at h
        exact ⟨f prev b, b', by simp, by simp, h.symm⟩
    | succ i => simpa using ih h

lemma getElem?_chain_zero (h : (chain f prev l)[0]? = some d) : ∃ b, l[0]? = some b ∧ d = f prev b := by
  cases l with
  | nil => simp [chain] at h
  | cons b rest =>
    simp only [chain, getElem?_cons_zero, some.injEq] at h
    exact ⟨b, rfl, h.symm⟩

structure Binding (f : δ → β → δ) (seed : δ) : Prop where
  ne_seed : ∀ d b, f d b ≠ seed
  inj : ∀ d d' b b', (d = seed ↔ d' = seed) → f d b = f d' b' → d = d' ∧ b = b'

section Agree

variable {l l' : List β} {i j : ℕ} {d : δ}

section

variable (h : Binding f seed)
include h

lemma Binding.ne_seed_of_mem {prev : δ} (hd : d ∈ chain f prev l) : d ≠ seed := by
  induction l generalizing prev with
  | nil => simp [chain] at hd
  | cons b rest ih =>
    rcases mem_cons.mp hd with rfl | hm
    · exact h.ne_seed prev b
    · exact ih hm

lemma Binding.take_eq (hd : (chain f seed l)[i]? = some d)
    (hd' : (chain f seed l')[i]? = some d) : l.take (i + 1) = l'.take (i + 1) := by
  induction i generalizing d with
  | zero =>
    obtain ⟨b, hb, hdb⟩ := getElem?_chain_zero hd
    obtain ⟨b', hb', hdb'⟩ := getElem?_chain_zero hd'
    obtain ⟨-, rfl⟩ := h.inj seed seed b b' Iff.rfl (hdb.symm.trans hdb')
    rw [take_add_one, take_add_one, hb, hb']
    simp
  | succ i ih =>
    obtain ⟨e, b, he, hb, hdb⟩ := getElem?_chain_succ hd
    obtain ⟨e', b', he', hb', hdb'⟩ := getElem?_chain_succ hd'
    have hne := h.ne_seed_of_mem (mem_of_getElem? he)
    have hne' := h.ne_seed_of_mem (mem_of_getElem? he')
    obtain ⟨rfl, rfl⟩ := h.inj e e' b b' (by simp [hne, hne']) (hdb.symm.trans hdb')
    rw [take_add_one, take_add_one (l := l'), ih he he', hb, hb']

lemma Binding.getElem?_eq_iff (hi : i < l.length) :
    (chain f seed l)[i]? = (chain f seed l')[i]? ↔ l.take (i + 1) = l'.take (i + 1) := by
  constructor
  · intro heq
    have hi' : i < (chain f seed l).length := by simpa using hi
    have hsome : (chain f seed l)[i]? = some (chain f seed l)[i] := getElem?_eq_getElem hi'
    exact h.take_eq hsome (heq ▸ hsome)
  · exact getElem?_chain_congr

/-- Equal chains have equal items. -/
theorem Binding.chain_inj : chain f seed l = chain f seed l' ↔ l = l' := by
  constructor
  · intro heq
    have hlen : l.length = l'.length := by simpa using congrArg length heq
    rcases Nat.eq_zero_or_pos l.length with h0 | hpos
    · have h0' : l'.length = 0 := hlen ▸ h0
      rw [length_eq_zero_iff.mp h0, length_eq_zero_iff.mp h0']
    · have hi : l.length - 1 < l.length := Nat.sub_lt hpos Nat.one_pos
      have htake : l.take (l.length - 1 + 1) = l'.take (l.length - 1 + 1) := (h.getElem?_eq_iff hi).mp (by rw [heq])
      rwa [Nat.sub_add_cancel hpos, take_length, hlen, take_length] at htake
  · rintro rfl
    rfl

end

end Agree

end CustomAi
