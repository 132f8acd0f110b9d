import CustomAi.Lib.Except
import Mathlib.Data.List.Nodup

/-!
# Merging into a keyed list

A list holds one item for each key it has seen, and an item that arrives is merged into the one of
its key. What a measure of the items in a monoid counts for a key is not changed by merging, when
merging two items multiplies their measures.
-/

namespace CustomAi

open List

structure Latest (α : Type*) where
  value : Option α
  deriving DecidableEq

namespace Latest

variable {α : Type*}

instance : Monoid (Latest α) where
  mul a b := ⟨b.value.or a.value⟩
  one := ⟨none⟩
  mul_assoc a b c := congrArg mk (Option.or_assoc.symm)
  one_mul a := congrArg mk Option.or_none
  mul_one a := congrArg mk Option.none_or

@[simp] lemma value_mul (a b : Latest α) : (a * b).value = b.value.or a.value := rfl

lemma value_prod (l : List α) : (l.map fun a => (⟨some a⟩ : Latest α)).prod.value = l.getLast? := by
  induction l with
  | nil => rfl
  | cons a l ih =>
    rw [map_cons, prod_cons, value_mul, ih, List.getLast?_cons]
    cases l.getLast? <;> rfl

end Latest

section Merge

variable {ε ι κ M : Type} [DecidableEq κ] (key : ι → κ) (merge : ι → ι → Except ε ι)

def mergeByKey : List ι → ι → Except ε (List ι)
  | [], x => .ok [x]
  | y :: l, x =>
    if key y = key x then do
      let z ← merge y x
      return z :: l
    else do
      let l' ← mergeByKey l x
      return y :: l'

def mergeAllByKey (l xs : List ι) : Except ε (List ι) := xs.foldlM (mergeByKey key merge) l

def keyProduct [Monoid M] (μ : ι → M) (k : κ) (l : List ι) : M :=
  ((l.filter fun x => key x = k).map μ).prod

variable {key merge} {l l' xs : List ι} {x : ι} {k : κ}

section Measure

variable [Monoid M] {μ : ι → M}

@[simp] lemma keyProduct_nil : keyProduct key μ k [] = 1 := rfl

lemma keyProduct_append : keyProduct key μ k (l ++ xs) = keyProduct key μ k l * keyProduct key μ k xs := by
  unfold keyProduct
  rw [filter_append, map_append, prod_append]

lemma keyProduct_cons : keyProduct key μ k (x :: l) = (if key x = k then μ x else 1) * keyProduct key μ k l := by
  unfold keyProduct
  by_cases h : key x = k
  · simp [h]
  · simp [h]

lemma keyProduct_eq_one (h : k ∉ l.map key) : keyProduct key μ k l = 1 := by
  have hnone : (l.filter fun x => key x = k) = [] := by
    refine filter_eq_nil_iff.mpr fun x hx hk => h ?_
    exact mem_map.mpr ⟨x, hx, of_decide_eq_true hk⟩
  unfold keyProduct
  rw [hnone]
  rfl

end Measure

def KeepsKey (key : ι → κ) (merge : ι → ι → Except ε ι) : Prop :=
  ∀ y x z, merge y x = .ok z → key y = key x → key z = key y

lemma mergeByKey_keys (hkey : KeepsKey key merge) (h : mergeByKey key merge l x = .ok l') :
    l'.map key = if key x ∈ l.map key then l.map key else l.map key ++ [key x] := by
  induction l generalizing l' with
  | nil =>
    rw [mergeByKey, Except.ok.injEq] at h
    subst h
    rfl
  | cons y l ih =>
    rw [mergeByKey] at h
    split at h
    next hsame =>
      obtain ⟨z, hz, heq⟩ := bind_eq_ok.mp h
      cases heq
      rw [map_cons, map_cons, hkey y x z hz hsame, if_pos (by rw [hsame]; exact
        mem_cons_self)]
    next hne =>
      obtain ⟨l1, hl1, heq⟩ := bind_eq_ok.mp h
      cases heq
      rw [map_cons, map_cons, ih hl1]
      by_cases hx : key x ∈ l.map key
      · rw [if_pos hx, if_pos (mem_cons_of_mem _ hx)]
      · rw [if_neg hx, if_neg fun hmem => (mem_cons.mp hmem).elim (fun e => hne e.symm) hx]
        rfl

lemma mergeByKey_nodup (hkey : KeepsKey key merge) (hnodup : (l.map key).Nodup)
    (h : mergeByKey key merge l x = .ok l') : (l'.map key).Nodup := by
  rw [mergeByKey_keys hkey h]
  split
  next => exact hnodup
  next hx =>
    refine List.nodup_append.mpr ⟨hnodup, nodup_singleton _, ?_⟩
    intro a ha b hb hab
    exact hx (mem_singleton.mp hb ▸ hab ▸ ha)

lemma mergeByKey_keyProduct [Monoid M] {μ : ι → M}
    (hμ : ∀ y x z, merge y x = .ok z → key y = key x → μ z = μ y * μ x)
    (hkey : KeepsKey key merge) (hnodup : (l.map key).Nodup) (h : mergeByKey key merge l x = .ok l') :
    keyProduct key μ k l' = keyProduct key μ k l * keyProduct key μ k [x] := by
  induction l generalizing l' with
  | nil =>
    rw [mergeByKey, Except.ok.injEq] at h
    subst h
    rw [keyProduct_nil, one_mul]
  | cons y l ih =>
    rw [map_cons, nodup_cons] at hnodup
    rw [mergeByKey] at h
    split at h
    next hsame =>
      obtain ⟨z, hz, heq⟩ := bind_eq_ok.mp h
      cases heq
      rw [keyProduct_cons, keyProduct_cons, keyProduct_cons, hkey y x z hz hsame, keyProduct_nil, ← hsame]
      by_cases hk : key y = k
      · have hrest : keyProduct key μ k l = 1 := keyProduct_eq_one (hk ▸ hnodup.1)
        rw [if_pos hk, if_pos hk, if_pos hk, hrest, hμ y x z hz hsame, mul_one, mul_one, mul_one]
      · rw [if_neg hk, if_neg hk, if_neg hk, mul_one, mul_one]
    next =>
      obtain ⟨l1, hl1, heq⟩ := bind_eq_ok.mp h
      cases heq
      rw [keyProduct_cons, keyProduct_cons, ih hnodup.2 hl1, mul_assoc]

lemma mergeByKey_ok {Q : ι → Prop} (hmerge : ∀ y x, Q y → Q x → key y = key x → ∃ z, merge y x = .ok z ∧ Q z)
    (hl : ∀ y ∈ l, Q y) (hx : Q x) : ∃ l', mergeByKey key merge l x = .ok l' ∧ ∀ y ∈ l', Q y := by
  induction l with
  | nil => exact ⟨[x], rfl, fun y hy => mem_singleton.mp hy ▸ hx⟩
  | cons y l ih =>
    have hy := hl y mem_cons_self
    have hrest := fun y' hy' => hl y' (mem_cons_of_mem y hy')
    by_cases hsame : key y = key x
    · obtain ⟨z, hz, hq⟩ := hmerge y x hy hx hsame
      refine ⟨z :: l, ?_, forall_mem_cons.mpr ⟨hq, hrest⟩⟩
      rw [mergeByKey, if_pos hsame, hz]
      rfl
    · obtain ⟨l', hl', hq⟩ := ih hrest
      refine ⟨y :: l', ?_, forall_mem_cons.mpr ⟨hy, hq⟩⟩
      rw [mergeByKey, if_neg hsame, hl']
      rfl

lemma mergeAllByKey_nodup (hkey : KeepsKey key merge) (hnodup : (l.map key).Nodup)
    (h : mergeAllByKey key merge l xs = .ok l') : (l'.map key).Nodup := by
  induction xs generalizing l with
  | nil =>
    cases h
    exact hnodup
  | cons x xs ih =>
    obtain ⟨l1, hl1, hrest⟩ := bind_eq_ok.mp h
    exact ih (mergeByKey_nodup hkey hnodup hl1) hrest

lemma mergeAllByKey_keyProduct [Monoid M] {μ : ι → M}
    (hμ : ∀ y x z, merge y x = .ok z → key y = key x → μ z = μ y * μ x)
    (hkey : KeepsKey key merge) (hnodup : (l.map key).Nodup) (h : mergeAllByKey key merge l xs = .ok l') :
    keyProduct key μ k l' = keyProduct key μ k l * keyProduct key μ k xs := by
  induction xs generalizing l with
  | nil =>
    cases h
    rw [keyProduct_nil, mul_one]
  | cons x xs ih =>
    obtain ⟨l1, hl1, hrest⟩ := bind_eq_ok.mp h
    rw [ih (mergeByKey_nodup hkey hnodup hl1) hrest, mergeByKey_keyProduct hμ hkey hnodup hl1,
      mul_assoc, ← keyProduct_append]
    rfl

lemma mergeAllByKey_ok {Q : ι → Prop} (hmerge : ∀ y x, Q y → Q x → key y = key x → ∃ z, merge y x = .ok z ∧ Q z)
    (hl : ∀ y ∈ l, Q y) (hxs : ∀ x ∈ xs, Q x) : ∃ l', mergeAllByKey key merge l xs = .ok l' ∧ ∀ y ∈ l', Q y := by
  induction xs generalizing l with
  | nil => exact ⟨l, rfl, hl⟩
  | cons x xs ih =>
    obtain ⟨l1, hl1, hq⟩ := mergeByKey_ok hmerge hl (hxs x mem_cons_self)
    obtain ⟨l', hl', hq'⟩ := ih hq fun y hy => hxs y (mem_cons_of_mem x hy)
    refine ⟨l', ?_, hq'⟩
    unfold mergeAllByKey at hl' ⊢
    rw [foldlM_cons, hl1, ok_bind, hl']

end Merge

end CustomAi
