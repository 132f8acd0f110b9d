import Mathlib.Data.List.Infix

/-!
# Leftmost matches

A pattern is a function that matches at the beginning of a text. A search finds the leftmost match,
and a deletion takes out all matches from left to right. What a pattern can match is bounded by the
words that its matches begin with.
-/

namespace CustomAi

open List Option

universe u v

variable {α : Type u} {β : Type v}

lemma prefix_append_cases {w s v : List α} (h : w <+: s ++ v) : w <+: s ∨ ∃ t, w = s ++ t ∧ t <+: v := by
  rcases prefix_or_prefix_of_prefix h (prefix_append s v) with hw | ⟨t, rfl⟩
  · exact .inl hw
  · exact .inr ⟨t, rfl, (prefix_append_right_inj s).mp h⟩

lemma suffix_append_cases {s u v : List α} (h : s <:+ u ++ v) : s <:+ v ∨ ∃ t, s = t ++ v ∧ t <:+ u := by
  rcases suffix_or_suffix_of_suffix h (suffix_append u v) with hs | ⟨t, rfl⟩
  · exact .inl hs
  · exact .inr ⟨t, rfl, suffix_append_self_iff.mp h⟩

abbrev Matcher (α : Type u) (β : Type v) := List α → Option (β × List α)

namespace Matcher

def search (p : Matcher α β) : List α → Option (List α × β × List α)
  | [] => (p []).map fun m => ([], m)
  | x :: l =>
    match p (x :: l) with
    | some m => some ([], m)
    | none => (search p l).map fun (before, m) => (x :: before, m)

def deleteFuel (p : Matcher α β) : ℕ → List α → List α
  | 0, l => l
  | _ + 1, [] => []
  | n + 1, x :: l =>
    match p (x :: l) with
    | some (_, rest) => deleteFuel p n rest
    | none => x :: deleteFuel p n l

def delete (p : Matcher α β) (l : List α) : List α := deleteFuel p l.length l

def findAllFuel (p : Matcher α β) : ℕ → List α → List β
  | 0, _ => []
  | _ + 1, [] => []
  | n + 1, x :: l =>
    match p (x :: l) with
    | some (b, rest) => b :: findAllFuel p n rest
    | none => findAllFuel p n l

def findAll (p : Matcher α β) (l : List α) : List β := findAllFuel p l.length l

def literal [DecidableEq α] (w : List α) : Matcher α Unit := fun l =>
  if w <+: l then some ((), l.drop w.length) else none

variable {p : Matcher α β} {u w l : List α} {m : β × List α}

/-- No match begins in `u` when `w` follows. -/
def Misses (p : Matcher α β) (u w : List α) : Prop := ∀ s, s ≠ [] → s <:+ u → p (s ++ w) = none

variable {before s v : List α} {x : α}

lemma Misses.tail (h : p.Misses (x :: u) w) : p.Misses u w :=
  fun s hs hsu => h s hs (hsu.trans (suffix_cons x u))

lemma Misses.append {u' : List α} (h : p.Misses u (u' ++ w)) (h' : p.Misses u' w) : p.Misses (u ++ u') w := by
  intro s hs hsu
  rcases suffix_append_cases hsu with hsu' | ⟨t, rfl, ht⟩
  · exact h' s hs hsu'
  · by_cases htne : t = []
    · subst htne
      exact h' _ hs (suffix_refl _)
    · rw [append_assoc]
      exact h t htne ht

lemma search_append (h : p.Misses u w) :
    p.search (u ++ w) = (p.search w).map fun (before, m) => (u ++ before, m) := by
  induction u with
  | nil => simp
  | cons x u ih =>
    have hx := h (x :: u) (cons_ne_nil x u) (suffix_refl _)
    rw [cons_append] at hx ⊢
    rw [search, hx]
    rw [ih h.tail, Option.map_map]
    rfl

lemma search_of_match (h : p l = some m) : p.search l = some ([], m) := by
  cases l with
  | nil => rw [search, h]; rfl
  | cons x l => rw [search, h]

lemma search_append_of_match (h : p.Misses u w) (hm : p w = some m) : p.search (u ++ w) = some (u, m) := by
  rw [search_append h, search_of_match hm]
  simp

lemma isSome_search (u : List α) (h : (p w).isSome) : (p.search (u ++ w)).isSome := by
  induction u with
  | nil =>
    obtain ⟨m, hm⟩ := isSome_iff_exists.mp h
    rw [nil_append, search_of_match hm]
    rfl
  | cons x u ih =>
    rw [cons_append, search]
    split
    · rfl
    · rwa [isSome_map]

lemma search_eq_none (h : p.Misses l []) (hnil : p [] = none) : p.search l = none := by
  rw [← append_nil l, search_append h, search, hnil]
  rfl

lemma exists_of_search (h : p.search l = some (before, m)) : ∃ s, l = before ++ s ∧ p s = some m := by
  induction l generalizing before with
  | nil =>
    obtain ⟨m', hm, heq⟩ := map_eq_some_iff.mp h
    obtain ⟨rfl, rfl⟩ := Prod.mk.inj heq
    exact ⟨[], rfl, hm⟩
  | cons x l ih =>
    unfold search at h
    split at h
    · rename_i m' hm
      obtain ⟨rfl, rfl⟩ := Prod.mk.inj (Option.some.inj h)
      exact ⟨x :: l, rfl, hm⟩
    · obtain ⟨⟨before', m'⟩, hm, heq⟩ := map_eq_some_iff.mp h
      obtain ⟨rfl, rfl⟩ := Prod.mk.inj heq
      obtain ⟨s, rfl, hs⟩ := ih hm
      exact ⟨s, rfl, hs⟩

def Grows (p : Matcher α β) : Prop := ∀ l v, (p l).isSome → (p (l ++ v)).isSome

lemma Grows.search_eq_none (hp : p.Grows) (h : p.search (l ++ v) = none) : p.search l = none := by
  induction l with
  | nil =>
    unfold search
    cases hm : p [] with
    | none => rfl
    | some m =>
      have hsome := hp [] v (by rw [hm]; rfl)
      obtain ⟨m', hm'⟩ := isSome_iff_exists.mp hsome
      rw [search_of_match hm'] at h
      cases h
  | cons x l ih =>
    rw [cons_append, search] at h
    split at h
    · cases h
    · rename_i hnone
      unfold search
      cases hm : p (x :: l) with
      | none =>
        rw [ih (map_eq_none_iff.mp h)]
        rfl
      | some m =>
        have hsome := hp (x :: l) v (by rw [hm]; rfl)
        rw [cons_append, hnone] at hsome
        cases hsome

def Shrinks (p : Matcher α β) : Prop :=
  ∀ l b rest, p l = some (b, rest) → rest.length < l.length

lemma deleteFuel_of_le (hp : p.Shrinks) {n k : ℕ} (hn : l.length ≤ n) (hk : l.length ≤ k) :
    p.deleteFuel n l = p.deleteFuel k l := by
  induction n generalizing l k with
  | zero =>
    obtain rfl := length_eq_zero_iff.mp (Nat.le_zero.mp hn)
    cases k <;> rfl
  | succ n ih =>
    cases l with
    | nil => cases k <;> rfl
    | cons x l =>
      obtain ⟨k, rfl⟩ : ∃ k', k = k' + 1 := ⟨k - 1, by rw [length_cons] at hk; omega⟩
      rw [length_cons] at hn hk
      unfold deleteFuel
      cases hm : p (x :: l) with
      | none => exact congrArg (x :: ·) (ih (by omega) (by omega))
      | some m =>
        have hlt := hp _ _ _ hm
        rw [length_cons] at hlt
        exact ih (by omega) (by omega)

lemma delete_cons_of_none (h : p (x :: l) = none) : p.delete (x :: l) = x :: p.delete l := by
  unfold delete
  rw [length_cons, deleteFuel, h]

lemma delete_of_match (hp : p.Shrinks) {b : β} {rest : List α} (h : p l = some (b, rest)) :
    p.delete l = p.delete rest := by
  have hlt := hp _ _ _ h
  unfold delete
  cases l with
  | nil => cases Nat.not_lt_zero _ hlt
  | cons x l =>
    rw [length_cons, deleteFuel, h]
    rw [length_cons] at hlt
    exact deleteFuel_of_le hp (by omega) le_rfl

lemma delete_append (h : p.Misses u w) : p.delete (u ++ w) = u ++ p.delete w := by
  induction u with
  | nil => rfl
  | cons x u ih =>
    have hx := h (x :: u) (cons_ne_nil x u) (suffix_refl _)
    rw [cons_append] at hx ⊢
    rw [delete_cons_of_none hx, ih h.tail, cons_append]

lemma delete_eq_self (h : p.Misses l []) : p.delete l = l := by
  have hdel := delete_append h
  rwa [show p.delete ([] : List α) = [] from rfl, append_nil] at hdel

/-- Every match begins with a word in `W`. -/
def BeginsWith (p : Matcher α β) (W : Set (List α)) : Prop :=
  ∀ l m, p l = some m → ∃ w ∈ W, w <+: l

/-- No word of `W` occurs in the text. -/
def Free (W : Set (List α)) (l : List α) : Prop := ∀ w ∈ W, ¬ w <:+: l

variable {W : Set (List α)}

lemma Free.part (h : Free W l) (hu : u <:+: l) : Free W u :=
  fun w hw hwu => h w hw (hwu.trans hu)

lemma not_prefix_of_cut (hx : x ∉ w.tail) (hs : s ≠ []) (hws : ¬ w <+: s)
    (hv : v = [] ∨ v.head? = some x) : ¬ w <+: s ++ v := by
  intro hpre
  rcases hv with rfl | hv
  · rw [append_nil] at hpre
    exact hws hpre
  · rcases prefix_append_cases hpre with hw | ⟨t, rfl, ht⟩
    · exact hws hw
    · cases t with
      | nil =>
        rw [append_nil] at hws
        exact hws (prefix_refl s)
      | cons y t =>
        obtain ⟨v', rfl⟩ := ht
        rw [cons_append, List.head?_cons, Option.some.injEq] at hv
        subst hv
        refine hx ?_
        cases s with
        | nil => exact absurd rfl hs
        | cons z s => simp

lemma Free.not_begins (hx : ∀ w ∈ W, x ∉ w.tail) (hu : Free W u) (hv : v = [] ∨ v.head? = some x)
    (hw : w ∈ W) (hs : s ≠ []) (hsu : s <:+ u) : ¬ w <+: s ++ v :=
  not_prefix_of_cut (hx w hw) hs (fun hws => hu w hw (hws.isInfix.trans hsu.isInfix)) hv

lemma BeginsWith.misses_of_free (hp : p.BeginsWith W) (hx : ∀ w ∈ W, x ∉ w.tail) (hu : Free W u)
    (hv : v = [] ∨ v.head? = some x) : p.Misses u v := by
  intro s hs hsu
  cases hm : p (s ++ v) with
  | none => rfl
  | some m =>
    obtain ⟨w, hw, hpre⟩ := hp _ _ hm
    exact absurd hpre (hu.not_begins hx hv hw hs hsu)

lemma Free.append_of_not_begins (hu : ∀ w ∈ W, ∀ s, s ≠ [] → s <:+ u → ¬ w <+: s ++ v)
    (hv : Free W v) : Free W (u ++ v) := by
  intro w hw hinf
  obtain ⟨a, b, hab⟩ := hinf
  have hsuf : w ++ b <:+ u ++ v := ⟨a, by rw [← hab, append_assoc]⟩
  rcases suffix_append_cases hsuf with hsuf | ⟨t, ht, htu⟩
  · exact hv w hw ((prefix_append w b).isInfix.trans hsuf.isInfix)
  · by_cases htne : t = []
    · subst htne
      rw [nil_append] at ht
      exact hv w hw (ht ▸ (prefix_append w b).isInfix)
    · exact hu w hw t htne htu (ht ▸ prefix_append w b)

lemma Free.append (hx : ∀ w ∈ W, x ∉ w.tail) (hu : Free W u) (hv : Free W v)
    (hhead : v = [] ∨ v.head? = some x) : Free W (u ++ v) :=
  append_of_not_begins (fun _ hw _ hs hsu => hu.not_begins hx hhead hw hs hsu) hv

lemma BeginsWith.prefix_before (hp : p.BeginsWith W) (hx : ∀ w ∈ W, x ∉ w.tail) (hu : Free W u)
    {l' : List α} (hv : v = [] ∨ v.head? = some x) (hl : l ++ l' = u ++ v)
    (h : p.search l = some (before, m)) : u <+: before := by
  obtain ⟨s, rfl, hs⟩ := exists_of_search h
  obtain ⟨w, hw, hws⟩ := hp s m hs
  have hpre : before <+: u ++ v := ⟨s ++ l', by rw [← hl, append_assoc]⟩
  rcases prefix_or_prefix_of_prefix (prefix_append u v) hpre with hle | ⟨t, rfl⟩
  · exact hle
  · by_cases htne : t = []
    · rw [htne, append_nil]
    · have hs' : s ++ l' = t ++ v := by
        rw [append_assoc, append_assoc, append_cancel_left_eq] at hl
        exact hl
      refine absurd ?_ (hu.not_begins hx hv hw htne (suffix_append _ _))
      rw [← hs']
      exact hws.trans (prefix_append _ _)

section Literal

variable [DecidableEq α]

lemma literal_beginsWith (w : List α) : (literal w).BeginsWith {w} := by
  intro l m h
  unfold literal at h
  split at h
  · exact ⟨w, rfl, ‹_›⟩
  · cases h

lemma literal_append (w v : List α) : literal w (w ++ v) = some ((), v) := by
  unfold literal
  rw [if_pos (prefix_append w v), drop_left]

lemma literal_eq_some {r : Unit × List α} (h : literal w l = some r) : l = w ++ r.2 := by
  unfold literal at h
  split at h
  · rename_i hpre
    obtain ⟨v, rfl⟩ := hpre
    rw [← Option.some.inj h, drop_left]
  · cases h

end Literal

end Matcher

end CustomAi
