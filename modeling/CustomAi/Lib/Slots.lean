import CustomAi.Lib.Dict

/-!
# Slots and what is stored beside them

Numbered slots hold some of a set of items. Data about the items is kept in columns indexed by
slot, and has to follow them when slots are filled, emptied, moved and swapped.
-/

namespace CustomAi.Slots

open List Function Option Dict Slots

universe u v

variable {σ : Type u} {α : Type v}

/-- The item of slot `a` is moved to slot `b`, whatever was there. -/
def move (a b : ℕ) (g : ℕ → Option σ) : ℕ → Option σ :=
  Function.update (Function.update g a none) b (g a)

def swap (a b : ℕ) (c : ℕ → α) : ℕ → α := fun i => c (Equiv.swap a b i)

/-- The slots in `s` are emptied. -/
def clear (s : List ℕ) (g : ℕ → Option σ) : ℕ → Option σ := fun i => if i ∈ s then none else g i

lemma move_apply (a b : ℕ) (g : ℕ → Option σ) (i : ℕ) :
    move a b g i = if i = b then g a else if i = a then none else g i := by
  unfold move
  rw [update_apply, update_apply]

lemma swap_apply (a b : ℕ) (c : ℕ → α) (i : ℕ) :
    swap a b c i = if i = b then c a else if i = a then c b else c i := by
  unfold swap
  rw [Equiv.swap_apply_def]
  by_cases hb : i = b
  · by_cases ha : i = a
    · rw [if_pos ha, if_pos hb, ← ha, hb]
    · rw [if_neg ha, if_pos hb, if_pos hb]
  · by_cases ha : i = a
    · rw [if_pos ha, if_neg hb, if_pos ha]
    · rw [if_neg ha, if_neg hb, if_neg hb, if_neg ha]

lemma clear_none (s : List ℕ) : clear s (fun _ => (none : Option σ)) = fun _ => none := by
  funext i
  exact ite_self _

lemma update_update_eq_swap (a b : ℕ) (c : ℕ → α) :
    update (update c a (c b)) b (c a) = swap a b c := by
  funext i
  rw [swap_apply, update_apply, update_apply]

/-- The entry of the column `c` at a slot fits the item in the slot. -/
def Follows (c : ℕ → α) (g : ℕ → Option σ) (fits : α → σ → Prop) : Prop :=
  ∀ i x, g i = some x → fits (c i) x

variable {c c' : ℕ → α} {g : ℕ → Option σ} {fits : α → σ → Prop} {a b i : ℕ}

section

variable (h : Follows c g fits)
include h

lemma Follows.empty (hother : ∀ j, j ≠ i → c' j = c j) : Follows c' (update g i none) fits := by
  intro j x hj
  rw [update_apply] at hj
  split at hj
  · cases hj
  · next hji =>
    rw [hother j hji]
    exact h j x hj

lemma Follows.fill {x : σ} (hother : ∀ j, j ≠ i → c' j = c j)
    (hx : fits (c' i) x) : Follows c' (update g i (some x)) fits := by
  intro j y hj
  rw [update_apply] at hj
  split at hj
  · next hji =>
    rw [hji, ← some.inj hj]
    exact hx
  · next hji =>
    rw [hother j hji]
    exact h j y hj

lemma Follows.move (hother : ∀ j, j ≠ a → j ≠ b → c' j = c j)
    (hb : ∀ x, g a = some x → fits (c' b) x) : Follows c' (move a b g) fits := by
  intro i x hi
  rw [move_apply] at hi
  by_cases hib : i = b
  · rw [if_pos hib] at hi
    rw [hib]
    exact hb x hi
  · rw [if_neg hib] at hi
    split at hi
    · cases hi
    · next hia =>
      rw [hother i hia hib]
      exact h i x hi

lemma Follows.swap (hswap : ∀ j, c' j = swap a b c j) : Follows c' (swap a b g) fits := by
  intro i x hi
  rw [hswap]
  exact h _ x hi

end

lemma swap_eq_self (hab : c a = c b) : swap a b c = c := by
  funext i
  rw [swap_apply]
  split
  · next hi => rw [hi, hab]
  · split
    · next hi => rw [hi, hab]
    · rfl

/-- A sparse column has exactly the values of the items, except in the slots `stale`. -/
def Tracks (d : ℕ → Option α) (g : ℕ → Option σ) (value : σ → Option α) (stale : List ℕ) : Prop :=
  ∀ i, i ∉ stale → d i = (g i).bind value

variable {d d' : ℕ → Option α} {value : σ → Option α} {stale stale' : List ℕ}

section

variable (h : Tracks d g value stale)
include h

lemma Tracks.eq_none (hfree : g i = none) (hi : i ∉ stale) : d i = none := by
  rw [h i hi, hfree, Option.bind_none]

lemma Tracks.empty (hother : ∀ j, j ≠ i → d' j = d j)
    (hstale : ∀ j ∈ stale, j ∈ stale') (hi : i ∈ stale' ∨ d' i = none) :
    Tracks d' (update g i none) value stale' := by
  intro j hj
  by_cases hji : j = i
  · rw [hji, update_self]
    exact hi.resolve_left (hji ▸ hj)
  · rw [update_of_ne hji, hother j hji]
    exact h j fun hmem => hj (hstale j hmem)

lemma Tracks.fill {x : σ} (hother : ∀ j, j ≠ i → d' j = d j)
    (hx : d' i = value x) (hstale : ∀ j ∈ stale, j = i ∨ j ∈ stale') :
    Tracks d' (update g i (some x)) value stale' := by
  intro j hj
  by_cases hji : j = i
  · rw [hji, update_self]
    exact hx
  · rw [update_of_ne hji, hother j hji]
    exact h j fun hmem => (hstale j hmem).elim hji hj

lemma Tracks.move (ha : a ∉ stale)
    (hmove : ∀ j, d' j = move a b d j) (hstale : ∀ j ∈ stale, j = b ∨ j ∈ stale') :
    Tracks d' (move a b g) value stale' := by
  intro j hj
  rw [hmove, move_apply, move_apply]
  split
  · exact h a ha
  · next hjb =>
    split
    · rfl
    · exact h j fun hmem => (hstale j hmem).elim hjb hj

lemma Tracks.swap (ha : a ∉ stale) (hb : b ∉ stale)
    (hswap : ∀ j, d' j = swap a b d j) : Tracks d' (swap a b g) value stale := by
  intro j hj
  rw [hswap, swap_apply, swap_apply]
  split
  · exact h a ha
  · split
    · exact h b hb
    · exact h j hj

end

/-- The number of slots below `n` that a column fills. -/
def filled (n : ℕ) (d : ℕ → Option α) : ℕ := ((Finset.range n).filter fun i => (d i).isSome).card

lemma filled_update (d : ℕ → Option α) {n i : ℕ} (hi : i < n) (x : Option α) :
    (filled n (update d i x) : ℤ) =
      filled n d + (if x.isSome then 1 else 0) - (if (d i).isSome then 1 else 0) := by
  have hsplit : ∀ e : ℕ → Option α, (filled n e : ℤ) =
      (((Finset.range n).erase i).filter fun j => (e j).isSome).card + (if (e i).isSome then 1 else 0) := by
    intro e
    unfold filled
    have hmem : i ∈ Finset.range n := Finset.mem_range.mpr hi
    rw [← Finset.insert_erase hmem, Finset.filter_insert]
    have hnot : i ∉ ((Finset.range n).erase i).filter fun j => (e j).isSome := by simp
    split
    · simp [Finset.card_insert_of_notMem hnot]
    · simp
  have hrest : (((Finset.range n).erase i).filter fun j => (update d i x j).isSome) =
      ((Finset.range n).erase i).filter fun j => (d j).isSome := by
    refine Finset.filter_congr fun j hj => ?_
    rw [update_of_ne (Finset.ne_of_mem_erase hj)]
  rw [hsplit, hsplit d, hrest, update_self]
  omega

lemma filled_move (d : ℕ → Option α) {n a b : ℕ} (ha : a < n) (hb : b < n) (hab : a ≠ b) :
    (filled n (move a b d) : ℤ) = filled n d - (if (d b).isSome then 1 else 0) := by
  unfold move
  rw [filled_update _ hb, filled_update _ ha, update_of_ne hab.symm]
  simp

lemma filled_swap (d : ℕ → Option α) {n a b : ℕ} (ha : a < n) (hb : b < n) :
    filled n (swap a b d) = filled n d := by
  have hswap : (filled n (swap a b d) : ℤ) = filled n d := by
    rw [← update_update_eq_swap, filled_update _ hb, filled_update _ ha]
    by_cases hab : b = a
    · rw [hab, update_self]
      omega
    · rw [update_of_ne hab]
      omega
  exact_mod_cast hswap

lemma filled_eq_of_iff {d : ℕ → Option α} {n m : ℕ} (hm : m ≤ n)
    (h : ∀ i, d i ≠ none ↔ i < m) : filled n d = m := by
  unfold filled
  have hfilter : (Finset.range n).filter (fun i => (d i).isSome) = Finset.range m := by
    ext i
    rw [Finset.mem_filter, Finset.mem_range, Finset.mem_range, isSome_iff_ne_none, h]
    omega
  rw [hfilter, Finset.card_range]

lemma filled_add_length {d : ℕ → Option α} {empties : List ℕ} {n m : ℕ} (hm : m ≤ n)
    (hnodup : empties.Nodup) (hmem : ∀ i, i ∈ empties ↔ i < m ∧ d i = none)
    (hlt : ∀ i, d i ≠ none → i < m) : filled n d + empties.length = m := by
  unfold filled
  rw [← toFinset_card_of_nodup hnodup, ← Finset.card_union_of_disjoint]
  · have hunion : ((Finset.range n).filter fun i => (d i).isSome) ∪ empties.toFinset = Finset.range m := by
      ext i
      rw [Finset.mem_union, Finset.mem_filter, Finset.mem_range, List.mem_toFinset,
        Finset.mem_range, isSome_iff_ne_none, hmem]
      constructor
      · rintro (⟨-, hi⟩ | ⟨hi, -⟩)
        · exact hlt i hi
        · exact hi
      · intro hi
        by_cases hd : d i = none
        · exact .inr ⟨hi, hd⟩
        · exact .inl ⟨by omega, hd⟩
    rw [hunion, Finset.card_range]
  · rw [Finset.disjoint_left]
    intro i hi hempty
    rw [Finset.mem_filter] at hi
    rw [List.mem_toFinset, hmem] at hempty
    rw [hempty.2] at hi
    cases hi.2

lemma eq_none_of_filled_eq_zero {d : ℕ → Option α} {n i : ℕ} (h : filled n d = 0) (hi : i < n) : d i = none := by
  unfold filled at h
  rw [Finset.card_eq_zero, Finset.filter_eq_empty_iff] at h
  have hnot := h (Finset.mem_range.mpr hi)
  rwa [not_isSome_iff_eq_none] at hnot

/-- The dictionary `index` finds the slot of a key, for slots that hold keys. -/
def Inverse {κ : Type u} [DecidableEq κ] (index : Dict κ ℕ) (g : ℕ → Option κ) : Prop :=
  ∀ k i, index.get? k = some i ↔ g i = some k

variable {κ : Type u} [DecidableEq κ] {index : Dict κ ℕ} {o : ℕ → Option κ} {k k' : κ}

section

variable (h : Inverse index o)
include h

lemma Inverse.inj {i j : ℕ} (hi : o i = some k) (hj : o j = some k) : i = j := by
  have hget := (h k i).mpr hi
  rw [(h k j).mpr hj] at hget
  exact (some.inj hget).symm

lemma Inverse.empty (hi : o i = some k) : Inverse (index.erase k) (update o i none) := by
  intro k' j
  rw [get?_erase, update_apply]
  by_cases hk : k' = k
  · rw [if_pos hk]
    by_cases hji : j = i
    · rw [if_pos hji]
      simp
    · rw [if_neg hji]
      constructor
      · intro hnone
        cases hnone
      · intro hj
        exact absurd (h.inj (hk ▸ hj) hi) hji
  · rw [if_neg hk, h]
    by_cases hji : j = i
    · rw [if_pos hji, hji, hi]
      constructor
      · intro hkk
        exact absurd (some.inj hkk).symm hk
      · intro hnone
        cases hnone
    · rw [if_neg hji]

lemma Inverse.fill (hi : o i = none) (hk : ∀ j, o j ≠ some k) :
    Inverse (index.set k i) (update o i (some k)) := by
  intro k' j
  rw [get?_set, update_apply]
  by_cases hkk : k' = k
  · rw [if_pos hkk]
    by_cases hji : j = i
    · rw [hji, hkk]
      simp
    · rw [if_neg hji, hkk]
      constructor
      · intro hij
        exact absurd (some.inj hij).symm hji
      · intro hj
        exact absurd hj (hk j)
  · rw [if_neg hkk, h]
    by_cases hji : j = i
    · rw [if_pos hji, hji, hi]
      constructor
      · intro hnone
        cases hnone
      · intro hks
        exact absurd (some.inj hks).symm hkk
    · rw [if_neg hji]

lemma Inverse.move (ha : o a = some k) (hb : o b = none) : Inverse (index.set k b) (Slots.move a b o) := by
  have hmove : Slots.move a b o = update (update o a none) b (some k) := by
    rw [← ha]
    rfl
  have hset : Inverse ((index.erase k).set k b)
      (update (update o a none) b (some k)) := by
    refine (h.empty ha).fill ?_ fun j hj => ?_
    · rw [update_apply, hb, ite_self]
    · rw [update_apply] at hj
      split at hj
      · cases hj
      · next hja => exact hja (h.inj hj ha)
  rw [hmove]
  intro k' j
  rw [← hset k' j, get?_set, get?_set, get?_erase]
  split
  · rfl
  · rfl

lemma Inverse.swap (ha : o a = some k) (hb : o b = some k') :
    Inverse ((index.set k b).set k' a) (swap a b o) := by
  intro x j
  rw [get?_set, get?_set, swap_apply]
  have hx := h x j
  have hinja : ∀ j, o j = some k → j = a := fun j hj => h.inj hj ha
  have hinjb : ∀ j, o j = some k' → j = b := fun j hj => h.inj hj hb
  grind

lemma Inverse.size_eq {n : ℕ} (hlt : ∀ i, o i ≠ none → i < n) : index.size = filled n o := by
  have hkeys : index.keys.toFinset.card = index.size := by
    exact (toFinset_card_of_nodup index.nodup_keys).trans (length_map _)
  rw [← hkeys]
  refine (Finset.card_bij (fun i hi => (o i).get (Finset.mem_filter.mp hi).2) ?_ ?_ ?_).symm
  · intro i hi
    rw [List.mem_toFinset, Dict.mem_keys_iff, Dict.contains, (h _ i).mpr (some_get _).symm]
    rfl
  · intro i hi j hj hij
    refine h.inj (some_get (Finset.mem_filter.mp hi).2).symm ?_
    rw [hij, some_get]
  · intro k hk
    rw [List.mem_toFinset, Dict.mem_keys_iff] at hk
    obtain ⟨i, hi⟩ := isSome_iff_exists.mp hk
    have ho := (h k i).mp hi
    refine ⟨i, Finset.mem_filter.mpr ⟨Finset.mem_range.mpr (hlt i ?_), ?_⟩, ?_⟩
    · rw [ho]
      nofun
    · rw [ho]
      rfl
    · simp [ho]

end

end CustomAi.Slots
