import Mathlib.Data.List.DropRight

/-!
# Texts up to surrounding whitespace

`strip` takes the whitespace off both ends of a text. What is left is tight: it does not begin or
end with whitespace.
-/

namespace CustomAi

open List

universe u

variable {α : Type u} {space : α → Bool}

/-- `text.strip()` -/
def strip (space : α → Bool) (l : List α) : List α := (l.dropWhile space).rdropWhile space

def Blank (space : α → Bool) (l : List α) : Prop := ∀ x ∈ l, space x = true

structure Tight (space : α → Bool) (l : List α) : Prop where
  head : ∀ x, l.head? = some x → space x = false
  last : ∀ x, l.getLast? = some x → space x = false

variable {a b l m u w : List α}

instance : Decidable (Blank space l) := inferInstanceAs (Decidable (∀ x ∈ l, _))

lemma Blank.append (ha : Blank space a) (hb : Blank space b) : Blank space (a ++ b) := by
  intro x hx
  rcases mem_append.mp hx with hx | hx
  · exact ha x hx
  · exact hb x hx

lemma blank_nil : Blank space ([] : List α) := nofun

lemma Tight.nil : Tight space ([] : List α) := ⟨nofun, nofun⟩

lemma dropWhile_of_head (h : ∀ x, l.head? = some x → space x = false) : l.dropWhile space = l := by
  cases l with
  | nil => rfl
  | cons x l =>
    rw [dropWhile_cons_of_neg]
    rw [h x rfl]
    exact Bool.false_ne_true

lemma rdropWhile_append_blank (hb : Blank space b) : (l ++ b).rdropWhile space = l.rdropWhile space := by
  unfold rdropWhile
  rw [reverse_append, dropWhile_append_of_pos]
  intro x hx
  exact hb x (mem_reverse.mp hx)

lemma rdropWhile_of_last (h : ∀ x, l.getLast? = some x → space x = false) : l.rdropWhile space = l := by
  unfold rdropWhile
  rw [dropWhile_of_head fun x hx => h x (by rwa [head?_reverse] at hx), reverse_reverse]

lemma strip_eq (ha : Blank space a) (hm : Tight space m) (hb : Blank space b) :
    strip space (a ++ m ++ b) = m := by
  unfold strip
  rw [append_assoc, dropWhile_append_of_pos ha]
  by_cases hnil : m = []
  · rw [hnil, nil_append]
    have hall : b.dropWhile space = [] := dropWhile_eq_nil_iff.mpr hb
    rw [hall]
    rfl
  · have hhead : (m ++ b).dropWhile space = m ++ b := by
      refine dropWhile_of_head fun x hx => hm.head x ?_
      obtain ⟨y, m, rfl⟩ := exists_cons_of_ne_nil hnil
      exact hx
    rw [hhead, rdropWhile_append_blank hb, rdropWhile_of_last hm.last]

lemma exists_dropWhile (space : α → Bool) (l : List α) : ∃ a m, l = a ++ m ∧ Blank space a ∧
    ∀ x, m.head? = some x → space x = false := by
  refine ⟨l.takeWhile space, l.dropWhile space, takeWhile_append_dropWhile.symm,
    fun x hx => mem_takeWhile_imp hx, fun x hx => ?_⟩
  have hne : l.dropWhile space ≠ [] := fun hnil => by rw [hnil] at hx; cases hx
  have hhead := head_dropWhile_not space hne
  rw [head?_eq_some_head hne, Option.some.injEq] at hx
  rwa [hx] at hhead

lemma exists_rdropWhile (space : α → Bool) (l : List α) : ∃ m b, l = m ++ b ∧ Blank space b ∧
    ∀ x, m.getLast? = some x → space x = false := by
  obtain ⟨a, m, hl, ha, hm⟩ := exists_dropWhile space l.reverse
  refine ⟨m.reverse, a.reverse, ?_, fun x hx => ha x (mem_reverse.mp hx), fun x hx => ?_⟩
  · rw [← reverse_append, ← hl, reverse_reverse]
  · rw [getLast?_reverse] at hx
    exact hm x hx

lemma exists_strip (space : α → Bool) (l : List α) : ∃ a b, l = a ++ strip space l ++ b ∧
    Blank space a ∧ Blank space b ∧ Tight space (strip space l) := by
  obtain ⟨a, l', rfl, ha, hhead⟩ := exists_dropWhile space l
  obtain ⟨m, b, rfl, hb, hlast⟩ := exists_rdropWhile space l'
  by_cases hnil : m = []
  · subst hnil
    have hb' : b = [] := by
      cases b with
      | nil => rfl
      | cons x b =>
        have hx := hb x mem_cons_self
        rw [hhead x rfl] at hx
        cases hx
    subst hb'
    have hstrip : strip space (a ++ ([] ++ [])) = [] := by
      have h := strip_eq ha (.nil : Tight space []) (blank_nil : Blank space [])
      rwa [append_assoc] at h
    rw [hstrip]
    exact ⟨a, [], by simp, ha, blank_nil, .nil⟩
  · have htight : Tight space m := by
      refine ⟨fun x hx => hhead x ?_, hlast⟩
      obtain ⟨y, m, rfl⟩ := exists_cons_of_ne_nil hnil
      exact hx
    have hstrip := strip_eq ha htight hb
    rw [append_assoc] at hstrip
    rw [hstrip]
    exact ⟨a, b, (append_assoc a m b).symm, ha, hb, htight⟩

lemma strip_of_tight (hm : Tight space m) : strip space m = m := by
  have h := strip_eq (blank_nil : Blank space []) hm blank_nil
  rwa [append_nil] at h

lemma strip_strip (l : List α) : strip space (strip space l) = strip space l :=
  strip_of_tight (exists_strip space l).choose_spec.choose_spec.2.2.2

lemma strip_of_blank (h : Blank space l) : strip space l = [] := by
  have h' := strip_eq h (.nil : Tight space []) (blank_nil : Blank space [])
  simpa using h'

lemma strip_eq_nil_iff : strip space l = [] ↔ Blank space l := by
  refine ⟨fun h => ?_, strip_of_blank⟩
  obtain ⟨a, b, hl, ha, hb, -⟩ := exists_strip space l
  rw [hl, h, append_nil]
  exact ha.append hb

lemma strip_blank_append (ha : Blank space a) : strip space (a ++ l) = strip space l := by
  obtain ⟨a', b, hl, ha', hb, htight⟩ := exists_strip space l
  conv_lhs => rw [hl]
  rw [← append_assoc, ← append_assoc, strip_eq (ha.append ha') htight hb]

lemma strip_append_blank (hb : Blank space b) : strip space (l ++ b) = strip space l := by
  obtain ⟨a, b', hl, ha, hb', htight⟩ := exists_strip space l
  conv_lhs => rw [hl]
  rw [append_assoc, strip_eq ha htight (hb'.append hb)]

lemma filter_strip (l : List α) : (strip space l).filter (fun x => !space x) = l.filter (fun x => !space x) := by
  obtain ⟨a, b, hl, ha, hb, -⟩ := exists_strip space l
  have hnone : ∀ c, Blank space c → c.filter (fun x => !space x) = [] := by
    intro c hc
    rw [filter_eq_nil_iff]
    intro x hx
    rw [hc x hx]
    exact Bool.false_ne_true
  conv_rhs => rw [hl, filter_append, filter_append, hnone a ha, hnone b hb]
  simp

lemma blank_iff_filter : Blank space l ↔ l.filter (fun x => !space x) = [] := by
  rw [filter_eq_nil_iff]
  refine forall₂_congr fun x _ => ?_
  cases space x <;> decide

lemma blank_strip_append_iff : Blank space (strip space u ++ w) ↔ Blank space (u ++ w) := by
  rw [blank_iff_filter, blank_iff_filter, filter_append, filter_append, filter_strip]

lemma strip_around (hw : Tight space w) (hne : w ≠ []) (u l : List α) :
    ∃ u' l', strip space (u ++ w ++ l) = u' ++ w ++ l' ∧ u' <:+ u ∧ l' <+: l ∧
      strip space u' = strip space u ∧ strip space l' = strip space l := by
  obtain ⟨a, u', rfl, ha, hhead⟩ := exists_dropWhile space u
  obtain ⟨l', b, rfl, hb, hlast⟩ := exists_rdropWhile space l
  obtain ⟨x, w', rfl⟩ := exists_cons_of_ne_nil hne
  have htight : Tight space (u' ++ (x :: w') ++ l') := by
    constructor
    · intro y hy
      cases u' with
      | nil => exact hw.head y hy
      | cons z u' => exact hhead y hy
    · intro y hy
      rw [getLast?_append] at hy
      cases hl : l'.getLast? with
      | some z =>
        rw [hl] at hy
        exact hlast y (hl.trans hy)
      | none =>
        rw [hl, getLast?_append] at hy
        exact hw.last y (by exact hy)
  refine ⟨u', l', ?_, suffix_append _ _, prefix_append _ _,
    (strip_blank_append ha).symm, (strip_append_blank hb).symm⟩
  have h := strip_eq ha htight hb
  rw [← h]
  simp only [append_assoc]

lemma strip_strip_append_iff : strip space (strip space u ++ w) = strip space (u ++ w) ↔
    Blank space u ∨ Blank space w ∨ ∀ x, u.getLast? = some x → space x = false := by
  obtain ⟨a, b, hu, ha, hb, hm⟩ := exists_strip space u
  obtain ⟨a', b', hw, -, hb', hm'⟩ := exists_strip space w
  constructor
  · intro heq
    by_contra hnot
    obtain ⟨hu', hnot⟩ := not_or.mp hnot
    obtain ⟨hw', hlast⟩ := not_or.mp hnot
    have hmne : strip space u ≠ [] := fun h => hu' (strip_eq_nil_iff.mp h)
    have hmne' : strip space w ≠ [] := fun h => hw' (strip_eq_nil_iff.mp h)
    have htight : ∀ c, Tight space (strip space u ++ c ++ strip space w) := by
      intro c
      constructor
      · intro x hx
        obtain ⟨y, m, hym⟩ := exists_cons_of_ne_nil hmne
        refine hm.head x ?_
        rw [hym] at hx ⊢
        exact hx
      · intro x hx
        rw [getLast?_append, getLast?_eq_some_getLast hmne'] at hx
        exact hm'.last x (by rw [getLast?_eq_some_getLast hmne']; exact hx)
    have hleft : strip space (strip space u ++ w) = strip space u ++ a' ++ strip space w := by
      conv_lhs => rw [hw]
      have h := strip_eq (blank_nil : Blank space []) (htight a') hb'
      rw [← h]
      simp only [nil_append, append_assoc]
    have hright : strip space (u ++ w) = strip space u ++ (b ++ a') ++ strip space w := by
      conv_lhs => rw [hu, hw]
      have h := strip_eq ha (htight (b ++ a')) hb'
      rw [← h]
      simp only [append_assoc]
    rw [hleft, hright] at heq
    have hlen := congrArg length heq
    simp only [length_append] at hlen
    obtain rfl : b = [] := length_eq_zero_iff.mp (by omega)
    refine hlast fun x hx => hm.last x ?_
    rw [hu, append_nil, getLast?_append, getLast?_eq_some_getLast hmne] at hx
    rw [getLast?_eq_some_getLast hmne]
    exact hx
  · rintro (hblank | hblank | hlast)
    · rw [strip_of_blank hblank, nil_append, strip_blank_append hblank]
    · rw [strip_append_blank hblank, strip_append_blank hblank, strip_strip]
    · have hbnil : b = [] := by
        rcases eq_nil_or_concat b with rfl | ⟨b0, x, rfl⟩
        · rfl
        · have hx := hb x (by simp)
          rw [hlast x (by rw [hu]; simp)] at hx
          cases hx
      conv_rhs => rw [hu, hbnil, append_nil, append_assoc]
      rw [strip_blank_append ha]

end CustomAi
