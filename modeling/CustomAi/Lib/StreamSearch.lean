import Mathlib.Data.List.Infix
import Mathlib.Data.List.Range
import Mathlib.Data.Nat.Find

/-!
# Words in a growing text

Where a word first ends in the part of a text that is new, and which word of a list is reported.
A text that grows in several steps is searched once for all of them, or after each of them.
-/

namespace CustomAi

open List Option

variable {α : Type} [DecidableEq α]

/-- The first end, after `n`, of an occurrence of the word. -/
def findEnd (word : List α) (n : ℕ) (text : List α) : Option ℕ :=
  (List.range (text.length + 1)).find? fun e => n < e ∧ word <:+ text.take e

/-- The first word of the list that ends after `n`, and where. -/
def report (words : List (List α)) (n : ℕ) (text : List α) : Option (List α × ℕ) :=
  words.findSome? fun word => (findEnd word n text).map fun e => (word, e)

variable {word : List α} {words l r : List (List α)} {text mid : List α} {n e : ℕ}

lemma findEnd_eq_some_iff : findEnd word n text = some e ↔ (n < e ∧ e ≤ text.length ∧ word <:+ text.take e) ∧
      ∀ e', n < e' → e' < e → ¬ word <:+ text.take e' := by
  unfold findEnd
  rw [List.find?_range_eq_some]
  simp only [decide_eq_true_eq, mem_range, Nat.lt_succ_iff, Bool.not_eq_true', decide_eq_false_iff_not, not_and]
  constructor
  · rintro ⟨⟨hn, hw⟩, he, hfirst⟩
    exact ⟨⟨hn, he, hw⟩, fun e' hn' he' => hfirst e' he' hn'⟩
  · rintro ⟨⟨hn, he, hw⟩, hfirst⟩
    exact ⟨⟨hn, hw⟩, he, fun e' he' hn' => hfirst e' hn' he'⟩

lemma findEnd_eq_none_iff : findEnd word n text = none ↔ ∀ e, n < e → e ≤ text.length → ¬ word <:+ text.take e := by
  unfold findEnd
  rw [List.find?_range_eq_none]
  simp only [Nat.lt_succ_iff, Bool.not_eq_true', decide_eq_false_iff_not, not_and]
  exact ⟨fun h e hn he => h e he hn, fun h e he hn => h e hn he⟩

omit [DecidableEq α] in
lemma take_prefix_eq (h : mid <+: text) (he : e ≤ mid.length) : text.take e = mid.take e := by
  obtain ⟨t, rfl⟩ := h
  exact take_append_of_le_length he

lemma findEnd_append (h : mid <+: text) (hn : n ≤ mid.length) :
    findEnd word n text = (findEnd word n mid).or (findEnd word mid.length text) := by
  cases hmid : findEnd word n mid with
  | some e =>
    obtain ⟨⟨hne, he, hw⟩, hfirst⟩ := findEnd_eq_some_iff.mp hmid
    rw [some_or, findEnd_eq_some_iff, take_prefix_eq h he]
    refine ⟨⟨hne, he.trans h.length_le, hw⟩, fun e' hn' he' => ?_⟩
    rw [take_prefix_eq h (by omega)]
    exact hfirst e' hn' he'
  | none =>
    rw [findEnd_eq_none_iff] at hmid
    have hbefore : ∀ e', n < e' → e' ≤ mid.length → ¬ word <:+ text.take e' := by
      intro e' hn' he'
      rw [take_prefix_eq h he']
      exact hmid e' hn' he'
    cases hrest : findEnd word mid.length text with
    | some e =>
      obtain ⟨⟨hne, he, hw⟩, hfirst⟩ := findEnd_eq_some_iff.mp hrest
      refine findEnd_eq_some_iff.mpr ⟨⟨by omega, he, hw⟩, fun e' hn' he' => ?_⟩
      rcases Nat.lt_or_ge mid.length e' with hlt | hle
      · exact hfirst e' hlt he'
      · exact hbefore e' hn' hle
    | none =>
      rw [findEnd_eq_none_iff] at hrest
      refine findEnd_eq_none_iff.mpr fun e' hn' he' => ?_
      rcases Nat.lt_or_ge mid.length e' with hlt | hle
      · exact hrest e' hlt he'
      · exact hbefore e' hn' hle

lemma report_eq_none_iff : report words n text = none ↔ ∀ word ∈ words, findEnd word n text = none := by
  unfold report
  simp

lemma report_congr {n' : ℕ} {text' : List α} (h : ∀ word ∈ words, findEnd word n text = findEnd word n' text') :
    report words n text = report words n' text' := by
  induction words with
  | nil => rfl
  | cons w words ih =>
    unfold report
    rw [List.findSome?_cons, List.findSome?_cons, h w mem_cons_self]
    have hrest := ih fun word hword => h word (mem_cons_of_mem w hword)
    unfold report at hrest
    rw [hrest]

lemma report_cons (word : List α) (r : List (List α)) : report (word :: r) n text =
    ((findEnd word n text).map fun e => (word, e)).or (report r n text) := by
  unfold report
  rw [List.findSome?_cons]
  cases findEnd word n text <;> rfl

lemma report_eq_some (h : report words n text = some (word, e)) :
    ∃ l r, words = l ++ word :: r ∧ report l n text = none ∧ findEnd word n text = some e := by
  induction words with
  | nil => cases h
  | cons w words ih =>
    rw [report_cons] at h
    cases hw : findEnd w n text with
    | some e' =>
      rw [hw] at h
      cases h
      exact ⟨[], words, rfl, rfl, hw⟩
    | none =>
      rw [hw] at h
      obtain ⟨l, r, rfl, hl, he⟩ := ih h
      refine ⟨w :: l, r, rfl, ?_, he⟩
      rw [report_cons, hw]
      exact hl

section

variable {T : ℕ → List α} {a b j : ℕ}

section

variable (hT : ∀ i, T i <+: T (i + 1))
include hT

omit [DecidableEq α] in
lemma prefix_steps (h : a ≤ b) : T a <+: T b := by
  induction b, h using Nat.le_induction with
  | base => exact prefix_rfl
  | succ b _ ih => exact ih.trans (hT b)

lemma findEnd_steps_eq_none_iff (h : a ≤ b) : findEnd word (T a).length (T b) = none ↔
      ∀ i, a ≤ i → i < b → findEnd word (T i).length (T (i + 1)) = none := by
  induction b, h using Nat.le_induction with
  | base =>
    refine ⟨fun _ i ha hb => absurd hb (by omega), fun _ => findEnd_eq_none_iff.mpr ?_⟩
    omega
  | succ b hab ih =>
    rw [findEnd_append (hT b) (prefix_steps hT hab).length_le, or_eq_none_iff, ih]
    constructor
    · rintro ⟨hsteps, hlast⟩ i ha hb
      rcases Nat.lt_succ_iff_lt_or_eq.mp hb with hlt | rfl
      · exact hsteps i ha hlt
      · exact hlast
    · intro hsteps
      exact ⟨fun i ha hb => hsteps i ha (by omega), hsteps b hab (by omega)⟩

lemma report_steps_eq_none_iff (h : a ≤ b) : report words (T a).length (T b) = none ↔
      ∀ i, a ≤ i → i < b → report words (T i).length (T (i + 1)) = none := by
  rw [report_eq_none_iff]
  constructor
  · intro hnone i ha hb
    refine report_eq_none_iff.mpr fun word hw => ?_
    exact (findEnd_steps_eq_none_iff hT h).mp (hnone word hw) i ha hb
  · intro hsteps word hw
    refine (findEnd_steps_eq_none_iff hT h).mpr fun i ha hb => ?_
    exact report_eq_none_iff.mp (hsteps i ha hb) word hw

/-- The word of the first step is reported, unless an earlier word of the list ends later. -/
lemma report_steps_eq_some (ha : a ≤ j) (hb : j < b)
    (hfirst : ∀ i, a ≤ i → i < j → report (l ++ word :: r) (T i).length (T (i + 1)) = none)
    (hl : report l (T j).length (T (j + 1)) = none) (he : findEnd word (T j).length (T (j + 1)) = some e) :
    report (l ++ word :: r) (T a).length (T b) = (report l (T (j + 1)).length (T b)).or (some (word, e)) := by
  have hword : findEnd word (T a).length (T b) = some e := by
    have hnone : findEnd word (T a).length (T j) = none := by
      refine (findEnd_steps_eq_none_iff hT ha).mpr fun i hai hij => ?_
      exact report_eq_none_iff.mp (hfirst i hai hij) word (mem_append_right l mem_cons_self)
    have hupto : findEnd word (T a).length (T (j + 1)) = some e := by
      rw [findEnd_append (hT j) (prefix_steps hT ha).length_le, hnone, he]
      rfl
    rw [findEnd_append (prefix_steps hT hb) (prefix_steps hT (by omega)).length_le, hupto]
    rfl
  have hlate : report l (T a).length (T b) = report l (T (j + 1)).length (T b) := by
    refine report_congr fun w hw => ?_
    have hnone : findEnd w (T a).length (T (j + 1)) = none := by
      refine (findEnd_steps_eq_none_iff hT (by omega)).mpr fun i hai hij => ?_
      rcases Nat.lt_succ_iff_lt_or_eq.mp hij with hlt | rfl
      · exact report_eq_none_iff.mp (hfirst i hai hlt) w (mem_append_left _ hw)
      · exact report_eq_none_iff.mp hl w hw
    rw [findEnd_append (prefix_steps hT hb) (prefix_steps hT (by omega)).length_le, hnone]
    rfl
  rw [report, findSome?_append, ← report, ← report, hlate, report_cons, hword]
  cases report l (T (j + 1)).length (T b) <;> rfl

end

end

end CustomAi
