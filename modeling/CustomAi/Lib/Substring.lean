import Mathlib.Data.List.TakeWhile
import CustomAi.Lib.PyList

/-!
# Searching for a substring

`find` and `partition` of Python strings, as functions of lists, and texts that are written by
tokens one of which writes the string that is searched for.
-/

namespace CustomAi

open List

universe u v

variable {α : Type u} [DecidableEq α]

/-- The first index at which `sub` occurs. -/
def findSub? (sub : List α) : List α → Option ℕ
  | [] => if sub = [] then some 0 else none
  | x :: l => if sub <+: x :: l then some 0 else (findSub? sub l).map (· + 1)

/-- Python's `l.find(sub)`. -/
def pyFind (l sub : List α) : ℤ := (findSub? sub l).elim (-1) Nat.cast

/-- Python's `sub in l`. -/
def hasSub (sub l : List α) : Bool := (findSub? sub l).isSome

/-- Python's `l.partition(sep)`. -/
def pyPartition (l sep : List α) : List α × List α × List α :=
  match findSub? sep l with
  | none => (l, [], [])
  | some n => (l.take n, sep, l.drop (n + sep.length))

variable {sub l : List α} {n : ℕ}

lemma exists_of_findSub? (h : findSub? sub l = some n) : ∃ u v, l = u ++ sub ++ v ∧ u.length = n := by
  induction l generalizing n with
  | nil =>
    unfold findSub? at h
    split at h
    · next hsub =>
      rw [hsub]
      exact ⟨[], [], rfl, Option.some.inj h⟩
    · cases h
  | cons x l ih =>
    unfold findSub? at h
    split at h
    · next hsub =>
      obtain ⟨v, hv⟩ := hsub
      exact ⟨[], v, hv.symm, Option.some.inj h⟩
    · obtain ⟨m, hm, rfl⟩ := Option.map_eq_some_iff.mp h
      obtain ⟨u, v, rfl, rfl⟩ := ih hm
      exact ⟨x :: u, v, rfl, rfl⟩

lemma exists_findSub?_le (sub u v : List α) : ∃ n, findSub? sub (u ++ sub ++ v) = some n ∧ n ≤ u.length := by
  induction u with
  | nil =>
    cases hl : sub ++ v with
    | nil =>
      have hsub : sub = [] := (append_eq_nil_iff.mp hl).1
      refine ⟨0, ?_, le_rfl⟩
      rw [nil_append, hl, hsub]
      rfl
    | cons x l =>
      refine ⟨0, ?_, le_rfl⟩
      rw [nil_append, hl, findSub?, if_pos ⟨v, hl⟩]
  | cons x u ih =>
    obtain ⟨n, hn, hle⟩ := ih
    rw [cons_append, cons_append, findSub?]
    split
    · exact ⟨0, rfl, Nat.zero_le _⟩
    · rw [hn]
      exact ⟨n + 1, rfl, Nat.succ_le_succ hle⟩

lemma findSub?_eq_none (h : ∀ u v, l ≠ u ++ sub ++ v) : findSub? sub l = none := by
  cases hfind : findSub? sub l with
  | none => rfl
  | some n =>
    obtain ⟨u, v, hl, -⟩ := exists_of_findSub? hfind
    exact absurd hl (h u v)

lemma findSub?_append {u v : List α} (hfirst : ∀ u' v', u ++ sub ++ v = u' ++ sub ++ v' → u.length ≤ u'.length) :
    findSub? sub (u ++ sub ++ v) = some u.length := by
  obtain ⟨n, hn, hle⟩ := exists_findSub?_le sub u v
  obtain ⟨u', v', hl, hu'⟩ := exists_of_findSub? hn
  have hge := hfirst u' v' hl
  rw [hn]
  congr 1
  omega

variable {τ : Type v}

/-- The parts of a list before and after the first `x`. -/
def beforeFirst [DecidableEq τ] (x : τ) (l : List τ) : List τ := l.takeWhile (· ≠ x)

def afterFirst [DecidableEq τ] (x : τ) (l : List τ) : List τ := (l.dropWhile (· ≠ x)).tail

section First

variable [DecidableEq τ] {x y : τ} {t t' : List τ}

lemma not_mem_beforeFirst : x ∉ beforeFirst x t := by
  intro h
  have hne := mem_takeWhile_imp h
  simp at hne

lemma eq_beforeFirst_append (h : x ∈ t) : t = beforeFirst x t ++ x :: afterFirst x t := by
  unfold beforeFirst afterFirst
  induction t with
  | nil => cases h
  | cons y t ih =>
    by_cases hy : y = x
    · simp [hy]
    · rw [takeWhile_cons_of_pos (by simpa using hy), dropWhile_cons_of_pos (by simpa using hy)]
      congr 1
      exact ih ((mem_cons.mp h).resolve_left (Ne.symm hy))

lemma beforeFirst_append_cons (h : x ∉ t) : beforeFirst x (t ++ x :: t') = t := by
  unfold beforeFirst
  induction t with
  | nil => simp
  | cons y t ih =>
    rw [mem_cons, not_or] at h
    rw [cons_append, takeWhile_cons_of_pos (by simpa using Ne.symm h.1), ih h.2]

lemma afterFirst_append_cons (h : x ∉ t) : afterFirst x (t ++ x :: t') = t' := by
  unfold afterFirst
  induction t with
  | nil => simp
  | cons y t ih =>
    rw [mem_cons, not_or] at h
    rw [cons_append, dropWhile_cons_of_pos (by simpa using Ne.symm h.1), ih h.2]

lemma beforeFirst_append_of_mem (h : x ∈ t) : beforeFirst x (t ++ t') = beforeFirst x t := by
  conv_lhs => rw [eq_beforeFirst_append h, append_assoc]
  exact beforeFirst_append_cons not_mem_beforeFirst

lemma afterFirst_append_of_mem (h : x ∈ t) : afterFirst x (t ++ t') = afterFirst x t ++ t' := by
  conv_lhs => rw [eq_beforeFirst_append h, append_assoc]
  exact afterFirst_append_cons not_mem_beforeFirst

lemma beforeFirst_append_of_not_mem (h : x ∉ t) : beforeFirst x (t ++ t') = t ++ beforeFirst x t' := by
  unfold beforeFirst
  rw [takeWhile_append_of_pos]
  intro y hy
  have hne : y ≠ x := by
    rintro rfl
    exact h hy
  simpa using hne

lemma afterFirst_append_of_not_mem (h : x ∉ t) : afterFirst x (t ++ t') = afterFirst x t' := by
  unfold afterFirst
  rw [dropWhile_append_of_pos]
  intro y hy
  have hne : y ≠ x := by
    rintro rfl
    exact h hy
  simpa using hne

end First

variable {text : τ → List α} {marker : List α} {id : τ} {t : List τ}

/-- The string `marker` occurs in the text of `t` only where the token `id` writes it. -/
def OnlyAs (text : τ → List α) (marker : List α) (id : τ) (t : List τ) : Prop :=
  ∀ u v, t.flatMap text = u ++ marker ++ v → ∃ t₁ t₂, t = t₁ ++ id :: t₂ ∧ t₁.flatMap text = u

/-- A test for `OnlyAs`, at each index of the text. -/
def Marked [DecidableEq τ] (text : τ → List α) (marker : List α) (id : τ) (t : List τ) : Bool :=
  decide (∀ n ≤ (t.flatMap text).length, marker <+: (t.flatMap text).drop n →
    ∃ k < t.length, t[k]? = some id ∧ ((t.take k).flatMap text).length = n)

lemma onlyAs_of_marked [DecidableEq τ] (h : Marked text marker id t = true) : OnlyAs text marker id t := by
  intro u v huv
  have hlen : u.length ≤ (t.flatMap text).length := by
    rw [huv, append_assoc, length_append]
    exact Nat.le_add_right _ _
  have hdrop : marker <+: (t.flatMap text).drop u.length := by
    rw [huv, append_assoc, drop_left]
    exact prefix_append _ _
  obtain ⟨k, hk, hget, hu⟩ := of_decide_eq_true h u.length hlen hdrop
  obtain ⟨_, hid⟩ := List.getElem?_eq_some_iff.mp hget
  refine ⟨t.take k, t.drop (k + 1), ?_, ?_⟩
  · conv_lhs => rw [← take_append_drop k t, drop_eq_getElem_cons hk, hid]
  · have htake : (t.take k).flatMap text <+: u := by
      refine @prefix_of_prefix_length_le _ _ _ (t.flatMap text) ?_ ?_ hu.le
      · conv_rhs => rw [← take_append_drop k t, flatMap_append]
        exact prefix_append _ _
      · rw [huv, append_assoc]
        exact prefix_append _ _
    exact htake.eq_of_length hu

omit [DecidableEq α] in
lemma OnlyAs.middle {a m b : List τ} (h : OnlyAs text marker id (a ++ m ++ b))
    (hid : text id = marker) (hmarker : marker ≠ []) : OnlyAs text marker id m := by
  intro u v hm
  have hpos : 0 < marker.length := length_pos_iff.mpr hmarker
  have htext : (a ++ m ++ b).flatMap text = (a.flatMap text ++ u) ++ marker ++ (v ++ b.flatMap text) := by
    rw [flatMap_append, flatMap_append, hm]
    simp only [append_assoc]
  obtain ⟨t₁, t₂, ht, hu⟩ := h _ _ htext
  rw [append_assoc] at ht
  rcases append_eq_append_iff.mp ht with ⟨c, hc, hrest⟩ | ⟨c, hc, hrest⟩
  · -- the token comes after `a`
    rw [hc, flatMap_append, append_cancel_left_eq] at hu
    rcases append_eq_append_iff.mp hrest with ⟨d, hd, hb⟩ | ⟨d, hd, hb⟩
    · rw [hd, flatMap_append, hm] at hu
      have hlen := congrArg length hu
      simp only [length_append] at hlen
      omega
    · cases d with
      | nil =>
        rw [append_nil] at hd
        rw [hd, hu] at hm
        have hlen := congrArg length hm
        simp only [length_append] at hlen
        omega
      | cons y d =>
        obtain ⟨rfl, -⟩ := cons.inj hb
        exact ⟨c, d, hd, hu⟩
  · cases c with
    | nil =>
      rw [append_nil] at hc
      rw [← hc] at hu
      have hu' : u = [] := by simpa using hu
      rw [nil_append] at hrest
      cases m with
      | nil =>
        have hlen := congrArg length hm
        simp only [flatMap_nil, length_nil, length_append] at hlen
        omega
      | cons y m =>
        obtain ⟨rfl, -⟩ := cons.inj hrest
        exact ⟨[], m, rfl, hu'.symm⟩
    | cons y c =>
      obtain ⟨rfl, -⟩ := cons.inj hrest
      have hlen := congrArg length hu
      rw [hc, flatMap_append, flatMap_cons, hid] at hlen
      simp only [length_append] at hlen
      omega

variable [DecidableEq τ]

omit [DecidableEq α] in
lemma flatMap_of_mem (hid : text id = marker) (hmem : id ∈ t) :
    t.flatMap text = (beforeFirst id t).flatMap text ++ marker ++ (afterFirst id t).flatMap text := by
  conv_lhs => rw [eq_beforeFirst_append hmem]
  rw [flatMap_append, flatMap_cons, hid, append_assoc]

section

variable (h : OnlyAs text marker id t)
include h

lemma OnlyAs.findSub?_of_mem (hid : text id = marker) (hmem : id ∈ t) :
    findSub? marker (t.flatMap text) = some ((beforeFirst id t).flatMap text).length := by
  rw [flatMap_of_mem hid hmem]
  refine findSub?_append fun u v huv => ?_
  rw [← flatMap_of_mem hid hmem] at huv
  obtain ⟨t₁, t₂, ht, rfl⟩ := h u v huv
  by_cases hfirst : id ∈ t₁
  · rw [ht, beforeFirst_append_of_mem hfirst]
    conv_rhs => rw [eq_beforeFirst_append hfirst]
    rw [flatMap_append, length_append]
    exact Nat.le_add_right _ _
  · rw [ht, beforeFirst_append_cons hfirst]

omit [DecidableEq τ] in
lemma OnlyAs.findSub?_of_not_mem (hmem : id ∉ t) : findSub? marker (t.flatMap text) = none := by
  refine findSub?_eq_none fun u v huv => ?_
  obtain ⟨t₁, t₂, rfl, -⟩ := h u v huv
  exact hmem (mem_append_right _ mem_cons_self)

lemma OnlyAs.hasSub_iff (hid : text id = marker) : hasSub marker (t.flatMap text) = true ↔ id ∈ t := by
  unfold hasSub
  by_cases hmem : id ∈ t
  · rw [h.findSub?_of_mem hid hmem]
    exact iff_of_true rfl hmem
  · rw [h.findSub?_of_not_mem hmem]
    exact iff_of_false Bool.false_ne_true hmem

lemma OnlyAs.pyPartition_of_mem (hid : text id = marker) (hmem : id ∈ t) : pyPartition (t.flatMap text) marker =
      ((beforeFirst id t).flatMap text, marker, (afterFirst id t).flatMap text) := by
  unfold pyPartition
  rw [h.findSub?_of_mem hid hmem]
  dsimp only
  rw [flatMap_of_mem hid hmem, append_assoc, take_left, ← append_assoc, ← length_append, drop_left]

lemma OnlyAs.pyFind_of_mem (hid : text id = marker) (hmem : id ∈ t) :
    pyFind (t.flatMap text) marker = ((beforeFirst id t).flatMap text).length := by
  unfold pyFind
  rw [h.findSub?_of_mem hid hmem]
  rfl

end

end CustomAi
