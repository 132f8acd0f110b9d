import Mathlib.Data.List.Chain

/-!
# Greedy groups

A list cut into groups of neighbours: an element joins the group before it where the group takes
it, and otherwise begins the next one.
-/

namespace CustomAi.Lib.GreedyGroups

open List

section

variable {α : Type*} (ok : List α → α → Prop)

/-- The elements join the group that `a` begins, one after the other. -/
def Fits (a : α) (xs : List α) : Prop := ∀ ys y, ys ++ [y] <+: xs → ok (a :: ys) y

/-- An element begins a group where the elements before it fit groups, the last of which does not
take it. -/
inductive Begins : List α → α → Prop
  | first (a : α) : Begins [] a
  | next {xs ys : List α} {a b : α} : Begins xs a → Fits ok a ys → ¬ok (a :: ys) b → Begins (xs ++ a :: ys) b

variable [∀ g, DecidablePred (ok g)]

def groups (g : List α) : List α → List (List α)
  | [] => [g]
  | x :: xs => if ok g x then groups (g ++ [x]) xs else g :: groups [x] xs

lemma flatten_groups (g xs : List α) : (groups ok g xs).flatten = g ++ xs := by
  fun_induction groups ok g xs with
  | case1 g => simp
  | case2 g x xs h ih => simp [ih]
  | case3 g x xs h ih => simp [ih]

lemma groups_eq_cons (g xs : List α) : ∃ g' gs, groups ok g xs = g' :: gs ∧ g <+: g' := by
  fun_induction groups ok g xs with
  | case1 g => exact ⟨g, [], rfl, prefix_rfl⟩
  | case2 g x xs h ih =>
    obtain ⟨g', gs, hgs, hpre⟩ := ih
    exact ⟨g', gs, hgs, (prefix_append g [x]).trans hpre⟩
  | case3 g x xs h ih => exact ⟨g, _, rfl, prefix_rfl⟩

/-- A group is not followed by an element that it takes. -/
lemma isChain_groups (g xs : List α) : (groups ok g xs).IsChain fun g h => ∀ x ∈ h.head?, ¬ok g x := by
  fun_induction groups ok g xs with
  | case1 g => exact .singleton g
  | case2 g x xs h ih => exact ih
  | case3 g x xs h ih =>
    obtain ⟨_, gs, hgs, ys, rfl⟩ := groups_eq_cons ok [x] xs
    rw [hgs] at ih ⊢
    refine isChain_cons_cons.mpr ⟨fun y hy => ?_, ih⟩
    obtain rfl := Option.some.inj hy
    exact h

/-- What is kept when a group takes an element holds of all groups. -/
lemma of_mem_groups {P : List α → Prop} (hone : ∀ x, P [x])
    (hstep : ∀ g x, P g → ok g x → P (g ++ [x])) {g xs : List α} (hg : P g) : ∀ g' ∈ groups ok g xs, P g' := by
  fun_induction groups ok g xs with
  | case1 g => simpa using hg
  | case2 g x xs h ih => exact ih (hstep g x hg h)
  | case3 g x xs h ih => exact forall_mem_cons.mpr ⟨hg, ih (hone x)⟩

end

section

variable {α : Type*} {ok : List α → α → Prop} {a b : α} {xs ys zs : List α}

lemma Fits.nil (a : α) : Fits ok a [] := fun ys y h => by simp at h

lemma Fits.concat_iff : Fits ok a (xs ++ [b]) ↔ Fits ok a xs ∧ ok (a :: xs) b := by
  refine ⟨fun h => ⟨fun ys y hy => h ys y (hy.trans (prefix_append ..)), h xs b prefix_rfl⟩, ?_⟩
  rintro ⟨hxs, hb⟩ ys y hy
  obtain heq | hy := prefix_concat_iff.mp hy
  · obtain ⟨rfl, rfl⟩ := append_singleton_inj.mp heq
    exact hb
  · exact hxs ys y hy

variable [∀ g, DecidablePred (ok g)]

lemma groups_of_fits (h : Fits ok a ys) (xs : List α) :
    groups ok [a] (ys ++ xs) = groups ok (a :: ys) xs := by
  induction ys using reverseRecOn generalizing xs with
  | nil => rfl
  | append_singleton ys y ih =>
    obtain ⟨hys, hy⟩ := Fits.concat_iff.mp h
    rw [append_assoc, ih hys, singleton_append, groups, if_pos hy, cons_append]

/-- The groups from one that is begun on are groups of the whole list. -/
lemma groups_of_begins (hb : Begins ok xs b) (zs : List α) (heq : a :: ys = xs ++ b :: zs) :
    ∃ gs, groups ok [a] ys = gs ++ groups ok [b] zs := by
  induction hb generalizing zs with
  | first b =>
    obtain ⟨rfl, rfl⟩ := cons.inj heq
    exact ⟨[], rfl⟩
  | @next xs ms c b hbegins hfits hnot ih =>
    obtain ⟨gs, hgs⟩ := ih (ms ++ b :: zs) (by rw [heq, append_assoc, cons_append])
    rw [groups_of_fits hfits, groups, if_neg hnot] at hgs
    exact ⟨gs ++ [c :: ms], by rw [hgs, append_assoc, singleton_append]⟩

/-- A group begins where it stands and its elements fit it. -/
lemma begins_of_mem_groups {g ps : List α} (hb : Begins ok ps a) (hf : Fits ok a ys)
    (hg : g ∈ groups ok (a :: ys) xs) : ∃ ps' a' ys' zs, g = a' :: ys' ∧
      ps ++ a :: ys ++ xs = ps' ++ a' :: ys' ++ zs ∧ Begins ok ps' a' ∧ Fits ok a' ys' := by
  induction xs generalizing ps a ys with
  | nil => exact ⟨ps, a, ys, [], mem_singleton.mp hg, rfl, hb, hf⟩
  | cons x xs ih =>
    rw [groups] at hg
    split at hg
    · next hx =>
      obtain ⟨ps', a', ys', zs, hall⟩ := ih hb (Fits.concat_iff.mpr ⟨hf, hx⟩) hg
      exact ⟨ps', a', ys', zs, by simpa using hall⟩
    · next hx =>
      obtain rfl | hg := mem_cons.mp hg
      · exact ⟨ps, a, ys, x :: xs, rfl, rfl, hb, hf⟩
      · obtain ⟨ps', a', ys', zs, hall⟩ := ih (hb.next hf hx) (Fits.nil x) hg
        exact ⟨ps', a', ys', zs, by simpa using hall⟩

/-- What a group's beginnings inherit holds of all groups if it holds of all beginnings of groups. -/
theorem forall_groups_iff {P : List α → Prop} (hsub : ∀ g h, P (g ++ h) → P g) (a : α) (xs : List α) :
    (∀ g ∈ groups ok [a] xs, P g) ↔ ∀ ps b ys zs, a :: xs = ps ++ b :: ys ++ zs → Begins ok ps b →
      Fits ok b ys → P (b :: ys) := by
  refine ⟨fun h ps b ys zs heq hb hf => ?_, fun h g hg => ?_⟩
  · obtain ⟨gs, hgs⟩ := groups_of_begins hb (ys ++ zs) (by rw [heq, append_assoc, cons_append])
    rw [groups_of_fits hf] at hgs
    obtain ⟨_, hs, heqs, ts, rfl⟩ := groups_eq_cons ok (b :: ys) zs
    exact hsub _ ts (h _ (by simp [hgs, heqs]))
  · obtain ⟨ps, b, ys, zs, rfl, heq, hb, hf⟩ := begins_of_mem_groups (.first a) (Fits.nil a) hg
    exact h ps b ys zs heq hb hf

end

end CustomAi.Lib.GreedyGroups
