import Mathlib.Data.List.Infix

/-!
# Texts that arrive in chunks

A text is cut into chunks. A position of it is reached with one of them, and what has arrived then
goes on to the end of this chunk.
-/

namespace CustomAi.Chunks

open List

universe u

variable {α : Type u} {A B cs : List (List α)} {c : List α} {n k : ℕ}

/-- How much of the text has arrived when its first `n` elements have. -/
def reach (n : ℕ) : List (List α) → ℕ
  | [] => 0
  | c :: cs => if n ≤ c.length then c.length else c.length + reach (n - c.length) cs

lemma reach_append (h : A.flatten.length < n) :
    reach n (A ++ B) = A.flatten.length + reach (n - A.flatten.length) B := by
  induction A generalizing n with
  | nil => simp
  | cons c A ih =>
    rw [flatten_cons, length_append] at h
    rw [cons_append, reach, if_neg (by omega), ih (by omega), flatten_cons,
      length_append, Nat.sub_sub, Nat.add_assoc]

lemma reach_of_split (h : A.flatten.length < n) (hc : n ≤ A.flatten.length + c.length) :
    reach n (A ++ c :: B) = A.flatten.length + c.length := by
  rw [reach_append h, reach, if_pos (by omega)]

lemma exists_split (hn : 0 < n) (h : n ≤ cs.flatten.length) : ∃ A c B, cs = A ++ c :: B ∧
    A.flatten.length < n ∧ n ≤ A.flatten.length + c.length := by
  induction cs generalizing n with
  | nil =>
    rw [flatten_nil, length_nil] at h
    omega
  | cons c cs ih =>
    rw [flatten_cons, length_append] at h
    by_cases hc : n ≤ c.length
    · exact ⟨[], c, cs, rfl, hn, by simpa using hc⟩
    · obtain ⟨A, c', B, rfl, hA, hB⟩ := ih (n := n - c.length) (by omega) (by omega)
      refine ⟨c :: A, c', B, rfl, ?_, ?_⟩
      · rw [flatten_cons, length_append]
        omega
      · rw [flatten_cons, length_append]
        omega

lemma prefix_before {u v : List α} (h : (A ++ B).flatten = u ++ v)
    (hlen : A.flatten.length < u.length) : A.flatten <+: u.dropLast := by
  rw [flatten_append] at h
  refine prefix_of_prefix_length_le ⟨B.flatten, h⟩ (( dropLast_prefix u).trans (prefix_append u v)) ?_
  rw [length_dropLast]
  omega

lemma exists_rest {u v : List α} (h : (A ++ c :: B).flatten = u ++ v)
    (hlen : u.length ≤ A.flatten.length + c.length) : ∃ y, A.flatten ++ c = u ++ y ∧ y ++ B.flatten = v := by
  rw [flatten_append, flatten_cons, ← append_assoc] at h
  have hpre : u <+: A.flatten ++ c := prefix_of_prefix_length_le ⟨v, h.symm⟩
    (prefix_append _ _) (by rwa [length_append])
  obtain ⟨y, hy⟩ := hpre
  refine ⟨y, hy.symm, ?_⟩
  rw [← hy, append_assoc, append_cancel_left_eq] at h
  exact h

end CustomAi.Chunks
