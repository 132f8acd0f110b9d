import Mathlib.Tactic.Ring

/-!
# Interleaved shares

Positions are dealt out to `parts` owners in turn, `interleave` at a time. An owner keeps its
positions in order, so that a position is known from its owner and its place there. A list whose
elements are each split into as many pieces is read back by division with remainder.
-/

namespace CustomAi

def ownerOf (interleave parts x : ℕ) : ℕ := x / interleave % parts

def placeOf (interleave parts x : ℕ) : ℕ :=
  x / (parts * interleave) * interleave + x % interleave

variable {interleave parts x y n : ℕ}

@[simp] lemma ownerOf_one (x : ℕ) : ownerOf interleave 1 x = 0 := Nat.mod_one _

@[simp] lemma placeOf_one (x : ℕ) : placeOf interleave 1 x = x := by
  unfold placeOf
  rw [Nat.one_mul, Nat.mul_comm, Nat.div_add_mod]

lemma position_eq (hinterleave : 0 < interleave) (x : ℕ) :
    x = (placeOf interleave parts x / interleave * parts + ownerOf interleave parts x) *
      interleave + placeOf interleave parts x % interleave := by
  have hround : x / (parts * interleave) = x / interleave / parts := by
    rw [Nat.mul_comm, Nat.div_div_eq_div_mul]
  have hdiv : placeOf interleave parts x / interleave = x / (parts * interleave) := by
    unfold placeOf
    rw [Nat.mul_comm, Nat.mul_add_div hinterleave, Nat.div_eq_of_lt (Nat.mod_lt _ hinterleave), Nat.add_zero]
  have hmod : placeOf interleave parts x % interleave = x % interleave := by
    unfold placeOf
    rw [Nat.mul_comm, Nat.mul_add_mod, Nat.mod_mod]
  rw [hdiv, hmod, hround]
  unfold ownerOf
  rw [Nat.mul_comm (x / interleave / parts) parts, Nat.div_add_mod, Nat.mul_comm, Nat.div_add_mod]

lemma position_inj (hinterleave : 0 < interleave) (howner : ownerOf interleave parts x = ownerOf interleave parts y)
    (hplace : placeOf interleave parts x = placeOf interleave parts y) : x = y := by
  rw [position_eq hinterleave x, howner, hplace, ← position_eq hinterleave y]

lemma placeOf_lt (hdvd : interleave ∣ n) (hx : x < n * parts) : placeOf interleave parts x < n := by
  obtain ⟨rounds, rfl⟩ := hdvd
  have hinterleave : 0 < interleave := by
    rcases Nat.eq_zero_or_pos interleave with rfl | hpos
    · omega
    · exact hpos
  have hround : x / (parts * interleave) < rounds := by
    refine Nat.div_lt_of_lt_mul ?_
    calc x < interleave * rounds * parts := hx
      _ = parts * interleave * rounds := by ring
  have hmod := Nat.mod_lt x hinterleave
  calc x / (parts * interleave) * interleave + x % interleave
      < x / (parts * interleave) * interleave + interleave := Nat.add_lt_add_left hmod _
    _ = (x / (parts * interleave) + 1) * interleave := by ring
    _ ≤ rounds * interleave := Nat.mul_le_mul_right _ hround
    _ = interleave * rounds := Nat.mul_comm _ _

lemma getElem?_flatMap_pieces {α β : Type*} {n : ℕ} (hn : 0 < n) (f : α → ℕ → β) (l : List α) (i : ℕ) :
    (l.flatMap fun a => (List.range n).map (f a))[i]? = l[i / n]?.map fun a => f a (i % n) := by
  induction l generalizing i with
  | nil => simp
  | cons a l ih =>
    rw [List.flatMap_cons]
    by_cases hi : i < n
    · rw [List.getElem?_append_left (by simpa using hi), Nat.div_eq_of_lt hi, Nat.mod_eq_of_lt hi]
      simp [hi]
    · have hlen : ((List.range n).map (f a)).length = n := by simp
      obtain ⟨j, rfl⟩ := Nat.exists_eq_add_of_le (Nat.not_lt.mp hi)
      rw [List.getElem?_append_right (by omega), hlen, Nat.add_sub_cancel_left, ih,
        Nat.add_div_left _ hn, List.getElem?_cons_succ, Nat.add_mod_left]

lemma mul_add_inj {n q q' r r' : ℕ} (hr : r < n) (hr' : r' < n) (h : q * n + r = q' * n + r') :
    q = q' ∧ r = r' := by
  have hq : q = q' := by
    have hdiv := congrArg (· / n) h
    have hn : 0 < n := Nat.zero_lt_of_lt hr
    simpa [Nat.mul_comm _ n, Nat.mul_add_div hn, Nat.div_eq_of_lt hr, Nat.div_eq_of_lt hr'] using hdiv
  subst hq
  exact ⟨rfl, Nat.add_left_cancel h⟩

end CustomAi
