import Mathlib.Data.List.Basic
import Mathlib.Tactic.Ring
import CustomAi.Lib.PyList

/-!
# One-dimensional arrays

Some operations of NumPy on one-dimensional arrays, and arrays that consist of a group for each of
a list of items: element-wise operations on such arrays act inside the groups.
-/

namespace CustomAi

open List Function

universe u v w

variable {α : Type u} {β : Type v} {γ : Type w} {ρ : Type u}

/-- `np.repeat` -/
def npRepeat (l : List α) (counts : List ℤ) : List α :=
  (zipWith (fun x n => replicate n.toNat x) l counts).flatten

/-- `np.arange(n)` -/
def npArange (n : ℤ) : List ℤ := (List.range n.toNat).map Nat.cast

def cumsumFrom : ℤ → List ℤ → List ℤ
  | _, [] => []
  | sum, x :: l => (sum + x) :: cumsumFrom (sum + x) l

/-- `np.cumsum` -/
def npCumsum (l : List ℤ) : List ℤ := cumsumFrom 0 l

/-- `l[mask]` -/
def getMask : List Bool → List α → List α
  | true :: mask, x :: l => x :: getMask mask l
  | false :: mask, _ :: l => getMask mask l
  | _, _ => []

/-- `l[mask] = values` -/
def setMask : List Bool → List α → List α → List α
  | true :: mask, _ :: l, x :: values => x :: setMask mask l values
  | false :: mask, y :: l, values => y :: setMask mask l values
  | _, l, _ => l

/-- `l[indices] = values` -/
def setIndices (l : List α) (indices : List ℤ) (values : List α) : List α :=
  (indices.zip values).foldl (fun l x => pySet l x.1 x.2) l

/-- `l.view(rows, -1)`, the rows being `width` long. -/
def viewRows (width : ℕ) : ℕ → List α → List (List α)
  | 0, _ => []
  | rows + 1, l => l.take width :: viewRows width rows (l.drop width)

lemma length_npArange (n : ℤ) : (npArange n).length = n.toNat := by
  unfold npArange
  rw [length_map, length_range]

lemma mem_npArange {n i : ℤ} : i ∈ npArange n ↔ 0 ≤ i ∧ i < n := by
  unfold npArange
  rw [mem_map]
  constructor
  · rintro ⟨k, hk, rfl⟩
    rw [mem_range] at hk
    omega
  · intro hi
    refine ⟨i.toNat, mem_range.mpr (by omega), by omega⟩

lemma npArange_add {m n : ℤ} (hm : 0 ≤ m) (hn : 0 ≤ n) :
    npArange (m + n) = npArange m ++ (npArange n).map (m + ·) := by
  unfold npArange
  rw [Int.toNat_add hm hn, range_add, map_append, map_map, map_map]
  congr 1
  refine map_congr_left fun k _ => ?_
  simp only [comp_apply]
  omega

lemma npArange_succ {n : ℤ} (hn : 0 ≤ n) : npArange (n + 1) = npArange n ++ [n] := by
  rw [npArange_add hn Int.one_nonneg]
  simp [npArange]

lemma npArange_cons {n : ℤ} (hn : 0 < n) : npArange n = 0 :: (npArange (n - 1)).map (1 + ·) := by
  have hsplit := npArange_add Int.one_nonneg (Int.le_sub_one_of_lt hn)
  rw [add_sub_cancel] at hsplit
  rw [hsplit]
  rfl

lemma replicate_eq_map (n : ℤ) (x : α) : replicate n.toNat x = (npArange n).map fun _ => x := by
  rw [map_const', length_npArange]

lemma flatMap_npArange (f : ℤ → β) (off len : ℤ → ℤ) {n : ℤ} (hn : 0 ≤ n) (hzero : off 0 = 0)
    (hoff : ∀ a, 0 ≤ a → a < n → 0 ≤ off a ∧ 0 ≤ len a ∧ off (a + 1) = off a + len a) :
    (npArange n).flatMap (fun a => (npArange (len a)).map fun j => f (off a + j)) = (npArange (off n)).map f := by
  obtain ⟨k, rfl⟩ := Int.eq_ofNat_of_zero_le hn
  induction k with
  | zero => simp [npArange, hzero]
  | succ k ih =>
    have hk : (0 : ℤ) ≤ k := Int.natCast_nonneg k
    obtain ⟨hoffk, hlenk, hnext⟩ := hoff k hk (by omega)
    have hprev := ih hk fun a ha hak => hoff a ha (by omega)
    push_cast
    rw [npArange_succ hk, flatMap_append, hprev, flatMap_singleton, hnext,
      npArange_add hoffk hlenk, map_append, map_map]
    rfl

/-- An array with `n r` entries for each item `r`. -/
def grouped (rs : List ρ) (n : ρ → ℤ) (g : ρ → ℤ → β) : List β :=
  rs.flatMap fun r => (npArange (n r)).map (g r)

variable {rs : List ρ} {n : ρ → ℤ} {g g' : ρ → ℤ → β}

lemma grouped_cons (r : ρ) (rs : List ρ) (n : ρ → ℤ) (g : ρ → ℤ → β) :
    grouped (r :: rs) n g = (npArange (n r)).map (g r) ++ grouped rs n g := rfl

lemma grouped_congr (h : ∀ r ∈ rs, ∀ a, 0 ≤ a → a < n r → g r a = g' r a) : grouped rs n g = grouped rs n g' := by
  refine flatMap_congr fun r hr => ?_
  refine map_congr_left fun a ha => ?_
  obtain ⟨h0, hlt⟩ := mem_npArange.mp ha
  exact h r hr a h0 hlt

lemma map_grouped (f : β → γ) : (grouped rs n g).map f = grouped rs n fun r a => f (g r a) := by
  unfold grouped
  rw [map_flatMap]
  refine flatMap_congr fun r _ => ?_
  rw [map_map]
  rfl

def pairs (rs : List ρ) (n : ρ → ℤ) : List (ρ × ℤ) := grouped rs n fun r a => (r, a)

lemma grouped_eq_map (rs : List ρ) (n : ρ → ℤ) (g : ρ → ℤ → β) :
    grouped rs n g = (pairs rs n).map fun y => g y.1 y.2 := by
  unfold pairs
  rw [map_grouped]

lemma mem_pairs {y : ρ × ℤ} : y ∈ pairs rs n ↔ y.1 ∈ rs ∧ 0 ≤ y.2 ∧ y.2 < n y.1 := by
  unfold pairs grouped
  rw [mem_flatMap]
  constructor
  · rintro ⟨r, hr, hy⟩
    obtain ⟨a, ha, rfl⟩ := mem_map.mp hy
    exact ⟨hr, mem_npArange.mp ha⟩
  · rintro ⟨hr, ha⟩
    exact ⟨y.1, hr, mem_map.mpr ⟨y.2, mem_npArange.mpr ha, rfl⟩⟩

lemma grouped_zipIdx : grouped rs n g = grouped rs.zipIdx (fun x => n x.1) fun x => g x.1 := by
  unfold grouped
  conv_lhs => rw [← zipIdx_map_fst 0 rs, flatMap_map]

variable {mask : List Bool} {δ : Type*} (f : β → γ → δ) (sum : ℤ)

lemma zipWith_grouped (h : ρ → ℤ → γ) : zipWith f (grouped rs n g) (grouped rs n h) =
      grouped rs n fun r a => f (g r a) (h r a) := by
  induction rs with
  | nil => rfl
  | cons r rs ih =>
    rw [grouped_cons, grouped_cons, grouped_cons, zipWith_append (by simp), ih, zipWith_map, zipWith_self]

lemma zipWith_map_map (h : ρ → β) (h' : ρ → γ) (rs : List ρ) :
    zipWith f (rs.map h) (rs.map h') = rs.map fun r => f (h r) (h' r) := by
  rw [zipWith_map, zipWith_self]

lemma zipWith_sub_cumsumFrom (l : List ℤ) :
    zipWith (· - ·) (cumsumFrom sum l) (sum :: cumsumFrom sum l).dropLast = l := by
  induction l generalizing sum with
  | nil => rfl
  | cons x l ih =>
    rw [cumsumFrom, dropLast_cons_cons, zipWith_cons_cons, ih, add_sub_cancel_left]

lemma npRepeat_map (f : ρ → β) : npRepeat (rs.map f) (rs.map n) = grouped rs n fun r _ => f r := by
  unfold npRepeat
  induction rs with
  | nil => rfl
  | cons r rs ih =>
    rw [map_cons, map_cons, zipWith_cons_cons, flatten_cons, ih, grouped_cons, replicate_eq_map]

lemma length_grouped (hn : ∀ r ∈ rs, 0 ≤ n r) : ((grouped rs n g).length : ℤ) = (rs.map n).sum := by
  induction rs with
  | nil => rfl
  | cons r rs ih =>
    have hr := hn r mem_cons_self
    have hrest := ih fun r' hr' => hn r' (mem_cons_of_mem r hr')
    rw [grouped_cons, length_append, length_map, length_npArange, map_cons, sum_cons, Nat.cast_add]
    omega

lemma length_grouped_eq (k : ρ → ℤ → β) (k' : ρ → ℤ → γ) : (grouped rs n k).length = (grouped rs n k').length := by
  unfold grouped
  simp only [List.length_flatMap, length_map]

lemma getLast?_cumsumFrom (x : ℤ) (l : List ℤ) :
    (cumsumFrom sum (x :: l)).getLast? = some (sum + (x :: l).sum) := by
  induction l generalizing sum x with
  | nil => simp [cumsumFrom]
  | cons y l ih =>
    rw [cumsumFrom]
    have hrest := ih (sum + x) y
    rw [cumsumFrom] at hrest ⊢
    rw [List.getLast?_cons_cons, hrest, sum_cons, sum_cons, sum_cons, add_assoc]

lemma getLast?_npCumsum {l : List ℤ} (hl : l ≠ []) : (npCumsum l).getLast? = some l.sum := by
  obtain ⟨x, l, rfl⟩ := exists_cons_of_ne_nil hl
  unfold npCumsum
  rw [getLast?_cumsumFrom, zero_add]

lemma arange_grouped (hn : ∀ r ∈ rs, 0 ≤ n r) : zipWith (· - ·) (npArange (rs.map n).sum)
      (npRepeat (zipWith (· - ·) (npCumsum (rs.map n)) (rs.map n)) (rs.map n)) = grouped rs n fun _ a => a := by
  have hfrom : ∀ sum : ℤ, zipWith (· - ·) ((npArange (rs.map n).sum).map (sum + ·))
      (npRepeat (zipWith (· - ·) (cumsumFrom sum (rs.map n)) (rs.map n)) (rs.map n)) =
      grouped rs n fun _ a => a := by
    induction rs with
    | nil => exact fun _ => rfl
    | cons r rs ih =>
      intro sum
      have hr := hn r mem_cons_self
      have hrest : ∀ r' ∈ rs, 0 ≤ n r' := fun r' hr' => hn r' (mem_cons_of_mem r hr')
      have hsum : 0 ≤ (rs.map n).sum := by
        rw [← length_grouped (g := fun _ a => a) hrest]
        exact Int.natCast_nonneg _
      have ih' := ih hrest (sum + n r)
      rw [map_cons, sum_cons, cumsumFrom, zipWith_cons_cons, npArange_add hr hsum, map_append, map_map]
      unfold npRepeat at ih' ⊢
      rw [zipWith_cons_cons, flatten_cons, zipWith_append (by
        rw [length_map, length_npArange, length_replicate]), grouped_cons]
      congr 1
      · rw [replicate_eq_map, zipWith_map, zipWith_self]
        refine map_congr_left fun a _ => ?_
        ring
      · rw [← ih']
        congr 1
        refine map_congr_left fun a _ => ?_
        simp only [comp_apply]
        ring
  have hmap := hfrom 0
  simp only [zero_add, map_id'] at hmap
  exact hmap

lemma setMask_append {mask' : List Bool} {l l' values values' : List β}
    (hlen : mask.length = l.length) (hcount : mask.count true = values.length) :
    setMask (mask ++ mask') (l ++ l') (values ++ values') = setMask mask l values ++ setMask mask' l' values' := by
  induction mask generalizing l values with
  | nil =>
    have hl := length_eq_zero_iff.mp hlen.symm
    have hv := length_eq_zero_iff.mp hcount.symm
    rw [hl, hv]
    rfl
  | cons b mask ih =>
    obtain ⟨x, l, rfl⟩ := exists_cons_of_length_eq_add_one hlen.symm
    rw [length_cons, length_cons, Nat.add_right_cancel_iff] at hlen
    cases b with
    | true =>
      rw [count_cons_self] at hcount
      obtain ⟨v, values, rfl⟩ := exists_cons_of_length_eq_add_one hcount.symm
      rw [length_cons, Nat.add_right_cancel_iff] at hcount
      exact congrArg (v :: ·) (ih hlen hcount)
    | false =>
      exact congrArg (x :: ·) (ih hlen hcount)

lemma setMask_false (l values : List β) (h : ∀ b ∈ mask, b = false) : setMask mask l values = l := by
  induction mask generalizing l with
  | nil => rfl
  | cons b mask ih =>
    rw [h b mem_cons_self]
    cases l with
    | nil => rfl
    | cons x l => exact congrArg (x :: ·) (ih l fun b' hb' => h b' (mem_cons_of_mem _ hb'))

lemma setMask_first (hn : ∀ r ∈ rs, 0 < n r) (v : ρ → β) :
    setMask ((grouped rs n fun _ a => a).map fun a => decide (a = 0)) (grouped rs n g) (rs.map v) =
      grouped rs n fun r a => if a = 0 then v r else g r a := by
  induction rs with
  | nil => rfl
  | cons r rs ih =>
    have hr := hn r mem_cons_self
    have hrest := ih fun r' hr' => hn r' (mem_cons_of_mem r hr')
    have hne : ∀ a ∈ (npArange (n r - 1)).map (1 + ·), a ≠ 0 := by
      intro a ha
      obtain ⟨k, hk, rfl⟩ := mem_map.mp ha
      have hk0 := (mem_npArange.mp hk).1
      omega
    have hfalse : ∀ b ∈ (((npArange (n r - 1)).map (1 + ·)).map fun a => decide (a = 0)), b = false := by
      intro b hb
      obtain ⟨a, ha, rfl⟩ := mem_map.mp hb
      exact decide_eq_false (hne a ha)
    rw [grouped_cons, grouped_cons, grouped_cons, map_id', map_append, map_cons, ← singleton_append, setMask_append]
    · congr 1
      rw [npArange_cons hr, map_cons, map_cons, decide_eq_true rfl, setMask, setMask_false _ _ hfalse]
      congr 1
      refine map_congr_left fun a ha => ?_
      rw [if_neg (hne a ha)]
    · rw [length_map, length_map]
    · rw [npArange_cons hr, map_cons, decide_eq_true rfl, count_cons_self,
        count_eq_zero.mpr fun h => absurd (hfalse _ h) (by decide)]
      rfl

lemma setMask_getMask (rs : List ρ) (n : ρ → ℤ) (g g' : ρ → ℤ → β) (q : ℤ → Bool) (h : ρ → ℤ → ℤ) :
    setMask ((grouped rs n h).map q) (grouped rs n g) (getMask ((grouped rs n h).map q) (grouped rs n g')) =
    grouped rs n fun r a => if q (h r a) then g' r a else g r a := by
  have hpoint : ∀ (mask : List Bool) (l l' : List β), mask.length = l.length →
      l.length = l'.length → setMask mask l (getMask mask l') =
        zipWith (fun b x => if b then x.2 else x.1) mask (l.zip l') := by
    intro mask
    induction mask with
    | nil =>
      intro l l' hl _
      rw [length_eq_zero_iff.mp hl.symm]
      rfl
    | cons b mask ih =>
      intro l l' hl hl'
      obtain ⟨x, l, rfl⟩ := exists_cons_of_length_eq_add_one hl.symm
      obtain ⟨y, l', rfl⟩ := exists_cons_of_length_eq_add_one hl'.symm
      simp only [length_cons, Nat.add_right_cancel_iff] at hl hl'
      cases b with
      | true => exact congrArg (y :: ·) (ih l l' hl hl')
      | false => exact congrArg (x :: ·) (ih l l' hl hl')
  have hmask : ((grouped rs n h).map q).length = (grouped rs n g).length := by
    rw [length_map]
    exact length_grouped_eq h g
  rw [hpoint _ _ _ hmask (length_grouped_eq g g')]
  rw [map_grouped, List.zip, zipWith_grouped, zipWith_grouped]

lemma setIndices_last (hn : ∀ r ∈ rs, 0 < n r) (v : ρ → β) :
    setIndices (grouped rs n g) ((npCumsum (rs.map n)).map (· - 1)) (rs.map v) =
      grouped rs n fun r a => if a = n r - 1 then v r else g r a := by
  have hfrom : ∀ front : List β, setIndices (front ++ grouped rs n g)
      ((cumsumFrom front.length (rs.map n)).map (· - 1)) (rs.map v) =
      front ++ grouped rs n fun r a => if a = n r - 1 then v r else g r a := by
    induction rs with
    | nil => exact fun _ => rfl
    | cons r rs ih =>
      intro front
      have hr := hn r mem_cons_self
      have hrest := ih fun r' hr' => hn r' (mem_cons_of_mem r hr')
      have hlast : npArange (n r) = npArange (n r - 1) ++ [n r - 1] := by
        rw [← npArange_succ (by omega), sub_add_cancel]
      have hgroup : (npArange (n r)).map (fun a => if a = n r - 1 then v r else g r a) =
          (npArange (n r - 1)).map (g r) ++ [v r] := by
        rw [hlast, map_append]
        congr 1
        · refine map_congr_left fun a ha => if_neg ?_
          have hlt := (mem_npArange.mp ha).2
          omega
        · exact congrArg (fun x => [x]) (if_pos rfl)
      have hindex : (front.length : ℤ) + n r - 1 = ((front ++ (npArange (n r - 1)).map (g r)).length : ℕ) := by
        rw [length_append, length_map, length_npArange]
        omega
      have hfront : (front.length : ℤ) + n r =
          ((front ++ ((npArange (n r - 1)).map (g r) ++ [v r])).length : ℕ) := by
        rw [length_append, length_append, length_map, length_npArange, length_singleton]
        omega
      rw [grouped_cons, grouped_cons, map_cons, map_cons, cumsumFrom, map_cons, hgroup]
      unfold setIndices at hrest ⊢
      rw [zip_cons_cons, foldl_cons, hindex, pySet_natCast, hlast, map_append,
        ← append_assoc, ← append_assoc, append_assoc (front ++ _), set_append_right _ _ le_rfl, Nat.sub_self]
      change List.foldl _ ((front ++ (npArange (n r - 1)).map (g r)) ++ (v r :: grouped rs n g)) _ = _
      rw [← singleton_append, ← append_assoc, append_assoc front, hfront, hrest, append_assoc]
  exact hfrom []

lemma npArange_length_eq (l : List α) : npArange l.length = l.zipIdx.map fun x => (x.2 : ℤ) := by
  unfold npArange
  rw [Int.toNat_natCast, range_eq_range', ← zipIdx_map_snd 0 l, map_map]
  rfl

lemma viewRows_flatten {width : ℕ} {l : List (List α)} (h : ∀ row ∈ l, row.length = width) :
    viewRows width l.length l.flatten = l := by
  induction l with
  | nil => rfl
  | cons row l ih =>
    have hrow := h row mem_cons_self
    rw [length_cons, flatten_cons, viewRows, ← hrow, take_left, drop_left, hrow,
      ih fun row' hrow' => h row' (mem_cons_of_mem row hrow')]

end CustomAi
