import Mathlib.Data.List.Nodup
import Mathlib.Data.List.Perm.Subperm

/-!
# Walking a list by index while items leave it

A loop looks at `items[index]` and goes on with the next index; during a turn other items may be
removed. Removing a counted item, which stands behind the index, takes the index back.
-/

namespace CustomAi.IndexWalk

open List

variable {α : Type*} [DecidableEq α]

/-- What stands after the first `x`. -/
def after (x : α) (l : List α) : List α := (l.dropWhile (fun y => y ≠ x)).tail

lemma after_append_cons {x : α} {before : List α} (hx : x ∉ before) (rest : List α) :
    after x (before ++ x :: rest) = rest := by
  have hall : ∀ y ∈ before, decide (y ≠ x) = true := fun y hy =>
    decide_eq_true fun h => hx (h ▸ hy)
  rw [after, dropWhile_append_of_pos hall, dropWhile_cons_of_neg (by simp), tail_cons]

/-- The list, the index, the counted, the seen, the unseen and the removed items. -/
structure Walk (α : Type*) where
  items : List α
  index : ℕ
  counted : List α
  seen : List α
  missed : List α
  removed : List α

namespace Walk

def Behind (w : Walk α) (x : α) : Prop := x ∈ w.seen ∨ x ∈ w.missed

def remove (w : Walk α) (y : α) : Walk α :=
  { w with
    items := w.items.erase y
    index := if y ∈ w.counted then w.index - 1 else w.index
    counted := w.counted.erase y
    removed := w.removed ++ [y] }

def late (w : Walk α) (gone : List α) : List α :=
  gone.filter fun y => y ∈ w.items.take w.index ∧ y ∉ w.counted

/-- The end of the turn of `x`: `slid` items slide under the index. -/
def pass (w : Walk α) (x : α) (counts : Bool) (slid : ℕ) : Walk α :=
  { w with
    index := w.index + 1
    counted := if counts then w.counted ++ [x] else w.counted
    seen := w.seen ++ [x]
    missed := w.missed ++ (after x w.items).take slid }

lemma remove_of_mem {w : Walk α} {y : α} (hy : y ∈ w.counted) : w.remove y = { w with
    items := w.items.erase y
    index := w.index - 1
    counted := w.counted.erase y
    removed := w.removed ++ [y] } := by
  rw [remove, if_pos hy]

lemma remove_of_notMem {w : Walk α} {y : α} (hy : y ∉ w.counted) : w.remove y = { w with
    items := w.items.erase y
    removed := w.removed ++ [y] } := by
  rw [remove, if_neg hy, erase_of_not_mem hy]

/-- What holds all the time of a walk over `start`. -/
structure Known (start : List α) (w : Walk α) : Prop where
  nodup : w.items.Nodup
  subset : ∀ x ∈ w.items, x ∈ start
  left : ∀ x ∈ start, x ∈ w.items ∨ x ∈ w.removed
  once : w.seen.Nodup
  counted_once : w.counted.Nodup
  disjoint : ∀ x ∈ w.seen, x ∉ w.missed
  behind : ∀ x, w.Behind x → x ∈ start

/-- Between two turns the list is cut at the index. A walk that is in step misses nothing. -/
structure Between (start : List α) (inStep : Prop) (w : Walk α) : Prop extends Known start w where
  take : ∀ x ∈ w.items.take w.index, w.Behind x
  drop : ∀ x ∈ w.items.drop w.index, ¬w.Behind x
  counted : ∀ x ∈ w.counted, x ∈ w.items.take w.index
  none_missed : inStep → w.missed = []

/-- In the turn of `x` the list is cut at `x`; the index is one further for each item that slid. -/
structure Turn (start : List α) (inStep : Prop) (w₀ : Walk α) (x : α) (before rest gone : List α)
    (w : Walk α) : Prop extends Known start w where
  items : w.items = before ++ x :: rest
  before_behind : ∀ y ∈ before, w.Behind y
  rest_ahead : ∀ y ∈ x :: rest, ¬w.Behind y
  counted : ∀ y ∈ w.counted, y ∈ before
  removed : w.removed = w₀.removed ++ gone
  behind_iff : ∀ y ∈ w.items, y ∈ w₀.items.take w₀.index ↔ w.Behind y
  counted_iff : ∀ y ∈ w.items, y ∈ w₀.counted ↔ y ∈ w.counted
  length_add : before.length + (w₀.late gone).length = w.index
  in_step : inStep → w.missed = [] ∧ w₀.late gone = []

variable {start before rest gone : List α} {inStep : Prop} {w₀ w : Walk α} {x y : α}

omit [DecidableEq α] in
lemma Between.of_start (h : start.Nodup) : Between start inStep ⟨start, 0, [], [], [], []⟩ where
  nodup := h
  subset := fun _ hx => hx
  left := fun _ hx => .inl hx
  once := nodup_nil
  counted_once := nodup_nil
  disjoint := fun _ hx => by cases hx
  behind := fun x hx => by rcases hx with hx | hx <;> cases hx
  take := fun x hx => by cases hx
  drop := fun x _ hx => by rcases hx with hx | hx <;> cases hx
  counted := fun x hx => by cases hx
  none_missed := fun _ => rfl

lemma Between.turn (h : Between start inStep w) (hx : w.items[w.index]? = some x) :
    Turn start inStep w x (w.items.take w.index) (w.items.drop (w.index + 1)) [] w := by
  obtain ⟨hlt, hget⟩ := List.getElem?_eq_some_iff.mp hx
  have hdrop : w.items.drop w.index = x :: w.items.drop (w.index + 1) := by
    rw [drop_eq_getElem_cons hlt, hget]
  have hitems : w.items.take w.index ++ x :: w.items.drop (w.index + 1) = w.items := by
    rw [← hdrop, take_append_drop]
  refine ⟨h.toKnown, hitems.symm, h.take, ?_, h.counted, (append_nil _).symm, fun y hy => ?_,
    fun _ _ => Iff.rfl, length_take_of_le (Nat.le_of_lt hlt), fun hin => ⟨h.none_missed hin, rfl⟩⟩
  · rw [← hdrop]
    exact h.drop
  · refine ⟨h.take y, fun hbehind => ?_⟩
    rw [← take_append_drop w.index w.items, mem_append] at hy
    exact hy.resolve_right fun hd => h.drop y hd hbehind

lemma Known.remove (h : Known start w) (y : α) : Known start (w.remove y) where
  nodup := h.nodup.erase y
  subset := fun x hx => h.subset x (mem_of_mem_erase hx)
  left := fun x hx => by
    by_cases hxy : x = y
    · exact .inr (mem_append_right _ (mem_singleton.mpr hxy))
    · rcases h.left x hx with hitem | hremoved
      · exact .inl ((mem_erase_of_ne hxy).mpr hitem)
      · exact .inr (mem_append_left _ hremoved)
  once := h.once
  counted_once := h.counted_once.erase y
  disjoint := h.disjoint
  behind := h.behind

lemma late_append_of_late {w : Walk α} (gone : List α) {y : α} (hy : y ∈ w.items.take w.index)
    (hc : y ∉ w.counted) : (w.late (gone ++ [y])).length = (w.late gone).length + 1 := by
  rw [late, filter_append, filter_singleton, decide_eq_true (And.intro hy hc), length_append]
  rfl

lemma late_append_of_not {w : Walk α} (gone : List α) {y : α}
    (hy : ¬(y ∈ w.items.take w.index ∧ y ∉ w.counted)) : w.late (gone ++ [y]) = w.late gone := by
  rw [late, filter_append, filter_singleton, decide_eq_false hy]
  exact append_nil _

lemma Turn.remove (h : Turn start inStep w₀ x before rest gone w) (hne : y ≠ x) (hy : y ∈ w.items)
    (hin : inStep → ¬w.Behind y) :
    ∃ before' rest', Turn start inStep w₀ x before' rest' (gone ++ [y]) (w.remove y) := by
  have hremoved : (w.remove y).removed = w₀.removed ++ (gone ++ [y]) := by
    rw [← append_assoc, ← h.removed]
    rfl
  have hbehind : ∀ z ∈ (w.remove y).items, z ∈ w₀.items.take w₀.index ↔ w.Behind z := fun z hz =>
    h.behind_iff z (mem_of_mem_erase hz)
  have hcounted : ∀ z ∈ (w.remove y).items, z ∈ w₀.counted ↔ z ∈ (w.remove y).counted := by
    intro z hz
    obtain ⟨hzy, hz⟩ := h.nodup.mem_erase_iff.mp hz
    exact (h.counted_iff z hz).trans (mem_erase_of_ne hzy).symm
  have hadd := h.length_add
  by_cases hmem : y ∈ before
  · have herase : (before.erase y).length = before.length - 1 := length_erase_of_mem hmem
    have hpos : 0 < before.length := length_pos_of_mem hmem
    have hnot : ¬inStep := fun hs => hin hs (h.before_behind y hmem)
    refine ⟨before.erase y, rest, h.toKnown.remove y, ?_, fun z hz => ?_, h.rest_ahead,
      fun z hz => ?_, hremoved, hbehind, hcounted, ?_, fun hs => absurd hs hnot⟩
    · change w.items.erase y = _
      rw [h.items, erase_append_left _ hmem]
    · exact h.before_behind z (mem_of_mem_erase hz)
    · obtain ⟨hzy, hz⟩ := h.counted_once.mem_erase_iff.mp hz
      exact (mem_erase_of_ne hzy).mpr (h.counted z hz)
    · by_cases hc : y ∈ w.counted
      · rw [late_append_of_not gone fun hlate => hlate.2 ((h.counted_iff y hy).mpr hc), remove_of_mem hc]
        dsimp only
        omega
      · rw [late_append_of_late gone ((h.behind_iff y hy).mpr (h.before_behind y hmem))
          fun hc0 => hc ((h.counted_iff y hy).mp hc0), remove_of_notMem hc]
        dsimp only
        omega
  · have hrest : y ∈ rest := by
      rw [h.items] at hy
      exact (mem_cons.mp ((mem_append.mp hy).resolve_left hmem)).resolve_left hne
    have hahead := h.rest_ahead y (mem_cons_of_mem _ hrest)
    have hc : y ∉ w.counted := fun hc => hmem (h.counted y hc)
    have hindex : (w.remove y).index = w.index := if_neg hc
    have hlate : w₀.late (gone ++ [y]) = w₀.late gone :=
      late_append_of_not gone fun hlate => hahead ((h.behind_iff y hy).mp hlate.1)
    refine ⟨before, rest.erase y, h.toKnown.remove y, ?_, h.before_behind, fun z hz => ?_,
      fun z hz => ?_, hremoved, hbehind, hcounted, ?_, ?_⟩
    · change w.items.erase y = _
      rw [h.items, erase_append_right _ hmem, erase_cons_tail (by simpa using hne.symm)]
    · rcases mem_cons.mp hz with rfl | hz
      · exact h.rest_ahead z mem_cons_self
      · exact h.rest_ahead z (mem_cons_of_mem _ (mem_of_mem_erase hz))
    · exact h.counted z (mem_of_mem_erase hz)
    · rw [hindex, hlate, hadd]
    · rw [hlate]
      exact h.in_step

lemma Turn.pass (h : Turn start inStep w₀ x before rest gone w) (counts : Bool) :
    Between start inStep (w.pass x counts (w₀.late gone).length) := by
  have hx : x ∉ before := fun hx => h.rest_ahead x mem_cons_self (h.before_behind x hx)
  have hadd := h.length_add
  generalize hk : (w₀.late gone).length = k at hadd
  have htake : w.items.take (w.index + 1) = before ++ x :: rest.take k := by
    rw [h.items, ← hadd, Nat.add_assoc, take_length_add_append, take_succ_cons]
  have hdrop : w.items.drop (w.index + 1) = rest.drop k := by
    rw [h.items, ← hadd, Nat.add_assoc, drop_length_add_append, drop_succ_cons]
  have hmissed : (w.pass x counts k).missed = w.missed ++ rest.take k := by
    change w.missed ++ (after x w.items).take k = _
    rw [h.items, after_append_cons hx]
  have hnodup : (before ++ x :: rest).Nodup := h.items ▸ h.nodup
  have hnd : (x :: rest).Nodup := (List.nodup_append.mp hnodup).2.1
  have hbehind : ∀ y, (w.pass x counts k).Behind y ↔ w.Behind y ∨ y = x ∨ y ∈ rest.take k := by
    unfold Behind
    rw [hmissed]
    simp only [Walk.pass, mem_append, mem_singleton]
    tauto
  have hahead : ∀ y ∈ rest.take k, ¬w.Behind y := fun y hy =>
    h.rest_ahead y (mem_cons_of_mem _ (mem_of_mem_take hy))
  have hmem : ∀ y ∈ x :: rest, y ∈ start := fun y hy =>
    h.subset y (h.items ▸ mem_append_right _ hy)
  refine ⟨⟨h.nodup, h.subset, h.left, ?_, ?_, fun y hy => ?_, fun y hy => ?_⟩, fun y hy => ?_,
    fun y hy => ?_, fun y hy => ?_, fun hs => ?_⟩
  · refine List.nodup_append.mpr ⟨h.once, nodup_singleton x, ?_⟩
    intro y hy z hz hyz
    rw [mem_singleton.mp hz] at hyz
    exact h.rest_ahead x mem_cons_self (.inl (hyz ▸ hy))
  · change (if counts = true then w.counted ++ [x] else w.counted).Nodup
    split
    · refine List.nodup_append.mpr ⟨h.counted_once, nodup_singleton x, ?_⟩
      intro y hy z hz hyz
      rw [mem_singleton.mp hz] at hyz
      exact hx (hyz ▸ h.counted y hy)
    · exact h.counted_once
  · rw [hmissed, mem_append, not_or]
    rcases mem_append.mp hy with hy | hy
    · exact ⟨h.disjoint y hy, fun hslid => hahead y hslid (.inl hy)⟩
    · obtain rfl := mem_singleton.mp hy
      exact ⟨fun hm => h.rest_ahead y mem_cons_self (.inr hm),
        fun hslid => (nodup_cons.mp hnd).1 (mem_of_mem_take hslid)⟩
  · rcases (hbehind y).mp hy with hy | rfl | hy
    · exact h.behind y hy
    · exact hmem y mem_cons_self
    · exact hmem y (mem_cons_of_mem _ (mem_of_mem_take hy))
  · have hy : y ∈ w.items.take (w.index + 1) := hy
    rw [htake] at hy
    rcases mem_append.mp hy with hy | hy
    · exact (hbehind y).mpr (.inl (h.before_behind y hy))
    · exact (hbehind y).mpr (.inr (mem_cons.mp hy))
  · have hy : y ∈ w.items.drop (w.index + 1) := hy
    rw [hdrop] at hy
    have hrest := mem_of_mem_drop hy
    rw [hbehind]
    rintro (hold | rfl | hslid)
    · exact h.rest_ahead y (mem_cons_of_mem _ hrest) hold
    · exact (nodup_cons.mp hnd).1 hrest
    · exact disjoint_take_drop (nodup_cons.mp hnd).2 (Nat.le_refl k) hslid hy
  · have hcases : y ∈ w.counted ∨ y = x := by
      have hy : y ∈ if counts = true then w.counted ++ [x] else w.counted := hy
      split at hy
      · simpa using hy
      · exact .inl hy
    change y ∈ w.items.take (w.index + 1)
    rw [htake]
    rcases hcases with hy | rfl
    · exact mem_append_left _ (h.counted y hy)
    · exact mem_append_right _ mem_cons_self
  · obtain ⟨hnone, hlate⟩ := h.in_step hs
    rw [hlate] at hk
    rw [hmissed, hnone, ← hk, length_nil, take_zero, append_nil]

omit [DecidableEq α] in
lemma Between.length_le_index (h : Between start inStep w) (hlen : start.length ≤ w.seen.length) :
    w.items.length ≤ w.index := by
  have hsub : w.seen.Subperm start := subperm_of_subset h.once fun x hx => h.behind x (.inl hx)
  have hperm := hsub.perm_of_length_le hlen
  have hnone : w.items.drop w.index = [] := eq_nil_iff_forall_not_mem.mpr fun x hx =>
    h.drop x hx (.inl (hperm.mem_iff.mpr (h.subset x (mem_of_mem_drop hx))))
  exact drop_eq_nil_iff.mp hnone

/-- At the end of the list: everything that stayed was seen once, if everything that was missed
left. -/
theorem Between.seen_once_iff (h : Between start inStep w) (hend : w.items.length ≤ w.index) :
    (∀ x ∈ start, x ∉ w.removed → w.seen.count x = 1) ↔ ∀ x ∈ w.missed, x ∈ w.removed := by
  constructor
  · intro hcount x hx
    by_contra hnot
    have hone := hcount x (h.behind x (.inr hx)) hnot
    have hseen : x ∈ w.seen := count_pos_iff.mp (by omega)
    exact h.disjoint x hseen hx
  · intro hmissed x hx hnot
    have hitem : x ∈ w.items.take w.index := by
      rw [take_of_length_le hend]
      exact (h.left x hx).resolve_right hnot
    rcases h.take x hitem with hseen | hm
    · exact count_eq_one_of_mem h.once hseen
    · exact absurd (hmissed x hm) hnot

end Walk

end CustomAi.IndexWalk
