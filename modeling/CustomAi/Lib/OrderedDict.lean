import CustomAi.Lib.Dict

/-!
# Dictionaries as recency lists

`OrderedDict` of Python moves a key to the end of its dictionary. What the operations of a
dictionary do to the order of its keys and to the collection of its values.
-/

namespace CustomAi

open List Option

universe u v w

namespace Dict

variable {κ : Type u} {υ : Type v} {ω : Type w} [DecidableEq κ] {d : Dict κ υ} {k : κ} {v v' : υ}

/-- `d.move_to_end(k)`, which raises for a key that is not there. -/
def moveToEnd? (d : Dict κ υ) (k : κ) : Option (Dict κ υ) :=
  (d.get? k).map fun v => (d.erase k).set k v

/-- What is left after `d.popitem(last=False)`, `n` times. -/
def dropFirst (d : Dict κ υ) (n : ℕ) : Dict κ υ :=
  ⟨d.entries.drop n, d.nodup_keys.sublist ((drop_sublist n _).map Prod.fst)⟩

lemma notMem_keys_of_get? (h : d.get? k = none) : k ∉ d.keys := by
  rw [mem_keys_iff, contains, h]
  simp

lemma mem_keys_of_get? (h : d.get? k = some v) : k ∈ d.keys := by
  rw [mem_keys_iff, contains, h]
  rfl

omit [DecidableEq κ] in
lemma length_values (d : Dict κ υ) : d.values.length = d.size := length_map _

lemma entries_set_of_new (v : υ) (h : d.get? k = none) : (d.set k v).entries = d.entries ++ [(k, v)] :=
  assign_of_not_mem k v (notMem_keys_of_get? h)

lemma values_set_of_new (v : υ) (h : d.get? k = none) : (d.set k v).values = d.values ++ [v] := by
  unfold values
  rw [entries_set_of_new v h, map_append]
  rfl

lemma keys_set_of_get? (h : d.get? k = some v) (v' : υ) : (d.set k v').keys = d.keys := by
  have hk : k ∈ d.keys := mem_keys_of_get? h
  obtain ⟨l, hl⟩ := d
  change (assign k v' l).map Prod.fst = l.map Prod.fst
  change k ∈ l.map Prod.fst at hk
  clear h hl
  induction l with
  | nil => cases hk
  | cons e rest ih =>
    by_cases he : e.1 = k
    · simp [assign, he]
    · have hrest : k ∈ rest.map Prod.fst := by
        rw [map_cons, mem_cons] at hk
        exact hk.resolve_left (Ne.symm he)
      simp [assign, he, ih hrest]

lemma map_values_set (f : υ → ω) (h : d.get? k = some v) (hf : f v' = f v) :
    (d.set k v').values.map f = d.values.map f := by
  obtain ⟨l, hl⟩ := d
  change ((assign k v' l).map Prod.snd).map f = (l.map Prod.snd).map f
  change l.lookup k = some v at h
  clear hl
  induction l with
  | nil => cases h
  | cons e rest ih =>
    obtain ⟨a, b⟩ := e
    by_cases ha : a = k
    · subst ha
      rw [lookup_cons_self, some.injEq] at h
      simp [assign, hf, h]
    · rw [lookup_cons_ite, if_neg (Ne.symm ha)] at h
      simpa [assign, ha] using ih h

lemma values_erase_perm (h : d.get? k = some v) : d.values.Perm (v :: (d.erase k).values) := by
  obtain ⟨l, hl⟩ := d
  change (l.map Prod.snd).Perm (v :: (l.filter (fun e => e.1 ≠ k)).map Prod.snd)
  change l.lookup k = some v at h
  induction l with
  | nil => cases h
  | cons e rest ih =>
    obtain ⟨a, b⟩ := e
    rw [map_cons, nodup_cons] at hl
    by_cases ha : a = k
    · subst ha
      rw [lookup_cons_self, some.injEq] at h
      have hrest : rest.filter (fun e => decide (e.1 ≠ a)) = rest := by
        rw [filter_eq_self]
        intro e he
        have hne : e.1 ≠ a := fun hea => hl.1 (mem_map.mpr ⟨e, he, hea⟩)
        simpa using hne
      rw [filter_cons_of_neg (by simp), hrest, map_cons, h]
    · rw [lookup_cons_ite, if_neg (Ne.symm ha)] at h
      rw [filter_cons_of_pos (by simpa using ha), map_cons]
      exact ((ih hl.2 h).cons b).trans (Perm.swap v b _)

lemma size_erase (h : d.get? k = some v) : (d.erase k).size + 1 = d.size := by
  have hlen := (values_erase_perm h).length_eq
  rw [length_cons, length_values, length_values] at hlen
  exact hlen.symm

lemma get?_erase_set (d : Dict κ υ) (k : κ) (v : υ) (x : κ) :
    ((d.erase k).set k v).get? x = if x = k then some v else d.get? x := by
  rw [get?_set, get?_erase]
  split <;> rfl

variable {e : Dict κ υ}

section

variable (h : d.moveToEnd? k = some e)
include h

lemma get?_moveToEnd (x : κ) : e.get? x = d.get? x := by
  obtain ⟨v, hv, rfl⟩ := map_eq_some_iff.mp h
  rw [get?_erase_set]
  split
  · next hx => rw [hx, hv]
  · rfl

lemma keys_moveToEnd : e.keys = d.keys.filter (fun x => x ≠ k) ++ [k] := by
  obtain ⟨v, -, rfl⟩ := map_eq_some_iff.mp h
  rw [keys_set_of_new v (contains_erase_self d k), keys_erase]

lemma values_moveToEnd_perm : e.values.Perm d.values := by
  obtain ⟨v, hv, rfl⟩ := map_eq_some_iff.mp h
  rw [values_set_of_new v (get?_erase_self d k)]
  exact (perm_append_singleton v _).trans (values_erase_perm hv).symm

end

end Dict

end CustomAi
