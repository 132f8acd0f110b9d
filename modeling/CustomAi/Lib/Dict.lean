import Mathlib.Algebra.Order.BigOperators.Group.Finset
import Mathlib.Data.List.Lookmap

/-!
# Insertion-ordered dictionaries

`Dict κ υ` is a finite map that remembers the order in which its keys were first inserted,
as Python's `dict` does. The keys are distinct by construction. Assigning to a present key
keeps its place, assigning to a new key appends it.
-/

namespace CustomAi

open List

universe u v w

structure Dict (κ : Type u) (υ : Type v) where
  entries : List (κ × υ)
  nodup_keys : (entries.map Prod.fst).Nodup

namespace Dict

variable {κ : Type u} {υ : Type v} [DecidableEq κ]

instance [DecidableEq υ] : DecidableEq (Dict κ υ) := fun d e =>
  decidable_of_iff (d.entries = e.entries)
    ⟨fun h => by cases d; cases e; simp_all, fun h => h ▸ rfl⟩

def empty : Dict κ υ := ⟨[], by simp⟩

instance : Inhabited (Dict κ υ) := ⟨empty⟩

def keys (d : Dict κ υ) : List κ := d.entries.map Prod.fst

def values (d : Dict κ υ) : List υ := d.entries.map Prod.snd

def size (d : Dict κ υ) : ℕ := d.entries.length

def get? (d : Dict κ υ) (k : κ) : Option υ := d.entries.lookup k

def contains (d : Dict κ υ) (k : κ) : Bool := (d.get? k).isSome

/-- The entries after an assignment to `k`. -/
def assign (k : κ) (v : υ) : List (κ × υ) → List (κ × υ)
  | [] => [(k, v)]
  | e :: rest => if e.1 = k then (k, v) :: rest else e :: assign k v rest

variable {rest : List (κ × υ)} (d : Dict κ υ) (k x : κ) (v : υ) (l : List (κ × υ))

lemma mem_keys_assign (x : κ) : x ∈ (assign k v l).map Prod.fst ↔ x = k ∨ x ∈ l.map Prod.fst := by
  induction l with
  | nil => simp [assign]
  | cons e rest ih =>
    by_cases h : e.1 = k
    · simp [assign, h]
    · simp only [assign, h, ite_false, map_cons, mem_cons, ih]
      tauto

lemma nodup_assign (hl : (l.map Prod.fst).Nodup) : ((assign k v l).map Prod.fst).Nodup := by
  induction l with
  | nil => simp [assign]
  | cons e rest ih =>
    rw [map_cons, nodup_cons] at hl
    by_cases h : e.1 = k
    · subst h
      simpa [assign] using hl
    · simp only [assign, h, ite_false, map_cons, nodup_cons, mem_keys_assign]
      exact ⟨by tauto, ih hl.2⟩

/-- `d[k] = v` -/
def set (d : Dict κ υ) (k : κ) (v : υ) : Dict κ υ :=
  ⟨assign k v d.entries, nodup_assign k v d.entries d.nodup_keys⟩

/-- `d.pop(k, None)` -/
def erase (d : Dict κ υ) (k : κ) : Dict κ υ :=
  ⟨d.entries.filter (fun e => e.1 ≠ k), d.nodup_keys.sublist (filter_sublist.map Prod.fst)⟩

@[simp] lemma get?_empty : (empty : Dict κ υ).get? k = none := rfl

lemma lookup_cons_ite (a : κ) (b : υ) (l : List (κ × υ)) (x : κ) :
    ((a, b) :: l).lookup x = if x = a then some b else l.lookup x := by
  by_cases h : x = a
  · simp [h]
  · have hb : (x == a) = false := beq_eq_false_iff_ne.mpr h
    rw [lookup_cons, hb, if_neg h]

lemma lookup_assign : (assign k v l).lookup x = if x = k then some v else l.lookup x := by
  induction l with
  | nil => by_cases h : x = k <;> simp [assign, h]
  | cons e rest ih =>
    obtain ⟨a, b⟩ := e
    by_cases ha : a = k
    · by_cases h : x = k <;> simp [assign, lookup_cons_ite, ha, h]
    · by_cases h : x = k
      · subst h
        simpa [assign, lookup_cons_ite, ha, Ne.symm ha] using ih
      · simp [assign, lookup_cons_ite, ha, h, ih]

lemma get?_set : (d.set k v).get? x = if x = k then some v else d.get? x := lookup_assign k x v d.entries

@[simp] lemma get?_set_self : (d.set k v).get? k = some v := by
  simp [get?_set]

lemma get?_set_of_ne {k x : κ} (h : x ≠ k) : (d.set k v).get? x = d.get? x := by
  simp [get?_set, h]

lemma lookup_filter_ne : (l.filter (fun e => e.1 ≠ k)).lookup x = if x = k then none else l.lookup x := by
  induction l with
  | nil => simp
  | cons e rest ih =>
    obtain ⟨a, b⟩ := e
    by_cases ha : a = k
    · subst ha
      rw [filter_cons_of_neg (by simp), ih]
      by_cases h : x = a <;> simp [lookup_cons_ite, h]
    · rw [filter_cons_of_pos (by simpa using ha), lookup_cons_ite, lookup_cons_ite, ih]
      by_cases h : x = k
      · subst h
        simp [Ne.symm ha]
      · simp [h]

lemma get?_erase : (d.erase k).get? x = if x = k then none else d.get? x := lookup_filter_ne k x d.entries

@[simp] lemma get?_erase_self : (d.erase k).get? k = none := by
  simp [get?_erase]

lemma get?_erase_of_ne {k x : κ} (h : x ≠ k) : (d.erase k).get? x = d.get? x := by
  simp [get?_erase, h]

lemma mem_entries_iff : (k, v) ∈ d.entries ↔ d.get? k = some v := by
  obtain ⟨l, hl⟩ := d
  unfold get?
  induction l with
  | nil => simp
  | cons e rest ih =>
    obtain ⟨a, b⟩ := e
    rw [map_cons, nodup_cons] at hl
    by_cases h : k = a
    · subst h
      have hrest : (k, v) ∉ rest := fun hm => hl.1 (mem_map.mpr ⟨_, hm, rfl⟩)
      simp [hrest, eq_comm]
    · simpa [lookup_cons_ite, h] using ih hl.2

lemma mem_keys_iff : k ∈ d.keys ↔ d.contains k = true := by
  unfold keys contains
  rw [Option.isSome_iff_exists, mem_map]
  constructor
  · rintro ⟨⟨_, v⟩, hm, rfl⟩
    exact ⟨v, (d.mem_entries_iff _ v).mp hm⟩
  · rintro ⟨v, hv⟩
    exact ⟨(k, v), (d.mem_entries_iff k v).mpr hv, rfl⟩

lemma mem_values_iff : v ∈ d.values ↔ ∃ k, d.get? k = some v := by
  unfold values
  rw [mem_map]
  constructor
  · rintro ⟨⟨k, _⟩, hm, rfl⟩
    exact ⟨k, (d.mem_entries_iff k _).mp hm⟩
  · rintro ⟨k, hk⟩
    exact ⟨(k, v), (d.mem_entries_iff k v).mpr hk, rfl⟩

lemma contains_set : (d.set k v).contains x = (decide (x = k) || d.contains x) := by
  by_cases h : x = k <;> simp [contains, get?_set, h]

@[simp] lemma contains_erase_self : (d.erase k).contains k = false := by
  simp [contains]

lemma values_ne_nil_of_get? {d : Dict κ υ} {k : κ} {v : υ} (h : d.get? k = some v) :
    d.values ≠ [] := ne_nil_of_mem ((d.mem_values_iff v).mpr ⟨k, h⟩)

lemma assign_of_not_mem {l : List (κ × υ)} (h : k ∉ l.map Prod.fst) : assign k v l = l ++ [(k, v)] := by
  induction l with
  | nil => rfl
  | cons e rest ih =>
    rw [map_cons, mem_cons, not_or] at h
    rw [assign, if_neg (Ne.symm h.1), ih h.2, cons_append]

lemma assign_assign (w : υ) (l : List (κ × υ)) : assign k w (assign k v l) = assign k w l := by
  induction l with
  | nil => simp [assign]
  | cons e rest ih =>
    by_cases h : e.1 = k
    · simp [assign, h]
    · simp [assign, h, ih]

@[simp] lemma set_set (w : υ) : (d.set k v).set k w = d.set k w := by
  have h := assign_assign k v w d.entries
  unfold set
  congr 1

lemma keys_set_of_new {d : Dict κ υ} {k : κ} (h : d.contains k = false) : (d.set k v).keys = d.keys ++ [k] := by
  have hk : k ∉ d.entries.map Prod.fst := fun hm => by
    rw [(d.mem_keys_iff k).mp hm] at h
    cases h
  change (assign k v d.entries).map Prod.fst = _
  rw [assign_of_not_mem k v hk, map_append]
  rfl

lemma keys_erase : (d.erase k).keys = d.keys.filter (fun x => x ≠ k) := by
  unfold keys erase
  rw [filter_map]
  rfl

lemma contains_erase : (d.erase k).contains x = (decide (x ≠ k) && d.contains x) := by
  by_cases h : x = k <;> simp [contains, get?_erase, h]

lemma entries_erase_head {d : Dict κ υ} {k : κ} {v : υ} (h : d.entries = (k, v) :: rest) :
    (d.erase k).entries = rest := by
  have hnd := d.nodup_keys
  rw [h, map_cons, nodup_cons] at hnd
  change d.entries.filter _ = rest
  rw [h, filter_cons_of_neg (by simp), filter_eq_self]
  intro e he
  have hne : e.1 ≠ k := fun hk => hnd.1 (mem_map.mpr ⟨e, he, hk⟩)
  simpa using hne

/-- The same keys with the values `f k v`. -/
def mapValues {ω : Type w} (f : κ → υ → ω) (d : Dict κ υ) : Dict κ ω :=
  ⟨d.entries.map fun e => (e.1, f e.1 e.2), by rw [map_map]; exact d.nodup_keys⟩

lemma get?_mapValues {ω : Type w} (f : κ → υ → ω) (d : Dict κ υ) (k : κ) :
    (d.mapValues f).get? k = (d.get? k).map (f k) := by
  obtain ⟨l, hl⟩ := d
  unfold get? mapValues
  dsimp only
  clear hl
  induction l with
  | nil => rfl
  | cons e rest ih =>
    rw [map_cons, lookup_cons_ite, lookup_cons_ite, ih]
    split
    · rename_i hk
      rw [hk, Option.map_some]
    · rfl

/-- The entries that satisfy `p`. -/
def filter (p : κ → υ → Bool) (d : Dict κ υ) : Dict κ υ :=
  ⟨d.entries.filter fun e => p e.1 e.2, d.nodup_keys.sublist (filter_sublist.map Prod.fst)⟩

lemma get?_filter (p : κ → υ → Bool) (d : Dict κ υ) (k : κ) : (d.filter p).get? k = (d.get? k).filter (p k) := by
  have hmem : ∀ v, (d.filter p).get? k = some v ↔ d.get? k = some v ∧ p k v = true := by
    intro v
    rw [← mem_entries_iff, ← mem_entries_iff]
    exact mem_filter
  cases hd : d.get? k with
  | none =>
    cases hf : (d.filter p).get? k with
    | none => rfl
    | some v =>
      have hv := ((hmem v).mp hf).1
      rw [hd] at hv
      cases hv
  | some v =>
    by_cases hp : p k v = true
    · rw [(hmem v).mpr ⟨hd, hp⟩]
      simp [Option.filter, hp]
    · cases hf : (d.filter p).get? k with
      | none => simp [Option.filter, hp]
      | some w =>
        obtain ⟨hw, hpw⟩ := (hmem w).mp hf
        rw [hd, Option.some.injEq] at hw
        exact absurd (hw ▸ hpw) hp

/-- `{**d, **e}` -/
def overlay (d e : Dict κ υ) : Dict κ υ :=
  e.entries.foldl (fun d entry => d.set entry.1 entry.2) d

/-- A loop that settles the key of each entry. -/
lemma get?_foldl (f : Option υ → υ → υ) {step : Dict κ υ → κ × υ → Dict κ υ}
    (hstep : ∀ d e k, (step d e).get? k = if k = e.1 then some (f (d.get? e.1) e.2) else d.get? k)
    (hl : (l.map Prod.fst).Nodup) (d : Dict κ υ) (k : κ) :
    (l.foldl step d).get? k = (l.lookup k).elim (d.get? k) (fun v => some (f (d.get? k) v)) := by
  induction l generalizing d with
  | nil => rfl
  | cons e rest ih =>
    obtain ⟨a, b⟩ := e
    rw [map_cons, nodup_cons] at hl
    rw [foldl_cons, ih hl.2, hstep, lookup_cons_ite]
    by_cases hk : k = a
    · have hrest : rest.lookup a = none := by
        rw [lookup_eq_none_iff]
        intro e he
        have hne : a ≠ e.1 := fun h => hl.1 (mem_map.mpr ⟨e, he, h.symm⟩)
        simpa using hne
      rw [hk, hrest]
      simp
    · rw [if_neg hk, if_neg hk]

lemma get?_overlay (e : Dict κ υ) (k : κ) : (d.overlay e).get? k = (e.get? k).or (d.get? k) := by
  rw [overlay, get?_foldl e.entries (fun _ v => v) (fun d e k => get?_set d e.1 k e.2) e.nodup_keys]
  change _ = (e.entries.lookup k).or (d.get? k)
  cases e.entries.lookup k <;> rfl

section Sum

variable {M : Type w} [AddCommMonoid M]

/-- The sum of `f k v` over the entries. -/
def sum (d : Dict κ υ) (f : κ → υ → M) : M := (d.entries.map (fun e => f e.1 e.2)).sum

omit [DecidableEq κ] in
@[simp] lemma sum_empty (f : κ → υ → M) : (empty : Dict κ υ).sum f = 0 := rfl

lemma sum_set (d : Dict κ υ) (f : κ → υ → M) (k : κ) (v : υ) :
    (d.set k v).sum f + (d.get? k).elim 0 (f k) = d.sum f + f k v := by
  unfold sum get?
  change ((assign k v d.entries).map _).sum + _ = _
  induction d.entries with
  | nil => simp [assign]
  | cons e rest ih =>
    obtain ⟨a, b⟩ := e
    by_cases ha : a = k
    · subst ha
      simp only [assign, ite_true, map_cons, sum_cons, lookup_cons_self, Option.elim_some]
      rw [add_assoc, add_comm, add_comm (f a b)]
    · simp only [assign, ha, ite_false, map_cons, sum_cons, lookup_cons_ite, Ne.symm ha, add_assoc, ih]

lemma sum_erase (d : Dict κ υ) (f : κ → υ → M) (k : κ) : (d.erase k).sum f + (d.get? k).elim 0 (f k) = d.sum f := by
  obtain ⟨l, hl⟩ := d
  unfold sum get?
  change ((l.filter (fun e => e.1 ≠ k)).map _).sum + _ = _
  induction l with
  | nil => simp
  | cons e rest ih =>
    obtain ⟨a, b⟩ := e
    rw [map_cons, nodup_cons] at hl
    by_cases ha : a = k
    · subst ha
      have hrest : rest.filter (fun x => decide (x.1 ≠ a)) = rest := by
        rw [filter_eq_self]
        intro x hx
        have hne : x.1 ≠ a := fun h => hl.1 (mem_map.mpr ⟨x, hx, h⟩)
        simpa using hne
      rw [filter_cons_of_neg (by simp), hrest]
      simp [add_comm]
    · rw [filter_cons_of_pos (by simpa using ha)]
      simp only [map_cons, sum_cons, lookup_cons_ite, Ne.symm ha, ite_false, add_assoc]
      exact congrArg _ (ih hl.2)

lemma sum_keys (d : Dict κ υ) (f : κ → M) : d.sum (fun k _ => f k) = ∑ k ∈ d.keys.toFinset, f k := by
  have hnd : d.keys.Nodup := d.nodup_keys
  rw [sum_toFinset f hnd]
  unfold sum keys
  rw [map_map]
  rfl

lemma sum_eq_sum_keys (d : Dict κ υ) (f : κ → υ → M) :
    d.sum f = ∑ k ∈ d.keys.toFinset, (d.get? k).elim 0 (f k) := by
  have hnd : d.keys.Nodup := d.nodup_keys
  rw [sum_toFinset _ hnd]
  unfold sum keys
  rw [map_map]
  congr 1
  refine map_congr_left fun e he => ?_
  have hget : d.get? e.1 = some e.2 := (d.mem_entries_iff e.1 e.2).mp he
  simp [hget]

variable {d : Dict κ υ} {ω : Type*} {e : Dict κ ω}

lemma get?_eq_none_of_notMem {k : κ} (h : k ∉ d.keys.toFinset) : d.get? k = none := by
  rw [mem_toFinset, mem_keys_iff, contains, Option.not_isSome_iff_eq_none] at h
  exact h

variable {f : κ → υ → M}

lemma sum_congr_get? {g : κ → ω → M}
    (h : ∀ k, (d.get? k).elim 0 (f k) = (e.get? k).elim 0 (g k)) : d.sum f = e.sum g := by
  have hd : d.keys.toFinset ⊆ d.keys.toFinset ∪ e.keys.toFinset := Finset.subset_union_left
  have he : e.keys.toFinset ⊆ d.keys.toFinset ∪ e.keys.toFinset := Finset.subset_union_right
  rw [sum_eq_sum_keys, sum_eq_sum_keys, Finset.sum_subset hd, Finset.sum_subset he]
  · exact Finset.sum_congr rfl fun k _ => h k
  · intro k _ hk
    rw [get?_eq_none_of_notMem hk, Option.elim_none]
  · intro k _ hk
    rw [get?_eq_none_of_notMem hk, Option.elim_none]

lemma sum_add_sum_removed {e : Dict κ υ} {ks : List κ} (hnd : ks.Nodup)
    (hout : ∀ k ∉ ks, (e.get? k).elim 0 (f k) = (d.get? k).elim 0 (f k))
    (hin : ∀ k ∈ ks, (e.get? k).elim 0 (f k) = 0) :
    e.sum f + (ks.map fun k => (d.get? k).elim 0 (f k)).sum = d.sum f := by
  induction ks generalizing d with
  | nil =>
    rw [map_nil, sum_nil, add_zero]
    exact sum_congr_get? fun k => hout k not_mem_nil
  | cons x rest ih =>
    rw [nodup_cons] at hnd
    have herase := d.sum_erase f x
    have hrest : e.sum f + (rest.map fun k => ((d.erase x).get? k).elim 0 (f k)).sum = (d.erase x).sum f := by
      refine ih hnd.2 (fun k hk => ?_) fun k hk => hin k (mem_cons_of_mem x hk)
      by_cases hx : k = x
      · rw [hx, hin x mem_cons_self, get?_erase_self, Option.elim_none]
      · rw [get?_erase_of_ne d hx]
        exact hout k (by simp [hx, hk])
    have hmap : rest.map (fun k => ((d.erase x).get? k).elim 0 (f k)) =
        rest.map fun k => (d.get? k).elim 0 (f k) := by
      refine map_congr_left fun k hk => ?_
      have hne : k ≠ x := fun h => hnd.1 (h ▸ hk)
      rw [get?_erase_of_ne d hne]
    rw [map_cons, sum_cons, ← herase, ← hrest, hmap, add_assoc, add_comm (List.sum _)]

lemma sum_of_agree_except {e : Dict κ υ} {x : κ} (h : ∀ k, k ≠ x → e.get? k = d.get? k) :
    e.sum f + (d.get? x).elim 0 (f x) = d.sum f + (e.get? x).elim 0 (f x) := by
  have hrest : (e.erase x).sum f = (d.erase x).sum f := by
    refine sum_congr_get? fun k => ?_
    by_cases hk : k = x
    · rw [hk, get?_erase_self, get?_erase_self]
    · rw [get?_erase_of_ne _ hk, get?_erase_of_ne _ hk, h k hk]
  rw [← e.sum_erase f x, ← d.sum_erase f x, hrest, add_right_comm]

lemma sum_keys_le [PartialOrder M] [IsOrderedAddMonoid M] {f : κ → M} (hf : ∀ k, 0 ≤ f k)
    (h : ∀ k, d.contains k = true → e.contains k = true) : d.sum (fun k _ => f k) ≤ e.sum (fun k _ => f k) := by
  rw [sum_keys, sum_keys]
  refine Finset.sum_le_sum_of_subset_of_nonneg (fun k hk => ?_) fun k _ _ => hf k
  rw [mem_toFinset, mem_keys_iff] at hk ⊢
  exact h k hk

end Sum

end Dict

end CustomAi
