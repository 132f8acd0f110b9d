import CustomAi.Lib.OrderedDict

/-!
# Dictionaries of lists as an index

A dictionary of lists indexes a relation if it lists the values of each key once and has no empty
list, as a `defaultdict(list)` whose emptied lists are deleted.
-/

namespace CustomAi

open List

universe u v

variable {κ : Type u} {υ : Type v} [DecidableEq κ]

namespace Dict

variable {d : Dict κ (List υ)} {R R' : κ → υ → Prop} {k : κ} {x : υ}

def listAt (d : Dict κ (List υ)) (k : κ) : List υ := (d.get? k).getD []

structure Indexes (d : Dict κ (List υ)) (R : κ → υ → Prop) : Prop where
  ne_nil : ∀ k, d.get? k ≠ some []
  nodup : ∀ k, (d.listAt k).Nodup
  mem_iff : ∀ k x, x ∈ d.listAt k ↔ R k x

lemma Indexes.empty : (empty : Dict κ (List υ)).Indexes fun _ _ => False :=
  ⟨fun _ => nofun, fun _ => nodup_nil, fun _ _ => ⟨nofun, False.elim⟩⟩

lemma Indexes.congr (h : d.Indexes R) (hR : ∀ k x, R k x ↔ R' k x) : d.Indexes R' :=
  ⟨h.ne_nil, h.nodup, fun k x => (h.mem_iff k x).trans (hR k x)⟩

lemma Indexes.get?_eq_none_iff (h : d.Indexes R) : d.get? k = none ↔ ∀ x, ¬R k x := by
  constructor
  · intro hk x hx
    have hmem := (h.mem_iff k x).mpr hx
    unfold listAt at hmem
    rw [hk] at hmem
    cases hmem
  · intro hR
    cases hk : d.get? k with
    | none => rfl
    | some l =>
      cases l with
      | nil => exact absurd hk (h.ne_nil k)
      | cons x l =>
        refine absurd ((h.mem_iff k x).mp ?_) (hR x)
        unfold listAt
        rw [hk]
        exact mem_cons_self

lemma listAt_set (l : List υ) (k' : κ) : (d.set k l).listAt k' = if k' = k then l else d.listAt k' := by
  unfold listAt
  rw [get?_set]
  split <;> rfl

lemma listAt_erase (k' : κ) : (d.erase k).listAt k' = if k' = k then [] else d.listAt k' := by
  unfold listAt
  rw [get?_erase]
  split <;> rfl

lemma Indexes.append (h : d.Indexes R) (hx : ¬R k x) :
    (d.set k (d.listAt k ++ [x])).Indexes fun k' x' => R k' x' ∨ (k' = k ∧ x' = x) := by
  refine ⟨fun k' hk' => ?_, fun k' => ?_, fun k' x' => ?_⟩
  · rw [get?_set] at hk'
    split at hk'
    · simp at hk'
    · exact h.ne_nil k' hk'
  · rw [listAt_set]
    split
    · have hnotMem : x ∉ d.listAt k := fun hm => hx ((h.mem_iff k x).mp hm)
      exact List.Nodup.append (h.nodup k) (nodup_singleton x) (disjoint_singleton.mpr hnotMem)
    · exact h.nodup k'
  · rw [listAt_set]
    by_cases hk : k' = k
    · subst hk
      rw [if_pos rfl, mem_append, h.mem_iff]
      simp
    · rw [if_neg hk, h.mem_iff]
      simp [hk]

lemma Indexes.erase (h : d.Indexes R) (k : κ) : (d.erase k).Indexes fun k' x' => R k' x' ∧ k' ≠ k := by
  refine ⟨fun k' hk' => ?_, fun k' => ?_, fun k' x' => ?_⟩
  · rw [get?_erase] at hk'
    split at hk'
    · cases hk'
    · exact h.ne_nil k' hk'
  · rw [listAt_erase]
    split
    · exact nodup_nil
    · exact h.nodup k'
  · rw [listAt_erase]
    split
    · next hk => simp [hk]
    · next hk => simp [hk, h.mem_iff]

variable [DecidableEq υ]

def removeFrom (d : Dict κ (List υ)) (k : κ) (x : υ) : Dict κ (List υ) :=
  if (d.listAt k).erase x = [] then d.erase k else d.set k ((d.listAt k).erase x)

lemma listAt_removeFrom (k' : κ) :
    (d.removeFrom k x).listAt k' = if k' = k then (d.listAt k).erase x else d.listAt k' := by
  unfold removeFrom
  split
  · next hnil =>
    rw [listAt_erase]
    split
    · exact hnil.symm
    · rfl
  · exact listAt_set _ _

lemma Indexes.removeFrom (h : d.Indexes R) (k : κ) (x : υ) :
    (d.removeFrom k x).Indexes fun k' x' => R k' x' ∧ ¬(k' = k ∧ x' = x) := by
  refine ⟨fun k' hk' => ?_, fun k' => ?_, fun k' x' => ?_⟩
  · unfold Dict.removeFrom at hk'
    split at hk'
    · rw [get?_erase] at hk'
      split at hk'
      · cases hk'
      · exact h.ne_nil k' hk'
    · next hne =>
      rw [get?_set] at hk'
      split at hk'
      · exact hne (Option.some.inj hk')
      · exact h.ne_nil k' hk'
  · rw [listAt_removeFrom]
    split
    · exact (h.nodup k).erase x
    · exact h.nodup k'
  · rw [listAt_removeFrom]
    by_cases hk : k' = k
    · subst hk
      rw [if_pos rfl, (h.nodup k').mem_erase_iff, h.mem_iff, and_comm]
      simp
    · rw [if_neg hk, h.mem_iff]
      simp [hk]

end Dict

end CustomAi

/-!
## Dictionaries of lists that items are entered into

A dictionary that maps a key to a list lists items under their keys. In a tidy one no list is empty
and no list has an item twice, so it is empty when it lists nothing.
-/

namespace CustomAi.Dict

universe u v

variable {κ : Type u} {τ : Type v} [DecidableEq κ] {d : Dict κ (List τ)} {k k' : κ} {t t' : τ}

/-- `d[k].append(t)`, or `d[k] = [t]` where there is no list or an empty one -/
def appendAt (d : Dict κ (List τ)) (k : κ) (t : τ) : Dict κ (List τ) :=
  d.set k (d.listAt k ++ [t])

/-- `t` is listed under `k`. -/
def Lists (d : Dict κ (List τ)) (k : κ) (t : τ) : Prop := t ∈ d.listAt k

abbrev Tidy (d : Dict κ (List τ)) : Prop := d.Indexes d.Lists

@[simp] lemma not_lists_empty : ¬ (Dict.empty : Dict κ (List τ)).Lists k t := by
  simp [Lists, listAt]

lemma lists_appendAt : (d.appendAt k t).Lists k' t' ↔ d.Lists k' t' ∨ (k' = k ∧ t' = t) := by
  unfold Lists appendAt
  rw [listAt_set]
  split
  · rename_i hk
    simp [hk]
  · rename_i hk
    simp [hk]

lemma lists_erase : (d.erase k).Lists k' t' ↔ d.Lists k' t' ∧ k' ≠ k := by
  unfold Lists
  rw [listAt_erase]
  split
  · rename_i hk
    simp [hk]
  · rename_i hk
    simp [hk]

namespace Tidy

lemma of_indexes {R : κ → τ → Prop} (h : d.Indexes R) : d.Tidy :=
  h.congr fun k x => (h.mem_iff k x).symm

lemma empty : (Dict.empty : Dict κ (List τ)).Tidy := of_indexes Indexes.empty

lemma erase (h : d.Tidy) (k : κ) : (d.erase k).Tidy := of_indexes (Indexes.erase h k)

lemma appendAt (h : d.Tidy) (hnew : ¬ d.Lists k t) : (d.appendAt k t).Tidy :=
  of_indexes (Indexes.append h hnew)

lemma entries_eq_nil (h : d.Tidy) (hnone : ∀ k t, ¬ d.Lists k t) : d.entries = [] := by
  cases hentries : d.entries with
  | nil => rfl
  | cons e rest =>
    have hget : d.get? e.1 = some e.2 := (mem_entries_iff d e.1 e.2).mp (by rw [hentries]; exact List.mem_cons_self)
    have hnil : d.get? e.1 = none := (Indexes.get?_eq_none_iff h).mpr (hnone e.1)
    rw [hget] at hnil
    cases hnil

end Tidy

variable [DecidableEq τ]

instance : Decidable (d.Lists k t) := inferInstanceAs (Decidable (t ∈ d.listAt k))

/-- The list under `k` as a set gets the member `t`. -/
def insertAt (d : Dict κ (List τ)) (k : κ) (t : τ) : Dict κ (List τ) :=
  if t ∈ d.listAt k then d else d.appendAt k t

lemma lists_insertAt : (d.insertAt k t).Lists k' t' ↔ d.Lists k' t' ∨ (k' = k ∧ t' = t) := by
  unfold insertAt
  split
  · rename_i hmem
    refine ⟨.inl, fun h => h.elim (fun h => h) ?_⟩
    rintro ⟨rfl, rfl⟩
    exact hmem
  · exact lists_appendAt

namespace Tidy

lemma insertAt (h : d.Tidy) : (d.insertAt k t).Tidy := by
  unfold Dict.insertAt
  split
  · exact h
  · rename_i hnew
    exact h.appendAt hnew

lemma removeFrom (h : d.Tidy) (k : κ) (t : τ) : (d.removeFrom k t).Tidy :=
  of_indexes (Indexes.removeFrom h k t)

lemma lists_removeFrom (h : d.Tidy) : (d.removeFrom k t).Lists k' t' ↔ d.Lists k' t' ∧ ¬ (k' = k ∧ t' = t) :=
  (Indexes.removeFrom h k t).mem_iff k' t'

end Tidy

end CustomAi.Dict
