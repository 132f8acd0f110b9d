import CustomAi.Lib.Run
import CustomAi.Vllm.BlockPool

/-!
# The hash index as a relation

`BlockHashToBlockMap` implements a relation between keys and blocks: `insert` adds a pair and `pop`
removes one.
-/

namespace CustomAi.Vllm

open Dict

namespace CachedBlocks

def blocks : CachedBlocks → List BlockId
  | single block => [block]
  | many blocks => blocks.values

def WellFormed : CachedBlocks → Prop
  | single _ => True
  | many blocks => blocks.values ≠ [] ∧ ∀ id b, blocks.get? id = some b → id = b

lemma WellFormed.blocks_ne_nil {e : CachedBlocks} (h : e.WellFormed) : e.blocks ≠ [] := by
  cases e with
  | single b => simp [blocks]
  | many d => exact h.1

lemma WellFormed.mem_blocks_many {d : Dict BlockId BlockId} (h : (many d).WellFormed)
    (b : BlockId) : b ∈ (many d).blocks ↔ d.get? b = some b := by
  unfold blocks
  rw [mem_values_iff]
  constructor
  · rintro ⟨id, hid⟩
    obtain rfl := h.2 id b hid
    exact hid
  · intro hb
    exact ⟨b, hb⟩

end CachedBlocks

namespace BlockHashToBlockMap

/-- Block `b` is stored under `key`. -/
def Stores (m : BlockHashToBlockMap) (key : BlockHashWithGroupId) (b : BlockId) : Prop :=
  ∃ e, m.cache.get? key = some e ∧ b ∈ e.blocks

def WellFormed (m : BlockHashToBlockMap) : Prop :=
  ∀ key e, m.cache.get? key = some e → e.WellFormed

variable {m : BlockHashToBlockMap} {key key' : BlockHashWithGroupId} {b b' : BlockId}

variable {e : CachedBlocks}

lemma stores_of_get? (h : m.cache.get? key = some e) : m.Stores key b ↔ b ∈ e.blocks := by
  unfold Stores
  rw [h]
  simp

lemma not_stores_of_get? (h : m.cache.get? key = none) : ¬m.Stores key b := by
  rintro ⟨e, he, -⟩
  rw [h] at he
  cases he

lemma not_stores_new : ¬new.Stores key b := not_stores_of_get? rfl

lemma wellFormed_new : new.WellFormed := by
  intro key e h
  cases h

variable {d : Dict BlockHashWithGroupId CachedBlocks}

lemma stores_set : (⟨d.set key e⟩ : BlockHashToBlockMap).Stores key' b ↔
      if key' = key then b ∈ e.blocks else (⟨d⟩ : BlockHashToBlockMap).Stores key' b := by
  unfold Stores
  by_cases h : key' = key
  · simp [h]
  · simp [get?_set, h]

lemma stores_erase : (⟨d.erase key⟩ : BlockHashToBlockMap).Stores key' b ↔
      key' ≠ key ∧ (⟨d⟩ : BlockHashToBlockMap).Stores key' b := by
  unfold Stores
  by_cases h : key' = key
  · simp [h]
  · simp [get?_erase, h]

section

variable (hd : ∀ key' e', key' ≠ key → d.get? key' = some e' → e'.WellFormed)
include hd

lemma wellFormed_set (he : e.WellFormed) : (⟨d.set key e⟩ : BlockHashToBlockMap).WellFormed := by
  intro key' e' h
  by_cases hk : key' = key
  · simp only [get?_set, hk, ite_true, Option.some.injEq] at h
    exact h ▸ he
  · exact hd key' e' hk (by simpa [get?_set, hk] using h)

lemma wellFormed_erase : (⟨d.erase key⟩ : BlockHashToBlockMap).WellFormed := by
  intro key' e' h
  by_cases hk : key' = key
  · simp [hk] at h
  · exact hd key' e' hk (by simpa [get?_erase, hk] using h)

end

lemma mem_blocks_set {d : Dict BlockId BlockId} (h : ∀ id x, d.get? id = some x → id = x) :
    b ∈ (CachedBlocks.many (d.set b' b')).blocks ↔ b ∈ d.values ∨ b = b' := by
  unfold CachedBlocks.blocks
  simp only [mem_values_iff, get?_set]
  constructor
  · rintro ⟨id, hid⟩
    by_cases hb : id = b'
    · simp only [hb, ite_true, Option.some.injEq] at hid
      exact .inr hid.symm
    · rw [if_neg hb] at hid
      exact .inl ⟨id, hid⟩
  · rintro (⟨id, hid⟩ | rfl)
    · obtain rfl := h id b hid
      by_cases hb : id = b'
      · exact ⟨id, by simp [hb]⟩
      · exact ⟨id, by simpa [hb] using hid⟩
    · exact ⟨b, by simp⟩

lemma wellFormed_many_set {d : Dict BlockId BlockId} (h : ∀ id x, d.get? id = some x → id = x) :
    (CachedBlocks.many (d.set b' b')).WellFormed := by
  refine ⟨values_ne_nil_of_get? (get?_set_self d b' b'), ?_⟩
  intro id x hx
  by_cases hid : id = b'
  · simpa [hid] using hx
  · exact h id x (by simpa [get?_set, hid] using hx)

lemma get?_singleton (id x : BlockId) (h : (empty.set b b).get? id = some x) : id = x := by
  by_cases hid : id = b
  · subst hid
    simpa using h
  · simp [get?_set, hid] at h

lemma insert_spec (hm : m.WellFormed) (key : BlockHashWithGroupId) (b : BlockId) : (m.insert key b).WellFormed ∧
      ∀ key' b', (m.insert key b).Stores key' b' ↔ m.Stores key' b' ∨ (key' = key ∧ b' = b) := by
  have hrest : ∀ key' e', key' ≠ key → m.cache.get? key' = some e' → e'.WellFormed :=
    fun key' e' _ h => hm key' e' h
  unfold insert
  cases hget : m.cache.get? key with
  | none =>
    refine ⟨wellFormed_set hrest trivial, fun key' b' => ?_⟩
    rw [stores_set]
    by_cases hk : key' = key
    · subst hk
      have hn := not_stores_of_get? (b := b') hget
      simp [CachedBlocks.blocks, hn]
    · simp [hk]
  | some e =>
    cases e with
    | single x =>
      refine ⟨wellFormed_set hrest (wellFormed_many_set get?_singleton), fun key' b' => ?_⟩
      rw [stores_set]
      by_cases hk : key' = key
      · subst hk
        rw [mem_blocks_set get?_singleton, stores_of_get? hget]
        simp [CachedBlocks.blocks, Dict.values, Dict.set, Dict.assign, Dict.empty]
      · simp [hk]
    | many d =>
      have hown := (hm key _ hget).2
      refine ⟨wellFormed_set hrest (wellFormed_many_set hown), fun key' b' => ?_⟩
      rw [stores_set]
      by_cases hk : key' = key
      · subst hk
        rw [mem_blocks_set hown, stores_of_get? hget]
        simp [CachedBlocks.blocks]
      · simp [hk]

lemma mem_blocks_erase {d : Dict BlockId BlockId} (h : (CachedBlocks.many d).WellFormed) :
    b' ∈ (d.erase b).values ↔ b' ∈ d.values ∧ b' ≠ b := by
  simp only [mem_values_iff, get?_erase]
  constructor
  · rintro ⟨id, hid⟩
    by_cases hb : id = b
    · simp [hb] at hid
    · rw [if_neg hb] at hid
      exact ⟨⟨id, hid⟩, h.2 id b' hid ▸ hb⟩
  · rintro ⟨⟨id, hid⟩, hne⟩
    exact ⟨id, by simpa [h.2 id b' hid, hne] using h.2 id b' hid ▸ hid⟩

lemma size_pos_iff (d : Dict BlockId BlockId) : d.size > 0 ↔ d.values ≠ [] := by
  unfold size values
  rw [gt_iff_lt, List.length_pos_iff]
  simp

lemma pop_spec (hm : m.WellFormed) (key : BlockHashWithGroupId) (b : BlockId) : (m.pop key b).2.WellFormed ∧
      (∀ key' b', (m.pop key b).2.Stores key' b' ↔ m.Stores key' b' ∧ ¬(key' = key ∧ b' = b)) ∧
      ((m.pop key b).1 = none ↔ ¬m.Stores key b) := by
  have hrest : ∀ key' e', key' ≠ key → m.cache.get? key' = some e' → e'.WellFormed :=
    fun key' e' _ h => hm key' e' h
  have hrest' : ∀ key' e', key' ≠ key → (m.cache.erase key).get? key' = some e' → e'.WellFormed := by
    intro key' e' hk h
    exact hm key' e' (by simpa [get?_erase, hk] using h)
  unfold pop
  cases hget : m.cache.get? key with
  | none =>
    have hn : ∀ b', ¬m.Stores key b' := fun b' => not_stores_of_get? hget
    refine ⟨hm, fun key' b' => ?_, by simp [hn b]⟩
    constructor
    · intro h
      refine ⟨h, ?_⟩
      rintro ⟨rfl, -⟩
      exact hn b' h
    · exact fun h => h.1
  | some e =>
    cases e with
    | single x =>
      by_cases hx : x = b
      · subst hx
        simp only [ite_true]
        refine ⟨wellFormed_erase hrest, fun key' b' => ?_, ?_⟩
        · rw [stores_erase]
          by_cases hk : key' = key
          · subst hk
            simp [stores_of_get? hget, CachedBlocks.blocks]
          · simp [hk]
        · simp [stores_of_get? hget, CachedBlocks.blocks]
      · simp only [hx, ite_false]
        refine ⟨wellFormed_set hrest' trivial, fun key' b' => ?_, ?_⟩
        · rw [stores_set]
          by_cases hk : key' = key
          · subst hk
            simp only [ite_true, stores_of_get? hget, CachedBlocks.blocks, List.mem_singleton, true_and]
            constructor
            · rintro rfl
              exact ⟨rfl, hx⟩
            · exact fun h => h.1
          · simp [hk, stores_erase]
        · simpa [stores_of_get? hget, CachedBlocks.blocks, eq_comm] using hx
    | many d =>
      have hwf := hm key _ hget
      have hkeep : ∀ b', b' ∈ (d.erase b).values ↔ m.Stores key b' ∧ b' ≠ b := by
        intro b'
        rw [mem_blocks_erase hwf, stores_of_get? hget]
        rfl
      have hnone : d.get? b = none ↔ ¬m.Stores key b := by
        rw [stores_of_get? hget, hwf.mem_blocks_many]
        cases hb : d.get? b with
        | none => simp
        | some x => simp [hwf.2 b x hb]
      by_cases hsize : (d.erase b).size > 0
      · simp only [hsize, ite_true]
        refine ⟨wellFormed_set hrest' ⟨(size_pos_iff _).mp hsize, ?_⟩, fun key' b' => ?_, hnone⟩
        · intro id x hx
          by_cases hid : id = b
          · simp [hid] at hx
          · exact hwf.2 id x (by simpa [get?_erase, hid] using hx)
        · rw [stores_set]
          by_cases hk : key' = key
          · subst hk
            simpa [CachedBlocks.blocks] using hkeep b'
          · simp [hk, stores_erase]
      · simp only [hsize, ite_false]
        refine ⟨wellFormed_erase hrest, fun key' b' => ?_, hnone⟩
        rw [stores_erase]
        by_cases hk : key' = key
        · subst hk
          have hempty : (d.erase b).values = [] := by
            by_contra hne
            exact hsize ((size_pos_iff _).mpr hne)
          have hno := hkeep b'
          rw [hempty] at hno
          simp only [List.not_mem_nil, false_iff, not_and, not_not] at hno
          simp only [ne_eq, not_true_eq_false, false_and, true_and, false_iff, not_and, not_not]
          exact hno
        · simp [hk]

lemma getOneBlock_spec (hm : m.WellFormed) (key : BlockHashWithGroupId) :
    (∀ b, m.getOneBlock key = some b → m.Stores key b) ∧ (m.getOneBlock key = none → ∀ b, ¬m.Stores key b) := by
  unfold getOneBlock
  cases hget : m.cache.get? key with
  | none => exact ⟨by simp, fun _ b => not_stores_of_get? hget⟩
  | some e =>
    cases e with
    | single x => simp [stores_of_get? hget, CachedBlocks.blocks, eq_comm]
    | many d =>
      refine ⟨fun b hb => ?_, fun hnil => ?_⟩
      · rw [stores_of_get? hget]
        exact List.mem_of_mem_head? hb
      · exact absurd (List.head?_eq_none_iff.mp hnil) (hm key _ hget).1

end BlockHashToBlockMap

end CustomAi.Vllm
