import CustomAi.Vllm.EncoderScheduling

/-!
# Slots of the encoder cache

The calls that the scheduler makes on an `EncoderCacheManager`, in any order that it can produce,
and what holds after each of them: the two counters, the entries that can be evicted and their
order.
-/

namespace CustomAi.Vllm

open List Option Except Sublist

namespace EncoderCacheManager

/-- The requests that reference the entry of `mmHash`. -/
def references (m : EncoderCacheManager) (mmHash : String) : Finset RequestId :=
  (m.cached.get? mmHash).getD ∅

def SizedBy (size : String → ℕ) (request : Request) : Prop :=
  ∀ f ∈ request.mmFeatures, f.mmPosition.getNumEmbeds = .ok (size f.identifier)

instance (size : String → ℕ) (request : Request) : Decidable (SizedBy size request) :=
  inferInstanceAs (Decidable (∀ f ∈ request.mmFeatures, f.mmPosition.getNumEmbeds = .ok (size f.identifier)))

variable {size : String → ℕ} {request : Request} {inputId : ℕ}

lemma SizedBy.input (hs : SizedBy size request) (hi : inputId < request.mmFeatures.length) :
    ∃ mmHash, request.mmHash inputId = .ok mmHash ∧ request.getNumEncoderEmbeds inputId = .ok (size mmHash) := by
  have hget : request.mmFeatures[inputId]? = some request.mmFeatures[inputId] := List.getElem?_eq_getElem hi
  refine ⟨request.mmFeatures[inputId].identifier, ?_, ?_⟩
  · rw [Request.mmHash, hget]
  · rw [Request.getNumEncoderEmbeds, hget]
    exact hs _ (getElem_mem hi)

/-- The entries that can be evicted are unreferenced, and the counters are right. -/
structure Accounts (size : String → ℕ) (m : EncoderCacheManager) : Prop where
  freeable_iff : ∀ h, m.freeable.contains h = true ↔ m.cached.get? h = some ∅
  freeable_size : ∀ h n, m.freeable.get? h = some n → n = size h
  free_eq : m.numFreeSlots + m.cached.sum (fun h _ => (size h : ℤ)) = m.cacheSize
  freeable_eq : m.numFreeableSlots = m.numFreeSlots + m.freeable.sum (fun h _ => (size h : ℤ))

variable {m m' : EncoderCacheManager}

lemma Accounts.new (cacheSize : ℕ) : Accounts size (EncoderCacheManager.new cacheSize) where
  freeable_iff h := by simp [EncoderCacheManager.new, Dict.contains]
  freeable_size h n := by simp [EncoderCacheManager.new]
  free_eq := by simp [EncoderCacheManager.new]
  freeable_eq := by simp [EncoderCacheManager.new]

lemma Accounts.free_le_freeable (h : Accounts size m) : m.numFreeSlots ≤ m.numFreeableSlots := by
  have hsum : (Dict.empty : Dict String ℕ).sum (fun h _ => (size h : ℤ)) ≤
      m.freeable.sum (fun h _ => (size h : ℤ)) :=
    Dict.sum_keys_le (fun _ => Int.natCast_nonneg _) fun k hk => by cases hk
  have := h.freeable_eq
  rw [Dict.sum_empty] at hsum
  omega

lemma Accounts.freeable_le_size (h : Accounts size m) : m.numFreeableSlots ≤ m.cacheSize := by
  have hsum : m.freeable.sum (fun h _ => (size h : ℤ)) ≤ m.cached.sum (fun h _ => (size h : ℤ)) := by
    refine Dict.sum_keys_le (fun _ => Int.natCast_nonneg _) fun k hk => ?_
    rw [Dict.contains, (h.freeable_iff k).mp hk]
    rfl
  have := h.freeable_eq
  have := h.free_eq
  omega

/-- What a call other than `allocate` and `reset` does to the entries. -/
structure Kept (m m' : EncoderCacheManager) : Prop where
  cacheSize : m'.cacheSize = m.cacheSize
  contains : ∀ h, m'.cached.contains h = true → m.cached.contains h = true
  free_le : m.numFreeSlots ≤ m'.numFreeSlots
  referenced : ∀ h, m.references h ≠ ∅ → m'.cached.contains h = true
  order : m'.freeable.keys.Sublist m.freeable.keys ∨
    ∃ h, m.references h ≠ ∅ ∧ m'.freeable.keys = m.freeable.keys ++ [h]

variable {ids' : Finset RequestId} {h : String}

lemma contains_of_references (hr : m.references h ≠ ∅) : m.cached.contains h = true := by
  unfold references at hr
  unfold Dict.contains
  cases hget : m.cached.get? h with
  | none => exact absurd (by rw [hget]; rfl) hr
  | some ids => rfl

variable {ids : Finset RequestId}

lemma references_of_get? (hget : m.cached.get? h = some ids) : m.references h = ids := by
  rw [references, hget]
  rfl

lemma Kept.refl (m : EncoderCacheManager) : Kept m m where
  cacheSize := rfl
  contains _ hc := hc
  free_le := le_rfl
  referenced _ hr := contains_of_references hr
  order := .inl (Sublist.refl _)

variable {mmHash : String}

lemma sum_cached_set (hget : m.cached.get? mmHash = some ids) :
    (m.cached.set mmHash ids').sum (fun h _ => (size h : ℤ)) = m.cached.sum (fun h _ => (size h : ℤ)) := by
  have h := Dict.sum_set m.cached (fun h _ => (size h : ℤ)) mmHash ids'
  rw [hget, elim_some] at h
  omega

lemma contains_cached_set (hget : m.cached.get? mmHash = some ids) (h : String) :
    (m.cached.set mmHash ids').contains h = m.cached.contains h := by
  rw [Dict.contains_set]
  by_cases hh : h = mmHash
  · rw [hh, decide_eq_true rfl, Dict.contains, hget]
    rfl
  · rw [decide_eq_false hh, Bool.false_or]

lemma checkAndUpdateCache_spec (h : Accounts size m) (hs : SizedBy size request)
    (hi : inputId < request.mmFeatures.length) : ∃ mmHash b m', request.mmHash inputId = .ok mmHash ∧
      m.checkAndUpdateCache request inputId = .ok (b, m') ∧ Accounts size m' ∧ Kept m m' ∧
      (b = true ↔ m.cached.contains mmHash = true) := by
  obtain ⟨mmHash, hhash, -⟩ := hs.input hi
  unfold checkAndUpdateCache
  rw [hhash, ok_bind]
  cases hget : m.cached.get? mmHash with
  | none =>
    refine ⟨mmHash, false, m, rfl, rfl, h, .refl m, ?_⟩
    rw [Dict.contains, hget]
    simp
  | some ids =>
    have hcontains : m.cached.contains mmHash = true := by
      rw [Dict.contains, hget]
      rfl
    by_cases hids : ids = ∅
    · have hfree : m.freeable.contains mmHash = true := (h.freeable_iff mmHash).mpr (hids ▸ hget)
      obtain ⟨n, hn⟩ := isSome_iff_exists.mp hfree
      obtain rfl := h.freeable_size mmHash n hn
      refine ⟨mmHash, true, { m with
        freeable := m.freeable.erase mmHash
        numFreeableSlots := m.numFreeableSlots - size mmHash
        cached := m.cached.set mmHash (insert request.requestId ids) }, rfl, ?_, ?_, ?_, by simp [hcontains]⟩
      · simp only [hids, ite_true, reclaim, hn, ok_bind, pure_eq_ok]
      · have hsum := Dict.sum_erase m.freeable (fun h _ => (size h : ℤ)) mmHash
        rw [hn, elim_some] at hsum
        refine ⟨fun x => ?_, fun x n hx => ?_, ?_, ?_⟩
        · rw [Dict.contains_erase, Dict.get?_set]
          by_cases hx : x = mmHash
          · simp [hx]
          · simp [hx, h.freeable_iff]
        · rw [Dict.get?_erase] at hx
          split at hx
          · cases hx
          · exact h.freeable_size x n hx
        · rw [sum_cached_set hget]
          exact h.free_eq
        · have := h.freeable_eq
          change m.numFreeableSlots - (size mmHash : ℤ) =
            m.numFreeSlots + (m.freeable.erase mmHash).sum (fun h _ => (size h : ℤ))
          omega
      · refine ⟨rfl, fun x hx => ?_, le_rfl, fun x hx => ?_, .inl ?_⟩
        · rwa [contains_cached_set hget] at hx
        · rw [contains_cached_set hget]
          exact contains_of_references hx
        · rw [Dict.keys_erase]
          exact filter_sublist
    · refine ⟨mmHash, true, { m with
        cached := m.cached.set mmHash (insert request.requestId ids) }, rfl, ?_, ?_, ?_, by simp [hcontains]⟩
      · simp only [hids, ite_false, pure_eq_ok, ok_bind]
      · refine ⟨fun x => ?_, h.freeable_size, ?_, h.freeable_eq⟩
        · rw [Dict.get?_set]
          by_cases hx : x = mmHash
          · rw [h.freeable_iff, hx, hget]
            simp [hids]
          · rw [if_neg hx]
            exact h.freeable_iff x
        · rw [sum_cached_set hget]
          exact h.free_eq
      · refine ⟨rfl, fun x hx => ?_, le_rfl, fun x hx => ?_, .inl (refl _)⟩
        · rwa [contains_cached_set hget] at hx
        · rw [contains_cached_set hget]
          exact contains_of_references hx

lemma Accounts.evict (h : Accounts size m) {n : ℕ} {rest : List (String × ℕ)}
    (hentries : m.freeable.entries = (mmHash, n) :: rest) : m.cached.contains mmHash = true ∧
      Accounts size { m with
        freeable := m.freeable.erase mmHash
        cached := m.cached.erase mmHash
        freed := m.freed ++ [mmHash]
        numFreeSlots := m.numFreeSlots + n } ∧ Kept m { m with
        freeable := m.freeable.erase mmHash
        cached := m.cached.erase mmHash
        freed := m.freed ++ [mmHash]
        numFreeSlots := m.numFreeSlots + n } := by
  have hn : m.freeable.get? mmHash = some n := (m.freeable.mem_entries_iff _ _).mp (hentries ▸ mem_cons_self)
  have hsize := h.freeable_size mmHash n hn
  have hempty : m.cached.get? mmHash = some ∅ := by
    rw [← h.freeable_iff, Dict.contains, hn]
    rfl
  refine ⟨by rw [Dict.contains, hempty]; rfl, ⟨fun x => ?_, fun x k hx => ?_, ?_, ?_⟩,
    ⟨rfl, fun x hx => ?_, ?_, fun x hx => ?_, .inl ?_⟩⟩
  · rw [Dict.contains_erase, Dict.get?_erase]
    by_cases hx : x = mmHash
    · simp [hx]
    · simp [hx, h.freeable_iff]
  · rw [Dict.get?_erase] at hx
    split at hx
    · cases hx
    · exact h.freeable_size x k hx
  · have hsum := Dict.sum_erase m.cached (fun h _ => (size h : ℤ)) mmHash
    rw [hempty, elim_some] at hsum
    have := h.free_eq
    change m.numFreeSlots + (n : ℤ) + (m.cached.erase mmHash).sum _ = m.cacheSize
    omega
  · have hsum := Dict.sum_erase m.freeable (fun h _ => (size h : ℤ)) mmHash
    rw [hn, elim_some] at hsum
    have := h.freeable_eq
    change m.numFreeableSlots = m.numFreeSlots + (n : ℤ) + (m.freeable.erase mmHash).sum _
    omega
  · rw [Dict.contains_erase] at hx
    exact (Bool.and_eq_true _ _ ▸ hx).2
  · change m.numFreeSlots ≤ m.numFreeSlots + (n : ℤ)
    omega
  · have hne : x ≠ mmHash := by
      rintro rfl
      exact hx (references_of_get? hempty)
    rw [Dict.contains_erase, decide_eq_true hne]
    exact contains_of_references hx
  · rw [Dict.keys_erase]
    exact filter_sublist

lemma Kept.trans_sublist {m'' : EncoderCacheManager} (h : Kept m m') (h' : Kept m' m'')
    (hsub : m'.freeable.keys.Sublist m.freeable.keys) (hsub' : m''.freeable.keys.Sublist m'.freeable.keys)
    (href : ∀ x, m.references x ≠ ∅ → m'.references x ≠ ∅) : Kept m m'' where
  cacheSize := h'.cacheSize.trans h.cacheSize
  contains x hx := h.contains x (h'.contains x hx)
  free_le := h.free_le.trans h'.free_le
  referenced x hx := h'.referenced x (href x hx)
  order := .inl (hsub'.trans hsub)

lemma evictLoop_spec (h : Accounts size m) {numEmbeds : ℤ} {entries : List (String × ℕ)}
    (hentries : m.freeable.entries = entries) (hle : numEmbeds ≤ m.numFreeableSlots) :
    ∃ m', evictLoop numEmbeds entries m = .ok m' ∧ Accounts size m' ∧ Kept m m' ∧
      m'.freeable.keys.Sublist m.freeable.keys ∧ numEmbeds ≤ m'.numFreeSlots := by
  induction entries generalizing m with
  | nil =>
    have hfree : numEmbeds ≤ m.numFreeSlots := by
      have := h.freeable_eq
      rw [Dict.sum, hentries, map_nil, sum_nil] at this
      omega
    refine ⟨m, ?_, h, .refl m, refl _, hfree⟩
    rw [evictLoop, if_neg (by omega)]
  | cons e rest ih =>
    obtain ⟨mmHash, n⟩ := e
    by_cases hgt : numEmbeds > m.numFreeSlots
    · obtain ⟨hcontains, hacc, hkept⟩ := h.evict hentries
      obtain ⟨m', hm', hacc', hkept', hsub, hfree⟩ := ih hacc (Dict.entries_erase_head hentries) hle
      have hsub0 : (m.freeable.erase mmHash).keys.Sublist m.freeable.keys := by
        rw [Dict.keys_erase]
        exact filter_sublist
      refine ⟨m', ?_, hacc', hkept.trans_sublist hkept' hsub0 hsub fun x hx => ?_, hsub.trans hsub0, hfree⟩
      · rw [evictLoop, if_pos hgt, ensure_of hcontains]
        exact hm'
      · -- the references of the entries that stay are untouched
        have hin := hkept.referenced x hx
        have hne : x ≠ mmHash := by
          rintro rfl
          rw [Dict.contains_erase_self] at hin
          cases hin
        change ((m.cached.erase mmHash).get? x).getD ∅ ≠ ∅
        rw [Dict.get?_erase_of_ne _ hne]
        exact hx
    · refine ⟨m, ?_, h, .refl m, refl _, by omega⟩
      rw [evictLoop, if_neg hgt]

lemma canAllocate_spec (h : Accounts size m) (hs : SizedBy size request)
    (hi : inputId < request.mmFeatures.length) (budget numEmbedsToSchedule : ℤ) :
    ∃ mmHash b m', request.mmHash inputId = .ok mmHash ∧
      m.canAllocate request inputId budget numEmbedsToSchedule = .ok (b, m') ∧
      Accounts size m' ∧ Kept m m' ∧ m'.freeable.keys.Sublist m.freeable.keys ∧
      (b = true → size mmHash + numEmbedsToSchedule ≤ m'.numFreeSlots) := by
  obtain ⟨mmHash, hhash, hnum⟩ := hs.input hi
  unfold canAllocate
  rw [hnum, ok_bind]
  by_cases hbudget : (size mmHash : ℤ) > budget
  · exact ⟨mmHash, false, m, hhash, by rw [if_pos hbudget]; rfl, h, .refl m, refl _, by simp⟩
  rw [if_neg hbudget]
  by_cases hfree : (size mmHash : ℤ) + numEmbedsToSchedule ≤ m.numFreeSlots
  · exact ⟨mmHash, true, m, hhash, by rw [if_pos hfree]; rfl, h, .refl m, refl _, fun _ => hfree⟩
  rw [if_neg hfree]
  by_cases hgt : (size mmHash : ℤ) + numEmbedsToSchedule > m.numFreeableSlots
  · exact ⟨mmHash, false, m, hhash, by rw [if_pos hgt]; rfl, h, .refl m, refl _, by simp⟩
  rw [if_neg hgt]
  obtain ⟨m', hm', hacc, hkept, hsub, hle⟩ := evictLoop_spec h rfl (not_lt.mp hgt)
  exact ⟨mmHash, true, m', hhash, by rw [hm']; rfl, hacc, hkept, hsub, fun _ => hle⟩

lemma allocate_spec (h : Accounts size m) (hs : SizedBy size request) (hi : inputId < request.mmFeatures.length) :
    ∃ mmHash, request.mmHash inputId = .ok mmHash ∧ ∀ (_ : m.cached.contains mmHash = false)
      (_ : (size mmHash : ℤ) ≤ m.numFreeSlots), ∃ m', m.allocate request inputId = .ok m' ∧ Accounts size m' ∧
        m'.cacheSize = m.cacheSize ∧ m'.numFreeSlots = m.numFreeSlots - size mmHash ∧ m'.freeable = m.freeable ∧
        ∀ x, m'.cached.contains x = (decide (x = mmHash) || m.cached.contains x) := by
  obtain ⟨mmHash, hhash, hnum⟩ := hs.input hi
  refine ⟨mmHash, hhash, fun hnew hroom => ?_⟩
  have hnone : m.cached.get? mmHash = none := not_isSome_iff_eq_none.mp (by
    rw [Dict.contains] at hnew
    rw [hnew]
    exact Bool.false_ne_true)
  have hroom' : m.numFreeableSlots ≥ (size mmHash : ℤ) := hroom.trans h.free_le_freeable
  refine ⟨{ m with
    cached := m.cached.set mmHash (insert request.requestId ((m.cached.get? mmHash).getD ∅))
    numFreeSlots := m.numFreeSlots - size mmHash
    numFreeableSlots := m.numFreeableSlots - size mmHash }, ?_,
    ⟨fun x => ?_, h.freeable_size, ?_, ?_⟩, rfl, rfl, rfl, fun x => Dict.contains_set _ _ _ _⟩
  · unfold allocate
    rw [hhash, ok_bind, hnum, ok_bind, ensure_of hroom, ensure_of hroom']
    rfl
  · rw [h.freeable_iff, Dict.get?_set]
    by_cases hx : x = mmHash
    · rw [hx, hnone]
      simp
    · rw [if_neg hx]
  · have := h.free_eq
    change m.numFreeSlots - (size mmHash : ℤ) + (m.cached.set mmHash (insert request.requestId
      ((m.cached.get? mmHash).getD ∅))).sum (fun h _ => (size h : ℤ)) = (m.cacheSize : ℤ)
    generalize insert request.requestId ((m.cached.get? mmHash).getD ∅) = ids
    have hsum := Dict.sum_set m.cached (fun h _ => (size h : ℤ)) mmHash ids
    rw [hnone, elim_none] at hsum
    omega
  · have := h.freeable_eq
    change m.numFreeableSlots - (size mmHash : ℤ) =
      m.numFreeSlots - (size mmHash : ℤ) + m.freeable.sum (fun h _ => (size h : ℤ))
    omega

lemma freeEncoderInput_spec (h : Accounts size m) (hs : SizedBy size request)
    (hi : inputId < request.mmFeatures.length) :
    ∃ m', m.freeEncoderInput request inputId = .ok m' ∧ Accounts size m' ∧ Kept m m' ∧
      ∀ x, m'.cached.contains x = m.cached.contains x := by
  obtain ⟨mmHash, hhash, hnum⟩ := hs.input hi
  unfold freeEncoderInput
  rw [hhash, ok_bind]
  cases hget : m.cached.get? mmHash with
  | none => exact ⟨m, rfl, h, .refl m, fun _ => rfl⟩
  | some ids =>
    by_cases hids : ids = ∅
    · exact ⟨m, by simp only [hids, ite_true]; rfl, h, .refl m, fun _ => rfl⟩
    simp only [hids, ite_false]
    have hno : m.freeable.contains mmHash = false := by
      rw [← Bool.not_eq_true, h.freeable_iff, hget]
      simp [hids]
    have hnone : m.freeable.get? mmHash = none := not_isSome_iff_eq_none.mp (by
      rw [Dict.contains] at hno
      rw [hno]
      exact Bool.false_ne_true)
    have hrefs : m.references mmHash ≠ ∅ := by
      rw [references_of_get? hget]
      exact hids
    by_cases herase : ids.erase request.requestId = ∅
    · rw [if_pos herase, hnum]
      refine ⟨_, rfl, ⟨fun x => ?_, fun x n hx => ?_, ?_, ?_⟩,
        ⟨rfl, fun x hx => ?_, le_rfl, fun x hx => ?_, .inr ⟨mmHash, hrefs, ?_⟩⟩, contains_cached_set hget⟩
      · rw [Dict.contains_set, Dict.get?_set]
        by_cases hx : x = mmHash
        · simp [hx, herase]
        · simp [hx, h.freeable_iff]
      · rw [Dict.get?_set] at hx
        split at hx
        · rename_i hx'
          rw [hx']
          exact (some.inj hx).symm
        · exact h.freeable_size x n hx
      · rw [sum_cached_set hget]
        exact h.free_eq
      · have hsum := Dict.sum_set m.freeable (fun h _ => (size h : ℤ)) mmHash (size mmHash)
        rw [hnone, elim_none] at hsum
        have := h.freeable_eq
        change m.numFreeableSlots + (size mmHash : ℤ) =
          m.numFreeSlots + (m.freeable.set mmHash (size mmHash)).sum (fun h _ => (size h : ℤ))
        omega
      · rwa [contains_cached_set hget] at hx
      · rw [contains_cached_set hget]
        exact contains_of_references hx
      · exact Dict.keys_set_of_new _ hno
    · rw [if_neg herase]
      refine ⟨_, rfl, ⟨fun x => ?_, h.freeable_size, ?_, h.freeable_eq⟩,
        ⟨rfl, fun x hx => ?_, le_rfl, fun x hx => ?_, .inl (refl _)⟩, contains_cached_set hget⟩
      · rw [Dict.get?_set]
        by_cases hx : x = mmHash
        · rw [h.freeable_iff, hx, hget]
          simp [hids, herase]
        · rw [if_neg hx]
          exact h.freeable_iff x
      · rw [sum_cached_set hget]
        exact h.free_eq
      · rwa [contains_cached_set hget] at hx
      · rw [contains_cached_set hget]
        exact contains_of_references hx

end EncoderCacheManager

end CustomAi.Vllm

/-!
## Encoder inputs of a step

Which encoder inputs `_try_schedule_encoder_inputs` makes available for the positions of a step, and
the two ways in which it misses the position that only the draft model reads.
-/

namespace CustomAi.Vllm

open List Option Except

namespace PlaceholderRange

/-- The `i`-th placeholder token gets an embedding. -/
def EmbedAt (r : PlaceholderRange) (i : ℕ) : Prop :=
  match r.isEmbed with
  | none => True
  | some mask => mask[i]? = some true

instance (r : PlaceholderRange) (i : ℕ) : Decidable (r.EmbedAt i) := by
  unfold EmbedAt
  cases r.isEmbed <;> infer_instance

variable {mask : List Bool}

lemma embedsCumsum_pos {k : ℕ} (hpos : 0 < k) (hle : k ≤ mask.length) :
    embedsCumsum mask ((k : ℤ) - 1) = .ok ((mask.take k).count true : ℕ) := by
  have hindex : pyIndex mask ((k : ℤ) - 1) = some (k - 1) := by
    unfold pyIndex
    rw [if_pos (by omega), if_pos (by omega)]
    congr 1
    omega
  have hsucc : k - 1 + 1 = k := Nat.sub_add_cancel hpos
  unfold embedsCumsum
  simp only [hindex, hsucc]

lemma embedsCumsum_neg_one (hne : mask ≠ []) : embedsCumsum mask (-1) = .ok (mask.count true : ℕ) := by
  have hpos := length_pos_iff.mpr hne
  have hindex : pyIndex mask (-1) = some (mask.length - 1) := by
    unfold pyIndex
    rw [if_neg (by omega), if_pos (by omega)]
    congr 1
    omega
  have hsucc : mask.length - 1 + 1 = mask.length := Nat.sub_add_cancel hpos
  unfold embedsCumsum
  simp only [hindex, hsucc, take_length]

variable {r : PlaceholderRange} {a b : ℕ}

lemma count_take_eq_iff (hab : a ≤ b) : (mask.take b).count true = (mask.take a).count true ↔
      ∀ i, a ≤ i → i < b → mask[i]? ≠ some true := by
  have hsplit : mask.take b = mask.take a ++ (mask.drop a).take (b - a) := by
    conv_lhs => rw [← Nat.add_sub_cancel' hab]
    exact take_add
  rw [hsplit, count_append, Nat.add_eq_left, count_eq_zero]
  refine ⟨fun h i hai hib hi => h ?_, fun h hmem => ?_⟩
  · refine mem_of_getElem? (i := i - a) ?_
    rw [List.getElem?_take_of_lt (by omega), List.getElem?_drop, Nat.add_sub_cancel' hai, hi]
  · obtain ⟨i, hi⟩ := List.getElem?_of_mem hmem
    have hlt : i < b - a := by
      have := (List.getElem?_eq_some_iff.mp hi).1
      rw [length_take] at this
      omega
    rw [List.getElem?_take_of_lt hlt, List.getElem?_drop] at hi
    exact h (a + i) (by omega) (by omega) hi

lemma getEmbedsIndicesInRange_spec (hmask : ∀ mask ∈ r.isEmbed, mask.length = r.length)
    (hab : a < b) (hb : b ≤ r.length) : ∃ x y, r.getEmbedsIndicesInRange a b = .ok (x, y) ∧
      (y - x = 0 ↔ ∀ i, a ≤ i → i < b → ¬r.EmbedAt i) := by
  unfold getEmbedsIndicesInRange EmbedAt
  cases hembed : r.isEmbed with
  | none =>
    refine ⟨a, b, rfl, ?_⟩
    refine ⟨fun h => absurd h (by omega), fun h => absurd trivial (h a le_rfl hab)⟩
  | some mask =>
    have hlen := hmask mask hembed
    have hend : embedsCumsum mask ((b : ℤ) - 1) = .ok ((mask.take b).count true : ℕ) :=
      embedsCumsum_pos (by omega) (by omega)
    have hstart : (if (a : ℤ) > 0 then embedsCumsum mask ((a : ℤ) - 1) else pure 0) =
        .ok ((mask.take a).count true : ℤ) := by
      split
      next hpos => exact embedsCumsum_pos (by omega) (by omega)
      next hzero =>
        obtain rfl : a = 0 := by omega
        rfl
    refine ⟨(mask.take a).count true, (mask.take b).count true, ?_, ?_⟩
    · simp only [hstart, hend]
      rfl
    · have hiff : (mask.take b).count true = (mask.take a).count true ↔ _ := count_take_eq_iff hab.le
      rw [← hiff]
      omega

lemma getEmbedsIndicesInRange_zero (hmask : ∀ mask ∈ r.isEmbed, mask.length = r.length)
    (hpos : 0 < r.length) : ∃ y, r.getEmbedsIndicesInRange 0 0 = .ok (0, y) ∧
      (y = 0 ↔ r.isEmbed = none ∨ ∀ i, ¬r.EmbedAt i) := by
  unfold getEmbedsIndicesInRange EmbedAt
  cases hembed : r.isEmbed with
  | none => exact ⟨0, rfl, by simp⟩
  | some mask =>
    have hne : mask ≠ [] := by
      rintro rfl
      have := hmask [] hembed
      simp at this
      omega
    refine ⟨_, by simp only [embedsCumsum_neg_one hne, zero_sub]; rfl, ?_⟩
    simp only [Nat.cast_eq_zero, count_eq_zero, reduceCtorEq, false_or]
    refine ⟨fun h i hi => h (mem_of_getElem? hi), fun h hmem => ?_⟩
    obtain ⟨i, hi⟩ := List.getElem?_of_mem hmem
    exact h i hi

end PlaceholderRange

namespace EncoderCacheManager

variable {size : String → ℕ} {m m' : EncoderCacheManager} {request : Request} {i : ℕ}

lemma checkAndUpdateCache_references {mmHash : String} (hhash : request.mmHash i = .ok mmHash)
    {cached : Bool} (h : m.checkAndUpdateCache request i = .ok (cached, m')) :
    (cached = true → request.requestId ∈ m'.references mmHash) ∧
      (cached = false → m' = m ∧ m.cached.contains mmHash = false) ∧ ∀ x, m.references x ⊆ m'.references x := by
  unfold checkAndUpdateCache at h
  rw [hhash, ok_bind] at h
  cases hget : m.cached.get? mmHash with
  | none =>
    rw [hget] at h
    obtain ⟨rfl, rfl⟩ := ok_pair_inj h
    refine ⟨fun h => absurd h Bool.false_ne_true, fun _ => ⟨rfl, ?_⟩, fun x => subset_rfl⟩
    rw [Dict.contains, hget]
    rfl
  | some ids =>
    rw [hget] at h
    obtain ⟨m1, hm1, h⟩ := bind_eq_ok.mp h
    obtain ⟨rfl, rfl⟩ := ok_pair_inj h
    have hsame : m1.cached = m.cached := by
      split at hm1
      · unfold reclaim at hm1
        split at hm1
        · cases hm1
        · obtain rfl := ok.inj hm1
          rfl
      · obtain rfl := ok.inj hm1
        rfl
    refine ⟨fun _ => ?_, fun h => absurd h.symm Bool.false_ne_true, fun x => ?_⟩
    · unfold references
      rw [Dict.get?_set, if_pos rfl]
      exact Finset.mem_insert_self _ _
    · unfold references
      rw [Dict.get?_set, hsame]
      split
      next hx =>
        rw [hx, hget]
        exact Finset.subset_insert _ _
      next => exact subset_rfl

lemma evictLoop_references (h : Accounts size m) {numEmbeds : ℤ} {entries : List (String × ℕ)}
    (hentries : m.freeable.entries = entries) (hloop : evictLoop numEmbeds entries m = .ok m')
    {x : String} (hx : m.references x ≠ ∅) : m'.references x = m.references x := by
  induction entries generalizing m with
  | nil =>
    rw [evictLoop] at hloop
    split at hloop
    · cases hloop
    · rw [ok.inj hloop]
  | cons e rest ih =>
    obtain ⟨mmHash, n⟩ := e
    rw [evictLoop] at hloop
    split at hloop
    · obtain ⟨_, -, hloop⟩ := bind_eq_ok.mp hloop
      obtain ⟨-, hacc, -⟩ := h.evict hentries
      have hfree : m.freeable.contains mmHash = true := by
        rw [← Dict.mem_keys_iff]
        unfold Dict.keys
        rw [hentries]
        exact mem_cons_self
      have hne : x ≠ mmHash := by
        rintro rfl
        exact hx (references_of_get? ((h.freeable_iff x).mp hfree))
      have hsame : ∀ m1 : EncoderCacheManager, m1.cached = m.cached.erase mmHash →
          m1.references x = m.references x := by
        intro m1 hm1
        unfold references
        rw [hm1, Dict.get?_erase_of_ne _ hne]
      have hstep := ih hacc (Dict.entries_erase_head hentries) hloop
        (by rw [hsame _ rfl]; exact hx)
      rw [hstep, hsame _ rfl]
    · rw [ok.inj hloop]

lemma canAllocate_references (h : Accounts size m) {budget numEmbedsToSchedule : ℤ} {room : Bool}
    (hcan : m.canAllocate request i budget numEmbedsToSchedule = .ok (room, m')) :
    (room = true → ∃ n, request.getNumEncoderEmbeds i = .ok n ∧ (n : ℤ) ≤ budget) ∧
      ∀ x, m.references x ≠ ∅ → m'.references x = m.references x := by
  obtain ⟨n, hn, hcan⟩ := bind_eq_ok.mp hcan
  split at hcan
  · obtain ⟨rfl, rfl⟩ := ok_pair_inj hcan
    exact ⟨fun h => absurd h Bool.false_ne_true, fun x _ => rfl⟩
  next hbudget =>
    refine ⟨fun _ => ⟨n, hn, not_lt.mp hbudget⟩, fun x hx => ?_⟩
    dsimp only at hcan
    split at hcan
    · rw [(ok_pair_inj hcan).2]
    · split at hcan
      · rw [(ok_pair_inj hcan).2]
      · obtain ⟨m1, hm1, hcan⟩ := bind_eq_ok.mp hcan
        rw [← (ok_pair_inj hcan).2]
        exact evictLoop_references h rfl hm1 hx

end EncoderCacheManager

end CustomAi.Vllm
