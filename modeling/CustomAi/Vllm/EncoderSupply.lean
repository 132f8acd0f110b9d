import CustomAi.Vllm.EncoderCacheAccounting

/-!
# The encoder inputs that a step misses

A step misses an encoder input exactly when it ends inside of the input, or right before it, in one
of two ways that leave the position out that only the draft model reads.
-/

namespace CustomAi.Vllm

open List Except EncoderCacheManager Request

open EncoderCacheManager (Accounts SizedBy references)

/-- The features are not empty, in order and apart. -/
structure FeaturesOk (size : String → ℕ) (request : Request) : Prop where
  sized : SizedBy size request
  length_pos : ∀ f ∈ request.mmFeatures, 0 < f.mmPosition.length
  mask_length : ∀ f ∈ request.mmFeatures, ∀ mask ∈ f.mmPosition.isEmbed, mask.length = f.mmPosition.length
  sorted : request.mmFeatures.Pairwise fun f g => f.mmPosition.stop ≤ g.mmPosition.offset

def MultiModalFeatureSpec.NeededIn (f : MultiModalFeatureSpec) (lo hi : ℤ) : Prop :=
  ∃ p : ℕ, lo ≤ p ∧ (p : ℤ) < hi ∧ f.mmPosition.offset ≤ p ∧ p < f.mmPosition.stop ∧
    f.mmPosition.EmbedAt (p - f.mmPosition.offset)

def Request.embedsOf (request : Request) (i : ℕ) : ℕ :=
  ((request.getNumEncoderEmbeds i).toOption).getD 0

def Request.totalEmbeds (request : Request) (inputs : List ℕ) : ℕ :=
  (inputs.map request.embedsOf).sum

namespace EncoderTry

/-- The encoder output is cached with a reference of the request, or to be scheduled or loaded. -/
def Available (request : Request) (t : EncoderTry) (identifier : String) : Prop :=
  (∃ m, t.encoderCache = .multiModal m ∧ request.requestId ∈ m.references identifier) ∨
    ∃ i, (i ∈ t.encoderInputsToSchedule ∨ i ∈ t.externalLoadEncoderInput) ∧ request.mmHash i = .ok identifier

/-- The loop's variables: what it has taken up fits budget and cache. -/
structure Fits (size : String → ℕ) (request : Request) (budget : ℤ) (m : EncoderCacheManager)
    (t : EncoderTry) : Prop where
  cache_eq : t.encoderCache = .multiModal m
  accounts : Accounts size m
  hashes : ∀ h, h ∈ t.mmHashesToSchedule ↔
    ∃ i, (i ∈ t.encoderInputsToSchedule ∨ i ∈ t.externalLoadEncoderInput) ∧ request.mmHash i = .ok h
  budget_eq : t.encoderComputeBudget = budget - request.totalEmbeds t.encoderInputsToSchedule
  budget_nonneg : 0 ≤ t.encoderComputeBudget
  embeds_eq : t.numEmbedsToSchedule = request.totalEmbeds t.encoderInputsToSchedule +
    request.totalEmbeds t.externalLoadEncoderInput
  room : t.numEmbedsToSchedule ≤ m.numFreeSlots

def Grows (request : Request) (t t' : EncoderTry) : Prop :=
  ∀ h, Available request t h → Available request t' h

section Steps

variable {size : String → ℕ} {request : Request} {budget : ℤ} {m m' : EncoderCacheManager}
  {t t' : EncoderTry}

lemma Fits.decoderOnly (h : Fits size request budget m t) : t.encoderCache.isEncoderDecoder = false := by
  rw [h.cache_eq]
  rfl

lemma Fits.cache_inj (h : Fits size request budget m t) (hm : t.encoderCache = .multiModal m') : m' = m := by
  have hsame := hm.symm.trans h.cache_eq
  injection hsame

lemma Fits.unavailable (h : Fits size request budget m t) {identifier : String}
    (hhash : identifier ∉ t.mmHashesToSchedule)
    (hcached : m.cached.contains identifier = false) : ¬Available request t identifier := by
  rintro (⟨m1, hm1, href⟩ | hinput)
  · obtain rfl : m1 = m := h.cache_inj hm1
    have hne : m1.references identifier ≠ ∅ := Finset.ne_empty_of_mem href
    rw [contains_of_references hne] at hcached
    exact absurd hcached.symm Bool.false_ne_true
  · exact hhash ((h.hashes identifier).mpr hinput)

lemma Fits.cached (h : Fits size request budget m t) (hacc : Accounts size m')
    (hfree : m.numFreeSlots ≤ m'.numFreeSlots) (href : ∀ x, m.references x ⊆ m'.references x) :
    Fits size request budget m' { t with encoderCache := .multiModal m' } ∧
      Grows request t { t with encoderCache := .multiModal m' } := by
  refine ⟨⟨rfl, hacc, h.hashes, h.budget_eq, h.budget_nonneg, h.embeds_eq, h.room.trans hfree⟩, ?_⟩
  rintro x (⟨m1, hm1, hx⟩ | hinput)
  · obtain rfl : m1 = m := h.cache_inj hm1
    exact .inl ⟨m', rfl, href x hx⟩
  · exact .inr hinput

lemma totalEmbeds_append (inputs : List ℕ) (i : ℕ) :
    request.totalEmbeds (inputs ++ [i]) = request.totalEmbeds inputs + request.embedsOf i := by
  unfold totalEmbeds
  rw [map_append, sum_append, map_singleton, sum_singleton]

lemma scheduleInput_taken {config : SchedulerConfig} {env : ScheduleEnv} {c : ℤ} {i n : ℕ}
    {f : MultiModalFeatureSpec} (h : Fits size request budget m t) (hhash : request.mmHash i = .ok f.identifier)
    (hembeds : request.embedsOf i = n) (hbudget : (n : ℤ) ≤ t.encoderComputeBudget)
    (hroom : (n : ℤ) + t.numEmbedsToSchedule ≤ m.numFreeSlots) {x y : ℤ}
    (hrange : f.mmPosition.getEmbedsIndicesInRange (max 0 (c - f.mmPosition.offset))
      (min (f.mmPosition.length : ℤ) (c + t.numNewTokens - f.mmPosition.offset)) = .ok (x, y))
    (hne : y - x ≠ 0) : ∃ t', scheduleInput config env c i f n t = .ok t' ∧ Fits size request budget m t' ∧
      Grows request t t' ∧ t'.numNewTokens = t.numNewTokens ∧ Available request t' f.identifier := by
  have hgrow {sched ext : List ℕ} (hsched : ∀ j ∈ t.encoderInputsToSchedule, j ∈ sched)
      (hext : ∀ j ∈ t.externalLoadEncoderInput, j ∈ ext) {b k : ℤ} {hs : List String} :
      Grows request t { t with
        encoderComputeBudget := b, numEmbedsToSchedule := k, mmHashesToSchedule := hs
        encoderInputsToSchedule := sched, externalLoadEncoderInput := ext } := by
    rintro z (hcache | ⟨j, hj, hz⟩)
    · exact .inl hcache
    · exact .inr ⟨j, hj.imp (hsched j) (hext j), hz⟩
  have hhashes {sched ext : List ℕ} (hmem : ∀ j, (j ∈ sched ∨ j ∈ ext) ↔
      (j ∈ t.encoderInputsToSchedule ∨ j ∈ t.externalLoadEncoderInput) ∨ j = i) (z : String) :
      z ∈ t.mmHashesToSchedule ++ [f.identifier] ↔ ∃ j, (j ∈ sched ∨ j ∈ ext) ∧ request.mmHash j = .ok z := by
    rw [mem_append, mem_singleton, h.hashes]
    refine ⟨?_, ?_⟩
    · rintro (⟨j, hj, hz⟩ | rfl)
      · exact ⟨j, (hmem j).mpr (.inl hj), hz⟩
      · exact ⟨i, (hmem i).mpr (.inr rfl), hhash⟩
    · rintro ⟨j, hj, hz⟩
      rcases (hmem j).mp hj with hold | rfl
      · exact .inl ⟨j, hold, hz⟩
      · rw [hhash, ok.injEq] at hz
        exact .inr hz.symm
  have hembeds := h.embeds_eq
  unfold scheduleInput
  simp only [hrange, ok_bind, if_neg hne]
  by_cases hext : (config.hasEcConnector && env.hasCacheItem f.identifier) = true
  · rw [if_pos hext]
    refine ⟨_, rfl, ⟨h.cache_eq, h.accounts, hhashes fun j => ?_, h.budget_eq, h.budget_nonneg,
      ?_, ?_⟩, hgrow (fun j hj => hj) fun j hj => mem_append_left _ hj, rfl,
      .inr ⟨i, .inr (mem_append_right _ (mem_singleton_self i)), hhash⟩⟩
    · rw [mem_append, mem_singleton, or_assoc]
    · rw [totalEmbeds_append]
      push_cast
      omega
    · dsimp only
      omega
  · rw [if_neg hext]
    have hsum : request.totalEmbeds (t.encoderInputsToSchedule ++ [i]) = _ :=
      totalEmbeds_append t.encoderInputsToSchedule i
    refine ⟨_, rfl, ⟨h.cache_eq, h.accounts, hhashes fun j => ?_, ?_, ?_, ?_, ?_⟩,
      hgrow (fun j hj => mem_append_left _ hj) fun j hj => hj, rfl,
      .inr ⟨i, .inl (mem_append_right _ (mem_singleton_self i)), hhash⟩⟩
    · rw [mem_append, mem_singleton, or_right_comm]
    · have := h.budget_eq
      dsimp only
      omega
    · dsimp only
      omega
    · dsimp only
      omega
    · dsimp only
      omega

end Steps

variable (config : SchedulerConfig) (env : ScheduleEnv) (request : Request) (c n s : ℕ)

/-- A feature that the loop reaches is needed at the end of the range and missed: it is neither
taken up nor cached, or only reached one past the range. -/
structure Misses (t : EncoderTry) (i : ℕ) (f : MultiModalFeatureSpec) : Prop where
  shift : s = 1
  starts : f.mmPosition.offset ≤ c + n
  ends : c + n < f.mmPosition.stop
  untaken : f.identifier ∉ t.mmHashesToSchedule
  uncached : ∀ m, t.encoderCache = .multiModal m → m.cached.contains f.identifier = false
  edge : (config.disableChunkedMmInput = true ∧ c < f.mmPosition.offset ∧ f.mmPosition.EmbedAt 0) ∨
    ¬(config.disableChunkedMmInput = true ∧ c < f.mmPosition.offset) ∧
      (∃ cache, t.encoderCache.canAllocate request i t.encoderComputeBudget
        t.numEmbedsToSchedule = .ok (true, cache)) ∧ f.mmPosition.EmbedAt (c + n - f.mmPosition.offset) ∧
      ¬f.NeededIn c (c + n) ∧ (f.mmPosition.isEmbed = none ∨ f.mmPosition.offset < c + n)

inductive Visit (size : String → ℕ) (budget : ℤ) (t : EncoderTry) (i : ℕ)
    (f : MultiModalFeatureSpec) : Prop
  | goes (t' : EncoderTry) (m' : EncoderCacheManager)
      (loop_eq : ∀ rest, loop config env request c s i (f :: rest) t = loop config env request c s (i + 1) rest t')
      (fits : Fits size request budget m' t') (grows : Grows request t t')
      (num : t'.numNewTokens = n)
      (settled : f.NeededIn c (c + n + s) → Available request t' f.identifier)
      (hits : ¬Misses config request c n s t i f)
  | skips (t' : EncoderTry) (m' : EncoderCacheManager)
      (loop_eq : ∀ rest, loop config env request c s i (f :: rest) t = loop config env request c s (i + 1) rest t')
      (fits : Fits size request budget m' t') (grows : Grows request t t')
      (num : t'.numNewTokens = n)
      (misses : Misses config request c n s t i f)
      (embed : f.mmPosition.EmbedAt (c + n - f.mmPosition.offset))
      (unavailable : ¬Available request t' f.identifier)
  | late (loop_eq : ∀ rest, loop config env request c s i (f :: rest) t = .ok t)
      (starts : c + n + s ≤ f.mmPosition.offset)
  | stops (t' : EncoderTry) (m' : EncoderCacheManager)
      (loop_eq : ∀ rest, loop config env request c s i (f :: rest) t = .ok t')
      (fits : Fits size request budget m' t') (grows : Grows request t t')
      (num : t'.numNewTokens = 0 ∨ t'.numNewTokens + c + s ≤ f.mmPosition.offset)
      (starts : f.mmPosition.offset < c + n + s)
      (hits : ¬Misses config request c n s t i f)
  | cuts (t' : EncoderTry) (m' : EncoderCacheManager)
      (loop_eq : ∀ rest, loop config env request c s i (f :: rest) t = .ok t')
      (fits : Fits size request budget m' t') (grows : Grows request t t')
      (shift : s = 1) (after : c < f.mmPosition.offset)
      (num : t'.numNewTokens + c = f.mmPosition.offset)
      (starts : f.mmPosition.offset ≤ c + n)
      (iff : Misses config request c n s t i f ↔ f.mmPosition.EmbedAt 0)
      (unavailable : ¬Available request t' f.identifier)

/-- Where `can_allocate` finds room for the `k` embeddings of a feature. -/
structure Room (size : String → ℕ) (budget : ℤ) (m m' : EncoderCacheManager) (t : EncoderTry) (i : ℕ)
    (f : MultiModalFeatureSpec) (k : ℕ) : Prop where
  uncut : ¬(config.disableChunkedMmInput = true ∧ c < f.mmPosition.offset ∧ c + n < f.mmPosition.stop)
  old : Fits size request budget m t
  num : t.numNewTokens = n
  fits : Fits size request budget m' { t with encoderCache := .multiModal m' }
  grows : Grows request t { t with encoderCache := .multiModal m' }
  loop_eq : ∀ rest, loop config env request c s i (f :: rest) t = (do
    let t' ← scheduleInput config env c i f k { t with encoderCache := .multiModal m' }
    loop config env request c s (i + 1) rest t')
  hash : request.mmHash i = .ok f.identifier
  embeds : request.embedsOf i = k
  budget_le : (k : ℤ) ≤ t.encoderComputeBudget
  room : (k : ℤ) + t.numEmbedsToSchedule ≤ m'.numFreeSlots
  untaken : f.identifier ∉ t.mmHashesToSchedule
  uncached : m.cached.contains f.identifier = false
  unavailable : ¬Available request { t with encoderCache := .multiModal m' } f.identifier
  can : ∃ cache, t.encoderCache.canAllocate request i t.encoderComputeBudget
    t.numEmbedsToSchedule = .ok (true, cache)

variable {config env request c n s}

section Visit

variable {size : String → ℕ} {budget : ℤ} {m m' : EncoderCacheManager} {t : EncoderTry} {i : ℕ}
  {f : MultiModalFeatureSpec}

lemma range_spec (hn : 0 < n) (hlength : 0 < f.mmPosition.length)
    (hmask : ∀ mask ∈ f.mmPosition.isEmbed, mask.length = f.mmPosition.length)
    (hstarts : f.mmPosition.offset < c + n) (hends : c < f.mmPosition.stop) :
    ∃ x y, f.mmPosition.getEmbedsIndicesInRange (max 0 ((c : ℤ) - f.mmPosition.offset))
        (min (f.mmPosition.length : ℤ) (c + n - f.mmPosition.offset)) = .ok (x, y) ∧
      (y - x = 0 ↔ ¬f.NeededIn c (c + n)) := by
  have hstop := f.mmPosition.stop_eq
  have ha : max 0 ((c : ℤ) - f.mmPosition.offset) = ((c - f.mmPosition.offset : ℕ) : ℤ) := by
    omega
  have hb : min (f.mmPosition.length : ℤ) (c + n - f.mmPosition.offset) =
      ((min f.mmPosition.length (c + n - f.mmPosition.offset) : ℕ) : ℤ) := by
    omega
  have hlt : c - f.mmPosition.offset < min f.mmPosition.length (c + n - f.mmPosition.offset) :=
    Nat.lt_min.mpr ⟨by omega, by omega⟩
  obtain ⟨x, y, hrange, hiff⟩ := f.mmPosition.getEmbedsIndicesInRange_spec hmask hlt (Nat.min_le_left _ _)
  refine ⟨x, y, by rw [ha, hb, hrange], hiff.trans ⟨fun hnone => ?_, fun hnone j hj hlt hembed => ?_⟩⟩
  · rintro ⟨p, hlo, hhi, hfrom, hto, hembed⟩
    exact hnone (p - f.mmPosition.offset) (by omega) (by omega) hembed
  · refine hnone ⟨f.mmPosition.offset + j, by omega, by omega, by omega, by omega, ?_⟩
    rwa [Nat.add_sub_cancel_left]

variable {k : ℕ}

section Room

variable (r : Room config env request c n s size budget m m' t i f k)
include r

lemma Room.taken {x y : ℤ} (hrange : f.mmPosition.getEmbedsIndicesInRange (max 0 ((c : ℤ) - f.mmPosition.offset))
      (min (f.mmPosition.length : ℤ) (c + n - f.mmPosition.offset)) = .ok (x, y)) (hne : y - x ≠ 0)
    (hits : ¬Misses config request c n s t i f) : Visit config env request c n s size budget t i f := by
  rw [← r.num] at hrange
  have hschedule : ∃ t', scheduleInput config env c i f k _ = .ok t' ∧ _ :=
    scheduleInput_taken r.fits r.hash r.embeds r.budget_le r.room hrange hne
  obtain ⟨t', ht', hfits', hgrows', hnum', havailable⟩ := hschedule
  refine .goes t' m' (fun rest => ?_) hfits' (fun x hx => hgrows' x (r.grows x hx))
    (hnum'.trans r.num) (fun _ => havailable) hits
  rw [r.loop_eq, ht', ok_bind]

lemma Room.skipped {x y : ℤ} (hrange : f.mmPosition.getEmbedsIndicesInRange (max 0 ((c : ℤ) - f.mmPosition.offset))
      (min (f.mmPosition.length : ℤ) (c + n - f.mmPosition.offset)) = .ok (x, y)) (hzero : y - x = 0)
    (rest : List MultiModalFeatureSpec) : loop config env request c s i (f :: rest) t =
      loop config env request c s (i + 1) rest { t with encoderCache := .multiModal m' } := by
  rw [← r.num] at hrange
  rw [r.loop_eq]
  unfold scheduleInput
  simp only [hrange, ok_bind, if_pos hzero, pure_eq_ok]

lemma Room.misses (hs : s = 1) (hstarts : f.mmPosition.offset ≤ c + n) (hends : c + n < f.mmPosition.stop)
    (hembed : f.mmPosition.EmbedAt (c + n - f.mmPosition.offset)) (hnone : ¬f.NeededIn c (c + n))
    (hedge : f.mmPosition.isEmbed = none ∨ f.mmPosition.offset < c + n) : Misses config request c n s t i f := by
  refine ⟨hs, hstarts, hends, r.untaken, fun m1 hm1 => ?_, .inr ⟨fun hcut => ?_, r.can, hembed, hnone, hedge⟩⟩
  · obtain rfl : m1 = m := r.old.cache_inj hm1
    exact r.uncached
  · exact r.uncut ⟨hcut.1, hcut.2, hends⟩

/-- The feature begins right after the range, and a mask counts all of its embeddings. -/
lemma Room.visit_after (hs : s = 1) (hlength : 0 < f.mmPosition.length)
    (hmask : ∀ mask ∈ f.mmPosition.isEmbed, mask.length = f.mmPosition.length)
    (hstart : f.mmPosition.offset = c + n) : Visit config env request c n s size budget t i f := by
  have hstop := f.mmPosition.stop_eq
  obtain ⟨y, hrange, hiff⟩ := f.mmPosition.getEmbedsIndicesInRange_zero hmask hlength
  have ha : max 0 ((c : ℤ) - f.mmPosition.offset) = 0 := by omega
  have hb : min (f.mmPosition.length : ℤ) (c + (n : ℤ) - f.mmPosition.offset) = 0 := by omega
  replace hrange : f.mmPosition.getEmbedsIndicesInRange (max 0 ((c : ℤ) - f.mmPosition.offset))
      (min (f.mmPosition.length : ℤ) (c + n - f.mmPosition.offset)) = .ok (0, y) := by rw [ha, hb, hrange]
  by_cases hy : y = 0
  · have hzero : y - 0 = 0 := by omega
    rcases hiff.mp hy with hnone | hnoembed
    · have hembed (j : ℕ) : f.mmPosition.EmbedAt j := by
        unfold PlaceholderRange.EmbedAt
        rw [hnone]
        trivial
      have hmiss := r.misses hs (by omega) (by omega) (hembed _) ?_ (.inl hnone)
      · exact .skips _ m' (r.skipped hrange hzero) r.fits r.grows r.num hmiss (hembed _) r.unavailable
      · rintro ⟨p, -, hhi, hfrom, -, -⟩
        omega
    · refine .goes _ m' (r.skipped hrange hzero) r.fits r.grows r.num ?_ fun hmiss => ?_
      · rintro ⟨p, -, -, -, -, hembed⟩
        exact absurd hembed (hnoembed _)
      · rcases hmiss.edge with ⟨-, -, hembed⟩ | ⟨-, -, hembed, -⟩
        · exact hnoembed _ hembed
        · exact hnoembed _ hembed
  · refine r.taken hrange (by omega) fun hmiss => ?_
    rcases hmiss.edge with ⟨hcut, hafter, -⟩ | ⟨-, -, -, -, hedge⟩
    · exact r.uncut ⟨hcut, hafter, hmiss.ends⟩
    · rcases hedge with hnone | hlt
      · exact hy (hiff.mpr (.inl hnone))
      · omega

lemma Room.visit_before (hs : s ≤ 1) (hn : 0 < n) (hlength : 0 < f.mmPosition.length)
    (hmask : ∀ mask ∈ f.mmPosition.isEmbed, mask.length = f.mmPosition.length)
    (hbefore : f.mmPosition.offset < c + n) (hends : c < f.mmPosition.stop) :
    Visit config env request c n s size budget t i f := by
  obtain ⟨x, y, hrange, hiff⟩ := range_spec hn hlength hmask hbefore hends
  by_cases hzero : y - x = 0
  · have hnone := hiff.mp hzero
    by_cases hedge : s = 1 ∧ c + n < f.mmPosition.stop ∧ f.mmPosition.EmbedAt (c + n - f.mmPosition.offset)
    · have hmiss := r.misses hedge.1 hbefore.le hedge.2.1 hedge.2.2 hnone (.inr hbefore)
      exact .skips _ m' (r.skipped hrange hzero) r.fits r.grows r.num hmiss hedge.2.2 r.unavailable
    · refine .goes _ m' (r.skipped hrange hzero) r.fits r.grows r.num ?_ fun hmiss => ?_
      · rintro ⟨p, hlo, hhi, hfrom, hto, hembed⟩
        by_cases hlast : p < c + n
        · exact absurd ⟨p, hlo, by omega, hfrom, hto, hembed⟩ hnone
        · obtain rfl : p = c + n := by omega
          exact absurd ⟨by omega, hto, hembed⟩ hedge
      · rcases hmiss.edge with ⟨hcut, hafter, -⟩ | ⟨-, -, hembed, -⟩
        · exact r.uncut ⟨hcut, hafter, hmiss.ends⟩
        · exact hedge ⟨hmiss.shift, hmiss.ends, hembed⟩
  · refine r.taken hrange hzero fun hmiss => ?_
    rcases hmiss.edge with ⟨hcut, hafter, -⟩ | ⟨-, -, -, hnone, -⟩
    · exact r.uncut ⟨hcut, hafter, hmiss.ends⟩
    · exact hzero (hiff.mpr hnone)

end Room

lemma loop_late {rest : List MultiModalFeatureSpec} (hnum : t.numNewTokens = n)
    (hembeds : ∀ g ∈ rest, ∃ k, g.mmPosition.getNumEmbeds = .ok k)
    (hlate : ∀ g ∈ rest, c + n + s ≤ g.mmPosition.offset) : loop config env request c s i rest t = .ok t := by
  cases rest with
  | nil => rfl
  | cons g rest =>
    obtain ⟨k, hk⟩ := hembeds g mem_cons_self
    have hg := hlate g mem_cons_self
    unfold loop
    simp only [hk, ok_bind, hnum]
    rw [if_pos (by omega)]
    rfl

section Branches

variable {k : ℕ} (hk : f.mmPosition.getNumEmbeds = .ok k) (hnum : t.numNewTokens = n)
include hk hnum

lemma visit_late (hlate : c + n + s ≤ f.mmPosition.offset) : Visit config env request c n s size budget t i f := by
  refine .late (fun rest => ?_) hlate
  unfold loop
  simp only [hk, ok_bind, hnum]
  rw [if_pos (by omega)]
  rfl

variable (h : Fits size request budget m t) (hstarts : f.mmPosition.offset < c + n + s)
include h hstarts

lemma visit_computed (hcomputed : f.mmPosition.stop ≤ c) : Visit config env request c n s size budget t i f := by
  have hstop := f.mmPosition.stop_eq
  refine .goes t m (fun rest => ?_) h (fun x hx => hx) hnum ?_ fun hmiss => ?_
  · conv_lhs => unfold loop
    simp only [hk, ok_bind, hnum, h.decoderOnly]
    rw [if_neg (by omega), if_neg (by simp), if_pos (by omega)]
  · rintro ⟨p, hlo, -, -, hto, -⟩
    omega
  · have := hmiss.ends
    omega

variable (hcomputed : c < f.mmPosition.stop)
include hcomputed

lemma visit_taken (htaken : f.identifier ∈ t.mmHashesToSchedule) :
    Visit config env request c n s size budget t i f := by
  have hstop := f.mmPosition.stop_eq
  refine .goes t m (fun rest => ?_) h (fun x hx => hx) hnum (fun _ => .inr ((h.hashes _).mp htaken))
    fun hmiss => hmiss.untaken htaken
  conv_lhs => unfold loop
  simp only [hk, ok_bind, hnum, h.decoderOnly]
  rw [if_neg (by omega), if_neg (by simp), if_neg (by omega), if_pos (by simp [htaken])]

/-- The loop for a feature that starts in the range, is not yet computed and not yet taken up. -/
lemma loop_checked (htaken : f.identifier ∉ t.mmHashesToSchedule) {cached : Bool} {m1 : EncoderCacheManager}
    (hcheck : m.checkAndUpdateCache request i = .ok (cached, m1)) (rest : List MultiModalFeatureSpec) :
    loop config env request c s i (f :: rest) t = (if cached then loop config env request c s (i + 1) rest
          { t with encoderCache := .multiModal m1 }
      else if config.disableChunkedMmInput && (c : ℤ) < f.mmPosition.offset &&
          (c : ℤ) + n < f.mmPosition.offset + f.mmPosition.length then
        .ok { t with
          encoderCache := .multiModal m1, numNewTokens := (f.mmPosition.offset : ℤ) - c }
      else do
        let r ← (EncoderCache.multiModal m1).canAllocate request i t.encoderComputeBudget
          t.numEmbedsToSchedule
        if r.1 then do
          let t ← scheduleInput config env c i f k { t with encoderCache := r.2 }
          loop config env request c s (i + 1) rest t
        else .ok (stopBefore c s f.mmPosition.offset { t with encoderCache := r.2 })) := by
  have hstop := f.mmPosition.stop_eq
  have hcheck' : t.encoderCache.checkAndUpdateCache request i = .ok (cached, .multiModal m1) := by
    rw [h.cache_eq]
    unfold EncoderCache.checkAndUpdateCache
    simp only [hcheck]
    rfl
  conv_lhs => unfold loop
  simp only [hk, ok_bind, hnum, h.decoderOnly]
  rw [if_neg (by omega), if_neg (by simp), if_neg (by omega), if_neg (by simp [htaken])]
  simp only [hcheck', ok_bind]
  rfl

end Branches

/-- The range is cut right before the feature. -/
lemma visit_cut (hs : s ≤ 1) (h : Fits size request budget m t) (hstarts : f.mmPosition.offset < c + n + s)
    (htaken : f.identifier ∉ t.mmHashesToSchedule) (huncached : m.cached.contains f.identifier = false)
    (hdisable : config.disableChunkedMmInput = true) (hafter : c < f.mmPosition.offset)
    (hends : c + n < f.mmPosition.stop)
    (hcut : ∀ rest, loop config env request c s i (f :: rest) t = .ok { t with
      encoderCache := .multiModal m, numNewTokens := (f.mmPosition.offset : ℤ) - c }) :
    Visit config env request c n s size budget t i f := by
  have hfits : Fits size request budget m { t with
      encoderCache := .multiModal m, numNewTokens := (f.mmPosition.offset : ℤ) - c } :=
    ⟨rfl, h.accounts, h.hashes, h.budget_eq, h.budget_nonneg, h.embeds_eq, h.room⟩
  have hgrows : Grows request t { t with
      encoderCache := .multiModal m, numNewTokens := (f.mmPosition.offset : ℤ) - c } := by
    rw [← h.cache_eq]
    exact fun x hx => hx
  by_cases hone : s = 1
  · refine .cuts _ m hcut hfits hgrows hone hafter (sub_add_cancel _ _) (by omega)
      ⟨fun hmiss => ?_, fun hembed => ⟨hone, by omega, hends, htaken, fun m1 hm1 => ?_,
        .inl ⟨hdisable, hafter, hembed⟩⟩⟩ (hfits.unavailable htaken huncached)
    · rcases hmiss.edge with ⟨-, -, hembed⟩ | ⟨hnot, -⟩
      · exact hembed
      · exact absurd ⟨hdisable, hafter⟩ hnot
    · rwa [h.cache_inj hm1]
  · refine .stops _ m hcut hfits hgrows (.inr ?_) hstarts fun hmiss => hone hmiss.shift
    dsimp only
    omega

/-- There is no room for the feature, and the range ends before it. -/
lemma visit_full (h : Fits size request budget m t) (hstarts : f.mmPosition.offset < c + n + s)
    (hchunk : ¬(config.disableChunkedMmInput = true ∧ c < f.mmPosition.offset ∧ c + n < f.mmPosition.stop))
    (hfits : Fits size request budget m' { t with encoderCache := .multiModal m' })
    (hgrows : Grows request t { t with encoderCache := .multiModal m' })
    (hcan : (EncoderCache.multiModal m).canAllocate request i t.encoderComputeBudget
      t.numEmbedsToSchedule = .ok (false, .multiModal m'))
    (hstopped : ∀ rest, loop config env request c s i (f :: rest) t = .ok (stopBefore c s f.mmPosition.offset
      { t with encoderCache := .multiModal m' })) : Visit config env request c n s size budget t i f := by
  refine .stops _ m' hstopped ⟨rfl, hfits.accounts, h.hashes, h.budget_eq, h.budget_nonneg,
    h.embeds_eq, hfits.room⟩ hgrows ?_ hstarts fun hmiss => ?_
  · unfold stopBefore
    dsimp only
    split
    next hbefore => exact .inr (by omega)
    next => exact .inl rfl
  · rcases hmiss.edge with ⟨hcut, hafter, -⟩ | ⟨-, ⟨cache, hroom⟩, -⟩
    · exact hchunk ⟨hcut, hafter, hmiss.ends⟩
    · rw [h.cache_eq, hcan] at hroom
      cases hroom

lemma visit (hok : FeaturesOk size request) (hs : s ≤ 1) (hn : 0 < n)
    (hf : request.mmFeatures[i]? = some f) (h : Fits size request budget m t)
    (hnum : t.numNewTokens = n) : Visit config env request c n s size budget t i f := by
  have hmem := mem_of_getElem? hf
  have hi := (List.getElem?_eq_some_iff.mp hf).1
  have hhash : request.mmHash i = .ok f.identifier := by
    unfold mmHash
    rw [hf]
  have hsized := hok.sized f hmem
  have hembeds : request.embedsOf i = size f.identifier := by
    unfold embedsOf getNumEncoderEmbeds
    rw [hf]
    simp only [hsized]
    rfl
  by_cases hlate : c + n + s ≤ f.mmPosition.offset
  · exact visit_late hsized hnum hlate
  have hstarts : f.mmPosition.offset < c + n + s := not_le.mp hlate
  by_cases hcomputed : f.mmPosition.stop ≤ c
  · exact visit_computed hsized hnum h hstarts hcomputed
  have hends : c < f.mmPosition.stop := not_le.mp hcomputed
  by_cases htaken : f.identifier ∈ t.mmHashesToSchedule
  · exact visit_taken hsized hnum h hstarts hends htaken
  obtain ⟨mmHash, cached, m1, hhash', hcheck, hacc1, hkept1, hcached⟩ :=
    checkAndUpdateCache_spec h.accounts hok.sized hi
  obtain rfl : f.identifier = mmHash := ok.inj (hhash.symm.trans hhash')
  obtain ⟨href, hmiss1, hsub⟩ := checkAndUpdateCache_references hhash hcheck
  cases cached with
  | true =>
    obtain ⟨hfits, hgrows⟩ := h.cached hacc1 hkept1.free_le hsub
    refine .goes _ m1
      (fun rest => by rw [loop_checked hsized hnum h hstarts hends htaken hcheck, if_pos rfl]) hfits hgrows hnum
      (fun _ => .inl ⟨m1, rfl, href rfl⟩) fun hmiss => ?_
    have huncached := hmiss.uncached m h.cache_eq
    rw [hcached.mp rfl] at huncached
    exact absurd huncached.symm Bool.false_ne_true
  | false =>
    obtain ⟨rfl, huncached⟩ := hmiss1 rfl
    have hstop := f.mmPosition.stop_eq
    by_cases hchunk : config.disableChunkedMmInput = true ∧ c < f.mmPosition.offset ∧ c + n < f.mmPosition.stop
    · refine visit_cut hs h hstarts htaken huncached hchunk.1 hchunk.2.1 hchunk.2.2 fun rest => ?_
      rw [loop_checked hsized hnum h hstarts hends htaken hcheck, if_neg Bool.false_ne_true, if_pos]
      simp only [Bool.and_eq_true, decide_eq_true_eq]
      exact ⟨⟨hchunk.1, by omega⟩, by omega⟩
    · have hcond : ¬(config.disableChunkedMmInput && (c : ℤ) < f.mmPosition.offset &&
          (c : ℤ) + n < f.mmPosition.offset + f.mmPosition.length) = true := by
        simp only [Bool.and_eq_true, decide_eq_true_eq]
        exact fun hcut => hchunk ⟨hcut.1.1, by omega, by omega⟩
      obtain ⟨mmHash, room, m2, hhash'', hcan, hacc2, hkept2, -, hroom⟩ :=
        canAllocate_spec h.accounts hok.sized hi t.encoderComputeBudget
          t.numEmbedsToSchedule
      obtain rfl : f.identifier = mmHash := ok.inj (hhash.symm.trans hhash'')
      obtain ⟨hbudget, hrefs⟩ := canAllocate_references h.accounts hcan
      have hcan' : (EncoderCache.multiModal m1).canAllocate request i t.encoderComputeBudget
          t.numEmbedsToSchedule = .ok (room, .multiModal m2) := by
        unfold EncoderCache.canAllocate
        simp only [hcan]
        rfl
      have hsub2 (x : String) : m1.references x ⊆ m2.references x := by
        by_cases hx : m1.references x = ∅
        · rw [hx]
          exact Finset.empty_subset _
        · rw [hrefs x hx]
      obtain ⟨hfits, hgrows⟩ := h.cached hacc2 hkept2.free_le hsub2
      cases room with
      | false =>
        refine visit_full h hstarts hchunk hfits hgrows hcan' fun rest => ?_
        rw [loop_checked hsized hnum h hstarts hends htaken hcheck, if_neg Bool.false_ne_true, if_neg hcond, hcan']
        rfl
      | true =>
        obtain ⟨k, hk, hle⟩ := hbudget rfl
        have hsize : k = size f.identifier := by
          rw [← hembeds]
          unfold embedsOf
          rw [hk]
          rfl
        have huncached2 : m2.cached.contains f.identifier = false := by
          refine Bool.eq_false_iff.mpr fun hin => ?_
          rw [hkept2.contains _ hin] at huncached
          exact absurd huncached.symm Bool.false_ne_true
        have r : Room config env request c n s size budget m1 m2 t i f (size f.identifier) := {
          uncut := hchunk
          old := h
          num := hnum
          fits := hfits
          grows := hgrows
          loop_eq := fun rest => by
            rw [loop_checked hsized hnum h hstarts hends htaken hcheck, if_neg Bool.false_ne_true,
              if_neg hcond, hcan']
            rfl
          hash := hhash
          embeds := hembeds
          budget_le := hsize ▸ hle
          room := hroom rfl
          untaken := htaken
          uncached := huncached
          unavailable := hfits.unavailable htaken huncached2
          can := ⟨.multiModal m2, by rw [h.cache_eq, hcan']⟩ }
        have hlength := hok.length_pos f hmem
        by_cases hstart : f.mmPosition.offset = c + n
        · exact r.visit_after (by omega) hlength (hok.mask_length f hmem) hstart
        · exact r.visit_before hs hn hlength (hok.mask_length f hmem) (by omega) hends

end Visit

variable (config env request c n s) in
def MissedFrom (i : ℕ) (features : List MultiModalFeatureSpec) (t : EncoderTry) : Prop :=
  ∃ before f after t', features = before ++ f :: after ∧
    loop config env request c s i before t = .ok t' ∧ t'.numNewTokens = n ∧
    Misses config request c n s t' (i + before.length) f

section Loop

variable {size : String → ℕ} {budget : ℤ} {m : EncoderCacheManager} {t t' : EncoderTry} {i : ℕ}
  {f : MultiModalFeatureSpec} {rest : List MultiModalFeatureSpec}

lemma missedFrom_nil : ¬MissedFrom config env request c n s i [] t := by
  rintro ⟨before, f, after, t', hsplit, -⟩
  simp at hsplit

lemma missedFrom_of_misses (hnum : t.numNewTokens = n) (h : Misses config request c n s t i f) :
    MissedFrom config env request c n s i (f :: rest) t :=
  ⟨[], f, rest, t, rfl, rfl, hnum, h⟩

lemma missedFrom_cons (h : MissedFrom config env request c n s i (f :: rest) t) :
    Misses config request c n s t i f ∨ ∃ before g after t', rest = before ++ g :: after ∧
      loop config env request c s i (f :: before) t = .ok t' ∧ t'.numNewTokens = n ∧
      Misses config request c n s t' (i + 1 + before.length) g := by
  obtain ⟨before, g, after, t', hsplit, hloop, hnum, hmiss⟩ := h
  cases before with
  | nil =>
    obtain ⟨rfl, rfl⟩ := cons.inj hsplit
    obtain rfl := ok.inj hloop
    exact .inl hmiss
  | cons f' before =>
    obtain ⟨rfl, hrest⟩ := cons.inj hsplit
    refine .inr ⟨before, g, after, t', hrest, hloop, hnum, ?_⟩
    rwa [length_cons, Nat.add_comm before.length, ← Nat.add_assoc] at hmiss

lemma missedFrom_goes (hloop : ∀ rest, loop config env request c s i (f :: rest) t =
      loop config env request c s (i + 1) rest t') (hits : ¬Misses config request c n s t i f) :
    MissedFrom config env request c n s i (f :: rest) t ↔ MissedFrom config env request c n s (i + 1) rest t' := by
  refine ⟨fun h => ?_, ?_⟩
  · rcases missedFrom_cons h with hmiss | ⟨before, g, after, t'', hrest, hrun, hnum, hmiss⟩
    · exact absurd hmiss hits
    · rw [hloop] at hrun
      exact ⟨before, g, after, t'', hrest, hrun, hnum, hmiss⟩
  · rintro ⟨before, g, after, t'', hrest, hrun, hnum, hmiss⟩
    refine ⟨f :: before, g, after, t'', by rw [hrest]; rfl, by rw [hloop, hrun], hnum, ?_⟩
    rwa [length_cons, Nat.add_comm before.length, ← Nat.add_assoc]

lemma neededIn_mono {lo hi hi' : ℤ} (hle : hi ≤ hi') (h : f.NeededIn lo hi) : f.NeededIn lo hi' := by
  obtain ⟨p, hlo, hhi, hrest⟩ := h
  exact ⟨p, hlo, by omega, hrest⟩

/-- The features from `i` on that are needed in the final range. -/
def Supplies (request : Request) (c s : ℕ) (features : List MultiModalFeatureSpec)
    (t : EncoderTry) : Prop :=
  0 < t.numNewTokens → ∀ f ∈ features, f.NeededIn c (c + t.numNewTokens + s) → Available request t f.identifier

lemma loop_supplies (hok : FeaturesOk size request) (hs : s ≤ 1) (hn : 0 < n)
    (hrest : request.mmFeatures.drop i = rest) (h : Fits size request budget m t) (hnum : t.numNewTokens = n) :
    ∃ t' m', loop config env request c s i rest t = .ok t' ∧ Fits size request budget m' t' ∧
      Grows request t t' ∧ t'.numNewTokens ≤ n ∧
      (Supplies request c s rest t' ↔ ¬MissedFrom config env request c n s i rest t) := by
  induction rest generalizing i t m with
  | nil =>
    exact ⟨t, m, rfl, h, fun x hx => hx, hnum.le, fun _ => missedFrom_nil, fun _ _ _ hf => absurd hf not_mem_nil⟩
  | cons f rest ih =>
    have hf : request.mmFeatures[i]? = some f := by
      rw [← Nat.add_zero i, ← getElem?_drop, hrest, getElem?_cons_zero]
    have hdrop : request.mmFeatures.drop (i + 1) = rest := by
      rw [← drop_drop, hrest, drop_one, tail_cons]
    have hsorted : (f :: rest).Pairwise fun f g => f.mmPosition.stop ≤ g.mmPosition.offset :=
      hrest ▸ hok.sorted.drop
    have hlength := hok.length_pos f (mem_of_getElem? hf)
    have hstop := f.mmPosition.stop_eq
    have hlater (g : MultiModalFeatureSpec) (hg : g ∈ rest) :
        f.mmPosition.stop ≤ g.mmPosition.offset := rel_of_pairwise_cons hsorted hg
    have hfrom (g : MultiModalFeatureSpec) (hg : g ∈ f :: rest) :
        f.mmPosition.offset ≤ g.mmPosition.offset := by
      rcases mem_cons.mp hg with rfl | hg
      · exact le_rfl
      · have := hlater g hg
        omega
    have hvisit : Visit config env request c n s size budget t i f := visit hok hs hn hf h hnum
    cases hvisit with
    | goes t' m' loop_eq fits grows num settled hits =>
      obtain ⟨t'', m'', hloop, hfits, hgrows, hle, hiff⟩ := ih hdrop fits num
      refine ⟨t'', m'', by rw [loop_eq, hloop], hfits, fun x hx => hgrows x (grows x hx), hle, ?_⟩
      rw [missedFrom_goes loop_eq hits, ← hiff]
      refine ⟨fun hall hpos g hg => hall hpos g (mem_cons_of_mem f hg), fun hall hpos g hg hneeded => ?_⟩
      rcases mem_cons.mp hg with rfl | hg
      · exact hgrows _ (settled (neededIn_mono (by omega) hneeded))
      · exact hall hpos g hg hneeded
    | skips t' m' loop_eq fits grows num misses embed unavailable =>
      have hone := misses.shift
      have hends := misses.ends
      have hlate : loop config env request c s (i + 1) rest t' = .ok t' := by
        refine loop_late num (fun g hg => ?_) fun g hg => ?_
        · have hmem : g ∈ request.mmFeatures := mem_of_mem_drop (hdrop ▸ hg)
          exact ⟨_, hok.sized g hmem⟩
        · have := hlater g hg
          omega
      refine ⟨t', m', by rw [loop_eq, hlate], fits, grows, num.le, fun hall => ?_,
        fun hnot => absurd (missedFrom_of_misses hnum misses) hnot⟩
      exact absurd (hall (by omega) f mem_cons_self
        ⟨c + n, by omega, by omega, misses.starts, hends, embed⟩) unavailable
    | late loop_eq starts =>
      refine ⟨t, m, loop_eq rest, h, fun x hx => hx, hnum.le, fun _ hmissed => ?_, fun _ _ g hg => ?_⟩
      · rcases missedFrom_cons hmissed with hmiss | ⟨before, g, after, t', rfl, -, -, hmiss⟩
        · have := hmiss.starts
          have := hmiss.shift
          omega
        · have := hmiss.starts
          have := hlater g (mem_append_right _ mem_cons_self)
          omega
      · rintro ⟨p, -, hhi, hfromp, -, -⟩
        have := hfrom g hg
        omega
    | stops t' m' loop_eq fits grows num starts hits =>
      refine ⟨t', m', loop_eq rest, fits, grows, by omega, fun _ hmissed => ?_, fun _ hpos g hg => ?_⟩
      · rcases missedFrom_cons hmissed with hmiss | ⟨before, g, after, t'', rfl, hrun, hnum', -⟩
        · exact hits hmiss
        · rw [loop_eq, ok.injEq] at hrun
          subst hrun
          omega
      · rintro ⟨p, -, hhi, hfromp, -, -⟩
        have := hfrom g hg
        omega
    | cuts t' m' loop_eq fits grows shift after num starts iff unavailable =>
      refine ⟨t', m', loop_eq rest, fits, grows, by omega, fun hall hmissed => ?_, fun hnot hpos g hg hneeded => ?_⟩
      · rcases missedFrom_cons hmissed with
          hmiss | ⟨before, g, after', t'', rfl, hrun, hnum', hmiss⟩
        · refine unavailable (hall (by omega) f mem_cons_self
            ⟨f.mmPosition.offset, by omega, by omega, le_rfl, by omega, ?_⟩)
          rw [Nat.sub_self]
          exact iff.mp hmiss
        · rw [loop_eq, ok.injEq] at hrun
          subst hrun
          have := hmiss.starts
          have := hlater g (mem_append_right _ mem_cons_self)
          omega
      · obtain ⟨p, -, hhi, hfromp, -, hembed⟩ := hneeded
        rcases mem_cons.mp hg with rfl | hg
        · have hp : p - g.mmPosition.offset = 0 := by omega
          rw [hp] at hembed
          exact absurd (missedFrom_of_misses hnum (iff.mpr hembed)) hnot
        · have := hlater g hg
          omega

end Loop

/-- What the range needs is available, within budget and cache. -/
structure Supplied (request : Request) (c s : ℕ) (budget : ℤ) (t : EncoderTry) : Prop where
  available : 0 < t.numNewTokens → ∀ f ∈ request.mmFeatures,
    f.NeededIn c (c + t.numNewTokens + s) → Available request t f.identifier
  budget_le : (request.totalEmbeds t.encoderInputsToSchedule : ℤ) ≤ budget
  cache_le : ∃ m, t.encoderCache = .multiModal m ∧ ((request.totalEmbeds t.encoderInputsToSchedule +
      request.totalEmbeds t.externalLoadEncoderInput : ℕ) : ℤ) ≤ m.numFreeSlots

/-- The loop comes to a feature that it misses. -/
def MissesEdge (config : SchedulerConfig) (env : ScheduleEnv) (request : Request)
    (m : EncoderCacheManager) (c n : ℕ) (budget : ℤ) : Prop :=
  0 < n ∧ MissedFrom config env request c n (if config.useEagle then 1 else 0) 0 request.mmFeatures
    { encoderCache := .multiModal m, numNewTokens := n, encoderComputeBudget := budget }

end EncoderTry

open EncoderTry

/-- The encoder inputs of a step are supplied exactly when no feature is missed. -/
theorem tryScheduleEncoderInputs_supplies_iff {size : String → ℕ} {request : Request}
    (hok : FeaturesOk size request) {m : EncoderCacheManager} (hm : Accounts size m)
    (hfree : 0 ≤ m.numFreeSlots) {budget : ℤ} (hbudget : 0 ≤ budget) (config : SchedulerConfig)
    (env : ScheduleEnv) (c n : ℕ) :
    ∃ t, tryScheduleEncoderInputs config env (.multiModal m) request c n budget = .ok t ∧
      (Supplied request c (if config.useEagle then 1 else 0) budget t ↔
        ¬MissesEdge config env request m c n budget) := by
  have hstart : Fits size request budget m
      { encoderCache := .multiModal m, numNewTokens := n, encoderComputeBudget := budget } :=
    ⟨rfl, hm, fun h => by simp, by simp [totalEmbeds], hbudget, by simp [totalEmbeds], hfree⟩
  have hsupplied {t : EncoderTry} {m' : EncoderCacheManager} (h : Fits size request budget m' t)
      (s : ℕ) : Supplied request c s budget t ↔ Supplies request c s request.mmFeatures t := by
    refine ⟨fun h => h.available, fun hall => ⟨hall, ?_, m', h.cache_eq, ?_⟩⟩
    · have := h.budget_eq
      have := h.budget_nonneg
      omega
    · have := h.embeds_eq
      have := h.room
      omega
  unfold tryScheduleEncoderInputs
  by_cases hnone : (n : ℤ) = 0 ∨ request.hasEncoderInputs = false
  · refine ⟨_, if_pos hnone, ?_⟩
    rw [hsupplied hstart]
    refine ⟨fun _ hedge => ?_, fun _ hpos f hf => ?_⟩
    · rcases hnone with hzero | hempty
      · have := hedge.1
        omega
      · have hfeatures : request.mmFeatures = [] := by
          simpa [hasEncoderInputs] using hempty
        have hmissed := hedge.2
        rw [hfeatures] at hmissed
        exact missedFrom_nil hmissed
    · rcases hnone with hzero | hempty
      · dsimp only at hpos
        omega
      · have hfeatures : request.mmFeatures = [] := by
          simpa [hasEncoderInputs] using hempty
        rw [hfeatures] at hf
        exact absurd hf not_mem_nil
  · have hn : 0 < n := by
      omega
    have hs : (if config.useEagle then 1 else 0) ≤ 1 := by split <;> omega
    have hrun : ∃ t m', loop config env request c ((if config.useEagle then 1 else 0 : ℕ) : ℤ) 0
        request.mmFeatures _ = .ok t ∧ Fits size request budget m' t ∧ _ :=
      loop_supplies hok hs hn rfl hstart rfl
    obtain ⟨t, m', hloop, hfits, -, -, hiff⟩ := hrun
    refine ⟨t, ?_, ?_⟩
    · rw [if_neg hnone, ← hloop]
      split <;> rfl
    · rw [hsupplied hfits]
      refine ⟨fun h hedge => hiff.mp h hedge.2, fun h => hiff.mpr fun hmissed => h ⟨hn, hmissed⟩⟩

private def draftConfig (disableChunkedMmInput : Bool) : SchedulerConfig where
  maxNumRunningReqs := 1
  maxNumScheduledTokens := 8
  maxModelLen := 8
  blockSize := 1
  cacheBlockSize := 1
  useEagle := true
  disableChunkedMmInput := disableChunkedMmInput

private def textAndImage : Request where
  requestId := "r"
  promptTokenIds := none
  numPromptTokens := 8
  allTokenIds := []
  samplingParams := ⟨1, 0, false, []⟩
  maxTokens := 1
  mmFeatures := [⟨"i", ⟨4, 4, none⟩⟩]

private lemma textAndImage_ok : FeaturesOk (fun _ => 4) textAndImage where
  sized := by decide
  length_pos := by decide
  mask_length := by decide
  sorted := pairwise_singleton _ _

/-- A step over half of the image supplies it. -/
theorem encoder_inputs_of_image :
    ∃ t, tryScheduleEncoderInputs (draftConfig false) {} (.multiModal (.new 4)) textAndImage
        (0 : ℕ) (6 : ℕ) 4 = .ok t ∧ Supplied textAndImage 0 1 4 t := by
  obtain ⟨t, ht, hiff⟩ := tryScheduleEncoderInputs_supplies_iff textAndImage_ok
    (EncoderCacheManager.Accounts.new 4) (by decide) (show (0 : ℤ) ≤ 4 by decide)
    (draftConfig false) {} 0 6
  refine ⟨t, ht, hiff.mpr ?_⟩
  rintro ⟨-, before, f, after, t', hsplit, hrun, -, hmiss⟩
  obtain ⟨rfl, hf, -⟩ : before = [] ∧ f = ⟨"i", ⟨4, 4, none⟩⟩ ∧ after = [] := by
    cases before with
    | nil =>
      obtain ⟨hf, hafter⟩ := cons.inj hsplit
      exact ⟨rfl, hf.symm, hafter.symm⟩
    | cons g before =>
      have hlen := congrArg length hsplit
      simp [textAndImage] at hlen
  rcases hmiss.edge with ⟨hcut, -⟩ | ⟨-, -, -, hnone, -⟩
  · exact absurd hcut Bool.false_ne_true
  · subst hf
    exact hnone ⟨4, by decide, by decide, by decide, by decide, trivial⟩

private lemma image_missed {t : EncoderTry} (hcache : t.encoderCache = .multiModal (.new 4))
    (hnum : t.numNewTokens = 4) (hnone : t.encoderInputsToSchedule = [])
    (hnone' : t.externalLoadEncoderInput = []) : ¬Supplied textAndImage 0 1 4 t := by
  intro h
  have hneeded := h.available (by omega) ⟨"i", ⟨4, 4, none⟩⟩ mem_cons_self
    ⟨4, by decide, by rw [hnum]; decide, by decide, by decide, trivial⟩
  rcases hneeded with ⟨m, hm, href⟩ | ⟨i, hi, -⟩
  · rw [hcache] at hm
    obtain rfl : new 4 = m := by injection hm
    exact absurd href (Finset.notMem_empty _)
  · rw [hnone, hnone'] at hi
    simp at hi

/-- Right before the image the draft model finds no encoder output. -/
theorem encoder_input_missed :
    (∃ t, tryScheduleEncoderInputs (draftConfig true) {} (.multiModal (.new 4)) textAndImage
        (0 : ℕ) (6 : ℕ) 4 = .ok t ∧ ¬Supplied textAndImage 0 1 4 t) ∧
      ∃ t, tryScheduleEncoderInputs (draftConfig false) {} (.multiModal (.new 4)) textAndImage
        (0 : ℕ) (4 : ℕ) 4 = .ok t ∧ ¬Supplied textAndImage 0 1 4 t :=
  ⟨⟨_, rfl, image_missed rfl rfl rfl rfl⟩, ⟨_, rfl, image_missed rfl rfl rfl rfl⟩⟩

end CustomAi.Vllm
