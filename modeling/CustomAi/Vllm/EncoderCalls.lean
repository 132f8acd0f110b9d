import CustomAi.Vllm.EncoderCacheAccounting

/-!
# Runs of encoder cache calls

A step of the scheduler tests the inputs of a request one after the other, each with the total of
those it has counted so far, and allocates the counted inputs later.
-/

namespace CustomAi.Vllm

open List Except

/-- A call on the encoder cache; a positive answer to `canAllocate` is counted if `counted` holds. -/
inductive EncoderCall
  | newTry
  | checkAndUpdateCache (request : Request) (inputId : ℕ)
  | canAllocate (request : Request) (inputId : ℕ) (encoderComputeBudget : ℤ) (counted : Bool)
  | allocate (request : Request) (inputId : ℕ)
  | freeEncoderInput (request : Request) (inputId : ℕ)
  | free (request : Request) (inputIds : List ℕ)
  | reset
  | getFreedMmHashes

/-- The cache, the counted inputs, and when each identifier was last unreferenced. -/
structure EncoderCalls where
  manager : EncoderCacheManager
  pending : List (String × ℕ)
  clock : ℕ
  unreferencedAt : String → ℕ

namespace EncoderCalls

open EncoderCacheManager

def start (cacheSize : ℕ) : EncoderCalls := ⟨.new cacheSize, [], 0, fun _ => 0⟩

/-- `num_embeds_to_schedule` -/
def pendingTotal (s : EncoderCalls) : ℤ := (s.pending.map fun e => (e.2 : ℤ)).sum

def observe (s : EncoderCalls) (m : EncoderCacheManager) : EncoderCalls :=
  { s with
    manager := m
    clock := s.clock + 1
    unreferencedAt := fun h =>
      if s.manager.references h ≠ ∅ ∧ m.cached.get? h = some ∅ then s.clock
      else s.unreferencedAt h }

/-- `free`, observed after each input. -/
def freeEach (request : Request) : List ℕ → EncoderCalls → Except PyError EncoderCalls
  | [], s => .ok s
  | inputId :: rest, s => do
    let m ← s.manager.freeEncoderInput request inputId
    freeEach request rest (s.observe m)

def step (s : EncoderCalls) : EncoderCall → Except PyError EncoderCalls
  | .newTry => .ok { s with pending := [] }
  | .checkAndUpdateCache request inputId => do
    let (_, m) ← s.manager.checkAndUpdateCache request inputId
    return s.observe m
  | .canAllocate request inputId encoderComputeBudget counted => do
    let mmHash ← request.mmHash inputId
    let numEmbeds ← request.getNumEncoderEmbeds inputId
    let (room, m) ← s.manager.canAllocate request inputId encoderComputeBudget s.pendingTotal
    if room && counted then
      return { s.observe m with pending := s.pending ++ [(mmHash, numEmbeds)] }
    else return s.observe m
  | .allocate request inputId => do
    let mmHash ← request.mmHash inputId
    let numEmbeds ← request.getNumEncoderEmbeds inputId
    let m ← s.manager.allocate request inputId
    return { s.observe m with pending := s.pending.erase (mmHash, numEmbeds) }
  | .freeEncoderInput request inputId => do
    let m ← s.manager.freeEncoderInput request inputId
    return s.observe m
  | .free request inputIds => s.freeEach request inputIds
  | .reset => .ok (s.observe s.manager.reset)
  | .getFreedMmHashes => .ok (s.observe s.manager.getFreedMmHashes.2)

/-- The calls that the scheduler can make: each input is tested once if it is not found, and counted
ones are allocated. -/
def Allowed (size : String → ℕ) (s : EncoderCalls) : EncoderCall → Prop
  | .checkAndUpdateCache request inputId | .freeEncoderInput request inputId =>
    SizedBy size request ∧ inputId < request.mmFeatures.length
  | .canAllocate request inputId _ _ =>
    SizedBy size request ∧ inputId < request.mmFeatures.length ∧ ∀ f ∈ request.mmFeatures[inputId]?,
        s.manager.cached.contains f.identifier = false ∧ f.identifier ∉ s.pending.map Prod.fst
  | .allocate request inputId =>
    SizedBy size request ∧ inputId < request.mmFeatures.length ∧
      ∀ f ∈ request.mmFeatures[inputId]?, f.identifier ∈ s.pending.map Prod.fst
  | .free request inputIds =>
    SizedBy size request ∧ inputIds.Perm (s.manager.getCachedInputIds request)
  | .newTry | .reset | .getFreedMmHashes => True

instance (size : String → ℕ) (s : EncoderCalls) : (call : EncoderCall) →
    Decidable (Allowed size s call)
  | .checkAndUpdateCache request inputId | .freeEncoderInput request inputId =>
    inferInstanceAs (Decidable (SizedBy size request ∧ inputId < request.mmFeatures.length))
  | .canAllocate request inputId _ _ =>
    inferInstanceAs (Decidable (SizedBy size request ∧ inputId < request.mmFeatures.length ∧
      ∀ f ∈ request.mmFeatures[inputId]?, s.manager.cached.contains f.identifier = false ∧
        f.identifier ∉ s.pending.map Prod.fst))
  | .allocate request inputId =>
    inferInstanceAs (Decidable (SizedBy size request ∧ inputId < request.mmFeatures.length ∧
      ∀ f ∈ request.mmFeatures[inputId]?, f.identifier ∈ s.pending.map Prod.fst))
  | .free request inputIds =>
    inferInstanceAs (Decidable (SizedBy size request ∧ inputIds.Perm (s.manager.getCachedInputIds request)))
  | .newTry | .reset | .getFreedMmHashes => inferInstanceAs (Decidable True)

/-- The entries that can be evicted stand in the order in which they became unreferenced. -/
structure Ordered (s : EncoderCalls) : Prop where
  pairwise : s.manager.freeable.keys.Pairwise fun a b => s.unreferencedAt a < s.unreferencedAt b
  before : ∀ h ∈ s.manager.freeable.keys, s.unreferencedAt h < s.clock

structure Inv (size : String → ℕ) (cacheSize : ℕ) (s : EncoderCalls) : Prop where
  accounts : Accounts size s.manager
  cacheSize_eq : s.manager.cacheSize = cacheSize
  pending_nodup : (s.pending.map Prod.fst).Nodup
  pending_new : ∀ e ∈ s.pending, s.manager.cached.contains e.1 = false ∧ e.2 = size e.1
  pending_fits : s.pendingTotal ≤ s.manager.numFreeSlots
  ordered : s.Ordered

variable {size : String → ℕ} {cacheSize : ℕ} {s : EncoderCalls} {m : EncoderCacheManager}

lemma Inv.start : Inv size cacheSize (start cacheSize) where
  accounts := .new cacheSize
  cacheSize_eq := rfl
  pending_nodup := nodup_nil
  pending_new e he := by cases he
  pending_fits := Int.natCast_nonneg cacheSize
  ordered := ⟨Pairwise.nil, fun h hh => by cases hh⟩

lemma pendingTotal_nonneg : 0 ≤ s.pendingTotal := by
  refine sum_nonneg fun x hx => ?_
  obtain ⟨e, -, rfl⟩ := mem_map.mp hx
  exact Int.natCast_nonneg _

variable {h mmHash : String}

lemma observe_unreferencedAt (hh : s.manager.references h = ∅) :
    (s.observe m).unreferencedAt h = s.unreferencedAt h := by
  simp only [observe, hh, ne_eq, not_true_eq_false, false_and, ite_false]

lemma references_of_freeable (hacc : Accounts size s.manager) (hh : h ∈ s.manager.freeable.keys) :
    s.manager.references h = ∅ := by
  rw [Dict.mem_keys_iff, hacc.freeable_iff] at hh
  exact references_of_get? hh

lemma Ordered.observe_sublist (ho : s.Ordered) (hacc : Accounts size s.manager)
    (hsub : m.freeable.keys.Sublist s.manager.freeable.keys) : (s.observe m).Ordered := by
  have hsame : ∀ h ∈ m.freeable.keys, (s.observe m).unreferencedAt h = s.unreferencedAt h :=
    fun h hh => observe_unreferencedAt (references_of_freeable hacc (hsub.subset hh))
  refine ⟨?_, fun h hh => ?_⟩
  · refine (ho.pairwise.sublist hsub).imp_of_mem fun ha hb hlt => ?_
    rw [hsame _ ha, hsame _ hb]
    exact hlt
  · rw [hsame h hh]
    exact Nat.lt_succ_of_lt (ho.before h (hsub.subset hh))

lemma Ordered.observe_append (ho : s.Ordered) (hacc : Accounts size s.manager)
    (hacc' : Accounts size m) (href : s.manager.references mmHash ≠ ∅)
    (hkeys : m.freeable.keys = s.manager.freeable.keys ++ [mmHash]) : (s.observe m).Ordered := by
  have hsame : ∀ h ∈ s.manager.freeable.keys, (s.observe m).unreferencedAt h = s.unreferencedAt h :=
    fun h hh => observe_unreferencedAt (references_of_freeable hacc hh)
  have hnow : (s.observe m).unreferencedAt mmHash = s.clock := by
    have hget : m.cached.get? mmHash = some ∅ := by
      rw [← hacc'.freeable_iff, ← Dict.mem_keys_iff, hkeys]
      simp
    simp only [observe, ne_eq, href, not_false_eq_true, hget, and_self, ite_true]
  refine ⟨?_, fun h hh => ?_⟩
  · change m.freeable.keys.Pairwise _
    rw [hkeys, pairwise_append]
    refine ⟨ho.pairwise.imp_of_mem fun ha hb hlt => ?_, pairwise_singleton _ _, fun a ha b hb => ?_⟩
    · rw [hsame _ ha, hsame _ hb]
      exact hlt
    · rw [mem_singleton.mp hb, hsame a ha, hnow]
      exact ho.before a ha
  · change h ∈ m.freeable.keys at hh
    rw [hkeys, mem_append, mem_singleton] at hh
    rcases hh with hh | rfl
    · rw [hsame h hh]
      exact Nat.lt_succ_of_lt (ho.before h hh)
    · rw [hnow]
      exact Nat.lt_succ_self _

lemma Inv.observe (h : Inv size cacheSize s) (hacc : Accounts size m) (hk : Kept s.manager m) :
    Inv size cacheSize (s.observe m) where
  accounts := hacc
  cacheSize_eq := hk.cacheSize.trans h.cacheSize_eq
  pending_nodup := h.pending_nodup
  pending_new e he := by
    obtain ⟨hnew, hsize⟩ := h.pending_new e he
    refine ⟨Bool.eq_false_iff.mpr fun hc => ?_, hsize⟩
    rw [hk.contains e.1 hc] at hnew
    cases hnew
  pending_fits := h.pending_fits.trans hk.free_le
  ordered := by
    rcases hk.order with hsub | ⟨mmHash, href, hkeys⟩
    · exact h.ordered.observe_sublist h.accounts hsub
    · exact h.ordered.observe_append h.accounts hacc href hkeys

variable {request : Request}

lemma Inv.freeEach (h : Inv size cacheSize s) (hs : SizedBy size request)
    {inputIds : List ℕ} (hi : ∀ i ∈ inputIds, i < request.mmFeatures.length) :
    ∃ s', s.freeEach request inputIds = .ok s' ∧ Inv size cacheSize s' ∧
      ∀ x, s'.manager.cached.contains x = s.manager.cached.contains x := by
  induction inputIds generalizing s with
  | nil => exact ⟨s, rfl, h, fun _ => rfl⟩
  | cons inputId rest ih =>
    obtain ⟨m, hm, hacc, hk, hcontains⟩ := freeEncoderInput_spec h.accounts hs (hi inputId mem_cons_self)
    obtain ⟨s', hs', hinv, hcontains'⟩ := ih (h.observe hacc hk) fun i hr => hi i (mem_cons_of_mem _ hr)
    refine ⟨s', ?_, hinv, fun x => (hcontains' x).trans (hcontains x)⟩
    rw [EncoderCalls.freeEach, hm]
    exact hs'

lemma mmHash_eq {inputId : ℕ} (h : request.mmHash inputId = .ok mmHash) :
    ∃ f ∈ request.mmFeatures[inputId]?, f.identifier = mmHash := by
  unfold Request.mmHash at h
  cases hf : request.mmFeatures[inputId]? with
  | none =>
    rw [hf] at h
    cases h
  | some f =>
    rw [hf] at h
    exact ⟨f, rfl, ok.inj h⟩

/-- Every call that the scheduler can make succeeds and keeps referenced entries, unless it resets. -/
theorem Inv.step (h : Inv size cacheSize s) {call : EncoderCall} (ha : Allowed size s call) :
    ∃ s', s.step call = .ok s' ∧ Inv size cacheSize s' ∧
      (call ≠ .reset → ∀ x, s.manager.references x ≠ ∅ → s'.manager.cached.contains x = true) := by
  cases call with
  | newTry =>
    exact ⟨_, rfl, ⟨h.accounts, h.cacheSize_eq, nodup_nil, fun e he => (by cases he),
      pendingTotal_nonneg.trans h.pending_fits, ⟨h.ordered.1, h.ordered.2⟩⟩,
      fun _ x hx => contains_of_references hx⟩
  | checkAndUpdateCache request inputId =>
    obtain ⟨mmHash, b, m, -, hm, hacc, hk, -⟩ := checkAndUpdateCache_spec h.accounts ha.1 ha.2
    refine ⟨s.observe m, ?_, h.observe hacc hk, fun _ => hk.referenced⟩
    rw [EncoderCalls.step, hm]
    rfl
  | canAllocate request inputId budget counted =>
    obtain ⟨hs, hi, hf⟩ := ha
    obtain ⟨mmHash, room, m, hhash, hm, hacc, hk, -, hroom⟩ :=
      canAllocate_spec h.accounts hs hi budget s.pendingTotal
    obtain ⟨f, hfi, rfl⟩ := mmHash_eq hhash
    obtain ⟨hnew, hnot⟩ := hf f hfi
    obtain ⟨mmHash', hhash', hnum⟩ := hs.input hi
    obtain rfl := ok.inj (hhash.symm.trans hhash')
    have hinv := h.observe hacc hk
    rw [EncoderCalls.step, hhash, ok_bind, hnum, ok_bind, hm, ok_bind]
    cases hcount : room && counted with
    | false =>
      refine ⟨s.observe m, ?_, hinv, fun _ => hk.referenced⟩
      simp only [hcount, Bool.false_eq_true, ite_false, pure_eq_ok]
    | true =>
      refine ⟨{ s.observe m with pending := s.pending ++ [(f.identifier, size f.identifier)] },
        by simp only [hcount, ite_true, pure_eq_ok],
        ⟨hacc, hinv.cacheSize_eq, ?_, fun e he => ?_, ?_, ?_⟩, fun _ => hk.referenced⟩
      · simp only [map_append, map_cons, map_nil]
        exact List.nodup_append.mpr ⟨h.pending_nodup, nodup_singleton _,
          fun a ha b hb hab => hnot (mem_singleton.mp hb ▸ hab ▸ ha)⟩
      · rcases mem_append.mp he with he | he
        · exact hinv.pending_new e he
        · rw [mem_singleton.mp he]
          refine ⟨Bool.eq_false_iff.mpr fun hc => ?_, rfl⟩
          rw [hk.contains _ hc] at hnew
          cases hnew
      · have hfit := hroom (Bool.and_eq_true _ _ ▸ hcount).1
        simp only [pendingTotal, map_append, map_cons, map_nil, sum_append, sum_cons, sum_nil] at hfit ⊢
        change _ ≤ m.numFreeSlots
        omega
      · exact ⟨hinv.ordered.1, hinv.ordered.2⟩
  | allocate request inputId =>
    obtain ⟨hs, hi, hf⟩ := ha
    obtain ⟨mmHash, hhash, hspec⟩ := allocate_spec h.accounts hs hi
    obtain ⟨f, hfi, rfl⟩ := mmHash_eq hhash
    obtain ⟨mmHash', hhash', hnum⟩ := hs.input hi
    obtain rfl := ok.inj (hhash.symm.trans hhash')
    obtain ⟨e, he, hef⟩ := mem_map.mp (hf f hfi)
    obtain ⟨hnew, hsize⟩ := h.pending_new e he
    rw [hef] at hnew hsize
    have hmem : (f.identifier, size f.identifier) ∈ s.pending := by
      have heq : e = (f.identifier, size f.identifier) := Prod.ext hef hsize
      exact heq ▸ he
    have hsum : (s.pending.map fun e => (e.2 : ℤ)).sum = (size f.identifier : ℤ) +
        ((s.pending.erase (f.identifier, size f.identifier)).map fun e => (e.2 : ℤ)).sum := by
      rw [((perm_cons_erase hmem).map fun e : String × ℕ => (e.2 : ℤ)).sum_eq, map_cons, sum_cons]
    have hfits := h.pending_fits
    unfold pendingTotal at hfits
    have hrest : 0 ≤ ((s.pending.erase (f.identifier, size f.identifier)).map
        fun e => (e.2 : ℤ)).sum := by
      refine sum_nonneg fun x hx => ?_
      obtain ⟨e, -, rfl⟩ := mem_map.mp hx
      exact Int.natCast_nonneg _
    obtain ⟨m, hm, hacc, hcs, hfree, hfreeable, hcontains⟩ := hspec hnew (by omega)
    rw [EncoderCalls.step, hhash, hnum, hm]
    have hord := h.ordered.observe_sublist h.accounts (m := m)
      (by rw [hfreeable])
    refine ⟨_, rfl, ⟨hacc, hcs.trans h.cacheSize_eq, ?_, fun e he => ?_, ?_, ⟨hord.1, hord.2⟩⟩, fun _ x hx => ?_⟩
    · exact h.pending_nodup.sublist (erase_sublist.map Prod.fst)
    · obtain ⟨hnew', hsize'⟩ := h.pending_new e (mem_of_mem_erase he)
      refine ⟨?_, hsize'⟩
      -- the identifiers of the counted inputs are distinct
      have hne : e.1 ≠ f.identifier := by
        intro heq
        have hnd : s.pending.Nodup := h.pending_nodup.of_map
        have heq' : e = (f.identifier, size f.identifier) := by
          rw [← heq, ← hsize']
        exact (hnd.mem_erase_iff.mp he).1 heq'
      change m.cached.contains e.1 = false
      rw [hcontains, hnew', decide_eq_false hne]
      rfl
    · change ((s.pending.erase (f.identifier, size f.identifier)).map fun e => (e.2 : ℤ)).sum ≤ m.numFreeSlots
      omega
    · change m.cached.contains x = true
      rw [hcontains, contains_of_references hx, Bool.or_true]
  | freeEncoderInput request inputId =>
    obtain ⟨m, hm, hacc, hk, -⟩ := freeEncoderInput_spec h.accounts ha.1 ha.2
    refine ⟨s.observe m, ?_, h.observe hacc hk, fun _ => hk.referenced⟩
    rw [EncoderCalls.step, hm]
    rfl
  | free request inputIds =>
    obtain ⟨s', hs', hinv, hcontains⟩ := h.freeEach ha.1
      fun i hi => mem_range.mp (mem_filter.mp (ha.2.subset hi)).1
    exact ⟨s', hs', hinv, fun _ x hx => by rw [hcontains, contains_of_references hx]⟩
  | reset =>
    refine ⟨_, rfl, ⟨?_, h.cacheSize_eq, h.pending_nodup, fun e he => ⟨rfl, (h.pending_new e he).2⟩,
      ?_, ?_⟩, fun hne => absurd rfl hne⟩
    · exact Accounts.new s.manager.cacheSize
    · have := h.accounts.free_le_freeable
      have := h.accounts.freeable_le_size
      have := h.pending_fits
      change s.pendingTotal ≤ (s.manager.cacheSize : ℤ)
      omega
    · exact h.ordered.observe_sublist h.accounts (nil_sublist _)
  | getFreedMmHashes =>
    have hacc : Accounts size s.manager.getFreedMmHashes.2 :=
      ⟨h.accounts.freeable_iff, h.accounts.freeable_size, h.accounts.free_eq, h.accounts.freeable_eq⟩
    have hk : Kept s.manager s.manager.getFreedMmHashes.2 :=
      ⟨rfl, fun _ hc => hc, le_rfl, fun _ hr => contains_of_references hr, .inl (Sublist.refl _)⟩
    exact ⟨_, rfl, h.observe hacc hk, fun _ => hk.referenced⟩

lemma inv_of_reaches (h : Reaches EncoderCalls.step (Allowed size) (EncoderCalls.start cacheSize) s) :
    Inv size cacheSize s := by
  refine h.invariant .start fun s call s' hinv ha hok => ?_
  obtain ⟨t, ht, hinv', -⟩ := hinv.step ha
  obtain rfl := ok.inj (ht.symm.trans hok)
  exact hinv'

/-- In every reachable state the counters are right, and the next call succeeds and evicts
unreferenced entries, oldest first. -/
theorem reaches_encoder_accounting (size : String → ℕ) (cacheSize : ℕ) (s : EncoderCalls)
    (h : Reaches EncoderCalls.step (Allowed size) (EncoderCalls.start cacheSize) s) :
    (∀ x, s.manager.freeable.contains x = true ↔ s.manager.cached.get? x = some ∅) ∧
    s.manager.freeable.keys.Pairwise (fun a b => s.unreferencedAt a < s.unreferencedAt b) ∧
    s.manager.numFreeSlots + s.manager.cached.sum (fun x _ => (size x : ℤ)) = cacheSize ∧
    s.manager.numFreeableSlots = s.manager.numFreeSlots + s.manager.freeable.sum (fun _ n => (n : ℤ)) ∧
    (0 ≤ s.manager.numFreeSlots ∧ s.manager.numFreeSlots ≤ s.manager.numFreeableSlots ∧
      s.manager.numFreeableSlots ≤ cacheSize) ∧ ∀ call, Allowed size s call → ∃ s', s.step call = .ok s' ∧
      (call ≠ .reset → ∀ x, s.manager.references x ≠ ∅ → s'.manager.cached.contains x = true) := by
  have hinv := inv_of_reaches h
  have hacc := hinv.accounts
  refine ⟨hacc.freeable_iff, hinv.ordered.pairwise, ?_, ?_, ⟨?_, hacc.free_le_freeable, ?_⟩, fun call ha => ?_⟩
  · rw [hacc.free_eq, hinv.cacheSize_eq]
  · have hsame : s.manager.freeable.sum (fun x _ => (size x : ℤ)) =
        s.manager.freeable.sum (fun _ n => (n : ℤ)) := by
      refine congrArg List.sum (map_congr_left fun e he => ?_)
      rw [hacc.freeable_size e.1 e.2 ((Dict.mem_entries_iff _ _ _).mp he)]
    rw [← hsame]
    exact hacc.freeable_eq
  · exact pendingTotal_nonneg.trans hinv.pending_fits
  · rw [← hinv.cacheSize_eq]
    exact hacc.freeable_le_size
  · obtain ⟨s', hs', -, href⟩ := hinv.step ha
    exact ⟨s', hs', href⟩

/-- A request with one image of `length` embeddings, named twice. -/
def imageRequest (requestId : RequestId) (identifier : String) (length : ℕ) : Request :=
  { requestId, promptTokenIds := none, numPromptTokens := 2 * length, allTokenIds := []
    samplingParams := ⟨1, 0, false, []⟩, maxTokens := 1
    mmFeatures := [⟨identifier, 0, length, none⟩, ⟨identifier, length, length, none⟩] }

/-- The image of the first request is freed while the one of the second is counted, and makes room
for a third one. -/
def evictionCalls : List EncoderCall :=
  let r := imageRequest "r" "i" 2
  let q := imageRequest "q" "j" 1
  let t := imageRequest "t" "k" 3
  [.newTry, .checkAndUpdateCache r 0, .canAllocate r 0 9 true, .allocate r 0,
    .newTry, .checkAndUpdateCache r 1, .checkAndUpdateCache q 0, .canAllocate q 0 9 true,
    .free r [0, 1], .allocate q 0, .getFreedMmHashes,
    .newTry, .checkAndUpdateCache t 0, .canAllocate t 0 9 true, .allocate t 0]

def imageSize (identifier : String) : ℕ :=
  if identifier = "i" then 2 else if identifier = "j" then 1 else 3

theorem reaches_encoder_accounting_eviction :
    ∃ s, runAllowed EncoderCalls.step (Allowed imageSize) (EncoderCalls.start 4) evictionCalls =
      some s ∧ s.manager.freed = ["i"] ∧
      s.manager.numFreeSlots + s.manager.cached.sum (fun x _ => (imageSize x : ℤ)) = 4 ∧
      0 ≤ s.manager.numFreeSlots := by
  have hfreed : (runAllowed EncoderCalls.step (Allowed imageSize) (EncoderCalls.start 4)
      evictionCalls).map (fun s => s.manager.freed) = some ["i"] := by decide +kernel
  obtain ⟨s, hs, hf⟩ := Option.map_eq_some_iff.mp hfreed
  have hall := reaches_encoder_accounting imageSize 4 s (Reaches.start.append_runAllowed hs)
  exact ⟨s, hs, hf, hall.2.2.1, hall.2.2.2.2.1.1⟩

end EncoderCalls

end CustomAi.Vllm
