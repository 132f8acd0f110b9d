import CustomAi.Vllm.QueuePlacement

/-!
# The books of a scheduling step

How many tokens a request gets, and what the local variables of `schedule` record about the
requests: the scheduled ones are running, were scanned and hold the tokens that left the budget,
and nothing is recorded about a preempted one.
-/

namespace CustomAi.Vllm

open List Option Except

variable {config : SchedulerConfig} {request : Request}

lemma EncoderTry.loop_numNewTokens {env : ScheduleEnv}
    {numComputedTokens shift : ℤ} (hshift : 0 ≤ shift ∧ shift ≤ 1) {i : ℕ}
    {features : List MultiModalFeatureSpec} {t t' : EncoderTry}
    (h : loop config env request numComputedTokens shift i features t = .ok t') :
    t'.numNewTokens = t.numNewTokens ∨ t'.numNewTokens = 0 ∨
      0 < t'.numNewTokens ∧ t'.numNewTokens ≤ t.numNewTokens := by
  induction features generalizing i t with
  | nil =>
    obtain rfl := ok.inj h
    exact .inl rfl
  | cons mmFeature rest ih =>
    obtain ⟨n, -, h⟩ := bind_eq_ok.mp h
    dsimp only at h
    split at h
    · obtain rfl := ok.inj h
      exact .inl rfl
    · split at h
      · obtain ⟨_, -, h⟩ := bind_eq_ok.mp h
        exact ih h
      · split at h
        · exact ih h
        · split at h
          · exact ih h
          · obtain ⟨⟨cached, encoderCache⟩, -, h⟩ := bind_eq_ok.mp h
            split at h
            · exact ih (t := { t with encoderCache }) h
            · split at h
              · rename_i hchunk
                obtain rfl := ok.inj h
                simp only [Bool.and_eq_true, decide_eq_true_eq] at hchunk
                dsimp only
                omega
              · obtain ⟨⟨room, encoderCache'⟩, -, h⟩ := bind_eq_ok.mp h
                split at h
                · obtain ⟨t1, ht1, h⟩ := bind_eq_ok.mp h
                  have hsame : t1.numNewTokens = t.numNewTokens := by
                    obtain ⟨⟨a, b⟩, -, ht1⟩ := bind_eq_ok.mp ht1
                    dsimp only at ht1
                    split at ht1
                    · obtain rfl := ok.inj ht1
                      rfl
                    · split at ht1 <;> obtain rfl := ok.inj ht1 <;> rfl
                  rw [← hsame]
                  exact ih h
                · obtain rfl := ok.inj h
                  unfold stopBefore
                  dsimp only
                  split
                  · omega
                  · exact .inr (.inl rfl)

lemma tryScheduleEncoderInputs_numNewTokens {env : ScheduleEnv}
    {encoderCache : EncoderCache} {numComputedTokens numNewTokens budget : ℤ}
    {t : EncoderTry} (h : tryScheduleEncoderInputs config env encoderCache request
      numComputedTokens numNewTokens budget = .ok t) : t.numNewTokens = numNewTokens ∨ t.numNewTokens = 0 ∨
      0 < t.numNewTokens ∧ t.numNewTokens ≤ numNewTokens := by
  unfold tryScheduleEncoderInputs at h
  split at h
  · obtain rfl := ok.inj h
    exact .inl rfl
  · refine EncoderTry.loop_numNewTokens ?_ h
    split <;> omega

lemma mambaBlockAlignedSplit_le {numNewTokens aligned : ℤ} {numLocal numExternal : ℕ}
    (h : mambaBlockAlignedSplit config request numNewTokens numLocal numExternal = .ok aligned) :
    (aligned ≤ numNewTokens ∨ aligned = 0) ∧ (0 ≤ numNewTokens → 0 ≤ aligned) ∧
      (numNewTokens = 0 → aligned = 0) := by
  obtain ⟨_, -, h⟩ := bind_eq_ok.mp h
  split at h
  · dsimp only at h
    generalize (if config.useEagle = true then _ else _ : ℤ) = last at h
    split at h
    · obtain rfl := ok.inj h
      rcases Nat.eq_zero_or_pos config.cacheBlockSize with hzero | hpos
      · simp [hzero]
      · have hb : (0 : ℤ) < config.cacheBlockSize := by exact_mod_cast hpos
        refine ⟨.inl (Int.ediv_mul_le _ hb.ne'), fun hn => ?_, fun hn => ?_⟩
        · exact Int.mul_nonneg (Int.ediv_nonneg hn hb.le) hb.le
        · rw [hn, Int.zero_ediv, zero_mul]
    · split at h
      · obtain rfl := ok.inj h
        omega
      · obtain rfl := ok.inj h
        exact ⟨.inl le_rfl, id, id⟩
  · obtain rfl := ok.inj h
    exact ⟨.inl le_rfl, id, id⟩

namespace ScheduleLocals

variable {config : SchedulerConfig} {encoderCache : EncoderCache} {tokenBudget numNewTokens : ℤ}
  {request : Request} {t : EncoderTry}

lemma RunningPlan.le {env : ScheduleEnv} {encoderComputeBudget : ℤ}
    (h : RunningPlan config env encoderCache tokenBudget encoderComputeBudget request numNewTokens
      t) : numNewTokens ≤ numNewTokensRunning config request tokenBudget ∧
      (0 ≤ numNewTokensRunning config request tokenBudget → 0 < numNewTokens) := by
  have ht := tryScheduleEncoderInputs_numNewTokens h.inputs
  have hn := h.ne_zero
  have haligned : (numNewTokens ≤ t.numNewTokens ∨ numNewTokens = 0) ∧
      (0 ≤ t.numNewTokens → 0 ≤ numNewTokens) ∧ (t.numNewTokens = 0 → numNewTokens = 0) := by
    have halign := h.aligned
    split at halign
    · exact mambaBlockAlignedSplit_le halign
    · obtain rfl := ok.inj halign
      exact ⟨.inl le_rfl, id, id⟩
  omega

lemma numNewTokensRunning_le (config : SchedulerConfig) (request : Request) (tokenBudget : ℤ) :
    numNewTokensRunning config request tokenBudget ≤ tokenBudget ∧
      numNewTokensRunning config request tokenBudget ≤ request.numTokensWithSpec +
        request.numOutputPlaceholders - request.numComputedTokens ∧ numNewTokensRunning config request tokenBudget ≤
        config.maxModelLen - 1 - request.numComputedTokens := by
  unfold numNewTokensRunning
  dsimp only
  split <;> omega

lemma numNewTokensRunning_pos
    (hbudget : 0 < tokenBudget) (hlen : request.numComputedTokens < config.maxModelLen - 1)
    (hmore : request.numComputedTokens < request.numTokensWithSpec + request.numOutputPlaceholders) :
    0 < numNewTokensRunning config request tokenBudget := by
  unfold numNewTokensRunning
  dsimp only
  split <;> omega

lemma numNewTokensRunning_nonneg
    (hbudget : 0 ≤ tokenBudget) (hlen : request.numComputedTokens ≤ config.maxModelLen - 1)
    (hmore : request.numComputedTokens ≤ request.numTokensWithSpec + request.numOutputPlaceholders) :
    0 ≤ numNewTokensRunning config request tokenBudget := by
  unfold numNewTokensRunning
  dsimp only
  split <;> omega

variable {l l' : ScheduleLocals} {env : ScheduleEnv}

variable {c : ComputedTokens} {kvCacheManager : KVCacheManager}

lemma numNewTokensWaiting_bounds (h : l.numNewTokensWaiting env request c = .ok (some numNewTokens, t))
    (hasync : c.loadKvAsync = false) : 0 < numNewTokens ∧ numNewTokens ≤ l.tokenBudget ∧
      numNewTokens ≤ request.numTokens - c.numComputedTokens := by
  have halign : ∀ {n : ℤ} {m : Option ℤ}, l.alignWaiting request c n = .ok m → 0 ≤ n →
      n ≠ 0 → m = some numNewTokens → 0 < numNewTokens ∧ numNewTokens ≤ n := by
    intro n m hm hn hne hsome
    unfold alignWaiting at hm
    split at hm
    · obtain ⟨aligned, haligned, hm⟩ := bind_eq_ok.mp hm
      obtain rfl := ok.inj hm
      split at hsome
      · cases hsome
      · obtain rfl := some.inj hsome
        have := mambaBlockAlignedSplit_le haligned
        omega
    · obtain rfl := ok.inj hm
      obtain rfl := some.inj hsome
      omega
  unfold numNewTokensWaiting at h
  rw [if_neg (by simp [hasync])] at h
  dsimp only at h
  generalize hwish : (if 0 < (l.s.config.longPrefillTokenThreshold : ℤ) ∧
    (l.s.config.longPrefillTokenThreshold : ℤ) < request.numTokens - c.numComputedTokens then
      (l.s.config.longPrefillTokenThreshold : ℤ)
    else request.numTokens - c.numComputedTokens) = wish at h
  split at h
  · cases h
  · obtain ⟨_, hpos, h⟩ := bind_eq_ok.mp h
    have hpos : min wish l.tokenBudget > 0 := ensure_eq_ok.mp hpos
    split at h
    · obtain ⟨t1, ht1, h⟩ := bind_eq_ok.mp h
      have hbound := tryScheduleEncoderInputs_numNewTokens ht1
      split at h
      · cases h
      · rename_i hne
        obtain ⟨m, hm, h⟩ := bind_eq_ok.mp h
        obtain ⟨hsome, -⟩ := ok_pair_inj h
        have := halign hm (by omega) hne hsome
        omega
    · obtain ⟨m, hm, h⟩ := bind_eq_ok.mp h
      obtain ⟨hsome, -⟩ := ok_pair_inj h
      have := halign hm (by omega) (by omega) hsome
      omega

def scheduled (l : ScheduleLocals) : List RequestId :=
  l.scheduledRunningReqs ++ l.scheduledNewReqs ++ l.scheduledResumedReqs

/-- The scheduled requests are running ones, and the records of the step are about them. -/
structure Books (l : ScheduleLocals) : Prop where
  nodup : l.scheduled.Nodup
  running : ∀ x ∈ l.scheduled, x ∈ l.s.running
  tokens : ∀ x, l.numScheduledTokens.contains x = true ↔ x ∈ l.scheduled
  blocks : ∀ x, l.reqToNewBlocks.contains x = true → x ∈ l.scheduled
  spec : ∀ x, l.scheduledSpecDecodeTokens.contains x = true → x ∈ l.scheduled
  inputs : ∀ x, l.scheduledEncoderInputs.contains x = true → x ∈ l.scheduled
  preempted : ∀ x ∈ l.preemptedReqs, x ∉ l.s.running
  budget : l.tokenBudget + l.numScheduledTokens.sum (fun _ n => n) = l.s.config.maxNumScheduledTokens
  room : l.s.running.length ≤ l.s.config.maxNumRunningReqs

structure Scanned (l : ScheduleLocals) : Prop where
  noNew : l.scheduledNewReqs = []
  noResumed : l.scheduledResumedReqs = []
  scanned : ∀ x ∈ l.scheduledRunningReqs, x ∈ l.s.running.take l.reqIndex

structure Current (id : RequestId) (l : ScheduleLocals) : Prop where
  fresh : id ∉ l.scheduledRunningReqs
  next : id ∈ l.s.running.take (l.reqIndex + 1)
  fcfs : l.s.config.policy = .fcfs → l.s.running[l.reqIndex]? = some id

def Booked : Phase → ScheduleLocals → Prop
  | .scan, l => Books l ∧ Scanned l
  | .running id _ _, l => Books l ∧ Scanned l ∧ Current id l
  | .wait, l => Books l

lemma Scanned.scheduled_eq (h : Scanned l) : l.scheduled = l.scheduledRunningReqs := by
  rw [scheduled, h.noNew, h.noResumed, append_nil, append_nil]

lemma mem_take_of_getElem? {α : Type} {xs : List α} {i : ℕ} {x : α} (h : xs[i]? = some x) :
    x ∈ xs.take (i + 1) := by
  obtain ⟨hi, rfl⟩ := List.getElem?_eq_some_iff.mp h
  exact mem_take_iff_getElem.mpr ⟨i, by omega, rfl⟩

variable {victim id : RequestId}

lemma Scanned.last_notMem {rest : List RequestId} (hl : Scanned l) (hid : Current id l) (hnd : l.s.running.Nodup)
    (hpolicy : l.s.config.policy = .fcfs) (hrunning : l.s.running = rest ++ [victim]) :
    l.reqIndex ≤ rest.length ∧ victim ∉ l.scheduledRunningReqs := by
  have hcur := hid.fcfs hpolicy
  obtain ⟨hi, -⟩ := List.getElem?_eq_some_iff.mp hcur
  rw [hrunning, length_append, length_singleton] at hi
  have hle : l.reqIndex ≤ rest.length := by omega
  refine ⟨hle, fun hmem => ?_⟩
  have htake := hl.scanned victim hmem
  rw [hrunning, take_append_of_le_length hle] at htake
  rw [hrunning, List.nodup_append] at hnd
  exact hnd.2.2 victim (mem_of_mem_take htake) victim (by simp) rfl

lemma Preempted.books (h : Preempted l victim l') (hl : Books l) (hscan : Scanned l) (hid : Current id l)
    (hnd : l.s.running.Nodup) : Books l' ∧ Scanned l' := by
  obtain ⟨l1, request, s', hpop, -, hs', rfl⟩ := h
  obtain ⟨-, _, _, _, -, -, -, rfl⟩ := Scheduler.preemptRequest_eq_ok hs'
  have hsched := hscan.scheduled_eq
  cases hpop with
  | @last rest hpolicy hrunning =>
    obtain ⟨hle, hnot⟩ := hscan.last_notMem hid hnd hpolicy hrunning
    have hsub : ∀ x, x ∈ rest → x ∈ l.s.running := fun x hx => by
      rw [hrunning]
      exact mem_append_left _ hx
    have hvictim : victim ∉ rest := by
      rw [hrunning, List.nodup_append] at hnd
      exact fun hmem => hnd.2.2 victim hmem victim (by simp) rfl
    have hroom := hl.room
    rw [hrunning, length_append] at hroom
    refine ⟨⟨hl.nodup, fun x hx => ?_, hl.tokens, hl.blocks, hl.spec, hl.inputs, fun x hx => ?_,
      hl.budget, Nat.le_of_add_right_le hroom⟩, hscan.noNew, hscan.noResumed, fun x hx => ?_⟩
    · have hmem := hl.running x hx
      rw [hrunning] at hmem
      refine (mem_append.mp hmem).resolve_right fun hlast => hnot ?_
      rw [← mem_singleton.mp hlast, ← hsched]
      exact hx
    · rcases mem_append.mp hx with hx | hx
      · exact fun hmem => hl.preempted x hx (hsub x hmem)
      · rw [mem_singleton.mp hx]
        exact hvictim
    · have htake := hscan.scanned x hx
      rw [hrunning, take_append_of_le_length hle] at htake
      exact htake
  | unscheduled hpolicy hmem hnot =>
    refine ⟨⟨hl.nodup, fun x hx => ?_, hl.tokens, hl.blocks, hl.spec, hl.inputs, fun x hx => ?_,
      hl.budget, length_erase_le.trans hl.room⟩, hscan.noNew, hscan.noResumed, fun x hx => ?_⟩
    · refine (mem_erase_of_ne fun heq => hnot ?_).mpr (hl.running x hx)
      rw [← heq, ← hsched]
      exact hx
    · rcases mem_append.mp hx with hx | hx
      · exact fun hmem => hl.preempted x hx (mem_of_mem_erase hmem)
      · rw [mem_singleton.mp hx]
        exact hnd.not_mem_erase
    · exact mem_take_erase (hscan.scanned x hx) fun heq => hnot (heq ▸ hx)
  | @scheduled request' numTokens numEmbeds hpolicy hmem hsch hreq hnum =>
    have hnds : l.scheduledRunningReqs.Nodup := hsched ▸ hl.nodup
    have hiff : ∀ x, x ∈ l.scheduledRunningReqs.erase victim ↔ x ≠ victim ∧ x ∈ l.scheduled := fun x => by
      rw [hsched]
      exact hnds.mem_erase_iff
    have hsched' : ∀ x, x ∈ l.scheduledRunningReqs.erase victim ++ l.scheduledNewReqs ++
        l.scheduledResumedReqs ↔ x ≠ victim ∧ x ∈ l.scheduled := fun x => by
      rw [hscan.noNew, hscan.noResumed, append_nil, append_nil]
      exact hiff x
    have herase : ∀ {υ : Type} (d : Dict RequestId υ) (x : RequestId),
        (∀ x, d.contains x = true → x ∈ l.scheduled) → (d.erase victim).contains x = true →
        x ∈ l.scheduledRunningReqs.erase victim ++ l.scheduledNewReqs ++ l.scheduledResumedReqs := by
      intro υ d x hd hx
      rw [Dict.contains_erase] at hx
      rw [hsched']
      simp only [Bool.and_eq_true, decide_eq_true_eq] at hx
      exact ⟨hx.1, hd x hx.2⟩
    refine ⟨⟨?_, fun x hx => ?_, fun x => ?_, fun x => herase _ x hl.blocks,
      fun x => herase _ x hl.spec, fun x => herase _ x hl.inputs, fun x hx => ?_, ?_,
      length_erase_le.trans hl.room⟩, hscan.noNew, hscan.noResumed, fun x hx => ?_⟩
    · change (l.scheduledRunningReqs.erase victim ++ l.scheduledNewReqs ++ l.scheduledResumedReqs).Nodup
      rw [hscan.noNew, hscan.noResumed, append_nil, append_nil]
      exact hnds.erase victim
    · obtain ⟨hne, hx⟩ := (hsched' x).mp hx
      exact (mem_erase_of_ne hne).mpr (hl.running x hx)
    · refine Iff.trans ?_ (hsched' x).symm
      rw [Dict.contains_erase, ← hl.tokens x]
      simp
    · rcases mem_append.mp hx with hx | hx
      · exact fun hmem => hl.preempted x hx (mem_of_mem_erase hmem)
      · rw [mem_singleton.mp hx]
        exact hnd.not_mem_erase
    · have hsum := l.numScheduledTokens.sum_erase (fun _ n => n) victim
      have hbudget := hl.budget
      rw [hnum, elim_some] at hsum
      linarith
    · obtain ⟨hne, hx⟩ := (hiff x).mp hx
      rw [hsched] at hx
      have hv := hscan.scanned victim hsch
      have hx := hscan.scanned x hx
      obtain ⟨k, hk⟩ : ∃ k, l.reqIndex = k + 1 := by
        refine Nat.exists_eq_succ_of_ne_zero fun hzero => ?_
        rw [hzero] at hv
        cases hv
      rw [hk] at hv hx ⊢
      rw [Nat.add_sub_cancel, take_erase_of_mem hv]
      exact (mem_erase_of_ne hne).mpr hx

lemma Preempted.current (h : Preempted l victim l') (hne : victim ≠ id)
    (hscan : Scanned l) (hid : Current id l) : Current id l' := by
  obtain ⟨l1, request, s', hpop, -, hs', rfl⟩ := h
  obtain ⟨-, _, _, _, -, -, -, rfl⟩ := Scheduler.preemptRequest_eq_ok hs'
  cases hpop with
  | @last rest hpolicy hrunning =>
    have hcur := hid.fcfs hpolicy
    have hrest : rest[l.reqIndex]? = some id := by
      rw [hrunning] at hcur
      rcases Nat.lt_or_ge l.reqIndex rest.length with hlt | hge
      · rwa [List.getElem?_append_left hlt] at hcur
      · rw [List.getElem?_append_right hge] at hcur
        have hmem := mem_of_getElem? hcur
        exact absurd (mem_singleton.mp hmem).symm hne
    exact ⟨hid.fresh, mem_take_of_getElem? hrest, fun _ => hrest⟩
  | unscheduled hpolicy =>
    refine ⟨hid.fresh, mem_take_erase hid.next (Ne.symm hne), fun hfcfs => ?_⟩
    rw [hpolicy] at hfcfs
    cases hfcfs
  | scheduled hpolicy _ hsch =>
    refine ⟨fun hmem => hid.fresh (mem_of_mem_erase hmem), ?_, fun hfcfs => ?_⟩
    · have hv := hscan.scanned victim hsch
      obtain ⟨k, hk⟩ : ∃ k, l.reqIndex = k + 1 := by
        refine Nat.exists_eq_succ_of_ne_zero fun hzero => ?_
        rw [hzero] at hv
        cases hv
      have hnext := hid.next
      rw [hk] at hv hnext ⊢
      rw [Nat.add_sub_cancel, take_erase_of_mem (take_subset_take_left _ (Nat.le_succ _) hv)]
      exact (mem_erase_of_ne (Ne.symm hne)).mpr hnext
    · rw [hpolicy] at hfcfs
      cases hfcfs

lemma Books.record (hl : Books l) (hfresh : id ∉ l.scheduled) (hsched : l'.scheduled.Perm (id :: l.scheduled))
    (hrunning : ∀ x, x = id ∨ x ∈ l.s.running → x ∈ l'.s.running)
    (htokens : l'.numScheduledTokens = l.numScheduledTokens.set id numNewTokens)
    (hblocks : ∃ b, l'.reqToNewBlocks = l.reqToNewBlocks.set id b)
    (hspec : l'.scheduledSpecDecodeTokens = l.scheduledSpecDecodeTokens ∨
      ∃ v, l'.scheduledSpecDecodeTokens = l.scheduledSpecDecodeTokens.set id v)
    (hinputs : l'.scheduledEncoderInputs = l.scheduledEncoderInputs ∨
      ∃ v, l'.scheduledEncoderInputs = l.scheduledEncoderInputs.set id v)
    (hpreempted : ∀ x ∈ l'.preemptedReqs, x ∉ l'.s.running)
    (hbudget : l'.tokenBudget = l.tokenBudget - numNewTokens) (hconfig : l'.s.config = l.s.config)
    (hroom : l'.s.running.length ≤ l.s.config.maxNumRunningReqs) : Books l' := by
  have hmem : ∀ x, x ∈ l'.scheduled ↔ x = id ∨ x ∈ l.scheduled := fun x => by
    rw [hsched.mem_iff, mem_cons]
  have hset : ∀ {υ : Type} {d d' : Dict RequestId υ},
      (∀ x, d.contains x = true → x ∈ l.scheduled) → (d' = d ∨ ∃ v, d' = d.set id v) →
      ∀ x, d'.contains x = true → x ∈ l'.scheduled := by
    rintro υ d d' hd (rfl | ⟨v, rfl⟩) x hx
    · exact (hmem x).mpr (.inr (hd x hx))
    · rw [Dict.contains_set] at hx
      simp only [Bool.or_eq_true, decide_eq_true_eq] at hx
      exact (hmem x).mpr (hx.imp_right (hd x))
  refine ⟨?_, fun x hx => ?_, fun x => ?_, hset hl.blocks (.inr hblocks), hset hl.spec hspec,
    hset hl.inputs hinputs, hpreempted, ?_, hconfig ▸ hroom⟩
  · rw [hsched.nodup_iff, nodup_cons]
    exact ⟨hfresh, hl.nodup⟩
  · exact hrunning x (((hmem x).mp hx).imp_right (hl.running x))
  · rw [hmem, htokens, Dict.contains_set, ← hl.tokens x]
    simp
  · have hsum := l.numScheduledTokens.sum_set (fun _ n => n) id numNewTokens
    have hnone : l.numScheduledTokens.get? id = none := by
      rw [← not_isSome_iff_eq_none]
      exact fun h => hfresh ((hl.tokens _).mp h)
    rw [hnone, elim_none] at hsum
    have htotal := hl.budget
    rw [htokens, hconfig]
    linarith

lemma Books.recordRunning {newBlocks : List (List BlockId)} (hl : Books l) (hscan : Scanned l)
    (hid : Current request.requestId l) :
    Books (l.recordRunning request numNewTokens newBlocks t kvCacheManager encoderCache) ∧
      Scanned (l.recordRunning request numNewTokens newBlocks t kvCacheManager encoderCache) := by
  have hsched := hscan.scheduled_eq
  refine ⟨hl.record (hsched ▸ hid.fresh) ?_ ?_ rfl ⟨_, rfl⟩ ?_ ?_ hl.preempted rfl rfl hl.room,
    hscan.noNew, hscan.noResumed, fun x hx => ?_⟩
  · rw [hsched]
    change (l.scheduledRunningReqs ++ [request.requestId] ++ l.scheduledNewReqs ++ l.scheduledResumedReqs).Perm _
    rw [hscan.noNew, hscan.noResumed, append_nil, append_nil]
    exact perm_append_singleton _ _
  · rintro x (rfl | hx)
    · exact mem_of_mem_take hid.next
    · exact hx
  · unfold ScheduleLocals.recordRunning
    dsimp only
    split
    · exact .inl rfl
    · exact .inr ⟨_, rfl⟩
  · unfold ScheduleLocals.recordRunning
    split
    · exact .inl rfl
    · exact .inr ⟨_, rfl⟩
  · have hx : x ∈ l.scheduledRunningReqs ++ [request.requestId] := hx
    rw [mem_append, mem_singleton] at hx
    rcases hx with hx | rfl
    · exact take_subset_take_left _ (Nat.le_succ _) (hscan.scanned x hx)
    · exact hid.next

lemma Books.recordAdmitted {waiting : RequestQueue} (hl : Books l) (hpre : l.preemptedReqs = [])
    (hroom : l.s.running.length ≠ l.s.config.maxNumRunningReqs)
    (hstatus : request.status = .waiting ∨ request.status = .preempted) (hfresh : request.requestId ∉ l.s.running) :
    Books (l.recordAdmitted request c numNewTokens t kvCacheManager encoderCache waiting) := by
  have hle := hl.room
  refine hl.record (fun h => hfresh (hl.running _ h)) ?_ ?_ rfl ⟨_, rfl⟩ (.inl rfl) ?_ ?_ rfl rfl ?_
  · unfold scheduled ScheduleLocals.recordAdmitted
    dsimp only
    rcases hstatus with hs | hs
    · rw [if_pos hs, if_neg (by rw [hs]; exact nofun), append_assoc, append_assoc, append_assoc]
      exact (perm_middle.append_left _).trans perm_middle
    · rw [if_neg (by rw [hs]; exact nofun), if_pos hs, ← append_assoc]
      exact perm_append_singleton _ _
  · rintro x (rfl | hx)
    · exact mem_append_right _ (mem_singleton_self _)
    · exact mem_append_left _ hx
  · unfold ScheduleLocals.recordAdmitted
    dsimp only
    split
    · exact .inl rfl
    · exact .inr ⟨_, rfl⟩
  · intro x hx
    have hx : x ∈ l.preemptedReqs := hx
    rw [hpre] at hx
    cases hx
  · change (l.s.running ++ [request.requestId]).length ≤ _
    rw [length_append, length_singleton]
    omega

lemma start_booked {s : Scheduler} (hroom : s.running.length ≤ s.config.maxNumRunningReqs) :
    Booked .scan (start s) := by
  refine ⟨⟨nodup_nil, fun x hx => ?_, fun x => ?_, nofun, nofun, nofun, fun x hx => ?_, ?_,
    hroom⟩, rfl, rfl, fun x hx => ?_⟩
  · cases hx
  · simp [start, scheduled, Dict.contains]
  · cases hx
  · simp [start]
  · cases hx

variable {lost : RequestId → ℕ} {extra : ℤ}

lemma QueuesPlaced.nodup (h : QueuesPlaced lost extra l) : l.s.running.Nodup := by
  rw [nodup_iff_count_le_one]
  intro x
  rw [h.running x]
  exact runningCount_le_one _

lemma QueuesPlaced.notMem_running (h : QueuesPlaced lost extra l) {r : Request}
    (hr : l.s.requests.get? id = some r) (hstatus : r.status ≠ .running) : id ∉ l.s.running := by
  rw [← count_eq_zero, h.running id, hr, runningCount_some, if_neg hstatus]

lemma Move.booked {a b : Phase × ScheduleLocals}
    (h : Move env a b) (hplaced : QueuesPlaced lost extra a.2) (ha : Booked a.1 a.2) : Booked b.1 b.2 := by
  have hnd := hplaced.nodup
  cases h with
  | pass | passInputs =>
    exact ⟨{ ha.1 with }, ha.2.noNew, ha.2.noResumed, fun x hx =>
      take_subset_take_left _ (Nat.le_succ _) (ha.2.scanned x hx)⟩
  | @plan l id request numNewTokens t hid =>
    refine ⟨{ ha.1 with }, { ha.2 with }, fun hmem => ?_, mem_take_of_getElem? hid, fun _ => hid⟩
    obtain ⟨hi, hget⟩ := List.getElem?_eq_some_iff.mp hid
    obtain ⟨j, hj, hget'⟩ := mem_take_iff_getElem.mp (ha.2.scanned id hmem)
    have hij := (hnd.getElem_inj_iff).mp (hget'.trans hget.symm)
    dsimp only at hj
    omega
  | noBlocks => exact ⟨{ ha.1 with }, { ha.2.1 with }, { ha.2.2 with }⟩
  | preempt hne hp =>
    obtain ⟨hbooks, hscan, hcur⟩ := ha
    obtain ⟨hbooks', hscan'⟩ := hp.books hbooks hscan hcur hnd
    exact ⟨hbooks', hscan', hp.current hne hscan hcur⟩
  | preemptSelf hp =>
    obtain ⟨hbooks, hscan, hcur⟩ := ha
    exact hp.books hbooks hscan hcur hnd
  | schedule hreq =>
    have hid := hplaced.keys _ _ hreq
    subst hid
    obtain ⟨hbooks, hscan, hcur⟩ := ha
    exact hbooks.recordRunning hscan hcur
  | loras => exact { ha.1 with }
  | inputs | refuse | startAsync | skip => exact { (show Books _ from ha) with }
  | check _ _ _ hc =>
    exact { ha with
      running := fun x hx => hc.running ▸ ha.running x hx
      preempted := fun x hx => hc.running ▸ ha.preempted x hx
      budget := hc.config ▸ ha.budget
      room := by
        rw [hc.running, hc.config]
        exact ha.room }
  | count _ _ hreq hc =>
    have hid := hplaced.keys _ _ hreq
    subst hid
    obtain ⟨_, -, rfl | ⟨-, _, rfl, rfl⟩, -⟩ := getComputedTokens_counted hreq hc
    · exact ha
    · exact { ha with }
  | admitted hpre hroom hreq _ _ _ _ hstatus _ hwaiting =>
    have hid := hplaced.keys _ _ hreq
    subst hid
    refine Books.recordAdmitted ha hpre hroom hstatus (hplaced.notMem_running hreq ?_)
    rcases hstatus with hs | hs <;> rw [hs] <;> exact nofun

end ScheduleLocals

end CustomAi.Vllm

/-!
## What a scheduling step does to one record

A rule for properties of the record of a request and of what the step schedules for it: what every
change of a record keeps holds for all records after the step.
-/

namespace CustomAi.Vllm

open List Option Except

def Request.admitted (request : Request) (numComputedTokens : ℤ) : Request :=
  { request with
    status := .running
    numComputedTokens
    numCachedTokens := if request.numCachedTokens < 0 then numComputedTokens
      else request.numCachedTokens }

namespace ScheduleLocals

inductive Decision
  | none
  | preempted
  | scheduled (numNewTokens : ℤ) (specTokenIds : List TokenId)

def decision (l : ScheduleLocals) (id : RequestId) : Decision :=
  if id ∈ l.preemptedReqs then .preempted
  else
    match l.numScheduledTokens.get? id with
    | .none => .none
    | some n => .scheduled n ((l.scheduledSpecDecodeTokens.get? id).getD [])

/-- The property is kept by every change that `schedule` makes to a record. -/
structure RecordRule (config : SchedulerConfig) (env : ScheduleEnv)
    (P : Decision → Request → Prop) : Prop where
  preempted : ∀ {d : Decision} {r : Request}, P d r → r.status = .running → P .preempted r.preempted
  scheduled : ∀ {r : Request} {encoderCache : EncoderCache}
    {tokenBudget encoderComputeBudget n : ℤ} {t : EncoderTry}, P .none r → r.status = .running →
    0 < tokenBudget → RunningPlan config env encoderCache tokenBudget encoderComputeBudget r n t →
    P (.scheduled n (specTokensToSchedule r n)) { r with specTokenIds := [] }
  compiled : ∀ {r : Request}, P .none r → r.status = .waitingForFsm → P .none { r with status := .waiting }
  received : ∀ {r : Request}, P .none r → config.hasConnector = true →
    r.status = .waitingForRemoteKvs → ∀ numComputedTokens, P .none { r with
      numComputedTokens
      status := if r.numPreemptions ≠ 0 then .preempted else .waiting }
  counted : ∀ {r : Request}, P .none r → r.status ≠ .running → config.hasConnector = true →
    ∀ numExternalComputedTokens, P .none { r with numExternalComputedTokens }
  loading : ∀ {r : Request}, P .none r → r.status.Waits → config.hasConnector = true →
    P .none { r with status := .waitingForRemoteKvs }
  admitted : ∀ {r : Request} {k : KVCacheManager} {c : ComputedTokens} {n : ℤ}, P .none r →
    r.status = .waiting ∨ r.status = .preempted → Counted config k r c → 0 < n →
    n ≤ r.numTokens - c.numComputedTokens → P (.scheduled n []) (r.admitted c.numComputedTokens)

def Records (P : Decision → Request → Prop) (l : ScheduleLocals) : Prop :=
  ∀ id r, l.s.requests.get? id = some r → P (l.decision id) r

variable {env : ScheduleEnv} {l l' : ScheduleLocals} {lost : RequestId → ℕ} {extra : ℤ}
  {P : Decision → Request → Prop}

variable {id : RequestId}

lemma Books.get?_eq_none (h : Books l) (hid : id ∉ l.scheduled) :
    l.numScheduledTokens.get? id = none ∧ l.scheduledSpecDecodeTokens.get? id = none := by
  constructor
  · rw [← not_isSome_iff_eq_none]
    exact fun hsome => hid ((h.tokens id).mp hsome)
  · rw [← not_isSome_iff_eq_none]
    exact fun hsome => hid (h.spec id hsome)

variable {kvCacheManager : KVCacheManager} {n : ℤ}

lemma Books.decision_of_scheduled (h : Books l) (hn : l.numScheduledTokens.get? id = some n) :
    l.decision id = .scheduled n ((l.scheduledSpecDecodeTokens.get? id).getD []) := by
  have hmem : id ∈ l.scheduled := (h.tokens id).mp (by rw [Dict.contains, hn]; rfl)
  rw [decision, if_neg fun hpre => h.preempted id hpre (h.running id hmem), hn]

lemma Books.decision_eq_none (h : Books l) (hid : id ∉ l.scheduled)
    (hpre : id ∉ l.preemptedReqs) : l.decision id = .none := by
  rw [decision, if_neg hpre, (h.get?_eq_none hid).1]

lemma decision_congr (hpre : id ∈ l'.preemptedReqs ↔ id ∈ l.preemptedReqs)
    (htokens : l'.numScheduledTokens.get? id = l.numScheduledTokens.get? id)
    (hspec : l'.scheduledSpecDecodeTokens.get? id = l.scheduledSpecDecodeTokens.get? id) :
    l'.decision id = l.decision id := by
  rw [decision, decision, htokens, hspec]
  simp only [hpre]

variable {r : Request}

lemma Records.set (hl : Records P l) (hrequests : l'.s.requests = l.s.requests.set id r)
    (hother : ∀ x, x ≠ id → l'.decision x = l.decision x) (hr : P (l'.decision id) r) : Records P l' := by
  intro x r' hr'
  rw [hrequests, Dict.get?_set] at hr'
  split at hr'
  · rename_i hx
    rw [← some.inj hr', hx]
    exact hr
  · rename_i hx
    rw [hother x hx]
    exact hl x r' hr'

lemma Records.replace (hl : Records P l)
    (hrequests : l'.s.requests = l.s.requests.set id r) (hsame : l'.decision = l.decision)
    (hnone : l.decision id = .none) (hr : P .none r) : Records P l' := by
  refine hl.set hrequests (fun x _ => congrFun hsame x) ?_
  rw [hsame, hnone]
  exact hr

lemma QueuesPlaced.status_of_mem (h : QueuesPlaced lost extra l)
    (hid : id ∈ l.s.running) (hr : l.s.requests.get? id = some r) : r.status = .running := by
  by_contra hstatus
  exact h.notMem_running hr hstatus hid

lemma QueuesPlaced.status_of_waiting (h : QueuesPlaced lost extra l)
    (hid : id ∈ l.s.waiting) (hr : l.s.requests.get? id = some r) :
    r.status.isFinished = false ∧ r.status ≠ .running :=
  h.waiting_of_mem (mem_append_right _ hid) hr

variable {config : SchedulerConfig}

lemma Preempted.records {victim : RequestId}
    (hrule : RecordRule config env P) (h : Preempted l victim l') (hkeys : KeysOk l.s.requests)
    (hl : Records P l) : Records P l' := by
  obtain ⟨request, hreq, hstatus, hrequests⟩ := h.requests hkeys
  obtain ⟨l1, request', s', hpop, -, -, rfl⟩ := h
  have hpre : l1.preemptedReqs = l.preemptedReqs := by cases hpop <;> rfl
  refine hl.set hrequests (fun x hx => decision_congr ?_ ?_ ?_) ?_
  · simp [hpre, hx]
  · cases hpop with
    | last | unscheduled => rfl
    | scheduled => exact Dict.get?_erase_of_ne _ hx
  · cases hpop with
    | last | unscheduled => rfl
    | scheduled => exact Dict.get?_erase_of_ne _ hx
  · rw [decision, if_pos (mem_append_right _ (mem_singleton_self _))]
    exact hrule.preempted (hl victim request hreq) hstatus

variable {encoderCache : EncoderCache} {request : Request} {t : EncoderTry}

lemma decision_recordRunning {newBlocks : List (List BlockId)} (hpre : request.requestId ∉ l.preemptedReqs)
    (hspec : l.scheduledSpecDecodeTokens.get? request.requestId = none) : (∀ x, x ≠ request.requestId →
      (l.recordRunning request n newBlocks t kvCacheManager encoderCache).decision x = l.decision x) ∧
    (l.recordRunning request n newBlocks t kvCacheManager encoderCache).decision
      request.requestId = .scheduled n (specTokensToSchedule request n) := by
  refine ⟨fun x hx => decision_congr Iff.rfl (Dict.get?_set_of_ne _ _ hx) ?_, ?_⟩
  · unfold recordRunning
    dsimp only
    split
    · rfl
    · exact Dict.get?_set_of_ne _ _ hx
  · unfold decision recordRunning
    rw [if_neg hpre, Dict.get?_set_self]
    dsimp only
    split
    · rename_i hnil
      rw [hspec, hnil, getD_none]
    · rw [Dict.get?_set_self, getD_some]

lemma decision_recordAdmitted {c : ComputedTokens}
    {waiting : RequestQueue} (hpre : request.requestId ∉ l.preemptedReqs)
    (hspec : l.scheduledSpecDecodeTokens.get? request.requestId = none) : (∀ x, x ≠ request.requestId →
      (l.recordAdmitted request c n t kvCacheManager encoderCache waiting).decision x = l.decision x) ∧
    (l.recordAdmitted request c n t kvCacheManager encoderCache waiting).decision
      request.requestId = .scheduled n [] := by
  refine ⟨fun x hx => decision_congr Iff.rfl (Dict.get?_set_of_ne _ _ hx) rfl, ?_⟩
  unfold decision recordAdmitted
  rw [if_neg hpre, Dict.get?_set_self]
  rw [hspec, getD_none]

lemma Move.records {a b : Phase × ScheduleLocals}
    (hrule : RecordRule config env P) (h : Move env a b) (hconfig : a.2.s.config = config)
    (hplaced : QueuesPlaced lost extra a.2) (hbooked : Booked a.1 a.2) (ha : Records P a.2) : Records P b.2 := by
  have hkeys := hplaced.keys
  have hnone : ∀ {id : RequestId} {r : Request}, a.2.s.requests.get? id = some r →
      r.status ≠ .running → Books a.2 → a.2.preemptedReqs = [] → a.2.decision id = .none := by
    intro id r hr hs hb hpre
    refine hb.decision_eq_none (fun hmem => hplaced.notMem_running hr hs (hb.running id hmem)) ?_
    rw [hpre]
    exact not_mem_nil
  subst hconfig
  cases h with
  | pass | passInputs | plan | noBlocks | loras | inputs | refuse | skip => exact ha
  | preempt hne hp => exact hp.records hrule hkeys ha
  | preemptSelf hp =>
    exact hp.records hrule hkeys ha
  | @schedule l id request n t c tokenBudget _ _ _ _ hreq hbudget hplan =>
    obtain ⟨hbooks, hscan, hcur⟩ := hbooked
    obtain rfl := hkeys id request hreq
    have hfresh : request.requestId ∉ l.scheduled := hscan.scheduled_eq ▸ hcur.fresh
    have hrun := mem_of_mem_take hcur.next
    have hpre : request.requestId ∉ l.preemptedReqs := fun hmem => hbooks.preempted _ hmem hrun
    have hr := ha _ request hreq
    rw [hbooks.decision_eq_none hfresh hpre] at hr
    obtain ⟨hother, hown⟩ := decision_recordRunning hpre (hbooks.get?_eq_none hfresh).2
    refine ha.set rfl hother ?_
    rw [hown]
    exact hrule.scheduled hr (hplaced.status_of_mem hrun hreq) hbudget hplan
  | @check l id request skipped s hpre hpeek hreq hc =>
    obtain rfl := hkeys id request hreq
    have hwaits := hplaced.status_of_waiting (mem_of_mem_head? hpeek) hreq
    have hr := ha _ request hreq
    rw [hnone hreq hwaits.2 hbooked hpre] at hr
    cases hc with
    | kept => exact ha
    | compiled hstatus =>
      exact ha.replace rfl rfl (hnone hreq hwaits.2 hbooked hpre) (hrule.compiled hr hstatus)
    | received hstatus hconn =>
      exact ha.replace rfl rfl (hnone hreq hwaits.2 hbooked hpre) (hrule.received hr hconn hstatus _)
  | @count l id request c s hpre hpeek hreq hc =>
    obtain rfl := hkeys id request hreq
    have hwaits := hplaced.status_of_waiting (mem_of_mem_head? hpeek) hreq
    have hr := ha _ request hreq
    rw [hnone hreq hwaits.2 hbooked hpre] at hr
    obtain ⟨_, -, rfl | ⟨hconn, _, rfl, rfl⟩, -⟩ := getComputedTokens_counted hreq hc
    · exact ha
    · exact ha.replace rfl rfl (hnone hreq hwaits.2 hbooked hpre) (hrule.counted hr hwaits.2 hconn _)
  | @startAsync l id request c _ _ _ _ _ hpre hreq hstatus hc hasync _ hwaiting =>
    obtain ⟨hfin, hrun⟩ := hplaced.status_of_waiting (hwaiting.mem_iff.mp mem_cons_self) hreq
    have hr := ha _ request hreq
    rw [hnone hreq hrun hbooked hpre] at hr
    have hconn : l.s.config.hasConnector = true := by
      by_contra hno
      rw [Bool.not_eq_true] at hno
      rw [(hc.noConnector hno).2] at hasync
      cases hasync
    exact ha.replace rfl rfl (hnone hreq hrun hbooked hpre) (hrule.loading hr ⟨hfin, hrun, hstatus⟩ hconn)
  | @admitted l id request c n t _ _ encoderCache _ _ hpre hroom hreq hc hasync hn _ hstatus =>
    obtain rfl := hkeys id request hreq
    have hrun : request.status ≠ .running := by
      rcases hstatus with hs | hs <;> rw [hs] <;> exact nofun
    have hr := ha _ request hreq
    rw [hnone hreq hrun hbooked hpre] at hr
    obtain ⟨hpos, -, hle⟩ := numNewTokensWaiting_bounds hn hasync
    have hbooks : Books l := hbooked
    have hnone2 := (hbooks.get?_eq_none fun hmem =>
      hplaced.notMem_running hreq hrun (hbooks.running _ hmem)).2
    obtain ⟨hother, hown⟩ := decision_recordAdmitted (by rw [hpre]; exact not_mem_nil) hnone2
    refine ha.set rfl hother ?_
    rw [hown]
    exact hrule.admitted hr hstatus hc hpos hle

lemma Moves.records {s : Scheduler} {phase : Phase}
    (hrule : RecordRule config env P) (h : Moves env (.scan, start s) (phase, l))
    (hconfig : s.config = config) (hplaced : QueuesPlaced lost extra (start s))
    (hroom : s.running.length ≤ s.config.maxNumRunningReqs)
    (hstart : ∀ id r, s.requests.get? id = some r → P .none r) :
    QueuesPlaced lost extra l ∧ Booked phase l ∧ l.s.config = config ∧ Records P l := by
  refine Moves.invariant (fun phase l => QueuesPlaced lost extra l ∧ Booked phase l ∧
    l.s.config = config ∧ Records P l) h hplaced.keys ⟨hplaced, start_booked hroom, hconfig, hstart⟩
    fun a b hkeys hmove ⟨hp, hb, hc, hr⟩ => ⟨hmove.placed hp, hmove.booked hp hb, ?_, ?_⟩
  · rw [hmove.config hkeys, hc]
  · exact hmove.records hrule hc hp hb hr

end ScheduleLocals

end CustomAi.Vllm
