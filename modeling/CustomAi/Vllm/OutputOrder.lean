import CustomAi.Vllm.EngineInvariant

/-!
# Output tokens are appended to what they were sampled from

Runs of the synchronous scheduler with any number of batches in flight.
-/

namespace CustomAi.Vllm

open List Option Scheduler Request Bool

/-- At most one token is sampled for a request, and none before its prompt is computed. -/
def Batch.SamplesOnce (batch : Batch) (out : ModelRunnerOutput) : Prop :=
  ∀ id ∈ batch.output.numScheduledTokens.keys, ∀ r ∈ batch.requests.get? id,
    if r.isPrefillChunk then out.sampledTokenIds id = [] ∧ out.hasPoolerOutput id = false
    else (out.sampledTokenIds id).length ≤ 1

/-- The calls of an engine without speculative decoding and failed KV loads. -/
def Engine.FifoOp (e : Engine) : EngineOp → Prop
  | .addRequest request _ => request.Fresh ∧ (e.scheduler.requests.get? request.requestId = none →
      ∀ batch ∈ e.inFlight, batch.output.numScheduledTokens.contains request.requestId = false)
  | .updateFromOutput out _ =>
    (out.kvConnectorOutput.map fun o => o.invalidBlockIds).getD [] = [] ∧
      ∀ batch ∈ e.inFlight.head?, batch.SamplesOnce out
  | .updateDraftTokenIds _ => False
  | _ => True

/-- `schedule` starts no waiting request while a token of it is being sampled. -/
def Engine.StartsLanded (e : Engine) : EngineOp → Prop
  | .schedule env => ∀ result ∈ (e.scheduler.schedule env).toOption, ∀ id ∈ result.2.running,
    id ∉ e.scheduler.running → ∀ batch ∈ e.inFlight, batch.samples id = false
  | _ => True

/-- Every token of the next output was sampled on just the tokens that its request has. -/
def Engine.AppendsInOrder (e : Engine) (out : ModelRunnerOutput) : Prop :=
  ∀ batch ∈ e.inFlight.head?, ∀ id ∈ batch.output.numScheduledTokens.keys,
    ∀ r ∈ e.scheduler.requests.get? id, r.status.isFinished = false →
      out.sampledTokenIds id ≠ [] → ∃ scheduled ∈ batch.requests.get? id,
        r.allTokenIds = pyTake scheduled.allTokenIds scheduled.numComputedTokens

structure Request.InOrder (maxModelLen : ℕ) (inFlight : List Batch) (r : Request) : Prop where
  spec : r.specTokenIds = []
  placeholders : r.numOutputPlaceholders = 0
  computed : r.status = .running → r.numComputedTokens ≤ r.numTokens
  tokens : r.status.isFinished = false → ∀ batch ∈ inFlight, batch.samples r.requestId = true →
    ∀ scheduled ∈ batch.requests.get? r.requestId, scheduled.allTokenIds = r.allTokenIds
  full : r.status = .running → ∀ batch ∈ inFlight, batch.samples r.requestId = true →
    r.numTokens ≤ r.numComputedTokens ∨ maxModelLen ≤ r.numTokens
  waits : r.status = .waitingForStreamingReq → ∀ batch ∈ inFlight, batch.samples r.requestId = false

variable {maxModelLen : ℕ} {inFlight : List Batch}

variable {r : Request}

/-- A request of which no token is being sampled has neither spec tokens nor placeholders. -/
lemma Request.InOrder.of_landed (hspec : r.specTokenIds = []) (hph : r.numOutputPlaceholders = 0)
    (hcomputed : r.status = .running → r.numComputedTokens ≤ r.numTokens)
    (hlanded : ∀ batch ∈ inFlight, batch.samples r.requestId = false) : r.InOrder maxModelLen inFlight := by
  refine ⟨hspec, hph, hcomputed, fun _ b hb hs => ?_, fun _ b hb hs => ?_, fun _ => hlanded⟩
  · rw [hlanded b hb] at hs
    cases hs
  · rw [hlanded b hb] at hs
    cases hs

lemma Request.InOrder.finished {status : RequestStatus}
    (h : r.InOrder maxModelLen inFlight) (hfin : status.isFinished = true) :
    Request.InOrder maxModelLen inFlight { r with status } := by
  refine ⟨h.spec, h.placeholders, fun hs => ?_, fun hs => ?_, fun hs => ?_, fun hs => ?_⟩
  · exact absurd hs (RequestStatus.ne_of_isFinished hfin rfl)
  · have hs : status.isFinished = false := hs
    rw [hs] at hfin
    cases hfin
  · exact absurd hs (RequestStatus.ne_of_isFinished hfin rfl)
  · exact absurd hs (RequestStatus.ne_of_isFinished hfin rfl)

lemma Request.InOrder.join {batch : Batch} (h : r.InOrder maxModelLen inFlight)
    (hno : batch.samples r.requestId = false) : r.InOrder maxModelLen (inFlight ++ [batch]) := by
  have hold : ∀ b ∈ inFlight ++ [batch], b.samples r.requestId = true → b ∈ inFlight := by
    intro b hb hs
    rcases mem_append.mp hb with hb | hb
    · exact hb
    · obtain rfl := mem_singleton.mp hb
      rw [hno] at hs
      cases hs
  refine ⟨h.spec, h.placeholders, h.computed, fun hfin b hb hs => h.tokens hfin b (hold b hb hs) hs,
    fun hrun b hb hs => h.full hrun b (hold b hb hs) hs, fun hw b hb => ?_⟩
  rw [← not_eq_true]
  intro hs
  rw [h.waits hw b (hold b hb hs)] at hs
  cases hs

lemma Request.InOrder.tail {batch : Batch}
    (h : r.InOrder maxModelLen (batch :: inFlight)) : r.InOrder maxModelLen inFlight :=
  ⟨h.spec, h.placeholders, h.computed, fun hfin b hb => h.tokens hfin b (mem_cons_of_mem _ hb),
    fun hs b hb => h.full hs b (mem_cons_of_mem _ hb), fun hs b hb => h.waits hs b (mem_cons_of_mem _ hb)⟩

namespace Scheduler

open ScheduleLocals

variable {config : SchedulerConfig} {env : ScheduleEnv} {running : List RequestId}

structure Ordered (config : SchedulerConfig) (inFlight : List Batch) (running : List RequestId)
    (d : Decision) (r : Request) : Prop where
  spec : r.specTokenIds = []
  placeholders : r.numOutputPlaceholders = 0
  computed : r.status = .running → r.numComputedTokens ≤ r.numTokens
  tokens : r.status.isFinished = false → ∀ batch ∈ inFlight, batch.samples r.requestId = true →
    ∀ scheduled ∈ batch.requests.get? r.requestId, scheduled.allTokenIds = r.allTokenIds
  full : r.status = .running → r.requestId ∈ running → ∀ batch ∈ inFlight, batch.samples r.requestId = true →
    r.numTokens ≤ r.numComputedTokens ∨ config.maxModelLen ≤ r.numTokens
  waits : r.status = .waitingForStreamingReq → ∀ batch ∈ inFlight, batch.samples r.requestId = false
  kept : d = .none → (r.status = .running ↔ r.requestId ∈ running)
  stopped : d = .preempted → r.status ≠ .running
  scheduled : ∀ n spec, d = .scheduled n spec → r.status = .running ∧ spec = [] ∧
    r.numComputedTokens + n ≤ r.numTokens ∧
    (r.requestId ∈ running → ∀ batch ∈ inFlight, batch.samples r.requestId = true →
      r.numComputedTokens + n < r.numTokens ∧ config.maxModelLen ≤ r.numTokens)

lemma ordered_rule : RecordRule config env (Ordered config inFlight running) where
  preempted := fun {d r} h hs =>
    ⟨rfl, h.placeholders, nofun, fun _ => h.tokens (by rw [hs]; rfl), nofun, nofun, nofun, fun _ => nofun, nofun⟩
  scheduled := fun {r enc budget encBudget n t} h hs hbudget hplan => by
    have hle := numNewTokensRunning_le config r budget
    have hplan := hplan.le
    have hph := h.placeholders
    have hwith : (r.numTokensWithSpec : ℤ) = r.numTokens := by
      rw [numTokensWithSpec, h.spec, length_nil, add_zero]
    refine ⟨rfl, hph, h.computed, h.tokens, h.full, h.waits, nofun, nofun, fun m spec hm => ?_⟩
    obtain ⟨rfl, rfl⟩ := Decision.scheduled.inj hm
    refine ⟨hs, ?_, ?_, fun hrun b hb hsamples => ?_⟩
    · unfold specTokensToSchedule
      dsimp only
      rw [h.spec, take_nil, ite_self]
    · change r.numComputedTokens + n ≤ (r.numTokens : ℤ)
      omega
    · -- with nothing left to compute only a request beyond the maximal length is scheduled
      have hcomputed := h.computed hs
      have hnonneg := @numNewTokensRunning_nonneg config budget r hbudget.le
      have hlong : config.maxModelLen ≤ r.numTokens := by
        rcases h.full hs hrun b hb hsamples with hfull | hlong
        · by_contra hshort
          have := hplan.2 (hnonneg (by omega) (by omega))
          omega
        · exact hlong
      change r.numComputedTokens + n < (r.numTokens : ℤ) ∧ config.maxModelLen ≤ r.numTokens
      omega
  compiled := fun {r} h hs => by
    have hout : r.requestId ∉ running := fun hid => by
      rw [(h.kept rfl).mpr hid] at hs
      cases hs
    exact ⟨h.spec, h.placeholders, nofun, fun _ => h.tokens (by rw [hs]; rfl), nofun, nofun,
      fun _ => ⟨nofun, fun hid => absurd hid hout⟩, nofun, nofun⟩
  received := fun {r} h _ hs n => by
    have hout : r.requestId ∉ running := fun hid => by
      rw [(h.kept rfl).mpr hid] at hs
      cases hs
    have htokens := h.tokens (by rw [hs]; rfl)
    by_cases hn : r.numPreemptions = 0
    · rw [if_neg (not_not.mpr hn)]
      exact ⟨h.spec, h.placeholders, nofun, fun _ => htokens, nofun, nofun,
        fun _ => ⟨nofun, fun hid => absurd hid hout⟩, nofun, nofun⟩
    · rw [if_pos hn]
      exact ⟨h.spec, h.placeholders, nofun, fun _ => htokens, nofun, nofun,
        fun _ => ⟨nofun, fun hid => absurd hid hout⟩, nofun, nofun⟩
  counted := fun {r} h hs _ n =>
    ⟨h.spec, h.placeholders, fun hr => absurd hr hs, h.tokens, fun hr => absurd hr hs, h.waits,
      h.kept, nofun, nofun⟩
  loading := fun {r} h hs _ =>
    ⟨h.spec, h.placeholders, nofun, fun _ => h.tokens hs.1, nofun, nofun,
      fun _ => ⟨nofun, fun hid => absurd ((h.kept rfl).mpr hid) hs.2.1⟩, nofun, nofun⟩
  admitted := fun {r k c n} h hs hc hpos hle => by
    have hfin : r.status.isFinished = false := by
      rcases hs with hs | hs <;> rw [hs] <;> rfl
    have hout : r.requestId ∉ running := fun hid => by
      rw [(h.kept rfl).mpr hid] at hs
      rcases hs with hs | hs <;> cases hs
    refine ⟨h.spec, h.placeholders, fun _ => ?_, fun _ => h.tokens hfin,
      fun _ hid => absurd hid hout, nofun, nofun, nofun, fun m spec hm => ?_⟩
    · change c.numComputedTokens ≤ (r.numTokens : ℤ)
      omega
    · obtain ⟨rfl, rfl⟩ := Decision.scheduled.inj hm
      refine ⟨rfl, rfl, ?_, fun hid => absurd hid hout⟩
      change c.numComputedTokens + n ≤ (r.numTokens : ℤ)
      omega

lemma Ordered.unscheduled {r : Request} (h : Ordered config inFlight running .none r ∨
    Ordered config inFlight running .preempted r) : r.InOrder config.maxModelLen inFlight := by
  rcases h with h | h
  · exact ⟨h.spec, h.placeholders, h.computed, h.tokens, fun hs => h.full hs ((h.kept rfl).mp hs), h.waits⟩
  · exact ⟨h.spec, h.placeholders, h.computed, h.tokens, fun hs => absurd hs (h.stopped rfl), h.waits⟩

lemma Applied.output {batch : SchedulerOutput} {out : ModelRunnerOutput} {r r' : Request}
    {newTokenIds : List TokenId} (h : Applied config batch out r newTokenIds true r') :
    out.sampledTokenIds r.requestId ≠ [] ∨ out.hasPoolerOutput r.requestId = true := by
  obtain ⟨s, k, -, happly⟩ := h.apply
  unfold applyTokens at happly
  split at happly
  · rename_i hne
    exact .inl hne
  · split at happly
    · rename_i hpool
      exact .inr (and_eq_true _ _ ▸ hpool).2
    · obtain ⟨-, hstopped, -⟩ := ok_quad_inj happly
      cases hstopped

end Scheduler

namespace Engine

open ScheduleLocals

variable {config : SchedulerConfig} {e e' : Engine}

structure Ordered (config : SchedulerConfig) (e : Engine) : Prop where
  sound : Sound config e
  inOrder : ∀ id r, e.scheduler.requests.get? id = some r → r.InOrder config.maxModelLen e.inFlight
  once : ∀ id, e.inFlight.Pairwise fun b b' => b.samples id = true → b'.samples id = false
  noSpec : ∀ batch ∈ e.inFlight, ∀ id, (batch.output.scheduledSpecDecodeTokens.get? id).getD [] = []
  snapshot : ∀ batch ∈ e.inFlight, ∀ id, batch.output.numScheduledTokens.contains id = true →
    ∃ r, batch.requests.get? id = some r
  complete : ∀ batch ∈ e.inFlight, ∀ id, batch.samples id = true →
    ∀ r ∈ batch.requests.get? id, r.numComputedTokens = r.numTokens

lemma Ordered.start (he : Ordered config e) : ∀ id r, e.scheduler.requests.get? id = some r →
      Scheduler.Ordered config e.inFlight e.scheduler.running .none r := by
  intro id r hr
  have h := he.inOrder id r hr
  have hid := he.sound.keys id r hr
  refine ⟨h.spec, h.placeholders, h.computed, h.tokens, fun hs _ => h.full hs, h.waits, fun _ => ?_, nofun, nofun⟩
  rw [hid]
  exact (he.sound.running_iff hr).symm

lemma Ordered.schedule {env : ScheduleEnv} {output : SchedulerOutput} {s' : Scheduler}
    (he : Ordered config e) (hsync : config.asyncScheduling = false) (hstarts : e.StartsLanded (.schedule env))
    (hsound : Sound config ⟨s', e.inFlight ++ [⟨output, s'.requests⟩]⟩)
    (h : e.scheduler.schedule env = .ok (output, s')) :
    Ordered config ⟨s', e.inFlight ++ [⟨output, s'.requests⟩]⟩ := by
  have hstep := he.sound.schedule ordered_rule he.start h
  have hlanded : ∀ id ∈ s'.running, id ∉ e.scheduler.running → ∀ b ∈ e.inFlight, b.samples id = false :=
    hstarts (output, s') (by rw [h]; rfl)
  have hkeys : KeysOk s'.requests := hsound.keys
  have hnew : ∀ id, Batch.samples ⟨output, s'.requests⟩ id = true → ∃ r n,
      Scheduler.Ordered config e.inFlight e.scheduler.running (.scheduled n []) r ∧
        s'.requests.get? id = some (r.advanced n) ∧ r.requestId = id ∧ r.numTokens ≤ r.numComputedTokens + n := by
    intro id hid
    obtain ⟨hcontains, r', hr', hchunk⟩ := Batch.samples_iff.mp hid
    obtain ⟨r, m, hr, heq⟩ := hstep.exists_scheduled hcontains
    obtain ⟨-, hspec, -⟩ := hr.scheduled _ _ rfl
    rw [hspec] at hr
    rw [afterSchedule_sync hsync] at heq
    obtain rfl := some.inj (hr'.symm.trans heq)
    have hid : (r.advanced m).requestId = id := hkeys id _ hr'
    refine ⟨r, m, hr, hr', hid, ?_⟩
    have hph := hr.placeholders
    simp only [advanced, hph, add_zero, decide_eq_false_iff_not, not_lt] at hchunk
    exact hchunk
  have hfresh : ∀ id, Batch.samples ⟨output, s'.requests⟩ id = true → ∀ b ∈ e.inFlight, b.samples id = false := by
    intro id hid b hb
    obtain ⟨r, n, hr, hr', rfl, hall⟩ := hnew id hid
    obtain ⟨hs, -, -, hbehind⟩ := hr.scheduled n [] rfl
    by_cases hrun : r.requestId ∈ e.scheduler.running
    · rw [← not_eq_true]
      intro hsamples
      have hlt := (hbehind hrun b hb hsamples).1
      omega
    · have hs' : (r.advanced n).status = .running := hs
      exact hlanded _ ((hsound.running_iff hr').mpr hs') hrun b hb
  refine ⟨hsound, fun id r' hr' => ?_, fun id => ?_, fun b hb id => ?_, fun b hb id hid => ?_,
    fun b hb id hid r hr => ?_⟩
  · have hr' : s'.requests.get? id = some r' := hr'
    have hid := hkeys id r' hr'
    cases hstep.record id r' hr' with
    | kept hnone hcase =>
      refine (Scheduler.Ordered.unscheduled hcase).join ?_
      unfold Batch.samples
      rw [hid, Dict.contains, hnone]
      rfl
    | @scheduled r n hn hr heq =>
      rw [afterSchedule_sync hsync] at heq
      subst heq
      have hid : r.requestId = id := hid
      obtain ⟨hs, -, hle, hbehind⟩ := hr.scheduled _ _ rfl
      have hs' : (r.advanced n).status = .running := hs
      refine ⟨hr.spec, hr.placeholders, fun _ => hle, fun hfin b hb hsamples scheduled hsch => ?_,
        fun _ b hb hsamples => ?_, fun hw => ?_⟩
      · rcases mem_append.mp hb with hb | hb
        · exact hr.tokens hfin b hb hsamples scheduled hsch
        · obtain rfl := mem_singleton.mp hb
          have hsch : s'.requests.get? r.requestId = some scheduled := hsch
          rw [hid, hr'] at hsch
          rw [← some.inj hsch]
      · rcases mem_append.mp hb with hb | hb
        · by_cases hrun : r.requestId ∈ e.scheduler.running
          · exact .inr (hbehind hrun b hb hsamples).2
          · have hno := hlanded id ((hsound.running_iff hr').mpr hs') (hid ▸ hrun) b hb
            have hsamples : b.samples r.requestId = true := hsamples
            rw [hid, hno] at hsamples
            cases hsamples
        · obtain rfl := mem_singleton.mp hb
          obtain ⟨r0, m, -, hr0', -, hall⟩ := hnew id (hid ▸ hsamples)
          rw [some.inj (hr'.symm.trans hr0')]
          exact .inl hall
      · rw [hs'] at hw
        cases hw
  · rw [pairwise_append]
    refine ⟨he.once id, pairwise_singleton _ _, fun b hb b' hb' hsamples => ?_⟩
    obtain rfl := mem_singleton.mp hb'
    rw [← not_eq_true]
    intro hnews
    rw [hfresh id hnews b hb] at hsamples
    cases hsamples
  · rcases mem_append.mp hb with hb | hb
    · exact he.noSpec b hb id
    · obtain rfl := mem_singleton.mp hb
      exact hstep.spec_eq_nil (fun _ _ _ hr => (hr.scheduled _ _ rfl).2.1) id
  · rcases mem_append.mp hb with hb | hb
    · exact he.snapshot b hb id hid
    · obtain rfl := mem_singleton.mp hb
      exact hstep.exists_record id hid
  · rcases mem_append.mp hb with hb | hb
    · exact he.complete b hb id hid r hr
    · obtain rfl := mem_singleton.mp hb
      obtain ⟨r0, n, hr0, hr', -, hall⟩ := hnew id hid
      obtain rfl := some.inj (hr'.symm.trans hr)
      obtain ⟨-, -, hle, -⟩ := hr0.scheduled n [] rfl
      change r0.numComputedTokens + n = (r0.numTokens : ℤ)
      omega

lemma Ordered.updateFromOutput {batch : Batch} {inFlight : List Batch} {out : ModelRunnerOutput}
    {connectorDelay : RequestId → Bool} {outputs : List EngineCoreOutput} {s' : Scheduler}
    (he : Ordered config e) (hsync : config.asyncScheduling = false)
    (hflight : e.inFlight = batch :: inFlight) (hop : e.FifoOp (.updateFromOutput out connectorDelay))
    (hsound : Sound config ⟨s', inFlight⟩)
    (h : e.scheduler.updateFromOutput batch.output out connectorDelay = .ok (outputs, s')) :
    Ordered config ⟨s', inFlight⟩ := by
  obtain ⟨hbefore, hinOrder, honce, hnoSpec, hsnapshot, hcomplete⟩ := he
  rw [hflight] at hinOrder honce hnoSpec hsnapshot hcomplete
  have hcontract := hop.2 batch (by rw [hflight]; rfl)
  -- the only batch that samples a token for the request is the one whose output has come
  have hlanded : ∀ id, batch.output.numScheduledTokens.contains id = true →
      out.sampledTokenIds id ≠ [] ∨ out.hasPoolerOutput id = true → ∀ b ∈ inFlight, b.samples id = false := by
    intro id hid hout b hb
    obtain ⟨r, hr⟩ := hsnapshot batch mem_cons_self id hid
    have hr' := hcontract id ((Dict.mem_keys_iff _ _).mpr hid) r hr
    refine rel_of_pairwise_cons (honce id) hb (Batch.samples_iff.mpr ⟨hid, r, hr, ?_⟩)
    by_contra hchunk
    rw [not_eq_false] at hchunk
    rw [if_pos hchunk] at hr'
    rcases hout with hout | hout
    · exact hout hr'.1
    · rw [hr'.2] at hout
      cases hout
  refine ⟨hsound, fun id r' hr' => ?_, fun id => (honce id).of_cons,
    fun b hb => hnoSpec b (mem_cons_of_mem _ hb), fun b hb => hsnapshot b (mem_cons_of_mem _ hb),
    fun b hb => hcomplete b (mem_cons_of_mem _ hb)⟩
  obtain ⟨r, hr, heffect⟩ := updateFromOutput_record h hbefore.keys hop.1 hr'
  have hinOrder := hinOrder id r hr
  rw [hbefore.config] at heffect
  have hspecs := hnoSpec batch mem_cons_self r.requestId
  cases heffect with
  | kept => exact hinOrder.tail
  | @goesOn new _ happlied =>
    obtain ⟨-, hgo, hashes, status, reason, rfl, hstatus, -⟩ := happlied.sync hsync hspecs
    obtain rfl := hstatus rfl
    have htokens := (hgo rfl).1
    by_cases hnil : new = []
    · subst hnil
      have htail := hinOrder.tail
      simp only [append_nil]
      exact ⟨htail.spec, htail.placeholders, htail.computed, htail.tokens, htail.full, htail.waits⟩
    · refine .of_landed hinOrder.spec hinOrder.placeholders (fun hs => ?_)
        (hlanded _ happlied.contains (.inl (htokens ▸ hnil)))
      have hcomputed := hinOrder.computed hs
      simp only [numTokens, length_append, Nat.cast_add] at hcomputed ⊢
      omega
  | ended happlied hfin =>
    obtain ⟨-, -, hashes, status, reason, rfl, -, -⟩ := happlied.sync hsync hspecs
    refine .of_landed hinOrder.spec hinOrder.placeholders (fun hs => ?_)
      (hlanded _ happlied.contains happlied.output)
    exact absurd hs (RequestStatus.ne_of_isFinished hfin rfl)
  | continued happlied hres hqueue hup =>
    have hlanded := hlanded _ happlied.contains happlied.output
    obtain ⟨-, -, hashes, status, reason, rfl, -, -⟩ := happlied.sync hsync hspecs
    obtain ⟨_, _, _, _, rfl⟩ := updateAsSession_record hup
    exact .of_landed hinOrder.spec hinOrder.placeholders nofun hlanded
  | waits happlied =>
    have hlanded := hlanded _ happlied.contains happlied.output
    obtain ⟨-, -, hashes, status, reason, rfl, -, -⟩ := happlied.sync hsync hspecs
    exact .of_landed hinOrder.spec hinOrder.placeholders nofun hlanded

lemma step_ordered {op : EngineOp} (h : e.step op = .ok e') (hsync : config.asyncScheduling = false)
    (hop : e.FifoOp op) (hstarts : e.StartsLanded op) (he : Ordered config e) : Ordered config e' := by
  have hfresh : AddsFresh op := by
    cases op with
    | addRequest => exact hop.1
    | _ => trivial
  have hsound := step_sound h hfresh he.sound
  have hkeys := he.sound.keys
  have hkeep : ∀ {s : Scheduler}, Sound config ⟨s, e.inFlight⟩ →
      (∀ id r', s.requests.get? id = some r' → r'.InOrder config.maxModelLen e.inFlight) →
      Ordered config ⟨s, e.inFlight⟩ :=
    fun hsound hs => ⟨hsound, hs, he.once, he.noSpec, he.snapshot, he.complete⟩
  cases step_stepped h with
  | @addRequest request connectorDelay s hs' =>
    refine hkeep hsound fun id r' hr' => ?_
    cases addRequest_record hs' hkeys hr' with
    | same hr => exact he.inOrder id r' hr
    | new hid hnone hr =>
      subst hid hr
      obtain ⟨hfresh, hflight⟩ := hop
      refine .of_landed hfresh.specTokenIds hfresh.numOutputPlaceholders (fun hs => ?_)
        fun b hb => ?_
      · have hs : request.status = .running := hs
        rcases hfresh.status with hw | hw <;> rw [hw] at hs <;> cases hs
      · change b.samples request.requestId = false
        unfold Batch.samples
        rw [hflight hnone b hb, Bool.false_and]
    | @queued r hid hr hstatus hr'' =>
      subst hr''
      have h := he.inOrder id r hr
      exact ⟨h.spec, h.placeholders, h.computed, h.tokens, h.full, h.waits⟩
    | @continued session update hid hr hstatus hupdate hup =>
      have h := he.inOrder id session hr
      obtain ⟨_, _, _, _, rfl⟩ := updateAsSession_record hup
      exact .of_landed h.spec h.placeholders nofun (h.waits hstatus)
    | @ended r hr hr'' =>
      subst hr''
      exact (he.inOrder id r hr).finished rfl
  | schedule hs' => exact he.schedule hsync hstarts hsound hs'
  | updateFromOutput hflight hs' => exact he.updateFromOutput hsync hflight hop hsound hs'
  | finishRequests hs' =>
    refine hkeep hsound fun id r' hr' => ?_
    obtain ⟨r, hr, rfl | ⟨hfin, rfl⟩⟩ := finishRequests_record hs' hkeys hr'
    · exact he.inOrder id r' hr
    · exact (he.inOrder id r hr).finished hfin
  | resetPrefixCache hs' =>
    refine hkeep hsound fun id r' hr' => ?_
    obtain ⟨r, hr, rfl | ⟨-, hs, rfl⟩⟩ := resetPrefixCache_record hs' hkeys hr'
    · exact he.inOrder id r' hr
    · have h := he.inOrder id r hr
      exact ⟨rfl, rfl, nofun, fun _ => h.tokens (by rw [hs]; rfl), nofun, nofun⟩
  | updateDraftTokenIds => exact absurd hop id
  | resetEncoderCache =>
    exact ⟨hsound, he.inOrder, he.once, he.noSpec, he.snapshot, he.complete⟩

/-- If no waiting request is started while a token of it is sampled, tokens are appended in order. -/
theorem reaches_appends_in_order {config : SchedulerConfig} {k : KVCacheManager} {c : EncoderCache}
    {e : Engine} {out : ModelRunnerOutput} {connectorDelay : RequestId → Bool}
    (hsync : config.asyncScheduling = false)
    (h : Reaches step (fun e op => e.FifoOp op ∧ e.StartsLanded op) (start config k c) e)
    (hop : e.FifoOp (.updateFromOutput out connectorDelay)) : e.AppendsInOrder out := by
  have he : Ordered config e := by
    refine h.invariant ?_ fun e op e' he hop hstep => step_ordered hstep hsync hop.1 hop.2 he
    exact ⟨start_sound k c, fun id r hr => (by cases hr), fun _ => .nil, nofun, nofun, nofun⟩
  intro batch hhead id hid r hr hfin htokens
  have hmem := mem_of_mem_head? hhead
  obtain ⟨scheduled, hsch⟩ := he.snapshot batch hmem id ((Dict.mem_keys_iff _ _).mp hid)
  have hchunk : scheduled.isPrefillChunk = false := by
    by_contra hchunk
    rw [not_eq_false] at hchunk
    have hcontract := hop.2 batch hhead id hid scheduled hsch
    rw [if_pos hchunk] at hcontract
    exact htokens hcontract.1
  have hsamples : batch.samples id = true :=
    Batch.samples_iff.mpr ⟨(Dict.mem_keys_iff _ _).mp hid, scheduled, hsch, hchunk⟩
  refine ⟨scheduled, hsch, ?_⟩
  have hcomplete := he.complete batch hmem id hsamples scheduled hsch
  have hsame := (he.inOrder id r hr).tokens hfin batch hmem
  rw [he.sound.keys id r hr] at hsame
  rw [hcomplete, ← hsame hsamples scheduled hsch, pyTake, if_pos (Int.natCast_nonneg _),
    Int.toNat_natCast, numTokens, take_length]

instance (batch : Batch) (out : ModelRunnerOutput) : Decidable (batch.SamplesOnce out) :=
  inferInstanceAs (Decidable (∀ id ∈ batch.output.numScheduledTokens.keys, ∀ r ∈ batch.requests.get? id,
      if r.isPrefillChunk then out.sampledTokenIds id = [] ∧ out.hasPoolerOutput id = false
      else (out.sampledTokenIds id).length ≤ 1))

instance (e : Engine) : (op : EngineOp) → Decidable (e.FifoOp op)
  | .addRequest request _ =>
    inferInstanceAs (Decidable (request.Fresh ∧
      (e.scheduler.requests.get? request.requestId = none → ∀ batch ∈ e.inFlight,
        batch.output.numScheduledTokens.contains request.requestId = false)))
  | .updateFromOutput out _ =>
    inferInstanceAs (Decidable (
      (out.kvConnectorOutput.map fun o => o.invalidBlockIds).getD [] = [] ∧
      ∀ batch ∈ e.inFlight.head?, batch.SamplesOnce out))
  | .updateDraftTokenIds _ => inferInstanceAs (Decidable False)
  | .schedule _ | .finishRequests _ _ _ | .resetPrefixCache _ _ _ | .resetEncoderCache =>
    inferInstanceAs (Decidable True)

instance (e : Engine) : (op : EngineOp) → Decidable (e.StartsLanded op)
  | .schedule env =>
    inferInstanceAs (Decidable (∀ result ∈ (e.scheduler.schedule env).toOption,
      ∀ id ∈ result.2.running, id ∉ e.scheduler.running → ∀ batch ∈ e.inFlight, batch.samples id = false))
  | .addRequest _ _ | .updateFromOutput _ _ | .finishRequests _ _ _ | .resetPrefixCache _ _ _
  | .updateDraftTokenIds _ | .resetEncoderCache => inferInstanceAs (Decidable True)

def chunkedConfig : SchedulerConfig := { smallConfig with longPrefillTokenThreshold := 4 }

def promptRequest (requestId : RequestId) (promptTokenIds : List TokenId) : Request where
  requestId := requestId
  promptTokenIds := some promptTokenIds
  numPromptTokens := promptTokenIds.length
  allTokenIds := promptTokenIds
  samplingParams := ⟨8, 0, false, []⟩
  maxTokens := 8

def sampledFor (requestId : RequestId) (tokenId : TokenId) : ModelRunnerOutput where
  sampledTokenIds := fun id => if id = requestId then [tokenId] else []

def twoChunks : List EngineOp :=
  [.addRequest (promptRequest "q" [1, 2, 3, 4, 5, 6]) (fun _ => false), .schedule {}, .schedule {},
    .updateFromOutput (sampledFor "r" 7) (fun _ => false)]

/-- "r" is preempted while its first token is sampled, resumed, and samples the token again. -/
def resumedEarly : List EngineOp :=
  [.addRequest (promptRequest "q" [1, 2, 3, 4, 5, 6, 7]) (fun _ => false),
    .addRequest (promptRequest "r" [1, 2]) (fun _ => false), .schedule {}, .schedule {},
    .finishRequests ["q"] .finishedAborted (fun _ => false), .schedule {},
    .updateFromOutput (sampledFor "r" 7) (fun _ => false),
    .updateFromOutput (sampledFor "r" 7) (fun _ => false)]

theorem reaches_appends_in_order_chunks : ∃ k e, smallCache = .ok k ∧
    Reaches step (fun e op => e.FifoOp op ∧ e.StartsLanded op)
      (start chunkedConfig k (.multiModal (.new 0))) e ∧
    e.inFlight.map (fun b => b.output.numScheduledTokens.entries) = [[("q", 2)]] ∧
    e.AppendsInOrder (sampledFor "q" 8) := by
  have hrun : (smallCache.toOption.bind fun k => runAllowed step
      (fun e op => e.FifoOp op ∧ e.StartsLanded op)
      (start chunkedConfig k (.multiModal (.new 0))) twoChunks).map (fun e =>
        (e.inFlight.map fun b => b.output.numScheduledTokens.entries,
          decide (e.FifoOp (.updateFromOutput (sampledFor "q" 8) (fun _ => false))))) =
      some ([[("q", 2)]], true) := by decide +kernel
  obtain ⟨k, e, hk, hreach, hstate⟩ := exists_reaches hrun
  obtain ⟨hflight, hop⟩ := Prod.mk.inj hstate
  have hsync : chunkedConfig.asyncScheduling = false := rfl
  exact ⟨k, e, hk, hreach, hflight, reaches_appends_in_order hsync hreach (of_decide_eq_true hop)⟩

set_option synthInstance.maxSize 512 in
/-- The second token is appended to the first, though it was sampled from the prompt. -/
theorem token_sampled_twice : ∃ k e, smallCache = .ok k ∧
    Reaches step (fun e op => e.FifoOp op) (start chunkedConfig k (.multiModal (.new 0))) e ∧
    e.FifoOp (.updateFromOutput (sampledFor "r" 7) (fun _ => false)) ∧
    ¬ e.AppendsInOrder (sampledFor "r" 7) := by
  have hrun : (smallCache.toOption.bind fun k => runAllowed step (fun e op => e.FifoOp op)
      (start chunkedConfig k (.multiModal (.new 0))) resumedEarly).map (fun e =>
        (e.inFlight.map (fun b => (b.output.numScheduledTokens.keys,
          (b.requests.get? "r").map fun r => (r.allTokenIds, r.numComputedTokens))),
          (e.scheduler.requests.get? "r").map fun r => (r.allTokenIds, r.status),
          decide (e.FifoOp (.updateFromOutput (sampledFor "r" 7) (fun _ => false))))) =
      some ([(["r"], some ([1, 2], 2))], some ([1, 2, 7], .running), true) := by decide +kernel
  obtain ⟨k, e, hk, hreach, hstate⟩ := exists_reaches hrun
  simp only [Prod.mk.injEq] at hstate
  obtain ⟨hflight, hrecord, hop⟩ := hstate
  refine ⟨k, e, hk, hreach, of_decide_eq_true hop, fun horder => ?_⟩
  obtain ⟨batch, rest, hcons, hbatch, -⟩ := map_eq_cons_iff.mp hflight
  obtain ⟨hids, hscheduled⟩ := Prod.mk.inj hbatch
  obtain ⟨r, hr, hrecord⟩ := map_eq_some_iff.mp hrecord
  obtain ⟨htokens, hstatus⟩ := Prod.mk.inj hrecord
  obtain ⟨rb, hrb, hsnapshot⟩ := map_eq_some_iff.mp hscheduled
  obtain ⟨hall, hcomputed⟩ := Prod.mk.inj hsnapshot
  obtain ⟨rb', hrb', hsame⟩ := horder batch (by rw [hcons]; rfl) "r"
    (by rw [hids]; exact mem_singleton_self _) r hr (by rw [hstatus]; rfl) (by decide)
  obtain rfl := some.inj (hrb.symm.trans hrb')
  rw [htokens, hall, hcomputed] at hsame
  exact absurd hsame (by decide)

end Engine

end CustomAi.Vllm
