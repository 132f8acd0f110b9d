import CustomAi.Vllm.EngineInvariant

/-!
# A running request can always move

Runs of the synchronous scheduler, where a batch is scheduled when no other one is in flight.
-/

namespace CustomAi.Vllm

open List Option Scheduler Request StreamingUpdate

/-- There is room for a token, and for all the tokens before `check_stop` looks at the length. -/
structure Request.Fits (maxModelLen : ℕ) (r : Request) : Prop where
  short : r.numTokens < maxModelLen
  minTokens : r.numTokens + r.samplingParams.minTokens ≤ maxModelLen + r.numOutputTokens

/-- Every prompt satisfies `fits` for its length and sampling parameters. -/
def Engine.PromptsFit (fits : ℤ → SamplingParams → Prop) (e : Engine) : EngineOp → Prop
  | .addRequest request _ =>
    (e.scheduler.requests.get? request.requestId = none → fits request.numTokens request.samplingParams) ∧
    ∀ session ∈ e.scheduler.requests.get? request.requestId, session.status = .waitingForStreamingReq →
      ∀ update ∈ StreamingUpdate.fromRequest request,
        fits (session.numComputedTokens + (update.promptTokenIds.getD []).length) update.samplingParams
  | .updateFromOutput out _ =>
    ∀ batch ∈ e.inFlight.head?, ∀ id ∈ batch.output.numScheduledTokens.keys,
      ∀ session ∈ e.scheduler.requests.get? id, ∀ next ∈ session.streamingQueue.head?, ∀ update ∈ next,
          Scheduler.stopsOn e.scheduler.config session (out.sampledTokenIds id)
            (out.hasPoolerOutput id) = true →
          fits (session.numComputedTokens + (update.promptTokenIds.getD []).length) update.samplingParams
  | _ => True

/-- One token for each request whose tokens were all computed, and none for the others. -/
def Batch.Sampled (batch : Batch) (out : ModelRunnerOutput) : Prop :=
  ∀ id ∈ batch.output.numScheduledTokens.keys, ∀ r ∈ batch.requests.get? id,
    (out.sampledTokenIds id).length = if r.isPrefillChunk then 0 else 1

/-- The calls of an engine that waits for each batch. -/
def Engine.SyncOp (e : Engine) : EngineOp → Prop
  | .addRequest request _ => request.Fresh ∧ request.poolingParams = false
  | .schedule _ => e.inFlight = []
  | .updateFromOutput out _ =>
    out.kvConnectorOutput = none ∧ ∀ batch ∈ e.inFlight.head?, batch.Sampled out
  | .updateDraftTokenIds _ => False
  | _ => True

/-- Spec tokens and placeholders are not used, and an unfinished request has room. -/
structure Request.Steady (maxModelLen : ℕ) (r : Request) : Prop where
  spec : r.specTokenIds = []
  placeholders : r.numOutputPlaceholders = 0
  pooling : r.poolingParams = false
  nonneg : 0 ≤ r.numComputedTokens
  fits : r.status.isFinished = false → r.status ≠ .waitingForStreamingReq → r.Fits maxModelLen

def Request.Moving (inFlight : List Batch) (r : Request) : Prop :=
  r.numComputedTokens < r.numTokens ∨ r.numComputedTokens = r.numTokens ∧
    ∃ batch ∈ inFlight, batch.output.numScheduledTokens.contains r.requestId = true ∧
      ∃ r' ∈ batch.requests.get? r.requestId, r'.isPrefillChunk = false

variable {maxModelLen : ℕ}

lemma Request.Fits.checkStop_of_full {r : Request} (h : r.Fits maxModelLen)
    {token : TokenId} (hfull : maxModelLen ≤ r.numTokens + 1) :
    ∃ status stopReason, checkStop { r with
        allTokenIds := r.allTokenIds ++ [token]
        outputTokenIds := r.outputTokenIds ++ [token] } maxModelLen =
      .ok (some (status, stopReason)) ∧ (status = .finishedLengthCapped ∨
        status = .finishedStopped ∧ (some token = r.eosTokenId ∨ token ∈ r.samplingParams.stopTokenIds)) := by
  have hmin := h.minTokens
  unfold checkStop
  rw [if_neg (by
    simp only [numOutputTokens, length_append, length_singleton] at hmin ⊢
    omega)]
  simp only [List.getLast?_append, List.getLast?_singleton, some_or]
  split
  · rename_i heos
    exact ⟨_, _, rfl, .inr ⟨rfl, .inl heos.2⟩⟩
  · split
    · rename_i hstop
      exact ⟨_, _, rfl, .inr ⟨rfl, .inr hstop⟩⟩
    · rw [if_pos (.inl (by
        simp only [numTokens, length_append, length_singleton] at hfull ⊢
        omega))]
      exact ⟨_, _, rfl, .inl rfl⟩

lemma StreamingUpdate.fits_updateAsSession {blockHasher : Option BlockHasher}
    {session updated : Request} {update : StreamingUpdate}
    (h : session.updateAsSession blockHasher update = .ok updated) (hnonneg : 0 ≤ session.numComputedTokens)
    (hshort : session.numComputedTokens + (update.promptTokenIds.getD []).length < maxModelLen)
    (hmin : session.numComputedTokens + (update.promptTokenIds.getD []).length +
      update.samplingParams.minTokens ≤ maxModelLen) : updated.Fits maxModelLen := by
  obtain ⟨_, _, _, _, rfl⟩ := updateAsSession_record h
  have hlen : (pyTake session.allTokenIds session.numComputedTokens).length ≤ session.numComputedTokens := by
    unfold pyTake
    rw [if_pos hnonneg, length_take]
    omega
  constructor
  · simp only [numTokens, length_append]
    omega
  · simp only [numTokens, numOutputTokens, length_append]
    omega

lemma Request.Fits.append {r r' : Request} {tokens : List TokenId}
    (h : r.Fits maxModelLen) (hall : r'.allTokenIds = r.allTokenIds ++ tokens)
    (hout : r'.outputTokenIds = r.outputTokenIds ++ tokens) (hparams : r'.samplingParams = r.samplingParams)
    (hstop : tokens ≠ [] → checkStop r' maxModelLen = .ok none) : r'.Fits maxModelLen := by
  have hn : r'.numTokens = r.numTokens + tokens.length := by
    rw [numTokens, numTokens, hall, length_append]
  have ho : r'.numOutputTokens = r.numOutputTokens + tokens.length := by
    rw [numOutputTokens, numOutputTokens, hout, length_append]
  have hmin := h.minTokens
  have hshort := h.short
  refine ⟨?_, by rw [hn, ho, hparams]; omega⟩
  by_cases hnil : tokens = []
  · rw [hn, hnil, length_nil]
    exact hshort
  · have hstop := hstop hnil
    unfold checkStop at hstop
    split at hstop
    · rename_i hlt
      rw [hparams] at hlt
      omega
    · split at hstop
      · cases hstop
      · split at hstop
        · cases hstop
        · split at hstop
          · cases hstop
          · split at hstop
            · cases hstop
            · rename_i hlen
              omega

namespace Scheduler

open ScheduleLocals

variable {config : SchedulerConfig} {env : ScheduleEnv}

structure Idle (config : SchedulerConfig) (d : Decision) (r : Request) : Prop where
  steady : r.Steady config.maxModelLen
  running : r.status = .running → r.numComputedTokens < r.numTokens
  scheduled : ∀ n spec, d = .scheduled n spec →
    r.status = .running ∧ spec = [] ∧ 0 < n ∧ r.numComputedTokens + n ≤ r.numTokens

lemma idle_rule (hconn : config.hasConnector = false) : RecordRule config env (Idle config) where
  preempted := fun {d r} h hs => by
    obtain ⟨-, hph, hpool, hnonneg, hfits⟩ := h.steady
    refine ⟨⟨rfl, hph, hpool, le_rfl, fun _ _ => ?_⟩, nofun, nofun⟩
    have hfits := hfits (by rw [hs]; rfl) (by rw [hs]; exact nofun)
    exact ⟨hfits.short, hfits.minTokens⟩
  scheduled := fun {r enc budget encBudget n t} h hs hbudget hplan => by
    obtain ⟨hspec, hph, hpool, hnonneg, hfits⟩ := h.steady
    have hroom := (hfits (by rw [hs]; rfl) (by rw [hs]; exact nofun))
    have hle := numNewTokensRunning_le config r budget
    have hplan := hplan.le
    have hrunning := h.running hs
    have hshort := hroom.short
    have hwith : (r.numTokensWithSpec : ℤ) = r.numTokens := by
      rw [numTokensWithSpec, hspec, length_nil, add_zero]
    refine ⟨⟨rfl, hph, hpool, hnonneg, fun _ _ => ⟨hroom.short, hroom.minTokens⟩⟩, h.running,
      fun m spec hm => ⟨hs, ?_⟩⟩
    obtain ⟨rfl, rfl⟩ := Decision.scheduled.inj hm
    have hpos : 0 < numNewTokensRunning config r budget := numNewTokensRunning_pos hbudget (by omega) (by omega)
    refine ⟨?_, hplan.2 hpos.le, ?_⟩
    · unfold specTokensToSchedule
      dsimp only
      rw [hspec, take_nil, ite_self]
    · change r.numComputedTokens + n ≤ (r.numTokens : ℤ)
      omega
  compiled := fun {r} h hs => by
    obtain ⟨hspec, hph, hpool, hnonneg, hfits⟩ := h.steady
    refine ⟨⟨hspec, hph, hpool, hnonneg, fun _ _ => ?_⟩, nofun, nofun⟩
    have hfits := hfits (by rw [hs]; rfl) (by rw [hs]; exact nofun)
    exact ⟨hfits.short, hfits.minTokens⟩
  received := fun _ hc => by
    rw [hconn] at hc
    cases hc
  counted := fun _ _ hc => by
    rw [hconn] at hc
    cases hc
  loading := fun _ _ hc => by
    rw [hconn] at hc
    cases hc
  admitted := fun {r k c n} h hs hc hpos hle => by
    obtain ⟨hspec, hph, hpool, hnonneg, hfits⟩ := h.steady
    have hroom : r.Fits config.maxModelLen := by
      rcases hs with hs | hs
      · exact hfits (by rw [hs]; rfl) (by rw [hs]; exact nofun)
      · exact hfits (by rw [hs]; rfl) (by rw [hs]; exact nofun)
    have htotal := hc.total
    refine ⟨⟨hspec, hph, hpool, ?_, fun _ _ => ⟨hroom.short, hroom.minTokens⟩⟩, fun _ => ?_,
      fun m spec hm => ⟨rfl, ?_⟩⟩
    · change 0 ≤ c.numComputedTokens
      omega
    · change c.numComputedTokens < (r.numTokens : ℤ)
      omega
    · obtain ⟨rfl, rfl⟩ := Decision.scheduled.inj hm
      refine ⟨rfl, hpos, ?_⟩
      change c.numComputedTokens + n ≤ (r.numTokens : ℤ)
      omega

end Scheduler

namespace Engine

open ScheduleLocals

variable {config : SchedulerConfig} {e e' : Engine}

/-- The prompt leaves room for a token, and for `min_tokens`. -/
def LeavesRoom (maxModelLen : ℕ) (length : ℤ) (params : SamplingParams) : Prop :=
  length < maxModelLen ∧ length + params.minTokens ≤ maxModelLen

structure Progress (config : SchedulerConfig) (e : Engine) : Prop where
  sound : Sound config e
  steady : ∀ id r, e.scheduler.requests.get? id = some r → r.Steady config.maxModelLen
  moving : ∀ id r, e.scheduler.requests.get? id = some r → r.status = .running → r.Moving e.inFlight
  flight : e.inFlight.length ≤ 1
  noSpec : ∀ batch ∈ e.inFlight, ∀ id, (batch.output.scheduledSpecDecodeTokens.get? id).getD [] = []

lemma Progress.schedule {env : ScheduleEnv} {output : SchedulerOutput} {s' : Scheduler}
    (he : Progress config e) (hsync : config.asyncScheduling = false)
    (hconn : config.hasConnector = false) (hflight : e.inFlight = [])
    (hsound : Sound config ⟨s', [⟨output, s'.requests⟩]⟩) (h : e.scheduler.schedule env = .ok (output, s')) :
    Progress config ⟨s', [⟨output, s'.requests⟩]⟩ := by
  have hstart : ∀ id r, e.scheduler.requests.get? id = some r → Scheduler.Idle config .none r := by
    intro id r hr
    refine ⟨he.steady id r hr, fun hs => ?_, nofun⟩
    have hmoving := he.moving id r hr hs
    rw [hflight] at hmoving
    exact hmoving.resolve_right fun ⟨_, b, hb, _⟩ => by cases hb
  have hstep := he.sound.schedule (idle_rule hconn) hstart h
  refine ⟨hsound, fun id r' hr' => ?_, fun id r' hr' hs' => ?_, le_rfl, fun b hb id => ?_⟩
  · cases hstep.record id r' hr' with
    | kept _ hidle => exact hidle.elim (fun h => h.steady) fun h => h.steady
    | @scheduled r n hn hidle hr =>
      rw [afterSchedule_sync hsync] at hr
      subst hr
      obtain ⟨-, -, hpos, hle⟩ := hidle.scheduled _ _ rfl
      obtain ⟨hspec, hph, hpool, hnonneg, hfits⟩ := hidle.steady
      refine ⟨hspec, hph, hpool, ?_, fun hfin hstream => ?_⟩
      · change 0 ≤ r.numComputedTokens + n
        omega
      · have hroom := hfits hfin hstream
        exact ⟨hroom.short, hroom.minTokens⟩
  · have hid := hsound.keys id r' hr'
    cases hstep.record id r' hr' with
    | kept _ hidle => exact .inl (hidle.elim (fun h => h.running hs') fun h => h.running hs')
    | @scheduled r n hn hidle hr =>
      rw [afterSchedule_sync hsync] at hr
      obtain ⟨-, -, hpos, hle⟩ := hidle.scheduled _ _ rfl
      have hph := hidle.steady.placeholders
      rcases Int.lt_or_eq_of_le hle with hlt | heq
      · rw [hr]
        exact .inl hlt
      · refine .inr ⟨?_, _, mem_singleton_self _, ?_, r', ?_, ?_⟩
        · rw [hr]
          exact heq
        · rw [hid, Dict.contains, hn]
          rfl
        · rw [hid]
          exact hr'
        · rw [hr]
          simp [advanced, hph, heq]
  · obtain rfl := mem_singleton.mp hb
    exact hstep.spec_eq_nil (fun _ _ _ hidle => (hidle.scheduled _ _ rfl).2.1) id

lemma Progress.updateFromOutput {batch : Batch} {inFlight : List Batch} {out : ModelRunnerOutput}
    {connectorDelay : RequestId → Bool} {outputs : List EngineCoreOutput} {s' : Scheduler}
    (he : Progress config e) (hsync : config.asyncScheduling = false)
    (hflight : e.inFlight = batch :: inFlight) (hop : e.SyncOp (.updateFromOutput out connectorDelay))
    (hfit : e.PromptsFit (LeavesRoom config.maxModelLen) (.updateFromOutput out connectorDelay))
    (hsound : Sound config ⟨s', inFlight⟩)
    (h : e.scheduler.updateFromOutput batch.output out connectorDelay = .ok (outputs, s')) :
    Progress config ⟨s', inFlight⟩ := by
  have hnil : inFlight = [] := by
    have hlen := he.flight
    rw [hflight, length_cons] at hlen
    exact length_eq_zero_iff.mp (by omega)
  subst hnil
  have hhead : batch ∈ e.inFlight.head? := by
    rw [hflight]
    rfl
  have hvalid : (out.kvConnectorOutput.map fun o => o.invalidBlockIds).getD [] = [] := by
    rw [hop.1]
    rfl
  have hspecs := he.noSpec batch (by rw [hflight]; exact mem_cons_self)
  have hconfig := he.sound.config
  have hcase : ∀ id r', s'.requests.get? id = some r' → r'.Steady config.maxModelLen ∧
      (r'.status = .running → r'.Moving []) := by
    intro id r' hr'
    obtain ⟨r, hr, heffect⟩ := updateFromOutput_record h he.sound.keys hvalid hr'
    have hid := he.sound.keys id r hr
    have hsteady := he.steady id r hr
    obtain ⟨hspec, hph, hpool, hnonneg, hfits⟩ := hsteady
    rw [hconfig] at heffect
    cases heffect with
    | kept hkept =>
      refine ⟨⟨hspec, hph, hpool, hnonneg, hfits⟩, fun hs => ?_⟩
      rcases he.moving id r' hr hs with hlt | ⟨-, b, hb, hcontains, -⟩
      · exact .inl hlt
      · rw [hflight, mem_singleton] at hb
        rw [hb] at hcontains
        rcases hkept with hno | hfin
        · rw [hno] at hcontains
          cases hcontains
        · exact absurd hs (RequestStatus.ne_of_isFinished hfin rfl)
    | goesOn happlied =>
      obtain ⟨-, hgo, hashes, status, reason, rfl, hstatus, -⟩ := happlied.sync hsync (hspecs _)
      obtain rfl := hstatus rfl
      obtain ⟨htokens, hcheck⟩ := hgo rfl
      refine ⟨⟨hspec, hph, hpool, hnonneg, fun hfin hstream =>
        (hfits hfin hstream).append rfl rfl rfl hcheck⟩, fun hs => .inl ?_⟩
      simp only [numTokens, length_append, Nat.cast_add]
      rcases he.moving id r hr hs with hlt | ⟨heq, b, hb, -, rb, hrb, hchunk⟩
      · rw [numTokens] at hlt
        omega
      · rw [hflight, mem_singleton] at hb
        rw [hb] at hrb
        have hlen := hop.2 batch hhead r.requestId
          ((Dict.mem_keys_iff _ _).mpr happlied.contains) rb hrb
        rw [hchunk, if_neg Bool.false_ne_true, ← htokens] at hlen
        rw [numTokens] at heq
        omega
    | ended happlied hfin =>
      obtain ⟨-, -, hashes, status, reason, rfl, -, -⟩ := happlied.sync hsync (hspecs _)
      have hfin : status.isFinished = true := hfin
      refine ⟨⟨hspec, hph, hpool, hnonneg, fun hunfin _ => ?_⟩, fun hs => ?_⟩
      · have hunfin : status.isFinished = false := hunfin
        rw [hfin] at hunfin
        cases hunfin
      · exact absurd hs (RequestStatus.ne_of_isFinished hfin rfl)
    | @continued new r1 updated update rest happlied hres hqueue hup =>
      have hstops : stopsOn e.scheduler.config r (out.sampledTokenIds id)
          (out.hasPoolerOutput id) = true := by
        obtain ⟨s, k, hs, happly⟩ := happlied.apply
        rw [← hid, hconfig, ← hs, ← stopsOn_rejected s.config batch.output]
        exact (applyTokens_stops happly).symm
      obtain ⟨-, -, hashes, status, reason, rfl, -, -⟩ := happlied.sync hsync (hspecs _)
      have hroom := hfit batch hhead id ((Dict.mem_keys_iff _ _).mpr (hid ▸ happlied.contains)) r hr
        (some update) (by simp [show r.streamingQueue = some update :: rest from hqueue]) update rfl
        hstops
      have hupdated := fits_updateAsSession hup hnonneg hroom.1 hroom.2
      obtain ⟨_, _, _, _, rfl⟩ := updateAsSession_record hup
      exact ⟨⟨hspec, hph, hpool, hnonneg, fun _ _ => hupdated⟩, nofun⟩
    | waits happlied =>
      obtain ⟨-, -, hashes, status, reason, rfl, -, -⟩ := happlied.sync hsync (hspecs _)
      exact ⟨⟨hspec, hph, hpool, hnonneg, fun _ hstream => absurd rfl hstream⟩, nofun⟩
  exact ⟨hsound, fun id r' hr' => (hcase id r' hr').1, fun id r' hr' => (hcase id r' hr').2, Nat.zero_le _, nofun⟩

lemma step_progress {op : EngineOp} (h : e.step op = .ok e')
    (hsync : config.asyncScheduling = false) (hconn : config.hasConnector = false) (hop : e.SyncOp op)
    (hfit : e.PromptsFit (LeavesRoom config.maxModelLen) op) (he : Progress config e) : Progress config e' := by
  have hfresh : AddsFresh op := by
    cases op with
    | addRequest => exact hop.1
    | _ => trivial
  have hsound := step_sound h hfresh he.sound
  have hkeys := he.sound.keys
  have hkeep : ∀ {s : Scheduler}, Sound config ⟨s, e.inFlight⟩ →
      (∀ id r', s.requests.get? id = some r' → r'.Steady config.maxModelLen ∧
        (r'.status = .running → r'.Moving e.inFlight)) → Progress config ⟨s, e.inFlight⟩ :=
    fun hsound hs => ⟨hsound, fun id r hr => (hs id r hr).1, fun id r hr => (hs id r hr).2, he.flight, he.noSpec⟩
  have hsame : ∀ id r, e.scheduler.requests.get? id = some r → r.Steady config.maxModelLen ∧
      (r.status = .running → r.Moving e.inFlight) :=
    fun id r hr => ⟨he.steady id r hr, he.moving id r hr⟩
  have hfinished : ∀ {r : Request} {status : RequestStatus}, r.Steady config.maxModelLen →
      status.isFinished = true → Request.Steady config.maxModelLen { r with status } ∧
        (status = .running → Request.Moving e.inFlight { r with status }) := by
    intro r status hr hfin
    refine ⟨⟨hr.spec, hr.placeholders, hr.pooling, hr.nonneg, fun hunfin => ?_⟩, fun hs => ?_⟩
    · have hunfin : status.isFinished = false := hunfin
      rw [hfin] at hunfin
      cases hunfin
    · rw [hs] at hfin
      cases hfin
  cases step_stepped h with
  | @addRequest request connectorDelay s hs' =>
    refine hkeep hsound fun id r' hr' => ?_
    cases addRequest_record hs' hkeys hr' with
    | same hr => exact hsame id r' hr
    | new hid hnone hr =>
      subst hid hr
      obtain ⟨hfresh, hpool⟩ := hop
      obtain ⟨hshort, hmin⟩ := hfit.1 hnone
      refine ⟨⟨hfresh.specTokenIds, hfresh.numOutputPlaceholders, hpool,
        hfresh.numComputedTokens.ge, fun _ _ => ⟨?_, ?_⟩⟩, fun hs => ?_⟩
      · exact_mod_cast hshort
      · change request.numTokens + request.samplingParams.minTokens ≤ _
        omega
      · have hs : request.status = .running := hs
        rcases hfresh.status with hw | hw <;> rw [hw] at hs <;> cases hs
    | @queued r hid hr hstatus hr'' =>
      subst hr''
      obtain ⟨⟨hspec, hph, hpool, hnonneg, hfits⟩, hmoving⟩ := hsame id r hr
      exact ⟨⟨hspec, hph, hpool, hnonneg, fun hfin hstream =>
        ⟨(hfits hfin hstream).short, (hfits hfin hstream).minTokens⟩⟩, hmoving⟩
    | @continued session update hid hr hstatus hupdate hup =>
      subst hid
      obtain ⟨hspec, hph, hpool, hnonneg, -⟩ := he.steady _ session hr
      have hroom := hfit.2 session hr hstatus update hupdate
      have hupdated := fits_updateAsSession hup hnonneg hroom.1 hroom.2
      obtain ⟨_, _, _, _, rfl⟩ := updateAsSession_record hup
      exact ⟨⟨hspec, hph, hpool, hnonneg, fun _ _ => hupdated⟩, nofun⟩
    | @ended r hr hr'' =>
      subst hr''
      exact hfinished (he.steady id r hr) rfl
  | schedule hs' =>
    have hflight : e.inFlight = [] := hop
    rw [hflight, nil_append] at hsound ⊢
    exact he.schedule hsync hconn hflight hsound hs'
  | updateFromOutput hflight hs' =>
    exact he.updateFromOutput hsync hflight hop hfit hsound hs'
  | finishRequests hs' =>
    refine hkeep hsound fun id r' hr' => ?_
    obtain ⟨r, hr, rfl | ⟨hfin, rfl⟩⟩ := finishRequests_record hs' hkeys hr'
    · exact hsame id r' hr
    · exact hfinished (he.steady id r hr) hfin
  | resetPrefixCache hs' =>
    refine hkeep hsound fun id r' hr' => ?_
    obtain ⟨r, hr, rfl | ⟨-, hs, rfl⟩⟩ := resetPrefixCache_record hs' hkeys hr'
    · exact hsame id r' hr
    · obtain ⟨-, hph, hpool, hnonneg, hfits⟩ := he.steady id r hr
      have hroom := hfits (by rw [hs]; rfl) (by rw [hs]; exact nofun)
      exact ⟨⟨rfl, rfl, hpool, le_rfl, fun _ _ => ⟨hroom.short, hroom.minTokens⟩⟩, nofun⟩
  | updateDraftTokenIds => exact absurd hop id
  | resetEncoderCache => exact ⟨hsound, he.steady, he.moving, he.flight, he.noSpec⟩

lemma reaches_progress {k : KVCacheManager} {c : EncoderCache}
    (hsync : config.asyncScheduling = false) (hconn : config.hasConnector = false)
    (h : Reaches step (fun e op => e.SyncOp op ∧ e.PromptsFit (LeavesRoom config.maxModelLen) op)
      (start config k c) e) : Progress config e := by
  refine h.invariant ?_ fun e op e' he hop hstep => step_progress hstep hsync hconn hop.1 hop.2 he
  exact ⟨start_sound k c, fun id r hr => (by cases hr), fun id r hr => (by cases hr), Nat.zero_le 1, nofun⟩

end Engine

/-- Every running request has room and tokens to compute, and gets some whenever budget remains. -/
def Scheduler.RunningCanMove (s : Scheduler) : Prop :=
  ∀ id ∈ s.running, ∃ r, s.requests.get? id = some r ∧ r.numTokens < s.config.maxModelLen ∧
    r.numComputedTokens < r.numTokens ∧ ∀ tokenBudget > 0, 0 < numNewTokensRunning s.config r tokenBudget

/-- Only a finished request, or a session that waits for input, has reached the maximal length. -/
def Scheduler.FullFinished (s : Scheduler) : Prop :=
  ∀ id r, s.requests.get? id = some r → s.config.maxModelLen ≤ r.numTokens →
    r.status.isFinished = true ∨ r.status = .waitingForStreamingReq

/-- The token that reaches the maximal length finishes the request, with a length cap or as a stop
token. -/
def Scheduler.CapsLength (s : Scheduler) : Prop :=
  ∀ id r, s.requests.get? id = some r → r.status.isFinished = false →
    r.status ≠ .waitingForStreamingReq → ∀ token, s.config.maxModelLen ≤ r.numTokens + 1 →
      ∃ status stopReason, checkStop { r with
          allTokenIds := r.allTokenIds ++ [token]
          outputTokenIds := r.outputTokenIds ++ [token] } s.config.maxModelLen =
        .ok (some (status, stopReason)) ∧ (status = .finishedLengthCapped ∨
          status = .finishedStopped ∧ (some token = r.eosTokenId ∨ token ∈ r.samplingParams.stopTokenIds))

namespace Engine

/-- If every prompt leaves room for `min_tokens`, running requests can move, and those at the
maximal length are finished. -/
theorem reaches_running_can_move {config : SchedulerConfig} {k : KVCacheManager} {c : EncoderCache}
    {e e' : Engine} {out : ModelRunnerOutput} {connectorDelay : RequestId → Bool}
    (hsync : config.asyncScheduling = false) (hconn : config.hasConnector = false)
    (h : Reaches step (fun e op => e.SyncOp op ∧ e.PromptsFit (LeavesRoom config.maxModelLen) op)
      (start config k c) e) (hop : e.SyncOp (.updateFromOutput out connectorDelay))
    (hfit : e.PromptsFit (LeavesRoom config.maxModelLen) (.updateFromOutput out connectorDelay))
    (hstep : e.step (.updateFromOutput out connectorDelay) = .ok e') :
    e.scheduler.CapsLength ∧ e'.scheduler.RunningCanMove ∧ e'.scheduler.FullFinished := by
  have he := reaches_progress hsync hconn h
  have he' := step_progress hstep hsync hconn hop hfit he
  have hflight : e'.inFlight = [] := by
    cases step_stepped hstep with
    | updateFromOutput hflight =>
      have hlen := he.flight
      rw [hflight, length_cons] at hlen
      exact length_eq_zero_iff.mp (by dsimp only; omega)
  refine ⟨fun id r hr hfin hstream token hfull => ?_, fun id hid => ?_, fun id r hr hlen => ?_⟩
  · rw [he.sound.config] at hfull ⊢
    exact ((he.steady id r hr).fits hfin hstream).checkStop_of_full hfull
  · obtain ⟨r, hr, hs⟩ := he'.sound.exists_of_mem hid
    have hsteady := he'.steady id r hr
    have hroom := hsteady.fits (by rw [hs]; rfl) (by rw [hs]; exact nofun)
    have hshort := hroom.short
    have hmore : r.numComputedTokens < r.numTokens := by
      refine (he'.moving id r hr hs).resolve_right fun ⟨_, b, hb, _⟩ => ?_
      rw [hflight] at hb
      cases hb
    refine ⟨r, hr, ?_, hmore, fun budget hbudget => ?_⟩
    · rw [he'.sound.config]
      exact hshort
    · rw [he'.sound.config]
      have hph := hsteady.placeholders
      have hwith : r.numTokens ≤ r.numTokensWithSpec := Nat.le_add_right _ _
      exact ScheduleLocals.numNewTokensRunning_pos hbudget (by omega) (by omega)
  · by_contra hno
    rw [not_or, Bool.not_eq_true] at hno
    have hshort := ((he'.steady id r hr).fits hno.1 hno.2).short
    rw [he'.sound.config] at hlen
    omega

instance (batch : Batch) (out : ModelRunnerOutput) : Decidable (batch.Sampled out) :=
  inferInstanceAs (Decidable (∀ id ∈ batch.output.numScheduledTokens.keys, ∀ r ∈ batch.requests.get? id,
      (out.sampledTokenIds id).length = if r.isPrefillChunk then 0 else 1))

instance (e : Engine) : (op : EngineOp) → Decidable (e.SyncOp op)
  | .addRequest request _ =>
    inferInstanceAs (Decidable (request.Fresh ∧ request.poolingParams = false))
  | .schedule _ => decidable_of_iff (e.inFlight.isEmpty = true) isEmpty_iff
  | .updateFromOutput out _ => decidable_of_iff (out.kvConnectorOutput.isNone = true ∧
      ∀ batch ∈ e.inFlight.head?, batch.Sampled out) (by rw [isNone_iff_eq_none]; rfl)
  | .updateDraftTokenIds _ => inferInstanceAs (Decidable False)
  | .finishRequests _ _ _ | .resetPrefixCache _ _ _ | .resetEncoderCache =>
    inferInstanceAs (Decidable True)

instance (fits : ℤ → SamplingParams → Prop) [∀ n p, Decidable (fits n p)] (e : Engine) :
    (op : EngineOp) → Decidable (e.PromptsFit fits op)
  | .addRequest request _ =>
    inferInstanceAs (Decidable ((e.scheduler.requests.get? request.requestId = none →
      fits request.numTokens request.samplingParams) ∧
      ∀ session ∈ e.scheduler.requests.get? request.requestId, session.status = .waitingForStreamingReq →
        ∀ update ∈ StreamingUpdate.fromRequest request,
          fits (session.numComputedTokens + (update.promptTokenIds.getD []).length) update.samplingParams))
  | .updateFromOutput out _ =>
    inferInstanceAs (Decidable (∀ batch ∈ e.inFlight.head?,
      ∀ id ∈ batch.output.numScheduledTokens.keys, ∀ session ∈ e.scheduler.requests.get? id,
        ∀ next ∈ session.streamingQueue.head?, ∀ update ∈ next,
          Scheduler.stopsOn e.scheduler.config session (out.sampledTokenIds id)
            (out.hasPoolerOutput id) = true →
          fits (session.numComputedTokens + (update.promptTokenIds.getD []).length) update.samplingParams))
  | .schedule _ | .finishRequests _ _ _ | .resetPrefixCache _ _ _ | .updateDraftTokenIds _
  | .resetEncoderCache => inferInstanceAs (Decidable True)

instance (maxModelLen : ℕ) (n : ℤ) (params : SamplingParams) :
    Decidable (LeavesRoom maxModelLen n params) :=
  inferInstanceAs (Decidable (_ ∧ _))

def shortConfig : SchedulerConfig := { smallConfig with maxModelLen := 5 }

def threeTokens (maxTokens minTokens : ℕ) : Request where
  requestId := "r"
  promptTokenIds := some [1, 2, 3]
  numPromptTokens := 3
  allTokenIds := [1, 2, 3]
  samplingParams := ⟨maxTokens, minTokens, false, []⟩
  maxTokens := maxTokens

def firstToken (maxTokens minTokens : ℕ) : List EngineOp :=
  [.addRequest (threeTokens maxTokens minTokens) (fun _ => false), .schedule {},
    .updateFromOutput (sampled 7) (fun _ => false)]

theorem reaches_running_can_move_small : ∃ k e e', smallCache = .ok k ∧
    Reaches step (fun e op => e.SyncOp op ∧ e.PromptsFit (LeavesRoom 5) op)
      (start shortConfig k (.multiModal (.new 0))) e ∧
    e.step (.updateFromOutput (sampled 7) (fun _ => false)) = .ok e' ∧
    e'.scheduler.running = ["r"] ∧
    e.scheduler.CapsLength ∧ e'.scheduler.RunningCanMove ∧ e'.scheduler.FullFinished := by
  have hrun : (smallCache.toOption.bind fun k => runAllowed step
      (fun e op => e.SyncOp op ∧ e.PromptsFit (LeavesRoom 5) op)
      (start shortConfig k (.multiModal (.new 0)))
      ((firstToken 2 2).take 2)).map (fun e => (decide
        (e.SyncOp (.updateFromOutput (sampled 7) (fun _ => false)) ∧
          e.PromptsFit (LeavesRoom 5) (.updateFromOutput (sampled 7) (fun _ => false))),
        (e.step (.updateFromOutput (sampled 7) (fun _ => false))).toOption.map
          fun e' => e'.scheduler.running)) = some (true, some ["r"]) := by decide +kernel
  obtain ⟨k, e, hk, hreach, hstate⟩ := exists_reaches hrun
  obtain ⟨hallowed, hstep⟩ := Prod.mk.inj hstate
  obtain ⟨e', he', hrunning⟩ := map_eq_some_iff.mp hstep
  obtain ⟨hop, hfit⟩ := of_decide_eq_true hallowed
  have hstep' := eq_ok_of_toOption he'
  have hsync : shortConfig.asyncScheduling = false := rfl
  have hconn : shortConfig.hasConnector = false := rfl
  exact ⟨k, e, e', hk, hreach, hstep', hrunning, reaches_running_can_move hsync hconn hreach hop hfit hstep'⟩

/-- With `min_tokens` 4 the request grows to the maximal length and never stops. -/
theorem running_stuck : ∃ k e e', smallCache = .ok k ∧ Reaches step (fun e op => e.SyncOp op ∧ e.PromptsFit
      (fun n params => n < 5 ∧ params.minTokens ≤ params.maxTokens) op)
      (start shortConfig k (.multiModal (.new 0))) e ∧
    e.step (.updateFromOutput (sampled 7) (fun _ => false)) = .ok e' ∧
    ¬ e'.scheduler.RunningCanMove ∧ ¬ e'.scheduler.FullFinished := by
  have hrun : (smallCache.toOption.bind fun k => runAllowed step
      (fun e op => e.SyncOp op ∧ e.PromptsFit
        (fun n params => n < 5 ∧ params.minTokens ≤ params.maxTokens) op)
      (start shortConfig k (.multiModal (.new 0)))
      (firstToken 4 4 ++ [.schedule {}])).map (fun e =>
        (e.step (.updateFromOutput (sampled 7) (fun _ => false))).toOption.map fun e' =>
          (e'.scheduler.running, e'.scheduler.config.maxModelLen,
            (e'.scheduler.requests.get? "r").map fun r => (r.numTokens, r.status))) =
      some (some (["r"], 5, some (5, .running))) := by decide +kernel
  obtain ⟨k, e, hk, hreach, hstep⟩ := exists_reaches hrun
  obtain ⟨e', he', hstate⟩ := map_eq_some_iff.mp hstep
  simp only [Prod.mk.injEq] at hstate
  obtain ⟨hrunning, hlen, hrecord⟩ := hstate
  obtain ⟨r, hr, hrecord⟩ := map_eq_some_iff.mp hrecord
  obtain ⟨htokens, hstatus⟩ := Prod.mk.inj hrecord
  refine ⟨k, e, e', hk, hreach, eq_ok_of_toOption he', fun hmove => ?_, fun hfull => ?_⟩
  · obtain ⟨r', hr', hshort, -⟩ := hmove "r" (by rw [hrunning]; exact mem_singleton_self _)
    obtain rfl := some.inj (hr.symm.trans hr')
    rw [htokens, hlen] at hshort
    exact lt_irrefl _ hshort
  · rcases hfull "r" r hr (by rw [htokens, hlen]) with hfin | hstream
    · rw [hstatus] at hfin
      cases hfin
    · rw [hstatus] at hstream
      cases hstream

end Engine

end CustomAi.Vllm
