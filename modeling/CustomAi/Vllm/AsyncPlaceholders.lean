import CustomAi.Vllm.EngineInvariant

/-!
# Placeholders of the asynchronous scheduler

A request has a placeholder for every token that a batch in flight may still bring it.
-/

namespace CustomAi.Vllm

open List Option Scheduler Request

/-- The most tokens each batch in flight can bring: one, and one for each spec token. -/
def tokensInFlight (inFlight : List Batch) (id : RequestId) : List ℕ :=
  (inFlight.filter fun batch => batch.samples id).map fun batch =>
    1 + ((batch.output.scheduledSpecDecodeTokens.get? id).getD []).length

/-- The model runner returns a sampled token and the accepted spec tokens, and nothing for a prefill
chunk. -/
def Batch.SamplesDrafts (batch : Batch) (out : ModelRunnerOutput) : Prop :=
  ∀ id ∈ batch.output.numScheduledTokens.keys, ∀ r ∈ batch.requests.get? id,
    if r.isPrefillChunk then out.sampledTokenIds id = [] ∧ out.hasPoolerOutput id = false
    else if r.poolingParams then out.sampledTokenIds id = [] ∧ out.hasPoolerOutput id = true
    else out.sampledTokenIds id ≠ [] ∧ (out.sampledTokenIds id).length ≤
      1 + ((batch.output.scheduledSpecDecodeTokens.get? id).getD []).length

/-- The calls of an engine loop. A new request does not take the id of one that is still in
flight. -/
def Engine.AsyncOp (e : Engine) : EngineOp → Prop
  | .addRequest request _ => request.Fresh ∧ (e.scheduler.requests.get? request.requestId = none →
      ∀ batch ∈ e.inFlight, batch.output.numScheduledTokens.contains request.requestId = false)
  | .updateFromOutput out _ => ∀ batch ∈ e.inFlight.head?, batch.SamplesDrafts out
  | _ => True

/-- The output stops a session before its last token, or by a pooler output. -/
def CutsSession (s : Scheduler) (out : ModelRunnerOutput) (id : RequestId) : Prop :=
  ∃ request, s.requests.get? id = some request ∧ request.status.isFinished = false ∧
    request.resumable = true ∧ Scheduler.stopsOn s.config request
      (out.sampledTokenIds id).dropLast (out.hasPoolerOutput id) = true

/-- At a reset just one token of each running request is in flight. No KV load has failed, and no
session is cut. -/
def Engine.Settled (e : Engine) : EngineOp → Prop
  | .resetPrefixCache true _ _ =>
    ∀ id ∈ e.scheduler.running, tokensInFlight e.inFlight id = [1]
  | .updateFromOutput out _ =>
    (out.kvConnectorOutput.map fun o => o.invalidBlockIds).getD [] = [] ∧
      ∀ batch ∈ e.inFlight.head?, ∀ id ∈ batch.output.numScheduledTokens.keys,
        ¬CutsSession e.scheduler out id
  | _ => True

/-- The placeholders are for the tokens in flight, without the one that will be dropped. -/
def Engine.PlaceholdersAccounted (e : Engine) : Prop :=
  ∀ id r, e.scheduler.requests.get? id = some r → r.status.isFinished = false →
    0 ≤ r.numOutputPlaceholders ∧ r.numOutputPlaceholders =
      (if r.discardLatestAsyncTokens then (tokensInFlight e.inFlight id).tail
        else tokensInFlight e.inFlight id).sum

/-- The engine, with the number of batches in flight from before the last reset that preempted. -/
structure Tracked where
  engine : Engine
  beforeReset : RequestId → ℕ

namespace Tracked

def start (config : SchedulerConfig) (kvCacheManager : KVCacheManager)
    (encoderCache : EncoderCache) : Tracked :=
  ⟨.start config kvCacheManager encoderCache, fun _ => 0⟩

def track (t : Tracked) : EngineOp → RequestId → ℕ
  | .resetPrefixCache true _ _ => fun id =>
    if id ∈ t.engine.scheduler.running then t.engine.inFlight.length else t.beforeReset id
  | .updateFromOutput _ _ => fun id => t.beforeReset id - 1
  | _ => t.beforeReset

def step (t : Tracked) (op : EngineOp) : Except PyError Tracked := do
  let engine ← t.engine.step op
  return ⟨engine, t.track op⟩

/-- An output drops just the tokens of requests that its batch had when a reset preempted them. -/
def DropsEarlier (t : Tracked) (out : ModelRunnerOutput) : Prop :=
  ∀ batch ∈ t.engine.inFlight.head?, ∀ id ∈ batch.output.numScheduledTokens.keys,
    ∀ r ∈ t.engine.scheduler.requests.get? id, r.status.isFinished = false →
      out.sampledTokenIds id ≠ [] → (r.discardLatestAsyncTokens = true ↔ 0 < t.beforeReset id)

end Tracked

variable {inFlight : List Batch} {batch : Batch} {id : RequestId}

lemma tokensInFlight_append (inFlight inFlight' : List Batch) (id : RequestId) :
    tokensInFlight (inFlight ++ inFlight') id = tokensInFlight inFlight id ++ tokensInFlight inFlight' id := by
  rw [tokensInFlight, filter_append, map_append]
  rfl

lemma tokensInFlight_cons_of_samples (h : batch.samples id = true) : tokensInFlight (batch :: inFlight) id =
      (1 + ((batch.output.scheduledSpecDecodeTokens.get? id).getD []).length) :: tokensInFlight inFlight id := by
  rw [tokensInFlight, filter_cons, if_pos h, map_cons]
  rfl

lemma tokensInFlight_cons_of_not_samples (h : batch.samples id = false) :
    tokensInFlight (batch :: inFlight) id = tokensInFlight inFlight id := by
  rw [tokensInFlight, filter_cons, if_neg (by rw [h]; exact Bool.false_ne_true)]
  rfl

/-- What holds of an unfinished request, given the batches in flight from before the last reset. -/
structure Request.Accounted (inFlight : List Batch) (beforeReset : ℕ) (r : Request) : Prop where
  placeholders : r.numOutputPlaceholders = (tokensInFlight (inFlight.drop beforeReset) r.requestId).sum
  dropped : tokensInFlight (inFlight.take beforeReset) r.requestId = if r.discardLatestAsyncTokens then [1] else []
  pooling : ∀ batch ∈ inFlight, batch.samples r.requestId = true →
    ∀ scheduled ∈ batch.requests.get? r.requestId, scheduled.poolingParams = r.poolingParams

namespace Request.Accounted

variable {n : ℕ} {r r' : Request}

lemma congr (h : r.Accounted inFlight n) (hid : r'.requestId = r.requestId)
    (hph : r'.numOutputPlaceholders = r.numOutputPlaceholders)
    (hdiscard : r'.discardLatestAsyncTokens = r.discardLatestAsyncTokens)
    (hpooling : r'.poolingParams = r.poolingParams) : r'.Accounted inFlight n := by
  obtain ⟨h1, h2, h3⟩ := h
  constructor
  · rw [hid, hph, h1]
  · rw [hid, hdiscard, h2]
  · rw [hid, hpooling]
    exact h3

lemma of_landed (hph : r.numOutputPlaceholders = 0) (hdiscard : r.discardLatestAsyncTokens = false)
    (hlanded : ∀ batch ∈ inFlight, batch.samples r.requestId = false) : r.Accounted inFlight n := by
  have hnone : ∀ l : List Batch, (∀ b ∈ l, b ∈ inFlight) → tokensInFlight l r.requestId = [] := by
    intro l hl
    rw [tokensInFlight, filter_eq_nil_iff.mpr fun b hb => by
      rw [hlanded b (hl b hb)]
      exact Bool.false_ne_true]
    rfl
  refine ⟨?_, ?_, fun b hb hs => ?_⟩
  · rw [hph, hnone _ fun b => mem_of_mem_drop]
    rfl
  · rw [hdiscard, hnone _ fun b => mem_of_mem_take]
    rfl
  · rw [hlanded b hb] at hs
    cases hs

lemma join (h : r.Accounted inFlight n) (hn : n ≤ inFlight.length) (hid : r'.requestId = r.requestId)
    (hph : r'.numOutputPlaceholders = r.numOutputPlaceholders + (tokensInFlight [batch] r.requestId).sum)
    (hdiscard : r'.discardLatestAsyncTokens = r.discardLatestAsyncTokens)
    (hpooling : r'.poolingParams = r.poolingParams)
    (hbatch : batch.samples r.requestId = true → ∀ scheduled ∈ batch.requests.get? r.requestId,
      scheduled.poolingParams = r.poolingParams) : r'.Accounted (inFlight ++ [batch]) n := by
  obtain ⟨h1, h2, h3⟩ := h
  refine ⟨?_, ?_, fun b hb hs scheduled hsch => ?_⟩
  · rw [hid, hph, drop_append_of_le_length hn, tokensInFlight_append, sum_append, h1, Nat.cast_add]
  · rw [hid, hdiscard, take_append_of_le_length hn, h2]
  · rw [hid] at hs hsch
    rw [hpooling]
    rcases mem_append.mp hb with hb | hb
    · exact h3 b hb hs scheduled hsch
    · obtain rfl := mem_singleton.mp hb
      exact hbatch hs scheduled hsch

section

variable (h : r.Accounted (batch :: inFlight) n)
include h

lemma skip (hno : batch.samples r.requestId = false) : r.Accounted inFlight (n - 1) := by
  obtain ⟨h1, h2, h3⟩ := h
  have h3 := fun b hb => h3 b (mem_cons_of_mem _ hb)
  cases n with
  | zero =>
    rw [drop_zero, tokensInFlight_cons_of_not_samples hno] at h1
    exact ⟨h1, h2, h3⟩
  | succ n =>
    rw [take_succ_cons, tokensInFlight_cons_of_not_samples hno] at h2
    exact ⟨h1, h2, h3⟩

lemma drop (hs : batch.samples r.requestId = true) (hdiscard : r.discardLatestAsyncTokens = true) :
    0 < n ∧ ((batch.output.scheduledSpecDecodeTokens.get? r.requestId).getD []).length = 0 ∧
      (∀ r' : Request, r'.requestId = r.requestId → r'.numOutputPlaceholders = r.numOutputPlaceholders →
        r'.discardLatestAsyncTokens = false → r'.poolingParams = r.poolingParams →
        r'.Accounted inFlight (n - 1)) := by
  obtain ⟨h1, h2, h3⟩ := h
  rw [hdiscard, if_pos rfl] at h2
  cases n with
  | zero => cases h2
  | succ n =>
    rw [take_succ_cons, tokensInFlight_cons_of_samples hs] at h2
    obtain ⟨hone, hrest⟩ := List.cons.inj h2
    refine ⟨Nat.succ_pos n, by omega, fun r' hid hph hdiscard' hpooling => ⟨?_, ?_, ?_⟩⟩
    · rw [hid, hph, h1]
      rfl
    · rw [hid, hdiscard']
      exact hrest
    · rw [hid, hpooling]
      exact fun b hb => h3 b (mem_cons_of_mem _ hb)

lemma receive (hs : batch.samples r.requestId = true) (hdiscard : r.discardLatestAsyncTokens = false) :
    n = 0 ∧ 1 + ((batch.output.scheduledSpecDecodeTokens.get? r.requestId).getD []).length ≤
        r.numOutputPlaceholders ∧ (∀ r' : Request, r'.requestId = r.requestId → r'.numOutputPlaceholders =
        r.numOutputPlaceholders - (1 + ((batch.output.scheduledSpecDecodeTokens.get? r.requestId).getD []).length) →
        r'.discardLatestAsyncTokens = false → r'.poolingParams = r.poolingParams →
        r'.Accounted inFlight (n - 1)) := by
  obtain ⟨h1, h2, h3⟩ := h
  rw [hdiscard, if_neg Bool.false_ne_true] at h2
  cases n with
  | succ n =>
    rw [take_succ_cons, tokensInFlight_cons_of_samples hs] at h2
    cases h2
  | zero =>
    rw [drop_zero, tokensInFlight_cons_of_samples hs, sum_cons] at h1
    refine ⟨rfl, by omega, fun r' hid hph hdiscard' hpooling => ⟨?_, ?_, ?_⟩⟩
    · rw [hid, hph, Nat.zero_sub, drop_zero]
      omega
    · rw [hdiscard']
      rfl
    · rw [hid, hpooling]
      exact fun b hb => h3 b (mem_cons_of_mem _ hb)

end

end Request.Accounted

namespace Tracked

open ScheduleLocals

variable {config : SchedulerConfig} {t t' : Tracked}

structure Accounted (config : SchedulerConfig) (t : Tracked) : Prop where
  sound : Engine.Sound config t.engine
  within : ∀ id, t.beforeReset id ≤ t.engine.inFlight.length
  snapshot : ∀ batch ∈ t.engine.inFlight, ∀ id,
    batch.output.numScheduledTokens.contains id = true → ∃ r, batch.requests.get? id = some r
  records : ∀ id r, t.engine.scheduler.requests.get? id = some r → r.status.isFinished = false →
    r.Accounted t.engine.inFlight (t.beforeReset id)

variable {out : ModelRunnerOutput} {env : ScheduleEnv} {s' : Scheduler} {output : SchedulerOutput}

lemma accounted_rule (inFlight : List Batch) (beforeReset : RequestId → ℕ) :
    RecordRule config env fun _ r => r.status.isFinished = false →
      r.Accounted inFlight (beforeReset r.requestId) where
  preempted := fun h hs _ => (h (by rw [hs]; rfl)).congr rfl rfl rfl rfl
  scheduled := fun h hs _ _ _ => (h (by rw [hs]; rfl)).congr rfl rfl rfl rfl
  compiled := fun h hs _ => (h (by rw [hs]; rfl)).congr rfl rfl rfl rfl
  received := fun h _ hs _ _ => (h (by rw [hs]; rfl)).congr rfl rfl rfl rfl
  counted := fun h _ _ _ hfin => (h hfin).congr rfl rfl rfl rfl
  loading := fun h hs _ _ => (h hs.1).congr rfl rfl rfl rfl
  admitted := fun h hs _ _ _ _ => by
    refine (h ?_).congr rfl rfl rfl rfl
    rcases hs with hs | hs <;> rw [hs] <;> rfl

lemma afterSchedule_placeholders {requests : Dict RequestId Request} {r : Request} {n : ℤ}
    (hasync : config.asyncScheduling = true)
    (hcontains : output.numScheduledTokens.contains r.requestId = true) (hget : requests.get? r.requestId =
      some (r.afterSchedule config output.scheduledSpecDecodeTokens n)) :
    (r.afterSchedule config output.scheduledSpecDecodeTokens n).numOutputPlaceholders =
      r.numOutputPlaceholders + (tokensInFlight [⟨output, requests⟩] r.requestId).sum := by
  have hsamples : Batch.samples ⟨output, requests⟩ r.requestId = !(r.advanced n).isPrefillChunk := by
    unfold Batch.samples
    rw [hcontains, hget, Bool.true_and, any_some]
    unfold afterSchedule awaiting
    rw [hasync, if_pos rfl]
    split <;> rfl
  unfold afterSchedule awaiting
  rw [hasync, if_pos rfl]
  cases hchunk : (r.advanced n).isPrefillChunk with
  | true =>
    rw [hchunk] at hsamples
    rw [tokensInFlight_cons_of_not_samples hsamples, if_pos rfl]
    exact (add_zero _).symm
  | false =>
    rw [hchunk] at hsamples
    rw [tokensInFlight_cons_of_samples hsamples, if_neg Bool.false_ne_true, sum_cons]
    rfl

lemma Accounted.schedule (ht : Accounted config t) (hasync : config.asyncScheduling = true)
    (hsound : Engine.Sound config ⟨s', t.engine.inFlight ++ [⟨output, s'.requests⟩]⟩)
    (h : t.engine.scheduler.schedule env = .ok (output, s')) :
    Accounted config ⟨⟨s', t.engine.inFlight ++ [⟨output, s'.requests⟩]⟩, t.beforeReset⟩ := by
  have hkeys : KeysOk s'.requests := hsound.keys
  have hstart : ∀ id r, t.engine.scheduler.requests.get? id = some r → r.status.isFinished = false →
      r.Accounted t.engine.inFlight (t.beforeReset r.requestId) := by
    intro id r hr hfin
    rw [ht.sound.keys id r hr]
    exact ht.records id r hr hfin
  have hstep := ht.sound.schedule (accounted_rule t.engine.inFlight t.beforeReset) hstart h
  refine ⟨hsound, fun id => ?_, fun b hb id hid => ?_, fun id r' hr' hfin => ?_⟩
  · rw [length_append]
    exact (ht.within id).trans (Nat.le_add_right _ _)
  · rcases mem_append.mp hb with hb | hb
    · exact ht.snapshot b hb id hid
    · obtain rfl := mem_singleton.mp hb
      exact hstep.exists_record id hid
  · have hr' : s'.requests.get? id = some r' := hr'
    obtain rfl := hkeys id r' hr'
    have hn := ht.within r'.requestId
    cases hstep.record _ r' hr' with
    | kept hnone hcase =>
      have hno : Batch.samples ⟨output, s'.requests⟩ r'.requestId = false := by
        unfold Batch.samples
        rw [Dict.contains, hnone]
        rfl
      refine ((or_self_iff.mp hcase) hfin).join hn rfl ?_ rfl rfl fun hs => ?_
      · rw [tokensInFlight_cons_of_not_samples hno]
        exact (add_zero _).symm
      · rw [hno] at hs
        cases hs
    | @scheduled r n hn' hr heq =>
      have hfields : r'.requestId = r.requestId ∧ r'.status = r.status ∧
          r'.discardLatestAsyncTokens = r.discardLatestAsyncTokens ∧ r'.poolingParams = r.poolingParams := by
        rw [heq]
        unfold afterSchedule awaiting
        rw [hasync, if_pos rfl]
        split <;> exact ⟨rfl, rfl, rfl, rfl⟩
      obtain ⟨hid, hstatus, hdiscard, hpooling⟩ := hfields
      rw [hid] at hn hr' hn' ⊢
      refine (hr (hstatus ▸ hfin)).join hn hid ?_ hdiscard hpooling fun _ scheduled hsch => ?_
      · rw [heq] at hr' ⊢
        refine afterSchedule_placeholders hasync ?_ hr'
        rw [Dict.contains, hn']
        rfl
      · have hsch : s'.requests.get? r.requestId = some scheduled := hsch
        rw [← some.inj (hr'.symm.trans hsch), hpooling]

lemma accounted_applied {batch : Batch} {inFlight : List Batch} {r r' scheduled : Request} {n : ℕ}
    {newTokenIds : List TokenId} {stopped : Bool} (h : r.Accounted (batch :: inFlight) n)
    (hasync : config.asyncScheduling = true) (hcontract : batch.SamplesDrafts out)
    (hscheduled : batch.requests.get? r.requestId = some scheduled)
    (happlied : Scheduler.Applied config batch.output out r newTokenIds stopped r')
    (hwhole : stopped = true → stopsOn config r
      (out.sampledTokenIds r.requestId).dropLast (out.hasPoolerOutput r.requestId) = false) :
    r'.Accounted inFlight (n - 1) := by
  have hid := happlied.requestId_eq
  obtain ⟨hpooling, -⟩ := happlied.fields
  have hout := happlied.async hasync
  have hcontract := hcontract r.requestId ((Dict.mem_keys_iff _ _).mpr happlied.contains) scheduled
    hscheduled
  cases hchunk : scheduled.isPrefillChunk with
  | true =>
    rw [if_pos hchunk] at hcontract
    have hno : batch.samples r.requestId = false := by
      unfold Batch.samples
      rw [hscheduled, any_some, hchunk, Bool.not_true, Bool.and_false]
    cases hout with
    | nothing _ _ hph hdiscard => exact (h.skip hno).congr hid hph hdiscard hpooling
    | dropped hne => exact absurd hcontract.1 hne
    | appended hne => exact absurd hcontract.1 hne
  | false =>
    rw [if_neg (by rw [hchunk]; exact Bool.false_ne_true)] at hcontract
    have hsamples : batch.samples r.requestId = true :=
      Batch.samples_iff.mpr ⟨happlied.contains, scheduled, hscheduled, hchunk⟩
    have hkind := h.pooling batch mem_cons_self hsamples scheduled hscheduled
    rw [hkind] at hcontract
    cases hout with
    | nothing hnil hstopped =>
      split at hcontract
      · rename_i hpool
        rw [hpool, hcontract.2] at hstopped
        have hwhole := hwhole hstopped
        unfold stopsOn at hwhole
        rw [hnil, if_neg (fun hne => hne rfl), hpool, hcontract.2] at hwhole
        cases hwhole
      · exact absurd hnil hcontract.1
    | dropped hne hdiscard _ hph hdiscard' =>
      obtain ⟨-, hdrafts, hdrop⟩ := h.drop hsamples hdiscard
      refine hdrop r' hid (hph.trans ?_) hdiscard' hpooling
      unfold rejected
      rw [if_neg (fun hboth => hboth.1 hdrafts)]
    | appended hne hdiscard hgo hcut hph hdiscard' =>
      obtain ⟨-, hpos, hreceive⟩ := h.receive hsamples hdiscard
      have hall : newTokenIds = out.sampledTokenIds r.requestId := by
        cases stopped with
        | false => exact hgo rfl
        | true =>
          refine hcut.resolve_right fun hstops => ?_
          rw [hwhole rfl] at hstops
          cases hstops
      split at hcontract
      · exact absurd hcontract.1 hne
      · refine hreceive r' hid ?_ hdiscard' hpooling
        rw [hph, rejected_numOutputPlaceholders (by omega) hne hcontract.2, hall]
        omega

lemma Accounted.updateFromOutput {batch : Batch} {inFlight : List Batch}
    {connectorDelay : RequestId → Bool} {outputs : List EngineCoreOutput}
    (ht : Accounted config t) (hasync : config.asyncScheduling = true)
    (hflight : t.engine.inFlight = batch :: inFlight)
    (hop : t.engine.AsyncOp (.updateFromOutput out connectorDelay))
    (hsettled : t.engine.Settled (.updateFromOutput out connectorDelay))
    (hsound : Engine.Sound config ⟨s', inFlight⟩)
    (h : t.engine.scheduler.updateFromOutput batch.output out connectorDelay = .ok (outputs, s')) :
    Accounted config ⟨⟨s', inFlight⟩, fun id => t.beforeReset id - 1⟩ := by
  obtain ⟨hbefore, hwithin, hsnapshot, hrecords⟩ := ht
  have hhead : batch ∈ t.engine.inFlight.head? := by
    rw [hflight]
    rfl
  rw [hflight] at hwithin hsnapshot hrecords
  refine ⟨hsound, fun id => ?_, fun b hb => hsnapshot b (mem_cons_of_mem _ hb), fun id r' hr' hfin => ?_⟩
  · have hle := hwithin id
    rw [length_cons] at hle
    change t.beforeReset id - 1 ≤ inFlight.length
    omega
  obtain ⟨r, hr, heffect⟩ := updateFromOutput_record h hbefore.keys hsettled.1 hr'
  obtain rfl := hbefore.keys id r hr
  have hrecords := hrecords _ r hr
  have happly : ∀ {new : List TokenId} {stopped : Bool} {r1 : Request},
      Scheduler.Applied config batch.output out r new stopped r1 → (stopped = true → r.resumable = true) →
      r1.Accounted inFlight (t.beforeReset r.requestId - 1) := by
    intro new stopped r1 happlied hsession
    obtain ⟨scheduled, hsch⟩ := hsnapshot batch mem_cons_self _ happlied.contains
    refine accounted_applied (hrecords happlied.unfinished) hasync (hop batch hhead) hsch happlied
      fun hstopped => ?_
    rw [← Bool.not_eq_true]
    intro hstops
    rw [← hbefore.config] at hstops
    exact hsettled.2 batch hhead r.requestId ((Dict.mem_keys_iff _ _).mpr happlied.contains)
      ⟨r, hr, happlied.unfinished, hsession hstopped, hstops⟩
  rw [hbefore.config] at heffect
  cases heffect with
  | kept hkept =>
    refine (hrecords hfin).skip ?_
    unfold Batch.samples
    rw [hkept.resolve_right (by rw [hfin]; exact Bool.false_ne_true), Bool.false_and]
  | goesOn happlied => exact happly happlied nofun
  | @ended _ r1 _ _ hend =>
    have hfin : r1.status.isFinished = false := hfin
    rw [hend] at hfin
    cases hfin
  | continued happlied hres _ hup =>
    have hacc := happly happlied fun _ => happlied.fields.2 ▸ hres
    obtain ⟨_, _, _, _, rfl⟩ := updateAsSession_record hup
    exact hacc.congr rfl rfl rfl rfl
  | waits happlied hres =>
    have hacc := happly happlied fun _ => happlied.fields.2 ▸ hres
    exact hacc.congr rfl rfl rfl rfl

lemma step_accounted {op : EngineOp} (h : t.step op = .ok t')
    (hasync : config.asyncScheduling = true) (hop : t.engine.AsyncOp op)
    (hsettled : t.engine.Settled op) (ht : Accounted config t) : Accounted config t' := by
  obtain ⟨e', hstep, h⟩ := bind_eq_ok.mp h
  obtain rfl := Except.ok.inj h
  have hfresh : Engine.AddsFresh op := by
    cases op with
    | addRequest => exact hop.1
    | _ => trivial
  have hsound := Engine.step_sound hstep hfresh ht.sound
  have hkeys := ht.sound.keys
  have hkeep : ∀ {s : Scheduler}, Engine.Sound config ⟨s, t.engine.inFlight⟩ →
      (∀ id r', s.requests.get? id = some r' → r'.status.isFinished = false →
        r'.Accounted t.engine.inFlight (t.beforeReset id)) →
      Accounted config ⟨⟨s, t.engine.inFlight⟩, t.beforeReset⟩ :=
    fun hsound hs => ⟨hsound, ht.within, ht.snapshot, hs⟩
  cases Engine.step_stepped hstep with
  | @addRequest request connectorDelay s hs' =>
    refine hkeep hsound fun id r' hr' hfin => ?_
    cases addRequest_record hs' hkeys hr' with
    | same hr => exact ht.records id r' hr hfin
    | new hid hnone hr =>
      subst hid hr
      obtain ⟨hfresh, hflight⟩ := hop
      refine .of_landed hfresh.numOutputPlaceholders hfresh.discardLatestAsyncTokens fun b hb => ?_
      change b.samples request.requestId = false
      unfold Batch.samples
      rw [hflight hnone b hb, Bool.false_and]
    | @queued r hid hr hstatus hr'' =>
      subst hr''
      exact (ht.records id r hr hfin).congr rfl rfl rfl rfl
    | @continued session update hid hr hstatus hupdate hup =>
      obtain ⟨_, _, _, _, rfl⟩ := updateAsSession_record hup
      exact (ht.records id session hr (by rw [hstatus]; rfl)).congr rfl rfl rfl rfl
    | @ended r hr hr'' =>
      subst hr''
      cases hfin
  | schedule hs' => exact ht.schedule hasync hsound hs'
  | updateFromOutput hflight hs' =>
    exact ht.updateFromOutput hasync hflight hop hsettled hsound hs'
  | finishRequests hs' =>
    refine hkeep hsound fun id r' hr' hunfin => ?_
    obtain ⟨r, hr, rfl | ⟨hfin, rfl⟩⟩ := finishRequests_record hs' hkeys hr'
    · exact ht.records id r' hr hunfin
    · rw [hfin] at hunfin
      cases hunfin
  | @resetPrefixCache resetRunning resetConnector connectorReset success s hs' =>
    cases resetRunning with
    | false =>
      refine hkeep hsound fun id r' hr' hunfin => ?_
      obtain ⟨r, hr, rfl | ⟨hfalse, -⟩⟩ := resetPrefixCache_record hs' hkeys hr'
      · exact ht.records id r' hr hunfin
      · cases hfalse
    | true =>
      have hnone : s.running = [] := resetPrefixCache_running hs' hkeys
      refine ⟨hsound, fun id => ?_, ht.snapshot, fun id r' hr' hunfin => ?_⟩
      · change (if id ∈ t.engine.scheduler.running then _ else _ : ℕ) ≤ t.engine.inFlight.length
        split
        · exact le_rfl
        · exact ht.within id
      · obtain ⟨r, hr, rfl | ⟨-, hs, rfl⟩⟩ := resetPrefixCache_record hs' hkeys hr'
        · have hout : id ∉ t.engine.scheduler.running := fun hid => by
            have hmem : id ∈ s.running := (hsound.running_iff hr').mpr ((ht.sound.running_iff hr).mp hid)
            rw [hnone] at hmem
            cases hmem
          change r'.Accounted t.engine.inFlight (if id ∈ t.engine.scheduler.running then _ else _)
          rw [if_neg hout]
          exact ht.records id r' hr hunfin
        · have hin := (ht.sound.running_iff hr).mpr hs
          have hone := hsettled id hin
          obtain rfl := hkeys id r hr
          change r.resetPreempted.Accounted t.engine.inFlight
            (if r.requestId ∈ t.engine.scheduler.running then _ else _)
          rw [if_pos hin]
          refine ⟨?_, ?_, (ht.records _ r hr (by rw [hs]; rfl)).pooling⟩
          · rw [drop_length]
            rfl
          · rw [take_length]
            exact hone
  | updateDraftTokenIds =>
    refine hkeep hsound fun id r' hr' hunfin => ?_
    obtain ⟨r, spec, hr, rfl⟩ := updateDraftTokenIds_record hkeys hr'
    exact (ht.records id r hr hunfin).congr rfl rfl rfl rfl
  | resetEncoderCache => exact ⟨hsound, ht.within, ht.snapshot, ht.records⟩

/-- If just one token of every running request is in flight at a reset, placeholders are for tokens
in flight and just the tokens of the reset are dropped. -/
theorem reaches_placeholders_accounted {config : SchedulerConfig} {k : KVCacheManager}
    {c : EncoderCache} {t : Tracked} (hasync : config.asyncScheduling = true)
    (h : Reaches step (fun t op => t.engine.AsyncOp op ∧ t.engine.Settled op) (start config k c) t) :
    t.engine.PlaceholdersAccounted ∧ ∀ out connectorDelay,
      t.engine.AsyncOp (.updateFromOutput out connectorDelay) → t.DropsEarlier out := by
  have ht : Accounted config t := by
    refine h.invariant ?_ fun t op t' ht hop hstep => step_accounted hstep hasync hop.1 hop.2 ht
    exact ⟨Engine.start_sound k c, fun _ => le_rfl, nofun, fun id r hr => (by cases hr)⟩
  refine ⟨fun id r hr hfin => ?_, fun out delay hop batch hhead id hid r hr hfin htokens => ?_⟩
  · obtain ⟨hplaceholders, hdropped, -⟩ := ht.records id r hr hfin
    rw [ht.sound.keys id r hr] at hplaceholders hdropped
    have hown : tokensInFlight t.engine.inFlight id = (if r.discardLatestAsyncTokens then [1] else []) ++
          tokensInFlight (t.engine.inFlight.drop (t.beforeReset id)) id := by
      rw [← hdropped, ← tokensInFlight_append, take_append_drop]
    rw [hown, hplaceholders]
    refine ⟨Int.natCast_nonneg _, ?_⟩
    split <;> rfl
  · have hacc := ht.records id r hr hfin
    obtain rfl := ht.sound.keys id r hr
    have hcontains := (Dict.mem_keys_iff _ _).mp hid
    obtain ⟨scheduled, hsch⟩ := ht.snapshot batch (mem_of_mem_head? hhead) _ hcontains
    have hcontract := hop batch hhead r.requestId hid scheduled hsch
    have hsamples : batch.samples r.requestId = true := by
      refine Batch.samples_iff.mpr ⟨hcontains, scheduled, hsch, ?_⟩
      by_contra hchunk
      rw [Bool.not_eq_false] at hchunk
      rw [if_pos hchunk] at hcontract
      exact htokens hcontract.1
    obtain ⟨rest, hflight⟩ := List.head?_eq_some_iff.mp hhead
    rw [hflight] at hacc
    cases hdiscard : r.discardLatestAsyncTokens with
    | true => exact ⟨fun _ => (hacc.drop hsamples hdiscard).1, fun _ => rfl⟩
    | false =>
      have hzero := (hacc.receive hsamples hdiscard).1
      exact ⟨nofun, fun hpos => absurd hzero hpos.ne'⟩

instance (batch : Batch) (out : ModelRunnerOutput) : Decidable (batch.SamplesDrafts out) :=
  inferInstanceAs (Decidable (∀ id ∈ batch.output.numScheduledTokens.keys, ∀ r ∈ batch.requests.get? id,
      if r.isPrefillChunk then out.sampledTokenIds id = [] ∧ out.hasPoolerOutput id = false
      else if r.poolingParams then out.sampledTokenIds id = [] ∧ out.hasPoolerOutput id = true
      else out.sampledTokenIds id ≠ [] ∧ (out.sampledTokenIds id).length ≤
        1 + ((batch.output.scheduledSpecDecodeTokens.get? id).getD []).length))

instance (e : Engine) : (op : EngineOp) → Decidable (e.AsyncOp op)
  | .addRequest request _ =>
    inferInstanceAs (Decidable (request.Fresh ∧
      (e.scheduler.requests.get? request.requestId = none → ∀ batch ∈ e.inFlight,
        batch.output.numScheduledTokens.contains request.requestId = false)))
  | .updateFromOutput out _ =>
    inferInstanceAs (Decidable (∀ batch ∈ e.inFlight.head?, batch.SamplesDrafts out))
  | .schedule _ | .finishRequests _ _ _ | .resetPrefixCache _ _ _ | .updateDraftTokenIds _
  | .resetEncoderCache => inferInstanceAs (Decidable True)

instance (s : Scheduler) (out : ModelRunnerOutput) (id : RequestId) :
    Decidable (CutsSession s out id) :=
  decidable_of_iff (∃ request ∈ (s.requests.get? id).toList, request.status.isFinished = false ∧
      request.resumable = true ∧ Scheduler.stopsOn s.config request
        (out.sampledTokenIds id).dropLast (out.hasPoolerOutput id) = true)
    (by simp [CutsSession])

instance (e : Engine) : (op : EngineOp) → Decidable (e.Settled op)
  | .resetPrefixCache true _ _ =>
    inferInstanceAs (Decidable (∀ id ∈ e.scheduler.running, tokensInFlight e.inFlight id = [1]))
  | .updateFromOutput out _ =>
    inferInstanceAs (Decidable (
      (out.kvConnectorOutput.map fun o => o.invalidBlockIds).getD [] = [] ∧
        ∀ batch ∈ e.inFlight.head?, ∀ id ∈ batch.output.numScheduledTokens.keys,
          ¬CutsSession e.scheduler out id))
  | .addRequest _ _ | .schedule _ | .finishRequests _ _ _ | .resetPrefixCache false _ _
  | .updateDraftTokenIds _ | .resetEncoderCache => inferInstanceAs (Decidable True)

def aheadConfig : SchedulerConfig :=
  { smallConfig with longPrefillTokenThreshold := 4, asyncScheduling := true }

def sixTokens : Request where
  requestId := "r"
  promptTokenIds := some [1, 2, 3, 4, 5, 6]
  numPromptTokens := 6
  allTokenIds := [1, 2, 3, 4, 5, 6]
  samplingParams := ⟨8, 0, false, []⟩
  maxTokens := 8

def noTokens : ModelRunnerOutput where
  sampledTokenIds := fun _ => []

def resetSampling : List EngineOp :=
  [.addRequest sixTokens (fun _ => false), .schedule {}, .schedule {},
    .resetPrefixCache true false false, .updateFromOutput noTokens (fun _ => false), .schedule {}]

/-- The request is preempted with the first chunk of its prompt in flight, and computed again. -/
def resetPrefill : List EngineOp :=
  [.addRequest sixTokens (fun _ => false), .schedule {}, .resetPrefixCache true false false,
    .updateFromOutput noTokens (fun _ => false), .schedule {}, .schedule {},
    .updateFromOutput noTokens (fun _ => false)]

theorem reaches_placeholders_accounted_reset : ∃ k t, smallCache = .ok k ∧
    Reaches step (fun t op => t.engine.AsyncOp op ∧ t.engine.Settled op)
      (start aheadConfig k (.multiModal (.new 0))) t ∧
    t.beforeReset "r" = 1 ∧ t.engine.PlaceholdersAccounted ∧ ∀ out connectorDelay,
      t.engine.AsyncOp (.updateFromOutput out connectorDelay) → t.DropsEarlier out := by
  have hrun : (smallCache.toOption.bind fun k => runAllowed step
      (fun t op => t.engine.AsyncOp op ∧ t.engine.Settled op)
      (start aheadConfig k (.multiModal (.new 0))) resetSampling).map (fun t =>
        t.beforeReset "r") = some 1 := by decide +kernel
  obtain ⟨k, t, hk, hreach, hone⟩ := exists_reaches hrun
  have hasync : aheadConfig.asyncScheduling = true := rfl
  exact ⟨k, t, hk, hreach, hone, reaches_placeholders_accounted hasync hreach⟩

set_option synthInstance.maxSize 512 in
/-- The token that is sampled after the request was resumed is dropped, and its placeholder
stays. -/
theorem resumed_token_dropped : ∃ k t, smallCache = .ok k ∧
    Reaches step (fun t op => t.engine.AsyncOp op) (start aheadConfig k (.multiModal (.new 0))) t ∧
    t.engine.AsyncOp (.updateFromOutput (sampled 7) (fun _ => false)) ∧
    ¬ t.engine.PlaceholdersAccounted ∧ ¬ t.DropsEarlier (sampled 7) := by
  have hrun : (smallCache.toOption.bind fun k => runAllowed step
      (fun t op => t.engine.AsyncOp op)
      (start aheadConfig k (.multiModal (.new 0))) resetPrefill).map (fun t =>
        ((t.engine.inFlight.map fun b => b.output.numScheduledTokens.keys,
          tokensInFlight t.engine.inFlight "r", t.beforeReset "r"),
        (t.engine.scheduler.requests.get? "r").map (fun r =>
          (r.status, r.numOutputPlaceholders, r.discardLatestAsyncTokens)),
        decide (t.engine.AsyncOp (.updateFromOutput (sampled 7) (fun _ => false))))) =
      some (([["r"]], [1], 0), some (.running, 1, true), true) := by decide +kernel
  obtain ⟨k, t, hk, hreach, hstate⟩ := exists_reaches hrun
  simp only [Prod.mk.injEq] at hstate
  obtain ⟨⟨hflight, htokens, hzero⟩, hrecord, hop⟩ := hstate
  obtain ⟨r, hr, hrecord⟩ := map_eq_some_iff.mp hrecord
  simp only [Prod.mk.injEq] at hrecord
  obtain ⟨hstatus, hplaceholders, hdiscard⟩ := hrecord
  have hfin : r.status.isFinished = false := by
    rw [hstatus]
    rfl
  refine ⟨k, t, hk, hreach, of_decide_eq_true hop, fun haccounted => ?_, fun hdrops => ?_⟩
  · obtain ⟨-, hsum⟩ := haccounted "r" r hr hfin
    rw [htokens, hdiscard, hplaceholders] at hsum
    exact absurd hsum (by decide)
  · obtain ⟨batch, rest, hcons, hids, -⟩ := map_eq_cons_iff.mp hflight
    have hpos := (hdrops batch (by rw [hcons]; rfl) "r"
      (by rw [hids]; exact mem_singleton_self _) r hr hfin (by decide)).mp hdiscard
    rw [hzero] at hpos
    exact absurd hpos (lt_irrefl _)

end Tracked

end CustomAi.Vllm
