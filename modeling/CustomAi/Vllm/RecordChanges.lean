import CustomAi.Vllm.QueuePlacement

/-!
# What the other calls do to one record

For each call besides `schedule`: where the record of a request after the call comes from.
-/

namespace CustomAi.Vllm

open List Option Except Dict

/-- The record of a request that `reset_prefix_cache` preempted. -/
def Request.resetPreempted (request : Request) : Request :=
  { request.preempted with
    numOutputPlaceholders := 0
    discardLatestAsyncTokens := true }

namespace Scheduler

variable {s s' : Scheduler} {connectorDelay : RequestId → Bool} {x : RequestId} {r' : Request}

lemma finishRequests_record {requestIds : List RequestId} {finishedStatus : RequestStatus}
    (h : s.finishRequests connectorDelay requestIds finishedStatus = .ok s')
    (hkeys : KeysOk s.requests) (hr' : s'.requests.get? x = some r') : ∃ r, s.requests.get? x = some r ∧
      (r' = r ∨ finishedStatus.isFinished = true ∧ r' = { r with status := finishedStatus }) := by
  obtain ⟨hfin, heach⟩ := finishRequests_eq_ok h
  obtain ⟨-, -, hsame, hdone⟩ := finishEach_spec heach (validRequests_nodup requestIds) hkeys
  by_cases hx : x ∈ s.validRequests requestIds
  · obtain ⟨r, hr, hnone | hsome⟩ := hdone x hx
    · rw [hnone] at hr'
      cases hr'
    · rw [hsome] at hr'
      exact ⟨r, hr, .inr ⟨hfin, (some.inj hr').symm⟩⟩
  · rw [hsame x hx] at hr'
    exact ⟨r', hr', .inl rfl⟩

lemma preemptAll_record {fuel : ℕ} (h : preemptAll fuel s = .ok s') (hkeys : KeysOk s.requests)
    (hr' : s'.requests.get? x = some r') : ∃ r, s.requests.get? x = some r ∧
      (r' = r ∨ r.status = .running ∧ r' = r.resetPreempted) := by
  induction fuel generalizing s with
  | zero =>
    obtain rfl := ok.inj h
    exact ⟨r', hr', .inl rfl⟩
  | succ fuel ih =>
    obtain ⟨-, rfl⟩ | ⟨running, id, request, k, enc, waiting, -, hreq, hstatus, -, -, -, hrest⟩ :=
      preemptAll_succ_eq_ok h hkeys
    · exact ⟨r', hr', .inl rfl⟩
    · have hid := hkeys id request hreq
      obtain ⟨r, hr, hcase⟩ := ih hrest (hkeys.set hid)
      rw [get?_set] at hr
      split at hr
      · rename_i hx
        rw [hx]
        refine ⟨request, hreq, .inr ⟨hstatus, ?_⟩⟩
        obtain rfl := some.inj hr
        rcases hcase with rfl | ⟨hrun, -⟩
        · rfl
        · cases hrun
      · exact ⟨r, hr, hcase⟩

lemma resetPrefixCache_record {resetRunningRequests resetConnector connectorReset success : Bool}
    (h : s.resetPrefixCache resetRunningRequests resetConnector connectorReset =
      .ok (success, s')) (hkeys : KeysOk s.requests) (hr' : s'.requests.get? x = some r') :
    ∃ r, s.requests.get? x = some r ∧
      (r' = r ∨ resetRunningRequests = true ∧ r.status = .running ∧ r' = r.resetPreempted) := by
  obtain ⟨s1, ⟨rfl, -⟩ | ⟨hreset, s0, hall, rfl⟩, rfl⟩ := resetPrefixCache_eq_ok h
  · exact ⟨r', hr', .inl rfl⟩
  · obtain ⟨r, hr, hcase⟩ := preemptAll_record hall hkeys hr'
    exact ⟨r, hr, hcase.imp_right fun ⟨hrun, hr⟩ => ⟨hreset, hrun, hr⟩⟩

lemma updateDraftTokenIds_record {drafts : List (RequestId × List TokenId)}
    (hkeys : KeysOk s.requests) (hr' : (s.updateDraftTokenIds drafts).requests.get? x = some r') :
    ∃ r specTokenIds, s.requests.get? x = some r ∧ r' = { r with specTokenIds } := by
  induction drafts generalizing s with
  | nil => exact ⟨r', r'.specTokenIds, hr', rfl⟩
  | cons d rest ih =>
    have hdraft : KeysOk (s.updateDraft d.1 d.2).requests ∧
        ∀ r1, (s.updateDraft d.1 d.2).requests.get? x = some r1 →
          ∃ r specTokenIds, s.requests.get? x = some r ∧ r1 = { r with specTokenIds } := by
      have hset : ∀ (request : Request) (specTokenIds : List TokenId),
          s.requests.get? d.1 = some request → KeysOk (s.setRequest { request with
            specTokenIds }).requests ∧ ∀ r1,
          (s.setRequest { request with specTokenIds }).requests.get? x = some r1 →
          ∃ r specTokenIds, s.requests.get? x = some r ∧ r1 = { r with specTokenIds } := by
        intro request specTokenIds hreq
        have hid := hkeys _ _ hreq
        refine ⟨hkeys.set rfl, fun r1 hr1 => ?_⟩
        rw [setRequest_requests, get?_set] at hr1
        split at hr1
        · rename_i hx
          rw [hx, hid]
          exact ⟨request, specTokenIds, hreq, (some.inj hr1).symm⟩
        · exact ⟨r1, r1.specTokenIds, hr1, rfl⟩
      unfold updateDraft
      split
      · exact ⟨hkeys, fun r1 hr1 => ⟨r1, r1.specTokenIds, hr1, rfl⟩⟩
      · rename_i request hreq
        split
        · exact ⟨hkeys, fun r1 hr1 => ⟨r1, r1.specTokenIds, hr1, rfl⟩⟩
        · split <;> exact hset request _ hreq
    obtain ⟨r1, spec, hr1, rfl⟩ := ih hdraft.1 hr'
    obtain ⟨r, spec', hr, rfl⟩ := hdraft.2 r1 hr1
    exact ⟨r, spec, hr, rfl⟩

/-- Where the record of a request comes from after `add_request`. -/
inductive AddedRecord (s : Scheduler) (request : Request) (x : RequestId) (r' : Request) : Prop
  | same : s.requests.get? x = some r' → AddedRecord s request x r'
  | new : x = request.requestId → s.requests.get? x = none →
      r' = { request with streamingQueue := [] } → AddedRecord s request x r'
  | queued {r : Request} : x = request.requestId → s.requests.get? x = some r → r.status ≠ .waitingForStreamingReq →
      r' = { r with streamingQueue := r.streamingQueue ++ [StreamingUpdate.fromRequest request] } →
      AddedRecord s request x r'
  | continued {r : Request} {update : StreamingUpdate} : x = request.requestId →
      s.requests.get? x = some r → r.status = .waitingForStreamingReq →
      StreamingUpdate.fromRequest request = some update →
      r.updateAsSession s.config.blockHasher update = .ok r' → AddedRecord s request x r'
  | ended {r : Request} : s.requests.get? x = some r →
      r' = { r with status := .finishedAborted } → AddedRecord s request x r'

variable {request : Request}

lemma addRequest_record (h : s.addRequest connectorDelay request = .ok s')
    (hkeys : KeysOk s.requests) (hr' : s'.requests.get? x = some r') : AddedRecord s request x r' := by
  cases addRequest_added h hkeys with
  | new hnone =>
    rw [get?_set] at hr'
    split at hr'
    · rename_i hx
      exact .new hx (hx ▸ hnone) (some.inj hr').symm
    · exact .same hr'
  | queued hexisting hstatus =>
    rw [get?_set] at hr'
    split at hr'
    · rename_i hx
      exact .queued hx (hx ▸ hexisting) hstatus (some.inj hr').symm
    · exact .same hr'
  | continued hexisting hstatus hupdate hup =>
    rw [get?_set] at hr'
    split at hr'
    · rename_i hx
      exact .continued hx (hx ▸ hexisting) hstatus hupdate (some.inj hr' ▸ hup)
    · exact .same hr'
  | ended _ _ _ hfinish =>
    obtain ⟨r, hr, rfl | ⟨-, rfl⟩⟩ := finishRequests_record hfinish hkeys hr'
    · exact .same hr
    · exact .ended hr rfl

variable {blockHasher : Option BlockHasher}

lemma updateAsSession_record {session updated : Request}
    {update : StreamingUpdate} (h : session.updateAsSession blockHasher update = .ok updated) :
    ∃ promptTokenIds mmFeatures blockHashes numPromptTokens, updated = { session with
      promptTokenIds, mmFeatures, blockHashes, numPromptTokens
      outputTokenIds := []
      allTokenIds := pyTake session.allTokenIds session.numComputedTokens ++ update.promptTokenIds.getD []
      arrivalTime := update.arrivalTime
      samplingParams := update.samplingParams
      status := .waiting } := by
  unfold Request.updateAsSession at h
  split at h
  · cases h
  · obtain rfl := ok.inj h
    exact ⟨_, _, _, _, rfl⟩

structure Applied (config : SchedulerConfig) (batch : SchedulerOutput) (out : ModelRunnerOutput)
    (r : Request) (newTokenIds : List TokenId) (stopped : Bool) (r' : Request) : Prop where
  contains : batch.numScheduledTokens.contains r.requestId = true
  unfinished : r.status.isFinished = false
  apply : ∃ (s : Scheduler) (k : KVCacheManager), s.config = config ∧
    s.applyTokens (rejected batch (out.sampledTokenIds r.requestId) r)
      (out.sampledTokenIds r.requestId) (out.hasPoolerOutput r.requestId) = .ok (newTokenIds, stopped, r', k)

/-- Where the record of a request comes from after `update_from_output`. -/
inductive OutputEffect (config : SchedulerConfig) (batch : SchedulerOutput)
    (out : ModelRunnerOutput) (r : Request) : Request → Prop
  | kept : batch.numScheduledTokens.contains r.requestId = false ∨ r.status.isFinished = true →
      OutputEffect config batch out r r
  | goesOn {newTokenIds : List TokenId} {r' : Request} :
      Applied config batch out r newTokenIds false r' → OutputEffect config batch out r r'
  | ended {newTokenIds : List TokenId} {r' : Request}
      {streamingQueue : List (Option StreamingUpdate)} :
      Applied config batch out r newTokenIds true r' → r'.status.isFinished = true →
      OutputEffect config batch out r { r' with streamingQueue }
  | continued {newTokenIds : List TokenId} {r' updated : Request} {update : StreamingUpdate}
      {rest : List (Option StreamingUpdate)} :
      Applied config batch out r newTokenIds true r' → r'.resumable = true →
      r'.streamingQueue = some update :: rest →
      { r' with streamingQueue := rest }.updateAsSession config.blockHasher update = .ok updated →
      OutputEffect config batch out r updated
  | waits {newTokenIds : List TokenId} {r' : Request} :
      Applied config batch out r newTokenIds true r' → r'.resumable = true →
      OutputEffect config batch out r { r' with status := .waitingForStreamingReq }

variable {tokens newTokenIds : List TokenId}

variable {request' : Request} {u u' : UpdateLocals} {maxModelLen : ℕ}

variable {config : SchedulerConfig} {batch : SchedulerOutput} {out : ModelRunnerOutput}
  {r : Request} {stopped : Bool}

section

variable (h : Applied config batch out r newTokenIds stopped r')
include h

lemma Applied.requestId_eq : r'.requestId = r.requestId := by
  obtain ⟨s, k, -, happly⟩ := h.apply
  obtain ⟨-, _, _, _, _, _, rfl, -, -⟩ := appliedOutput_spec happly
  rfl

lemma Applied.fields : r'.poolingParams = r.poolingParams ∧ r'.resumable = r.resumable := by
  obtain ⟨s, k, -, happly⟩ := h.apply
  obtain ⟨-, _, _, _, _, _, rfl, -, -⟩ := appliedOutput_spec happly
  exact ⟨rfl, rfl⟩

lemma Applied.sync (hsync : config.asyncScheduling = false)
    (hspec : (batch.scheduledSpecDecodeTokens.get? r.requestId).getD [] = []) :
    newTokenIds <+: out.sampledTokenIds r.requestId ∧
      (stopped = false → newTokenIds = out.sampledTokenIds r.requestId ∧
        (newTokenIds ≠ [] → checkStop r' config.maxModelLen = .ok none)) ∧
      ∃ blockHashes status stopReason, r' = { r with
        allTokenIds := r.allTokenIds ++ newTokenIds
        outputTokenIds := r.outputTokenIds ++ newTokenIds
        blockHashes, status, stopReason } ∧ (stopped = false → status = r.status) ∧
        (stopped = true → status.isFinished = true) := by
  obtain ⟨s, k, rfl, happly⟩ := h.apply
  have hrej : rejected batch (out.sampledTokenIds r.requestId) r = r := by
    unfold rejected
    rw [hspec]
    rfl
  rw [hrej] at happly
  unfold applyTokens at happly
  split at happly
  · rename_i hne
    unfold updateRequestWithOutput at happly
    rw [hsync] at happly
    obtain ⟨⟨new, stopped1, request1⟩, hup, happly⟩ := bind_eq_ok.mp happly
    obtain ⟨rfl, rfl, rfl, -⟩ := ok_quad_inj happly
    obtain ⟨hinitial, hashes, status, reason, hr, hgo, hstop⟩ := updateRequestWithOutput_spec hup
    refine ⟨hinitial, fun hs => ?_, hashes, status, reason, hr, fun hs => (hgo hs).1, hstop⟩
    subst hs
    exact ⟨(hgo rfl).2, fun _ => (updateRequestWithOutput_stops hup).2.2 rfl hne⟩
  · rename_i hnil
    rw [not_not] at hnil
    split at happly
    · obtain ⟨rfl, rfl, rfl, -⟩ := ok_quad_inj happly
      exact ⟨ nil_prefix, nofun, r.blockHashes, .finishedStopped, r.stopReason,
        by rw [append_nil, append_nil], nofun, fun _ => rfl⟩
    · obtain ⟨rfl, rfl, rfl, -⟩ := ok_quad_inj happly
      exact ⟨ nil_prefix, fun _ => ⟨hnil.symm, fun hne => absurd rfl hne⟩, r.blockHashes,
        r.status, r.stopReason, by rw [append_nil, append_nil], fun _ => rfl, nofun⟩

end

inductive AsyncOutput (config : SchedulerConfig) (batch : SchedulerOutput)
    (out : ModelRunnerOutput) (r : Request) (newTokenIds : List TokenId) (stopped : Bool)
    (r' : Request) : Prop
  | nothing : out.sampledTokenIds r.requestId = [] →
      stopped = (r.poolingParams && out.hasPoolerOutput r.requestId) →
      r'.numOutputPlaceholders = r.numOutputPlaceholders →
      r'.discardLatestAsyncTokens = r.discardLatestAsyncTokens →
      AsyncOutput config batch out r newTokenIds stopped r'
  | dropped : out.sampledTokenIds r.requestId ≠ [] → r.discardLatestAsyncTokens = true → stopped = false →
      r'.numOutputPlaceholders = (rejected batch (out.sampledTokenIds r.requestId) r).numOutputPlaceholders →
      r'.discardLatestAsyncTokens = false → AsyncOutput config batch out r newTokenIds stopped r'
  | appended : out.sampledTokenIds r.requestId ≠ [] → r.discardLatestAsyncTokens = false →
      (stopped = false → newTokenIds = out.sampledTokenIds r.requestId) →
      newTokenIds = out.sampledTokenIds r.requestId ∨ stopsOn config r (out.sampledTokenIds r.requestId).dropLast
          (out.hasPoolerOutput r.requestId) = true → r'.numOutputPlaceholders =
        (rejected batch (out.sampledTokenIds r.requestId) r).numOutputPlaceholders - newTokenIds.length →
      r'.discardLatestAsyncTokens = false → AsyncOutput config batch out r newTokenIds stopped r'

lemma Applied.async (h : Applied config batch out r newTokenIds stopped r')
    (hasync : config.asyncScheduling = true) : AsyncOutput config batch out r newTokenIds stopped r' := by
  obtain ⟨s, k, rfl, happly⟩ := h.apply
  obtain ⟨computed, placeholders, hrej⟩ := rejected_eq batch (out.sampledTokenIds r.requestId) r
  unfold applyTokens at happly
  split at happly
  · rename_i hne
    unfold updateRequestWithOutput at happly
    rw [hasync, if_pos rfl] at happly
    split at happly
    · rename_i hdiscard
      obtain ⟨rfl, rfl, rfl, -⟩ := ok_quad_inj happly
      rw [hrej] at hdiscard
      exact .dropped hne hdiscard rfl rfl rfl
    · rename_i hdiscard
      rw [hrej] at hdiscard
      obtain ⟨⟨new, stopped1, request1⟩, hup, happly⟩ := bind_eq_ok.mp happly
      obtain ⟨_, -, happly⟩ := bind_eq_ok.mp happly
      obtain ⟨_, -, happly⟩ := bind_eq_ok.mp happly
      obtain ⟨rfl, rfl, rfl, -⟩ := ok_quad_inj happly
      have hdiscard : r.discardLatestAsyncTokens = false := by simpa using hdiscard
      have hcut := (updateRequestWithOutput_stops hup).2.1
      obtain ⟨-, hashes, status, reason, rfl, hgo, -⟩ := updateRequestWithOutput_spec hup
      refine .appended hne hdiscard (fun hs => (hgo hs).2) (hcut.imp_right fun hstops => ?_) rfl ?_
      · have hview : stopView (rejected batch (out.sampledTokenIds r.requestId) r) = stopView r := by
          rw [hrej]
          rfl
        rw [stopsWithin_congr hview] at hstops
        have hne' : (out.sampledTokenIds r.requestId).dropLast ≠ [] := fun hnil => by
          rw [hnil] at hstops
          cases hstops
        unfold stopsOn
        rw [if_pos hne', hdiscard, hstops, Bool.and_false]
        rfl
      · rw [hrej]
        exact hdiscard
  · rename_i hnil
    rw [not_not] at hnil
    have hrej : rejected batch (out.sampledTokenIds r.requestId) r = r := by
      unfold rejected
      rw [if_neg (fun hboth => hboth.2 hnil)]
    rw [hrej] at happly
    split at happly
    · rename_i hpool
      obtain ⟨rfl, rfl, rfl, -⟩ := ok_quad_inj happly
      exact .nothing hnil hpool.symm rfl rfl
    · rename_i hpool
      obtain ⟨rfl, rfl, rfl, -⟩ := ok_quad_inj happly
      exact .nothing hnil (Bool.not_eq_true _ ▸ hpool).symm rfl rfl

lemma rejected_numOutputPlaceholders (hpos : 0 < r.numOutputPlaceholders) (hne : tokens ≠ [])
    (hlen : tokens.length ≤ 1 + ((batch.scheduledSpecDecodeTokens.get? r.requestId).getD []).length) :
    (rejected batch tokens r).numOutputPlaceholders = r.numOutputPlaceholders -
      (1 + ((batch.scheduledSpecDecodeTokens.get? r.requestId).getD []).length) + tokens.length := by
  have hlength := length_pos_iff.mpr hne
  unfold rejected
  dsimp only
  split
  · unfold Request.rejectTokens
    dsimp only
    omega
  · rename_i hnone
    have hdrafts : ((batch.scheduledSpecDecodeTokens.get? r.requestId).getD []).length = 0 := by
      by_contra hdrafts
      exact hnone ⟨hdrafts, hne⟩
    omega

lemma Stopped.record (h : Stopped s connectorDelay request s')
    (hreq : s.requests.get? request.requestId = some request) (hr' : s'.requests.get? request.requestId = some r') :
    (∃ streamingQueue, request.status.isFinished = true ∧ r' = { request with streamingQueue }) ∨
      (∃ update rest, request.resumable = true ∧ request.streamingQueue = some update :: rest ∧
        { request with streamingQueue := rest }.updateAsSession s.config.blockHasher update = .ok r') ∨
      request.resumable = true ∧ r' = { request with status := .waitingForStreamingReq } := by
  cases h with
  | finished hfinal hfree =>
    obtain ⟨hfin, k, enc, forgotten, -, -, rfl⟩ := freeRequest_eq_ok hfree
    rcases hfinal with ⟨-, rfl, rfl⟩ | ⟨rest, -, -, rfl, rfl⟩
    · cases forgotten with
      | true => simp at hr'
      | false =>
        obtain rfl := some.inj (hreq.symm.trans hr')
        exact .inl ⟨_, hfin, rfl⟩
    · cases forgotten with
      | true => simp at hr'
      | false =>
        have hr' : (s.requests.set request.requestId _).get? request.requestId = some r' := hr'
        rw [get?_set_self] at hr'
        obtain rfl := some.inj hr'
        exact .inl ⟨_, hfin, rfl⟩
  | continued hres hqueue hup =>
    rw [get?_set_self] at hr'
    obtain rfl := some.inj hr'
    exact .inr (.inl ⟨_, _, hres, hqueue, hup⟩)
  | waits hres =>
    rw [get?_set_self] at hr'
    exact .inr (.inr ⟨hres, (some.inj hr').symm⟩)

/-- What processing an output for one request leaves alone, and what it makes of the record. -/
structure RecordUpdated (batch : SchedulerOutput) (out : ModelRunnerOutput) (id : RequestId)
    (s s' : Scheduler) : Prop where
  keys : KeysOk s'.requests
  config : s'.config = s.config
  running : s'.running = s.running
  other : ∀ x, x ≠ id → s'.requests.get? x = s.requests.get? x
  effect : ∀ r', s'.requests.get? id = some r' →
    ∃ r, s.requests.get? id = some r ∧ OutputEffect s.config batch out r r'

lemma UpdatedOne.record {id : RequestId} (h : UpdatedOne batch out connectorDelay [] id u u')
    (hkeys : KeysOk u.s.requests) (hid : batch.numScheduledTokens.contains id = true) :
    RecordUpdated batch out id u.s u'.s := by
  cases h with
  | ignored hcase =>
    refine ⟨hkeys, rfl, rfl, fun x _ => rfl, fun r' hr' => ⟨r', hr', .kept ?_⟩⟩
    rcases hcase with hmem | hnone | ⟨r, hr, hfin⟩
    · cases hmem
    · rw [hnone] at hr'
      cases hr'
    · obtain rfl := some.inj (hr.symm.trans hr')
      exact .inr hfin
  | @goesOn request request' new k outputs _ hreq hfin happly =>
    obtain rfl := hkeys id request hreq
    have hid' : request'.requestId = request.requestId := by
      obtain ⟨-, _, _, _, _, _, rfl, -, -⟩ := appliedOutput_spec happly
      rfl
    refine ⟨hkeys.set hid', rfl, rfl, fun x hx => get?_set_of_ne _ _ hx, fun r' hr' => ?_⟩
    rw [get?_set_self] at hr'
    obtain rfl := some.inj hr'
    exact ⟨request, hreq, .goesOn ⟨hid, hfin, _, _, rfl, happly⟩⟩
  | @stops request request' new k outputs s' _ _ _ hreq hfin happly hstopped =>
    obtain rfl := hkeys id request hreq
    have hid' : request'.requestId = request.requestId := by
      obtain ⟨-, _, _, _, _, _, rfl, -, -⟩ := appliedOutput_spec happly
      rfl
    have heffect := stopEffect hstopped (hkeys.set hid') (get?_set_self _ _ _)
    refine ⟨heffect.keys, heffect.config, heffect.running, fun x hx => ?_, fun r' hr' => ?_⟩
    · rw [heffect.other x hx]
      exact get?_set_of_ne _ _ hx
    · have happlied : Applied u.s.config batch out request new true request' := ⟨hid, hfin, _, _, rfl, happly⟩
      rw [← hid'] at hr' hstopped
      obtain ⟨queue, hend, rfl⟩ | ⟨update, rest, hres, hqueue, hup⟩ | ⟨hres, rfl⟩ :=
        hstopped.record (get?_set_self _ _ _) hr'
      · exact ⟨request, hreq, .ended happlied hend⟩
      · exact ⟨request, hreq, .continued happlied hres hqueue hup⟩
      · exact ⟨request, hreq, .waits happlied hres⟩

lemma updateEach_record {entries : List (RequestId × ℤ)}
    (h : updateEach batch out connectorDelay [] entries u = .ok u') (hnd : (entries.map Prod.fst).Nodup)
    (hentries : ∀ e ∈ entries, batch.numScheduledTokens.contains e.1 = true) (hkeys : KeysOk u.s.requests) :
    KeysOk u'.s.requests ∧ u'.s.config = u.s.config ∧ u'.s.running = u.s.running ∧
      ∀ x, (x ∉ entries.map Prod.fst → u'.s.requests.get? x = u.s.requests.get? x) ∧
        (x ∈ entries.map Prod.fst → ∀ r', u'.s.requests.get? x = some r' →
          ∃ r, u.s.requests.get? x = some r ∧ OutputEffect u.s.config batch out r r') := by
  induction entries generalizing u with
  | nil =>
    obtain rfl := ok.inj h
    exact ⟨hkeys, rfl, rfl, fun x => ⟨fun _ => rfl, nofun⟩⟩
  | cons e rest ih =>
    rw [map_cons, nodup_cons] at hnd
    obtain ⟨u1, h1, hrest⟩ := bind_eq_ok.mp h
    have hone := (updateOne_updated h1 hkeys).2.record hkeys (hentries e mem_cons_self)
    obtain ⟨hkeys', hconfig, hrunning, hget⟩ := ih hrest hnd.2
      (fun e he => hentries e (mem_cons_of_mem _ he)) hone.keys
    refine ⟨hkeys', hconfig.trans hone.config, hrunning.trans hone.running, fun x => ⟨fun hx => ?_,
      fun hx r' hr' => ?_⟩⟩
    · rw [map_cons, mem_cons, not_or] at hx
      rw [(hget x).1 hx.2, hone.other x hx.1]
    · by_cases hrestmem : x ∈ rest.map Prod.fst
      · obtain ⟨r, hr, heffect⟩ := (hget x).2 hrestmem r' hr'
        have hne : x ≠ e.1 := fun heq => hnd.1 (heq ▸ hrestmem)
        rw [hone.other x hne] at hr
        exact ⟨r, hr, hone.config ▸ heffect⟩
      · rw [map_cons, mem_cons] at hx
        obtain rfl := hx.resolve_right hrestmem
        rw [(hget e.1).1 hrestmem] at hr'
        exact hone.effect r' hr'

lemma Transferred.record (h : Transferred s s') (hr' : s'.requests.get? x = some r') :
    s.requests.get? x = some r' := by
  induction h with
  | refl => exact hr'
  | received id _ ih => exact ih hr'
  | freed hreq hfree _ ih =>
    obtain ⟨-, k, -, rfl⟩ := freeBlocks_eq_ok hfree
    have hr := ih hr'
    rw [get?_erase] at hr
    split at hr
    · cases hr
    · exact hr

theorem updateFromOutput_record {outputs : List EngineCoreOutput}
    (h : s.updateFromOutput batch out connectorDelay = .ok (outputs, s')) (hkeys : KeysOk s.requests)
    (hvalid : (out.kvConnectorOutput.map fun o => o.invalidBlockIds).getD [] = [])
    (hr' : s'.requests.get? x = some r') :
    ∃ r, s.requests.get? x = some r ∧ OutputEffect s.config batch out r r' := by
  obtain ⟨failed, s1, u, s2, -, hsame, hu, -, hremoved, htransfer⟩ := updateFromOutput_eq_ok h
  obtain ⟨rfl, rfl⟩ := hsame hvalid
  obtain rfl := hremoved rfl
  have hr := htransfer.record hr'
  obtain ⟨-, -, -, hget⟩ := updateEach_record hu batch.numScheduledTokens.nodup_keys
    (fun e he => by
      rw [← mem_keys_iff]
      exact mem_map.mpr ⟨e, he, rfl⟩) hkeys
  have hr : u.s.requests.get? x = some r' := hr
  by_cases hx : x ∈ batch.numScheduledTokens.entries.map Prod.fst
  · exact (hget x).2 hx r' hr
  · rw [(hget x).1 hx] at hr
    refine ⟨r', hr, .kept (.inl ?_)⟩
    rw [hkeys x r' hr, ← Bool.not_eq_true, ← mem_keys_iff]
    exact hx

end Scheduler

end CustomAi.Vllm
