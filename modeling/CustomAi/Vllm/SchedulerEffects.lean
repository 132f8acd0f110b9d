import CustomAi.Vllm.ScheduleMoves
import CustomAi.Vllm.UpdateFromOutput

/-!
# What the other calls change

Inversion lemmas for the methods of the scheduler besides `schedule`: how each of them changes the
records of the requests, the queues and the caches.
-/

namespace CustomAi.Vllm

open List Option Except Dict Request

namespace Scheduler

variable {s s' : Scheduler} {connectorDelay : RequestId → Bool}

variable {request : Request}

lemma freeBlocks_eq_ok (h : s.freeBlocks request = .ok s') :
    request.status.isFinished = true ∧ ∃ kvCacheManager, s.kvCacheManager.free request = .ok kvCacheManager ∧
      s' = { s with kvCacheManager, requests := s.requests.erase request.requestId } := by
  obtain ⟨_, hfin, h⟩ := bind_eq_ok.mp h
  obtain ⟨kvCacheManager, hkv, h⟩ := bind_eq_ok.mp h
  obtain ⟨_, -, h⟩ := bind_eq_ok.mp h
  obtain rfl := ok.inj h
  exact ⟨ensure_eq_ok.mp hfin, kvCacheManager, hkv, rfl⟩

/-- What freeing a finished request does to the KV cache, and whether the request is forgotten. -/
inductive Freed (config : SchedulerConfig) (k : KVCacheManager) (request : Request) :
    KVCacheManager → Bool → Prop
  | kept {k₁ : KVCacheManager} : (k₁ = k ∨ config.hasConnector = true ∧
      k.removeSkippedBlocks request.requestId request.numTokens = .ok k₁) → Freed config k request k₁ false
  | forgotten {k₁ k₂ : KVCacheManager} : (k₁ = k ∨ config.hasConnector = true ∧
      k.removeSkippedBlocks request.requestId request.numTokens = .ok k₁) →
      k₁.free request = .ok k₂ → Freed config k request k₂ true

lemma freeRequest_eq_ok {delayFreeBlocks : Bool}
    (h : s.freeRequest connectorDelay request delayFreeBlocks = .ok s') :
    request.status.isFinished = true ∧ ∃ kvCacheManager encoderCache forgotten,
      Freed s.config s.kvCacheManager request kvCacheManager forgotten ∧
      s.encoderCache.free s.config.setOrder request = .ok encoderCache ∧
      s' = { s with
        kvCacheManager, encoderCache
        finishedReqIds := insert request.requestId s.finishedReqIds
        requests := if forgotten then s.requests.erase request.requestId else s.requests } := by
  obtain ⟨_, hfin, h⟩ := bind_eq_ok.mp h
  obtain ⟨s₁, hconn, h⟩ := bind_eq_ok.mp h
  obtain ⟨encoderCache, henc, h⟩ := bind_eq_ok.mp h
  have hs1 : ∃ k₁, (k₁ = s.kvCacheManager ∨ s.config.hasConnector = true ∧
      s.kvCacheManager.removeSkippedBlocks request.requestId request.numTokens = .ok k₁) ∧
      s₁ = { s with kvCacheManager := k₁ } := by
    unfold connectorFinished at hconn
    split at hconn
    · rename_i hhas
      obtain ⟨k₁, hk1, hconn⟩ := bind_eq_ok.mp hconn
      obtain ⟨_, -, hconn⟩ := bind_eq_ok.mp hconn
      obtain rfl := ok.inj hconn
      exact ⟨k₁, .inr ⟨hhas, hk1⟩, rfl⟩
    · obtain rfl := ok.inj hconn
      exact ⟨_, .inl rfl, rfl⟩
  obtain ⟨k₁, hk1, rfl⟩ := hs1
  refine ⟨ensure_eq_ok.mp hfin, ?_⟩
  dsimp only at h
  split at h
  · obtain rfl := ok.inj h
    exact ⟨k₁, encoderCache, false, .kept hk1, henc, rfl⟩
  · obtain ⟨-, k₂, hk2, rfl⟩ := freeBlocks_eq_ok h
    exact ⟨k₂, encoderCache, true, .forgotten hk1 hk2, henc, rfl⟩

variable {finishedStatus : RequestStatus} {id : RequestId}

lemma finishRequest_eq_ok
    (h : s.finishRequest connectorDelay finishedStatus id = .ok s') (hkeys : KeysOk s.requests) :
    ∃ request kvCacheManager encoderCache forgotten finishedRecvingKvReqIds failedRecvingKvReqIds,
      s.requests.get? id = some request ∧
      Freed s.config s.kvCacheManager { request with status := finishedStatus } kvCacheManager forgotten ∧
      s.encoderCache.free s.config.setOrder { request with status := finishedStatus } = .ok encoderCache ∧
      s' = { s with
        kvCacheManager, encoderCache, finishedRecvingKvReqIds, failedRecvingKvReqIds
        finishedReqIds := insert id s.finishedReqIds
        requests :=
          if forgotten then (s.requests.set id { request with status := finishedStatus }).erase id
          else s.requests.set id { request with status := finishedStatus } } := by
  obtain ⟨request, hreq, h⟩ := bind_eq_ok.mp h
  rw [request_eq_ok] at hreq
  obtain rfl := hkeys id request hreq
  refine ⟨request, ?_⟩
  dsimp only at h
  split at h
  all_goals
    obtain ⟨-, kvCacheManager, encoderCache, forgotten, hfreed, henc, rfl⟩ := freeRequest_eq_ok h
    exact ⟨kvCacheManager, encoderCache, forgotten, _, _, hreq, hfreed, henc, rfl⟩

variable {ids : List RequestId}

lemma finishEach_spec (h : finishEach connectorDelay finishedStatus ids s = .ok s') (hnd : ids.Nodup)
    (hkeys : KeysOk s.requests) : KeysOk s'.requests ∧
      (∃ requests kvCacheManager encoderCache finishedReqIds finishedRecvingKvReqIds
        failedRecvingKvReqIds, s' = { s with
          requests, kvCacheManager, encoderCache, finishedReqIds, finishedRecvingKvReqIds
          failedRecvingKvReqIds }) ∧ (∀ x ∉ ids, s'.requests.get? x = s.requests.get? x) ∧
      ∀ x ∈ ids, ∃ r, s.requests.get? x = some r ∧ (s'.requests.get? x = none ∨
        s'.requests.get? x = some { r with status := finishedStatus }) := by
  induction ids generalizing s with
  | nil =>
    obtain rfl := ok.inj h
    exact ⟨hkeys, ⟨_, _, _, _, _, _, rfl⟩, fun x _ => rfl, fun x hx => by cases hx⟩
  | cons id rest ih =>
    rw [nodup_cons] at hnd
    obtain ⟨s₁, h1, hrest⟩ := bind_eq_ok.mp h
    obtain ⟨request, k₁, enc1, forgotten, recv1, failed1, hreq, -, -, hs1⟩ := finishRequest_eq_ok h1 hkeys
    have hid := hkeys id request hreq
    have hkeys1 : KeysOk s₁.requests := by
      rw [hs1]
      split
      · refine KeysOk.erase (hkeys.set ?_) id
        exact hid
      · exact hkeys.set hid
    have hsame1 : ∀ x, x ≠ id → s₁.requests.get? x = s.requests.get? x := by
      intro x hx
      rw [hs1]
      split
      · rw [get?_erase_of_ne _ hx, get?_set_of_ne _ _ hx]
      · rw [get?_set_of_ne _ _ hx]
    have hid1 : s₁.requests.get? id = none ∨
        s₁.requests.get? id = some { request with status := finishedStatus } := by
      rw [hs1]
      split
      · exact .inl (get?_erase_self _ _)
      · exact .inr (get?_set_self _ _ _)
    obtain ⟨hkeys', ⟨req, k, enc, fin, recv, failed, hs'⟩, hsame, hdone⟩ := ih hrest hnd.2 hkeys1
    refine ⟨hkeys', ⟨req, k, enc, fin, recv, failed, ?_⟩, fun x hx => ?_, fun x hx => ?_⟩
    · rw [hs', hs1]
    · rw [mem_cons, not_or] at hx
      rw [hsame x hx.2, hsame1 x hx.1]
    · rcases mem_cons.mp hx with rfl | hx
      · refine ⟨request, hreq, ?_⟩
        rw [hsame x hnd.1]
        exact hid1
      · have hne : x ≠ id := fun heq => hnd.1 (heq ▸ hx)
        obtain ⟨r, hr, hr'⟩ := hdone x hx
        rw [hsame1 x hne] at hr
        exact ⟨r, hr, hr'⟩

/-- The requests that `finish_requests` finishes. -/
def validRequests (s : Scheduler) (requestIds : List RequestId) : List RequestId :=
  requestIds.dedup.filter (s.hasStatus fun status => !status.isFinished)

variable {evictBlocks : Bool} {v v' : InvalidBlocks} {requestIds : List RequestId}
  {out : ModelRunnerOutput} {session : Request} {update : StreamingUpdate}
  (config : SchedulerConfig)

lemma mem_validRequests : id ∈ s.validRequests requestIds ↔ id ∈ requestIds ∧
      ∃ r, s.requests.get? id = some r ∧ r.status.isFinished = false := by
  unfold validRequests hasStatus
  rw [mem_filter]
  cases s.requests.get? id <;> simp

lemma validRequests_nodup (requestIds : List RequestId) : (s.validRequests requestIds).Nodup :=
  (nodup_dedup requestIds).filter _

lemma finishRequests_eq_ok (h : s.finishRequests connectorDelay requestIds finishedStatus = .ok s') :
    finishedStatus.isFinished = true ∧
      finishEach connectorDelay finishedStatus (s.validRequests requestIds) { s with
        running := removeAll s.running
          ((s.validRequests requestIds).filter (s.hasStatus fun status => status = .running))
        numWaitingForStreamingInput := s.numWaitingForStreamingInput - (s.validRequests requestIds).countP
            (s.hasStatus fun status => status = .waitingForStreamingReq)
        waiting :=
          let ids := (s.validRequests requestIds).filter
            (s.hasStatus fun status => status ≠ .running)
          if ids = [] then s.waiting
          else s.waiting.removeRequests s.config.policy s.before ids } = .ok s' := by
  obtain ⟨_, hfin, h⟩ := bind_eq_ok.mp h
  exact ⟨ensure_eq_ok.mp hfin, h⟩

lemma count_removeAll {lst items : List RequestId} (h : ∀ x ∈ items, lst.count x ≤ items.count x)
    (x : RequestId) : (removeAll lst items).count x = if x ∈ items then 0 else lst.count x := by
  unfold removeAll
  split
  · rw [if_neg not_mem_nil]
  · rename_i item
    by_cases hx : x = item
    · subst hx
      have hle := h x mem_cons_self
      rw [count_singleton_self] at hle
      rw [if_pos mem_cons_self, count_erase_self]
      omega
    · rw [if_neg (by simpa using hx), count_erase_of_ne hx]
  · by_cases hx : x ∈ items
    · rw [if_pos hx, count_eq_zero]
      simp [hx]
    · rw [if_neg hx, count_filter (by simpa using hx)]

lemma count_removeRequests {policy : SchedulingPolicy} {lt : RequestId → RequestId → Bool}
    {q : RequestQueue} (x : RequestId) :
    (RequestQueue.removeRequests policy lt q ids).count x = if x ∈ ids then 0 else q.count x := by
  rw [(RequestQueue.removeRequests_perm ids).count_eq x]
  by_cases hx : x ∈ ids
  · rw [if_pos hx, count_eq_zero]
    simp [hx]
  · rw [if_neg hx, count_filter (by simpa using hx)]

variable {blockHasher : Option BlockHasher}

lemma updateAsSession_eq_ok {updated : Request} (h : session.updateAsSession blockHasher update = .ok updated) :
    updated.requestId = session.requestId ∧ updated.status = .waiting ∧
      updated.resumable = session.resumable ∧ updated.streamingQueue = session.streamingQueue := by
  unfold updateAsSession at h
  split at h
  · cases h
  · obtain rfl := ok.inj h
    exact ⟨rfl, rfl, rfl, rfl⟩

lemma updateRequestAsSession_eq_ok (h : s.updateRequestAsSession session update = .ok s') :
    ∃ updated, session.updateAsSession s.config.blockHasher update = .ok updated ∧
      s' = { s with
        requests := s.requests.set session.requestId updated
        numWaitingForStreamingInput := s.numWaitingForStreamingInput -
          if session.status = .waitingForStreamingReq then 1 else 0 } := by
  obtain ⟨updated, hup, h⟩ := bind_eq_ok.mp h
  have hid := (updateAsSession_eq_ok hup).1
  refine ⟨updated, hup, ?_⟩
  split at h
  · rename_i hstatus
    obtain rfl := ok.inj h
    rw [if_pos hstatus, ← hid]
    rfl
  · rename_i hstatus
    obtain rfl := ok.inj h
    rw [if_neg hstatus, ← hid, sub_zero]
    rfl

/-- What `add_request` does. -/
inductive Added (s : Scheduler) (connectorDelay : RequestId → Bool) (request : Request) :
    Scheduler → Prop
  | new {waiting : RequestQueue} : s.requests.get? request.requestId = none →
      waiting.Perm (request.requestId :: s.waiting) →
      Added s connectorDelay request { s with
        requests := s.requests.set request.requestId { request with streamingQueue := [] }
        waiting }
  | queued {existing : Request} : s.requests.get? request.requestId = some existing →
      existing.status ≠ .waitingForStreamingReq → existing.resumable = true →
      Added s connectorDelay request { s with
        requests := s.requests.set request.requestId { existing with
          streamingQueue := existing.streamingQueue ++ [StreamingUpdate.fromRequest request] } }
  | continued {existing updated : Request} {update : StreamingUpdate} :
      s.requests.get? request.requestId = some existing → existing.status = .waitingForStreamingReq →
      StreamingUpdate.fromRequest request = some update →
      existing.updateAsSession s.config.blockHasher update = .ok updated →
      Added s connectorDelay request { s with
        requests := s.requests.set request.requestId updated
        numWaitingForStreamingInput := s.numWaitingForStreamingInput - 1 }
  | ended {existing : Request} {s' : Scheduler} :
      s.requests.get? request.requestId = some existing →
      existing.status = .waitingForStreamingReq → StreamingUpdate.fromRequest request = none →
      s.finishRequests connectorDelay [request.requestId] .finishedAborted = .ok s' →
      Added s connectorDelay request s'

lemma addRequest_added (h : s.addRequest connectorDelay request = .ok s')
    (hkeys : KeysOk s.requests) : Added s connectorDelay request s' := by
  unfold addRequest at h
  split at h
  · rename_i existing hexisting
    have hid := hkeys _ existing hexisting
    dsimp only at h
    split at h
    · rename_i hstatus
      obtain ⟨_, hres, h⟩ := bind_eq_ok.mp h
      obtain rfl := ok.inj h
      rw [setRequest_eq (show requestId { existing with
        streamingQueue := existing.streamingQueue ++ [StreamingUpdate.fromRequest request] } =
        request.requestId from hid)]
      exact .queued hexisting hstatus (ensure_eq_ok.mp hres)
    · rename_i hstatus
      rw [not_not] at hstatus
      split at h
      · rename_i update hupdate
        obtain ⟨updated, hup, rfl⟩ := updateRequestAsSession_eq_ok h
        rw [if_pos hstatus, hid]
        exact .continued hexisting hstatus hupdate hup
      · rename_i hupdate
        exact .ended hexisting hstatus hupdate h
  · rename_i hnone
    obtain rfl := ok.inj h
    exact .new hnone (RequestQueue.addRequest_perm _)

lemma preemptAll_succ_eq_ok {fuel : ℕ} (h : preemptAll (fuel + 1) s = .ok s')
    (hkeys : KeysOk s.requests) : s.running = [] ∧ s' = s ∨
      ∃ running id request kvCacheManager encoderCache waiting,
        s.running = running ++ [id] ∧ s.requests.get? id = some request ∧
        request.status = .running ∧ s.kvCacheManager.free request = .ok kvCacheManager ∧
        s.encoderCache.free s.config.setOrder request = .ok encoderCache ∧ waiting.Perm (id :: s.waiting) ∧
        preemptAll fuel { s with
          running, kvCacheManager, encoderCache, waiting
          requests := s.requests.set id { request.preempted with
            numOutputPlaceholders := 0
            discardLatestAsyncTokens := true } } = .ok s' := by
  unfold preemptAll at h
  split at h
  · rename_i hnone
    obtain rfl := ok.inj h
    exact .inl ⟨List.getLast?_eq_none_iff.mp hnone, rfl⟩
  · rename_i id hlast
    obtain ⟨request, hreq, h⟩ := bind_eq_ok.mp h
    obtain ⟨s₁, hpre, h⟩ := bind_eq_ok.mp h
    obtain ⟨request1, hreq1, h⟩ := bind_eq_ok.mp h
    rw [request_eq_ok] at hreq hreq1
    obtain ⟨hstatus, kvCacheManager, encoderCache, waiting, hkv, henc, hwaiting, rfl⟩ := preemptRequest_eq_ok hpre
    obtain rfl := hkeys id request hreq
    rw [Dict.get?_set_self] at hreq1
    obtain rfl := some.inj hreq1
    refine .inr ⟨s.running.dropLast, request.requestId, request, kvCacheManager, encoderCache,
      waiting, (dropLast_append_getLast? _ hlast).symm, hreq, hstatus, hkv, henc, hwaiting, ?_⟩
    simp only [setRequest] at h
    rw [show request.preempted.requestId = request.requestId from rfl, Dict.set_set] at h
    exact h

lemma resetPrefixCache_eq_ok {resetRunningRequests resetConnector connectorReset success : Bool}
    (h : s.resetPrefixCache resetRunningRequests resetConnector connectorReset = .ok (success, s')) :
    ∃ s₁, (s₁ = s ∧ resetRunningRequests = false ∨ resetRunningRequests = true ∧ ∃ s0,
        preemptAll s.running.length s = .ok s0 ∧ s₁ = { s0 with prevStepScheduledReqIds := ∅ }) ∧
      s' = { s₁ with kvCacheManager := s₁.kvCacheManager.resetPrefixCache.2 } := by
  obtain ⟨s₁, hs1, h⟩ := bind_eq_ok.mp h
  obtain ⟨_, -, h⟩ := bind_eq_ok.mp h
  obtain ⟨-, rfl⟩ := ok_pair_inj h
  refine ⟨s₁, ?_, rfl⟩
  split at hs1
  · rename_i hreset
    obtain ⟨s0, hs0, hs1⟩ := bind_eq_ok.mp hs1
    obtain rfl := ok.inj hs1
    exact .inr ⟨hreset, s0, hs0, rfl⟩
  · rename_i hreset
    obtain rfl := ok.inj hs1
    exact .inl ⟨rfl, by simpa using hreset⟩

variable {maxModelLen : ℕ}

lemma checkStop_isFinished {status : RequestStatus} {stopReason : Option TokenId}
    (h : checkStop request maxModelLen = .ok (some (status, stopReason))) : status.isFinished = true := by
  unfold checkStop at h
  split at h
  · cases h
  · split at h
    · cases h
    · split at h
      · obtain ⟨rfl, -⟩ := Prod.mk.inj (some.inj (ok.inj h))
        rfl
      · split at h
        · obtain ⟨rfl, -⟩ := Prod.mk.inj (some.inj (ok.inj h))
          rfl
        · split at h
          · obtain ⟨rfl, -⟩ := Prod.mk.inj (some.inj (ok.inj h))
            rfl
          · cases h

variable {newTokenIds : List TokenId} {stopped : Bool} {request' : Request}

lemma updateRequestWithOutput_cons_eq_ok {token : TokenId} {rest : List TokenId}
    (h : request.updateRequestWithOutput blockHasher maxModelLen (token :: rest) =
      .ok (newTokenIds, stopped, request')) :
    (∃ stop, checkStop (request.appendOutputTokenIds blockHasher [token]) maxModelLen = .ok (some stop) ∧
      newTokenIds = [token] ∧ stopped = true ∧ request' = { request.appendOutputTokenIds blockHasher [token] with
        status := stop.1
        stopReason := stop.2 <|> request.stopReason }) ∨
    ∃ new, checkStop (request.appendOutputTokenIds blockHasher [token]) maxModelLen = .ok none ∧
      (request.appendOutputTokenIds blockHasher [token]).updateRequestWithOutput blockHasher maxModelLen rest =
        .ok (new, stopped, request') ∧ newTokenIds = token :: new := by
  obtain ⟨_, -, h⟩ := bind_eq_ok.mp h
  obtain ⟨stop, hstop, h⟩ := bind_eq_ok.mp h
  cases stop with
  | some stop =>
    obtain ⟨rfl, rfl, rfl⟩ := ok_triple_inj h
    exact .inl ⟨stop, hstop, rfl, rfl, rfl⟩
  | none =>
    obtain ⟨⟨new, stopped1, request1⟩, hrest, h⟩ := bind_eq_ok.mp h
    obtain ⟨rfl, rfl, rfl⟩ := ok_triple_inj h
    exact .inr ⟨new, hstop, hrest, rfl⟩

section

variable {tokens : List TokenId} (h : request.updateRequestWithOutput blockHasher maxModelLen tokens =
  .ok (newTokenIds, stopped, request'))

include h in
lemma updateRequestWithOutput_spec : newTokenIds <+: tokens ∧ ∃ blockHashes status stopReason,
      request' = { request with
        allTokenIds := request.allTokenIds ++ newTokenIds
        outputTokenIds := request.outputTokenIds ++ newTokenIds
        blockHashes, status, stopReason } ∧ (stopped = false → status = request.status ∧ newTokenIds = tokens) ∧
      (stopped = true → status.isFinished = true) := by
  induction tokens generalizing request newTokenIds stopped request' with
  | nil =>
    obtain ⟨rfl, rfl, rfl⟩ := ok_triple_inj h
    exact ⟨prefix_rfl, request.blockHashes, request.status, request.stopReason, by simp, fun _ => ⟨rfl, rfl⟩, nofun⟩
  | cons token rest ih =>
    obtain ⟨stop, hstop, rfl, rfl, rfl⟩ | ⟨new, -, hrest, rfl⟩ := updateRequestWithOutput_cons_eq_ok h
    · exact ⟨⟨rest, rfl⟩, _, stop.1, _, rfl, nofun, fun _ => checkStop_isFinished hstop⟩
    · obtain ⟨hinitial, hashes, status, reason, rfl, hgo, hstopped⟩ := ih hrest
      refine ⟨cons_prefix_cons.mpr ⟨rfl, hinitial⟩, hashes, status, reason, ?_, fun hs => ?_, hstopped⟩
      · simp [appendOutputTokenIds, extendBlockHashes]
      · obtain ⟨hstatus, rfl⟩ := hgo hs
        exact ⟨hstatus, rfl⟩

def stopsWithin (maxModelLen : ℕ) : List TokenId → Request → Bool
  | [], _ => false
  | token :: rest, request =>
    let request := { request with
      allTokenIds := request.allTokenIds ++ [token]
      outputTokenIds := request.outputTokenIds ++ [token] }
    match checkStop request maxModelLen with
    | .ok (some _) => true
    | _ => stopsWithin maxModelLen rest request

/-- What `check_stop` reads. -/
def stopView (request : Request) :
    List TokenId × List TokenId × SamplingParams × Option TokenId × ℕ :=
  (request.allTokenIds, request.outputTokenIds, request.samplingParams, request.eosTokenId, request.maxTokens)

lemma checkStop_congr (h : stopView request = stopView request')
    (maxModelLen : ℕ) : checkStop request maxModelLen = checkStop request' maxModelLen := by
  simp only [stopView, Prod.mk.injEq] at h
  obtain ⟨hall, hout, hparams, heos, hmax⟩ := h
  unfold checkStop numOutputTokens numTokens
  rw [hall, hout, hparams, heos, hmax]

lemma stopsWithin_congr (h : stopView request = stopView request') (maxModelLen : ℕ) (tokens : List TokenId) :
    stopsWithin maxModelLen tokens request = stopsWithin maxModelLen tokens request' := by
  induction tokens generalizing request request' with
  | nil => rfl
  | cons token rest ih =>
    have hview := h
    simp only [stopView, Prod.mk.injEq] at hview
    obtain ⟨hall, hout, hparams, heos, hmax⟩ := hview
    have hnext : stopView { request with
        allTokenIds := request.allTokenIds ++ [token]
        outputTokenIds := request.outputTokenIds ++ [token] } = stopView { request' with
        allTokenIds := request'.allTokenIds ++ [token]
        outputTokenIds := request'.outputTokenIds ++ [token] } := by
      simp [stopView, hall, hout, hparams, heos, hmax]
    unfold stopsWithin
    dsimp only
    rw [checkStop_congr hnext]
    split
    · rfl
    · exact ih hnext

lemma stopsWithin_cons (blockHasher : Option BlockHasher) (token : TokenId) (rest : List TokenId) :
    stopsWithin maxModelLen (token :: rest) request =
      match checkStop (request.appendOutputTokenIds blockHasher [token]) maxModelLen with
      | .ok (some _) => true
      | _ => stopsWithin maxModelLen rest (request.appendOutputTokenIds blockHasher [token]) := by
  have hview : stopView (request.appendOutputTokenIds blockHasher [token]) =
      stopView { request with
        allTokenIds := request.allTokenIds ++ [token]
        outputTokenIds := request.outputTokenIds ++ [token] } := rfl
  rw [checkStop_congr hview, stopsWithin_congr hview]
  rfl

include h in
lemma updateRequestWithOutput_stops : stopped = stopsWithin maxModelLen tokens request ∧
    (newTokenIds = tokens ∨ stopsWithin maxModelLen tokens.dropLast request = true) ∧
    (stopped = false → tokens ≠ [] → checkStop request' maxModelLen = .ok none) := by
  induction tokens generalizing request newTokenIds stopped request' with
  | nil =>
    obtain ⟨rfl, rfl, -⟩ := ok_triple_inj h
    exact ⟨rfl, .inl rfl, fun _ hne => absurd rfl hne⟩
  | cons token rest ih =>
    obtain ⟨stop, hstop, rfl, rfl, -⟩ | ⟨new, hstop, hrest, rfl⟩ := updateRequestWithOutput_cons_eq_ok h
    · refine ⟨by rw [stopsWithin_cons blockHasher, hstop], ?_, nofun⟩
      cases rest with
      | nil => exact .inl rfl
      | cons token' rest => exact .inr (by rw [dropLast_cons_cons, stopsWithin_cons blockHasher, hstop])
    · obtain ⟨hstops, hcut, hcheck⟩ := ih hrest
      refine ⟨by rw [stopsWithin_cons blockHasher, hstop, hstops], ?_⟩
      cases rest with
      | nil =>
        obtain ⟨rfl, -, rfl⟩ := ok_triple_inj hrest
        exact ⟨.inl rfl, fun _ _ => hstop⟩
      | cons token' rest =>
        rw [dropLast_cons_cons, stopsWithin_cons blockHasher, hstop]
        exact ⟨hcut.imp_left (congrArg _), fun hs _ => hcheck hs (cons_ne_nil _ _)⟩

end

inductive Stopped (s : Scheduler) (connectorDelay : RequestId → Bool) (request : Request) :
    Scheduler → Prop
  | finished {final : Request} {s₁ s' : Scheduler} :
      (request.resumable = false ∧ final = request ∧ s₁ = s ∨ ∃ rest,
        request.resumable = true ∧ request.streamingQueue = none :: rest ∧
        final = { request with streamingQueue := rest } ∧ s₁ = s.setRequest final) →
      s₁.freeRequest connectorDelay final false = .ok s' → Stopped s connectorDelay request s'
  | continued {update : StreamingUpdate} {rest : List (Option StreamingUpdate)}
      {updated : Request} {waiting : RequestQueue} :
      request.resumable = true → request.streamingQueue = some update :: rest →
      { request with streamingQueue := rest }.updateAsSession s.config.blockHasher update = .ok updated →
      waiting.Perm (request.requestId :: s.waiting) →
      Stopped s connectorDelay request { s with
        waiting
        requests := s.requests.set request.requestId updated }
  | waits {waiting : RequestQueue} :
      request.resumable = true → request.streamingQueue = [] → waiting.Perm (request.requestId :: s.waiting) →
      Stopped s connectorDelay request { s with
        waiting
        requests := s.requests.set request.requestId
          { request with status := .waitingForStreamingReq }
        numWaitingForStreamingInput := s.numWaitingForStreamingInput + 1 }

lemma stopRequest_stopped (h : s.stopRequest connectorDelay request = .ok s')
    (hfin : request.status.isFinished = true) (hreq : s.requests.get? request.requestId = some request) :
    Stopped s connectorDelay request s' := by
  obtain ⟨⟨finished, s₁⟩, hstopped, h⟩ := bind_eq_ok.mp h
  unfold handleStoppedRequest at hstopped
  split at hstopped
  · rename_i hres
    obtain ⟨rfl, rfl⟩ := ok_pair_inj hstopped
    obtain ⟨final, hfinal, h⟩ := bind_eq_ok.mp h
    obtain rfl := some.inj (hreq.symm.trans (request_eq_ok.mp hfinal))
    exact .finished (.inl ⟨hres, rfl, rfl⟩) h
  · rename_i hres
    have hres : request.resumable = true := by simpa using hres
    split at hstopped
    · rename_i rest hqueue
      obtain ⟨rfl, rfl⟩ := ok_pair_inj hstopped
      obtain ⟨final, hfinal, h⟩ := bind_eq_ok.mp h
      rw [request_eq_ok, setRequest_requests, get?_set_self] at hfinal
      obtain rfl := some.inj hfinal
      exact .finished (.inr ⟨rest, hres, hqueue, rfl, rfl⟩) h
    · rename_i update rest hqueue
      obtain ⟨s2, hsession, hstopped⟩ := bind_eq_ok.mp hstopped
      obtain ⟨rfl, rfl⟩ := ok_pair_inj hstopped
      obtain rfl := ok.inj h
      obtain ⟨updated, hup, rfl⟩ := updateRequestAsSession_eq_ok hsession
      have hne : request.status ≠ .waitingForStreamingReq := fun hs => by
        rw [hs] at hfin
        cases hfin
      rw [if_neg hne, sub_zero]
      exact .continued hres hqueue hup (RequestQueue.addRequest_perm _)
    · rename_i hqueue
      obtain ⟨rfl, rfl⟩ := ok_pair_inj hstopped
      obtain rfl := ok.inj h
      exact .waits hres hqueue (RequestQueue.addRequest_perm _)

def rejected (batch : SchedulerOutput) (generatedTokenIds : List TokenId) (request : Request) :
    Request :=
  let numDraftTokens := ((batch.scheduledSpecDecodeTokens.get? request.requestId).getD []).length
  if numDraftTokens ≠ 0 ∧ generatedTokenIds ≠ [] then
    request.rejectTokens (numDraftTokens - ((generatedTokenIds.length : ℤ) - 1))
  else request

lemma rejected_eq (batch : SchedulerOutput) (generatedTokenIds : List TokenId)
    (request : Request) : ∃ numComputedTokens numOutputPlaceholders, rejected batch generatedTokenIds request =
        { request with numComputedTokens, numOutputPlaceholders } := by
  unfold rejected
  dsimp only
  split
  · exact ⟨_, _, rfl⟩
  · exact ⟨_, _, rfl⟩

variable {generatedTokenIds : List TokenId} {hasPoolerOutput : Bool}
  {kvCacheManager : KVCacheManager}

variable {batch : SchedulerOutput}

lemma appliedOutput_spec (h : s.applyTokens (rejected batch generatedTokenIds request) generatedTokenIds
      hasPoolerOutput = .ok (newTokenIds, stopped, request', kvCacheManager)) :
    newTokenIds <+: generatedTokenIds ∧ ∃ blockHashes status stopReason numOutputPlaceholders
      discardLatestAsyncTokens, request' = { request with
        numComputedTokens := (rejected batch generatedTokenIds request).numComputedTokens
        allTokenIds := request.allTokenIds ++ newTokenIds
        outputTokenIds := request.outputTokenIds ++ newTokenIds
        blockHashes, status, stopReason, numOutputPlaceholders, discardLatestAsyncTokens } ∧
      (stopped = false → status = request.status) ∧ (stopped = true → status.isFinished = true) := by
  obtain ⟨a, b, hrej⟩ := rejected_eq batch generatedTokenIds request
  rw [hrej] at h ⊢
  unfold applyTokens at h
  split at h
  · unfold updateRequestWithOutput at h
    split at h
    · split at h
      · obtain ⟨rfl, rfl, rfl, rfl⟩ := ok_quad_inj h
        exact ⟨ nil_prefix, _, _, _, _, _, by rw [append_nil, append_nil], fun _ => rfl, (by rintro ⟨⟩)⟩
      · obtain ⟨⟨new, stopped1, request1⟩, hup, h⟩ := bind_eq_ok.mp h
        obtain ⟨_, -, h⟩ := bind_eq_ok.mp h
        obtain ⟨k, -, h⟩ := bind_eq_ok.mp h
        obtain ⟨rfl, rfl, rfl, rfl⟩ := ok_quad_inj h
        obtain ⟨hinitial, hashes, status, reason, rfl, hgo, hstop⟩ := updateRequestWithOutput_spec hup
        exact ⟨hinitial, hashes, status, reason, _, _, rfl, fun hs => (hgo hs).1, hstop⟩
    · obtain ⟨⟨new, stopped1, request1⟩, hup, h⟩ := bind_eq_ok.mp h
      obtain ⟨rfl, rfl, rfl, rfl⟩ := ok_quad_inj h
      obtain ⟨hinitial, hashes, status, reason, rfl, hgo, hstop⟩ := updateRequestWithOutput_spec hup
      exact ⟨hinitial, hashes, status, reason, _, _, rfl, fun hs => (hgo hs).1, hstop⟩
  · split at h
    · obtain ⟨rfl, rfl, rfl, rfl⟩ := ok_quad_inj h
      exact ⟨ nil_prefix, _, _, _, _, _, by rw [append_nil, append_nil], (by rintro ⟨⟩), fun _ => rfl⟩
    · obtain ⟨rfl, rfl, rfl, rfl⟩ := ok_quad_inj h
      exact ⟨ nil_prefix, _, _, _, _, _, by rw [append_nil, append_nil], fun _ => rfl, (by rintro ⟨⟩)⟩

def stopsOn (config : SchedulerConfig) (request : Request) (generatedTokenIds : List TokenId)
    (hasPoolerOutput : Bool) : Bool :=
  if generatedTokenIds ≠ [] then
    !(config.asyncScheduling && request.discardLatestAsyncTokens) &&
      stopsWithin config.maxModelLen generatedTokenIds request
  else request.poolingParams && hasPoolerOutput

lemma stopsOn_congr (hview : stopView request = stopView request')
    (hdiscard : request.discardLatestAsyncTokens = request'.discardLatestAsyncTokens)
    (hpooling : request.poolingParams = request'.poolingParams) (tokens : List TokenId)
    (hasPoolerOutput : Bool) : stopsOn config request tokens hasPoolerOutput =
      stopsOn config request' tokens hasPoolerOutput := by
  unfold stopsOn
  rw [stopsWithin_congr hview, hdiscard, hpooling]

lemma stopsOn_rejected (batch : SchedulerOutput) (tokens : List TokenId) (request : Request)
    (hasPoolerOutput : Bool) : stopsOn config (rejected batch tokens request) tokens hasPoolerOutput =
      stopsOn config request tokens hasPoolerOutput := by
  obtain ⟨a, b, hrej⟩ := rejected_eq batch tokens request
  refine stopsOn_congr config ?_ ?_ ?_ tokens hasPoolerOutput <;> rw [hrej]
  rfl

lemma applyTokens_stops (h : s.applyTokens request generatedTokenIds hasPoolerOutput =
      .ok (newTokenIds, stopped, request', kvCacheManager)) :
    stopped = stopsOn s.config request generatedTokenIds hasPoolerOutput := by
  unfold applyTokens at h
  unfold stopsOn
  split at h
  · rename_i hne
    rw [if_pos hne]
    unfold updateRequestWithOutput at h
    split at h
    · rename_i hasync
      split at h
      · rename_i hdiscard
        obtain ⟨-, rfl, -, -⟩ := ok_quad_inj h
        simp [hasync, hdiscard]
      · rename_i hdiscard
        obtain ⟨⟨new, stopped1, request1⟩, hup, h⟩ := bind_eq_ok.mp h
        obtain ⟨_, -, h⟩ := bind_eq_ok.mp h
        obtain ⟨k, -, h⟩ := bind_eq_ok.mp h
        obtain ⟨-, rfl, -, -⟩ := ok_quad_inj h
        simp [hdiscard, (updateRequestWithOutput_stops hup).1]
    · rename_i hsync
      obtain ⟨⟨new, stopped1, request1⟩, hup, h⟩ := bind_eq_ok.mp h
      obtain ⟨-, rfl, -, -⟩ := ok_quad_inj h
      simp [hsync, (updateRequestWithOutput_stops hup).1]
  · rename_i hnil
    rw [if_neg hnil]
    split at h
    · rename_i hpool
      obtain ⟨-, rfl, -, -⟩ := ok_quad_inj h
      exact hpool.symm
    · rename_i hpool
      obtain ⟨-, rfl, -, -⟩ := ok_quad_inj h
      simpa using hpool

inductive UpdatedOne (batch : SchedulerOutput) (out : ModelRunnerOutput)
    (connectorDelay : RequestId → Bool) (failedKvLoadReqIds : List RequestId) (id : RequestId)
    (u : UpdateLocals) : UpdateLocals → Prop
  | ignored : (id ∈ failedKvLoadReqIds ∨ u.s.requests.get? id = none ∨
      ∃ request, u.s.requests.get? id = some request ∧ request.status.isFinished = true) →
      UpdatedOne batch out connectorDelay failedKvLoadReqIds id u u
  | goesOn {request request' : Request} {newTokenIds : List TokenId}
      {kvCacheManager : KVCacheManager} {outputs : List EngineCoreOutput} :
      id ∉ failedKvLoadReqIds → u.s.requests.get? id = some request → request.status.isFinished = false →
      u.s.applyTokens (rejected batch (out.sampledTokenIds id) request) (out.sampledTokenIds id)
        (out.hasPoolerOutput id) = .ok (newTokenIds, false, request', kvCacheManager) →
      UpdatedOne batch out connectorDelay failedKvLoadReqIds id u { u with
        s := { u.s with kvCacheManager, requests := u.s.requests.set id request' }
        outputs }
  | stops {request request' : Request} {newTokenIds : List TokenId}
      {kvCacheManager : KVCacheManager} {outputs : List EngineCoreOutput} {s' : Scheduler}
      {stoppedRunningReqs stoppedPreemptedReqs : List RequestId} :
      id ∉ failedKvLoadReqIds → u.s.requests.get? id = some request → request.status.isFinished = false →
      u.s.applyTokens (rejected batch (out.sampledTokenIds id) request) (out.sampledTokenIds id)
        (out.hasPoolerOutput id) = .ok (newTokenIds, true, request', kvCacheManager) →
      Stopped { u.s with kvCacheManager, requests := u.s.requests.set id request' } connectorDelay
        request' s' → (request.status = .running ∧ stoppedRunningReqs = u.stoppedRunningReqs ++ [id] ∧
          stoppedPreemptedReqs = u.stoppedPreemptedReqs ∨
        request.status ≠ .running ∧ stoppedRunningReqs = u.stoppedRunningReqs ∧
          stoppedPreemptedReqs = u.stoppedPreemptedReqs ++ [id]) →
      UpdatedOne batch out connectorDelay failedKvLoadReqIds id u
        { s := s', outputs, stoppedRunningReqs, stoppedPreemptedReqs }

lemma updateOne_updated {failedKvLoadReqIds : List RequestId} {numTokensScheduled : ℤ} {u u' : UpdateLocals}
    (h : updateOne batch out connectorDelay failedKvLoadReqIds id numTokensScheduled u = .ok u')
    (hkeys : KeysOk u.s.requests) :
    0 < numTokensScheduled ∧ UpdatedOne batch out connectorDelay failedKvLoadReqIds id u u' := by
  obtain ⟨_, hpos, h⟩ := bind_eq_ok.mp h
  refine ⟨ensure_eq_ok.mp hpos, ?_⟩
  split at h
  · rename_i hfailed
    obtain rfl := ok.inj h
    exact .ignored (.inl hfailed)
  · rename_i hfailed
    split at h
    · rename_i hnone
      obtain rfl := ok.inj h
      exact .ignored (.inr (.inl hnone))
    · rename_i request hreq
      split at h
      · rename_i hfin
        obtain rfl := ok.inj h
        exact .ignored (.inr (.inr ⟨request, hreq, hfin⟩))
      · rename_i hfin
        have hfin : request.status.isFinished = false := by simpa using hfin
        obtain rfl := hkeys id request hreq
        obtain ⟨⟨new, stopped, request', k⟩, happly, h⟩ := bind_eq_ok.mp h
        have happly : u.s.applyTokens
            (rejected batch (out.sampledTokenIds request.requestId) request)
            (out.sampledTokenIds request.requestId) (out.hasPoolerOutput request.requestId) =
            .ok (new, stopped, request', k) := happly
        have hid : request'.requestId = request.requestId := by
          obtain ⟨-, _, _, _, _, _, rfl, -, -⟩ := appliedOutput_spec happly
          rfl
        cases stopped with
        | false =>
          obtain rfl := ok.inj h
          rw [setRequest, hid]
          exact .goesOn hfailed hreq hfin happly
        | true =>
          obtain ⟨s', hstop, h⟩ := bind_eq_ok.mp h
          have hfin' : request'.status.isFinished = true := by
            obtain ⟨-, _, _, _, _, _, rfl, -, hstopped⟩ := appliedOutput_spec happly
            exact hstopped rfl
          have hstopped := stopRequest_stopped hstop hfin' (get?_set_self _ _ _)
          rw [setRequest, hid] at hstopped
          have hstatus : (rejected batch (out.sampledTokenIds request.requestId) request).status =
              request.status := by
            obtain ⟨_, _, hrej⟩ := rejected_eq batch (out.sampledTokenIds request.requestId) request
            rw [hrej]
          unfold rejected at hstatus
          by_cases hrunning : request.status = .running
          · rw [if_pos (hstatus.trans hrunning)] at h
            obtain rfl := ok.inj h
            exact .stops hfailed hreq hfin happly hstopped (.inl ⟨hrunning, rfl, rfl⟩)
          · rw [if_neg fun heq => hrunning (hstatus.symm.trans heq)] at h
            obtain rfl := ok.inj h
            exact .stops hfailed hreq hfin happly hstopped (.inr ⟨hrunning, rfl, rfl⟩)

def uncounted (request : Request) : Request :=
  { request with
    numComputedTokens := 0
    numExternalComputedTokens := 0 }

variable {invalidBlockIds : List BlockId}

lemma updateRequestWithInvalidBlocks_spec
    (h : updateRequestWithInvalidBlocks invalidBlockIds evictBlocks id v = .ok v')
    (hkeys : KeysOk v.s.requests) : KeysOk v'.s.requests ∧ (∃ requests, v'.s = { v.s with requests }) ∧
      ∀ x, (v'.s.requests.get? x).map uncounted = (v.s.requests.get? x).map uncounted := by
  obtain ⟨request, hreq, h⟩ := bind_eq_ok.mp h
  rw [request_eq_ok] at hreq
  obtain rfl := hkeys id request hreq
  have hset : ∀ request' : Request, request'.requestId = request.requestId →
      uncounted request' = uncounted request → ∀ x,
      ((v.s.requests.set request'.requestId request').get? x).map uncounted =
        (v.s.requests.get? x).map uncounted := by
    intro request' hid hsame x
    rw [get?_set, hid]
    split
    · rename_i hx
      rw [hx, hreq, map_some, map_some, hsame]
    · rfl
  split at h
  · dsimp only at h
    generalize scanInvalid _ _ _ _ _ _ = scan at h
    obtain ⟨isAffected, first, marked⟩ := scan
    cases first with
    | some idx =>
      obtain rfl := ok.inj h
      exact ⟨hkeys.set rfl, ⟨_, rfl⟩, hset _ rfl rfl⟩
    | none =>
      cases isAffected with
      | true =>
        obtain rfl := ok.inj h
        exact ⟨hkeys.set rfl, ⟨_, rfl⟩, hset _ rfl rfl⟩
      | false =>
        obtain rfl := ok.inj h
        exact ⟨hkeys, ⟨_, rfl⟩, fun x => rfl⟩
  · cases h

lemma updateRequestsWithInvalidBlocks_spec
    (h : updateRequestsWithInvalidBlocks invalidBlockIds evictBlocks ids v = .ok v')
    (hkeys : KeysOk v.s.requests) : KeysOk v'.s.requests ∧ (∃ requests, v'.s = { v.s with requests }) ∧
      ∀ x, (v'.s.requests.get? x).map uncounted = (v.s.requests.get? x).map uncounted := by
  induction ids generalizing v with
  | nil =>
    obtain rfl := ok.inj h
    exact ⟨hkeys, ⟨_, rfl⟩, fun x => rfl⟩
  | cons id rest ih =>
    obtain ⟨v1, h1, h⟩ := bind_eq_ok.mp h
    obtain ⟨hkeys1, ⟨requests1, hs1⟩, hget1⟩ := updateRequestWithInvalidBlocks_spec h1 hkeys
    obtain ⟨hkeys', ⟨requests', hs'⟩, hget'⟩ := ih h hkeys1
    exact ⟨hkeys', ⟨requests', by rw [hs', hs1]⟩, fun x => (hget' x).trans (hget1 x)⟩

lemma handleInvalidBlocks_spec {failed : List RequestId}
    (h : s.handleInvalidBlocks invalidBlockIds = .ok (failed, s')) (hkeys : KeysOk s.requests) :
    KeysOk s'.requests ∧ (∃ requests kvCacheManager failedRecvingKvReqIds,
        s' = { s with requests, kvCacheManager, failedRecvingKvReqIds }) ∧
      ∀ x, (s'.requests.get? x).map uncounted = (s.requests.get? x).map uncounted := by
  obtain ⟨async, hasync, h⟩ := bind_eq_ok.mp h
  obtain ⟨sync, hsync, h⟩ := bind_eq_ok.mp h
  obtain ⟨hkeys1, ⟨requests1, hs1⟩, hget1⟩ := updateRequestsWithInvalidBlocks_spec hasync hkeys
  obtain ⟨hkeys2, ⟨requests2, hs2⟩, hget2⟩ := updateRequestsWithInvalidBlocks_spec hsync hkeys1
  have hs2 : sync.s = { s with requests := requests2 } := by rw [hs2, hs1]
  have hget : ∀ x, (sync.s.requests.get? x).map uncounted =
      (s.requests.get? x).map uncounted := fun x => (hget2 x).trans (hget1 x)
  dsimp only at h
  split at h
  · obtain ⟨-, rfl⟩ := ok_pair_inj h
    exact ⟨hkeys2, ⟨requests2, _, _, hs2⟩, hget⟩
  · split at h
    · obtain ⟨-, rfl⟩ := ok_pair_inj h
      exact ⟨hkeys2, ⟨requests2, s.kvCacheManager, _, by rw [hs2]⟩, hget⟩
    · obtain ⟨k, -, h⟩ := bind_eq_ok.mp h
      obtain ⟨-, rfl⟩ := ok_pair_inj h
      exact ⟨hkeys2, ⟨requests2, k, _, by rw [hs2]⟩, hget⟩

inductive Transferred : Scheduler → Scheduler → Prop
  | refl {s : Scheduler} : Transferred s s
  | received {s s' : Scheduler} (id : RequestId) :
      Transferred { s with finishedRecvingKvReqIds := insert id s.finishedRecvingKvReqIds } s' → Transferred s s'
  | freed {s s₁ s' : Scheduler} {id : RequestId} {request : Request} :
      s.requests.get? id = some request → s.freeBlocks request = .ok s₁ → Transferred s₁ s' → Transferred s s'

lemma Transferred.trans {s₁ s2 s3 : Scheduler} (h : Transferred s₁ s2) (h' : Transferred s2 s3) :
    Transferred s₁ s3 := by
  induction h with
  | refl => exact h'
  | received id _ ih => exact .received id (ih h')
  | freed hreq hfree _ ih => exact .freed hreq hfree (ih h')

lemma foldlM_transferred {f : Scheduler → RequestId → Except PyError Scheduler}
    (hf : ∀ s id s', f s id = .ok s' → Transferred s s') (h : ids.foldlM f s = .ok s') : Transferred s s' := by
  induction ids generalizing s with
  | nil =>
    obtain rfl := ok.inj h
    exact .refl
  | cons id rest ih =>
    obtain ⟨s₁, h1, h⟩ := bind_eq_ok.mp h
    exact (hf s id s₁ h1).trans (ih h)

lemma updateFromKvXferFinished_transferred {output : KVConnectorOutput}
    (h : s.updateFromKvXferFinished output = .ok s') : Transferred s s' := by
  obtain ⟨s₁, hrecv, hsend⟩ := bind_eq_ok.mp h
  refine (foldlM_transferred (fun s id s' h => ?_) hrecv).trans
    (foldlM_transferred (fun s id s' h => ?_) hsend)
  · obtain ⟨request, hreq, h⟩ := bind_eq_ok.mp h
    split at h
    · obtain rfl := ok.inj h
      exact .received id .refl
    · obtain ⟨_, -, h⟩ := bind_eq_ok.mp h
      exact .freed (request_eq_ok.mp hreq) h .refl
  · obtain ⟨request, hreq, h⟩ := bind_eq_ok.mp h
    exact .freed (request_eq_ok.mp hreq) h .refl

lemma updateFromOutput_eq_ok {outputs : List EngineCoreOutput}
    (h : s.updateFromOutput batch out connectorDelay = .ok (outputs, s')) : ∃ failed s₁ u s2,
      (s₁ = s ∧ failed = [] ∨ ∃ invalidBlockIds, s.handleInvalidBlocks invalidBlockIds = .ok (failed, s₁)) ∧
      ((out.kvConnectorOutput.map fun o => o.invalidBlockIds).getD [] = [] → s₁ = s ∧ failed = []) ∧
      updateEach batch out connectorDelay failed batch.numScheduledTokens.entries { s := s₁ } = .ok u ∧
      (s2 = removeStopped u ∨ (removeStopped u).finishRequests connectorDelay failed .finishedError = .ok s2) ∧
      (failed = [] → s2 = removeStopped u) ∧ Transferred s2 s' := by
  obtain ⟨⟨failed, s₁⟩, hinvalid, h⟩ := bind_eq_ok.mp h
  obtain ⟨u, hu, h⟩ := bind_eq_ok.mp h
  obtain ⟨⟨outputs', s2⟩, hfailed, h⟩ := bind_eq_ok.mp h
  obtain ⟨s3, hkv, h⟩ := bind_eq_ok.mp h
  obtain ⟨-, rfl⟩ := ok_pair_inj h
  refine ⟨failed, s₁, u, s2, ?_, ?_, hu, ?_, ?_, ?_⟩
  · split at hinvalid
    · obtain ⟨rfl, rfl⟩ := ok_pair_inj hinvalid
      exact .inl ⟨rfl, rfl⟩
    · exact .inr ⟨_, hinvalid⟩
  · intro hnil
    rw [if_pos hnil] at hinvalid
    obtain ⟨rfl, rfl⟩ := ok_pair_inj hinvalid
    exact ⟨rfl, rfl⟩
  · unfold finishFailed at hfailed
    split at hfailed
    · obtain ⟨-, rfl⟩ := ok_pair_inj hfailed
      exact .inl rfl
    · obtain ⟨_, -, hfailed⟩ := bind_eq_ok.mp hfailed
      obtain ⟨s4, hfin, hfailed⟩ := bind_eq_ok.mp hfailed
      obtain ⟨-, rfl⟩ := ok_pair_inj hfailed
      exact .inr hfin
  · intro hnil
    unfold finishFailed at hfailed
    rw [if_pos (.inl hnil)] at hfailed
    exact (ok_pair_inj hfailed).2.symm
  · split at hkv
    · obtain rfl := ok.inj hkv
      exact .refl
    · exact updateFromKvXferFinished_transferred hkv

end Scheduler

end CustomAi.Vllm
