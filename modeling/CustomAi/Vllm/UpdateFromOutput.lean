import CustomAi.Vllm.Schedule

/-!
# Processing the output of a batch

`update_from_output` of `vllm/v1/core/sched/scheduler.py` with the handling of failed KV loads, and
`update_draft_token_ids`.
-/

namespace CustomAi.Vllm

structure KVConnectorOutput where
  invalidBlockIds : List BlockId := []
  finishedRecving : List RequestId := []
  finishedSending : List RequestId := []

structure ModelRunnerOutput where
  sampledTokenIds : RequestId → List TokenId
  hasPoolerOutput : RequestId → Bool := fun _ => false
  kvConnectorOutput : Option KVConnectorOutput := none

inductive FinishReason
  | stop
  | length
  | abort
  | error
  deriving DecidableEq, Repr

def RequestStatus.getFinishedReason : RequestStatus → Option FinishReason
  | .finishedStopped => some .stop
  | .finishedLengthCapped => some .length
  | .finishedAborted => some .abort
  | .finishedIgnored => some .length
  | .finishedError => some .error
  | .waitingForStreamingReq => some .stop
  | _ => none

structure EngineCoreOutput where
  requestId : RequestId
  newTokenIds : List TokenId
  finishReason : Option FinishReason
  stopReason : Option TokenId
  hasPoolingOutput : Bool
  numCachedTokens : ℤ
  numExternalComputedTokens : ℤ
  deriving DecidableEq, Repr

namespace Request

/-- `Scheduler._update_request_with_output`: the appended tokens, and whether the last one stops. -/
def updateRequestWithOutput (blockHasher : Option BlockHasher) (maxModelLen : ℕ) :
    List TokenId → Request → Except PyError (List TokenId × Bool × Request)
  | [], request => .ok ([], false, request)
  | outputTokenId :: rest, request => do
    let request := request.appendOutputTokenIds blockHasher [outputTokenId]
    ensure (request.poolingParams = false) (.assertionError "")
    match ← checkStop request maxModelLen with
    | some (status, stopReason) =>
      return ([outputTokenId], true, { request with status, stopReason := stopReason <|> request.stopReason })
    | none =>
      let (newTokenIds, stopped, request) ←
        updateRequestWithOutput blockHasher maxModelLen rest request
      return (outputTokenId :: newTokenIds, stopped, request)

def rejectTokens (numRejected : ℤ) (request : Request) : Request :=
  { request with
    numComputedTokens := if request.numComputedTokens > 0 then
      request.numComputedTokens - numRejected else request.numComputedTokens
    numOutputPlaceholders := if request.numOutputPlaceholders > 0 then
      request.numOutputPlaceholders - numRejected else request.numOutputPlaceholders }

end Request

namespace Scheduler

variable (s : Scheduler)

/-- `_update_request_with_output` with the override of `AsyncScheduler`. -/
def updateRequestWithOutput (request : Request) (newTokenIds : List TokenId) :
    Except PyError (List TokenId × Bool × Request × KVCacheManager) :=
  if s.config.asyncScheduling then
    if request.discardLatestAsyncTokens then
      .ok ([], false, { request with discardLatestAsyncTokens := false }, s.kvCacheManager)
    else do
      let statusBeforeUpdate := request.status
      let (newTokenIds, stopped, request) ←
        request.updateRequestWithOutput s.config.blockHasher s.config.maxModelLen newTokenIds
      let request := { request with
        numOutputPlaceholders := request.numOutputPlaceholders - newTokenIds.length }
      ensure (request.numOutputPlaceholders ≥ 0) (.assertionError "")
      let kvCacheManager ← (if statusBeforeUpdate = .running then
          s.kvCacheManager.cacheBlocks request (request.numComputedTokens - request.numOutputPlaceholders).toNat
        else pure s.kvCacheManager)
      return (newTokenIds, stopped, request, kvCacheManager)
  else do
    let (newTokenIds, stopped, request) ←
      request.updateRequestWithOutput s.config.blockHasher s.config.maxModelLen newTokenIds
    return (newTokenIds, stopped, request, s.kvCacheManager)

/-- `_handle_stopped_request`, and whether the request is finished. -/
def handleStoppedRequest (request : Request) : Except PyError (Bool × Scheduler) :=
  if request.resumable = false then .ok (true, s)
  else
    match request.streamingQueue with
    | none :: rest => .ok (true, s.setRequest { request with streamingQueue := rest })
    | some update :: rest => do
      let s ← s.updateRequestAsSession { request with streamingQueue := rest } update
      return (false, { s with
        waiting := s.waiting.addRequest s.config.policy s.before request.requestId })
    | [] =>
      let s := s.setRequest { request with status := .waitingForStreamingReq }
      .ok (false, { s with
        numWaitingForStreamingInput := s.numWaitingForStreamingInput + 1
        waiting := s.waiting.addRequest s.config.policy s.before request.requestId })

/-- The local variables of `_update_requests_with_invalid_blocks`. -/
structure InvalidBlocks where
  s : Scheduler
  affectedReqIds : List RequestId := []
  blocksToEvict : List BlockId := []
  markedInvalidBlockIds : List BlockId := []

/-- The scan of the blocks of one request from `idx` on for the first invalid one. -/
def scanInvalid (invalidBlockIds : List BlockId) :
    ℕ → List BlockId → Bool → Option ℕ → List BlockId → Bool × Option ℕ × List BlockId
  | _, [], isAffected, first, marked => (isAffected, first, marked)
  | idx, blockId :: rest, isAffected, first, marked =>
    if blockId ∉ invalidBlockIds then
      scanInvalid invalidBlockIds (idx + 1) rest isAffected first marked
    else if blockId ∈ marked then
      scanInvalid invalidBlockIds (idx + 1) rest true first marked
    else
      scanInvalid invalidBlockIds (idx + 1) rest true (first <|> some idx) (marked ++ [blockId])

/-- The body of the loop of `_update_requests_with_invalid_blocks`. -/
def updateRequestWithInvalidBlocks (invalidBlockIds : List BlockId) (evictBlocks : Bool)
    (requestId : RequestId) (v : InvalidBlocks) : Except PyError InvalidBlocks := do
  let request ← v.s.request requestId
  match v.s.kvCacheManager.getBlockIds requestId with
  | [reqBlockIds] =>
    let blockSize : ℤ := v.s.config.blockSize
    let reqNumComputedTokens : ℤ :=
      if request.status = .waitingForRemoteKvs then
        if requestId ∈ v.s.failedRecvingKvReqIds then request.numComputedTokens
        else reqBlockIds.length * blockSize
      else request.numCachedTokens
    let reqNumComputedBlocks := (reqNumComputedTokens + blockSize - 1) / blockSize
    let (isAffected, first, marked) := scanInvalid invalidBlockIds 0
      (reqBlockIds.take reqNumComputedBlocks.toNat) false none v.markedInvalidBlockIds
    let v := { v with markedInvalidBlockIds := marked }
    match first with
    | some idx =>
      let numComputedTokens := idx * blockSize
      let numAffectedTokens := reqNumComputedTokens - numComputedTokens
      return { v with
        s := v.s.setRequest { request with
          numComputedTokens
          numExternalComputedTokens := request.numExternalComputedTokens - numAffectedTokens }
        affectedReqIds := v.affectedReqIds ++ [requestId]
        blocksToEvict := if evictBlocks then v.blocksToEvict ++ reqBlockIds.drop idx
          else v.blocksToEvict }
    | none =>
      if isAffected then
        return { v with
          s := v.s.setRequest { request with numComputedTokens := request.numCachedTokens }
          affectedReqIds := v.affectedReqIds ++ [requestId] }
      else return v
  | _ => .error (.valueError "")

def updateRequestsWithInvalidBlocks (invalidBlockIds : List BlockId) (evictBlocks : Bool) :
    List RequestId → InvalidBlocks → Except PyError InvalidBlocks
  | [], v => .ok v
  | requestId :: rest, v => do
    let v ← updateRequestWithInvalidBlocks invalidBlockIds evictBlocks requestId v
    updateRequestsWithInvalidBlocks invalidBlockIds evictBlocks rest v

def handleInvalidBlocks (invalidBlockIds : List BlockId) :
    Except PyError (List RequestId × Scheduler) := do
  let asyncLoadReqs := (s.waiting.iter s.config.policy s.before).filter
    (s.hasStatus fun status => status = .waitingForRemoteKvs)
  let async ← updateRequestsWithInvalidBlocks invalidBlockIds false asyncLoadReqs { s }
  let sync ← updateRequestsWithInvalidBlocks invalidBlockIds true s.running { s := async.s }
  let s := sync.s
  if async.affectedReqIds = [] ∧ sync.affectedReqIds = [] then return ([], s)
  else if s.config.recomputeKvLoadFailures then
    return (sync.affectedReqIds, { s with
      failedRecvingKvReqIds := s.failedRecvingKvReqIds ∪ async.affectedReqIds.toFinset })
  else
    let kvCacheManager ← (if sync.blocksToEvict = [] then pure s.kvCacheManager
      else s.kvCacheManager.evictBlocks sync.blocksToEvict.dedup)
    return (async.affectedReqIds ++ sync.affectedReqIds, { s with kvCacheManager })

/-- The body of the first loop of `_update_from_kv_xfer_finished`. -/
def finishRecving (reqId : RequestId) : Except PyError Scheduler := do
  let request ← s.request reqId
  if request.status = .waitingForRemoteKvs then
    return { s with finishedRecvingKvReqIds := insert reqId s.finishedRecvingKvReqIds }
  else
    ensure request.status.isFinished (.assertionError "")
    s.freeBlocks request

/-- The body of the second loop of `_update_from_kv_xfer_finished`. -/
def finishSending (reqId : RequestId) : Except PyError Scheduler := do
  let request ← s.request reqId
  s.freeBlocks request

def updateFromKvXferFinished (output : KVConnectorOutput) : Except PyError Scheduler := do
  let s ← output.finishedRecving.foldlM (fun s reqId => s.finishRecving reqId) s
  output.finishedSending.foldlM (fun s reqId => s.finishSending reqId) s

/-- The local variables of `update_from_output`. -/
structure UpdateLocals where
  s : Scheduler
  outputs : List EngineCoreOutput := []
  stoppedRunningReqs : List RequestId := []
  stoppedPreemptedReqs : List RequestId := []

def applyTokens (request : Request) (generatedTokenIds : List TokenId) (hasPoolerOutput : Bool) :
    Except PyError (List TokenId × Bool × Request × KVCacheManager) :=
  if generatedTokenIds ≠ [] then s.updateRequestWithOutput request generatedTokenIds
  else if request.poolingParams && hasPoolerOutput then
    .ok ([], true, { request with status := .finishedStopped }, s.kvCacheManager)
  else .ok ([], false, request, s.kvCacheManager)

def stopRequest (connectorDelay : RequestId → Bool) (request : Request) :
    Except PyError Scheduler := do
  let (finished, s) ← s.handleStoppedRequest request
  if finished then
    let request ← s.request request.requestId
    s.freeRequest connectorDelay request false
  else return s

/-- The output record of a request. Nothing that it reads changes when a session continues. -/
def engineCoreOutput (request : Request) (newTokenIds : List TokenId)
    (finishReason : Option FinishReason) (hasPoolingOutput : Bool) : EngineCoreOutput where
  requestId := request.requestId
  newTokenIds := newTokenIds
  finishReason := finishReason
  stopReason := request.stopReason
  hasPoolingOutput := hasPoolingOutput
  numCachedTokens := request.numCachedTokens
  numExternalComputedTokens := request.numExternalComputedTokens

/-- The body of the loop of `update_from_output`. -/
def updateOne (batch : SchedulerOutput) (out : ModelRunnerOutput)
    (connectorDelay : RequestId → Bool) (failedKvLoadReqIds : List RequestId)
    (reqId : RequestId) (numTokensScheduled : ℤ) (u : UpdateLocals) :
    Except PyError UpdateLocals := do
  ensure (numTokensScheduled > 0) (.assertionError "")
  if reqId ∈ failedKvLoadReqIds then return u
  else
    match u.s.requests.get? reqId with
    | none => return u
    | some request =>
      if request.status.isFinished then return u
      else
        let generatedTokenIds := out.sampledTokenIds reqId
        let numDraftTokens := ((batch.scheduledSpecDecodeTokens.get? reqId).getD []).length
        let request := if numDraftTokens ≠ 0 ∧ generatedTokenIds ≠ [] then
            request.rejectTokens (numDraftTokens - ((generatedTokenIds.length : ℤ) - 1))
          else request
        let hasPoolerOutput := out.hasPoolerOutput reqId
        let statusBeforeStop := request.status
        let (newTokenIds, stopped, request, kvCacheManager) ←
          u.s.applyTokens request generatedTokenIds hasPoolerOutput
        let s := { u.s with kvCacheManager }.setRequest request
        let finishReason := if stopped then request.status.getFinishedReason else none
        let outputs := if newTokenIds ≠ [] ∨ hasPoolerOutput ∨ stopped then
            u.outputs ++ [engineCoreOutput request newTokenIds finishReason hasPoolerOutput]
          else u.outputs
        if stopped then
          let s ← s.stopRequest connectorDelay request
          if statusBeforeStop = .running then
            return { u with
              s, outputs
              stoppedRunningReqs := u.stoppedRunningReqs ++ [reqId] }
          else
            return { u with
              s, outputs
              stoppedPreemptedReqs := u.stoppedPreemptedReqs ++ [reqId] }
        else return { u with s, outputs }

def updateEach (batch : SchedulerOutput) (out : ModelRunnerOutput)
    (connectorDelay : RequestId → Bool) (failedKvLoadReqIds : List RequestId) :
    List (RequestId × ℤ) → UpdateLocals → Except PyError UpdateLocals
  | [], u => .ok u
  | (reqId, numTokensScheduled) :: rest, u => do
    let u ← updateOne batch out connectorDelay failedKvLoadReqIds reqId numTokensScheduled u
    updateEach batch out connectorDelay failedKvLoadReqIds rest u

def removeStopped (u : UpdateLocals) : Scheduler :=
  { u.s with
    running := removeAll u.s.running u.stoppedRunningReqs
    waiting := if u.stoppedPreemptedReqs = [] then u.s.waiting
      else u.s.waiting.removeRequests u.s.config.policy u.s.before u.stoppedPreemptedReqs }

def finishFailed (connectorDelay : RequestId → Bool) (failedKvLoadReqIds : List RequestId)
    (outputs : List EngineCoreOutput) : Except PyError (List EngineCoreOutput × Scheduler) :=
  if failedKvLoadReqIds = [] ∨ s.config.recomputeKvLoadFailures then .ok (outputs, s)
  else do
    let requests ← failedKvLoadReqIds.mapM s.request
    let s ← s.finishRequests connectorDelay failedKvLoadReqIds .finishedError
    return (outputs ++ requests.map fun request =>
      { requestId := request.requestId
        newTokenIds := []
        finishReason := some .error
        stopReason := none
        hasPoolingOutput := false
        numCachedTokens := request.numCachedTokens
        numExternalComputedTokens := 0 }, s)

/-- `update_from_output`, without the statistics and the events. -/
def updateFromOutput (batch : SchedulerOutput) (out : ModelRunnerOutput)
    (connectorDelay : RequestId → Bool) : Except PyError (List EngineCoreOutput × Scheduler) := do
  let invalidBlockIds := (out.kvConnectorOutput.map fun o => o.invalidBlockIds).getD []
  let (failedKvLoadReqIds, s) ← (if invalidBlockIds = [] then pure ([], s)
    else s.handleInvalidBlocks invalidBlockIds)
  let u ← updateEach batch out connectorDelay failedKvLoadReqIds batch.numScheduledTokens.entries
    { s }
  let s := removeStopped u
  let (outputs, s) ← s.finishFailed connectorDelay failedKvLoadReqIds u.outputs
  let s ← (match out.kvConnectorOutput with
    | none => pure s
    | some output => s.updateFromKvXferFinished output)
  return (outputs, s)

/-- `update_draft_token_ids` for one request, without grammars. -/
def updateDraft (reqId : RequestId) (specTokenIds : List TokenId) : Scheduler :=
  match s.requests.get? reqId with
  | none => s
  | some request =>
    if request.status.isFinished then s
    else if request.isPrefillChunk then s.setRequest { request with specTokenIds := [] }
    else s.setRequest { request with specTokenIds }

def updateDraftTokenIds (drafts : List (RequestId × List TokenId)) : Scheduler :=
  drafts.foldl (fun s d => s.updateDraft d.1 d.2) s

end Scheduler

end CustomAi.Vllm
