import CustomAi.Vllm.EncoderCacheManager
import CustomAi.Vllm.KVCacheManager
import CustomAi.Vllm.RequestQueue
import CustomAi.Vllm.Session

/-!
# The state of the scheduler

The attributes of `Scheduler` in `vllm/v1/core/sched/scheduler.py` and the methods that free,
preempt, add and finish requests. A request is the entry of its id in `requests`; the queues hold
ids. A KV connector, an encoder connector and the grammar compiler are asked through the arguments
of the methods. Statistics, events and log probabilities are left out.
-/

namespace CustomAi.Vllm

/-- The attributes that never change; `setOrder` is the order in which Python visits a set. -/
structure SchedulerConfig where
  maxNumRunningReqs : ℕ
  maxNumScheduledTokens : ℕ
  maxModelLen : ℕ
  policy : SchedulingPolicy := .fcfs
  longPrefillTokenThreshold : ℕ := 0
  enableChunkedPrefill : Bool := true
  disableChunkedMmInput : Bool := false
  maxNumEncoderInputTokens : ℕ := 0
  numEncoderMaxInputTokens : ℕ := 0
  useEagle : Bool := false
  numSpecTokens : ℕ := 0
  numLookaheadTokens : ℕ := 0
  needMambaBlockAlignedSplit : Bool := false
  blockSize : ℕ
  cacheBlockSize : ℕ
  maxLoras : Option ℕ := none
  usePp : Bool := false
  useV2ModelRunner : Bool := false
  asyncScheduling : Bool := false
  hasConnector : Bool := false
  connectorSupportsHma : Bool := false
  hasEcConnector : Bool := false
  recomputeKvLoadFailures : Bool := true
  blockHasher : Option BlockHasher := none
  setOrder : List ℕ → List ℕ := id
  setOrder_perm : ∀ l, (setOrder l).Perm l := by exact fun l => List.Perm.refl l

/-- `encoder_cache_manager`, an `EncoderDecoderCacheManager` exactly for encoder-decoder models. -/
inductive EncoderCache
  | multiModal (m : EncoderCacheManager)
  | encoderDecoder (m : EncoderDecoderCacheManager)

namespace EncoderCache

def isEncoderDecoder : EncoderCache → Bool
  | .multiModal _ => false
  | .encoderDecoder _ => true

def reset : EncoderCache → EncoderCache
  | .multiModal m => .multiModal m.reset
  | .encoderDecoder m => .encoderDecoder m.reset

def checkAndUpdateCache (request : Request) (inputId : ℕ) :
    EncoderCache → Except PyError (Bool × EncoderCache)
  | .multiModal m => do
    let (cached, m) ← m.checkAndUpdateCache request inputId
    return (cached, .multiModal m)
  | .encoderDecoder m => .ok (false, .encoderDecoder m)

def canAllocate (request : Request) (inputId : ℕ)
    (encoderComputeBudget numEmbedsToSchedule : ℤ) :
    EncoderCache → Except PyError (Bool × EncoderCache)
  | .multiModal m => do
    let (room, m) ← m.canAllocate request inputId encoderComputeBudget numEmbedsToSchedule
    return (room, .multiModal m)
  | .encoderDecoder m => do
    let room ← m.canAllocate request inputId encoderComputeBudget numEmbedsToSchedule
    return (room, .encoderDecoder m)

def allocate (request : Request) (inputId : ℕ) : EncoderCache → Except PyError EncoderCache
  | .multiModal m => do
    let m ← m.allocate request inputId
    return .multiModal m
  | .encoderDecoder m => do
    let m ← m.allocate request inputId
    return .encoderDecoder m

def getCachedInputIds (request : Request) : EncoderCache → List ℕ
  | .multiModal m => m.getCachedInputIds request
  | .encoderDecoder _ => EncoderDecoderCacheManager.getCachedInputIds request

def freeEncoderInput (request : Request) (inputId : ℕ) : EncoderCache → Except PyError EncoderCache
  | .multiModal m => do
    let m ← m.freeEncoderInput request inputId
    return .multiModal m
  | .encoderDecoder m => do
    let m ← m.freeEncoderInput request inputId
    return .encoderDecoder m

def free (setOrder : List ℕ → List ℕ) (request : Request) :
    EncoderCache → Except PyError EncoderCache
  | .multiModal m => do
    let m ← EncoderCacheManager.free request (setOrder (m.getCachedInputIds request)) m
    return .multiModal m
  | .encoderDecoder m => do
    let m ← m.free request
    return .encoderDecoder m

def getFreedMmHashes : EncoderCache → List String × EncoderCache
  | .multiModal m => (m.getFreedMmHashes.1, .multiModal m.getFreedMmHashes.2)
  | .encoderDecoder m => (m.getFreedMmHashes.1, .encoderDecoder m.getFreedMmHashes.2)

end EncoderCache

/-- `remove_all` of `vllm/v1/core/sched/utils.py`, for a set without repetitions. -/
def removeAll (lst itemsToRemove : List RequestId) : List RequestId :=
  match itemsToRemove with
  | [] => lst
  | [item] => lst.erase item
  | items => lst.filter fun item => item ∉ items

def KVCacheManager.getBlockIds (k : KVCacheManager) (requestId : RequestId) : List (List BlockId) :=
  k.singleTypeManagers.map fun m => m.reqBlocks requestId

structure Scheduler where
  config : SchedulerConfig
  requests : Dict RequestId Request
  waiting : RequestQueue
  running : List RequestId
  kvCacheManager : KVCacheManager
  encoderCache : EncoderCache
  finishedReqIds : Finset RequestId
  prevStepScheduledReqIds : Finset RequestId
  numWaitingForStreamingInput : ℤ
  finishedRecvingKvReqIds : Finset RequestId
  failedRecvingKvReqIds : Finset RequestId

namespace Scheduler

/-- `Scheduler.__init__` -/
def new (config : SchedulerConfig) (kvCacheManager : KVCacheManager) (encoderCache : EncoderCache) :
    Scheduler where
  config := config
  requests := .empty
  waiting := []
  running := []
  kvCacheManager := kvCacheManager
  encoderCache := encoderCache
  finishedReqIds := ∅
  prevStepScheduledReqIds := ∅
  numWaitingForStreamingInput := 0
  finishedRecvingKvReqIds := ∅
  failedRecvingKvReqIds := ∅

variable (s : Scheduler)

def isEncoderDecoder : Bool := s.encoderCache.isEncoderDecoder

def before : RequestId → RequestId → Bool := requestBefore s.requests

/-- `self.requests[req_id]` -/
def request (requestId : RequestId) : Except PyError Request :=
  match s.requests.get? requestId with
  | none => .error .keyError
  | some request => .ok request

def setRequest (request : Request) : Scheduler :=
  { s with requests := s.requests.set request.requestId request }

def preemptRequest (request : Request) : Except PyError Scheduler := do
  let preempted ← request.preempt
  let kvCacheManager ← s.kvCacheManager.free request
  let encoderCache ← s.encoderCache.free s.config.setOrder request
  let s := { s with kvCacheManager, encoderCache }.setRequest { preempted with specTokenIds := [] }
  return { s with
    waiting := s.waiting.prependRequest s.config.policy s.before request.requestId }

def freeBlocks (request : Request) : Except PyError Scheduler := do
  ensure request.status.isFinished (.assertionError "")
  let kvCacheManager ← s.kvCacheManager.free request
  ensure (s.requests.contains request.requestId) .keyError
  return { s with kvCacheManager, requests := s.requests.erase request.requestId }

/-- `_connector_finished`, without the answer of the connector. -/
def connectorFinished (request : Request) : Except PyError Scheduler :=
  if s.config.hasConnector then do
    let kvCacheManager ← s.kvCacheManager.removeSkippedBlocks request.requestId request.numTokens
    ensure (s.config.connectorSupportsHma ∨ kvCacheManager.singleTypeManagers.length = 1)
      (.assertionError "")
    return { s with kvCacheManager }
  else .ok s

/-- `_free_request`. The connector tells in `connectorDelay` whether it still reads the blocks. -/
def freeRequest (connectorDelay : RequestId → Bool) (request : Request) (delayFreeBlocks : Bool) :
    Except PyError Scheduler := do
  ensure request.status.isFinished (.assertionError "")
  let s ← s.connectorFinished request
  let encoderCache ← s.encoderCache.free s.config.setOrder request
  let s := { s with encoderCache, finishedReqIds := insert request.requestId s.finishedReqIds }
  if delayFreeBlocks || (s.config.hasConnector && connectorDelay request.requestId) then return s
  else s.freeBlocks request

/-- The second pass of `finish_requests` over one request. -/
def finishRequest (connectorDelay : RequestId → Bool) (finishedStatus : RequestStatus)
    (requestId : RequestId) : Except PyError Scheduler := do
  let request ← s.request requestId
  let remote : Bool := request.status = .waitingForRemoteKvs
  let delayFreeBlocks := remote && decide (requestId ∉ s.finishedRecvingKvReqIds)
  let s := if remote then
      { s with
        finishedRecvingKvReqIds := s.finishedRecvingKvReqIds.erase requestId
        failedRecvingKvReqIds := s.failedRecvingKvReqIds.erase requestId }
    else s
  let request := { request with status := finishedStatus }
  (s.setRequest request).freeRequest connectorDelay request delayFreeBlocks

def finishEach (connectorDelay : RequestId → Bool) (finishedStatus : RequestStatus) :
    List RequestId → Scheduler → Except PyError Scheduler
  | [], s => .ok s
  | requestId :: rest, s => do
    let s ← s.finishRequest connectorDelay finishedStatus requestId
    finishEach connectorDelay finishedStatus rest s

/-- Whether the request exists and has a status that satisfies `p`. -/
def hasStatus (p : RequestStatus → Bool) (requestId : RequestId) : Bool :=
  match s.requests.get? requestId with
  | none => false
  | some request => p request.status

/-- `finish_requests`. The ids are visited in the order of the list. -/
def finishRequests (connectorDelay : RequestId → Bool) (requestIds : List RequestId)
    (finishedStatus : RequestStatus) : Except PyError Scheduler := do
  ensure finishedStatus.isFinished (.assertionError "")
  let validRequests := requestIds.dedup.filter (s.hasStatus fun status => !status.isFinished)
  let runningRequestsToRemove := validRequests.filter (s.hasStatus fun status => status = .running)
  let waitingRequestsToRemove := validRequests.filter (s.hasStatus fun status => status ≠ .running)
  let numStreaming := validRequests.countP (s.hasStatus fun status => status = .waitingForStreamingReq)
  let s := { s with
    running := removeAll s.running runningRequestsToRemove
    numWaitingForStreamingInput := s.numWaitingForStreamingInput - numStreaming
    waiting := if waitingRequestsToRemove = [] then s.waiting
      else s.waiting.removeRequests s.config.policy s.before waitingRequestsToRemove }
  finishEach connectorDelay finishedStatus validRequests s

def updateRequestAsSession (session : Request) (update : StreamingUpdate) :
    Except PyError Scheduler := do
  let updated ← session.updateAsSession s.config.blockHasher update
  let s := s.setRequest updated
  if session.status = .waitingForStreamingReq then
    return { s with numWaitingForStreamingInput := s.numWaitingForStreamingInput - 1 }
  else return s

def addRequest (connectorDelay : RequestId → Bool) (request : Request) :
    Except PyError Scheduler :=
  match s.requests.get? request.requestId with
  | some existing =>
    let update := StreamingUpdate.fromRequest request
    if existing.status ≠ .waitingForStreamingReq then do
      ensure existing.resumable (.assertionError "duplicate request id")
      return s.setRequest { existing with streamingQueue := existing.streamingQueue ++ [update] }
    else
      match update with
      | some update => s.updateRequestAsSession existing update
      | none => s.finishRequests connectorDelay [request.requestId] .finishedAborted
  | none =>
    let s := s.setRequest { request with streamingQueue := [] }
    .ok { s with waiting := s.waiting.addRequest s.config.policy s.before request.requestId }

/-- The loop of `reset_prefix_cache` that preempts all running requests, the last one first. -/
def preemptAll : ℕ → Scheduler → Except PyError Scheduler
  | 0, s => .ok s
  | fuel + 1, s =>
    match s.running.getLast? with
    | none => .ok s
    | some requestId => do
      let request ← s.request requestId
      let s ← { s with running := s.running.dropLast }.preemptRequest request
      let request ← s.request requestId
      preemptAll fuel (s.setRequest
        { request with numOutputPlaceholders := 0, discardLatestAsyncTokens := true })

/-- `reset_prefix_cache`. The connector tells in `connectorReset` whether it reset its cache. -/
def resetPrefixCache (resetRunningRequests resetConnector connectorReset : Bool) :
    Except PyError (Bool × Scheduler) := do
  let s ← (if resetRunningRequests then do
      let s ← preemptAll s.running.length s
      pure { s with prevStepScheduledReqIds := ∅ }
    else pure s)
  let (resetSuccessful, kvCacheManager) := s.kvCacheManager.resetPrefixCache
  let s := { s with kvCacheManager }
  ensure (resetRunningRequests → resetSuccessful) (.runtimeError (
    "Failed to reset KV cache even when all the running requests are " ++
    "preempted and moved to the waiting queue. This is likely due to " ++
    "the presence of running requests waiting for remote KV transfer, " ++
    "which is not supported yet."))
  return (resetSuccessful && (!resetConnector || (s.config.hasConnector && connectorReset)), s)

def resetEncoderCache : Scheduler := { s with encoderCache := s.encoderCache.reset }

end Scheduler

end CustomAi.Vllm
