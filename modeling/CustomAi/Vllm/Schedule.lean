import CustomAi.Vllm.EncoderScheduling

/-!
# One scheduling step

`schedule` of `vllm/v1/core/sched/scheduler.py` and `_update_after_schedule`, with the override of
`vllm/v1/core/sched/async_scheduler.py`.
-/

namespace CustomAi.Vllm

structure NewRequestData where
  reqId : RequestId
  promptTokenIds : Option (List TokenId)
  mmFeatures : List MultiModalFeatureSpec
  samplingParams : SamplingParams
  blockIds : List (List BlockId)
  numComputedTokens : ℤ
  loraRequest : Option LoRARequest
  prefillTokenIds : Option (List TokenId)

structure CachedRequestData where
  reqIds : List RequestId := []
  resumedReqIds : List RequestId := []
  newTokenIds : List (List TokenId) := []
  allTokenIds : Dict RequestId (List TokenId) := .empty
  newBlockIds : List (Option (List (List BlockId))) := []
  numComputedTokens : List ℤ := []
  numOutputTokens : List ℤ := []

structure SchedulerOutput where
  scheduledNewReqs : List NewRequestData
  scheduledCachedReqs : CachedRequestData
  numScheduledTokens : Dict RequestId ℤ
  totalNumScheduledTokens : ℤ
  scheduledSpecDecodeTokens : Dict RequestId (List TokenId)
  scheduledEncoderInputs : Dict RequestId (List ℕ)
  preemptedReqIds : List RequestId
  finishedReqIds : Finset RequestId
  freeEncoderMmHashes : List String

/-- The local variables of `schedule`. -/
structure ScheduleLocals where
  s : Scheduler
  reqIndex : ℕ := 0
  scheduledNewReqs : List RequestId := []
  scheduledResumedReqs : List RequestId := []
  scheduledRunningReqs : List RequestId := []
  preemptedReqs : List RequestId := []
  reqToNewBlocks : Dict RequestId (List (List BlockId)) := .empty
  numScheduledTokens : Dict RequestId ℤ := .empty
  tokenBudget : ℤ
  scheduledEncoderInputs : Dict RequestId (List ℕ) := .empty
  encoderComputeBudget : ℤ
  scheduledSpecDecodeTokens : Dict RequestId (List TokenId) := .empty
  scheduledLoras : Finset ℕ := ∅
  skippedWaitingRequests : RequestQueue := []

def mambaBlockAlignedSplit (config : SchedulerConfig) (request : Request) (numNewTokens : ℤ)
    (numNewLocalComputedTokens numExternalComputedTokens : ℕ) : Except PyError ℤ := do
  ensure (numExternalComputedTokens = 0) (.assertionError
    "External KV connector is not verified yet")
  if request.numOutputTokens = 0 then
    let blockSize : ℤ := config.cacheBlockSize
    let lastCachePosition : ℤ := request.numPromptTokens - request.numPromptTokens % blockSize
    let lastCachePosition := if config.useEagle then max (lastCachePosition - blockSize) 0
      else lastCachePosition
    let numComputedTokens := request.numComputedTokens + numNewLocalComputedTokens + numExternalComputedTokens
    let numComputedTokensAfterSched := numComputedTokens + numNewTokens
    if numComputedTokensAfterSched < lastCachePosition then
      return numNewTokens / blockSize * blockSize
    else if numComputedTokens < lastCachePosition ∧ lastCachePosition < numComputedTokensAfterSched then
      return lastCachePosition - numComputedTokens
    else return numNewTokens
  else return numNewTokens

/-- The request reaches `max_tokens` with the output that is on its way. -/
def Request.reachesMaxTokens (request : Request) : Bool :=
  request.numOutputPlaceholders > 0 &&
    request.numComputedTokens + 2 - request.numOutputPlaceholders ≥ request.numPromptTokens + request.maxTokens

def Request.numTokensWithSpec (request : Request) : ℕ :=
  request.numTokens + request.specTokenIds.length

/-- The number of tokens to compute for a running request, before its encoder inputs are
considered. -/
def numNewTokensRunning (config : SchedulerConfig) (request : Request) (tokenBudget : ℤ) : ℤ :=
  let numNewTokens := request.numTokensWithSpec + request.numOutputPlaceholders - request.numComputedTokens
  let threshold : ℤ := config.longPrefillTokenThreshold
  let numNewTokens := if 0 < threshold ∧ threshold < numNewTokens then threshold else numNewTokens
  let numNewTokens := min numNewTokens tokenBudget
  min numNewTokens ((config.maxModelLen : ℤ) - 1 - request.numComputedTokens)

/-- `max(self.running, key=lambda r: (r.priority, r.arrival_time))`, the first of several. -/
def lowestPriority (requests : Dict RequestId Request) : List RequestId → Option RequestId
  | [] => none
  | x :: rest =>
    some <| rest.foldl (fun best y =>
      match requests.get? best, requests.get? y with
      | some r, some q =>
        if r.priority < q.priority ∨ (r.priority = q.priority ∧ r.arrivalTime < q.arrivalTime)
        then y else best
      | _, _ => best) x

namespace ScheduleLocals

variable (l : ScheduleLocals)

def start (s : Scheduler) : ScheduleLocals where
  s := s
  tokenBudget := s.config.maxNumScheduledTokens
  encoderComputeBudget := s.config.maxNumEncoderInputTokens

def sumEmbeds (request : Request) : List ℕ → Except PyError ℤ
  | [] => .ok 0
  | i :: rest => do
    let numEmbeds ← request.getNumEncoderEmbeds i
    let total ← sumEmbeds request rest
    return numEmbeds + total

/-- A request that was scheduled in this step is preempted: what the step recorded about it is
taken back. -/
def rollback (request : Request) : Except PyError ScheduleLocals := do
  let id := request.requestId
  match l.numScheduledTokens.get? id with
  | none => .error .keyError
  | some numTokens =>
    ensure (l.reqToNewBlocks.contains id) .keyError
    let numEmbedsToRestore ← sumEmbeds request ((l.scheduledEncoderInputs.get? id).getD [])
    return { l with
      scheduledRunningReqs := l.scheduledRunningReqs.erase id
      tokenBudget := l.tokenBudget + numTokens
      numScheduledTokens := l.numScheduledTokens.erase id
      reqToNewBlocks := l.reqToNewBlocks.erase id
      scheduledSpecDecodeTokens := l.scheduledSpecDecodeTokens.erase id
      scheduledEncoderInputs := l.scheduledEncoderInputs.erase id
      encoderComputeBudget := l.encoderComputeBudget + numEmbedsToRestore
      reqIndex := l.reqIndex - 1 }

def popVictim : Except PyError (RequestId × ScheduleLocals) :=
  match l.s.config.policy with
  | .priority =>
    match lowestPriority l.s.requests l.s.running with
    | none => .error (.valueError "max() arg is an empty sequence")
    | some id => do
      let l := { l with s := { l.s with running := l.s.running.erase id } }
      if id ∈ l.scheduledRunningReqs then
        let request ← l.s.request id
        let l ← l.rollback request
        return (id, l)
      else return (id, l)
  | .fcfs =>
    match l.s.running.getLast? with
    | none => .error .indexError
    | some id => .ok (id, { l with s := { l.s with running := l.s.running.dropLast } })

def preempt : Except PyError (RequestId × ScheduleLocals) := do
  let (id, l) ← l.popVictim
  let victim ← l.s.request id
  let s ← l.s.preemptRequest victim
  return (id, { l with s, preemptedReqs := l.preemptedReqs ++ [id] })

/-- The loop around `allocate_slots`: preempt until there are blocks or the request is gone. -/
def allocateRunning (requestId : RequestId) (numNewTokens : ℤ) :
    ℕ → ScheduleLocals → Except PyError (Option (List (List BlockId)) × ScheduleLocals)
  | fuel, l => do
    let request ← l.s.request requestId
    let (newBlocks, kvCacheManager) ← l.s.kvCacheManager.allocateSlots request
      l.s.kvCacheManager.emptyKvCacheBlocks 0
      { numNewTokens, numLookaheadTokens := l.s.config.numLookaheadTokens }
    let l := { l with s := { l.s with kvCacheManager } }
    match newBlocks with
    | some newBlocks => return (some newBlocks, l)
    | none =>
      let (preempted, l) ← l.preempt
      if preempted = requestId then return (none, l)
      else
        match fuel with
        | 0 => .error .indexError
        | fuel + 1 => allocateRunning requestId numNewTokens fuel l

/-- The spec tokens that are scheduled with `numNewTokens` tokens. -/
def specTokensToSchedule (request : Request) (numNewTokens : ℤ) : List TokenId :=
  let numScheduledSpecTokens := numNewTokens + request.numComputedTokens - request.numTokens -
    request.numOutputPlaceholders
  if numScheduledSpecTokens > 0 then request.specTokenIds.take numScheduledSpecTokens.toNat else []

def allocateEncoder (request : Request) (t : EncoderTry) : Except PyError ScheduleLocals := do
  let id := request.requestId
  let encoderCache ← l.s.encoderCache.allocateAll request t.encoderInputsToSchedule
  let encoderCache ← encoderCache.allocateAll request t.externalLoadEncoderInput
  let l := { l with s := { l.s with encoderCache } }
  if t.encoderInputsToSchedule = [] then return l
  else return { l with
    scheduledEncoderInputs := l.scheduledEncoderInputs.set id t.encoderInputsToSchedule
    encoderComputeBudget := t.encoderComputeBudget }

def scheduleRunning (request : Request) (numNewTokens : ℤ) (newBlocks : List (List BlockId))
    (t : EncoderTry) : Except PyError ScheduleLocals :=
  let id := request.requestId
  let specTokenIds := specTokensToSchedule request numNewTokens
  let l := { l with
    scheduledRunningReqs := l.scheduledRunningReqs ++ [id]
    reqToNewBlocks := l.reqToNewBlocks.set id newBlocks
    numScheduledTokens := l.numScheduledTokens.set id numNewTokens
    tokenBudget := l.tokenBudget - numNewTokens
    reqIndex := l.reqIndex + 1
    scheduledSpecDecodeTokens := if specTokenIds = [] then l.scheduledSpecDecodeTokens
      else l.scheduledSpecDecodeTokens.set id specTokenIds
    s := l.s.setRequest { request with specTokenIds := [] } }
  l.allocateEncoder request t

def runningStep (env : ScheduleEnv) (requestId : RequestId) :
    Except PyError (Bool × ScheduleLocals) := do
  let request ← l.s.request requestId
  let skipped := { l with reqIndex := l.reqIndex + 1 }
  if request.reachesMaxTokens then return (true, skipped)
  else
    let numNewTokens := numNewTokensRunning l.s.config request l.tokenBudget
    let t ← tryScheduleEncoderInputs l.s.config env l.s.encoderCache request
      request.numComputedTokens numNewTokens l.encoderComputeBudget
    let l := { l with s := { l.s with encoderCache := t.encoderCache } }
    let numNewTokens ← (if l.s.config.needMambaBlockAlignedSplit then
        mambaBlockAlignedSplit l.s.config request t.numNewTokens 0 0
      else pure t.numNewTokens)
    if numNewTokens = 0 then return (true, { l with reqIndex := l.reqIndex + 1 })
    else
      let (newBlocks, l) ← allocateRunning requestId numNewTokens l.s.running.length l
      match newBlocks with
      | none => return (false, l)
      | some newBlocks =>
        let request ← l.s.request requestId
        let l ← l.scheduleRunning request numNewTokens newBlocks t
        return (true, l)

def runningLoop (env : ScheduleEnv) : ℕ → ScheduleLocals → Except PyError ScheduleLocals
  | 0, l => .ok l
  | fuel + 1, l =>
    match l.s.running[l.reqIndex]? with
    | none => .ok l
    | some requestId =>
      if l.tokenBudget > 0 then do
        let (goOn, l) ← l.runningStep env requestId
        if goOn then runningLoop env fuel l else return l
      else .ok l

def recordLoras : Except PyError ScheduleLocals :=
  match l.s.config.maxLoras with
  | none => .ok l
  | some maxLoras => do
    let ids := l.scheduledRunningReqs.filterMap fun requestId =>
      ((l.s.requests.get? requestId).bind (fun r => r.loraRequest)).map (fun lora => lora.loraIntId)
    let scheduledLoras := (ids.filter (fun i => i > 0)).toFinset
    ensure (scheduledLoras.card ≤ maxLoras) (.assertionError "")
    return { l with scheduledLoras }

def skip (requestId : RequestId) : Except PyError ScheduleLocals :=
  match l.s.waiting.popRequest l.s.config.policy l.s.before with
  | none => .error .indexError
  | some (_, waiting) => .ok { l with
      s := { l.s with waiting }
      skippedWaitingRequests :=
        l.skippedWaitingRequests.prependRequest l.s.config.policy l.s.before requestId }

end ScheduleLocals

namespace Scheduler

variable (s : Scheduler)

def updateWaitingForRemoteKv (request : Request) : Except PyError (Bool × Scheduler) := do
  ensure s.config.hasConnector (.assertionError "")
  let id := request.requestId
  if id ∉ s.finishedRecvingKvReqIds then return (false, s)
  else if id ∈ s.failedRecvingKvReqIds then
    let kvCacheManager ← (if request.numComputedTokens ≠ 0 then
        s.kvCacheManager.cacheBlocks request request.numComputedTokens.toNat
      else s.kvCacheManager.free request)
    return (true, { s with
      kvCacheManager
      failedRecvingKvReqIds := s.failedRecvingKvReqIds.erase id
      finishedRecvingKvReqIds := s.finishedRecvingKvReqIds.erase id })
  else
    match s.kvCacheManager.getBlockIds id with
    | [blockIds] => do
      let numComputedTokens : ℤ := min (blockIds.length * s.config.blockSize) request.numTokens
      let numComputedTokens := if numComputedTokens = request.numTokens then numComputedTokens - 1
        else numComputedTokens
      let kvCacheManager ← s.kvCacheManager.cacheBlocks request numComputedTokens.toNat
      return (true, { s with
        kvCacheManager
        finishedRecvingKvReqIds := s.finishedRecvingKvReqIds.erase id }.setRequest
          { request with numComputedTokens })
    | _ => .error (.valueError "")

def checkStatus (env : ScheduleEnv) (request : Request) : Except PyError (Bool × Scheduler) :=
  match request.status with
  | .waitingForRemoteKvs => do
    let (isReady, s) ← s.updateWaitingForRemoteKv request
    if isReady then
      let request ← s.request request.requestId
      let status := if request.numPreemptions ≠ 0 then .preempted else .waiting
      return (false, s.setRequest { request with status })
    else return (true, s)
  | .waitingForFsm =>
    if env.grammarReady request.requestId then
      .ok (false, s.setRequest { request with status := .waiting })
    else .ok (true, s)
  | .waitingForStreamingReq => do
    ensure (request.streamingQueue = []) (.assertionError "")
    return (true, s)
  | _ => .ok (false, s)

end Scheduler

structure ComputedTokens where
  newComputedBlocks : List (List BlockId)
  numNewLocalComputedTokens : ℕ
  numExternalComputedTokens : ℕ
  loadKvAsync : Bool
  numComputedTokens : ℤ

namespace ScheduleLocals

variable (l : ScheduleLocals)

/-- Scheduling the request would exceed `max_loras`. -/
def exceedsLoras (request : Request) : Bool :=
  match l.s.config.maxLoras, request.loraRequest with
  | some maxLoras, some lora =>
    l.scheduledLoras.card = maxLoras && lora.loraIntId ∉ l.scheduledLoras
  | _, _ => false

/-- The cached tokens of a waiting request. There is none if the connector does not know yet. -/
def getComputedTokens (env : ScheduleEnv) (request : Request) :
    Except PyError (Option ComputedTokens × Scheduler) :=
  if request.numComputedTokens = 0 then do
    let (newComputedBlocks, numNewLocalComputedTokens) ←
      l.s.kvCacheManager.getComputedBlocks request
    if l.s.config.hasConnector then
      match env.getNumNewMatchedTokens request.requestId numNewLocalComputedTokens with
      | (none, _) => return (none, l.s)
      | (some extTokens, loadKvAsync) =>
        return (some {
          newComputedBlocks, numNewLocalComputedTokens, loadKvAsync
          numExternalComputedTokens := extTokens
          numComputedTokens := numNewLocalComputedTokens + extTokens },
          l.s.setRequest { request with numExternalComputedTokens := extTokens })
    else
      return (some {
        newComputedBlocks, numNewLocalComputedTokens
        numExternalComputedTokens := 0
        loadKvAsync := false
        numComputedTokens := numNewLocalComputedTokens }, l.s)
  else .ok (some {
    newComputedBlocks := l.s.kvCacheManager.emptyKvCacheBlocks
    numNewLocalComputedTokens := 0
    numExternalComputedTokens := 0
    loadKvAsync := false
    numComputedTokens := request.numComputedTokens }, l.s)

def alignWaiting (request : Request) (c : ComputedTokens) (numNewTokens : ℤ) :
    Except PyError (Option ℤ) :=
  if l.s.config.needMambaBlockAlignedSplit then do
    let numNewTokens ← mambaBlockAlignedSplit l.s.config request numNewTokens
      c.numNewLocalComputedTokens c.numExternalComputedTokens
    return if numNewTokens = 0 then none else some numNewTokens
  else .ok (some numNewTokens)

/-- The tokens to compute for a waiting request and its encoder inputs, if it can be scheduled. -/
def numNewTokensWaiting (env : ScheduleEnv) (request : Request) (c : ComputedTokens) :
    Except PyError (Option ℤ × EncoderTry) :=
  let noInputs : EncoderTry :=
    { encoderCache := l.s.encoderCache
      numNewTokens := 0
      encoderComputeBudget := l.encoderComputeBudget }
  if c.loadKvAsync then do
    ensure (c.numExternalComputedTokens > 0) (.assertionError "")
    let numNewTokens ← l.alignWaiting request c 0
    return (numNewTokens, noInputs)
  else
    let numNewTokens := request.numTokens - c.numComputedTokens
    let threshold : ℤ := l.s.config.longPrefillTokenThreshold
    let numNewTokens := if 0 < threshold ∧ threshold < numNewTokens then threshold
      else numNewTokens
    if !l.s.config.enableChunkedPrefill && numNewTokens > l.tokenBudget then .ok (none, noInputs)
    else do
      let numNewTokens := min numNewTokens l.tokenBudget
      ensure (numNewTokens > 0) (.assertionError "")
      if request.hasEncoderInputs then
        let t ← tryScheduleEncoderInputs l.s.config env l.s.encoderCache request
          c.numComputedTokens numNewTokens l.encoderComputeBudget
        if t.numNewTokens = 0 then return (none, t)
        else
          let numNewTokens ← l.alignWaiting request c t.numNewTokens
          return (numNewTokens, t)
      else
        let numNewTokens ← l.alignWaiting request c numNewTokens
        return (numNewTokens, noInputs)

/-- The arguments of `allocate_slots` for a waiting request. -/
def waitingArgs (request : Request) (c : ComputedTokens) (numNewTokens : ℤ) :
    KVCacheManager.AllocateSlotsArgs where
  numNewTokens := numNewTokens
  numLookaheadTokens := if request.numComputedTokens = 0 then 0 else l.s.config.numLookaheadTokens
  numExternalComputedTokens := c.numExternalComputedTokens
  delayCacheBlocks := c.loadKvAsync
  numEncoderTokens := if l.s.isEncoderDecoder && request.hasEncoderInputs then
    l.s.config.numEncoderMaxInputTokens else 0

def admitRequest (request : Request) (c : ComputedTokens) (numNewTokens : ℤ) (t : EncoderTry) :
    Except PyError ScheduleLocals := do
  let id := request.requestId
  let scheduledNewReqs := if request.status = .waiting then l.scheduledNewReqs ++ [id]
    else l.scheduledNewReqs
  let scheduledResumedReqs := if request.status = .preempted then l.scheduledResumedReqs ++ [id]
    else l.scheduledResumedReqs
  ensure (request.status = .waiting ∨ request.status = .preempted) (.runtimeError
    ("Invalid request status: " ++ request.status.name))
  let scheduledLoras := match l.s.config.maxLoras, request.loraRequest with
    | some _, some lora => insert lora.loraIntId l.scheduledLoras
    | _, _ => l.scheduledLoras
  let admitted := { request with
    status := .running
    numComputedTokens := c.numComputedTokens
    numCachedTokens := if request.numCachedTokens < 0 then c.numComputedTokens
      else request.numCachedTokens }
  let l := { l with
    scheduledNewReqs, scheduledResumedReqs, scheduledLoras
    reqToNewBlocks := l.reqToNewBlocks.set id (l.s.kvCacheManager.getBlockIds id)
    numScheduledTokens := l.numScheduledTokens.set id numNewTokens
    tokenBudget := l.tokenBudget - numNewTokens
    s := ({ l.s with running := l.s.running ++ [id] } : Scheduler).setRequest admitted }
  l.allocateEncoder request t

def startWaiting (request : Request) (c : ComputedTokens) (numNewTokens : ℤ) (t : EncoderTry) :
    Except PyError (Bool × ScheduleLocals) := do
  let (newBlocks, kvCacheManager) ← l.s.kvCacheManager.allocateSlots request c.newComputedBlocks
    c.numNewLocalComputedTokens (l.waitingArgs request c numNewTokens)
  let l := { l with s := { l.s with kvCacheManager } }
  match newBlocks with
  | none =>
    let encoderCache ← (if request.hasEncoderInputs then
        l.s.encoderCache.free l.s.config.setOrder request
      else pure l.s.encoderCache)
    return (false, { l with s := { l.s with encoderCache } })
  | some _ =>
    if c.loadKvAsync then
      let l ← l.skip request.requestId
      return (true, { l with s := l.s.setRequest { request with status := .waitingForRemoteKvs } })
    else
      match l.s.waiting.popRequest l.s.config.policy l.s.before with
      | none => .error .indexError
      | some (_, waiting) =>
        let l ← { l with s := { l.s with waiting } }.admitRequest request c numNewTokens t
        return (true, l)

/-- The body of the second loop for the first waiting request, and whether the loop goes on. -/
def waitingStep (env : ScheduleEnv) (requestId : RequestId) :
    Except PyError (Bool × ScheduleLocals) := do
  let request ← l.s.request requestId
  let (skipped, s) ← l.s.checkStatus env request
  let l := { l with s }
  if skipped then
    let l ← l.skip requestId
    return (true, l)
  else
    let request ← l.s.request requestId
    if l.exceedsLoras request then
      let l ← l.skip requestId
      return (true, l)
    else
      let (c, s) ← l.getComputedTokens env request
      let l := { l with s }
      match c with
      | none =>
        let l ← l.skip requestId
        return (true, l)
      | some c =>
        let request ← l.s.request requestId
        let (numNewTokens, t) ← l.numNewTokensWaiting env request c
        let l := { l with s := { l.s with encoderCache := t.encoderCache } }
        match numNewTokens with
        | none => return (false, l)
        | some numNewTokens => l.startWaiting request c numNewTokens t

def waitingLoop (env : ScheduleEnv) : ℕ → ScheduleLocals → Except PyError ScheduleLocals
  | 0, l => .ok l
  | fuel + 1, l =>
    match l.s.waiting.peekRequest with
    | none => .ok l
    | some requestId =>
      if l.tokenBudget > 0 ∧ l.s.running.length ≠ l.s.config.maxNumRunningReqs then do
        let (goOn, l) ← l.waitingStep env requestId
        if goOn then waitingLoop env fuel l else return l
      else .ok l

def loops (env : ScheduleEnv) (s : Scheduler) : Except PyError ScheduleLocals := do
  let l ← runningLoop env s.running.length (.start s)
  let l ← l.recordLoras
  let l ← (if l.preemptedReqs = [] then waitingLoop env l.s.waiting.length l else pure l)
  if l.skippedWaitingRequests = [] then return l
  else return { l with s := { l.s with
    waiting := l.s.waiting.prependRequests l.s.config.policy l.s.before l.skippedWaitingRequests } }

/-- `NewRequestData.from_request` for a scheduled request. -/
def newRequestData (requestId : RequestId) : Except PyError NewRequestData := do
  let request ← l.s.request requestId
  match l.reqToNewBlocks.get? requestId with
  | none => .error .keyError
  | some blockIds =>
    return {
      reqId := requestId
      promptTokenIds := request.promptTokenIds
      mmFeatures := request.mmFeatures
      samplingParams := request.samplingParams
      blockIds
      numComputedTokens := request.numComputedTokens
      loraRequest := request.loraRequest
      prefillTokenIds := if l.s.config.useV2ModelRunner then some request.allTokenIds else none }

/-- The body of the loop of `_make_cached_request_data`. -/
def cachedRequest (resumed : Bool) (requestId : RequestId) (d : CachedRequestData) :
    Except PyError CachedRequestData := do
  let request ← l.s.request requestId
  match l.numScheduledTokens.get? requestId, l.reqToNewBlocks.get? requestId with
  | some numScheduled, some blockIds =>
    let scheduledInPrevStep : Bool := requestId ∈ l.s.prevStepScheduledReqIds
    let numTokens := numScheduled - (((l.scheduledSpecDecodeTokens.get? requestId).getD []).length : ℤ)
    let tokenIds := pySlice request.allTokenIds request.numComputedTokens
      (request.numComputedTokens + numTokens)
    ensure (resumed → scheduledInPrevStep = false) (.assertionError "")
    return {
      reqIds := d.reqIds ++ [requestId]
      resumedReqIds := if resumed then d.resumedReqIds ++ [requestId] else d.resumedReqIds
      newTokenIds := if l.s.config.usePp && !l.s.config.asyncScheduling then
        d.newTokenIds ++ [tokenIds] else d.newTokenIds
      allTokenIds := if scheduledInPrevStep then d.allTokenIds
        else d.allTokenIds.set requestId request.allTokenIds
      newBlockIds := d.newBlockIds ++ [if blockIds.all (fun group => group = []) then none else some blockIds]
      numComputedTokens := d.numComputedTokens ++ [request.numComputedTokens]
      numOutputTokens := d.numOutputTokens ++ [request.numOutputTokens + request.numOutputPlaceholders] }
  | _, _ => .error .keyError

def cachedRequests (resumed : Bool) :
    List RequestId → CachedRequestData → Except PyError CachedRequestData
  | [], d => .ok d
  | requestId :: rest, d => do
    let d ← l.cachedRequest resumed requestId d
    cachedRequests resumed rest d

def makeOutput : Except PyError SchedulerOutput := do
  let totalNumScheduledTokens := l.numScheduledTokens.values.sum
  ensure (totalNumScheduledTokens ≤ l.s.config.maxNumScheduledTokens) (.assertionError "")
  ensure (l.tokenBudget ≥ 0) (.assertionError "")
  ensure (l.s.running.length ≤ l.s.config.maxNumRunningReqs) (.assertionError "")
  ensure (l.scheduledNewReqs.length + l.scheduledResumedReqs.length +
    l.scheduledRunningReqs.length ≤ l.s.running.length) (.assertionError "")
  let v2 := l.s.config.useV2ModelRunner
  let newReqs := if v2 then l.scheduledNewReqs ++ l.scheduledResumedReqs else l.scheduledNewReqs
  let scheduledNewReqs ← newReqs.mapM l.newRequestData
  let d ← l.cachedRequests false l.scheduledRunningReqs {}
  let scheduledCachedReqs ← l.cachedRequests true (if v2 then [] else l.scheduledResumedReqs) d
  return {
    scheduledNewReqs, scheduledCachedReqs, totalNumScheduledTokens
    numScheduledTokens := l.numScheduledTokens
    scheduledSpecDecodeTokens := l.scheduledSpecDecodeTokens
    scheduledEncoderInputs := l.scheduledEncoderInputs
    preemptedReqIds := l.preemptedReqs
    finishedReqIds := l.s.finishedReqIds
    freeEncoderMmHashes := l.s.encoderCache.getFreedMmHashes.1 }

end ScheduleLocals

namespace Scheduler

variable (s : Scheduler)

/-- `_update_after_schedule` for one scheduled request. -/
def advanceRequest (requestId : RequestId) (numScheduledTokens : ℤ) : Except PyError Scheduler := do
  let request ← s.request requestId
  let numComputedTokens := request.numComputedTokens + numScheduledTokens
  let request := { request with
    numComputedTokens
    isPrefillChunk := numComputedTokens < request.numTokens + request.numOutputPlaceholders }
  let encoderCache ← (if request.hasEncoderInputs then
      s.encoderCache.freeEncoderInputs s.config.setOrder request
    else pure s.encoderCache)
  return { s with encoderCache }.setRequest request

/-- The override in `AsyncScheduler`: placeholders for the token and the drafts to come. -/
def addPlaceholders (scheduledSpecDecodeTokens : Dict RequestId (List TokenId))
    (requestId : RequestId) : Except PyError Scheduler := do
  let request ← s.request requestId
  if request.isPrefillChunk then return s
  else
    let curNumSpecTokens := ((scheduledSpecDecodeTokens.get? requestId).getD []).length
    return s.setRequest { request with
      numOutputPlaceholders := request.numOutputPlaceholders + (1 + curNumSpecTokens)
      specTokenIds := List.replicate s.config.numSpecTokens (-1) }

def advanceAll : List (RequestId × ℤ) → Scheduler → Except PyError Scheduler
  | [], s => .ok s
  | (requestId, numScheduledTokens) :: rest, s => do
    let s ← s.advanceRequest requestId numScheduledTokens
    advanceAll rest s

def addPlaceholdersAll (scheduledSpecDecodeTokens : Dict RequestId (List TokenId)) :
    List RequestId → Scheduler → Except PyError Scheduler
  | [], s => .ok s
  | requestId :: rest, s => do
    let s ← s.addPlaceholders scheduledSpecDecodeTokens requestId
    addPlaceholdersAll scheduledSpecDecodeTokens rest s

def updateAfterSchedule (output : SchedulerOutput) : Except PyError Scheduler := do
  let s ← advanceAll output.numScheduledTokens.entries s
  let s := { s with finishedReqIds := ∅ }
  if s.config.asyncScheduling then
    addPlaceholdersAll output.scheduledSpecDecodeTokens output.numScheduledTokens.keys s
  else return s

def schedule (env : ScheduleEnv) : Except PyError (SchedulerOutput × Scheduler) := do
  let l ← ScheduleLocals.loops env s
  let output ← l.makeOutput
  let s := { l.s with
    prevStepScheduledReqIds := output.numScheduledTokens.keys.toFinset
    encoderCache := l.s.encoderCache.getFreedMmHashes.2 }
  let s ← s.updateAfterSchedule output
  return (output, s)

end Scheduler

end CustomAi.Vllm
