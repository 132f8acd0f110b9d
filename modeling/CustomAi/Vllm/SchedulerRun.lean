import CustomAi.Vllm.UpdateFromOutput

/-!
# Runs of the scheduler

The calls of the engine on the scheduler.
-/

namespace CustomAi.Vllm

open Except

structure Batch where
  output : SchedulerOutput
  requests : Dict RequestId Request

structure Engine where
  scheduler : Scheduler
  inFlight : List Batch

inductive EngineOp
  | addRequest (request : Request) (connectorDelay : RequestId → Bool)
  | schedule (env : ScheduleEnv)
  | updateFromOutput (out : ModelRunnerOutput) (connectorDelay : RequestId → Bool)
  | finishRequests (requestIds : List RequestId) (finishedStatus : RequestStatus)
    (connectorDelay : RequestId → Bool)
  | resetPrefixCache (resetRunningRequests resetConnector connectorReset : Bool)
  | updateDraftTokenIds (drafts : List (RequestId × List TokenId))
  | resetEncoderCache

namespace Engine

def start (config : SchedulerConfig) (kvCacheManager : KVCacheManager)
    (encoderCache : EncoderCache) : Engine :=
  ⟨.new config kvCacheManager encoderCache, []⟩

def step (e : Engine) : EngineOp → Except PyError Engine
  | .addRequest request connectorDelay => do
    let scheduler ← e.scheduler.addRequest connectorDelay request
    return { e with scheduler }
  | .schedule env => do
    let (output, scheduler) ← e.scheduler.schedule env
    return { scheduler, inFlight := e.inFlight ++ [⟨output, scheduler.requests⟩] }
  | .updateFromOutput out connectorDelay =>
    match e.inFlight with
    | [] => .error .indexError
    | batch :: inFlight => do
      let (_, scheduler) ← e.scheduler.updateFromOutput batch.output out connectorDelay
      return { scheduler, inFlight }
  | .finishRequests requestIds finishedStatus connectorDelay => do
    let scheduler ← e.scheduler.finishRequests connectorDelay requestIds finishedStatus
    return { e with scheduler }
  | .resetPrefixCache resetRunningRequests resetConnector connectorReset => do
    let (_, scheduler) ← e.scheduler.resetPrefixCache resetRunningRequests resetConnector
      connectorReset
    return { e with scheduler }
  | .updateDraftTokenIds drafts =>
    .ok { e with scheduler := e.scheduler.updateDraftTokenIds drafts }
  | .resetEncoderCache => .ok { e with scheduler := e.scheduler.resetEncoderCache }

inductive Stepped (e : Engine) : EngineOp → Engine → Prop
  | addRequest {request : Request} {connectorDelay : RequestId → Bool} {s : Scheduler} :
      e.scheduler.addRequest connectorDelay request = .ok s →
      Stepped e (.addRequest request connectorDelay) ⟨s, e.inFlight⟩
  | schedule {env : ScheduleEnv} {output : SchedulerOutput} {s : Scheduler} :
      e.scheduler.schedule env = .ok (output, s) →
      Stepped e (.schedule env) ⟨s, e.inFlight ++ [⟨output, s.requests⟩]⟩
  | updateFromOutput {out : ModelRunnerOutput} {connectorDelay : RequestId → Bool}
      {batch : Batch} {inFlight : List Batch} {outputs : List EngineCoreOutput} {s : Scheduler} :
      e.inFlight = batch :: inFlight →
      e.scheduler.updateFromOutput batch.output out connectorDelay = .ok (outputs, s) →
      Stepped e (.updateFromOutput out connectorDelay) ⟨s, inFlight⟩
  | finishRequests {requestIds : List RequestId} {finishedStatus : RequestStatus}
      {connectorDelay : RequestId → Bool} {s : Scheduler} :
      e.scheduler.finishRequests connectorDelay requestIds finishedStatus = .ok s →
      Stepped e (.finishRequests requestIds finishedStatus connectorDelay) ⟨s, e.inFlight⟩
  | resetPrefixCache {resetRunningRequests resetConnector connectorReset success : Bool}
      {s : Scheduler} :
      e.scheduler.resetPrefixCache resetRunningRequests resetConnector connectorReset = .ok (success, s) →
      Stepped e (.resetPrefixCache resetRunningRequests resetConnector connectorReset) ⟨s, e.inFlight⟩
  | updateDraftTokenIds {drafts : List (RequestId × List TokenId)} :
      Stepped e (.updateDraftTokenIds drafts) ⟨e.scheduler.updateDraftTokenIds drafts, e.inFlight⟩
  | resetEncoderCache : Stepped e .resetEncoderCache ⟨e.scheduler.resetEncoderCache, e.inFlight⟩

lemma step_stepped {e e' : Engine} {op : EngineOp} (h : e.step op = .ok e') : Stepped e op e' := by
  cases op with
  | addRequest request connectorDelay =>
    obtain ⟨s, hs, h⟩ := bind_eq_ok.mp h
    obtain rfl := ok.inj h
    exact .addRequest hs
  | schedule env =>
    obtain ⟨⟨output, s⟩, hs, h⟩ := bind_eq_ok.mp h
    obtain rfl := ok.inj h
    exact .schedule hs
  | updateFromOutput out connectorDelay =>
    cases hflight : e.inFlight with
    | nil =>
      simp only [step, hflight] at h
      cases h
    | cons batch inFlight =>
      simp only [step, hflight] at h
      obtain ⟨⟨outputs, s⟩, hs, h⟩ := bind_eq_ok.mp h
      obtain rfl := ok.inj h
      exact .updateFromOutput hflight hs
  | finishRequests requestIds finishedStatus connectorDelay =>
    obtain ⟨s, hs, h⟩ := bind_eq_ok.mp h
    obtain rfl := ok.inj h
    exact .finishRequests hs
  | resetPrefixCache resetRunningRequests resetConnector connectorReset =>
    obtain ⟨⟨success, s⟩, hs, h⟩ := bind_eq_ok.mp h
    obtain rfl := ok.inj h
    exact .resetPrefixCache hs
  | updateDraftTokenIds drafts =>
    obtain rfl := ok.inj h
    exact .updateDraftTokenIds
  | resetEncoderCache =>
    obtain rfl := ok.inj h
    exact .resetEncoderCache

end Engine

/-- A request as `Request.__init__` makes it. -/
structure Request.Fresh (request : Request) : Prop where
  status : request.status = .waiting ∨ request.status = .waitingForFsm
  outputTokenIds : request.outputTokenIds = []
  numComputedTokens : request.numComputedTokens = 0
  numPromptTokens : request.numPromptTokens = request.allTokenIds.length
  specTokenIds : request.specTokenIds = []
  numOutputPlaceholders : request.numOutputPlaceholders = 0
  discardLatestAsyncTokens : request.discardLatestAsyncTokens = false
  numCachedTokens : request.numCachedTokens = -1
  isPrefillChunk : request.isPrefillChunk = false
  numPreemptions : request.numPreemptions = 0
  maxTokens : request.poolingParams = false → request.maxTokens = request.samplingParams.maxTokens

def smallCache : Except PyError KVCacheManager :=
  KVCacheManager.new ⟨8, [.fullAttention ⟨1, 1, 1, ⟨"f", 2⟩, none⟩ 1 none none]⟩ 16 1 false false
    false false 1 1

def smallConfig : SchedulerConfig where
  maxNumRunningReqs := 4
  maxNumScheduledTokens := 16
  maxModelLen := 16
  blockSize := 1
  cacheBlockSize := 1

def sampled (tokenId : TokenId) : ModelRunnerOutput where
  sampledTokenIds := fun _ => [tokenId]

end CustomAi.Vllm
