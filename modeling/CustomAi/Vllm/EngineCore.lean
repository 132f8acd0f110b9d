import CustomAi.Vllm.EngineInvariant
import CustomAi.Vllm.GrammarBitmask

/-!
# The steps of the engine core

`step` and `step_with_batch_queue` of `vllm/v1/engine/core.py`, on the scheduler, the grammars of
the requests and the batches in flight. The model generates text, without speculative decoding. The
history of a run is recorded, but no step reads it.
-/

namespace CustomAi.Vllm

/-- `max_concurrent_batches` of `vllm/v1/executor/multiproc_executor.py` -/
def maxConcurrentBatches (pipelineParallelSize : ℕ) (asyncScheduling : Bool) : ℕ :=
  if pipelineParallelSize ≤ 1 ∧ asyncScheduling then 2 else pipelineParallelSize

namespace Scheduler

variable (s : Scheduler)

def getNumUnfinishedRequests : ℤ :=
  s.waiting.length - s.numWaitingForStreamingInput + s.running.length

def hasRequests : Bool :=
  decide (s.getNumUnfinishedRequests > 0) || decide (s.finishedReqIds.card > 0)

/-- `pending_structured_output_tokens` of the output of `schedule`. -/
def pendingStructuredOutputTokens (useStructuredOutput : RequestId → Bool)
    (output : SchedulerOutput) : Bool :=
  s.config.asyncScheduling && output.numScheduledTokens.keys.any fun reqId =>
    (s.requests.get? reqId).any fun request =>
      let curNumSpecTokens : ℤ := ((output.scheduledSpecDecodeTokens.get? reqId).getD []).length
      !request.isPrefillChunk && useStructuredOutput reqId &&
        decide (request.numOutputPlaceholders - (1 + curNumSpecTokens) > 0)

end Scheduler

def GrammarOutput.rowOf (grammarOutput : GrammarOutput) (reqId : RequestId) : Option MaskRow :=
  (grammarOutput.structuredOutputRequestIds.zip grammarOutput.grammarBitmask).lookup reqId

/-- An entry of `batch_queue` with its mask and the grammars that the mask was computed from. -/
structure QueuedBatch (G : Type) where
  batch : Batch
  grammarOutput : Option GrammarOutput
  grammars : RequestId → Option G

/-- A call of `get_grammar_bitmask`, with what the scheduler and the grammars were. -/
structure MaskCall (G : Type) where
  batch : Batch
  inFlight : List Batch
  requests : Dict RequestId Request
  grammars : RequestId → Option G

/-- Tokens that `update_from_output` returned, the grammar of their mask, and whether they were
accepted. -/
structure SampledTokens (G : Type) where
  requestId : RequestId
  compiled : Option G
  preceding : List TokenId
  newTokenIds : List TokenId
  maskGrammar : Option G
  accepted : Bool

/-- What happened so far. `outputTokenIds` are the tokens that were returned for a request. -/
structure EngineHistory (G : Type) where
  compiled : RequestId → Option G
  outputTokenIds : RequestId → List TokenId
  maskCalls : List (MaskCall G)
  processed : List (QueuedBatch G × ModelRunnerOutput)
  sampled : List (SampledTokens G)

/-- `EngineCore`, with the oldest batch at the head of the queue. -/
structure EngineCore (G : Type) where
  scheduler : Scheduler
  structuredOutputManager : StructuredOutputManager
  grammars : RequestId → Option G
  batchQueue : List (QueuedBatch G)
  history : EngineHistory G

/-- The grammar backend, the order of its workers, and the pipeline parallelism. -/
structure EngineSetup (G : Type) where
  ops : StructuredOutputGrammar G
  interleave : List (List (G × ℕ × Bool)) → List (G × ℕ × Bool)
  pipelineParallelSize : ℕ

/-- What a step is told from outside, and the requests to abort. -/
structure StepInput where
  env : ScheduleEnv := {}
  done : Bool := false
  out : ModelRunnerOutput
  aborts : List RequestId := []
  connectorDelay : RequestId → Bool := fun _ => false

inductive EngineCall (G : Type)
  | addRequest (request : Request) (grammar : Option G) (connectorDelay : RequestId → Bool)
  | abortRequests (requestIds : List RequestId) (connectorDelay : RequestId → Bool)
  | step (input : StepInput)

namespace EngineCore

variable {G : Type}

/-- `EngineCore.__init__`, with the backend that the first request initializes. -/
def start (config : SchedulerConfig) (kvCacheManager : KVCacheManager)
    (encoderCache : EncoderCache) (allocateTokenBitmask : ℕ → List MaskRow) : EngineCore G where
  scheduler := .new config kvCacheManager encoderCache
  structuredOutputManager :=
    { backend := some allocateTokenBitmask
      reasoner := none
      enableInReasoning := false
      maxNumSeqs := config.maxNumRunningReqs
      numSpeculativeTokens := none }
  grammars := fun _ => none
  batchQueue := []
  history := ⟨fun _ => none, fun _ => [], [], [], []⟩

variable (c : EngineSetup G) (e : EngineCore G)

def grammarRequests : Dict RequestId (GrammarRequest G) :=
  e.scheduler.requests.mapValues fun reqId request =>
    ⟨request.promptTokenIds, (e.grammars reqId).map fun grammar => ⟨grammar, none⟩⟩

/-- `get_grammar_bitmask` for a batch that is sampled with the mask. -/
def maskBatch (batch : Batch) : Except PyError (QueuedBatch G × EngineCore G) := do
  let (grammarOutput, structuredOutputManager, requests) ←
    getGrammarBitmask e.structuredOutputManager c.ops c.interleave e.grammarRequests batch.output
  let grammars := fun reqId =>
    if e.scheduler.requests.contains reqId then
      ((requests.get? reqId).bind GrammarRequest.structuredOutputRequest).map StructuredOutputRequest.grammar
    else e.grammars reqId
  let call : MaskCall G := ⟨batch, e.batchQueue.map QueuedBatch.batch, e.scheduler.requests, e.grammars⟩
  return (⟨batch, grammarOutput, e.grammars⟩, { e with
    structuredOutputManager, grammars
    history := { e.history with maskCalls := e.history.maskCalls ++ [call] } })

/-- The tokens that `update_from_output` returns for one request are shown to its grammar. -/
def acceptOutput (q : QueuedBatch G) (output : EngineCoreOutput) : EngineCore G :=
  let reqId := output.requestId
  if output.newTokenIds = [] then e
  else
    let outputTokenIds := Function.update e.history.outputTokenIds reqId
      (e.history.outputTokenIds reqId ++ output.newTokenIds)
    match e.grammars reqId with
    | none => { e with history := { e.history with outputTokenIds } }
    | some grammar =>
      let (accepted, grammar) := c.ops.acceptTokens grammar reqId output.newTokenIds
      { e with
        grammars := Function.update e.grammars reqId (some grammar)
        history := { e.history with
          outputTokenIds
          sampled := e.history.sampled ++ [
            { requestId := reqId
              compiled := e.history.compiled reqId
              preceding := e.history.outputTokenIds reqId
              newTokenIds := output.newTokenIds
              maskGrammar := q.grammars reqId
              accepted }] } }

def processAbortsQueue (i : StepInput) : Except PyError (EngineCore G) :=
  if i.aborts = [] then .ok e
  else do
    let scheduler ← e.scheduler.finishRequests i.connectorDelay i.aborts .finishedAborted
    return { e with scheduler }

def processBatch (i : StepInput) (q : QueuedBatch G) : Except PyError (EngineCore G) := do
  let e ← e.processAbortsQueue i
  let (outputs, scheduler) ← e.scheduler.updateFromOutput q.batch.output i.out i.connectorDelay
  let e := { e with
    scheduler
    history := { e.history with processed := e.history.processed ++ [(q, i.out)] } }
  return outputs.foldl (fun e output => e.acceptOutput c q output) e

def step (i : StepInput) : Except PyError (EngineCore G) :=
  if e.scheduler.hasRequests then do
    let (output, scheduler) ← e.scheduler.schedule i.env
    let (q, e) ← maskBatch c { e with scheduler } ⟨output, scheduler.requests⟩
    e.processBatch c i q
  else .ok e

/-- `batch_queue.appendleft(...)` -/
def enqueue (q : QueuedBatch G) : EngineCore G := { e with batchQueue := e.batchQueue ++ [q] }

/-- `batch_queue.pop()` and the processing of the output of the oldest batch. -/
def processOldest (i : StepInput) : Except PyError (EngineCore G) :=
  match e.batchQueue with
  | [] => .error .indexError
  | q :: batchQueue => processBatch c { e with batchQueue } i q

def stepWithBatchQueue (i : StepInput) : Except PyError (EngineCore G) := do
  let batchQueueSize := maxConcurrentBatches c.pipelineParallelSize e.scheduler.config.asyncScheduling
  ensure (e.batchQueue.length < batchQueueSize) (.assertionError "")
  if e.scheduler.hasRequests then
    let (output, scheduler) ← e.scheduler.schedule i.env
    let batch : Batch := ⟨output, scheduler.requests⟩
    let e := { e with scheduler }
    if output.totalNumScheduledTokens > 0 then
      if scheduler.pendingStructuredOutputTokens (fun id => (e.grammars id).isSome) output then
        -- sampling waits for the output of the oldest batch
        let e ← e.processOldest c i
        let (q, e) ← e.maskBatch c batch
        return e.enqueue q
      else
        let (q, e) ← e.maskBatch c batch
        let e := e.enqueue q
        if e.batchQueue.length < batchQueueSize ∧ i.done = false then return e
        else e.processOldest c i
    else
      -- there is nothing to sample
      (e.enqueue ⟨batch, none, e.grammars⟩).processOldest c i
  else if e.batchQueue.isEmpty then return e
  else e.processOldest c i

/-- `add_request` and `grammar_init` -/
def addRequest (request : Request) (grammar : Option G) (connectorDelay : RequestId → Bool) :
    Except PyError (EngineCore G) := do
  let scheduler ← e.scheduler.addRequest connectorDelay request
  if e.scheduler.requests.contains request.requestId then return { e with scheduler }
  else return { e with
    scheduler
    grammars := Function.update e.grammars request.requestId grammar
    history := { e.history with
      compiled := Function.update e.history.compiled request.requestId grammar
      outputTokenIds := Function.update e.history.outputTokenIds request.requestId [] } }

/-- One call of the engine loop; `step_fn` is chosen by the size of the queue. -/
def call : EngineCall G → Except PyError (EngineCore G)
  | .addRequest request grammar connectorDelay => e.addRequest request grammar connectorDelay
  | .abortRequests requestIds connectorDelay => do
    let scheduler ← e.scheduler.finishRequests connectorDelay requestIds .finishedAborted
    return { e with scheduler }
  | .step i =>
    if maxConcurrentBatches c.pipelineParallelSize e.scheduler.config.asyncScheduling ≤ 1 then
      e.step c i
    else e.stepWithBatchQueue c i

end EngineCore

end CustomAi.Vllm
