import CustomAi.Lib.Run
import CustomAi.Vllm.BlockHasher

/-!
# Streaming sessions

The life of one resumable request in `vllm/v1/core/sched/scheduler.py`: it is scheduled, gets
output tokens, may be preempted while output is in flight, stops, and continues with the next
streaming update.
-/

namespace CustomAi.Vllm

/-- `check_stop`: the status with which the request stops, and the stop token if it is one. -/
def checkStop (request : Request) (maxModelLen : ℕ) :
    Except PyError (Option (RequestStatus × Option TokenId)) :=
  if request.numOutputTokens < request.samplingParams.minTokens then .ok none
  else
    match request.outputTokenIds.getLast? with
    | none => .error .indexError
    | some lastTokenId =>
      if request.samplingParams.ignoreEos = false ∧ some lastTokenId = request.eosTokenId then
        .ok (some (.finishedStopped, none))
      else if lastTokenId ∈ request.samplingParams.stopTokenIds then
        .ok (some (.finishedStopped, some lastTokenId))
      else if request.numTokens ≥ maxModelLen ∨ request.numOutputTokens ≥ request.maxTokens then
        .ok (some (.finishedLengthCapped, none))
      else .ok none

namespace Request

/-- `_update_request_with_output`: the tokens after the one that stops the request are dropped. -/
def updateWithOutput (blockHasher : Option BlockHasher) (maxModelLen : ℕ) :
    List TokenId → Request → Except PyError Request
  | [], request => .ok request
  | outputTokenId :: rest, request => do
    let request := request.appendOutputTokenIds blockHasher [outputTokenId]
    match ← checkStop request maxModelLen with
    | some (status, stopReason) =>
      return { request with status, stopReason := stopReason <|> request.stopReason }
    | none => updateWithOutput blockHasher maxModelLen rest request

def shiftFeatures (base : ℕ) (mmFeatures : List MultiModalFeatureSpec) :
    List MultiModalFeatureSpec :=
  mmFeatures.map (fun f =>
    { f with mmPosition := { f.mmPosition with offset := f.mmPosition.offset + base } })

/-- `_update_request_as_session`. Output tokens that were not computed are dropped. -/
def updateAsSession (blockHasher : Option BlockHasher) (session : Request)
    (update : StreamingUpdate) : Except PyError Request := do
  let keptOutputTokens := (pyTake session.allTokenIds session.numComputedTokens).drop session.numPromptTokens
  let kept := pyTake session.allTokenIds session.numComputedTokens
  match session.promptTokenIds with
  | none => .error (.assertionError "")
  | some promptTokenIds =>
    let new := update.promptTokenIds.getD []
    let promptTokenIds := promptTokenIds ++ keptOutputTokens ++ new
    let session := extendBlockHashes blockHasher
      { session with
        outputTokenIds := []
        mmFeatures := session.mmFeatures ++ shiftFeatures kept.length update.mmFeatures
        allTokenIds := kept ++ new
        promptTokenIds := some promptTokenIds }
    return { session with
      numPromptTokens := promptTokenIds.length
      arrivalTime := update.arrivalTime
      samplingParams := update.samplingParams
      status := .waiting }

/-- `_handle_stopped_request` for a request that stopped. -/
def handleStopped (blockHasher : Option BlockHasher) (request : Request) :
    Except PyError Request :=
  if request.resumable = false then .ok request
  else
    match request.streamingQueue with
    | [] => .ok { request with status := .waitingForStreamingReq }
    | none :: rest => .ok { request with streamingQueue := rest }
    | some update :: rest =>
      updateAsSession blockHasher { request with streamingQueue := rest } update

/-- `add_request` for a request id that exists. -/
def addRequest (blockHasher : Option BlockHasher) (existing request : Request) :
    Except PyError Request :=
  let update := StreamingUpdate.fromRequest request
  if existing.status ≠ .waitingForStreamingReq then do
    ensure existing.resumable (.assertionError "duplicate request id")
    return { existing with streamingQueue := existing.streamingQueue ++ [update] }
  else
    match update with
    | some update => updateAsSession blockHasher existing update
    | none => .ok { existing with status := .finishedAborted }

/-- `_preempt_request` -/
def preempt (request : Request) : Except PyError Request := do
  ensure (request.status = .running) (.assertionError "Only running requests can be preempted")
  return { request with
    status := .preempted
    numComputedTokens := 0
    numPreemptions := request.numPreemptions + 1 }

/-- The part of `schedule` that concerns one scheduled request. -/
def schedule (numCachedTokens numScheduledTokens : ℕ) (request : Request) : Request :=
  match request.status with
  | .waiting | .preempted =>
    { request with
      status := .running
      numComputedTokens := (if request.numComputedTokens = 0 then (numCachedTokens : ℤ)
        else request.numComputedTokens) + numScheduledTokens }
  | .running =>
    { request with numComputedTokens := request.numComputedTokens + numScheduledTokens }
  | _ => request

/-- The part of `update_from_output` that appends the generated tokens. -/
def updateFromOutput (blockHasher : Option BlockHasher) (maxModelLen numRejected : ℕ)
    (generatedTokenIds : List TokenId) (request : Request) : Except PyError Request :=
  if request.status.isFinished then .ok request
  else updateWithOutput blockHasher maxModelLen generatedTokenIds
    { request with
      numComputedTokens := if request.numComputedTokens > 0 then
        request.numComputedTokens - numRejected else request.numComputedTokens }

end Request

/-- What can happen to a session. `stopped` is the end of the step in which it stopped. -/
inductive SessionOp
  | schedule (numCachedTokens numScheduledTokens : ℕ)
  | output (numRejected : ℕ) (generatedTokenIds : List TokenId)
  | stopped
  | preempt
  | addRequest (request : Request)

/-- One step of a session, and whether `_update_request_as_session` was called. -/
def sessionStep (blockHasher : Option BlockHasher) (maxModelLen : ℕ) (session : Request) :
    SessionOp → Except PyError (Request × Bool)
  | .schedule numCachedTokens numScheduledTokens =>
    .ok (session.schedule numCachedTokens numScheduledTokens, false)
  | .output numRejected generatedTokenIds => do
    let session ← session.updateFromOutput blockHasher maxModelLen numRejected generatedTokenIds
    return (session, false)
  | .stopped => do
    if session.status.isFinished then
      let session' ← session.handleStopped blockHasher
      return (session', session'.status = .waiting)
    else return (session, false)
  | .preempt => do
    let session ← session.preempt
    return (session, false)
  | .addRequest request => do
    let session' ← session.addRequest blockHasher request
    return (session', session.status = .waitingForStreamingReq ∧ request.resumable)

end CustomAi.Vllm
