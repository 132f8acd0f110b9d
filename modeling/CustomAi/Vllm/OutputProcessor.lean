import CustomAi.Lib.ListDict
import CustomAi.Vllm.DeltaStreaming

/-!
# The output processor

`OutputProcessor` of `vllm/v1/engine/output_processor.py`: the requests it tracks, the parents of
parallel sampling, the index from external to internal request ids, and the calls that change them.
-/

namespace CustomAi.Vllm

variable {L D : Type}

structure OutputProcessor.StreamingUpdate where
  final : Bool := false
  deriving DecidableEq, Repr

/-- `RequestState` with its parent and its streaming session. A pooling request has no
detokenizer. -/
structure TrackedRequest (L D : Type) extends RequestState L D where
  parentReq : Option RequestId := none
  pooling : Bool := false
  streamingInput : Bool := false
  inputChunkQueue : Option (List OutputProcessor.StreamingUpdate) := none

def TrackedRequest.applyStreamingUpdate (self : TrackedRequest L D)
    (update : OutputProcessor.StreamingUpdate) : TrackedRequest L D :=
  { self with streamingInput := !update.final }

/-- `make_request_output` for a pooling output. -/
def TrackedRequest.makePoolingOutput (self : TrackedRequest L D)
    (finishReason : Option FinishReason) : Except PyError (Option (RequestOutput L)) := do
  if finishReason = none ∧ self.outputKind = .finalOnly then return none
  ensure (self.streamInterval ≤ 1) (.assertionError "")
  return some ⟨self.externalReqId, [], finishReason.isSome⟩

structure AddedRequest (L D : Type) where
  state : RequestState L D
  pooling : Bool := false
  resumable : Bool := false

structure SetOrder where
  toList : Finset RequestId → List RequestId
  nodup : ∀ s, (toList s).Nodup
  mem_iff : ∀ s x, x ∈ toList s ↔ x ∈ s

/-- The parent requests are kept by id; `parentRequests` are those the processor knows. -/
structure OutputProcessor (L D : Type) where
  requestStates : Dict RequestId (TrackedRequest L D)
  parents : Dict RequestId (ParentRequest L)
  parentRequests : Finset RequestId
  externalReqIds : Dict RequestId (List RequestId)
  requestsDrained : Bool

namespace OutputProcessor

def new : OutputProcessor L D := ⟨.empty, .empty, ∅, .empty, true⟩

def childRequests (self : OutputProcessor L D) (parentReq : RequestId) : Finset RequestId :=
  ((self.parents.get? parentReq).map (·.childRequests)).getD ∅

def writeParent (parents : Dict RequestId (ParentRequest L)) :
    Option RequestId → Option (ParentRequest L) → Dict RequestId (ParentRequest L)
  | some parentReq, some parent => parents.set parentReq parent
  | _, _ => parents

def setDrained (self : OutputProcessor L D) : OutputProcessor L D :=
  if self.requestStates.keys = [] then { self with requestsDrained := true } else self

/-- `internal_ids.remove(request_id)` with the deletion of an emptied list. -/
def removeInternalId (self : OutputProcessor L D) (externalReqId requestId : RequestId) :
    Except PyError (OutputProcessor L D) := do
  ensure (requestId ∈ self.externalReqIds.listAt externalReqId)
    (.valueError "list.remove(x): x not in list")
  return { self with externalReqIds := self.externalReqIds.removeFrom externalReqId requestId }

def finishRequest (self : OutputProcessor L D) (reqState : TrackedRequest L D) :
    Except PyError (OutputProcessor L D) := do
  ensure (self.requestStates.contains reqState.requestId = true) .keyError
  let self := { self with requestStates := self.requestStates.erase reqState.requestId }
  let self ← self.removeInternalId reqState.externalReqId reqState.requestId
  let self := match reqState.parentReq with
    | some parentReq =>
      if self.childRequests parentReq = ∅ then
        { self with parentRequests := self.parentRequests.erase parentReq }
      else self
    | none => self
  return self.setDrained

def updateStreamingRequestState (self : OutputProcessor L D) (reqState : TrackedRequest L D)
    (request : AddedRequest L D) : Except PyError (OutputProcessor L D) :=
  let put := fun reqState : TrackedRequest L D =>
    { self with requestStates := self.requestStates.set reqState.requestId reqState }
  if ¬request.resumable then
    match reqState.inputChunkQueue with
    | none => self.finishRequest reqState
    | some [] => .ok (put { reqState with streamingInput := false })
    | some (update :: rest) =>
      .ok (put { reqState with inputChunkQueue := some ((update :: rest).dropLast ++ [⟨true⟩]) })
  else
    match reqState.inputChunkQueue with
    | none => .ok (put { reqState.applyStreamingUpdate ⟨false⟩ with inputChunkQueue := some [] })
    | some queue => .ok (put { reqState with inputChunkQueue := some (queue ++ [⟨false⟩]) })

def addRequest (self : OutputProcessor L D) (request : AddedRequest L D)
    (parentReq : Option RequestId) : Except PyError (OutputProcessor L D) :=
  let requestId := request.state.requestId
  match self.requestStates.get? requestId with
  | some reqState => self.updateStreamingRequestState reqState request
  | none =>
    let externalReqId := request.state.externalReqId
    .ok { self with
      requestsDrained := false
      requestStates := self.requestStates.set requestId { request.state with
        parentReq
        pooling := request.pooling
        streamingInput := request.resumable
        inputChunkQueue := if request.resumable then some [] else none }
      parentRequests := parentReq.elim self.parentRequests (insert · self.parentRequests)
      externalReqIds := self.externalReqIds.set externalReqId
        (self.externalReqIds.listAt externalReqId ++ [requestId]) }

/-- `get_child_info` of a parent and `add_request` for that child. -/
def addChild (self : OutputProcessor L D) (parentReq : RequestId) (index : ℕ)
    (request : AddedRequest L D) : Except PyError (OutputProcessor L D) :=
  match self.parents.get? parentReq with
  | none => .ok self
  | some parent =>
    let (requestId, params, parent) := parent.getChildInfo index
    addRequest { self with parents := self.parents.set parentReq parent }
      { request with
        state := { request.state with
          requestId
          externalReqId := parent.externalReqId
          requestIndex := index
          outputKind := params.outputKind } }
      (some parentReq)

/-- A completed request is freed, or a streaming session takes its next input. -/
def freeCompleted (self : OutputProcessor L D) (reqState : TrackedRequest L D)
    (finishReason : Option FinishReason) : Except PyError (OutputProcessor L D) :=
  let put := fun reqState : TrackedRequest L D =>
    { self with requestStates := self.requestStates.set reqState.requestId reqState }
  if finishReason = none then .ok (put reqState)
  else if reqState.streamingInput then
    match reqState.inputChunkQueue with
    | some (update :: rest) =>
      .ok (put ({ reqState with inputChunkQueue := some rest }.applyStreamingUpdate update))
    | _ => .ok (put { reqState with inputChunkQueue := none })
  else (put reqState).finishRequest reqState

/-- One output in `process_outputs`, with the requests the engine has to abort. -/
def processOutput (decodeNext : D → List TokenId → List Char × D) (self : OutputProcessor L D)
    (output : SampledOutput L) :
    Except PyError (List (RequestOutput L) × List RequestId × OutputProcessor L D) := do
  match self.requestStates.get? output.requestId with
  | none => return ([], [], self)
  | some reqState =>
    let (requestOutput, finishReason, state, parents) ←
      if output.hasPoolingOutput then do
        let requestOutput ← reqState.makePoolingOutput output.finishReason
        pure (requestOutput, output.finishReason, reqState.toRequestState, self.parents)
      else do
        ensure (reqState.pooling = false) (.assertionError "")
        let (requestOutput, finishReason, state, parent) ←
          reqState.toRequestState.processOutput decodeNext (reqState.parentReq.bind self.parents.get?) output
        pure (requestOutput, finishReason, state, writeParent self.parents reqState.parentReq parent)
    let reqState := { reqState with toRequestState := state }
    let requestOutputs := if reqState.queue then [] else
      (requestOutput.map fun o => { o with
        finished := if reqState.streamingInput then false else o.finished }).toList
    -- stopped by a stop string, so the engine still runs the request
    let reqsToAbort :=
      if finishReason ≠ none ∧ ¬reqState.streamingInput ∧ output.finishReason = none then
        [output.requestId]
      else []
    let self ← { self with parents }.freeCompleted reqState finishReason
    return (requestOutputs, reqsToAbort, self)

def processOutputs (decodeNext : D → List TokenId → List Char × D) :
    List (SampledOutput L) → OutputProcessor L D →
      Except PyError (List (RequestOutput L) × List RequestId × OutputProcessor L D)
  | [], self => .ok ([], [], self)
  | output :: rest, self => do
    let (requestOutputs, reqsToAbort, self) ← self.processOutput decodeNext output
    let (moreOutputs, moreToAbort, self) ← processOutputs decodeNext rest self
    return (requestOutputs ++ moreOutputs, reqsToAbort ++ moreToAbort, self)

/-- The internal ids that a request id stands for in `abort_requests`, taken out of the index. -/
def resolveOne (internal : Bool) (self : OutputProcessor L D) (requestId : RequestId) :
    Except PyError (List RequestId × OutputProcessor L D) :=
  if internal then
    match self.requestStates.get? requestId with
    | some reqState => do
      let self ← self.removeInternalId reqState.externalReqId requestId
      return ([requestId], self)
    | none => .ok ([requestId], self)
  else
    .ok (self.externalReqIds.listAt requestId, { self with externalReqIds := self.externalReqIds.erase requestId })

def resolveIds (internal : Bool) :
    List RequestId → OutputProcessor L D → Except PyError (List RequestId × OutputProcessor L D)
  | [], self => .ok ([], self)
  | requestId :: rest, self => do
    let (ids, self) ← self.resolveOne internal requestId
    let (more, self) ← resolveIds internal rest self
    return (ids ++ more, self)

def abortOutput (self : OutputProcessor L D) (reqState : TrackedRequest L D) :
    Except PyError (OutputProcessor L D) := do
  if reqState.pooling then
    let _ ← reqState.makePoolingOutput (some .abort)
    return self
  else
    let (_, _, parent) ← reqState.makeRequestOutput (reqState.parentReq.bind self.parents.get?) []
      (some .abort) none
    return { self with parents := writeParent self.parents reqState.parentReq parent }

/-- The loop body of `abort_requests` for one internal id, with the recursive call for the children
of a parent. -/
def abortOne (order : SetOrder)
    (abortChildren : OutputProcessor L D → List RequestId → Except PyError (List RequestId × OutputProcessor L D))
    (self : OutputProcessor L D) (requestId : RequestId) :
    Except PyError (List RequestId × OutputProcessor L D) := do
  match self.requestStates.get? requestId with
  | some reqState =>
    let self := { self with requestStates := self.requestStates.erase requestId }
    let self ← if reqState.queue then self.abortOutput reqState else pure self
    return ([requestId], self)
  | none =>
    if requestId ∈ self.parentRequests then
      let (aborted, self) ←
        if self.childRequests requestId = ∅ then pure ([], self)
        else abortChildren self (order.toList (self.childRequests requestId))
      return (aborted, { self with parentRequests := self.parentRequests.erase requestId })
    else return ([], self)

def abortLoop (order : SetOrder)
    (abortChildren : OutputProcessor L D → List RequestId → Except PyError (List RequestId × OutputProcessor L D)) :
    List RequestId → OutputProcessor L D → Except PyError (List RequestId × OutputProcessor L D)
  | [], self => .ok ([], self)
  | requestId :: rest, self => do
    let (aborted, self) ← abortOne order abortChildren self requestId
    let (more, self) ← abortLoop order abortChildren rest self
    return (aborted ++ more, self)

/-- `abort_requests`, with a bound on the depth of its recursion. -/
def abortRequests (order : SetOrder) :
    ℕ → OutputProcessor L D → List RequestId → Bool → Except PyError (List RequestId × OutputProcessor L D)
  | 0, _, _, _ => .error (.runtimeError "maximum recursion depth exceeded")
  | depth + 1, self, requestIds, internal => do
    let (internalReqIds, self) ← resolveIds internal requestIds self
    let (aborted, self) ← abortLoop order
      (fun self children => abortRequests order depth self children true) internalReqIds self
    return (aborted, self.setDrained)

end OutputProcessor

end CustomAi.Vllm
