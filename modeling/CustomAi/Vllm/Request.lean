import CustomAi.Lib.Except
import CustomAi.Lib.PyList

/-!
# Requests

`vllm/v1/request.py` and the multimodal and LoRA records it refers to. Only the fields read or
written by the modelled functions are kept.
-/

namespace CustomAi.Vllm

abbrev RequestId := String

abbrev TokenId := ℤ

abbrev Bytes := List UInt8

abbrev BlockHash := Bytes

/-- `isEmbed` tells which of the placeholder tokens have an embedding. -/
structure PlaceholderRange where
  offset : ℕ
  length : ℕ
  isEmbed : Option (List Bool) := none
  deriving DecidableEq, Repr

namespace PlaceholderRange

def stop (r : PlaceholderRange) : ℕ := r.offset + r.length

lemma stop_eq (r : PlaceholderRange) : r.stop = r.offset + r.length := rfl

/-- `embeds_cumsum[i]` -/
def embedsCumsum (mask : List Bool) (i : ℤ) : Except PyError ℤ :=
  match pyIndex mask i with
  | none => .error .indexError
  | some n => .ok ((mask.take (n + 1)).count true)

def getNumEmbeds (r : PlaceholderRange) : Except PyError ℕ :=
  match r.isEmbed with
  | none => .ok r.length
  | some mask => if mask = [] then .error .indexError else .ok (mask.count true)

def getEmbedsIndicesInRange (r : PlaceholderRange) (startIdx endIdx : ℤ) : Except PyError (ℤ × ℤ) :=
  match r.isEmbed with
  | none => .ok (startIdx, endIdx)
  | some mask => do
    let embedsStartIdx ← (if startIdx > 0 then embedsCumsum mask (startIdx - 1) else pure 0)
    let embedsEndIdx ← embedsCumsum mask (endIdx - 1)
    return (embedsStartIdx, embedsEndIdx)

end PlaceholderRange

structure MultiModalFeatureSpec where
  identifier : String
  mmPosition : PlaceholderRange
  deriving DecidableEq, Repr

structure LoRARequest where
  loraName : String
  loraIntId : ℕ
  deriving DecidableEq, Repr

structure SamplingParams where
  maxTokens : ℕ
  minTokens : ℕ := 0
  ignoreEos : Bool := false
  stopTokenIds : List TokenId := []
  deriving DecidableEq, Repr

inductive RequestStatus
  | waiting
  | waitingForFsm
  | waitingForRemoteKvs
  | waitingForStreamingReq
  | running
  | preempted
  | finishedStopped
  | finishedLengthCapped
  | finishedAborted
  | finishedIgnored
  | finishedError
  deriving DecidableEq, Repr

/-- `status > RequestStatus.PREEMPTED` -/
def RequestStatus.isFinished : RequestStatus → Bool
  | .finishedStopped | .finishedLengthCapped | .finishedAborted | .finishedIgnored
  | .finishedError => true
  | _ => false

def RequestStatus.name : RequestStatus → String
  | .waiting => "WAITING"
  | .waitingForFsm => "WAITING_FOR_FSM"
  | .waitingForRemoteKvs => "WAITING_FOR_REMOTE_KVS"
  | .waitingForStreamingReq => "WAITING_FOR_STREAMING_REQ"
  | .running => "RUNNING"
  | .preempted => "PREEMPTED"
  | .finishedStopped => "FINISHED_STOPPED"
  | .finishedLengthCapped => "FINISHED_LENGTH_CAPPED"
  | .finishedAborted => "FINISHED_ABORTED"
  | .finishedIgnored => "FINISHED_IGNORED"
  | .finishedError => "FINISHED_ERROR"

structure StreamingUpdate where
  mmFeatures : List MultiModalFeatureSpec
  promptTokenIds : Option (List TokenId)
  maxTokens : ℕ
  arrivalTime : ℚ := 0
  samplingParams : SamplingParams
  deriving DecidableEq, Repr

/-- `promptEmbeds` holds raw bytes; `streamingQueue` exists if the request is resumable, and `none`
in it ends the session. -/
structure Request where
  requestId : RequestId
  promptTokenIds : Option (List TokenId)
  promptEmbeds : Option (List Bytes) := none
  numPromptTokens : ℕ
  allTokenIds : List TokenId
  outputTokenIds : List TokenId := []
  samplingParams : SamplingParams
  maxTokens : ℕ
  eosTokenId : Option TokenId := none
  mmFeatures : List MultiModalFeatureSpec := []
  loraRequest : Option LoRARequest := none
  cacheSalt : Option String := none
  blockHashes : List BlockHash := []
  numComputedTokens : ℤ := 0
  skipReadingPrefixCache : Bool := false
  status : RequestStatus := .waiting
  numPreemptions : ℕ := 0
  resumable : Bool := false
  streamingQueue : List (Option StreamingUpdate) := []
  priority : ℤ := 0
  arrivalTime : ℚ := 0
  poolingParams : Bool := false
  stopReason : Option TokenId := none
  numOutputPlaceholders : ℤ := 0
  discardLatestAsyncTokens : Bool := false
  specTokenIds : List TokenId := []
  numCachedTokens : ℤ := -1
  isPrefillChunk : Bool := false
  numExternalComputedTokens : ℤ := 0
  deriving DecidableEq, Repr

/-- `request_block_hasher`: the hashes of the full blocks that have none yet. -/
abbrev BlockHasher := Request → List BlockHash

def lengthFromPromptTokenIdsOrEmbeds (promptTokenIds : Option (List TokenId))
    (promptEmbeds : Option (List Bytes)) : Except PyError ℕ :=
  match promptTokenIds, promptEmbeds with
  | none, none =>
    .error (.valueError "Neither prompt_token_ids nor prompt_embeds were defined.")
  | none, some embeds => .ok embeds.length
  | some ids, none => .ok ids.length
  | some ids, some embeds =>
    if embeds.length ≠ ids.length then
      .error (.valueError (s!"Prompt token ids and prompt embeds had different lengths" ++
        s!" prompt_token_ids={ids.length} prompt_embeds={embeds.length}"))
    else .ok ids.length

namespace Request

/-- `Request.__init__` -/
def new (requestId : RequestId) (promptTokenIds : Option (List TokenId))
    (samplingParams : SamplingParams) (eosTokenId : Option TokenId)
    (promptEmbeds : Option (List Bytes)) (mmFeatures : List MultiModalFeatureSpec)
    (loraRequest : Option LoRARequest) (cacheSalt : Option String)
    (blockHasher : Option BlockHasher) (resumable skipReadingPrefixCache : Bool) :
    Except PyError Request := do
  let numPromptTokens ← lengthFromPromptTokenIdsOrEmbeds promptTokenIds promptEmbeds
  let request : Request :=
    { requestId, promptTokenIds, promptEmbeds, numPromptTokens, samplingParams
      maxTokens := samplingParams.maxTokens
      allTokenIds := promptTokenIds.getD (List.replicate numPromptTokens 0)
      eosTokenId, mmFeatures, loraRequest, cacheSalt, resumable, skipReadingPrefixCache }
  return { request with blockHashes := blockHasher.elim [] (fun hasher => hasher request) }

def numTokens (r : Request) : ℕ := r.allTokenIds.length

def numOutputTokens (r : Request) : ℕ := r.outputTokenIds.length

/-- `self.block_hashes.extend(self.get_hash_new_full_blocks())` -/
def extendBlockHashes (blockHasher : Option BlockHasher) (r : Request) : Request :=
  { r with blockHashes := r.blockHashes ++ blockHasher.elim [] (fun hasher => hasher r) }

def appendOutputTokenIds (blockHasher : Option BlockHasher) (r : Request)
    (tokenIds : List TokenId) : Request :=
  extendBlockHashes blockHasher
    { r with
      outputTokenIds := r.outputTokenIds ++ tokenIds
      allTokenIds := r.allTokenIds ++ tokenIds }

end Request

def StreamingUpdate.fromRequest (request : Request) : Option StreamingUpdate :=
  if request.resumable then
    some { mmFeatures := request.mmFeatures
           promptTokenIds := request.promptTokenIds
           maxTokens := request.maxTokens
           arrivalTime := request.arrivalTime
           samplingParams := request.samplingParams }
  else none

end CustomAi.Vllm
