import CustomAi.Lib.Slots
import CustomAi.Vllm.BatchUpdate
import CustomAi.Vllm.BlockPool

/-!
# The persistent batch

`InputBatch` of `vllm/v1/worker/gpu_input_batch.py`: the arrays and dictionaries that hold the data
of a request at its index, and the calls that add, remove, move and swap requests. Arrays are
functions of the index. The columns that are always moved together share a record.
-/

namespace CustomAi.Vllm

variable {G F : Type}

structure BatchPoolingParams where
  requiresTokenIds : Bool

/-- `CachedRequestState`. The prompt embeddings are a list of rows. -/
structure CachedRequestState (G F : Type) where
  reqId : RequestId
  promptTokenIds : Option (List TokenId)
  samplingParams : Option (BatchSamplingParams F)
  generator : Option G := none
  blockIds : List (List BlockId)
  numComputedTokens : ℕ
  outputTokenIds : List TokenId
  loraIntId : Option ℕ := none
  promptEmbeds : Option (List Bytes) := none
  poolingParams : Option BatchPoolingParams := none

/-- The per-request arrays that every model keeps. The row of the block table is its used part. -/
structure IndexRow where
  numTokensNoSpec : ℕ
  numPromptTokens : ℕ
  numComputedTokens : ℕ
  blockIds : List (List BlockId)
  loraId : ℕ
  deriving DecidableEq, Repr

structure SamplingRow (F : Type) where
  temperature : F
  topP : F
  topK : ℤ
  frequencyPenalty : F
  presencePenalty : F
  repetitionPenalty : F
  deriving DecidableEq, Repr

/-- What `add_request` stores of sampling parameters. -/
def BatchSamplingParams.row [Zero F] (f32 : Float32 F) (vocabSize : ℤ)
    (params : BatchSamplingParams F) : SamplingRow F where
  temperature := if params.greedy then 0 else f32.round params.temperature
  topP := f32.round params.topP
  topK := if 0 < params.topK ∧ params.topK < vocabSize then params.topK else vocabSize
  frequencyPenalty := f32.round params.frequencyPenalty
  presencePenalty := f32.round params.presencePenalty
  repetitionPenalty := f32.round params.repetitionPenalty

def BatchSamplingParams.tokenMask (params : BatchSamplingParams F) : TokenId → Bool :=
  fun token => if params.allowedTokenIds = [] then false
    else decide (token ∉ params.allowedTokenIds)

structure InputBatch (G F : Type) where
  isPoolingModel : Bool
  maxNumReqs : ℕ
  vocabSize : ℤ
  reqIds : List (Option RequestId)
  reqIdToIndex : Dict RequestId ℕ
  reqOutputTokenIds : List (Option (List TokenId))
  specTokenIds : List (List TokenId)
  tokenIdsCpu : ℕ → ℕ → TokenId
  isTokenIds : ℕ → ℕ → Bool
  reqPromptEmbeds : Dict ℕ (List Bytes)
  rows : ℕ → IndexRow
  samplingRows : ℕ → SamplingRow F
  numAcceptedTokensCpu : ℕ → ℕ
  logitsProcessingNeedsTokenIds : ℕ → Bool
  generators : Dict ℕ G
  badWordsTokenIds : Dict ℕ (List (List TokenId))
  allowedTokenIdsMask : Option (ℕ → TokenId → Bool)
  batchUpdateBuilder : BatchUpdateBuilder F

/-- `a[start : start + len(l)] = l` -/
def writeRow {α : Type} (row : ℕ → α) (start : ℕ) (l : List α) : ℕ → α :=
  fun j => if start ≤ j then (l[j - start]?).getD (row j) else row j

/-- `a[start : stop] = x` -/
def fillRow {α : Type} (row : ℕ → α) (start stop : ℕ) (x : α) : ℕ → α :=
  fun j => if start ≤ j ∧ j < stop then x else row j

/-- `a[:n] = b[:n]` -/
def copyRow {α : Type} (row : ℕ → α) (n : ℕ) (source : ℕ → α) : ℕ → α :=
  fun j => if j < n then source j else row j

def swapDictValues {α : Type} (obj : Dict ℕ α) (key1 key2 : ℕ) : Dict ℕ α :=
  let v1 := obj.get? key1
  let v2 := obj.get? key2
  let obj := v1.elim (obj.erase key2) (obj.set key2)
  v2.elim (obj.erase key1) (obj.set key1)

def moveDictValue {α : Type} (obj : Dict ℕ α) (source target : ℕ) : Dict ℕ α :=
  match obj.get? source with
  | none => obj
  | some value => (obj.erase source).set target value

namespace InputBatch

def new [Zero F] (isPoolingModel : Bool) (maxNumReqs : ℕ) (vocabSize : ℤ) : InputBatch G F where
  isPoolingModel
  maxNumReqs
  vocabSize
  reqIds := []
  reqIdToIndex := .empty
  reqOutputTokenIds := []
  specTokenIds := List.replicate maxNumReqs []
  tokenIdsCpu _ _ := 0
  isTokenIds _ _ := false
  reqPromptEmbeds := .empty
  rows _ := ⟨0, 0, 0, [], 0⟩
  samplingRows _ := ⟨0, 0, 0, 0, 0, 0⟩
  numAcceptedTokensCpu _ := 1
  logitsProcessingNeedsTokenIds _ := false
  generators := .empty
  badWordsTokenIds := .empty
  allowedTokenIdsMask := none
  batchUpdateBuilder := {}

def numReqs (self : InputBatch G F) : ℕ := self.reqIdToIndex.size

def registerAddRequest (self : InputBatch G F) (request : CachedRequestState G F) :
    Except PyError (ℕ × InputBatch G F) := do
  let (removed, builder) := self.batchUpdateBuilder.popRemoved
  let newReqIndex := removed.getD self.numReqs
  ensure (newReqIndex < self.maxNumReqs) (.assertionError "")
  let added := request.samplingParams.elim builder.added fun params =>
    builder.added ++ [⟨newReqIndex, params, request.promptTokenIds, request.outputTokenIds⟩]
  return (newReqIndex, { self with batchUpdateBuilder := { builder with added } })

/-- The columns of the sampling parameters in `add_request`. -/
def addSampling [Zero F] (f32 : Float32 F) (self : InputBatch G F) (reqIndex : ℕ)
    (request : CachedRequestState G F) (params : BatchSamplingParams F) : InputBatch G F :=
  { self with
    samplingRows := Function.update self.samplingRows reqIndex (params.row f32 self.vocabSize)
    generators := request.generator.elim self.generators (self.generators.set reqIndex)
    allowedTokenIdsMask :=
      if params.allowedTokenIds = [] then self.allowedTokenIdsMask
      else
        -- the mask is allocated by the first request that needs it
        some (Function.update (self.allowedTokenIdsMask.getD fun _ _ => false) reqIndex
          params.tokenMask)
    badWordsTokenIds :=
      if params.badWordsTokenIds = [] then self.badWordsTokenIds
      else self.badWordsTokenIds.set reqIndex params.badWordsTokenIds }

/-- The columns in `add_request`. -/
def addColumns [Zero F] (f32 : Float32 F) (self : InputBatch G F) (reqIndex : ℕ)
    (request : CachedRequestState G F) : Except PyError (InputBatch G F) := do
  let numPromptTokens ← lengthFromPromptTokenIdsOrEmbeds request.promptTokenIds
    request.promptEmbeds
  let endIdx := numPromptTokens + request.outputTokenIds.length
  let self := { self with
    reqOutputTokenIds :=
      if reqIndex = self.reqIds.length then
        self.reqOutputTokenIds ++ [some request.outputTokenIds]
      else self.reqOutputTokenIds.set reqIndex (some request.outputTokenIds)
    specTokenIds :=
      if reqIndex = self.reqIds.length then self.specTokenIds ++ [[]]
      else self.specTokenIds.set reqIndex []
    tokenIdsCpu := Function.update self.tokenIdsCpu reqIndex
      (writeRow (writeRow (self.tokenIdsCpu reqIndex) 0 (request.promptTokenIds.getD []))
        numPromptTokens request.outputTokenIds)
    isTokenIds := Function.update self.isTokenIds reqIndex
      (fillRow (fillRow (self.isTokenIds reqIndex) 0 numPromptTokens request.promptTokenIds.isSome)
        numPromptTokens endIdx true)
    reqPromptEmbeds := request.promptEmbeds.elim self.reqPromptEmbeds (self.reqPromptEmbeds.set reqIndex)
    rows := Function.update self.rows reqIndex {
      numTokensNoSpec := endIdx
      numPromptTokens
      numComputedTokens := request.numComputedTokens
      blockIds := request.blockIds
      loraId := request.loraIntId.getD 0 }
    numAcceptedTokensCpu := Function.update self.numAcceptedTokensCpu reqIndex 1 }
  match request.samplingParams, request.poolingParams with
  | some params, _ => return self.addSampling f32 reqIndex request params
  | none, some params => return { self with
      logitsProcessingNeedsTokenIds :=
        Function.update self.logitsProcessingNeedsTokenIds reqIndex params.requiresTokenIds }
  | none, none => throw (.notImplementedError "Unrecognized request type")

def addRequest [Zero F] (f32 : Float32 F) (self : InputBatch G F)
    (request : CachedRequestState G F) : Except PyError (ℕ × InputBatch G F) := do
  let (reqIndex, self) ← self.registerAddRequest request
  let reqIds :=
    if reqIndex = self.reqIds.length then self.reqIds ++ [some request.reqId]
    else self.reqIds.set reqIndex (some request.reqId)
  let self ← self.addColumns f32 reqIndex request
  return (reqIndex, { self with
    reqIds
    reqIdToIndex := self.reqIdToIndex.set request.reqId reqIndex })

/-- The columns in `remove_request`. -/
def clearColumns (self : InputBatch G F) (reqIndex : ℕ) : InputBatch G F :=
  let self := { self with
    reqOutputTokenIds := self.reqOutputTokenIds.set reqIndex none
    specTokenIds := self.specTokenIds.set reqIndex []
    rows := Function.update self.rows reqIndex { self.rows reqIndex with loraId := 0 } }
  if self.isPoolingModel then self
  else { self with
    generators := self.generators.erase reqIndex
    allowedTokenIdsMask := self.allowedTokenIdsMask.map fun mask =>
      Function.update mask reqIndex fun _ => false
    badWordsTokenIds := self.badWordsTokenIds.erase reqIndex }

def removeRequest (self : InputBatch G F) (reqId : RequestId) :
    Except PyError (Option ℕ × InputBatch G F) :=
  match self.reqIdToIndex.get? reqId with
  | none => .ok (none, self)
  | some reqIndex => do
    let batchUpdateBuilder ← self.batchUpdateBuilder.removedAppend reqIndex
    return (some reqIndex, { self.clearColumns reqIndex with
      reqIdToIndex := self.reqIdToIndex.erase reqId
      batchUpdateBuilder
      reqIds := self.reqIds.set reqIndex none })

/-- The columns in `swap_states`. The rows of the mask are views. -/
def swapColumns (self : InputBatch G F) (i1 i2 : ℕ) : InputBatch G F :=
  let self := { self with
    reqOutputTokenIds := (self.reqOutputTokenIds.set i1
      (self.reqOutputTokenIds.getD i2 none)).set i2 (self.reqOutputTokenIds.getD i1 none)
    specTokenIds := (self.specTokenIds.set i1 (self.specTokenIds.getD i2 [])).set i2
      (self.specTokenIds.getD i1 [])
    tokenIdsCpu := Slots.swap i1 i2 self.tokenIdsCpu
    isTokenIds := Slots.swap i1 i2 self.isTokenIds
    reqPromptEmbeds := swapDictValues self.reqPromptEmbeds i1 i2
    rows := Slots.swap i1 i2 self.rows }
  if self.isPoolingModel then self
  else { self with
    samplingRows := Slots.swap i1 i2 self.samplingRows
    numAcceptedTokensCpu := Slots.swap i1 i2 self.numAcceptedTokensCpu
    generators := swapDictValues self.generators i1 i2
    badWordsTokenIds := swapDictValues self.badWordsTokenIds i1 i2
    allowedTokenIdsMask := self.allowedTokenIdsMask.map fun mask =>
      let mask := Function.update mask i1 (mask i2)
      Function.update mask i2 (mask i1) }

def swapStates (self : InputBatch G F) (i1 i2 : ℕ) : Except PyError (InputBatch G F) :=
  match self.reqIds[i1]?, self.reqIds[i2]? with
  | some (some oldIdI1), some (some oldIdI2) =>
    match self.reqIdToIndex.get? oldIdI1, self.reqIdToIndex.get? oldIdI2 with
    | some index1, some index2 =>
      .ok { self.swapColumns i1 i2 with
        reqIds := (self.reqIds.set i1 (some oldIdI2)).set i2 (some oldIdI1)
        reqIdToIndex := (self.reqIdToIndex.set oldIdI1 index2).set oldIdI2 index1
        batchUpdateBuilder :=
          if self.isPoolingModel then self.batchUpdateBuilder
          else { self.batchUpdateBuilder with
            moved := self.batchUpdateBuilder.moved ++ [⟨i1, i2, .swap⟩] } }
    | _, _ => .error .keyError
  | some _, some _ => .error (.assertionError "")
  | _, _ => .error .indexError

/-- The loop that looks for the largest non-empty index. Index 0 is not empty when it is reached. -/
def skipRemoved (removed : List ℕ) : ℕ → ℕ
  | 0 => 0
  | lastReqIndex + 1 =>
    if lastReqIndex + 1 ∈ removed then skipRemoved removed lastReqIndex else lastReqIndex + 1

/-- The columns in a move of `condense`. -/
def moveColumns (self : InputBatch G F) (lastReqIndex emptyIndex : ℕ) : InputBatch G F :=
  let numTokens := (self.rows lastReqIndex).numTokensNoSpec + (self.specTokenIds.getD lastReqIndex []).length
  let self := { self with
    reqOutputTokenIds := (self.reqOutputTokenIds.set emptyIndex
      (self.reqOutputTokenIds.getD lastReqIndex none)).set lastReqIndex none
    specTokenIds := (self.specTokenIds.set emptyIndex
      (self.specTokenIds.getD lastReqIndex [])).set lastReqIndex []
    tokenIdsCpu := Function.update self.tokenIdsCpu emptyIndex
      (copyRow (self.tokenIdsCpu emptyIndex) numTokens (self.tokenIdsCpu lastReqIndex))
    isTokenIds := Function.update self.isTokenIds emptyIndex
      (copyRow (self.isTokenIds emptyIndex) numTokens (self.isTokenIds lastReqIndex))
    reqPromptEmbeds := moveDictValue self.reqPromptEmbeds lastReqIndex emptyIndex
    rows := Function.update self.rows emptyIndex (self.rows lastReqIndex) }
  if self.isPoolingModel then self
  else { self with
    samplingRows := Function.update self.samplingRows emptyIndex (self.samplingRows lastReqIndex)
    numAcceptedTokensCpu := Function.update self.numAcceptedTokensCpu emptyIndex
      (self.numAcceptedTokensCpu lastReqIndex)
    generators := moveDictValue self.generators lastReqIndex emptyIndex
    allowedTokenIdsMask := self.allowedTokenIdsMask.map fun mask =>
      Function.update mask emptyIndex (mask lastReqIndex)
    badWordsTokenIds := moveDictValue self.badWordsTokenIds lastReqIndex emptyIndex }

/-- The move of one request in `condense`. -/
def moveDown (self : InputBatch G F) (lastReqIndex emptyIndex : ℕ) :
    Except PyError (InputBatch G F) :=
  match self.reqIds[lastReqIndex]? with
  | some (some reqId) =>
    let builder := self.batchUpdateBuilder.popRemoved.2
    .ok { self.moveColumns lastReqIndex emptyIndex with
      reqIds := (self.reqIds.set emptyIndex (some reqId)).set lastReqIndex none
      reqIdToIndex := self.reqIdToIndex.set reqId emptyIndex
      batchUpdateBuilder :=
        if self.isPoolingModel then builder
        else { builder with
          moved := builder.moved ++ [⟨lastReqIndex, emptyIndex, .unidirectional⟩] } }
  | some none => .error (.assertionError "")
  | none => .error .indexError

/-- The loop of `condense`. Every round but the last takes an index from `removed`. -/
def condenseLoop : ℕ → ℕ → InputBatch G F → Except PyError (InputBatch G F)
  | 0, _, self => .ok self
  | rounds + 1, lastReqIndex, self =>
    match self.batchUpdateBuilder.peekRemoved.1 with
    | none => .ok self
    | some emptyIndex =>
      let lastReqIndex := skipRemoved self.batchUpdateBuilder.removed lastReqIndex
      if lastReqIndex ≤ emptyIndex then .ok self
      else do
        let self ← self.moveDown lastReqIndex emptyIndex
        condenseLoop rounds (lastReqIndex - 1) self

def condense (self : InputBatch G F) : Except PyError (InputBatch G F) :=
  let numReqs := self.numReqs
  let self := { self with batchUpdateBuilder := self.batchUpdateBuilder.ensureRemovedSorted }
  let numEmpty := self.batchUpdateBuilder.removed.length
  if numEmpty = 0 then .ok self
  else if numReqs = 0 then
    .ok { self with reqIds := [], reqOutputTokenIds := [], specTokenIds := [] }
  else do
    let self ← condenseLoop numEmpty (numReqs + numEmpty - 1) self
    return { self with
      reqIds := self.reqIds.take numReqs
      reqOutputTokenIds := self.reqOutputTokenIds.take numReqs
      specTokenIds := self.specTokenIds.take numReqs }

/-- `refresh_metadata`: the update for the logits processors, which a pooling model has none of. -/
def refreshMetadata (self : InputBatch G F) : Option (BatchUpdate F) × InputBatch G F :=
  if self.isPoolingModel then (none, { self with batchUpdateBuilder := {} })
  else
    let (batchUpdate, batchUpdateBuilder) := self.batchUpdateBuilder.getAndReset self.numReqs
    (batchUpdate, { self with batchUpdateBuilder })

end InputBatch

end CustomAi.Vllm
