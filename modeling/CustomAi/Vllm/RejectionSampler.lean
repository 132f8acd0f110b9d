import CustomAi.Lib.NumpyArray
import CustomAi.Vllm.Sampler

/-!
# The rejection sampler

`RejectionSampler` of `vllm/v1/sample/rejection_sampler.py` on batches whose requests all have
temperature 0, and the plain sampling steps of the same requests.
-/

namespace CustomAi.Vllm

open List

def PLACEHOLDER_TOKEN_ID : ℤ := -1

def MAX_SPEC_LEN : ℕ := 128

structure SpecDecodeMetadata (V : ℕ) where
  draftTokenIds : List (Fin V)
  numDraftTokens : List ℕ
  cuNumDraftTokens : List ℤ
  targetLogitsIndices : List ℤ
  bonusLogitsIndices : List ℤ

variable {V : ℕ}

/-- `max_spec_len`, set from a non-empty `num_draft_tokens`. -/
def SpecDecodeMetadata.maxSpecLen (metadata : SpecDecodeMetadata V) : ℕ :=
  metadata.numDraftTokens.foldr max 0

/-- `l[indices]` -/
def gather {α : Type} (l : List α) (indices : List ℤ) : Except PyError (List α) :=
  indices.mapM (pyGet l)

/-- `torch.repeat_interleave`: a single repeat count is used for all elements. -/
def repeatInterleave {α : Type} (l : List α) (repeats : List ℕ) : Except PyError (List α) :=
  match repeats with
  | [n] => .ok (l.flatMap (replicate n))
  | _ =>
    if repeats.length = l.length then
      .ok (zipWith (fun x n => replicate n x) l repeats).flatten
    else .error (.runtimeError "repeats must have the same size as input along dim")

def getCumsumAndArange (numTokens : List ℤ) : List ℤ × List ℤ :=
  let cuNumTokens := npCumsum numTokens
  let cumsumsOffsets := npRepeat (zipWith (· - ·) cuNumTokens numTokens) numTokens
  (cuNumTokens, zipWith (· - ·) (npArange numTokens.sum) cumsumsOffsets)

/-- `_calc_spec_decode_metadata`, on the token ids at the positions whose logits are computed. -/
def calcSpecDecodeMetadata (numDraftTokens : List ℕ) (inputIds : List (Fin V)) :
    Except PyError (SpecDecodeMetadata V) := do
  let numDrafts : List ℤ := numDraftTokens.map Nat.cast
  let numSampledTokens := numDrafts.map (· + 1)
  let cuNumSampledTokens := (getCumsumAndArange numSampledTokens).1
  let bonusLogitsIndices := cuNumSampledTokens.map (· - 1)
  let (cuNumDraftTokens, arange) := getCumsumAndArange numDrafts
  let targetLogitsIndices := zipWith (· + ·)
    (npRepeat (zipWith (· - ·) cuNumSampledTokens numSampledTokens) numDrafts) arange
  let draftTokenIds ← gather inputIds (targetLogitsIndices.map (· + 1))
  return { draftTokenIds, numDraftTokens, cuNumDraftTokens, targetLogitsIndices, bonusLogitsIndices }

namespace RejectionSampler

def combineOutputsWithSpecTokens (outputTokenIds : List (List (Fin V)))
    (specTokenIds : Option (List (List (Fin V)))) : List (List (Fin V)) :=
  match specTokenIds with
  | none => outputTokenIds
  | some specTokenIds =>
    (outputTokenIds.zip specTokenIds).foldl (fun result x =>
      if x.2.length = 0 then result
      else (x.2.take (x.2.length - 1)).foldl (fun result token =>
        result ++ [(result.getLast?.getD []) ++ [token]]) (result ++ [x.1])) []

/-- The loop of `apply_bad_words_with_drafts`, from request `i` on. -/
def badWordsLoop (badWordsTokenIds : Dict ℤ (List (BadWord V)))
    (pastTokensIds : List (List (Fin V))) :
    ℤ → ℤ → ℕ → List ℕ → List (LogitsRow V) → Except PyError (List (LogitsRow V))
  | _, _, _, [], logits => .ok logits
  | i, startIdx, remaining, n :: numDraftTokens, logits =>
    match badWordsTokenIds.get? i with
    | none => badWordsLoop badWordsTokenIds pastTokensIds (i + 1) (startIdx + n) remaining
        numDraftTokens logits
    | some badWordsIds => do
      let logits ← (npArange n).foldlM (fun logits k => do
        let row ← pyGet logits (startIdx + k)
        let past ← pyGet pastTokensIds (startIdx + k)
        return pySet logits (startIdx + k) (applyBadWordsSingleBatch badWordsIds past row)) logits
      if remaining - 1 = 0 then
        return logits
      else
        badWordsLoop badWordsTokenIds pastTokensIds (i + 1) (startIdx + n) (remaining - 1) numDraftTokens logits

def applyBadWordsWithDrafts (logits : List (LogitsRow V))
    (badWordsTokenIds : Dict ℤ (List (BadWord V))) (pastTokensIds : List (List (Fin V)))
    (numDraftTokens : List ℕ) : Except PyError (List (LogitsRow V)) :=
  badWordsLoop badWordsTokenIds pastTokensIds 0 0 badWordsTokenIds.size numDraftTokens logits

def applyPenalties (logits : List (LogitsRow V)) (samplingMetadata : SamplingMetadata V)
    (repeatIndices : List ℤ) (outputTokenIds : List (List (Fin V))) :
    Except PyError (List (LogitsRow V)) :=
  if samplingMetadata.noPenalties then .ok logits
  else
    match samplingMetadata.promptTokenIds with
    | none => .error (.assertionError "")
    | some prompts => do
      let promptTokenIds ← gather prompts repeatIndices
      let presencePenalties ← gather samplingMetadata.presencePenalties repeatIndices
      let frequencyPenalties ← gather samplingMetadata.frequencyPenalties repeatIndices
      let repetitionPenalties ← gather samplingMetadata.repetitionPenalties repeatIndices
      applyAllPenalties logits promptTokenIds presencePenalties frequencyPenalties
        repetitionPenalties outputTokenIds

def applyLogitsProcessors (logits : List (LogitsRow V)) (samplingMetadata : SamplingMetadata V)
    (metadata : SpecDecodeMetadata V) : Except PyError (List (LogitsRow V)) := do
  let badWordsTokenIds := samplingMetadata.badWordsTokenIds
  let hasPenalties := !samplingMetadata.noPenalties
  let outputTokenIds :=
    if !badWordsTokenIds.entries.isEmpty || hasPenalties then
      combineOutputsWithSpecTokens samplingMetadata.outputTokenIds samplingMetadata.specTokenIds
    else samplingMetadata.outputTokenIds
  let logits ← (if samplingMetadata.allowedTokenIdsMask.isSome || hasPenalties then do
      let numRequests := samplingMetadata.outputTokenIds.length
      let repeatIndices ← repeatInterleave (npArange numRequests) metadata.numDraftTokens
      let logits ← applyPenalties logits samplingMetadata repeatIndices outputTokenIds
      let tokenMask ← samplingMetadata.allowedTokenIdsMask.mapM fun mask =>
        gather mask repeatIndices
      fillDisallowed logits tokenMask
    else .ok logits)
  if badWordsTokenIds.entries.isEmpty then .ok logits
  else applyBadWordsWithDrafts logits badWordsTokenIds outputTokenIds metadata.numDraftTokens

/-- One position of the loop of `rejection_greedy_sample_kernel`. -/
def greedySampleStep (draftTokenIds targetArgmax : List (Fin V)) (startIdx : ℤ)
    (state : Bool × List ℤ) (pos : ℤ) : Except PyError (Bool × List ℤ) :=
  if state.1 then .ok state
  else do
    let draftTokenId ← pyGet draftTokenIds (startIdx + pos)
    let targetArgmaxId ← pyGet targetArgmax (startIdx + pos)
    return (decide (draftTokenId ≠ targetArgmaxId), pySet state.2 pos (targetArgmaxId : ℕ))

/-- `rejection_greedy_sample_kernel`: the program `req_idx`, on its row of the output. -/
def rejectionGreedySampleKernel (cuNumDraftTokens : List ℤ)
    (draftTokenIds targetArgmax bonusTokenIds : List (Fin V)) (reqIdx : ℕ) (row : List ℤ) :
    Except PyError (List ℤ) := do
  let startIdx ← (if reqIdx = 0 then .ok 0 else pyGet cuNumDraftTokens (reqIdx - 1 : ℕ))
  let endIdx ← pyGet cuNumDraftTokens reqIdx
  let numDraftTokens := endIdx - startIdx
  let state ← (npArange numDraftTokens).foldlM
    (greedySampleStep draftTokenIds targetArgmax startIdx) (false, row)
  if state.1 then return state.2
  else do
    let bonusTokenId ← pyGet bonusTokenIds reqIdx
    return pySet state.2 numDraftTokens (bonusTokenId : ℕ)

/-- `rejection_sample` with `all_greedy`. -/
def rejectionSample (metadata : SpecDecodeMetadata V) (targetArgmax bonusTokenIds : List (Fin V)) :
    Except PyError (List (List ℤ)) :=
  let batchSize := metadata.numDraftTokens.length
  (List.range batchSize).mapM fun reqIdx =>
    rejectionGreedySampleKernel metadata.cuNumDraftTokens metadata.draftTokenIds targetArgmax
      bonusTokenIds reqIdx (replicate (metadata.maxSpecLen + 1) PLACEHOLDER_TOKEN_ID)

def forward [NeZero V] (metadata : SpecDecodeMetadata V) (logits : List (LogitsRow V))
    (samplingMetadata : SamplingMetadata V) : Except PyError (List (List ℤ)) := do
  ensure (metadata.maxSpecLen ≤ MAX_SPEC_LEN) (.assertionError "")
  let bonusLogits ← gather logits metadata.bonusLogitsIndices
  let bonusTokenIds ← Sampler.forward bonusLogits samplingMetadata true
  let targetLogits ← gather logits metadata.targetLogitsIndices
  let targetLogits ← applyLogitsProcessors targetLogits samplingMetadata metadata
  rejectionSample metadata (targetLogits.map argmax) bonusTokenIds

def parseOutput (outputTokenIds : List (List ℤ)) (vocabSize : ℕ) (discardReqIndices : List ℕ) :
    List (List ℤ) :=
  outputTokenIds.zipIdx.map fun x =>
    if x.2 ∈ discardReqIndices then []
    else x.1.filter fun token => token ≠ PLACEHOLDER_TOKEN_ID ∧ token < vocabSize

end RejectionSampler

def modelRow (model : List (Fin V) → Fin V → ℚ) (tokens : List (Fin V)) : LogitsRow V := fun v =>
  model tokens v

def GreedyRequest.tokens (r : GreedyRequest V) : List (Fin V) :=
  r.promptTokenIds ++ r.outputTokenIds

/-- One step with draft tokens: the model runs on the last token and the drafts of each request. -/
def speculativeStep [NeZero V] (model : List (Fin V) → Fin V → ℚ) (batch : List (GreedyRequest V)) :
    Except PyError (List (List ℤ)) := do
  let inputIds := batch.flatMap fun r => r.tokens.getLast?.getD 0 :: r.specTokenIds
  let logits := batch.flatMap fun r => (List.range (r.specTokenIds.length + 1)).map fun j =>
    modelRow model (r.tokens ++ r.specTokenIds.take j)
  let metadata ← calcSpecDecodeMetadata (batch.map (·.specTokenIds.length)) inputIds
  let output ← RejectionSampler.forward metadata logits (makeSamplingMetadata batch)
  return RejectionSampler.parseOutput output V []

def plainStep [NeZero V] (model : List (Fin V) → Fin V → ℚ) (batch : List (GreedyRequest V)) :
    Except PyError (List (GreedyRequest V)) := do
  let sampled ← Sampler.forward (batch.map fun r => modelRow model r.tokens)
    (makeSamplingMetadata batch) false
  return zipWith (fun r token => { r with outputTokenIds := r.outputTokenIds ++ [token] })
    batch sampled

/-- `n` steps without draft tokens. -/
def plainSteps [NeZero V] (model : List (Fin V) → Fin V → ℚ) :
    ℕ → List (GreedyRequest V) → Except PyError (List (GreedyRequest V))
  | 0, batch => .ok batch
  | n + 1, batch => do
    let batch ← plainStep model batch
    plainSteps model n batch

def GreedyRequest.withoutDrafts (r : GreedyRequest V) : GreedyRequest V :=
  { r with specTokenIds := [] }

end CustomAi.Vllm
