import Mathlib.Algebra.Order.Field.Basic
import CustomAi.Lib.Except
import CustomAi.Lib.PyList
import CustomAi.Lib.SortedGroups

/-!
# The sampler

`Sampler` of `vllm/v1/sample/sampler.py` on batches whose requests all have temperature 0, with
`ops/bad_words.py` and `ops/penalties.py`. A logit is a rational number or `-inf`; token ids are
below the vocabulary size, and tensors of token ids are lists without their padding.
-/

namespace CustomAi.Vllm

abbrev LogitsRow (V : ℕ) := Fin V → WithBot ℚ

abbrev BadWord (V : ℕ) := {word : List (Fin V) // word ≠ []}

/-- A request of the input batch, with its sampling parameters and its scheduled draft tokens. -/
structure GreedyRequest (V : ℕ) where
  promptTokenIds : List (Fin V)
  outputTokenIds : List (Fin V)
  allowedTokenIds : List (Fin V)
  badWordsTokenIds : List (BadWord V)
  presencePenalty : ℚ
  frequencyPenalty : ℚ
  repetitionPenalty : ℚ
  repetition_pos : 0 < repetitionPenalty
  specTokenIds : List (Fin V)

/-- `SamplingMetadata` of a batch with `all_greedy`. -/
structure SamplingMetadata (V : ℕ) where
  noPenalties : Bool
  promptTokenIds : Option (List (List (Fin V)))
  frequencyPenalties : List ℚ
  presencePenalties : List ℚ
  repetitionPenalties : List ℚ
  outputTokenIds : List (List (Fin V))
  allowedTokenIdsMask : Option (List (Fin V → Bool))
  badWordsTokenIds : Dict ℤ (List (BadWord V))
  specTokenIds : Option (List (List (Fin V)))

section

variable {V : ℕ}

def GreedyRequest.hasPenalties (r : GreedyRequest V) : Bool :=
  r.presencePenalty != 0 || r.frequencyPenalty != 0 || r.repetitionPenalty != 1

/-- `True` where a logit is to be filled with `-inf`. -/
def GreedyRequest.allowedMask (r : GreedyRequest V) (v : Fin V) : Bool :=
  !r.allowedTokenIds.isEmpty && decide (v ∉ r.allowedTokenIds)

/-- `InputBatch._make_sampling_metadata`; no logits processor needs the output tokens. -/
def makeSamplingMetadata (batch : List (GreedyRequest V)) : SamplingMetadata V :=
  let noPenalties := !batch.any GreedyRequest.hasPenalties
  let badWordsTokenIds := dictOf ((batch.zipIdx.filter fun x =>
    !x.1.badWordsTokenIds.isEmpty).map fun x => ((x.2 : ℤ), x.1.badWordsTokenIds))
  let needsOutputTokenIds := !noPenalties || !badWordsTokenIds.entries.isEmpty
  { noPenalties := noPenalties
    promptTokenIds := if noPenalties then none else some (batch.map (·.promptTokenIds))
    frequencyPenalties := batch.map (·.frequencyPenalty)
    presencePenalties := batch.map (·.presencePenalty)
    repetitionPenalties := batch.map (·.repetitionPenalty)
    outputTokenIds := if needsOutputTokenIds then batch.map (·.outputTokenIds) else []
    allowedTokenIdsMask :=
      if batch.all (·.allowedTokenIds.isEmpty) then none
      else some (batch.map GreedyRequest.allowedMask)
    badWordsTokenIds := badWordsTokenIds
    specTokenIds := some (batch.map (·.specTokenIds)) }

/-- `masked_fill_(mask, -inf)` on one row. -/
def fillMasked (mask : Fin V → Bool) (row : LogitsRow V) : LogitsRow V := fun v =>
  if mask v then ⊥ else row v

def BadWord.follows (word : BadWord V) (pastTokensIds : List (Fin V)) : Bool :=
  let prefixLength := word.1.length - 1
  decide (word.1.length ≤ pastTokensIds.length + 1) &&
    pastTokensIds.drop (pastTokensIds.length - prefixLength) == word.1.take prefixLength

/-- `_apply_bad_words_single_batch`. The assertion on the two lengths never fails. -/
def applyBadWordsSingleBatch (badWordsTokenIds : List (BadWord V)) (pastTokensIds : List (Fin V))
    (row : LogitsRow V) : LogitsRow V :=
  badWordsTokenIds.foldl (fun row word =>
    if word.follows pastTokensIds then Function.update row (word.1.getLast word.2) ⊥ else row) row

/-- One row of `apply_penalties`. The repetition penalty is positive, so that `-inf` stays. -/
def penalizeRow (prompt output : List (Fin V)) (presence frequency repetition : ℚ)
    (row : LogitsRow V) : LogitsRow V := fun v =>
  (row v).map fun x =>
    let penalty := if v ∈ prompt ∨ v ∈ output then repetition else 1
    let scaling := if 0 < x then 1 / penalty else penalty
    x * scaling - frequency * output.count v - presence * (if v ∈ output then 1 else 0)

/-- `l[i]` -/
def pyGet {α : Type} (l : List α) (i : ℤ) : Except PyError α :=
  match pyGet? l i with
  | none => .error .indexError
  | some x => .ok x

/-- `logits.masked_fill_(mask, -inf)` -/
def maskedFill (logits : List (LogitsRow V)) (mask : List (Fin V → Bool)) :
    Except PyError (List (LogitsRow V)) :=
  if mask.length = logits.length then .ok (List.zipWith fillMasked mask logits)
  else match mask with
    | [m] => .ok (logits.map (fillMasked m))
    | _ => .error (.runtimeError "The expanded size of the tensor must match the existing size")

def fillDisallowed (logits : List (LogitsRow V))
    (allowedTokenIdsMask : Option (List (Fin V → Bool))) : Except PyError (List (LogitsRow V)) :=
  match allowedTokenIdsMask with
  | none => .ok logits
  | some mask => maskedFill logits mask

def applyAllPenalties (logits : List (LogitsRow V)) (promptTokenIds : List (List (Fin V)))
    (presencePenalties frequencyPenalties repetitionPenalties : List ℚ)
    (outputTokenIds : List (List (Fin V))) : Except PyError (List (LogitsRow V)) := do
  ensure (promptTokenIds.length = logits.length ∧ presencePenalties.length = logits.length ∧
    frequencyPenalties.length = logits.length ∧ repetitionPenalties.length = logits.length ∧
    outputTokenIds.length = logits.length) (.runtimeError "size mismatch")
  return (logits.zip (promptTokenIds.zip (outputTokenIds.zip (presencePenalties.zip
    (frequencyPenalties.zip repetitionPenalties))))).map fun x =>
      penalizeRow x.2.1 x.2.2.1 x.2.2.2.1 x.2.2.2.2.1 x.2.2.2.2.2 x.1

def applyBadWords (logits : List (LogitsRow V)) (badWordsTokenIds : Dict ℤ (List (BadWord V)))
    (pastTokensIds : List (List (Fin V))) : Except PyError (List (LogitsRow V)) :=
  badWordsTokenIds.entries.foldlM (fun logits x => do
    let row ← pyGet logits x.1
    let past ← pyGet pastTokensIds x.1
    return pySet logits x.1 (applyBadWordsSingleBatch x.2 past row)) logits

/-- `argmax`, which takes the first of several largest logits. -/
def argmax [NeZero V] (row : LogitsRow V) : Fin V := ((List.finRange V).argmax row).getD 0

namespace Sampler

def combineOutputsWithSpecTokens (outputTokenIds : List (List (Fin V)))
    (specTokenIds : Option (List (List (Fin V)))) : List (List (Fin V)) :=
  match specTokenIds with
  | none => outputTokenIds
  | some specTokenIds =>
    List.zipWith (fun out spec => if spec ≠ [] then out ++ spec else out) outputTokenIds
      specTokenIds

def applyPenalties (logits : List (LogitsRow V)) (samplingMetadata : SamplingMetadata V)
    (outputTokenIds : List (List (Fin V))) : Except PyError (List (LogitsRow V)) :=
  if samplingMetadata.noPenalties then .ok logits
  else
    match samplingMetadata.promptTokenIds with
    | none => .error (.assertionError "")
    | some promptTokenIds =>
      applyAllPenalties logits promptTokenIds samplingMetadata.presencePenalties
        samplingMetadata.frequencyPenalties samplingMetadata.repetitionPenalties outputTokenIds

def applyLogitsProcessors (logits : List (LogitsRow V)) (samplingMetadata : SamplingMetadata V)
    (predictBonusToken : Bool) : Except PyError (List (LogitsRow V)) := do
  let badWordsTokenIds := samplingMetadata.badWordsTokenIds
  let anyPenaltiesOrBadWords := !badWordsTokenIds.entries.isEmpty || !samplingMetadata.noPenalties
  let outputTokenIds :=
    if predictBonusToken && anyPenaltiesOrBadWords then
      combineOutputsWithSpecTokens samplingMetadata.outputTokenIds samplingMetadata.specTokenIds
    else samplingMetadata.outputTokenIds
  let logits ← fillDisallowed logits samplingMetadata.allowedTokenIdsMask
  let logits ← (if badWordsTokenIds.entries.isEmpty then .ok logits
    else applyBadWords logits badWordsTokenIds outputTokenIds)
  applyPenalties logits samplingMetadata outputTokenIds

/-- `Sampler.forward`: the sampled tokens of a batch with `all_greedy`. -/
def forward [NeZero V] (logits : List (LogitsRow V)) (samplingMetadata : SamplingMetadata V)
    (predictBonusToken : Bool) : Except PyError (List (Fin V)) := do
  let logits ← applyLogitsProcessors logits samplingMetadata predictBonusToken
  return logits.map argmax

end Sampler

end

end CustomAi.Vllm
