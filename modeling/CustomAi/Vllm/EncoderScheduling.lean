import CustomAi.Vllm.Scheduler

/-!
# Scheduling encoder inputs

`_try_schedule_encoder_inputs` and `_free_encoder_inputs` of `vllm/v1/core/sched/scheduler.py`.
-/

namespace CustomAi.Vllm

/-- What `schedule` asks from outside: the KV connector, the grammar compiler and the encoder
connector. -/
structure ScheduleEnv where
  getNumNewMatchedTokens : RequestId → ℕ → Option ℕ × Bool := fun _ _ => (some 0, false)
  grammarReady : RequestId → Bool := fun _ => true
  hasCacheItem : String → Bool := fun _ => false

/-- The local variables of `_try_schedule_encoder_inputs`. -/
structure EncoderTry where
  encoderCache : EncoderCache
  numNewTokens : ℤ
  encoderComputeBudget : ℤ
  encoderInputsToSchedule : List ℕ := []
  externalLoadEncoderInput : List ℕ := []
  mmHashesToSchedule : List String := []
  numEmbedsToSchedule : ℤ := 0

namespace EncoderTry

variable (config : SchedulerConfig) (env : ScheduleEnv) (request : Request)
  (numComputedTokens shiftComputedTokens : ℤ)

def stopBefore (startPos : ℤ) (t : EncoderTry) : EncoderTry :=
  { t with numNewTokens :=
    if numComputedTokens + shiftComputedTokens < startPos then
      startPos - (numComputedTokens + shiftComputedTokens)
    else 0 }

def scheduleInput (i : ℕ) (mmFeature : MultiModalFeatureSpec) (numEncoderEmbeds : ℕ)
    (t : EncoderTry) : Except PyError EncoderTry := do
  let startPos : ℤ := mmFeature.mmPosition.offset
  let startIdxRel := max 0 (numComputedTokens - startPos)
  let endIdxRel := min (mmFeature.mmPosition.length : ℤ)
    (numComputedTokens + t.numNewTokens - startPos)
  let (currEmbedsStart, currEmbedsEnd) ←
    mmFeature.mmPosition.getEmbedsIndicesInRange startIdxRel endIdxRel
  if currEmbedsEnd - currEmbedsStart = 0 then return t
  else
    let t := { t with
      mmHashesToSchedule := t.mmHashesToSchedule ++ [mmFeature.identifier]
      numEmbedsToSchedule := t.numEmbedsToSchedule + numEncoderEmbeds }
    if config.hasEcConnector && env.hasCacheItem mmFeature.identifier then
      return { t with externalLoadEncoderInput := t.externalLoadEncoderInput ++ [i] }
    else
      return { t with
        encoderComputeBudget := t.encoderComputeBudget - numEncoderEmbeds
        encoderInputsToSchedule := t.encoderInputsToSchedule ++ [i] }

/-- The loop over the inputs from the `i`-th one on. -/
def loop : ℕ → List MultiModalFeatureSpec → EncoderTry → Except PyError EncoderTry
  | _, [], t => .ok t
  | i, mmFeature :: rest, t => do
    let startPos : ℤ := mmFeature.mmPosition.offset
    let numEncoderTokens : ℤ := mmFeature.mmPosition.length
    let numEncoderEmbeds ← mmFeature.mmPosition.getNumEmbeds
    let isEncoderDecoder := t.encoderCache.isEncoderDecoder
    if startPos ≥ numComputedTokens + t.numNewTokens + shiftComputedTokens then
      -- not needed in this step
      return t
    else if isEncoderDecoder && numComputedTokens > 0 then
      ensure (startPos = 0) (.assertionError (
        "Encoder input should be processed at the beginning of " ++
        "the sequence when encoder-decoder models are used."))
      loop (i + 1) rest t
    else if startPos + numEncoderTokens ≤ numComputedTokens then
      -- already in the KV cache of the decoder
      loop (i + 1) rest t
    else if !isEncoderDecoder && mmFeature.identifier ∈ t.mmHashesToSchedule then
      loop (i + 1) rest t
    else
      let (cached, encoderCache) ← t.encoderCache.checkAndUpdateCache request i
      let t := { t with encoderCache }
      if cached then loop (i + 1) rest t
      else if config.disableChunkedMmInput && numComputedTokens < startPos &&
          numComputedTokens + t.numNewTokens < startPos + numEncoderTokens then
        return { t with numNewTokens := startPos - numComputedTokens }
      else
        let (room, encoderCache) ← t.encoderCache.canAllocate request i t.encoderComputeBudget
          t.numEmbedsToSchedule
        let t := { t with encoderCache }
        if room then
          let t ← scheduleInput config env numComputedTokens i mmFeature numEncoderEmbeds t
          loop (i + 1) rest t
        else return stopBefore numComputedTokens shiftComputedTokens startPos t

end EncoderTry

def tryScheduleEncoderInputs (config : SchedulerConfig) (env : ScheduleEnv)
    (encoderCache : EncoderCache) (request : Request) (numComputedTokens numNewTokens : ℤ)
    (encoderComputeBudget : ℤ) : Except PyError EncoderTry :=
  let t : EncoderTry := { encoderCache, numNewTokens, encoderComputeBudget }
  if numNewTokens = 0 ∨ request.hasEncoderInputs = false then .ok t
  else EncoderTry.loop config env request numComputedTokens (if config.useEagle then 1 else 0) 0
    request.mmFeatures t

namespace EncoderCache

/-- The `allocate` calls for the scheduled inputs of a request. -/
def allocateAll (request : Request) : List ℕ → EncoderCache → Except PyError EncoderCache
  | [], c => .ok c
  | i :: rest, c => do
    let c ← c.allocate request i
    allocateAll request rest c

/-- The loop of `_free_encoder_inputs`. -/
def freeComputed (request : Request) : List ℕ → EncoderCache → Except PyError EncoderCache
  | [], c => .ok c
  | inputId :: rest, c =>
    match request.mmFeatures[inputId]? with
    | none => .error .indexError
    | some mmFeature => do
      let c ← (if c.isEncoderDecoder && request.numComputedTokens > 0 then
          c.freeEncoderInput request inputId
        else if (mmFeature.mmPosition.stop : ℤ) ≤ request.numComputedTokens then
          c.freeEncoderInput request inputId
        else pure c)
      freeComputed request rest c

def freeEncoderInputs (setOrder : List ℕ → List ℕ) (request : Request) (c : EncoderCache) :
    Except PyError EncoderCache :=
  freeComputed request (setOrder (c.getCachedInputIds request)) c

end EncoderCache

end CustomAi.Vllm
