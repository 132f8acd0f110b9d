import CustomAi.Lib.Dict
import CustomAi.Vllm.Request

/-!
# The encoder cache

`vllm/v1/core/encoder_cache_manager.py`. `compute_mm_encoder_budget` is left out. A Python set of
input ids is visited in an order that the caller of `free` passes as a list.
-/

namespace CustomAi.Vllm

namespace Request

/-- `request.mm_features[input_id].identifier` -/
def mmHash (request : Request) (inputId : ℕ) : Except PyError String :=
  match request.mmFeatures[inputId]? with
  | none => .error .indexError
  | some mmFeature => .ok mmFeature.identifier

def getNumEncoderEmbeds (request : Request) (inputId : ℕ) : Except PyError ℕ :=
  match request.mmFeatures[inputId]? with
  | none => .error (.assertionError "")
  | some mmFeature => mmFeature.mmPosition.getNumEmbeds

def hasEncoderInputs (request : Request) : Bool := decide (request.mmFeatures ≠ [])

end Request

/-- `cached` has the requests that reference an entry, `freeable` the sizes of those to evict,
oldest first. -/
structure EncoderCacheManager where
  cacheSize : ℕ
  numFreeSlots : ℤ
  numFreeableSlots : ℤ
  cached : Dict String (Finset RequestId)
  freeable : Dict String ℕ
  freed : List String

namespace EncoderCacheManager

/-- `EncoderCacheManager.__init__` -/
def new (cacheSize : ℕ) : EncoderCacheManager where
  cacheSize := cacheSize
  numFreeSlots := cacheSize
  numFreeableSlots := cacheSize
  cached := .empty
  freeable := .empty
  freed := []

variable (m : EncoderCacheManager)

def reset : EncoderCacheManager :=
  { m with
    cached := .empty
    freeable := .empty
    freed := []
    numFreeSlots := m.cacheSize
    numFreeableSlots := m.cacheSize }

/-- The entry of `mmHash` leaves `freeable`, since a request references it again. -/
def reclaim (mmHash : String) : Except PyError EncoderCacheManager :=
  match m.freeable.get? mmHash with
  | none => .error .keyError
  | some numEncoderEmbeds =>
    .ok { m with
      freeable := m.freeable.erase mmHash
      numFreeableSlots := m.numFreeableSlots - numEncoderEmbeds }

def checkAndUpdateCache (request : Request) (inputId : ℕ) :
    Except PyError (Bool × EncoderCacheManager) := do
  let mmHash ← request.mmHash inputId
  match m.cached.get? mmHash with
  | none => return (false, m)
  | some requestIds =>
    let m ← (if requestIds = ∅ then m.reclaim mmHash else pure m)
    return (true, { m with cached := m.cached.set mmHash (insert request.requestId requestIds) })

/-- The eviction loop of `can_allocate` over the entries of `freeable`. -/
def evictLoop (numEmbeds : ℤ) :
    List (String × ℕ) → EncoderCacheManager → Except PyError EncoderCacheManager
  | [], m => if numEmbeds > m.numFreeSlots then .error .keyError else .ok m
  | (mmHash, numFreeEmbeds) :: rest, m =>
    if numEmbeds > m.numFreeSlots then do
      ensure (m.cached.contains mmHash) .keyError
      evictLoop numEmbeds rest
        { m with
          freeable := m.freeable.erase mmHash
          cached := m.cached.erase mmHash
          freed := m.freed ++ [mmHash]
          numFreeSlots := m.numFreeSlots + numFreeEmbeds }
    else .ok m

def canAllocate (request : Request) (inputId : ℕ)
    (encoderComputeBudget numEmbedsToSchedule : ℤ) :
    Except PyError (Bool × EncoderCacheManager) := do
  let numEmbeds ← request.getNumEncoderEmbeds inputId
  if numEmbeds > encoderComputeBudget then return (false, m)
  else
    let numEmbeds := numEmbeds + numEmbedsToSchedule
    if numEmbeds ≤ m.numFreeSlots then return (true, m)
    else if numEmbeds > m.numFreeableSlots then return (false, m)
    else
      let m ← evictLoop numEmbeds m.freeable.entries m
      return (true, m)

def allocate (request : Request) (inputId : ℕ) : Except PyError EncoderCacheManager := do
  let mmHash ← request.mmHash inputId
  let requestIds := (m.cached.get? mmHash).getD ∅
  let numEncoderEmbeds ← request.getNumEncoderEmbeds inputId
  ensure (m.numFreeSlots ≥ numEncoderEmbeds) (.assertionError "")
  ensure (m.numFreeableSlots ≥ numEncoderEmbeds) (.assertionError "")
  return { m with
    cached := m.cached.set mmHash (insert request.requestId requestIds)
    numFreeSlots := m.numFreeSlots - numEncoderEmbeds
    numFreeableSlots := m.numFreeableSlots - numEncoderEmbeds }

def getCachedInputIds (request : Request) : List ℕ :=
  (List.range request.mmFeatures.length).filter fun inputId =>
    match request.mmHash inputId with
    | .error _ => false
    | .ok mmHash => m.cached.contains mmHash

def freeEncoderInput (request : Request) (inputId : ℕ) : Except PyError EncoderCacheManager := do
  let mmHash ← request.mmHash inputId
  match m.cached.get? mmHash with
  | none => return m
  | some requestIds =>
    if requestIds = ∅ then return m
    else
      let requestIds := requestIds.erase request.requestId
      let m := { m with cached := m.cached.set mmHash requestIds }
      if requestIds = ∅ then
        let numEncoderEmbeds ← request.getNumEncoderEmbeds inputId
        return { m with
          freeable := m.freeable.set mmHash numEncoderEmbeds
          numFreeableSlots := m.numFreeableSlots + numEncoderEmbeds }
      else return m

/-- `free`, for the input ids in the order in which the set is visited. -/
def free (request : Request) : List ℕ → EncoderCacheManager → Except PyError EncoderCacheManager
  | [], m => .ok m
  | inputId :: rest, m => do
    let m ← m.freeEncoderInput request inputId
    free request rest m

def getFreedMmHashes : List String × EncoderCacheManager := (m.freed, { m with freed := [] })

end EncoderCacheManager

/-- The methods of `EncoderDecoderCacheManager`, which keeps the slots and two lists of hashes. -/
structure EncoderDecoderCacheManager where
  cacheSize : ℕ
  numFreeSlots : ℤ
  allocated : List String
  toFree : List String
  deriving DecidableEq, Repr

namespace EncoderDecoderCacheManager

variable (m : EncoderDecoderCacheManager)

def reset : EncoderDecoderCacheManager :=
  { m with numFreeSlots := m.cacheSize, allocated := [], toFree := [] }

def canAllocate (request : Request) (inputId : ℕ)
    (encoderComputeBudget numEmbedsToSchedule : ℤ) : Except PyError Bool := do
  let numEncoderEmbeds ← request.getNumEncoderEmbeds inputId
  if numEncoderEmbeds > encoderComputeBudget then return false
  else return numEncoderEmbeds + numEmbedsToSchedule ≤ m.numFreeSlots

def allocate (request : Request) (inputId : ℕ) : Except PyError EncoderDecoderCacheManager := do
  let numEncoderEmbeds ← request.getNumEncoderEmbeds inputId
  let mmHash ← request.mmHash inputId
  return { m with
    numFreeSlots := m.numFreeSlots - numEncoderEmbeds
    allocated := m.allocated ++ [mmHash] }

def getCachedInputIds (request : Request) : List ℕ := List.range request.mmFeatures.length

def freeEncoderInput (request : Request) (inputId : ℕ) :
    Except PyError EncoderDecoderCacheManager := do
  let numEncoderEmbeds ← request.getNumEncoderEmbeds inputId
  return { m with numFreeSlots := m.numFreeSlots + numEncoderEmbeds }

/-- The loop of `free`. -/
def freeInputs (request : Request) :
    List ℕ → EncoderDecoderCacheManager → Except PyError EncoderDecoderCacheManager
  | [], m => .ok m
  | inputId :: rest, m => do
    let m ← m.freeEncoderInput request inputId
    freeInputs request rest m

def free (request : Request) : Except PyError EncoderDecoderCacheManager :=
  freeInputs request (List.range request.mmFeatures.length) m

def getFreedMmHashes : List String × EncoderDecoderCacheManager :=
  (m.toFree, { m with toFree := m.allocated, allocated := [] })

end EncoderDecoderCacheManager

end CustomAi.Vllm
