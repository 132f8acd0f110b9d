import CustomAi.Vllm.KVCacheCoordinator

/-!
# The KV cache manager

`vllm/v1/core/kv_cache_manager.py`, the interface of the scheduler. A `KVCacheBlocks` value is
the list of the blocks of each group. Statistics are left out.
-/

namespace CustomAi.Vllm

structure KVCacheManager where
  maxModelLen : ℕ
  enableCaching : Bool
  coordinator : KVCacheCoordinator

namespace KVCacheManager

/-- `KVCacheManager.__init__` -/
def new (kvCacheConfig : KVCacheConfig) (maxModelLen hashBlockSize : ℕ)
    (enableCaching useEagle enableKvCacheEvents useIntBlockHashes : Bool)
    (dcpWorldSize pcpWorldSize : ℕ) : Except PyError KVCacheManager := do
  let coordinator ← KVCacheCoordinator.getKvCacheCoordinator kvCacheConfig useEagle enableCaching
    enableKvCacheEvents useIntBlockHashes dcpWorldSize pcpWorldSize hashBlockSize
  return { maxModelLen, enableCaching, coordinator }

variable (k : KVCacheManager)

def blockPool : BlockPool := k.coordinator.blockPool

def singleTypeManagers : List SingleTypeKVCacheManager := k.coordinator.singleTypeManagers

def emptyKvCacheBlocks : List (List BlockId) := k.singleTypeManagers.map fun _ => []

/-- `get_computed_blocks`. At least one token is left to compute. -/
def getComputedBlocks (request : Request) : Except PyError (List (List BlockId) × ℕ) :=
  if k.enableCaching = false ∨ request.skipReadingPrefixCache then .ok (k.emptyKvCacheBlocks, 0)
  else k.coordinator.findLongestCacheHit request.blockHashes (request.numTokens - 1)

/-- The arguments of `allocate_slots` besides the request and its prefix-cache hits. -/
structure AllocateSlotsArgs where
  numNewTokens : ℤ
  numLookaheadTokens : ℕ := 0
  numExternalComputedTokens : ℕ := 0
  delayCacheBlocks : Bool := false
  numEncoderTokens : ℕ := 0
  deriving DecidableEq, Repr

/-! The managers treat a negative number of tokens like none, so the counts are cut off at zero. -/

def numLocalComputedTokens (request : Request) (numNewComputedTokens : ℕ) : ℕ :=
  (request.numComputedTokens + numNewComputedTokens).toNat

/-- `total_computed_tokens` before the cut. -/
def computedTotal (request : Request) (numNewComputedTokens : ℕ) (args : AllocateSlotsArgs) : ℤ :=
  min (request.numComputedTokens + numNewComputedTokens + args.numExternalComputedTokens) k.maxModelLen

/-- `total_computed_tokens`, capped by the model length. -/
def totalComputedTokens (request : Request) (numNewComputedTokens : ℕ)
    (args : AllocateSlotsArgs) : ℕ :=
  (k.computedTotal request numNewComputedTokens args).toNat

def numTokensMainModel (request : Request) (numNewComputedTokens : ℕ)
    (args : AllocateSlotsArgs) : ℕ :=
  (k.computedTotal request numNewComputedTokens args + args.numNewTokens).toNat

def numTokensNeedSlot (request : Request) (numNewComputedTokens : ℕ)
    (args : AllocateSlotsArgs) : ℕ :=
  (min (k.computedTotal request numNewComputedTokens args + args.numNewTokens +
    args.numLookaheadTokens) k.maxModelLen).toNat

/-- `allocate_slots`. The hits are passed as the shared empty value exactly if no group has a
block. -/
def allocateSlots (request : Request) (newComputedBlocks : List (List BlockId))
    (numNewComputedTokens : ℕ) (args : AllocateSlotsArgs) :
    Except PyError (Option (List (List BlockId)) × KVCacheManager) := do
  ensure (args.numNewTokens ≠ 0 ∨ args.numExternalComputedTokens ≠ 0) (.valueError (
    "num_new_tokens must be greater than 0 when there are no " ++ "external computed tokens"))
  let numLocal := numLocalComputedTokens request numNewComputedTokens
  let mainModel := k.numTokensMainModel request numNewComputedTokens args
  let needSlot := k.numTokensNeedSlot request numNewComputedTokens args
  let c ← k.coordinator.removeSkippedBlocks request.requestId
    (k.totalComputedTokens request numNewComputedTokens args)
  let numBlocksToAllocate ← c.getNumBlocksToAllocate request.requestId needSlot newComputedBlocks
    args.numEncoderTokens (numLocal + args.numExternalComputedTokens) mainModel
  if numBlocksToAllocate > c.blockPool.getNumFreeBlocks then
    return (none, { k with coordinator := c })
  else
    let c ← (if (∃ blocks ∈ newComputedBlocks, blocks ≠ []) ∨ args.numExternalComputedTokens > 0 then
      c.allocateNewComputedBlocks request.requestId newComputedBlocks numLocal args.numExternalComputedTokens
      else pure c)
    let (newBlocks, c) ← c.allocateNewBlocks request.requestId needSlot mainModel
      args.numEncoderTokens
    if k.enableCaching = false ∨ args.delayCacheBlocks then
      return (some newBlocks, { k with coordinator := c })
    else
      -- only finalized tokens are cached
      let c ← c.cacheBlocks request (min mainModel request.numTokens)
      return (some newBlocks, { k with coordinator := c })

def free (request : Request) : Except PyError KVCacheManager := do
  let coordinator ← k.coordinator.free request.requestId
  return { k with coordinator }

def removeSkippedBlocks (requestId : RequestId) (totalComputedTokens : ℕ) :
    Except PyError KVCacheManager := do
  let coordinator ← k.coordinator.removeSkippedBlocks requestId totalComputedTokens
  return { k with coordinator }

def withBlockPool (blockPool : BlockPool) : KVCacheManager :=
  { k with coordinator := { k.coordinator with blockPool } }

def evictBlocks (blockIds : List BlockId) : Except PyError KVCacheManager := do
  let blockPool ← BlockPool.evictBlocks blockIds k.blockPool
  return k.withBlockPool blockPool

def resetPrefixCache : Bool × KVCacheManager :=
  let (done, blockPool) := k.blockPool.resetPrefixCache
  (done, k.withBlockPool blockPool)

def cacheBlocks (request : Request) (numComputedTokens : ℕ) : Except PyError KVCacheManager := do
  if k.enableCaching then
    let coordinator ← k.coordinator.cacheBlocks request numComputedTokens
    return { k with coordinator }
  else return k

end KVCacheManager

end CustomAi.Vllm
