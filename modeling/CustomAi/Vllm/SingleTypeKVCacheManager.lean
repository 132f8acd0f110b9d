import CustomAi.Lib.CeilDiv
import CustomAi.Vllm.BlockPool

/-!
# KV cache specs

The per-layer specs of `vllm/v1/kv_cache_interface.py`. `UniformTypeKVCacheSpecs`, which only
occurs as the spec of a group, is `GroupSpec.uniformType`.
-/

namespace CustomAi.Vllm

/-- A `torch.dtype` with its `element_size`. -/
structure DType where
  name : String
  size : ℕ
  deriving DecidableEq, Repr

/-- The fields of `AttentionSpec`. -/
structure AttentionSpec where
  blockSize : ℕ
  numKvHeads : ℕ
  headSize : ℕ
  dtype : DType
  pageSizePadded : Option ℕ := none
  deriving DecidableEq, Repr

inductive MambaCacheMode
  | none
  | all
  | align
  deriving DecidableEq, Repr

inductive KVCacheSpec
  | fullAttention (attn : AttentionSpec) (headSizeV : ℕ) (slidingWindow : Option ℕ)
      (attentionChunkSize : Option ℕ)
  | mlaAttention (attn : AttentionSpec) (headSizeV : ℕ) (slidingWindow : Option ℕ)
      (attentionChunkSize : Option ℕ) (cacheDtypeStr : Option String)
  | sinkFullAttention (attn : AttentionSpec) (headSizeV : ℕ) (slidingWindow : Option ℕ)
      (attentionChunkSize : Option ℕ) (sinkLen : Option ℕ)
  | chunkedLocalAttention (attn : AttentionSpec) (attentionChunkSize : ℕ)
  | slidingWindow (attn : AttentionSpec) (slidingWindow : ℕ)
  | mamba (blockSize : ℕ) (shapes : List (List ℕ)) (dtypes : List DType)
      (pageSizePadded : Option ℕ) (mambaType : String) (mambaCacheMode : MambaCacheMode)
      (numSpeculativeBlocks : ℕ)
  | encoderOnlyAttention (attn : AttentionSpec)
  | crossAttention (attn : AttentionSpec)
  deriving DecidableEq, Repr

namespace KVCacheSpec

def blockSize : KVCacheSpec → ℕ
  | fullAttention attn .. | mlaAttention attn .. | sinkFullAttention attn ..
  | chunkedLocalAttention attn _ | slidingWindow attn _ | encoderOnlyAttention attn
  | crossAttention attn => attn.blockSize
  | mamba blockSize .. => blockSize

/-- `isinstance(spec, FullAttentionSpec)` -/
def isFullAttention : KVCacheSpec → Bool
  | fullAttention .. | mlaAttention .. | sinkFullAttention .. => true
  | _ => false

end KVCacheSpec

/-- The classes of `spec_manager_map`. -/
inductive ManagerClass
  | fullAttention
  | slidingWindow
  | chunkedLocalAttention
  | mamba
  | crossAttention
  | sinkFullAttention
  deriving DecidableEq, Repr

/-- `spec_manager_map[type(kv_cache_spec)]` -/
def specManagerMap : KVCacheSpec → Option ManagerClass
  | .fullAttention .. | .mlaAttention .. => some .fullAttention
  | .slidingWindow .. => some .slidingWindow
  | .chunkedLocalAttention .. => some .chunkedLocalAttention
  | .mamba .. => some .mamba
  | .crossAttention .. => some .crossAttention
  | .sinkFullAttention .. => some .sinkFullAttention
  | .encoderOnlyAttention .. => none

end CustomAi.Vllm

/-!
## The managers of one KV cache group

`vllm/v1/core/single_type_kv_cache_manager.py`, without the cache-hit lookups. The class of a
manager is the class of its spec. A method that a class overrides dispatches on the spec, and
the inherited body keeps the prefix `base`.
-/

namespace CustomAi.Vllm

/-- `lastStateBlockIdx` and `allocatedBlockReqs` are used in mode align only; a missing entry of
`req_to_blocks` is `[]`. -/
structure SingleTypeKVCacheManager where
  kvCacheSpec : KVCacheSpec
  blockSize : ℕ
  enableCaching : Bool
  kvCacheGroupId : ℕ
  reqToBlocks : Dict RequestId (List BlockId) := Dict.empty
  numCachedBlock : Dict RequestId ℕ := Dict.empty
  lastStateBlockIdx : Dict RequestId ℤ := Dict.empty
  allocatedBlockReqs : Finset RequestId := ∅
  deriving DecidableEq

namespace SingleTypeKVCacheManager

/-- `SingleTypeKVCacheManager.__init__` -/
def new (kvCacheSpec : KVCacheSpec) (enableCaching : Bool) (kvCacheGroupId : ℕ)
    (dcpWorldSize pcpWorldSize : ℕ) : SingleTypeKVCacheManager :=
  { kvCacheSpec, enableCaching, kvCacheGroupId
    blockSize := if dcpWorldSize * pcpWorldSize > 1 then
        kvCacheSpec.blockSize * (dcpWorldSize * pcpWorldSize)
      else kvCacheSpec.blockSize }

/-- `isinstance(manager, CrossAttentionManager)` -/
def isCrossAttention (m : SingleTypeKVCacheManager) : Bool :=
  specManagerMap m.kvCacheSpec = some .crossAttention

/-- `req_to_blocks[request_id]` -/
def reqBlocks (m : SingleTypeKVCacheManager) (requestId : RequestId) : List BlockId :=
  (m.reqToBlocks.get? requestId).getD []

def setReqBlocks (m : SingleTypeKVCacheManager) (requestId : RequestId) (blocks : List BlockId) :
    SingleTypeKVCacheManager :=
  { m with reqToBlocks := m.reqToBlocks.set requestId blocks }

def getNumEvictableBlocks (p : BlockPool) (blocks : List BlockId) : ℕ :=
  (blocks.filter (fun b => decide ((p.blocks b).refCnt = 0) && !(p.blocks b).isNull)).length

def getNumSkippedTokens (m : SingleTypeKVCacheManager) (numComputedTokens : ℕ) : ℤ :=
  match m.kvCacheSpec with
  | .slidingWindow _ slidingWindow => max 0 (numComputedTokens - slidingWindow + 1)
  | .chunkedLocalAttention _ attentionChunkSize =>
    (numComputedTokens / attentionChunkSize * attentionChunkSize : ℕ)
  | .mamba .. => numComputedTokens - 1
  | _ => 0

def baseGetNumBlocksToAllocate (m : SingleTypeKVCacheManager) (p : BlockPool)
    (requestId : RequestId) (numTokens : ℕ) (newComputedBlocks : List BlockId)
    (totalComputedTokens : ℕ) : Except PyError ℤ := do
  let numRequiredBlocks : ℤ := cdiv numTokens m.blockSize
  let numReqBlocks : ℤ := (m.reqBlocks requestId).length
  if m.numCachedBlock.contains requestId then
    -- a running request has no new prefix-cache hits
    ensure (newComputedBlocks.length = 0) (.assertionError "")
    return max (numRequiredBlocks - numReqBlocks) 0
  else
    let numSkippedTokens := m.getNumSkippedTokens totalComputedTokens
    let numLocalComputedBlocks := newComputedBlocks.length + numReqBlocks
    let numSkippedBlocks := numSkippedTokens / m.blockSize
    let numNewBlocks := max (numRequiredBlocks - max numSkippedBlocks numLocalComputedBlocks) 0
    let numSkippedNewComputedBlocks := max 0 (numSkippedBlocks - numReqBlocks)
    let numEvictableBlocks := getNumEvictableBlocks p (newComputedBlocks.drop numSkippedNewComputedBlocks.toNat)
    return numNewBlocks + numEvictableBlocks

def getNumBlocksToAllocate (m : SingleTypeKVCacheManager) (p : BlockPool) (requestId : RequestId)
    (numTokens : ℕ) (newComputedBlocks : List BlockId)
    (totalComputedTokens numTokensMainModel : ℕ) : Except PyError ℤ :=
  match m.kvCacheSpec with
  | .mamba _ _ _ _ _ .align numSpeculativeBlocks =>
    let numRequiredBlocks : ℤ := cdiv numTokensMainModel m.blockSize + numSpeculativeBlocks
    let numNewBlocks : ℤ := numRequiredBlocks - newComputedBlocks.length - (m.reqBlocks requestId).length
    let numNewBlocks : ℤ := if numNewBlocks > 0 then
        (if requestId ∈ m.allocatedBlockReqs then 1 else 1 + numSpeculativeBlocks)
      else numNewBlocks
    return numNewBlocks + getNumEvictableBlocks p newComputedBlocks
  | .mamba specBlockSize _ _ _ _ _ numSpeculativeBlocks =>
    -- the block size of the spec, not the one scaled by the context parallel sizes
    m.baseGetNumBlocksToAllocate p requestId (numTokens + specBlockSize * numSpeculativeBlocks)
      newComputedBlocks totalComputedTokens
  | _ => m.baseGetNumBlocksToAllocate p requestId numTokens newComputedBlocks totalComputedTokens

def baseAllocateNewComputedBlocks (m : SingleTypeKVCacheManager) (p : BlockPool)
    (requestId : RequestId) (newComputedBlocks : List BlockId)
    (numLocalComputedTokens numExternalComputedTokens : ℕ) :
    Except PyError (SingleTypeKVCacheManager × BlockPool) := do
  if m.numCachedBlock.contains requestId then
    ensure (newComputedBlocks.length = 0) (.assertionError "")
    return (m, p)
  else
    ensure ((m.reqBlocks requestId).length = 0) (.assertionError "")
    let numTotalComputedTokens := numLocalComputedTokens + numExternalComputedTokens
    let numSkippedTokens := m.getNumSkippedTokens numTotalComputedTokens
    let numSkippedBlocks := numSkippedTokens / m.blockSize
    let newComputedBlocks := if numSkippedBlocks > 0 then
      newComputedBlocks.drop numSkippedBlocks.toNat else newComputedBlocks
    let numExternalComputedTokens : ℤ := if numSkippedBlocks > 0 then
      min (numTotalComputedTokens - numSkippedTokens) numExternalComputedTokens
      else numExternalComputedTokens
    let p ← (if m.enableCaching then BlockPool.touch newComputedBlocks p else do
      ensure (newComputedBlocks = []) (.assertionError
        "Computed blocks should be empty when prefix caching is disabled")
      return p)
    let reqBlocks := List.replicate numSkippedBlocks.toNat nullBlock ++ newComputedBlocks
    let m := { m.setReqBlocks requestId reqBlocks with
      numCachedBlock := m.numCachedBlock.set requestId reqBlocks.length }
    if numExternalComputedTokens > 0 then
      let (allocatedBlocks, p) ← p.getNewBlocks
        ((cdiv numTotalComputedTokens m.blockSize : ℤ) - reqBlocks.length)
      return (m.setReqBlocks requestId (reqBlocks ++ allocatedBlocks), p)
    else return (m, p)

def allocateNewComputedBlocks (m : SingleTypeKVCacheManager) (p : BlockPool)
    (requestId : RequestId) (newComputedBlocks : List BlockId)
    (numLocalComputedTokens numExternalComputedTokens : ℕ) :
    Except PyError (SingleTypeKVCacheManager × BlockPool) :=
  if m.isCrossAttention then do
    ensure (newComputedBlocks.length = 0) (.assertionError "")
    return (m, p)
  else m.baseAllocateNewComputedBlocks p requestId newComputedBlocks numLocalComputedTokens
    numExternalComputedTokens

def baseAllocateNewBlocks (m : SingleTypeKVCacheManager) (p : BlockPool) (requestId : RequestId)
    (numTokens : ℕ) : Except PyError (List BlockId × SingleTypeKVCacheManager × BlockPool) := do
  let reqBlocks := m.reqBlocks requestId
  let numRequiredBlocks : ℤ := cdiv numTokens m.blockSize
  let numNewBlocks := numRequiredBlocks - reqBlocks.length
  if numNewBlocks ≤ 0 then return ([], m, p)
  else
    let (newBlocks, p) ← p.getNewBlocks numNewBlocks
    return (newBlocks, m.setReqBlocks requestId (reqBlocks ++ newBlocks), p)

/-- The loop of `MambaManager.allocate_new_blocks` over `count` indices from `blockIdx` on. -/
def reuseSpeculativeBlocks (numSkippedBlocks : ℤ) :
    ℕ → ℤ → List BlockId → Except PyError (List BlockId)
  | 0, _, reqBlocks => .ok reqBlocks
  | count + 1, blockIdx, reqBlocks =>
    if blockIdx < numSkippedBlocks then
      match pyGet? reqBlocks blockIdx with
      | none => .error .indexError
      | some block => reuseSpeculativeBlocks numSkippedBlocks count (blockIdx + 1)
          (pySet (reqBlocks ++ [block]) blockIdx nullBlock)
    else .ok reqBlocks

/-- `MambaManager.allocate_new_blocks` in mode align. -/
def alignAllocateNewBlocks (m : SingleTypeKVCacheManager) (p : BlockPool) (requestId : RequestId)
    (numTokensMainModel numSpeculativeBlocks : ℕ) :
    Except PyError (List BlockId × SingleTypeKVCacheManager × BlockPool) := do
  let reqBlocks := m.reqBlocks requestId
  let numRequiredBlocks : ℤ := cdiv numTokensMainModel m.blockSize + numSpeculativeBlocks
  if numRequiredBlocks = reqBlocks.length then return ([], m, p)
  else
    ensure (numRequiredBlocks > reqBlocks.length) (.assertionError
      s!"num_required_blocks {numRequiredBlocks} < len(req_blocks) {reqBlocks.length}")
    let prevBlockLen := reqBlocks.length
    let blocksAllocated : Bool := requestId ∈ m.allocatedBlockReqs
    let lastStateBlockIdx := if blocksAllocated then
        m.lastStateBlockIdx.set requestId ((prevBlockLen : ℤ) - 1 - numSpeculativeBlocks)
      else if prevBlockLen > 0 then
        -- the last hit block saves the state
        m.lastStateBlockIdx.set requestId ((prevBlockLen : ℤ) - 1)
      else m.lastStateBlockIdx
    let numSkippedBlocks := numRequiredBlocks - numSpeculativeBlocks - 1
    let reqBlocks := reqBlocks ++ List.replicate (numSkippedBlocks - prevBlockLen).toNat nullBlock
    let reqBlocks ← (if blocksAllocated then
        reuseSpeculativeBlocks numSkippedBlocks numSpeculativeBlocks
          ((prevBlockLen : ℤ) - numSpeculativeBlocks) reqBlocks
      else pure reqBlocks)
    let numNewBlocks := numRequiredBlocks - reqBlocks.length
    ensure (numNewBlocks ≤ if blocksAllocated then 1 else (numSpeculativeBlocks : ℤ) + 1)
      (.assertionError "")
    let (newBlocks, p) ← p.getNewBlocks numNewBlocks
    let reqBlocks := reqBlocks ++ newBlocks
    let m := { m.setReqBlocks requestId reqBlocks with
      lastStateBlockIdx
      allocatedBlockReqs := insert requestId m.allocatedBlockReqs }
    return (reqBlocks.drop prevBlockLen, m, p)

def allocateNewBlocks (m : SingleTypeKVCacheManager) (p : BlockPool) (requestId : RequestId)
    (numTokens numTokensMainModel : ℕ) :
    Except PyError (List BlockId × SingleTypeKVCacheManager × BlockPool) :=
  match m.kvCacheSpec with
  | .mamba _ _ _ _ _ .align numSpeculativeBlocks =>
    m.alignAllocateNewBlocks p requestId numTokensMainModel numSpeculativeBlocks
  | .mamba _ _ _ _ _ _ numSpeculativeBlocks =>
    m.baseAllocateNewBlocks p requestId (numTokens + m.blockSize * numSpeculativeBlocks)
  | _ => m.baseAllocateNewBlocks p requestId numTokens

def cacheBlocks (m : SingleTypeKVCacheManager) (p : BlockPool) (request : Request)
    (numTokens : ℕ) : Except PyError (SingleTypeKVCacheManager × BlockPool) :=
  if m.isCrossAttention then
    .error (.valueError "Should not be called as prefix caching is disabled.")
  else do
    let numCachedBlocks := (m.numCachedBlock.get? request.requestId).getD 0
    let numFullBlocks := numTokens / m.blockSize
    if numCachedBlocks ≥ numFullBlocks then return (m, p)
    else
      let p ← p.cacheFullBlocks request (m.reqBlocks request.requestId) numCachedBlocks
        numFullBlocks m.blockSize m.kvCacheGroupId
      return ({ m with numCachedBlock := m.numCachedBlock.set request.requestId numFullBlocks }, p)

/-- `free`: the tail blocks are freed first. -/
def free (m : SingleTypeKVCacheManager) (p : BlockPool) (requestId : RequestId) :
    SingleTypeKVCacheManager × BlockPool :=
  let p := p.freeBlocks (m.reqBlocks requestId).reverse
  let m := { m with
    reqToBlocks := m.reqToBlocks.erase requestId
    numCachedBlock := m.numCachedBlock.erase requestId }
  match m.kvCacheSpec with
  | .mamba _ _ _ _ _ .align _ =>
    ({ m with
        lastStateBlockIdx := m.lastStateBlockIdx.erase requestId
        allocatedBlockReqs := m.allocatedBlockReqs.erase requestId }, p)
  | _ => (m, p)

/-- The loop of `remove_skipped_blocks` over the first `i` blocks from the right. -/
def removeSkippedLoop : ℕ → List BlockId → List BlockId × List BlockId
  | 0, blocks => ([], blocks)
  | i + 1, blocks =>
    let block := blocks.getD i nullBlock
    if block = nullBlock then ([], blocks)
    else
      let (removed, blocks) := removeSkippedLoop i (blocks.set i nullBlock)
      (block :: removed, blocks)

def baseRemoveSkippedBlocks (m : SingleTypeKVCacheManager) (p : BlockPool)
    (requestId : RequestId) (totalComputedTokens : ℕ) : SingleTypeKVCacheManager × BlockPool :=
  let numSkippedTokens := m.getNumSkippedTokens totalComputedTokens
  if numSkippedTokens ≤ 0 then (m, p)
  else
    let blocks := m.reqBlocks requestId
    let numSkippedBlocks := min (numSkippedTokens / m.blockSize) blocks.length
    let (removedBlocks, blocks) := removeSkippedLoop numSkippedBlocks.toNat blocks
    (m.setReqBlocks requestId blocks, p.freeBlocks removedBlocks)

/-- The part of `MambaManager.remove_skipped_blocks` that frees the state of two steps ago. -/
def freeLastStateBlock (m : SingleTypeKVCacheManager) (p : BlockPool) (requestId : RequestId)
    (numComputedTokens : ℕ) : Except PyError (SingleTypeKVCacheManager × BlockPool) :=
  match m.lastStateBlockIdx.get? requestId with
  | none => .ok (m, p)
  | some lastStateBlockIdx =>
    if lastStateBlockIdx < (cdiv numComputedTokens m.blockSize : ℤ) - 1 then
      let blocks := m.reqBlocks requestId
      match pyGet? blocks lastStateBlockIdx with
      | none => .error .indexError
      | some block =>
        if block = nullBlock then .ok (m, p)
        else .ok (m.setReqBlocks requestId (pySet blocks lastStateBlockIdx nullBlock), p.freeBlocks [block])
    else .ok (m, p)

def removeSkippedBlocks (m : SingleTypeKVCacheManager) (p : BlockPool) (requestId : RequestId)
    (totalComputedTokens : ℕ) : Except PyError (SingleTypeKVCacheManager × BlockPool) :=
  let (m', p') := m.baseRemoveSkippedBlocks p requestId totalComputedTokens
  match m.kvCacheSpec with
  | .mamba _ _ _ _ _ .align _ => m'.freeLastStateBlock p' requestId totalComputedTokens
  | _ => .ok (m', p')

end SingleTypeKVCacheManager

end CustomAi.Vllm
