import CustomAi.Vllm.SingleTypeKVCacheManager

/-!
# Cache-hit lookups

The class methods `find_longest_cache_hit` of `vllm/v1/core/single_type_kv_cache_manager.py`.
-/

namespace CustomAi.Vllm

def prependCached (cached : List BlockId) (computed : List (List BlockId)) : List (List BlockId) :=
  List.zipWith (· :: ·) cached computed

def scanCachedBlocks (p : BlockPool) (kvCacheGroupIds : List ℕ) :
    List BlockHash → Except PyError (List (List BlockId))
  | [] => .ok (kvCacheGroupIds.map fun _ => [])
  | blockHash :: rest => do
    match ← p.getCachedBlock blockHash kvCacheGroupIds with
    | none | some [] => return kvCacheGroupIds.map fun _ => []
    | some cachedBlock =>
      let computed ← scanCachedBlocks p kvCacheGroupIds rest
      return prependCached cachedBlock computed

/-- `len(computed_blocks[0])` -/
def hitLength (computedBlocks : List (List BlockId)) : ℕ := (computedBlocks.headD []).length

/-- What is left when trailing blocks are popped until `alignmentTokens` divides the length. -/
def alignedNumBlocks (blockSize alignmentTokens : ℕ) : ℕ → ℕ
  | 0 => 0
  | n + 1 => if blockSize ≠ alignmentTokens ∧ (n + 1) * blockSize % alignmentTokens ≠ 0 then
      alignedNumBlocks blockSize alignmentTokens n else n + 1

def popToAlignment (blockSize alignmentTokens : ℕ) (computedBlocks : List (List BlockId)) :
    List (List BlockId) :=
  computedBlocks.map (·.take (alignedNumBlocks blockSize alignmentTokens (hitLength computedBlocks)))

def popForEagle (useEagle : Bool) (computedBlocks : List (List BlockId)) : List (List BlockId) :=
  if useEagle ∧ computedBlocks.headD [] ≠ [] then computedBlocks.map List.dropLast
  else computedBlocks

/-- `FullAttentionManager.find_longest_cache_hit` -/
def fullAttentionFindLongestCacheHit (blockHashes : List BlockHash) (maxLength : ℕ)
    (kvCacheGroupIds : List ℕ) (p : BlockPool) (specBlockSize : ℕ) (useEagle : Bool)
    (alignmentTokens dcpWorldSize pcpWorldSize : ℕ) : Except PyError (List (List BlockId)) := do
  let blockSize := if dcpWorldSize * pcpWorldSize > 1 then
    specBlockSize * (dcpWorldSize * pcpWorldSize) else specBlockSize
  let maxNumBlocks := maxLength / blockSize
  let computedBlocks ← scanCachedBlocks p kvCacheGroupIds (blockHashes.take maxNumBlocks)
  return popToAlignment blockSize alignmentTokens (popForEagle useEagle computedBlocks)

/-- The right-to-left search over the first `i` blocks, with the hits and whether a match was found. -/
def slidingWindowLoop (blockHashes : List BlockHash) (kvCacheGroupIds : List ℕ) (p : BlockPool)
    (blockSize alignmentTokens slidingWindowContiguousBlocks : ℕ) :
    ℕ → ℕ → List (List BlockId) → Except PyError (List (List BlockId) × ℕ × Bool)
  | 0, numContiguousBlocks, computedBlocks => .ok (computedBlocks, numContiguousBlocks, false)
  | i + 1, numContiguousBlocks, computedBlocks =>
    let loop := slidingWindowLoop blockHashes kvCacheGroupIds p blockSize alignmentTokens
      slidingWindowContiguousBlocks i
    match blockHashes[i]? with
    | none => .error .indexError
    | some blockHash => do
      match ← p.getCachedBlock blockHash kvCacheGroupIds with
      | none | some [] => loop 0 computedBlocks
      | some cachedBlock =>
        if numContiguousBlocks = 0 ∧ blockSize ≠ alignmentTokens ∧ (i + 1) * blockSize % alignmentTokens ≠ 0 then
          loop numContiguousBlocks computedBlocks
        else
          let computedBlocks :=
            List.zipWith (fun computed cached => computed.set i cached) computedBlocks cachedBlock
          let numContiguousBlocks := numContiguousBlocks + 1
          if numContiguousBlocks ≥ slidingWindowContiguousBlocks then
            -- trim the trailing blocks
            return (computedBlocks.map (·.take (i + numContiguousBlocks)), numContiguousBlocks, true)
          else loop numContiguousBlocks computedBlocks

/-- `SlidingWindowManager.find_longest_cache_hit` -/
def slidingWindowFindLongestCacheHit (blockHashes : List BlockHash) (maxLength : ℕ)
    (kvCacheGroupIds : List ℕ) (p : BlockPool) (blockSize slidingWindow : ℕ) (useEagle : Bool)
    (alignmentTokens dcpWorldSize pcpWorldSize : ℕ) : Except PyError (List (List BlockId)) := do
  ensure (dcpWorldSize = 1) (.assertionError "DCP not support sliding window attn now.")
  ensure (pcpWorldSize = 1) (.assertionError "PCP not support sliding window attn now.")
  let contiguousBlocks := cdiv (slidingWindow - 1) blockSize + if useEagle then 1 else 0
  let maxNumBlocks := maxLength / blockSize
  let (computedBlocks, numContiguousBlocks, matchFound) ←
    slidingWindowLoop blockHashes kvCacheGroupIds p blockSize alignmentTokens contiguousBlocks
      maxNumBlocks 0 (kvCacheGroupIds.map fun _ => List.replicate maxNumBlocks nullBlock)
  let computedBlocks := if matchFound then computedBlocks
    -- the first blocks are a hit even if they do not fill the window
    else popToAlignment blockSize alignmentTokens (computedBlocks.map (·.take numContiguousBlocks))
  ensure (useEagle ∧ computedBlocks.headD [] ≠ [] → blockSize = alignmentTokens)
    (.assertionError "aligned_length is not compatible with eagle now")
  return popForEagle useEagle computedBlocks

/-- `ChunkedLocalAttentionManager.find_longest_cache_hit` -/
def chunkedLocalAttentionFindLongestCacheHit (blockHashes : List BlockHash) (maxLength : ℕ)
    (kvCacheGroupIds : List ℕ) (p : BlockPool) (blockSize attentionChunkSize : ℕ)
    (useEagle : Bool) (alignmentTokens dcpWorldSize pcpWorldSize : ℕ) :
    Except PyError (List (List BlockId)) := do
  ensure (useEagle = false) (.assertionError
    "Hybrid KV cache is not supported for eagle + chunked local attention.")
  ensure (dcpWorldSize = 1) (.assertionError "DCP not support chunked local attn now.")
  ensure (pcpWorldSize = 1) (.assertionError "PCP not support chunked local attn now.")
  ensure (blockSize = alignmentTokens) (.assertionError (
    "KV cache groups with different block sizes are not compatible with " ++
    "chunked local attention now"))
  let maxNumBlocks := maxLength / blockSize
  let localAttentionStartIdx := maxLength / attentionChunkSize * attentionChunkSize
  let localAttentionStartBlockIdx := localAttentionStartIdx / blockSize
  -- every index of the range is read
  let hashes := (blockHashes.take maxNumBlocks).drop localAttentionStartBlockIdx
  let computedBlocks ← scanCachedBlocks p kvCacheGroupIds hashes
  ensure (hitLength computedBlocks < hashes.length ∨ maxNumBlocks ≤ blockHashes.length ∨
    maxNumBlocks ≤ localAttentionStartBlockIdx) .indexError
  return computedBlocks.map (List.replicate localAttentionStartBlockIdx nullBlock ++ ·)

/-- The right-to-left search of the Mamba manager over the first `i` blocks. -/
def mambaLoop (blockHashes : List BlockHash) (kvCacheGroupIds : List ℕ) (p : BlockPool)
    (blockSize alignmentTokens : ℕ) : ℕ → Except PyError (List (List BlockId))
  | 0 => .ok (kvCacheGroupIds.map fun _ => [])
  | i + 1 =>
    let loop := mambaLoop blockHashes kvCacheGroupIds p blockSize alignmentTokens i
    match blockHashes[i]? with
    | none => .error .indexError
    | some blockHash => do
      match ← p.getCachedBlock blockHash kvCacheGroupIds with
      | none | some [] => loop
      | some cachedBlock =>
        if blockSize ≠ alignmentTokens ∧ (i + 1) * blockSize % alignmentTokens ≠ 0 then loop
        -- dummy blocks make the number of blocks agree with the hit length
        else return cachedBlock.map fun cached => List.replicate i nullBlock ++ [cached]

/-- `MambaManager.find_longest_cache_hit` -/
def mambaFindLongestCacheHit (blockHashes : List BlockHash) (maxLength : ℕ)
    (kvCacheGroupIds : List ℕ) (p : BlockPool) (blockSize alignmentTokens dcpWorldSize
    pcpWorldSize : ℕ) : Except PyError (List (List BlockId)) := do
  ensure (dcpWorldSize = 1) (.assertionError "DCP not support mamba now.")
  ensure (pcpWorldSize = 1) (.assertionError "PCP not support mamba now.")
  mambaLoop blockHashes kvCacheGroupIds p blockSize alignmentTokens (maxLength / blockSize)

/-- `manager_cls.find_longest_cache_hit` for the manager class of `kvCacheSpec`. -/
def findLongestCacheHit (blockHashes : List BlockHash) (maxLength : ℕ) (kvCacheGroupIds : List ℕ)
    (p : BlockPool) (kvCacheSpec : KVCacheSpec) (useEagle : Bool)
    (alignmentTokens dcpWorldSize pcpWorldSize : ℕ) : Except PyError (List (List BlockId)) :=
  match kvCacheSpec with
  | .fullAttention attn .. | .mlaAttention attn .. | .sinkFullAttention attn .. =>
    fullAttentionFindLongestCacheHit blockHashes maxLength kvCacheGroupIds p attn.blockSize
      useEagle alignmentTokens dcpWorldSize pcpWorldSize
  | .slidingWindow attn slidingWindow =>
    slidingWindowFindLongestCacheHit blockHashes maxLength kvCacheGroupIds p attn.blockSize
      slidingWindow useEagle alignmentTokens dcpWorldSize pcpWorldSize
  | .chunkedLocalAttention attn attentionChunkSize =>
    chunkedLocalAttentionFindLongestCacheHit blockHashes maxLength kvCacheGroupIds p attn.blockSize
      attentionChunkSize useEagle alignmentTokens dcpWorldSize pcpWorldSize
  | .mamba blockSize .. =>
    mambaFindLongestCacheHit blockHashes maxLength kvCacheGroupIds p blockSize alignmentTokens
      dcpWorldSize pcpWorldSize
  | .crossAttention .. | .encoderOnlyAttention .. =>
    .error (.notImplementedError "CrossAttentionManager does not support caching")

end CustomAi.Vllm
