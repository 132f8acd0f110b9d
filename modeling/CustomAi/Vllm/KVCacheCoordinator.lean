import CustomAi.Vllm.CacheHit

/-!
# The coordinator of the KV cache groups

`vllm/v1/core/kv_cache_coordinator.py`.
-/

namespace CustomAi.Vllm

structure AttentionGroup where
  spec : KVCacheSpec
  groupIds : List ℕ
  deriving DecidableEq, Repr

/-- The subclasses of `KVCacheCoordinator` with the data they add. -/
inductive CoordinatorKind
  | noPrefixCache
  | unitary (kvCacheSpec : KVCacheSpec) (blockSize dcpWorldSize pcpWorldSize : ℕ)
  | hybrid (attentionGroups : List AttentionGroup) (lcmBlockSize hashBlockSize : ℕ)
  deriving DecidableEq, Repr

structure KVCacheCoordinator where
  kind : CoordinatorKind
  useEagle : Bool
  singleTypeManagers : List SingleTypeKVCacheManager
  blockPool : BlockPool

/-- The part of `KVCacheConfig` the scheduler uses: a spec for every group. -/
structure KVCacheConfig where
  numBlocks : ℕ
  kvCacheGroups : List KVCacheSpec
  deriving DecidableEq, Repr

namespace KVCacheCoordinator

/-- `get_manager_for_kv_cache_spec`. A sink manager takes its sink blocks out of the queue. -/
def getManagerForKvCacheSpec (kvCacheSpec : KVCacheSpec) (p : BlockPool) (enableCaching : Bool)
    (kvCacheGroupId dcpWorldSize pcpWorldSize : ℕ) :
    Except PyError (SingleTypeKVCacheManager × BlockPool) := do
  let m := SingleTypeKVCacheManager.new kvCacheSpec enableCaching kvCacheGroupId dcpWorldSize
    pcpWorldSize
  match kvCacheSpec with
  | .encoderOnlyAttention .. => .error .keyError
  | .sinkFullAttention _ _ _ _ sinkLen =>
    match sinkLen with
    | none => .error (.assertionError "")
    | some sinkLen =>
      ensure (sinkLen > 0 ∧ sinkLen % m.blockSize = 0) (.assertionError "")
      let (_, queue) ← p.freeBlockQueue.popleftN (sinkLen / m.blockSize)
      return (m, { p with freeBlockQueue := queue })
  | _ => return (m, p)

def newManagers (enableCaching : Bool) (dcpWorldSize pcpWorldSize : ℕ) :
    ℕ → List KVCacheSpec → BlockPool → Except PyError (List SingleTypeKVCacheManager × BlockPool)
  | _, [], p => .ok ([], p)
  | i, spec :: specs, p => do
    let (m, p) ← getManagerForKvCacheSpec spec p enableCaching i dcpWorldSize pcpWorldSize
    let (ms, p) ← newManagers enableCaching dcpWorldSize pcpWorldSize (i + 1) specs p
    return (m :: ms, p)

/-- Put the `i`-th group with the groups of the same spec. -/
def insertAttentionGroup (spec : KVCacheSpec) (i : ℕ) : List AttentionGroup → List AttentionGroup
  | [] => [⟨spec, [i]⟩]
  | g :: rest => if g.spec = spec then ⟨g.spec, g.groupIds ++ [i]⟩ :: rest
      else g :: insertAttentionGroup spec i rest

/-- The grouping loop of `verify_and_split_kv_cache_groups`, from the `i`-th group on. -/
def splitKvCacheGroups : ℕ → List KVCacheSpec → List AttentionGroup → List AttentionGroup
  | _, [], groups => groups
  | i, spec :: specs, groups =>
    splitKvCacheGroups (i + 1) specs (insertAttentionGroup spec i groups)

/-- `verify_and_split_kv_cache_groups`: full attention first, and the lcm of the block sizes. -/
def verifyAndSplitKvCacheGroups (kvCacheGroups : List KVCacheSpec) :
    Except PyError (List AttentionGroup × ℕ) := do
  let attentionGroups := splitKvCacheGroups 0 kvCacheGroups []
  ensure (attentionGroups.length > 1)
    (.assertionError "HybridKVCacheCoordinator requires at least two attention groups.")
  let isFull (g : AttentionGroup) : Bool := g.spec.isFullAttention
  return (attentionGroups.filter isFull ++ attentionGroups.filter (fun g => !isFull g),
    (attentionGroups.map (·.spec.blockSize)).foldl Nat.lcm 1)

/-- `get_kv_cache_coordinator` with the constructors it calls. -/
def getKvCacheCoordinator (kvCacheConfig : KVCacheConfig) (useEagle enableCaching
    enableKvCacheEvents useIntBlockHashes : Bool) (dcpWorldSize pcpWorldSize hashBlockSize : ℕ) :
    Except PyError KVCacheCoordinator := do
  let pool ← BlockPool.new kvCacheConfig.numBlocks enableCaching hashBlockSize enableKvCacheEvents
    useIntBlockHashes
  let (singleTypeManagers, blockPool) ← newManagers enableCaching dcpWorldSize pcpWorldSize 0
    kvCacheConfig.kvCacheGroups pool
  if enableCaching = false then
    return { kind := .noPrefixCache, useEagle, singleTypeManagers, blockPool }
  else
    match kvCacheConfig.kvCacheGroups with
    | [kvCacheSpec] =>
      let blockSize := kvCacheSpec.blockSize * (if dcpWorldSize > 1 then dcpWorldSize else 1) *
        (if pcpWorldSize > 1 then pcpWorldSize else 1)
      ensure (hashBlockSize = blockSize)
        (.assertionError "UnitaryKVCacheCoordinator assumes hash_block_size == block_size")
      return { kind := .unitary kvCacheSpec blockSize dcpWorldSize pcpWorldSize, useEagle,
               singleTypeManagers, blockPool }
    | kvCacheGroups =>
      ensure (∀ spec ∈ kvCacheGroups, spec.blockSize % hashBlockSize = 0)
        (.assertionError "block_size must be divisible by hash_block_size")
      ensure (dcpWorldSize = 1) (.assertionError "DCP not support hybrid attn now.")
      ensure (pcpWorldSize = 1) (.assertionError "PCP not support hybrid attn now.")
      let (attentionGroups, lcmBlockSize) ← verifyAndSplitKvCacheGroups kvCacheGroups
      return { kind := .hybrid attentionGroups lcmBlockSize hashBlockSize, useEagle,
               singleTypeManagers, blockPool }

/-- The entry of `new_computed_blocks` for the `i`-th group. -/
def blocksOfGroup (newComputedBlocks : List (List BlockId)) (i : ℕ) : List BlockId :=
  newComputedBlocks.getD i []

/-- `get_num_blocks_to_allocate`: the sum over the managers from the `i`-th on. -/
def getNumBlocksToAllocateFrom (p : BlockPool) (requestId : RequestId) (numTokens : ℕ)
    (newComputedBlocks : List (List BlockId)) (numEncoderTokens totalComputedTokens
    numTokensMainModel : ℕ) : ℕ → List SingleTypeKVCacheManager → Except PyError ℤ
  | _, [] => .ok 0
  | i, m :: ms => do
    -- cross-attention gets one static allocation for the encoder input tokens
    let numBlocks ← (if m.isCrossAttention then
        m.getNumBlocksToAllocate p requestId numEncoderTokens [] 0 numEncoderTokens
      else m.getNumBlocksToAllocate p requestId numTokens (blocksOfGroup newComputedBlocks i)
        totalComputedTokens numTokensMainModel)
    let rest ← getNumBlocksToAllocateFrom p requestId numTokens newComputedBlocks numEncoderTokens
      totalComputedTokens numTokensMainModel (i + 1) ms
    return numBlocks + rest

variable (c : KVCacheCoordinator)

/-- Run `f` on the managers in turn. -/
def forManagers {β : Type} (f : ℕ → SingleTypeKVCacheManager → BlockPool →
    Except PyError (β × SingleTypeKVCacheManager × BlockPool)) :
    Except PyError (List β × KVCacheCoordinator) := do
  let (bs, singleTypeManagers, blockPool) ← forEnum f 0 c.singleTypeManagers c.blockPool
  return (bs, { c with singleTypeManagers, blockPool })

def getNumBlocksToAllocate (requestId : RequestId) (numTokens : ℕ)
    (newComputedBlocks : List (List BlockId)) (numEncoderTokens totalComputedTokens
    numTokensMainModel : ℕ) : Except PyError ℤ :=
  getNumBlocksToAllocateFrom c.blockPool requestId numTokens newComputedBlocks numEncoderTokens
    totalComputedTokens numTokensMainModel 0 c.singleTypeManagers

def allocateNewComputedBlocks (requestId : RequestId) (newComputedBlocks : List (List BlockId))
    (numLocalComputedTokens numExternalComputedTokens : ℕ) : Except PyError KVCacheCoordinator := do
  let (_, c) ← c.forManagers fun i m p => do
    let (m, p) ← m.allocateNewComputedBlocks p requestId (blocksOfGroup newComputedBlocks i)
      numLocalComputedTokens numExternalComputedTokens
    return ((), m, p)
  return c

def allocateNewBlocks (requestId : RequestId) (numTokens numTokensMainModel numEncoderTokens : ℕ) :
    Except PyError (List (List BlockId) × KVCacheCoordinator) :=
  c.forManagers fun _ m p => m.allocateNewBlocks p requestId
    (if m.isCrossAttention then numEncoderTokens else numTokens) numTokensMainModel

def cacheBlocks (request : Request) (numComputedTokens : ℕ) :
    Except PyError KVCacheCoordinator := do
  let (_, c) ← c.forManagers fun _ m p => do
    let (m, p) ← m.cacheBlocks p request numComputedTokens
    return ((), m, p)
  return c

def free (requestId : RequestId) : Except PyError KVCacheCoordinator := do
  let (_, c) ← c.forManagers fun _ m p => .ok ((), m.free p requestId)
  return c

def removeSkippedBlocks (requestId : RequestId) (totalComputedTokens : ℕ) :
    Except PyError KVCacheCoordinator := do
  let (_, c) ← c.forManagers fun _ m p => do
    let (m, p) ← m.removeSkippedBlocks p requestId totalComputedTokens
    return ((), m, p)
  return c

variable {c} in
/-- A loop without results takes the steps of its managers. -/
lemma forManagers_steps {c' : KVCacheCoordinator} {f : ℕ → SingleTypeKVCacheManager → BlockPool →
    Except PyError (SingleTypeKVCacheManager × BlockPool)}
    (h : (do
      let (_, c) ← c.forManagers fun i m p => do
        let (m, p) ← f i m p
        return ((), m, p)
      return c) = .ok c') :
    ∃ (g : _) (bs : List Unit), c.forManagers g = .ok (bs, c') ∧
      ∀ {i m p b m' p'}, g i m p = .ok (b, m', p') → f i m p = .ok (m', p') := by
  obtain ⟨⟨bs, c₁⟩, hloop, hc⟩ := bind_eq_ok.mp h
  refine ⟨_, bs, Except.ok.inj hc ▸ hloop, fun {i m p b m' p'} hstep => ?_⟩
  obtain ⟨⟨m₁, p₁⟩, hf, hmp⟩ := bind_eq_ok.mp hstep
  obtain ⟨-, rfl, rfl⟩ := ok_triple_inj hmp
  exact hf

abbrev HitBlocksByGroup := ℕ → Option (List BlockId)

/-- `for group_id, blocks in zip(group_ids, hit_blocks)` -/
def setHitBlocks (byGroup : HitBlocksByGroup) (groupIds : List ℕ)
    (hitBlocks : List (List BlockId)) : HitBlocksByGroup :=
  (groupIds.zip hitBlocks).foldl (fun byGroup e => Function.update byGroup e.1 (some e.2)) byGroup

def hybridPass (p : BlockPool) (useEagle : Bool) (lcmBlockSize hashBlockSize : ℕ)
    (blockHashes : List BlockHash) : List AttentionGroup → ℕ → HitBlocksByGroup →
    Except PyError (ℕ × HitBlocksByGroup)
  | [], currHitLength, byGroup => .ok (currHitLength, byGroup)
  | g :: rest, currHitLength, byGroup => do
    if g.spec.isFullAttention ∧ (byGroup (g.groupIds.headD 0)).isSome then
      -- the blocks of the first scan are reused
      hybridPass p useEagle lcmBlockSize hashBlockSize blockHashes rest
        (currHitLength / g.spec.blockSize * g.spec.blockSize) byGroup
    else
      let hashes ← BlockPool.blockHashList blockHashes hashBlockSize g.spec.blockSize
      let hitBlocks ← findLongestCacheHit hashes currHitLength g.groupIds p g.spec useEagle
        lcmBlockSize 1 1
      hybridPass p useEagle lcmBlockSize hashBlockSize blockHashes rest
        (hitLength hitBlocks * g.spec.blockSize) (setHitBlocks byGroup g.groupIds hitBlocks)

/-- The fixed-point iteration, `while True` in the source; `fuel` above its first length is enough. -/
def hybridIterate (p : BlockPool) (useEagle : Bool) (lcmBlockSize hashBlockSize : ℕ)
    (blockHashes : List BlockHash) (attentionGroups : List AttentionGroup) (isSimpleHybrid : Bool) :
    ℕ → ℕ → HitBlocksByGroup → Except PyError (ℕ × HitBlocksByGroup)
  | 0, _, _ => .error (.runtimeError "out of fuel")
  | fuel + 1, hitLength, byGroup => do
    let (currHitLength, byGroup) ← hybridPass p useEagle lcmBlockSize hashBlockSize blockHashes
      attentionGroups hitLength byGroup
    if currHitLength ≥ hitLength then
      return (hitLength, byGroup)
    else if isSimpleHybrid then
      return (currHitLength, byGroup)
    else
      hybridIterate p useEagle lcmBlockSize hashBlockSize blockHashes attentionGroups
        isSimpleHybrid fuel currHitLength byGroup

def truncateFullAttention (attentionGroups : List AttentionGroup) (hitLength : ℕ)
    (byGroup : HitBlocksByGroup) : HitBlocksByGroup :=
  match attentionGroups with
  | [] => byGroup
  | g :: _ => if g.spec.isFullAttention then
      fun i => if i ∈ g.groupIds then (byGroup i).map (·.take (hitLength / g.spec.blockSize))
        else byGroup i
    else byGroup

/-- `HybridKVCacheCoordinator.find_longest_cache_hit` -/
def hybridFindLongestCacheHit (p : BlockPool) (useEagle : Bool) (numGroups : ℕ)
    (attentionGroups : List AttentionGroup) (lcmBlockSize hashBlockSize : ℕ)
    (blockHashes : List BlockHash) (maxCacheHitLength : ℕ) :
    Except PyError (List (List BlockId) × ℕ) := do
  let isSimpleHybrid : Bool := attentionGroups.length = 2 ∧
    (attentionGroups.head?.any (·.spec.isFullAttention))
  let (hitLength, byGroup) ← hybridIterate p useEagle lcmBlockSize hashBlockSize blockHashes
    attentionGroups isSimpleHybrid (maxCacheHitLength + 1) maxCacheHitLength (fun _ => none)
  let byGroup := truncateFullAttention attentionGroups hitLength byGroup
  return ((List.range numGroups).map (fun i => (byGroup i).getD []), hitLength)

def findLongestCacheHit (blockHashes : List BlockHash) (maxCacheHitLength : ℕ) :
    Except PyError (List (List BlockId) × ℕ) :=
  match c.kind with
  | .noPrefixCache => .ok (c.singleTypeManagers.map fun _ => [], 0)
  | .unitary kvCacheSpec blockSize dcpWorldSize pcpWorldSize => do
    let hitBlocks ← Vllm.findLongestCacheHit blockHashes maxCacheHitLength [0] c.blockPool
      kvCacheSpec c.useEagle blockSize dcpWorldSize pcpWorldSize
    return (hitBlocks, hitLength hitBlocks * blockSize)
  | .hybrid attentionGroups lcmBlockSize hashBlockSize =>
    hybridFindLongestCacheHit c.blockPool c.useEagle c.singleTypeManagers.length attentionGroups
      lcmBlockSize hashBlockSize blockHashes maxCacheHitLength

end KVCacheCoordinator

end CustomAi.Vllm
