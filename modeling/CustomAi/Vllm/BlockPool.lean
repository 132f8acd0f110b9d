import CustomAi.Lib.Dict
import CustomAi.Lib.Ledger
import CustomAi.Vllm.BlockHasher

/-!
# The block pool

`KVCacheBlock` and `FreeKVCacheBlockQueue` of `vllm/v1/core/kv_cache_utils.py` and all of
`vllm/v1/core/block_pool.py`. A block object is represented by its `block_id`, its index in
`BlockPool.blocks`. The doubly linked free list is represented by the list that following its
links spells out, with the separately kept counter `num_free_blocks`.
-/

namespace CustomAi.Vllm

abbrev BlockId := ℕ

abbrev BlockHashWithGroupId := Bytes

/-- `group_id.to_bytes(4, "big", signed=False)` -/
def groupIdBytes (groupId : ℕ) : Bytes :=
  [UInt8.ofNat (groupId / 2 ^ 24), UInt8.ofNat (groupId / 2 ^ 16), UInt8.ofNat (groupId / 2 ^ 8),
    UInt8.ofNat groupId]

def makeBlockHashWithGroupId (blockHash : BlockHash) (groupId : ℕ) :
    Except PyError BlockHashWithGroupId :=
  if groupId < 2 ^ 32 then .ok (blockHash ++ groupIdBytes groupId) else .error .overflowError

def getBlockHash (key : BlockHashWithGroupId) : BlockHash := key.take (key.length - 4)

inductive ExternalBlockHash
  | bytes (b : Bytes)
  | int (n : ℕ)
  deriving DecidableEq, Repr

/-- `maybe_convert_block_hash`, for either value of `VLLM_KV_EVENTS_USE_INT_BLOCK_HASHES`. -/
def maybeConvertBlockHash (useIntBlockHashes : Bool) (hashBytes : BlockHash) : ExternalBlockHash :=
  if useIntBlockHashes then
    .int (hashBytes.foldl (fun n b => n * 256 + b.toNat) 0 % 2 ^ 64)
  else .bytes hashBytes

inductive KVCacheEvent
  | blockStored (blockHashes : List ExternalBlockHash) (parentBlockHash : Option ExternalBlockHash)
      (tokenIds : List TokenId) (blockSize : ℕ) (loraId : Option ℕ) (medium : String)
      (loraName : Option String)
  | blockRemoved (blockHashes : List ExternalBlockHash) (medium : String)
  | allBlocksCleared
  deriving DecidableEq, Repr

def mediumGpu : String := "GPU"

structure KVCacheBlock where
  refCnt : ℤ := 0
  blockHash : Option BlockHashWithGroupId := none
  isNull : Bool := false
  deriving DecidableEq, Repr

def KVCacheBlock.resetHash (b : KVCacheBlock) : KVCacheBlock := { b with blockHash := none }

structure FreeKVCacheBlockQueue where
  blocks : List BlockId
  numFreeBlocks : ℤ
  deriving DecidableEq, Repr

namespace FreeKVCacheBlockQueue

def new (blocks : List BlockId) : FreeKVCacheBlockQueue := ⟨blocks, blocks.length⟩

def popleft (q : FreeKVCacheBlockQueue) : Except PyError (BlockId × FreeKVCacheBlockQueue) :=
  match q.blocks with
  | [] => .error (if q.numFreeBlocks = 0 then .valueError "No free blocks available"
      else .assertionError s!"num_free_blocks ({q.numFreeBlocks}) is out of sync with the free list.")
  | b :: rest => .ok (b, ⟨rest, q.numFreeBlocks - 1⟩)

/-- `popleft_n`. A negative `n` passes the assertion, changes the counter and pops nothing. -/
def popleftN (q : FreeKVCacheBlockQueue) (n : ℤ) :
    Except PyError (List BlockId × FreeKVCacheBlockQueue) := do
  if n = 0 then return ([], q)
  ensure (q.numFreeBlocks ≥ n) (.assertionError "")
  -- Past the last block. With the counter one too high the source hands out its fake tail instead.
  ensure (n ≤ q.blocks.length) (.assertionError "")
  return (q.blocks.take n.toNat, ⟨q.blocks.drop n.toNat, q.numFreeBlocks - n⟩)

def remove (q : FreeKVCacheBlockQueue) (b : BlockId) : Except PyError FreeKVCacheBlockQueue := do
  ensure (b ∈ q.blocks) (.runtimeError "remove() called on an invalid block")
  return ⟨q.blocks.erase b, q.numFreeBlocks - 1⟩

def appendN (q : FreeKVCacheBlockQueue) (blocks : List BlockId) : FreeKVCacheBlockQueue :=
  ⟨q.blocks ++ blocks, q.numFreeBlocks + blocks.length⟩

end FreeKVCacheBlockQueue

/-- What one key of `BlockHashToBlockMap._cache` stores: a bare block, or a dictionary from
block ids to blocks. -/
inductive CachedBlocks
  | single (block : BlockId)
  | many (blocks : Dict BlockId BlockId)
  deriving DecidableEq

structure BlockHashToBlockMap where
  cache : Dict BlockHashWithGroupId CachedBlocks
  deriving DecidableEq

namespace BlockHashToBlockMap

def new : BlockHashToBlockMap := ⟨Dict.empty⟩

/-- The first block of a dictionary is `next(iter(blocks.values()))`, which an empty one does
not have. -/
def getOneBlock (m : BlockHashToBlockMap) (key : BlockHashWithGroupId) : Option BlockId :=
  match m.cache.get? key with
  | none => none
  | some (.single block) => some block
  | some (.many blocks) => blocks.values.head?

def insert (m : BlockHashToBlockMap) (key : BlockHashWithGroupId) (block : BlockId) :
    BlockHashToBlockMap :=
  match m.cache.get? key with
  | none => ⟨m.cache.set key (.single block)⟩
  | some (.single b) => ⟨m.cache.set key (.many ((Dict.empty.set b b).set block block))⟩
  | some (.many blocks) => ⟨m.cache.set key (.many (blocks.set block block))⟩

/-- `pop`: the entry is taken out and put back if it does not become empty. -/
def pop (m : BlockHashToBlockMap) (key : BlockHashWithGroupId) (blockId : BlockId) :
    Option BlockId × BlockHashToBlockMap :=
  let rest := m.cache.erase key
  match m.cache.get? key with
  | none => (none, m)
  | some (.single block) =>
    if block = blockId then (some block, ⟨rest⟩) else (none, ⟨rest.set key (.single block)⟩)
  | some (.many blocks) =>
    let left := blocks.erase blockId
    (blocks.get? blockId, if left.size > 0 then ⟨rest.set key (.many left)⟩ else ⟨rest⟩)

end BlockHashToBlockMap

/-- The block `BlockPool.__init__` pops from the fresh queue as a placeholder. -/
def nullBlock : BlockId := 0

structure BlockPool where
  numGpuBlocks : ℕ
  enableCaching : Bool
  hashBlockSize : ℕ
  blocks : BlockId → KVCacheBlock
  freeBlockQueue : FreeKVCacheBlockQueue
  cachedBlockHashToBlock : BlockHashToBlockMap
  enableKvCacheEvents : Bool := false
  useIntBlockHashes : Bool := false
  kvEventQueue : List KVCacheEvent := []

namespace BlockPool

def modifyBlock (p : BlockPool) (b : BlockId) (f : KVCacheBlock → KVCacheBlock) : BlockPool :=
  { p with blocks := Function.update p.blocks b (f (p.blocks b)) }

/-- `BlockPool.__init__` -/
def new (numGpuBlocks : ℕ) (enableCaching : Bool) (hashBlockSize : ℕ)
    (enableKvCacheEvents useIntBlockHashes : Bool) : Except PyError BlockPool := do
  ensure (numGpuBlocks > 0) (.assertionError "")
  let queue := FreeKVCacheBlockQueue.new (List.range numGpuBlocks)
  let (null, queue) ← queue.popleft
  let pool : BlockPool :=
    { numGpuBlocks, enableCaching, hashBlockSize, enableKvCacheEvents, useIntBlockHashes
      blocks := fun _ => {}
      freeBlockQueue := queue
      cachedBlockHashToBlock := BlockHashToBlockMap.new }
  return pool.modifyBlock null (fun b => { b with isNull := true })

def getNumFreeBlocks (p : BlockPool) : ℤ := p.freeBlockQueue.numFreeBlocks

/-- `get_cached_block`: a block for every group, or `none` if some group misses. -/
def getCachedBlock (p : BlockPool) (blockHash : BlockHash) :
    List ℕ → Except PyError (Option (List BlockId))
  | [] => .ok (some [])
  | groupId :: rest => do
    let key ← makeBlockHashWithGroupId blockHash groupId
    match p.cachedBlockHashToBlock.getOneBlock key with
    | none => return none
    | some block =>
      let blocks ← p.getCachedBlock blockHash rest
      return blocks.map (block :: ·)

/-- The loop of `cache_full_blocks` over the new full blocks and their hashes. -/
def cacheFullBlocksLoop (groupId : ℕ) : List BlockId → List BlockHash → BlockPool →
    Except PyError (List ExternalBlockHash × BlockPool)
  | [], _, p => .ok ([], p)
  | blk :: rest, hashes, p =>
    -- null blocks stand for positions that attention skips
    if (p.blocks blk).isNull then cacheFullBlocksLoop groupId rest hashes.tail p
    else do
      ensure ((p.blocks blk).blockHash = none) (.assertionError "")
      match hashes with
      | [] => .error .indexError
      | blockHash :: hashes' =>
        let key ← makeBlockHashWithGroupId blockHash groupId
        let p := p.modifyBlock blk (fun b => { b with blockHash := some key })
        let p := { p with cachedBlockHashToBlock := p.cachedBlockHashToBlock.insert key blk }
        let (newHashes, p) ← cacheFullBlocksLoop groupId rest hashes' p
        return (maybeConvertBlockHash p.useIntBlockHashes blockHash :: newHashes, p)

/-- `BlockHashListWithBlockSize`: the hashes of `scaleFactor` blocks are concatenated, a remainder
is dropped. -/
def blockHashListWithBlockSize (blockHashes : List BlockHash) (scaleFactor : ℕ) : List BlockHash :=
  (List.range (blockHashes.length / scaleFactor)).map
    (fun idx => ((blockHashes.drop (idx * scaleFactor)).take scaleFactor).flatten)

/-- The block hashes at the granularity of `blockSize`. -/
def blockHashList (blockHashes : List BlockHash) (hashBlockSize blockSize : ℕ) :
    Except PyError (List BlockHash) := do
  if blockSize = hashBlockSize then return blockHashes
  ensure (blockSize % hashBlockSize = 0) (.assertionError "")
  return blockHashListWithBlockSize blockHashes (blockSize / hashBlockSize)

def cacheFullBlocks (p : BlockPool) (request : Request) (blocks : List BlockId)
    (numCachedBlocks numFullBlocks blockSize kvCacheGroupId : ℕ) : Except PyError BlockPool := do
  if numCachedBlocks ≥ numFullBlocks then return p
  let newFullBlocks := (blocks.take numFullBlocks).drop numCachedBlocks
  ensure (request.blockHashes.length ≥ numFullBlocks) (.assertionError "")
  let blockHashes ← blockHashList request.blockHashes p.hashBlockSize blockSize
  let (newHashes, p) ←
    cacheFullBlocksLoop kvCacheGroupId newFullBlocks (blockHashes.drop numCachedBlocks) p
  if p.enableKvCacheEvents then
    let parentBlockHash ← (if numCachedBlocks = 0 then pure none else
      match blockHashes[numCachedBlocks - 1]? with
      | none => .error .indexError
      | some h => pure (some (maybeConvertBlockHash p.useIntBlockHashes h)))
    let event := KVCacheEvent.blockStored newHashes parentBlockHash
      ((request.allTokenIds.take (numFullBlocks * blockSize)).drop (numCachedBlocks * blockSize))
      blockSize (request.loraRequest.map (·.loraIntId)) mediumGpu
      (request.loraRequest.map (·.loraName))
    return { p with kvEventQueue := p.kvEventQueue ++ [event] }
  else return p

def maybeEvictCachedBlock (p : BlockPool) (block : BlockId) : Bool × BlockPool :=
  match (p.blocks block).blockHash with
  | none => (false, p)
  | some blockHash =>
    let (popped, map) := p.cachedBlockHashToBlock.pop blockHash block
    let p := { p with cachedBlockHashToBlock := map }
    match popped with
    | none => (false, p)
    | some _ =>
      let p := p.modifyBlock block KVCacheBlock.resetHash
      let event := KVCacheEvent.blockRemoved
        [maybeConvertBlockHash p.useIntBlockHashes (getBlockHash blockHash)] mediumGpu
      (true, if p.enableKvCacheEvents then { p with kvEventQueue := p.kvEventQueue ++ [event] }
        else p)

/-- The loop of `get_new_blocks` over the popped blocks. -/
def getNewBlocksLoop : List BlockId → BlockPool → Except PyError BlockPool
  | [], p => .ok p
  | block :: rest, p => do
    let p := if p.enableCaching then (p.maybeEvictCachedBlock block).2 else p
    ensure ((p.blocks block).refCnt = 0) (.assertionError "")
    getNewBlocksLoop rest (p.modifyBlock block (fun b => { b with refCnt := b.refCnt + 1 }))

def getNewBlocks (p : BlockPool) (numBlocks : ℤ) : Except PyError (List BlockId × BlockPool) := do
  ensure (numBlocks ≤ p.getNumFreeBlocks)
    (.valueError s!"Cannot get {numBlocks} free blocks from the pool")
  let (ret, queue) ← p.freeBlockQueue.popleftN numBlocks
  let p ← getNewBlocksLoop ret { p with freeBlockQueue := queue }
  return (ret, p)

def touch : List BlockId → BlockPool → Except PyError BlockPool
  | [], p => .ok p
  | block :: rest, p => do
    let queue ← (if (p.blocks block).refCnt = 0 ∧ (p.blocks block).isNull = false then
      p.freeBlockQueue.remove block else pure p.freeBlockQueue)
    let p := { p with freeBlockQueue := queue }
    touch rest (p.modifyBlock block (fun b => { b with refCnt := b.refCnt + 1 }))

/-- The first loop of `free_blocks`. -/
def decrementRefCnts (p : BlockPool) (blocks : List BlockId) : BlockPool :=
  blocks.foldl (fun p block => p.modifyBlock block (fun b => { b with refCnt := b.refCnt - 1 })) p

def freeBlocks (p : BlockPool) (orderedBlocks : List BlockId) : BlockPool :=
  let p := p.decrementRefCnts orderedBlocks
  let released := orderedBlocks.filter (fun b => decide ((p.blocks b).refCnt = 0) && !(p.blocks b).isNull)
  { p with freeBlockQueue := p.freeBlockQueue.appendN released }

/-- `evict_blocks`. The set of ids is iterated in an arbitrary order. -/
def evictBlocks : List BlockId → BlockPool → Except PyError BlockPool
  | [], p => .ok p
  | blockId :: rest, p => do
    ensure (blockId < p.numGpuBlocks)
      (.assertionError s!"Invalid block_id {blockId} >= {p.numGpuBlocks}.")
    evictBlocks rest (p.maybeEvictCachedBlock blockId).2

/-- `reset_prefix_cache`. Only the null block may be in use. -/
def resetPrefixCache (p : BlockPool) : Bool × BlockPool :=
  let numUsedBlocks := p.numGpuBlocks - p.getNumFreeBlocks
  if numUsedBlocks ≠ 1 then (false, p)
  else
    let p := { p with
      cachedBlockHashToBlock := BlockHashToBlockMap.new
      blocks := fun b => (p.blocks b).resetHash }
    (true, if p.enableKvCacheEvents then
      { p with kvEventQueue := p.kvEventQueue ++ [.allBlocksCleared] } else p)

end BlockPool

end CustomAi.Vllm
