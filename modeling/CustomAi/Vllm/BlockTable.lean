import CustomAi.Lib.Interleave
import CustomAi.Lib.Run

/-!
# Block tables

`BlockTable` of `vllm/v1/worker/block_table.py`: the rows of block ids of the requests, split into
blocks of the kernel, and the slots of the tokens of a batch.
-/

namespace CustomAi.Vllm

/-- The arguments of `BlockTable` and the sizes of the context parallel groups. -/
structure BlockTableConfig where
  blockSize : ℕ
  maxNumReqs : ℕ
  maxNumBlocksPerReq : ℕ
  maxNumBatchedTokens : ℕ
  kernelBlockSize : ℕ
  cpKvCacheInterleaveSize : ℕ
  pcpWorldSize : ℕ
  dcpWorldSize : ℕ
  kernelBlockSize_pos : 0 < kernelBlockSize

structure CpRank (config : BlockTableConfig) where
  pcpRank : Fin config.pcpWorldSize
  dcpRank : Fin config.dcpWorldSize

structure BlockTable (config : BlockTableConfig) where
  rank : CpRank config
  blockSize : ℕ
  blocksPerKvBlock : ℕ
  useHybridBlocks : Bool
  maxNumBlocksPerReq : ℕ
  blockTable : ℕ → ℕ → ℤ
  numBlocksPerRow : ℕ → ℕ
  slotMapping : List ℤ

def int32 (x : ℤ) : ℤ := Int.bmod x (2 ^ 32)

def mapToKernelBlocks (kvManagerBlockIds : List ℕ) (blocksPerKvBlock : ℕ) : List ℕ :=
  if blocksPerKvBlock = 1 then kvManagerBlockIds
  else kvManagerBlockIds.flatMap fun id =>
    (List.range blocksPerKvBlock).map fun i => id * blocksPerKvBlock + i

/-- Whether `array[start : start + count] = values` writes them; an empty slice takes a single
value. -/
def sliceWrites (size start count : ℕ) : Except PyError Bool :=
  let slice := min size (start + count) - min size start
  if slice = count then .ok true
  else if count = 1 then .ok false
  else .error (.valueError "could not broadcast input array")

namespace BlockTable

variable {config : BlockTableConfig}

def empty (rank : CpRank config) (blockSize blocksPerKvBlock : ℕ) (useHybridBlocks : Bool) :
    BlockTable config where
  rank := rank
  blockSize := blockSize
  blocksPerKvBlock := blocksPerKvBlock
  useHybridBlocks := useHybridBlocks
  maxNumBlocksPerReq := config.maxNumBlocksPerReq * blocksPerKvBlock
  blockTable := fun _ _ => 0
  numBlocksPerRow := fun _ => 0
  slotMapping := List.replicate config.maxNumBatchedTokens 0

def new (config : BlockTableConfig) (rank : CpRank config) : Except PyError (BlockTable config) :=
  if config.kernelBlockSize = config.blockSize then .ok (empty rank config.blockSize 1 false)
  else if config.blockSize % config.kernelBlockSize ≠ 0 then
    .error (.valueError (s!"kernel_block_size {config.kernelBlockSize} must divide " ++
      s!"kv_manager_block_size size {config.blockSize} evenly"))
  else .ok (empty rank config.kernelBlockSize (config.blockSize / config.kernelBlockSize) true)

/-- The stored block ids: a list is checked for the range, an array is cut to 32 bits. -/
def rowValues (t : BlockTable config) (blockIds : List ℕ) : Except PyError (List ℤ) :=
  if t.useHybridBlocks then
    .ok ((mapToKernelBlocks blockIds t.blocksPerKvBlock).map fun id : ℕ => int32 id)
  else do
    ensure (∀ id ∈ blockIds, id < 2 ^ 31) .overflowError
    return blockIds.map fun id : ℕ => (id : ℤ)

def appendRow (t : BlockTable config) (blockIds : List ℕ) (rowIdx : ℕ) :
    Except PyError (BlockTable config) := do
  if blockIds = [] then return t
  ensure (rowIdx < config.maxNumReqs) .indexError
  let values ← t.rowValues blockIds
  let start := t.numBlocksPerRow rowIdx
  let written ← sliceWrites t.maxNumBlocksPerReq start values.length
  return { t with
    numBlocksPerRow := Function.update t.numBlocksPerRow rowIdx (start + values.length)
    blockTable := Function.update t.blockTable rowIdx fun i =>
      if written ∧ start ≤ i then values[i - start]?.getD (t.blockTable rowIdx i)
      else t.blockTable rowIdx i }

def addRow (t : BlockTable config) (blockIds : List ℕ) (rowIdx : ℕ) :
    Except PyError (BlockTable config) := do
  ensure (rowIdx < config.maxNumReqs) .indexError
  appendRow { t with numBlocksPerRow := Function.update t.numBlocksPerRow rowIdx 0 } blockIds rowIdx

def moveRow (t : BlockTable config) (src tgt : ℕ) : Except PyError (BlockTable config) := do
  ensure (src < config.maxNumReqs ∧ tgt < config.maxNumReqs) .indexError
  let numBlocks := t.numBlocksPerRow src
  return { t with
    blockTable := Function.update t.blockTable tgt fun i =>
      if i < numBlocks then t.blockTable src i else t.blockTable tgt i
    numBlocksPerRow := Function.update t.numBlocksPerRow tgt numBlocks }

def swapRow (t : BlockTable config) (src tgt : ℕ) : Except PyError (BlockTable config) := do
  ensure (src < config.maxNumReqs ∧ tgt < config.maxNumReqs) .indexError
  return { t with
    numBlocksPerRow := t.numBlocksPerRow ∘ Equiv.swap src tgt
    blockTable := t.blockTable ∘ Equiv.swap src tgt }

/-- `block_table.np.ravel()[index]` -/
def ravel (t : BlockTable config) (index : ℕ) : Except PyError ℤ := do
  ensure (index < config.maxNumReqs * t.maxNumBlocksPerReq) .indexError
  return t.blockTable (index / t.maxNumBlocksPerReq) (index % t.maxNumBlocksPerReq)

def totalCpWorldSize (config : BlockTableConfig) : ℕ := config.pcpWorldSize * config.dcpWorldSize

def totalCpRank (t : BlockTable config) : ℕ :=
  t.rank.pcpRank * config.dcpWorldSize + t.rank.dcpRank

/-- The entry of `block_table_indices` for one token. -/
def blockTableIndex (t : BlockTable config) (reqIndex position : ℕ) : ℕ :=
  if 1 < totalCpWorldSize config then
    reqIndex * t.maxNumBlocksPerReq + position / (t.blockSize * totalCpWorldSize config)
  else reqIndex * t.maxNumBlocksPerReq + position / t.blockSize

def slot (t : BlockTable config) (position : ℕ) (blockNumber : ℤ) : ℤ :=
  let totalCpWorldSize := totalCpWorldSize config
  let interleave := config.cpKvCacheInterleaveSize
  if 1 < totalCpWorldSize then
    let virtualBlockOffset := position % (t.blockSize * totalCpWorldSize)
    if virtualBlockOffset / interleave % totalCpWorldSize = t.totalCpRank then
      let blockOffset := virtualBlockOffset / (totalCpWorldSize * interleave) * interleave +
        virtualBlockOffset % interleave
      int32 (blockNumber * t.blockSize) + blockOffset
    else -1
  else int32 (blockNumber * t.blockSize) + (position % t.blockSize : ℕ)

/-- `compute_slot_mapping` for the pairs of `req_indices` and `positions` -/
def computeSlotMapping (t : BlockTable config) (tokens : List (ℕ × ℕ)) :
    Except PyError (BlockTable config) := do
  let blockNumbers ← tokens.mapM fun token => t.ravel (t.blockTableIndex token.1 token.2)
  ensure (t.blockSize < 2 ^ 31) .overflowError
  let slots := List.zipWith (fun token => t.slot token.2) tokens blockNumbers
  let written ← sliceWrites config.maxNumBatchedTokens 0 slots.length
  return if written then { t with slotMapping := slots ++ t.slotMapping.drop slots.length } else t

end BlockTable

inductive RowOp
  | append (blockIds : List ℕ) (rowIdx : ℕ)
  | add (blockIds : List ℕ) (rowIdx : ℕ)
  | move (src tgt : ℕ)
  | swap (src tgt : ℕ)

variable {config : BlockTableConfig}

def BlockTable.call (t : BlockTable config) : RowOp → Except PyError (BlockTable config)
  | .append blockIds rowIdx => t.appendRow blockIds rowIdx
  | .add blockIds rowIdx => t.addRow blockIds rowIdx
  | .move src tgt => t.moveRow src tgt
  | .swap src tgt => t.swapRow src tgt

def RowOp.rows (rows : ℕ → List ℕ) : RowOp → ℕ → List ℕ
  | .append blockIds rowIdx => Function.update rows rowIdx (rows rowIdx ++ blockIds)
  | .add blockIds rowIdx => Function.update rows rowIdx blockIds
  | .move src tgt => Function.update rows tgt (rows src)
  | .swap src tgt => rows ∘ Equiv.swap src tgt

end CustomAi.Vllm
