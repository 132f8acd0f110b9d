import CustomAi.Vllm.OffloadBackend

/-!
# The ARC offloading manager

`vllm/v1/kv_offload/arc_manager.py` on a `CPUBackend`. The target size of T1 is a floating point
number, of which nothing but the arithmetic operations is assumed.
-/

namespace CustomAi.Vllm

/-- The numbers `target_t1_size` ranges over, with `int(x)`. -/
class TargetSize (F : Type) extends NatCast F, IntCast F, Add F, Sub F, Div F, Max F, Min F where
  toInt : F → ℤ

/-- Exact arithmetic, where `int(x)` cuts the fraction off. -/
instance : TargetSize ℚ where
  toInt q := q.num.tdiv q.den

structure ARCOffloadingManager (F : Type) where
  backend : CPUBackend
  targetT1Size : F
  t1 : OffloadedBlocks
  t2 : OffloadedBlocks
  /-- A ghost list only has keys. -/
  b1 : Dict BlockHash Unit
  b2 : Dict BlockHash Unit
  events : Option (List OffloadingEvent)
  cacheCapacity : ℤ

namespace ARCOffloadingManager

variable {F : Type} [TargetSize F]

/-- `ARCOffloadingManager.__init__` -/
def new (backend : CPUBackend) (enableEvents : Bool) : ARCOffloadingManager F :=
  { backend
    targetT1Size := ((0 : ℕ) : F)
    t1 := Dict.empty
    t2 := Dict.empty
    b1 := Dict.empty
    b2 := Dict.empty
    events := if enableEvents then some [] else none
    cacheCapacity := backend.getNumFreeBlocks }

/-- `self.t1.get(block_hash) or self.t2.get(block_hash)` -/
def get? (m : ARCOffloadingManager F) (blockHash : BlockHash) : Option CPUBlockStatus :=
  (m.t1.get? blockHash).or (m.t2.get? blockHash)

/-- A change to the block object that `get?` finds. -/
def setBlock (m : ARCOffloadingManager F) (blockHash : BlockHash) (block : CPUBlockStatus) :
    ARCOffloadingManager F :=
  if m.t1.contains blockHash then { m with t1 := m.t1.set blockHash block }
  else { m with t2 := m.t2.set blockHash block }

def lookup (m : ARCOffloadingManager F) : List BlockHash → ℕ
  | [] => 0
  | blockHash :: rest =>
    match m.get? blockHash with
    | none => 0
    | some block => if block.isReady then m.lookup rest + 1 else 0

def prepareLoadLoop : List BlockHash → ARCOffloadingManager F →
    Except PyError (List CPUBlockStatus × ARCOffloadingManager F)
  | [], m => .ok ([], m)
  | blockHash :: rest, m =>
    match m.get? blockHash with
    -- the messages also quote the hash
    | none => .error (.assertionError "Block not found in cache")
    | some block => do
      ensure (block.isReady = true) (.assertionError "Block is not ready for reading")
      let block := block.setRefCnt (block.refCnt + 1)
      let (blocks, m) ← prepareLoadLoop rest (m.setBlock blockHash block)
      return (block :: blocks, m)

def prepareLoad (m : ARCOffloadingManager F) (blockHashes : List BlockHash) :
    Except PyError (CPULoadStoreSpec × ARCOffloadingManager F) := do
  let (blocks, m) ← prepareLoadLoop blockHashes m
  return (CPUBackend.getLoadStoreSpec blocks, m)

/-- One round of the loop of `touch`. -/
def touchOne (m : ARCOffloadingManager F) (blockHash : BlockHash) :
    Except PyError (ARCOffloadingManager F) :=
  match m.t1.get? blockHash with
  | some block =>
    let t1 := m.t1.erase blockHash
    if block.isReady then .ok { m with t1, t2 := m.t2.set blockHash block }
    -- the key was popped just before
    else match t1.moveToEnd? blockHash with
      | none => .error .keyError
      | some t1 => .ok { m with t1 }
  | none =>
    match m.t2.moveToEnd? blockHash with
    | some t2 => .ok { m with t2 }
    | none =>
      match m.b1.moveToEnd? blockHash with
      | some b1 =>
        let delta := max ((1 : ℕ) : F) ((m.b2.size : F) / (m.b1.size : F))
        .ok { m with b1, targetT1Size := min (m.targetT1Size + delta) (m.cacheCapacity : F) }
      | none =>
        match m.b2.moveToEnd? blockHash with
        | some b2 =>
          let delta := max ((1 : ℕ) : F) ((m.b1.size : F) / (m.b2.size : F))
          .ok { m with b2, targetT1Size := max (m.targetT1Size - delta) ((0 : ℕ) : F) }
        | none => .ok m

def touchLoop : List BlockHash → ARCOffloadingManager F → Except PyError (ARCOffloadingManager F)
  | [], m => .ok m
  | blockHash :: rest, m => do
    let m ← m.touchOne blockHash
    touchLoop rest m

def touch (m : ARCOffloadingManager F) (blockHashes : List BlockHash) :
    Except PyError (ARCOffloadingManager F) := touchLoop blockHashes.reverse m

def completeLoadLoop : List BlockHash → ARCOffloadingManager F →
    Except PyError (ARCOffloadingManager F)
  | [], m => .ok m
  | blockHash :: rest, m =>
    match m.get? blockHash with
    | none => .error (.assertionError "Block not found")
    | some block => do
      ensure (block.refCnt > 0) (.assertionError "Block ref_cnt is already 0")
      completeLoadLoop rest (m.setBlock blockHash (block.setRefCnt (block.refCnt - 1)))

def completeLoad (m : ARCOffloadingManager F) (blockHashes : List BlockHash) :
    Except PyError (ARCOffloadingManager F) := completeLoadLoop blockHashes m

def findIdle (t : OffloadedBlocks) : Option (BlockHash × CPUBlockStatus) :=
  t.entries.find? fun e => e.2.refCnt = 0

/-- The block to evict, taken out of its cache and noted in the ghost list of that cache. -/
def evictOne (m : ARCOffloadingManager F) : Option (BlockHash × ARCOffloadingManager F) :=
  let fromT1 := if m.t1.size ≥ TargetSize.toInt m.targetT1Size then findIdle m.t1 else none
  match fromT1 with
  | some (blockHash, block) => some (blockHash, { m with
      t1 := m.t1.erase blockHash
      b1 := m.b1.set blockHash ()
      backend := m.backend.free block })
  | none =>
    match findIdle m.t2 with
    | some (blockHash, block) => some (blockHash, { m with
        t2 := m.t2.erase blockHash
        b2 := m.b2.set blockHash ()
        backend := m.backend.free block })
    | none => none

/-- The eviction loop of `prepare_store`: the evicted hashes, or `none`, and the manager. -/
def evictLoop : ℕ → ARCOffloadingManager F → Option (List BlockHash) × ARCOffloadingManager F
  | 0, m => (some [], m)
  | n + 1, m =>
    match m.evictOne with
    | none => (none, m)
    | some (blockHash, m) =>
      let (evicted, m) := evictLoop n m
      (evicted.map (blockHash :: ·), m)

def trimGhosts (m : ARCOffloadingManager F) (b : Dict BlockHash Unit) : Dict BlockHash Unit :=
  b.dropFirst (b.size - m.cacheCapacity).toNat

def insertLoop : List (BlockHash × CPUBlockStatus) → ARCOffloadingManager F →
    ARCOffloadingManager F
  | [], m => m
  | (blockHash, block) :: rest, m => insertLoop rest { m with
      t1 := m.t1.set blockHash block
      b1 := m.b1.erase blockHash
      b2 := m.b2.erase blockHash }

def prepareStore (m : ARCOffloadingManager F) (blockHashes : List BlockHash) :
    Except PyError (Option PrepareStoreOutput × ARCOffloadingManager F) := do
  let blockHashesToStore := blockHashes.filter fun blockHash => !m.t1.contains blockHash && !m.t2.contains blockHash
  if blockHashesToStore = [] then return (some ⟨[], CPUBackend.getLoadStoreSpec [], []⟩, m)
  let numBlocksToEvict := blockHashesToStore.length - m.backend.getNumFreeBlocks
  match evictLoop numBlocksToEvict.toNat m with
  | (none, m) => return (none, m)
  | (some toEvict, m) => do
    let m := { m with
      b1 := m.trimGhosts m.b1
      b2 := m.trimGhosts m.b2
      events := emitEvent m.events m.backend toEvict true }
    let (blocks, backend) ← m.backend.allocateBlocks blockHashesToStore
    ensure (blocks.length = blockHashesToStore.length)
      (.assertionError "Backend did not allocate the expected number of blocks")
    let m := insertLoop (blockHashesToStore.zip blocks) { m with backend }
    return (some ⟨blockHashesToStore, CPUBackend.getLoadStoreSpec blocks, toEvict⟩, m)

/-- The loop of `complete_store` after a success, with the hashes it marks as stored. -/
def storedLoop : List BlockHash → ARCOffloadingManager F →
    List BlockHash × ARCOffloadingManager F
  | [], m => ([], m)
  | blockHash :: rest, m =>
    match m.get? blockHash with
    | none => storedLoop rest m
    | some block =>
      if block.isReady then storedLoop rest m
      else
        let (stored, m) := storedLoop rest (m.setBlock blockHash (block.setRefCnt 0))
        (blockHash :: stored, m)

/-- One round of the loop of `complete_store` after a failure. -/
def failOne (m : ARCOffloadingManager F) (blockHash : BlockHash) : ARCOffloadingManager F :=
  match m.t1.get? blockHash with
  | some block =>
    let m := { m with t1 := m.t1.erase blockHash }
    if block.isReady then m else { m with backend := m.backend.free block }
  | none =>
    match m.t2.get? blockHash with
    | some block =>
      let m := { m with t2 := m.t2.erase blockHash }
      if block.isReady then m else { m with backend := m.backend.free block }
    | none => m

def completeStore (m : ARCOffloadingManager F) (blockHashes : List BlockHash) (success : Bool) :
    ARCOffloadingManager F :=
  if success then
    let (stored, m) := storedLoop blockHashes m
    { m with events := emitEvent m.events m.backend stored false }
  else blockHashes.foldl failOne m

end ARCOffloadingManager

structure ARCRun (F : Type) where
  manager : ARCOffloadingManager F
  transfers : Transfers

namespace ARCRun

variable {F : Type} [TargetSize F]

def new (blockSize numBlocks : ℕ) (enableEvents : Bool) : ARCRun F :=
  ⟨.new (.new blockSize numBlocks) enableEvents, {}⟩

def step (s : ARCRun F) : OffloadOp → Except PyError (ARCRun F)
  | .lookup _ => .ok s
  | .touch blockHashes => do
    let manager ← s.manager.touch blockHashes
    return { s with manager }
  | .prepareStore blockHashes => do
    let (out, manager) ← s.manager.prepareStore blockHashes
    return ⟨manager, out.elim s.transfers s.transfers.prepared⟩
  | .completeStore blockHashes success =>
    .ok ⟨s.manager.completeStore blockHashes success, s.transfers.completed blockHashes success⟩
  | .prepareLoad blockHashes => do
    let (_, manager) ← s.manager.prepareLoad blockHashes
    return ⟨manager, { s.transfers with loading := s.transfers.loading + blockHashes }⟩
  | .completeLoad blockHashes => do
    let manager ← s.manager.completeLoad blockHashes
    return ⟨manager, { s.transfers with loading := s.transfers.loading - blockHashes }⟩

end ARCRun

end CustomAi.Vllm
