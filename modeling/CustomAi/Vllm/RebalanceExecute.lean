import CustomAi.Lib.Except
import CustomAi.Lib.SortedGroups

/-!
# Moving expert weights

`move_to_buffer` and `move_from_buffer` of `vllm/distributed/eplb/rebalance_execute.py`, and the
communication between them. A mask is a function of the local row.
-/

namespace CustomAi.Vllm

/-- `expert_weights` of one rank: for each tensor and each local row. -/
abbrev ExpertWeights (W : Type) := ℕ → ℕ → W

/-- `P2POp`: the row of a tensor, and the global rank of the peer. -/
inductive P2POp
  | isend (tensor row peer : ℕ)
  | irecv (tensor row peer : ℕ)

/-- `ProcessGroup`, with `get_global_rank`. -/
structure EpGroup where
  size : ℕ
  getGlobalRank : ℕ → ℕ

/-- The entries of `recv_expert_ids` and `recv_dst_rows` from `recv_count` on, which are not read,
are left out. -/
structure RecvMetadata where
  recvPrimaryMask : ℕ → Bool
  recvCount : ℕ
  recvExpertIds : List ℤ
  recvDstRows : List ℕ

structure MoveToBufferResult where
  isUnchanged : ℕ → Bool
  isReceivedLocally : ℕ → Bool
  recvMetadata : RecvMetadata

/-- The experts of `uniqueExperts` in `indices`, each with its ranks in the order of their first
positions. -/
def expertRanks (uniqueExperts : List ℤ) (numLocalExperts : ℕ) (indices : List ℤ) :
    List (ℤ × List ℕ) :=
  let relevant := indices.zipIdx.filter fun x => x.1 ∈ uniqueExperts
  let sorted := relevant.mergeSort lexLe
  (runs (sorted.map fun x => (x.1, x.2 / numLocalExperts))).map fun x =>
    (x.1, uniqueInOrder x.2)

def addMissing (uniqueExperts : List ℤ) (d : Dict ℤ (List ℕ)) : Dict ℤ (List ℕ) :=
  uniqueExperts.foldl (fun d expert => if d.contains expert then d else d.set expert []) d

def getEpRanksWithExpertsBatch (expertIds : List ℤ) (numLocalExperts : ℕ)
    (oldIndices newIndices : List ℤ) : Dict ℤ (List ℕ) × Dict ℤ (List ℕ) :=
  if expertIds = [] then (.empty, .empty)
  else
    let uniqueExperts := (npUnique expertIds).map Prod.fst
    let ranksToSendMap := dictOf (expertRanks uniqueExperts numLocalExperts oldIndices)
    -- ranks with local copies need not receive
    let ranksToRecvMap := dictOf ((expertRanks uniqueExperts numLocalExperts newIndices).map
      fun x => (x.1, x.2.filter fun r => r ∉ (ranksToSendMap.get? x.1).getD []))
    (addMissing uniqueExperts ranksToSendMap, addMissing uniqueExperts ranksToRecvMap)

def recvRanksOf (ranksToSend ranksToRecv : List ℕ) (epRank : ℕ) : Except PyError (List ℕ) :=
  let numDstPerSender := ranksToRecv.length / ranksToSend.length
  match ranksToSend.idxOf? epRank with
  | none => .error (.valueError s!"{epRank} is not in list")
  | some senderPos =>
    let recvRanks := (ranksToRecv.drop (senderPos * numDstPerSender)).take numDstPerSender
    let remainderStart := ranksToSend.length * numDstPerSender
    match ranksToRecv[remainderStart + senderPos]? with
    | some dst => .ok (recvRanks ++ [dst])
    | none => .ok recvRanks

def sendRankOf (ranksToSend ranksToRecv : List ℕ) (epRank : ℕ) : Except PyError ℕ :=
  let numDstPerSender := ranksToRecv.length / ranksToSend.length
  match ranksToRecv.idxOf? epRank with
  | none => .error (.valueError s!"{epRank} is not in list")
  | some recverPos =>
    let remainderStart := ranksToSend.length * numDstPerSender
    let src := if recverPos < remainderStart then ranksToSend[recverPos / numDstPerSender]?
      else ranksToSend[recverPos - remainderStart]?
    match src with
    | none => .error .indexError
    | some src => .ok src

/-- `rank_to_global[rank]` -/
def EpGroup.rankToGlobal (group : EpGroup) (rank : ℕ) : Except PyError ℕ :=
  if rank < group.size then .ok (group.getGlobalRank rank) else .error .keyError

/-- `send_map[expert]` or `recv_map[expert]` -/
def ranksOf (d : Dict ℤ (List ℕ)) (expert : ℤ) : Except PyError (List ℕ) :=
  match d.get? expert with
  | none => .error .keyError
  | some ranks => .ok ranks

/-- The sends of one expert, from its row `src`. -/
def postSend (numTensors : ℕ) (group : EpGroup) (epRank : ℕ)
    (maps : Dict ℤ (List ℕ) × Dict ℤ (List ℕ)) (x : ℤ × ℕ) : Except PyError (List P2POp) := do
  let ranksToSend ← ranksOf maps.1 x.1
  let ranksToRecv ← ranksOf maps.2 x.1
  if ranksToSend = [] ∨ ranksToRecv = [] then
    return []
  else
    let recvRanks ← recvRanksOf ranksToSend ranksToRecv epRank
    let peers ← recvRanks.mapM group.rankToGlobal
    return peers.flatMap fun peer => (List.range numTensors).map fun t => .isend t x.2 peer

/-- The receives of one expert, into its row `dst` of the buffers. -/
def postRecv (numTensors : ℕ) (group : EpGroup) (epRank : ℕ)
    (maps : Dict ℤ (List ℕ) × Dict ℤ (List ℕ)) (x : ℤ × ℕ) : Except PyError (List P2POp) := do
  let ranksToSend ← ranksOf maps.1 x.1
  let ranksToRecv ← ranksOf maps.2 x.1
  if ranksToSend = [] ∨ ranksToRecv = [] then
    return []
  else
    let src ← sendRankOf ranksToSend ranksToRecv epRank
    let peer ← group.rankToGlobal src
    return (List.range numTensors).map fun t => .irecv t x.2 peer

/-- The order of `np.argsort` on the experts. -/
def expertLe (x y : ℤ × ℕ) : Bool := decide (x.1 ≤ y.1)

/-- `indices[base + row]` -/
def localExpert (numLocalExperts epRank : ℕ) (indices : List ℤ) (row : ℕ) : ℤ :=
  (indices[epRank * numLocalExperts + row]?).getD (-1)

/-- The tensors' rows `dst` of `b` become the rows `src` of `w`. -/
def copyTensorRow {W : Type} (numTensors dst src : ℕ) (w b : ExpertWeights W) : ExpertWeights W :=
  fun t row => if row = dst ∧ t < numTensors then w t src else b t row

section MoveToBuffer

variable (numLocalExperts epRank : ℕ) (oldIndices newIndices : List ℤ)

def isUnchanged (row : ℕ) : Bool :=
  localExpert numLocalExperts epRank oldIndices row == localExpert numLocalExperts epRank newIndices row

def isReceivedLocally (row : ℕ) : Bool :=
  isUnchanged numLocalExperts epRank oldIndices newIndices row ||
    (localExpert numLocalExperts epRank newIndices row != -1 &&
      (List.range numLocalExperts).any fun row' =>
        localExpert numLocalExperts epRank oldIndices row' == localExpert numLocalExperts epRank newIndices row)

/-- The first local row of each expert of the old placement: `send_expert_ids` and
`send_src_rows`. -/
def sendRows : List (ℤ × ℕ) :=
  let rows := (List.range numLocalExperts).map fun row =>
    (localExpert numLocalExperts epRank oldIndices row, row)
  firstRows (rows.filter fun x => x.1 ≠ -1)

/-- The first local row of each expert to be received: `recv_expert_ids` and `recv_dst_rows`. -/
def recvRows : List (ℤ × ℕ) :=
  let rows := (List.range numLocalExperts).map fun row =>
    (localExpert numLocalExperts epRank newIndices row, row)
  firstRows (rows.filter fun x =>
    !isReceivedLocally numLocalExperts epRank oldIndices newIndices x.2 && x.1 != -1)

def localMoves {W : Type} (numTensors : ℕ) (expertWeights buffers : ExpertWeights W) :
    ExpertWeights W :=
  let send := sendRows numLocalExperts epRank oldIndices
  let dests := (List.range numLocalExperts).filter fun row =>
    !isUnchanged numLocalExperts epRank oldIndices newIndices row &&
      isReceivedLocally numLocalExperts epRank oldIndices newIndices row
  dests.foldl (fun b dst =>
    match (dictOf send).get? (localExpert numLocalExperts epRank newIndices dst) with
    | some src => copyTensorRow numTensors dst src expertWeights b
    | none => b) buffers

/-- The masks and the receive metadata that `move_to_buffer` returns. -/
def moveToBufferResult : MoveToBufferResult :=
  let recv := recvRows numLocalExperts epRank oldIndices newIndices
  { isUnchanged := isUnchanged numLocalExperts epRank oldIndices newIndices
    isReceivedLocally := isReceivedLocally numLocalExperts epRank oldIndices newIndices
    recvMetadata := {
      recvPrimaryMask := fun row => decide (row ∈ recv.map Prod.snd)
      recvCount := recv.length
      recvExpertIds := recv.map Prod.fst
      recvDstRows := recv.map Prod.snd } }

/-- `move_to_buffer` up to the communication: the buffers after the local moves, the operations and
the result. -/
def moveToBuffer {W : Type} (numTensors : ℕ) (expertWeights buffers : ExpertWeights W)
    (group : EpGroup) :
    Except PyError (ExpertWeights W × List P2POp × MoveToBufferResult) := do
  ensure (oldIndices.length = newIndices.length) (.assertionError "")
  let send := sendRows numLocalExperts epRank oldIndices
  let recv := recvRows numLocalExperts epRank oldIndices newIndices
  let buffers := localMoves numLocalExperts epRank oldIndices newIndices numTensors expertWeights
    buffers
  let sorted := send.mergeSort expertLe
  let sends ← sorted.mapM (postSend numTensors group epRank
    (getEpRanksWithExpertsBatch (sorted.map Prod.fst) numLocalExperts oldIndices newIndices))
  let sorted := recv.mergeSort expertLe
  let recvs ← sorted.mapM (postRecv numTensors group epRank
    (getEpRanksWithExpertsBatch (sorted.map Prod.fst) numLocalExperts oldIndices newIndices))
  return (buffers, sends.flatten ++ recvs.flatten, moveToBufferResult numLocalExperts epRank oldIndices newIndices)

end MoveToBuffer

/-- What a rank sends to `peer`, in the order posted. -/
def sendsTo (peer : ℕ) (ops : List P2POp) : List (ℕ × ℕ) :=
  ops.filterMap fun
    | .isend t row p => if p = peer then some (t, row) else none
    | .irecv .. => none

/-- What a rank receives from `peer`, in the order posted. -/
def recvsFrom (peer : ℕ) (ops : List P2POp) : List (ℕ × ℕ) :=
  ops.filterMap fun
    | .irecv t row p => if p = peer then some (t, row) else none
    | .isend .. => none

/-- The receives of one rank, matched in the order posted; `pending` holds what peers sent. One
without a send never ends. -/
def receive {W : Type} : List P2POp → (ℕ → List W) → ExpertWeights W →
    Option ((ℕ → List W) × ExpertWeights W)
  | [], pending, buffers => some (pending, buffers)
  | .isend .. :: ops, pending, buffers => receive ops pending buffers
  | .irecv t row peer :: ops, pending, buffers =>
    match pending peer with
    | [] => none
    | x :: rest => receive ops (Function.update pending peer rest)
        (Function.update buffers t (Function.update (buffers t) row x))

def copiedRows (numLocalExperts : ℕ) (result : MoveToBufferResult) : List ℕ :=
  (List.range numLocalExperts).filter fun row => !result.isUnchanged row &&
    (result.isReceivedLocally row || result.recvMetadata.recvPrimaryMask row)

def duplicateRows (numLocalExperts epRank : ℕ) (newIndices : List ℤ)
    (result : MoveToBufferResult) : List (ℕ × ℕ) :=
  let recv := result.recvMetadata
  let dupRows := (List.range numLocalExperts).filter fun row => !result.isUnchanged row &&
    !result.isReceivedLocally row && (!recv.recvPrimaryMask row &&
      localExpert numLocalExperts epRank newIndices row != -1)
  let prim := ((recv.recvExpertIds.take recv.recvCount).zip
    (recv.recvDstRows.take recv.recvCount)).mergeSort expertLe
  dupRows.filterMap fun row =>
    let expert := localExpert numLocalExperts epRank newIndices row
    match prim[npSearchsorted (prim.map Prod.fst) expert]? with
    | none => none
    | some x => if x.1 = expert then some (row, x.2) else none

def moveFromBuffer {W : Type} (numLocalExperts epRank : ℕ) (newIndices : List ℤ) (numTensors : ℕ)
    (expertWeights buffers : ExpertWeights W) (result : MoveToBufferResult) : ExpertWeights W :=
  let copied := (copiedRows numLocalExperts result).foldl
    (fun w dst => copyTensorRow numTensors dst dst buffers w) expertWeights
  if result.recvMetadata.recvCount = 0 then copied
  else (duplicateRows numLocalExperts epRank newIndices result).foldl
    (fun w x => copyTensorRow numTensors x.1 x.2 w w) copied

end CustomAi.Vllm
