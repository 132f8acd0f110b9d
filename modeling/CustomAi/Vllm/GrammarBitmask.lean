import CustomAi.Lib.Segments
import CustomAi.Vllm.Schedule

/-!
# Grammar bitmasks

`grammar_bitmask` of `vllm/v1/structured_output/__init__.py`, `get_grammar_bitmask` of
`vllm/v1/core/sched/scheduler.py` and `apply_grammar_bitmask` of
`vllm/v1/structured_output/utils.py`.
-/

namespace CustomAi.Vllm

abbrev MaskRow := List (BitVec 32)

def MaskRow.allows (row : MaskRow) (token : ℕ) : Bool :=
  ((row[token / 32]?).getD 0).getLsbD (token % 32)

/-- `row.fill_(-1)` -/
def MaskRow.fillFull (row : MaskRow) : MaskRow := row.map fun _ => -1

/-- `StructuredOutputGrammar` as operations on the states `G` of a grammar. The queries return
no new state. -/
structure StructuredOutputGrammar (G : Type) where
  acceptTokens : G → RequestId → List TokenId → Bool × G
  rollback : G → ℕ → G
  fillBitmask : G → MaskRow
  isTerminated : G → Bool

structure StructuredOutputRequest (G : Type) where
  grammar : G
  reasoningEnded : Option Bool := none

/-- `Request`, as far as its grammar is concerned. The grammar of a scheduled request is
compiled. -/
structure GrammarRequest (G : Type) where
  promptTokenIds : Option (List TokenId)
  structuredOutputRequest : Option (StructuredOutputRequest G)

namespace GrammarRequest

variable {G : Type}

def useStructuredOutput (request : GrammarRequest G) : Bool :=
  request.structuredOutputRequest.isSome

end GrammarRequest

/-- `backend` is `allocate_token_bitmask`, `reasoner` is `is_reasoning_end`. -/
structure StructuredOutputManager where
  backend : Option (ℕ → List MaskRow)
  reasoner : Option (List TokenId → Bool)
  enableInReasoning : Bool
  maxNumSeqs : ℕ
  numSpeculativeTokens : Option ℕ
  grammarBitmask : Option (List MaskRow) := none

namespace StructuredOutputManager

variable {G : Type}

def fillBitmaskParallelThreshold : ℕ := 128

def fillBitmaskParallelBatchSize : ℕ := 16

def shouldFillBitmask (self : StructuredOutputManager) (promptTokenIds : Option (List TokenId))
    (structuredOutputRequest : StructuredOutputRequest G) : Bool × StructuredOutputRequest G :=
  match self.reasoner with
  | none => (true, structuredOutputRequest)
  | some isReasoningEnd =>
    if self.enableInReasoning then (true, structuredOutputRequest)
    else match structuredOutputRequest.reasoningEnded with
      | some reasoningEnded => (reasoningEnded, structuredOutputRequest)
      | none =>
        let reasoningEnded := isReasoningEnd (promptTokenIds.getD [])
        (reasoningEnded, { structuredOutputRequest with reasoningEnded := some reasoningEnded })

/-- One round of the loop of `_fill_bitmasks`. -/
def fillRow (ops : StructuredOutputGrammar G) (bitmask : List MaskRow) (x : G × ℕ × Bool) :
    Except PyError (List MaskRow) :=
  match bitmask[x.2.1]? with
  | none => .error .indexError
  | some row => .ok (bitmask.set x.2.1
      (if x.2.2 && !ops.isTerminated x.1 then ops.fillBitmask x.1 else row.fillFull))

def fillBitmasks (ops : StructuredOutputGrammar G) (batch : List (G × ℕ × Bool))
    (bitmask : List MaskRow) : Except PyError (List MaskRow) :=
  batch.foldlM (fillRow ops) bitmask

def structuredRequest (requests : Dict RequestId (GrammarRequest G)) (reqId : RequestId) :
    Except PyError (GrammarRequest G × StructuredOutputRequest G) :=
  match requests.get? reqId with
  | none => .error .keyError
  | some request =>
    match request.structuredOutputRequest with
    | none => .error (.assertionError "")
    | some structuredOutputRequest => .ok (request, structuredOutputRequest)

structure PositionState (G : Type) where
  grammar : G
  bitmask : List MaskRow
  cumulativeIndex : ℕ
  applyBitmask : Bool
  stateAdvancements : ℕ

def fillPosition (ops : StructuredOutputGrammar G) (reqId : RequestId) (s : PositionState G)
    (token : TokenId) : Except PyError (PositionState G) := do
  let bitmask ← fillBitmasks ops [(s.grammar, s.cumulativeIndex, s.applyBitmask)] s.bitmask
  -- a padding token ends the advancement of the grammar
  let applyBitmask := if token = -1 then false else s.applyBitmask
  if applyBitmask && !ops.isTerminated s.grammar then
    let (accepted, grammar) := ops.acceptTokens s.grammar reqId [token]
    ensure (accepted = true) (.assertionError s!"({token}, {reqId})")
    return ⟨grammar, bitmask, s.cumulativeIndex + 1, applyBitmask, s.stateAdvancements + 1⟩
  else
    return ⟨s.grammar, bitmask, s.cumulativeIndex + 1, applyBitmask, s.stateAdvancements⟩

structure FillState (G : Type) where
  requests : Dict RequestId (GrammarRequest G)
  bitmask : List MaskRow
  cumulativeIndex : ℕ

def serialRequest (self : StructuredOutputManager) (ops : StructuredOutputGrammar G)
    (scheduledSpecDecodeTokens : Dict RequestId (List TokenId)) (s : FillState G)
    (reqId : RequestId) : Except PyError (FillState G) := do
  let (request, structuredOutputRequest) ← structuredRequest s.requests reqId
  let (applyBitmask, structuredOutputRequest) :=
    self.shouldFillBitmask request.promptTokenIds structuredOutputRequest
  let reqTokens := (scheduledSpecDecodeTokens.get? reqId).getD []
  let t ← (reqTokens ++ [-1]).foldlM (fillPosition ops reqId)
    ⟨structuredOutputRequest.grammar, s.bitmask, s.cumulativeIndex, applyBitmask, 0⟩
  let grammar := if t.stateAdvancements > 0 then ops.rollback t.grammar t.stateAdvancements
    else t.grammar
  let structuredOutputRequest := { structuredOutputRequest with grammar := grammar }
  let request := { request with structuredOutputRequest := some structuredOutputRequest }
  return ⟨s.requests.set reqId request, t.bitmask, t.cumulativeIndex⟩

def serialFill (self : StructuredOutputManager) (ops : StructuredOutputGrammar G)
    (requests : Dict RequestId (GrammarRequest G)) (structuredOutputRequestIds : List RequestId)
    (scheduledSpecDecodeTokens : Dict RequestId (List TokenId)) (bitmask : List MaskRow) :
    Except PyError (FillState G) :=
  structuredOutputRequestIds.foldlM (self.serialRequest ops scheduledSpecDecodeTokens)
    ⟨requests, bitmask, 0⟩

structure PromiseState (G : Type) where
  requests : Dict RequestId (GrammarRequest G)
  promises : List (List (G × ℕ × Bool)) := []
  batch : List (G × ℕ × Bool) := []
  cumulativeIndex : ℕ := 0

def parallelRequest (self : StructuredOutputManager) (s : PromiseState G) (reqId : RequestId) :
    Except PyError (PromiseState G) := do
  let (request, structuredOutputRequest) ← structuredRequest s.requests reqId
  let (applyBitmask, structuredOutputRequest) :=
    self.shouldFillBitmask request.promptTokenIds structuredOutputRequest
  let requests := s.requests.set reqId
    { request with structuredOutputRequest := some structuredOutputRequest }
  let batch := s.batch ++ [(structuredOutputRequest.grammar, s.cumulativeIndex, applyBitmask)]
  if batch.length = fillBitmaskParallelBatchSize then
    return ⟨requests, s.promises ++ [batch], [], s.cumulativeIndex + 1⟩
  else
    return ⟨requests, s.promises, batch, s.cumulativeIndex + 1⟩

/-- The parallel branch. The workers of the pool fill the rows of the submitted batches in the
order `interleave`. -/
def parallelFill (self : StructuredOutputManager) (ops : StructuredOutputGrammar G)
    (interleave : List (List (G × ℕ × Bool)) → List (G × ℕ × Bool))
    (requests : Dict RequestId (GrammarRequest G)) (structuredOutputRequestIds : List RequestId)
    (bitmask : List MaskRow) : Except PyError (FillState G) := do
  let s ← structuredOutputRequestIds.foldlM self.parallelRequest { requests }
  let promises := if s.batch = [] then s.promises else s.promises ++ [s.batch]
  let bitmask ← fillBitmasks ops (interleave promises) bitmask
  return ⟨s.requests, bitmask, s.cumulativeIndex⟩

/-- `_grammar_bitmask`: a row for each speculative position and the bonus token. -/
def allocatedBitmask (self : StructuredOutputManager) : Except PyError (List MaskRow) :=
  match self.grammarBitmask with
  | some bitmask => .ok bitmask
  | none =>
    match self.backend with
    | none => .error (.assertionError "")
    | some allocateTokenBitmask =>
      .ok (allocateTokenBitmask (self.maxNumSeqs * (1 + self.numSpeculativeTokens.getD 0)))

/-- `grammar_bitmask`, with the manager and the requests after the call. -/
def callGrammarBitmask (self : StructuredOutputManager) (ops : StructuredOutputGrammar G)
    (interleave : List (List (G × ℕ × Bool)) → List (G × ℕ × Bool))
    (requests : Dict RequestId (GrammarRequest G)) (structuredOutputRequestIds : List RequestId)
    (scheduledSpecDecodeTokens : Dict RequestId (List TokenId)) :
    Except PyError (Option (List MaskRow) × StructuredOutputManager × Dict RequestId (GrammarRequest G)) := do
  if structuredOutputRequestIds = [] then
    return (none, self, requests)
  else
    let maxNumSpecTokens := self.numSpeculativeTokens.getD 0
    let bitmask ← self.allocatedBitmask
    let s ← (if structuredOutputRequestIds.length > fillBitmaskParallelThreshold ∧ maxNumSpecTokens = 0 then
      self.parallelFill ops interleave requests structuredOutputRequestIds bitmask
    else self.serialFill ops requests structuredOutputRequestIds scheduledSpecDecodeTokens bitmask)
    return (some (s.bitmask.take s.cumulativeIndex), { self with grammarBitmask := some s.bitmask }, s.requests)

end StructuredOutputManager

structure GrammarOutput where
  structuredOutputRequestIds : List RequestId
  grammarBitmask : List MaskRow

/-- `Scheduler.get_grammar_bitmask`, with the manager and the requests after the call. -/
def getGrammarBitmask {G : Type} (self : StructuredOutputManager) (ops : StructuredOutputGrammar G)
    (interleave : List (List (G × ℕ × Bool)) → List (G × ℕ × Bool))
    (requests : Dict RequestId (GrammarRequest G)) (schedulerOutput : SchedulerOutput) :
    Except PyError (Option GrammarOutput × StructuredOutputManager × Dict RequestId (GrammarRequest G)) := do
  let structuredOutputRequestIds := schedulerOutput.numScheduledTokens.keys.filter fun reqId =>
    (requests.get? reqId).any GrammarRequest.useStructuredOutput
  if structuredOutputRequestIds = [] then
    return (none, self, requests)
  else
    let (bitmask, self, requests) ← self.callGrammarBitmask ops interleave requests
      structuredOutputRequestIds schedulerOutput.scheduledSpecDecodeTokens
    return (bitmask.map fun bitmask => ⟨structuredOutputRequestIds, bitmask⟩, self, requests)

structure ScatterState where
  sortedBitmask : List MaskRow
  outIndices : List ℕ

def scatterRow (grammarBitmask : List MaskRow) (logitIdx cumulativeIndex : ℕ) (s : ScatterState)
    (i : ℕ) : Except PyError ScatterState :=
  match grammarBitmask[cumulativeIndex + i]? with
  | none => .error .indexError
  | some row =>
    if logitIdx + i < s.sortedBitmask.length then
      .ok ⟨s.sortedBitmask.set (logitIdx + i) row, s.outIndices ++ [logitIdx + i]⟩
    else .error .indexError

def scatterRequest (specTokens : Dict RequestId (List TokenId))
    (structOutReqBatchIndices : Dict RequestId ℕ) (grammarBitmask : List MaskRow)
    (s : ScatterState × ℕ) (reqId : RequestId) : Except PyError (ScatterState × ℕ) := do
  let numSpecTokens := ((specTokens.get? reqId).getD []).length
  let t ← match structOutReqBatchIndices.get? reqId with
    | some logitIdx =>
      (List.range (1 + numSpecTokens)).foldlM (scatterRow grammarBitmask logitIdx s.2) s.1
    | none => .ok s.1
  return (t, s.2 + (1 + numSpecTokens))

/-- `struct_out_req_batch_indices` with the index in the batch and the cumulative offset. -/
def batchIndexStep (specTokens : Dict RequestId (List TokenId)) (structOutReqIds : List RequestId)
    (s : Dict RequestId ℕ × ℕ × ℕ) (reqId : RequestId) : Dict RequestId ℕ × ℕ × ℕ :=
  let logitIndex := s.2.1 + s.2.2
  let cumulativeOffset := s.2.2 + ((specTokens.get? reqId).getD []).length
  let indices := if reqId ∈ structOutReqIds then s.1.set reqId logitIndex else s.1
  (indices, s.2.1 + 1, cumulativeOffset)

/-- `apply_grammar_bitmask`, where `applyTokenBitmaskInplace` returns the logits. -/
def applyGrammarBitmask {L : Type}
    (applyTokenBitmaskInplace : List (List L) → List MaskRow → Option (List ℕ) → List (List L))
    (schedulerOutput : SchedulerOutput) (grammarOutput : GrammarOutput) (reqIds : List RequestId)
    (logits : List (List L)) : Except PyError (List (List L)) := do
  let specTokens := schedulerOutput.scheduledSpecDecodeTokens
  let (structOutReqBatchIndices, _, _) := reqIds.foldl
    (batchIndexStep specTokens grammarOutput.structuredOutputRequestIds) (.empty, 0, 0)
  let width := (grammarOutput.grammarBitmask.headD []).length
  let sortedBitmask := List.replicate logits.length (List.replicate width (-1))
  let (s, _) ← grammarOutput.structuredOutputRequestIds.foldlM
    (scatterRequest specTokens structOutReqBatchIndices grammarOutput.grammarBitmask)
    (⟨sortedBitmask, []⟩, 0)
  let skipOutIndices := s.outIndices.length = logits.length
  let indices := if skipOutIndices then none else some s.outIndices
  return applyTokenBitmaskInplace logits s.sortedBitmask indices

/-- The masking of the logits in `sample_tokens`. -/
def maskLogits {L : Type}
    (applyTokenBitmaskInplace : List (List L) → List MaskRow → Option (List ℕ) → List (List L))
    (schedulerOutput : SchedulerOutput) (grammarOutput : Option GrammarOutput)
    (reqIds : List RequestId) (logits : List (List L)) : Except PyError (List (List L)) :=
  match grammarOutput with
  | none => .ok logits
  | some grammarOutput =>
    applyGrammarBitmask applyTokenBitmaskInplace schedulerOutput grammarOutput reqIds logits

end CustomAi.Vllm
