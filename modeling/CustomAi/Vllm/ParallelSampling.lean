import CustomAi.Vllm.UpdateFromOutput

/-!
# Parallel sampling

A request for `n` completions runs as `n` child requests, and a `ParentRequest` of
`vllm/v1/engine/parallel_sampling.py` puts their outputs together.
-/

namespace CustomAi.Vllm

open List

inductive RequestOutputKind
  | cumulative
  | delta
  | finalOnly
  deriving DecidableEq, Repr

inductive StopReason
  | token (tokenId : TokenId)
  | string (text : List Char)
  deriving DecidableEq, Repr

/-- `CompletionOutput` of `vllm/outputs.py`, with log probabilities of type `L` at a position. -/
structure CompletionOutput (L : Type) where
  index : ℕ
  text : List Char
  tokenIds : List TokenId
  logprobs : Option (List L) := none
  finishReason : Option FinishReason := none
  stopReason : Option StopReason := none
  deriving DecidableEq, Repr

variable {L : Type}

def CompletionOutput.finished (self : CompletionOutput L) : Bool := self.finishReason.isSome

/-- The sampling parameters that parallel sampling reads, beside those of `Request`. -/
structure ParallelSamplingParams extends SamplingParams where
  n : ℕ
  outputKind : RequestOutputKind
  seed : Option ℤ := none
  deriving DecidableEq, Repr

structure ParentRequest (L : Type) where
  requestId : RequestId
  externalReqId : RequestId
  samplingParams : ParallelSamplingParams
  childRequests : Finset RequestId
  outputAggregator : List (Option (CompletionOutput L))
  cachedChildSamplingParams : Option ParallelSamplingParams

namespace ParentRequest

def new (requestId externalReqId : RequestId) (samplingParams : ParallelSamplingParams) :
    ParentRequest L where
  requestId
  externalReqId
  samplingParams
  childRequests := ∅
  outputAggregator :=
    if samplingParams.outputKind = .finalOnly then List.replicate samplingParams.n none else []
  cachedChildSamplingParams := none

def getChildSamplingParams (self : ParentRequest L) (index : ℕ) :
    ParallelSamplingParams × ParentRequest L :=
  match self.cachedChildSamplingParams with
  | some params => (params, self)
  | none =>
    let child := { self.samplingParams with n := 1 }
    match self.samplingParams.seed with
    | none => (child, { self with cachedChildSamplingParams := some child })
    | some seed => ({ child with seed := some (seed + index) }, self)

def childReqId (requestId : RequestId) (index : ℕ) : RequestId :=
  toString index ++ "_" ++ requestId

def getChildInfo (self : ParentRequest L) (index : ℕ) :
    RequestId × ParallelSamplingParams × ParentRequest L :=
  let childReqId := childReqId self.requestId index
  let self := { self with childRequests := insert childReqId self.childRequests }
  let (params, self) := self.getChildSamplingParams index
  (childReqId, params, self)

def getOutputs (self : ParentRequest L) (childRequestId : RequestId)
    (completionOutput : CompletionOutput L) :
    Except PyError (List (Option (CompletionOutput L)) × Bool × ParentRequest L) := do
  let alreadyFinishedAndReturned := completionOutput.finished && decide (childRequestId ∉ self.childRequests)
  let childRequests :=
    if completionOutput.finished then self.childRequests.erase childRequestId
    else self.childRequests
  if self.samplingParams.outputKind ≠ .finalOnly then
    let outputs := if alreadyFinishedAndReturned then [] else [some completionOutput]
    return (outputs, decide (childRequests = ∅), { self with childRequests })
  else
    ensure (completionOutput.index < self.outputAggregator.length) .indexError
    let outputAggregator := self.outputAggregator.set completionOutput.index completionOutput
    -- the children that have not reported are still `None` in the list
    let outputs := if childRequests ≠ ∅ then [] else outputAggregator
    return (outputs, decide (childRequests = ∅), { self with childRequests, outputAggregator })

lemma childReqId_injective (requestId : RequestId) : Function.Injective (childReqId requestId) := by
  intro i j h
  have hdigits : Nat.toDigits 10 i = Nat.toDigits 10 j := by
    simpa [childReqId] using congrArg String.toList h
  have hvalue := congrArg (Nat.ofDigitChars 10 · 0) hdigits
  simpa using hvalue

variable {self self' : ParentRequest L} {index : ℕ} {childReqId : RequestId}

/-- A cached child is the parent with `n = 1`, and is only there without a seed. -/
def CacheOk (self : ParentRequest L) : Prop :=
  ∀ params, self.cachedChildSamplingParams = some params →
    self.samplingParams.seed = none ∧ params = { self.samplingParams with n := 1 }

lemma CacheOk.getChildSamplingParams (h : self.CacheOk) (index : ℕ) :
    (self.getChildSamplingParams index).1 = { self.samplingParams with
      n := 1
      seed := self.samplingParams.seed.map (· + (index : ℤ)) } ∧ (self.getChildSamplingParams index).2.CacheOk := by
  unfold ParentRequest.getChildSamplingParams
  cases hc : self.cachedChildSamplingParams with
  | some params =>
    obtain ⟨hseed, rfl⟩ := h params hc
    refine ⟨?_, h⟩
    simp only [hseed, Option.map_none]
  | none =>
    cases hseed : self.samplingParams.seed with
    | none =>
      refine ⟨by simp [hseed], fun params hp => ?_⟩
      exact ⟨hseed, (Option.some.inj hp).symm.trans (by simp)⟩
    | some seed =>
      refine ⟨by simp, fun params hp => ?_⟩
      rw [hc] at hp
      cases hp

lemma getChildSamplingParams_snd (index : ℕ) : ∃ cachedChildSamplingParams, (self.getChildSamplingParams index).2 =
      { self with cachedChildSamplingParams } := by
  unfold getChildSamplingParams
  split
  · exact ⟨self.cachedChildSamplingParams, rfl⟩
  · split
    · exact ⟨_, rfl⟩
    · exact ⟨self.cachedChildSamplingParams, rfl⟩

lemma getChildInfo_spec (self : ParentRequest L) (index : ℕ) :
    (self.getChildInfo index).1 = ParentRequest.childReqId self.requestId index ∧
    ∃ cachedChildSamplingParams, (self.getChildInfo index).2.2 = { self with
      childRequests := insert (ParentRequest.childReqId self.requestId index) self.childRequests
      cachedChildSamplingParams } := by
  refine ⟨rfl, ?_⟩
  exact getChildSamplingParams_snd index

/-- What the calls of `get_child_info` for these children return. -/
def childInfos (self : ParentRequest L) : List ℕ → List (RequestId × ParallelSamplingParams)
  | [] => []
  | index :: rest =>
    let (childReqId, params, self) := self.getChildInfo index
    (childReqId, params) :: self.childInfos rest

lemma CacheOk.childInfos (h : self.CacheOk) (indices : List ℕ) : self.childInfos indices = indices.map fun index =>
    (ParentRequest.childReqId self.requestId index, { self.samplingParams with
      n := 1
      seed := self.samplingParams.seed.map (· + (index : ℤ)) }) := by
  induction indices generalizing self with
  | nil => rfl
  | cons index rest ih =>
    obtain ⟨-, cached, hinfo⟩ := self.getChildInfo_spec index
    have hadded : ∀ childRequests, ({ self with childRequests } : ParentRequest L).CacheOk := fun _ => h
    obtain ⟨hparams, hnext⟩ := (hadded (insert (ParentRequest.childReqId self.requestId index)
      self.childRequests)).getChildSamplingParams index
    have hrest := @ih (self.getChildInfo index).2.2 hnext
    rw [hinfo] at hrest
    rw [map_cons, ← hrest, ← hinfo]
    exact congrArg (fun params => (_, params) :: _) hparams

/-- The cached parameters are those that would be made anew. -/
theorem childInfos_new (requestId externalReqId : RequestId) (params : ParallelSamplingParams)
    (indices : List ℕ) : (new requestId externalReqId params : ParentRequest L).childInfos indices =
      indices.map fun index => (ParentRequest.childReqId requestId index, { params with
        n := 1
        seed := params.seed.map (· + (index : ℤ)) }) :=
  CacheOk.childInfos (fun _ h => by cases h) indices

lemma getOutputs_streamed (hkind : self.samplingParams.outputKind ≠ .finalOnly)
    (hchild : childReqId ∈ self.childRequests) (completionOutput : CompletionOutput L) :
    ∃ finished parent, self.getOutputs childReqId completionOutput =
      .ok ([some completionOutput], finished, parent) := by
  unfold getOutputs
  simp only [hchild, not_true_eq_false, decide_false, Bool.and_false, Bool.false_eq_true,
    ite_false, ne_eq, hkind, not_false_eq_true, ite_true, pure_eq_ok]
  exact ⟨_, _, rfl⟩

def Reported (self self' : ParentRequest L) (childReqId : RequestId) (finished : Bool) : Prop :=
  ∃ outputAggregator, outputAggregator.length = self.outputAggregator.length ∧
    self' = { self with
      childRequests :=
        if finished then self.childRequests.erase childReqId else self.childRequests
      outputAggregator }

lemma getOutputs_reported (self : ParentRequest L) (childReqId : RequestId)
    {completionOutput : CompletionOutput L} (hindex : self.samplingParams.outputKind = .finalOnly →
      completionOutput.index < self.outputAggregator.length) :
    ∃ outputs finished self', self.getOutputs childReqId completionOutput =
      .ok (outputs, finished, self') ∧ self.Reported self' childReqId completionOutput.finished := by
  unfold getOutputs
  by_cases hkind : self.samplingParams.outputKind = .finalOnly
  · simp only [hkind, ne_eq, not_true_eq_false, ite_false, ensure_of (hindex hkind), ok_bind, pure_eq_ok]
    exact ⟨_, _, _, rfl, _, length_set, rfl⟩
  · simp only [ne_eq, hkind, not_false_eq_true, ite_true, pure_eq_ok]
    exact ⟨_, _, _, rfl, _, rfl, rfl⟩

end ParentRequest

end CustomAi.Vllm

/-!
## A parallel sampling request while its children are added and run

The steps of `AsyncLLM.add_request` for one parent request, interleaved with the completions of
the children added so far.
-/

namespace CustomAi.Vllm

open List

variable {L : Type}

/-- A call of `get_outputs` and what it returned. -/
structure OutputsCall (L : Type) where
  completion : CompletionOutput L
  outputs : List (Option (CompletionOutput L))
  finished : Bool
  deriving DecidableEq, Repr

/-- A parent, its children added and live, the completions and the calls of `get_outputs`. -/
structure FanOut (L : Type) where
  parent : ParentRequest L
  added : ℕ := 0
  live : Finset ℕ := ∅
  produced : List (CompletionOutput L) := []
  calls : List (OutputsCall L) := []

inductive FanOutOp (L : Type)
  | addChild
  | output (index : ℕ) (completion : CompletionOutput L)

namespace FanOut

def new (requestId externalReqId : RequestId) (params : ParallelSamplingParams) : FanOut L where
  parent := .new requestId externalReqId params

/-- `get_child_info` for the next child, which `OutputProcessor.add_request` then adds. -/
def addChild (s : FanOut L) : FanOut L :=
  { s with
    parent := (s.parent.getChildInfo s.added).2.2
    live := insert s.added s.live
    added := s.added + 1 }

/-- `make_request_output` for a completion of the child with the given index. -/
def output (s : FanOut L) (index : ℕ) (completion : CompletionOutput L) :
    Except PyError (FanOut L) :=
  let completion := { completion with index }
  if s.parent.samplingParams.outputKind = .finalOnly ∧ ¬completion.finished then .ok s
  else do
    let childReqId := ParentRequest.childReqId s.parent.requestId index
    let (outputs, finished, parent) ← s.parent.getOutputs childReqId completion
    return { s with
      parent
      live := if completion.finished then s.live.erase index else s.live
      produced := s.produced ++ [completion]
      calls := s.calls ++ [⟨completion, outputs, finished⟩] }

def step (s : FanOut L) : FanOutOp L → Except PyError (FanOut L)
  | .addChild => .ok s.addChild
  | .output index completion => s.output index completion

/-- `n` children are added, and a child has outputs until it finishes. -/
def Allowed (s : FanOut L) : FanOutOp L → Prop
  | .addChild => s.added < s.parent.samplingParams.n
  | .output index _ => index ∈ s.live

/-- The last live child does not finish before all are added. -/
def FilledFirst (s : FanOut L) : FanOutOp L → Prop
  | .addChild => True
  | .output index completion =>
    completion.finished → s.live = {index} → s.added = s.parent.samplingParams.n

def completed (calls : List (OutputsCall L)) : Finset ℕ :=
  ((calls.filter (·.completion.finished)).map (·.completion.index)).toFinset

/-- What `get_outputs` must return for a completion. -/
structure Reports (params : ParallelSamplingParams) (earlier : List (OutputsCall L))
    (call : OutputsCall L) : Prop where
  finished_iff : call.finished = true ↔
    call.completion.finished = true ∧ completed (earlier ++ [call]) = Finset.range params.n
  streamed : params.outputKind ≠ .finalOnly → call.outputs = [some call.completion]
  withheld : params.outputKind = .finalOnly → call.finished = false → call.outputs = []
  gathered : params.outputKind = .finalOnly → call.finished = true →
    call.outputs.length = params.n ∧ ∀ i < params.n, ∃ c ∈ earlier ++ [call],
      c.completion.finished = true ∧ c.completion.index = i ∧ call.outputs[i]? = some (some c.completion)

variable {r : RequestId} {p : ParallelSamplingParams} {s s' : FanOut L} {index : ℕ}
  {completion : CompletionOutput L} {calls earlier : List (OutputsCall L)} {call : OutputsCall L}

/-- The children of `s` that are live once the given completion has been processed. -/
def liveAfter (s : FanOut L) (completion : CompletionOutput L) : Finset ℕ :=
  if completion.finished then s.live.erase completion.index else s.live

structure Inv (r : RequestId) (p : ParallelSamplingParams) (s : FanOut L) : Prop where
  params_eq : s.parent.samplingParams = p
  requestId_eq : s.parent.requestId = r
  added_le : s.added ≤ p.n
  live_lt : ∀ i ∈ s.live, i < s.added
  children : s.parent.childRequests = s.live.image (ParentRequest.childReqId r)
  completed_eq : completed s.calls = Finset.range s.added \ s.live
  size : p.outputKind = .finalOnly → s.parent.outputAggregator.length = p.n
  aggregated : p.outputKind = .finalOnly → ∀ c ∈ s.calls, c.completion.finished = true →
    s.parent.outputAggregator[c.completion.index]? = some (some c.completion)
  produced_eq : s.produced = s.calls.map (·.completion)
  reports : ∀ earlier call later, s.calls = earlier ++ call :: later → Reports p earlier call
  once : (s.calls.filter (·.finished)).length = if s.added = p.n ∧ s.live = ∅ then 1 else 0

lemma Inv.new (externalReqId : RequestId) (hn : 0 < p.n) : (new r externalReqId p : FanOut L).Inv r p where
  params_eq := rfl
  requestId_eq := rfl
  added_le := Nat.zero_le _
  live_lt := fun i hi => absurd hi (Finset.notMem_empty i)
  children := rfl
  completed_eq := rfl
  size := by
    intro hk
    simp [FanOut.new, ParentRequest.new, hk]
  aggregated := fun _ c hc => absurd hc not_mem_nil
  produced_eq := rfl
  reports := by
    intro earlier call later h
    simp [FanOut.new] at h
  once := by
    have hne : 0 ≠ p.n := Nat.ne_of_lt hn
    simp [FanOut.new, hne]

lemma Inv.addChild (h : s.Inv r p) (hadd : s.added < p.n) : s.addChild.Inv r p := by
  obtain ⟨-, cached, hinfo⟩ := s.parent.getChildInfo_spec s.added
  have hparent : s.addChild.parent = { s.parent with
      childRequests := insert (ParentRequest.childReqId s.parent.requestId s.added) s.parent.childRequests
      cachedChildSamplingParams := cached } := hinfo
  refine ⟨?_, ?_, hadd, ?_, ?_, ?_, ?_, ?_, h.produced_eq, h.reports, ?_⟩
  · rw [hparent]
    exact h.params_eq
  · rw [hparent]
    exact h.requestId_eq
  · intro i hi
    rcases Finset.mem_insert.mp hi with rfl | hi
    · exact Nat.lt_succ_self _
    · exact (h.live_lt i hi).trans (Nat.lt_succ_self _)
  · rw [hparent]
    change insert _ s.parent.childRequests = (insert s.added s.live).image _
    rw [Finset.image_insert, h.children, h.requestId_eq]
  · change completed s.calls = Finset.range (s.added + 1) \ insert s.added s.live
    rw [h.completed_eq, Finset.range_add_one]
    ext i
    simp only [Finset.mem_sdiff, Finset.mem_range, Finset.mem_insert]
    constructor
    · rintro ⟨hi, hl⟩
      exact ⟨.inr hi, fun hor => hor.elim (fun he => by omega) hl⟩
    · rintro ⟨hi, hl⟩
      exact ⟨hi.resolve_left fun he => hl (.inl he), fun hm => hl (.inr hm)⟩
  · rw [hparent]
    exact h.size
  · rw [hparent]
    exact h.aggregated
  · have hbefore := h.once
    rw [if_neg (by omega)] at hbefore
    change (s.calls.filter (·.finished)).length = _
    rw [hbefore, if_neg]
    rintro ⟨-, hempty⟩
    exact absurd hempty (Finset.insert_ne_empty _ _)

lemma completed_append (calls : List (OutputsCall L)) (call : OutputsCall L) : completed (calls ++ [call]) =
      if call.completion.finished then insert call.completion.index (completed calls) else completed calls := by
  unfold completed
  by_cases hf : call.completion.finished = true
  · simp [hf]
  · simp [hf]

lemma Inv.getOutputs (h : s.Inv r p) (hlive : completion.index ∈ s.live) : ∃ outputs outputAggregator,
      s.parent.getOutputs (ParentRequest.childReqId r completion.index) completion =
        .ok (outputs, decide (s.liveAfter completion = ∅), { s.parent with
          childRequests := (s.liveAfter completion).image (ParentRequest.childReqId r)
          outputAggregator }) ∧ (p.outputKind ≠ .finalOnly → outputs = [some completion] ∧
        outputAggregator = s.parent.outputAggregator) ∧ (p.outputKind = .finalOnly →
        outputAggregator = s.parent.outputAggregator.set completion.index (some completion) ∧
        outputs = if s.liveAfter completion = ∅ then outputAggregator else []) := by
  have hinj := ParentRequest.childReqId_injective r
  have hmem : ParentRequest.childReqId r completion.index ∈ s.parent.childRequests := by
    rw [h.children]
    exact Finset.mem_image_of_mem _ hlive
  have hchildren : (if completion.finished then
      s.parent.childRequests.erase (ParentRequest.childReqId r completion.index)
      else s.parent.childRequests) = (s.liveAfter completion).image (ParentRequest.childReqId r) := by
    unfold liveAfter
    split
    · rw [h.children, Finset.image_erase hinj]
    · exact h.children
  have hempty : (s.liveAfter completion).image (ParentRequest.childReqId r) = ∅ ↔
      s.liveAfter completion = ∅ := Finset.image_eq_empty
  unfold ParentRequest.getOutputs
  simp only [h.params_eq, hmem, not_true_eq_false, decide_false, Bool.and_false,
    Bool.false_eq_true, ite_false, hchildren, hempty, pure_eq_ok]
  by_cases hk : p.outputKind = .finalOnly
  · have hlt : completion.index < s.parent.outputAggregator.length := by
      rw [h.size hk]
      exact (h.live_lt _ hlive).trans_le h.added_le
    rw [if_neg (not_not.mpr hk), ensure_of hlt]
    refine ⟨_, _, rfl, fun hne => absurd hk hne, fun _ => ⟨rfl, ?_⟩⟩
    simp only [ite_not, hempty]
  · rw [if_pos hk]
    exact ⟨_, _, rfl, fun _ => ⟨rfl, rfl⟩, fun hk' => absurd hk' hk⟩

lemma eq_singleton_of_liveAfter (hlive : completion.index ∈ s.live) (hempty : s.liveAfter completion = ∅) :
    completion.finished = true ∧ s.live = {completion.index} := by
  unfold liveAfter at hempty
  split at hempty
  · next hf =>
    rw [Finset.erase_eq_empty_iff] at hempty
    exact ⟨hf, hempty.resolve_left (Finset.ne_empty_of_mem hlive)⟩
  · exact absurd hempty (Finset.ne_empty_of_mem hlive)

lemma Inv.completed_after (h : s.Inv r p) (hlive : completion.index ∈ s.live)
    (hcall : call.completion = completion) :
    completed (s.calls ++ [call]) = Finset.range s.added \ s.liveAfter completion := by
  rw [completed_append, hcall, h.completed_eq]
  unfold liveAfter
  have hlt := h.live_lt _ hlive
  split
  · ext i
    simp only [Finset.mem_insert, Finset.mem_sdiff, Finset.mem_range, Finset.mem_erase, not_and]
    constructor
    · rintro (rfl | ⟨hi, hl⟩)
      · exact ⟨hlt, fun hne => absurd rfl hne⟩
      · exact ⟨hi, fun _ => hl⟩
    · rintro ⟨hi, hl⟩
      by_cases he : i = completion.index
      · exact .inl he
      · exact .inr ⟨hi, hl he⟩
  · rfl

lemma range_sdiff_eq_range_iff {a n : ℕ} {l : Finset ℕ} (ha : a ≤ n) (hl : ∀ i ∈ l, i < a) :
    Finset.range a \ l = Finset.range n ↔ a = n ∧ l = ∅ := by
  constructor
  · intro heq
    have hsub : Finset.range n ⊆ Finset.range a := heq ▸ Finset.sdiff_subset
    have han : a = n := le_antisymm ha (Finset.range_subset_range.mp hsub)
    refine ⟨han, Finset.eq_empty_of_forall_notMem fun i hi => ?_⟩
    have hmem : i ∈ Finset.range a \ l := by
      rw [heq, ← han]
      exact Finset.mem_range.mpr (hl i hi)
    exact (Finset.mem_sdiff.mp hmem).2 hi
  · rintro ⟨rfl, rfl⟩
    exact Finset.sdiff_empty

lemma liveAfter_subset : s.liveAfter completion ⊆ s.live := by
  unfold liveAfter
  split
  · exact Finset.erase_subset _ _
  · exact Finset.Subset.refl _

lemma forall_split_append {P : List (OutputsCall L) → OutputsCall L → Prop}
    (hold : ∀ earlier call later, calls = earlier ++ call :: later → P earlier call)
    (hnew : P calls call) (earlier : List (OutputsCall L)) (c : OutputsCall L)
    (later : List (OutputsCall L)) (h : calls ++ [call] = earlier ++ c :: later) : P earlier c := by
  rcases eq_nil_or_concat later with rfl | ⟨later', last, rfl⟩
  · obtain ⟨rfl, hc⟩ := append_inj' h rfl
    rw [List.cons.injEq] at hc
    exact hc.1 ▸ hnew
  · rw [concat_eq_append, ← cons_append, ← append_assoc] at h
    exact hold earlier c later' (append_inj' h rfl).1

section

variable (h : s.Inv r p)
include h

lemma Inv.output_eq (hindex : completion.index = index) (hlive : index ∈ s.live)
    (hfinal : p.outputKind = .finalOnly → completion.finished = true) :
    ∃ outputs outputAggregator, s.output index completion = .ok { s with
        parent := { s.parent with
          childRequests := (s.liveAfter completion).image (ParentRequest.childReqId r)
          outputAggregator }
        live := s.liveAfter completion
        produced := s.produced ++ [completion]
        calls := s.calls ++ [⟨completion, outputs, decide (s.liveAfter completion = ∅)⟩] } ∧
      (p.outputKind ≠ .finalOnly → outputs = [some completion] ∧
        outputAggregator = s.parent.outputAggregator) ∧ (p.outputKind = .finalOnly →
        outputAggregator = s.parent.outputAggregator.set completion.index (some completion) ∧
        outputs = if s.liveAfter completion = ∅ then outputAggregator else []) := by
  subst hindex
  obtain ⟨outputs, outputAggregator, hget, hstream, hgather⟩ := h.getOutputs hlive
  refine ⟨outputs, outputAggregator, ?_, hstream, hgather⟩
  have hcond : ¬(s.parent.samplingParams.outputKind = .finalOnly ∧ ¬completion.finished) := by
    rw [h.params_eq]
    exact fun hc => hc.2 (hfinal hc.1)
  unfold FanOut.output
  simp only [if_neg hcond, h.requestId_eq, hget, ok_bind, pure_eq_ok]
  rfl

lemma Inv.reports_output {outputs outputAggregator} (hlive : completion.index ∈ s.live)
    (hfilled : completion.finished → s.live = {completion.index} → s.added = p.n)
    (hstream : p.outputKind ≠ .finalOnly → outputs = [some completion]) (hgather : p.outputKind = .finalOnly →
      outputAggregator = s.parent.outputAggregator.set completion.index (some completion) ∧
        outputs = if s.liveAfter completion = ∅ then outputAggregator else []) :
    Reports p s.calls ⟨completion, outputs, decide (s.liveAfter completion = ∅)⟩ := by
  have hcompleted : completed (s.calls ++ [⟨completion, outputs, decide (s.liveAfter completion = ∅)⟩]) =
        Finset.range s.added \ s.liveAfter completion := h.completed_after hlive rfl
  have hall : s.liveAfter completion = ∅ ↔
      completion.finished = true ∧ s.added = p.n ∧ s.liveAfter completion = ∅ := by
    refine ⟨fun hempty => ?_, fun hall => hall.2.2⟩
    obtain ⟨hf, hlast⟩ := eq_singleton_of_liveAfter hlive hempty
    exact ⟨hf, hfilled hf hlast, hempty⟩
  refine ⟨?_, hstream, fun hk hfin => ?_, fun hk hfin => ?_⟩
  · rw [hcompleted, range_sdiff_eq_range_iff h.added_le
      fun i hi => h.live_lt i (liveAfter_subset hi), decide_eq_true_eq]
    exact hall
  · rw [(hgather hk).2, if_neg (of_decide_eq_false hfin)]
  · have hempty := of_decide_eq_true hfin
    obtain ⟨hf, hadded, -⟩ := hall.mp hempty
    obtain ⟨hagg, hout⟩ := hgather hk
    rw [if_pos hempty, hagg] at hout
    have hlt : completion.index < s.parent.outputAggregator.length := by
      rw [h.size hk]
      exact (h.live_lt _ hlive).trans_le h.added_le
    refine ⟨?_, fun i hi => ?_⟩
    · rw [hout, length_set, h.size hk]
    · by_cases he : i = completion.index
      · refine ⟨_, mem_append_right _ (mem_singleton_self _), hf, he.symm, ?_⟩
        rw [hout, he, List.getElem?_set_self hlt]
      · -- the other children have finished in earlier calls
        have hmem : i ∈ completed s.calls := by
          rw [h.completed_eq, Finset.mem_sdiff, Finset.mem_range, hadded,
            (eq_singleton_of_liveAfter hlive hempty).2, Finset.mem_singleton]
          exact ⟨hi, he⟩
        simp only [completed, mem_toFinset, mem_map, mem_filter] at hmem
        obtain ⟨c, ⟨hc, hcf⟩, hci⟩ := hmem
        refine ⟨c, mem_append_left _ hc, hcf, hci, ?_⟩
        rw [hout, List.getElem?_set_ne (Ne.symm he), ← hci]
        exact h.aggregated hk c hc hcf

lemma Inv.output (hindex : completion.index = index) (hlive : index ∈ s.live)
    (hfilled : completion.finished → s.live = {index} → s.added = p.n)
    (hfinal : p.outputKind = .finalOnly → completion.finished = true) :
    ∃ s', s.output index completion = .ok s' ∧ s'.Inv r p := by
  obtain ⟨outputs, agg, hok, hstream, hgather⟩ := h.output_eq hindex hlive hfinal
  subst hindex
  refine ⟨_, hok, h.params_eq, h.requestId_eq, h.added_le, ?_, rfl, ?_, ?_, ?_, ?_, ?_, ?_⟩
  · exact fun i hi => h.live_lt i (liveAfter_subset hi)
  · exact h.completed_after hlive rfl
  · intro hk
    rw [(hgather hk).1, length_set, h.size hk]
  · intro hk c hc hcf
    rw [(hgather hk).1]
    rcases mem_append.mp hc with hold | hnew
    · -- a child that finished earlier is not the live one
      have hmem : c.completion.index ∈ completed s.calls := by
        simp only [completed, mem_toFinset, mem_map, mem_filter]
        exact ⟨c, ⟨hold, hcf⟩, rfl⟩
      rw [h.completed_eq, Finset.mem_sdiff] at hmem
      have hne : completion.index ≠ c.completion.index := fun he => hmem.2 (he ▸ hlive)
      rw [List.getElem?_set_ne hne]
      exact h.aggregated hk c hold hcf
    · rw [mem_singleton.mp hnew, List.getElem?_set_self]
      rw [h.size hk]
      exact (h.live_lt _ hlive).trans_le h.added_le
  · rw [map_append, h.produced_eq]
    rfl
  · exact forall_split_append h.reports
      (h.reports_output hlive hfilled (fun hk => (hstream hk).1) hgather)
  · have hbefore := h.once
    rw [if_neg fun hdone => Finset.ne_empty_of_mem hlive hdone.2] at hbefore
    rw [filter_append, length_append, hbefore, filter_singleton]
    by_cases hempty : s.liveAfter completion = ∅
    · obtain ⟨hf, hlast⟩ := eq_singleton_of_liveAfter hlive hempty
      simp [hempty, hfilled hf hlast]
    · simp [hempty]

lemma Inv.step (op : FanOutOp L) (hallowed : s.Allowed op)
    (hfilled : s.FilledFirst op) : ∃ s', s.step op = .ok s' ∧ s'.Inv r p := by
  cases op with
  | addChild =>
    unfold Allowed at hallowed
    rw [h.params_eq] at hallowed
    exact ⟨_, rfl, h.addChild hallowed⟩
  | output index completion =>
    unfold FilledFirst at hfilled
    rw [h.params_eq] at hfilled
    by_cases hk : p.outputKind = .finalOnly ∧ ¬completion.finished
    · refine ⟨s, ?_, h⟩
      change s.output index completion = .ok s
      unfold FanOut.output
      rw [h.params_eq]
      exact if_pos hk
    · have hfinal : p.outputKind = .finalOnly → completion.finished = true := by
        intro hfo
        by_contra hnf
        exact hk ⟨hfo, hnf⟩
      change ∃ s', s.output index { completion with index } = .ok s' ∧ s'.Inv r p
      exact h.output rfl hallowed hfilled hfinal

lemma Inv.step_of_not_filledFirst (op : FanOutOp L) (hallowed : s.Allowed op) (hnot : ¬s.FilledFirst op) :
    ∃ s' call, s.step op = .ok s' ∧ s'.calls = s.calls ++ [call] ∧ call.finished = true ∧
      ¬Reports p s.calls call := by
  cases op with
  | addChild => exact absurd trivial hnot
  | output index completion =>
    unfold FilledFirst at hnot
    simp only [Classical.not_imp, h.params_eq] at hnot
    obtain ⟨hf, hlast, hadded⟩ := hnot
    obtain ⟨outputs, agg, hok, -, -⟩ := h.output_eq
      (show ({ completion with index } : CompletionOutput L).index = index from rfl) hallowed
      (fun _ => hf)
    have hempty : s.liveAfter { completion with index } = ∅ := by
      have herase : s.live.erase index = ∅ := by
        rw [hlast]
        exact Finset.erase_singleton _
      exact (if_pos hf).trans herase
    refine ⟨_, _, hok, rfl, decide_eq_true hempty, fun hreports => ?_⟩
    have hlive : ({ completion with index } : CompletionOutput L).index ∈ s.live := hallowed
    have hall := (hreports.finished_iff.mp (decide_eq_true hempty)).2
    rw [h.completed_after hlive rfl, range_sdiff_eq_range_iff h.added_le
      fun i hi => h.live_lt i (liveAfter_subset hi)] at hall
    exact hadded hall.1

end

lemma flatMap_streamed (hk : p.outputKind ≠ .finalOnly)
    (h : ∀ earlier call later, calls = earlier ++ call :: later → Reports p earlier call) :
    calls.flatMap (·.outputs) = calls.map fun c => some c.completion := by
  have hall : ∀ c ∈ calls, c.outputs = [some c.completion] := by
    intro c hc
    obtain ⟨earlier, later, hsplit⟩ := append_of_mem hc
    exact (h earlier c later hsplit).streamed hk
  rw [flatMap_congr hall]
  exact map_eq_flatMap.symm

/-- If the last live child does not finish before all are added, every call reports what it must,
and one the end. -/
theorem reaches_fan_out (externalReqId : RequestId) (hn : 0 < p.n)
    (h : Reaches step (fun s op => s.Allowed op ∧ s.FilledFirst op) (new r externalReqId p) s) :
    (∀ earlier call later, s.calls = earlier ++ call :: later → Reports p earlier call) ∧
    (s.calls.filter (·.finished)).length = (if completed s.calls = Finset.range p.n then 1 else 0) ∧
    (p.outputKind ≠ .finalOnly → s.calls.flatMap (·.outputs) = s.produced.map some) ∧ ∀ op, s.Allowed op →
      (s.FilledFirst op → ∃ s', s.step op = .ok s') ∧
      (¬s.FilledFirst op → ∃ s' call, s.step op = .ok s' ∧ s'.calls = s.calls ++ [call] ∧
        call.finished = true ∧ ¬Reports p s.calls call) := by
  have hinv : s.Inv r p := by
    refine h.invariant (Inv.new externalReqId hn) fun s op s' hs hop hstep => ?_
    obtain ⟨t, ht, hinv⟩ := hs.step op hop.1 hop.2
    rw [ht, Except.ok.injEq] at hstep
    exact hstep ▸ hinv
  refine ⟨hinv.reports, ?_, fun hk => ?_, fun op hop => ⟨fun hf => ?_, fun hf => ?_⟩⟩
  · rw [hinv.once, hinv.completed_eq]
    simp only [range_sdiff_eq_range_iff hinv.added_le hinv.live_lt]
  · rw [flatMap_streamed hk hinv.reports, hinv.produced_eq, map_map]
    rfl
  · obtain ⟨s', hs', -⟩ := hinv.step op hop hf
    exact ⟨s', hs'⟩
  · exact hinv.step_of_not_filledFirst op hop hf

instance (s : FanOut L) : (op : FanOutOp L) → Decidable (s.Allowed op)
  | .addChild => inferInstanceAs (Decidable (_ < _))
  | .output _ _ => inferInstanceAs (Decidable (_ ∈ _))

instance (s : FanOut L) : (op : FanOutOp L) → Decidable (s.FilledFirst op)
  | .addChild => inferInstanceAs (Decidable True)
  | .output _ _ => inferInstanceAs (Decidable (_ → _ → _))

def pairParams : ParallelSamplingParams where
  maxTokens := 1
  n := 2
  outputKind := .finalOnly

def aborted (index : ℕ) : CompletionOutput Unit where
  index
  text := []
  tokenIds := []
  finishReason := some .abort

theorem reaches_fan_out_pair : ∃ s : FanOut Unit,
    Reaches step (fun s op => s.Allowed op ∧ s.FilledFirst op) (new "req" "ext" pairParams) s ∧
    s.calls = [⟨aborted 1, [], false⟩, ⟨aborted 0, [some (aborted 0), some (aborted 1)], true⟩] ∧
    (s.calls.filter (·.finished)).length =
      (if completed s.calls = Finset.range pairParams.n then 1 else 0) := by
  have hrun : (runAllowed step (fun s op => s.Allowed op ∧ s.FilledFirst op)
      (new "req" "ext" pairParams) [.addChild, .addChild, .output 1 (aborted 1),
        .output 0 (aborted 0)]).map (fun s => s.calls) =
      some [⟨aborted 1, [], false⟩, ⟨aborted 0, [some (aborted 0), some (aborted 1)], true⟩] := by
    decide +kernel
  rw [Option.map_eq_some_iff] at hrun
  obtain ⟨s, hs, hcalls⟩ := hrun
  have hreach := Reaches.start.append_runAllowed hs
  exact ⟨s, hreach, hcalls, (reaches_fan_out "ext" (by decide) hreach).2.1⟩

/-- The first of two children finishes before the second is added, and the request ends twice. -/
theorem first_child_ends_request : ∃ s : FanOut Unit,
    Reaches step Allowed (new "req" "ext" pairParams) s ∧
    s.calls = [⟨aborted 0, [some (aborted 0), none], true⟩,
      ⟨aborted 1, [some (aborted 0), some (aborted 1)], true⟩] ∧
    (s.calls.filter (·.finished)).length = 2 ∧
    ¬∀ earlier call later, s.calls = earlier ++ call :: later → Reports pairParams earlier call := by
  have hrun : (runAllowed step Allowed (new "req" "ext" pairParams) [.addChild,
      .output 0 (aborted 0), .addChild, .output 1 (aborted 1)]).map (fun s => s.calls) =
      some [⟨aborted 0, [some (aborted 0), none], true⟩,
        ⟨aborted 1, [some (aborted 0), some (aborted 1)], true⟩] := by
    decide +kernel
  rw [Option.map_eq_some_iff] at hrun
  obtain ⟨s, hs, hcalls⟩ := hrun
  refine ⟨s, Reaches.start.append_runAllowed hs, hcalls, by rw [hcalls]; rfl, fun hall => ?_⟩
  have hends := ((hall [] _ _ hcalls).finished_iff.mp rfl).2
  revert hends
  decide +kernel

end FanOut

end CustomAi.Vllm
