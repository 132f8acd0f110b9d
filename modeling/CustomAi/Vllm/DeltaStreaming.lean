import CustomAi.Vllm.Detokenizer
import CustomAi.Vllm.ParallelSampling

/-!
# Streaming the output of a request in deltas

`RequestState.make_request_output` of `vllm/v1/engine/output_processor.py`, the part of
`process_outputs` and `abort_requests` that calls it for a request, and the run of a request
until it ends.
-/

namespace CustomAi.Vllm

open List Option

variable {L D : Type}

structure SampledOutput (L : Type) extends EngineCoreOutput where
  newLogprobs : Option (List L) := none

structure RequestOutput (L : Type) where
  requestId : RequestId
  outputs : List (Option (CompletionOutput L))
  finished : Bool
  deriving DecidableEq, Repr

/-- `RequestState` with the `logprobs` of its processor, and whether it has a queue. -/
structure RequestState (L D : Type) where
  requestId : RequestId
  externalReqId : RequestId
  requestIndex : ℕ := 0
  outputKind : RequestOutputKind
  logprobs : Option (List L)
  detokenizer : IncrementalDetokenizer D
  queue : Bool
  streamInterval : ℕ
  sentTokensOffset : ℕ := 0

namespace RequestState

def newCompletionOutput (self : RequestState L D) (tokenIds : List TokenId)
    (finishReason : Option FinishReason) (stopReason : Option StopReason) :
    CompletionOutput L × RequestState L D :=
  let finished := finishReason.isSome
  let delta : Bool := decide (self.outputKind = .delta)
  let (text, detokenizer) := self.detokenizer.getNextOutputText finished delta
  let tokenIds := if ¬delta then detokenizer.outputTokenIds else tokenIds
  let logprobs :=
    if delta then self.logprobs.map fun l => pySlice l (-(tokenIds.length : ℤ)) l.length
    else self.logprobs
  ({ index := self.requestIndex, text, tokenIds, logprobs, finishReason
     stopReason := if finished then stopReason else none }, { self with detokenizer })

/-- `make_request_output` for a request that is not pooled. -/
def makeRequestOutput (self : RequestState L D) (parentReq : Option (ParentRequest L))
    (newTokenIds : List TokenId) (finishReason : Option FinishReason)
    (stopReason : Option StopReason) :
    Except PyError (Option (RequestOutput L) × RequestState L D × Option (ParentRequest L)) := do
  let finished := finishReason.isSome
  if ¬finished ∧ self.outputKind = .finalOnly then return (none, self, parentReq)
  let numTokens := self.detokenizer.outputTokenIds.length
  if 1 < self.streamInterval ∧ ¬(finished ∨ self.sentTokensOffset = 0 ∨
      self.streamInterval ≤ numTokens - self.sentTokensOffset) then
    return (none, self, parentReq)
  let delayed : Bool := decide (1 < self.streamInterval ∧ self.outputKind = .delta)
  let newTokenIds :=
    if delayed then self.detokenizer.outputTokenIds.drop self.sentTokensOffset else newTokenIds
  let self := { self with sentTokensOffset := if delayed then numTokens else self.sentTokensOffset }
  let (output, self) := self.newCompletionOutput newTokenIds finishReason stopReason
  match parentReq with
  | none => return (some ⟨self.externalReqId, [some output], finished⟩, self, none)
  | some parent =>
    let (outputs, finished, parent) ← parent.getOutputs self.requestId output
    if outputs.isEmpty then return (none, self, some parent)
    return (some ⟨parent.externalReqId, outputs, finished⟩, self, some parent)

/-- `LogprobsProcessor.update_from_output` -/
def updateLogprobs (self : RequestState L D) (newLogprobs : Option (List L)) :
    Except PyError (Option (List L)) := do
  match newLogprobs with
  | none => return self.logprobs
  | some l =>
    ensure (self.logprobs.isSome) (.assertionError "")
    return self.logprobs.map (· ++ l)

/-- The part of `process_outputs` for one output. -/
def processOutput (decodeNext : D → List TokenId → List Char × D) (self : RequestState L D)
    (parentReq : Option (ParentRequest L)) (output : SampledOutput L) :
    Except PyError (Option (RequestOutput L) × Option FinishReason × RequestState L D ×
      Option (ParentRequest L)) := do
  let (stopString, detokenizer) := self.detokenizer.update decodeNext output.newTokenIds
    (decide (output.finishReason = some .stop))
  -- a stop string is never empty
  let finishReason := if stopString.isSome then some .stop else output.finishReason
  let stopReason := (stopString.map .string).or (output.stopReason.map .token)
  let logprobs ← self.updateLogprobs output.newLogprobs
  let (requestOutput, self, parentReq) ← makeRequestOutput { self with detokenizer, logprobs }
    parentReq output.newTokenIds finishReason stopReason
  return (requestOutput, finishReason, self, parentReq)

def toSend (self : RequestState L D) (newTokenIds : List TokenId) : List TokenId :=
  if 1 < self.streamInterval then self.detokenizer.outputTokenIds.drop self.sentTokensOffset
  else newTokenIds

variable {self : RequestState L D} {parentReq : Option (ParentRequest L)}

/-- The tokens wait for the interval, or one completion with everything not sent is emitted. -/
lemma makeRequestOutput_spec (hdelta : self.outputKind = .delta)
    (hparent : ∀ parent ∈ parentReq, self.requestId ∈ parent.childRequests ∧
      parent.samplingParams.outputKind = .delta)
    (newTokenIds : List TokenId) (finishReason : Option FinishReason) (stopReason : Option StopReason) :
    ∃ out self' parentReq', self.makeRequestOutput parentReq newTokenIds finishReason stopReason =
      .ok (out, self', parentReq') ∧ ((out = none ∧ self' = self ∧ finishReason = none ∧ 1 < self.streamInterval ∧
      self.sentTokensOffset ≠ 0) ∨ ∃ externalReqId completion finished detokenizer,
      out = some ⟨externalReqId, [some completion], finished⟩ ∧
      self.detokenizer.getNextOutputText finishReason.isSome true = (completion.text, detokenizer) ∧
      completion.tokenIds = self.toSend newTokenIds ∧
      completion.logprobs = self.logprobs.map (fun l =>
        pySlice l (-((self.toSend newTokenIds).length : ℤ)) l.length) ∧
      self' = { self with
        detokenizer
        sentTokensOffset := if 1 < self.streamInterval then
          self.detokenizer.outputTokenIds.length else self.sentTokensOffset } ∧
      (finishReason = none → 1 < self.streamInterval → self.sentTokensOffset = 0 ∨ self.streamInterval ≤
          self.detokenizer.outputTokenIds.length - self.sentTokensOffset)) := by
  obtain ⟨requestId, externalReqId, requestIndex, outputKind, logprobs, detokenizer, queue,
    streamInterval, sentTokensOffset⟩ := self
  subst hdelta
  unfold makeRequestOutput
  simp only [reduceCtorEq, and_false, ite_false, and_true, decide_eq_true_eq]
  by_cases hwait : 1 < streamInterval ∧ ¬(finishReason.isSome = true ∨ sentTokensOffset = 0 ∨
      streamInterval ≤ detokenizer.outputTokenIds.length - sentTokensOffset)
  · rw [if_pos hwait]
    obtain ⟨hint, hno⟩ := hwait
    have hnone : finishReason = none := not_isSome_iff_eq_none.mp fun hsome => hno (.inl hsome)
    exact ⟨none, _, parentReq, rfl, .inl ⟨rfl, rfl, hnone, hint, fun h0 => hno (.inr (.inl h0))⟩⟩
  · rw [if_neg hwait]
    have hready : finishReason = none → 1 < streamInterval → sentTokensOffset = 0 ∨
        streamInterval ≤ detokenizer.outputTokenIds.length - sentTokensOffset := by
      intro hnone hint
      by_contra hno
      refine hwait ⟨hint, fun hor => ?_⟩
      rcases hor with hsome | hor
      · rw [hnone] at hsome
        cases hsome
      · exact hno hor
    cases hn : detokenizer.getNextOutputText finishReason.isSome true with
    | mk text detokenizer' =>
      simp only [newCompletionOutput, decide_true, not_true_eq_false, ite_false, ite_true, hn]
      cases parentReq with
      | none => exact ⟨_, _, _, rfl, .inr ⟨_, _, _, _, rfl, rfl, rfl, rfl, rfl, hready⟩⟩
      | some parent =>
        obtain ⟨hchild, hkind⟩ := hparent parent rfl
        have hne : parent.samplingParams.outputKind ≠ .finalOnly := by
          rw [hkind]
          nofun
        obtain ⟨finished, parent', hget⟩ := ParentRequest.getOutputs_streamed hne hchild
          { index := requestIndex, text
            tokenIds := if 1 < streamInterval then detokenizer.outputTokenIds.drop sentTokensOffset
              else newTokenIds
            logprobs := logprobs.map fun l => pySlice l (-((if 1 < streamInterval then
              detokenizer.outputTokenIds.drop sentTokensOffset else newTokenIds).length : ℤ)) l.length
            finishReason
            stopReason := if finishReason.isSome = true then stopReason else none }
        simp only [hget, ok_bind]
        exact ⟨_, _, _, rfl, .inr ⟨_, _, _, _, rfl, rfl, rfl, rfl, rfl, hready⟩⟩

end RequestState

/-- A streamed request: what was emitted and generated, and whether it has ended. -/
structure DeltaStream (L D : Type) where
  state : RequestState L D
  emitted : List (RequestOutput L) := []
  tokens : List TokenId := []
  ended : Bool := false

/-- An output of the engine or an abort, with the parent as the other children left it. -/
inductive DeltaOp (L : Type)
  | output (output : SampledOutput L) (parentReq : Option (ParentRequest L))
  | abort (parentReq : Option (ParentRequest L))

namespace DeltaStream

variable {decodeNext : D → List TokenId → List Char × D}

/-- Outputs and aborts of a request that has ended are ignored. An abort without a queue makes no
output. -/
def step (decodeNext : D → List TokenId → List Char × D) (s : DeltaStream L D) :
    DeltaOp L → Except PyError (DeltaStream L D)
  | .output output parentReq =>
    if s.ended then .ok s
    else do
      let (requestOutput, finishReason, state, _) ←
        s.state.processOutput decodeNext parentReq output
      return { state, emitted := s.emitted ++ requestOutput.toList
               tokens := s.tokens ++ output.newTokenIds, ended := finishReason.isSome }
  | .abort parentReq =>
    if s.ended then .ok s
    else if s.state.queue then do
      let (requestOutput, state, _) ←
        s.state.makeRequestOutput parentReq [] (some .abort) none
      return { s with state, emitted := s.emitted ++ requestOutput.toList, ended := true }
    else .ok { s with ended := true }

def ParentOk (s : DeltaStream L D) (parentReq : Option (ParentRequest L)) : Prop :=
  ∀ parent ∈ parentReq, s.state.requestId ∈ parent.childRequests ∧ parent.samplingParams.outputKind = .delta

/-- An output that does not end the request has a token, with log probabilities if asked for. -/
def Allowed (s : DeltaStream L D) : DeltaOp L → Prop
  | .output output parentReq => s.ParentOk parentReq ∧ (output.finishReason = none → output.newTokenIds ≠ []) ∧
    (s.state.logprobs = none → output.newLogprobs = none) ∧
    (s.state.logprobs.isSome → (output.newLogprobs.getD []).length = output.newTokenIds.length)
  | .abort parentReq => s.ParentOk parentReq

def completions (s : DeltaStream L D) : List (CompletionOutput L) :=
  s.emitted.flatMap fun o => o.outputs.reduceOption

def shownText (s : DeltaStream L D) : List Char := s.completions.flatMap (·.text)

def shownTokens (s : DeltaStream L D) : List TokenId := s.completions.flatMap (·.tokenIds)

def shownLogprobs (s : DeltaStream L D) : List L :=
  s.completions.flatMap fun c => c.logprobs.getD []

/-- The consumer has seen all of the output. -/
structure Complete (s : DeltaStream L D) : Prop where
  text : s.shownText = s.state.detokenizer.outputText
  tokens : s.shownTokens = s.tokens
  logprobs : s.shownLogprobs = s.state.logprobs.getD []

def numSent (s : DeltaStream L D) : ℕ :=
  if 1 < s.state.streamInterval then s.state.sentTokensOffset else s.tokens.length

/-- An end that emits an output has a token to send, and one that emits none has nothing left. -/
def EndsClean (s : DeltaStream L D) : DeltaOp L → Prop
  | .output output _ => s.state.logprobs = none ∨ s.tokens ++ output.newTokenIds = [] ∨
    s.numSent < s.tokens.length + output.newTokenIds.length
  | .abort _ =>
    if s.state.queue then
      s.state.logprobs = none ∨ s.tokens = [] ∨ s.numSent < s.tokens.length
    else s.state.detokenizer.shown = s.state.detokenizer.outputText ∧ s.numSent = s.tokens.length

end DeltaStream

end CustomAi.Vllm

/-!
## The deltas of a request make up its output

Every output emitted for a request continues the text, the tokens and the log probabilities that
were emitted before.
-/

namespace CustomAi.Vllm

open List Option

variable {L D : Type}

namespace DeltaStream

variable {decodeNext : D → List TokenId → List Char × D} {s s' : DeltaStream L D}
  {state : RequestState L D} {tokens newTokenIds : List TokenId}
  {sent : List (CompletionOutput L)} {completion : CompletionOutput L} {n : ℕ}

/-- What is in `sent` carried the first `n` tokens, their log probabilities and the text. -/
structure Books (state : RequestState L D) (tokens : List TokenId)
    (sent : List (CompletionOutput L)) (n : ℕ) : Prop where
  delta : state.outputKind = .delta
  tokens_eq : state.detokenizer.outputTokenIds = tokens
  logprobs_size : ∀ lp ∈ state.logprobs, lp.length = tokens.length
  offset : state.detokenizer.OffsetOk
  text : sent.flatMap (·.text) = state.detokenizer.shown
  le : n ≤ tokens.length
  tokenIds : sent.flatMap (·.tokenIds) = tokens.take n
  logprobs : sent.flatMap (fun c => c.logprobs.getD []) = (state.logprobs.getD []).take n

/-- A slice of as many log probabilities as there are tokens to send is the rest, unless it is
empty. -/
lemma take_append_pySlice {lp : List L} (hlen : lp.length = tokens.length) (hn : n ≤ tokens.length) :
    lp.take n ++ pySlice lp (-((tokens.drop n).length : ℤ)) lp.length = lp ↔ n < tokens.length ∨ lp = [] := by
  rw [pySlice_neg, length_drop]
  by_cases hlt : n < tokens.length
  · have hsub : lp.length - (tokens.length - n) = n := by omega
    rw [if_neg (by omega), hsub, take_append_drop]
    exact ⟨fun _ => .inl hlt, fun _ => rfl⟩
  · have hall : lp.take n = lp := take_of_length_le (by omega)
    rw [if_pos (by omega), hall]
    constructor
    · intro h
      exact .inr (append_left_eq_self.mp h)
    · intro h
      rw [h.resolve_left hlt, append_nil]

variable {finished : Bool} {detokenizer : IncrementalDetokenizer D}

section

variable (h : Books state tokens sent n)
include h

lemma Books.emit (hnext : state.detokenizer.getNextOutputText finished true = (completion.text, detokenizer))
    (htokens : completion.tokenIds = tokens.drop n) (hlogprobs : completion.logprobs = state.logprobs.map fun l =>
      pySlice l (-((tokens.drop n).length : ℤ)) l.length) :
    (sent ++ [completion]).flatMap (·.text) = detokenizer.shown ∧
    (sent ++ [completion]).flatMap (·.tokenIds) = tokens ∧
    ((sent ++ [completion]).flatMap (fun c => c.logprobs.getD []) = state.logprobs.getD [] ↔
      n < tokens.length ∨ state.logprobs.getD [] = []) := by
  obtain ⟨-, -, hshown, -⟩ := IncrementalDetokenizer.getNextOutputText_spec h.offset hnext
  refine ⟨?_, ?_, ?_⟩
  · rw [flatMap_append, flatMap_singleton, h.text, hshown]
  · rw [flatMap_append, flatMap_singleton, h.tokenIds, htokens, take_append_drop]
  · rw [flatMap_append, flatMap_singleton, h.logprobs, hlogprobs]
    cases hlp : state.logprobs with
    | none => simp
    | some lp => exact take_append_pySlice (h.logprobs_size lp hlp) h.le

lemma Books.emitted (hlt : n < tokens.length)
    (hnext : state.detokenizer.getNextOutputText finished true = (completion.text, detokenizer))
    (htokens : completion.tokenIds = tokens.drop n) (hlogprobs : completion.logprobs = state.logprobs.map fun l =>
      pySlice l (-((tokens.drop n).length : ℤ)) l.length) (sentTokensOffset : ℕ) :
    Books { state with detokenizer, sentTokensOffset } tokens (sent ++ [completion]) tokens.length := by
  obtain ⟨htext, htok, hlp⟩ := h.emit hnext htokens hlogprobs
  obtain ⟨hids, -, -, hoffset, -⟩ := IncrementalDetokenizer.getNextOutputText_spec h.offset hnext
  refine ⟨h.delta, hids.trans h.tokens_eq, h.logprobs_size, hoffset, htext, le_rfl, ?_, ?_⟩
  · rw [htok, take_length]
  · rw [hlp.mpr (.inl hlt)]
    refine (take_of_length_le ?_).symm
    cases hstate : state.logprobs with
    | none => exact Nat.zero_le _
    | some lp => exact (h.logprobs_size lp hstate).le

lemma Books.update (hheld : state.detokenizer.HeldBack)
    {stopTerminated : Bool} {stopString : Option (List Char)} {logprobs : Option (List L)}
    (hupdate : state.detokenizer.update decodeNext newTokenIds stopTerminated = (stopString, detokenizer))
    (hlogprobs : ∀ lp ∈ logprobs, ∃ old ∈ state.logprobs, ∃ new, lp = old ++ new ∧
      new.length = newTokenIds.length) (hnone : logprobs = none → state.logprobs = none) :
    Books { state with detokenizer, logprobs } (tokens ++ newTokenIds) sent n := by
  obtain ⟨hids, hshown, -, hoffset⟩ := IncrementalDetokenizer.update_spec hheld hupdate
  have hle : n ≤ (tokens ++ newTokenIds).length := by
    rw [length_append]
    exact h.le.trans (Nat.le_add_right _ _)
  refine ⟨h.delta, by rw [← h.tokens_eq]; exact hids, fun lp hlp => ?_, hoffset,
    h.text.trans hshown.symm, hle, ?_, ?_⟩
  · obtain ⟨old, hold, new, rfl, hlen⟩ := hlogprobs lp hlp
    rw [length_append, length_append, h.logprobs_size old hold, hlen]
  · rw [h.tokenIds, take_append_of_le_length h.le]
  · rw [h.logprobs]
    cases hl : logprobs with
    | none => rw [hnone hl]
    | some lp =>
      obtain ⟨old, hold, new, rfl, -⟩ := hlogprobs lp hl
      rw [mem_def.mp hold, getD_some, getD_some, take_append_of_le_length]
      rw [h.logprobs_size old hold]
      exact h.le

lemma Books.logprobs_eq_nil_iff : state.logprobs.getD [] = [] ↔ state.logprobs = none ∨ tokens = [] := by
  cases hl : state.logprobs with
  | none => simp
  | some lp =>
    rw [getD_some, ← length_eq_zero_iff, h.logprobs_size lp hl]
    simp

end

lemma updateLogprobs_spec {newLogprobs : Option (List L)} (hnone : state.logprobs = none → newLogprobs = none)
    (hlen : state.logprobs.isSome → (newLogprobs.getD []).length = newTokenIds.length) :
    ∃ logprobs, state.updateLogprobs newLogprobs = .ok logprobs ∧
      (∀ lp ∈ logprobs, ∃ old ∈ state.logprobs, ∃ new, lp = old ++ new ∧ new.length = newTokenIds.length) ∧
      (logprobs = none ↔ state.logprobs = none) := by
  unfold RequestState.updateLogprobs
  cases hl : state.logprobs with
  | none =>
    rw [hnone hl]
    exact ⟨none, rfl, nofun, Iff.rfl⟩
  | some old =>
    have hsize := hlen (by rw [hl]; rfl)
    cases newLogprobs with
    | none =>
      refine ⟨some old, rfl, fun lp hlp => ⟨old, rfl, [], ?_, hsize⟩, Iff.rfl⟩
      rw [append_nil]
      exact (Option.some.inj hlp).symm
    | some new =>
      refine ⟨some (old ++ new), rfl, fun lp hlp => ⟨old, rfl, new, ?_, hsize⟩, by simp⟩
      exact (Option.some.inj hlp).symm

structure Inv (s : DeltaStream L D) : Prop where
  text : s.shownText = s.state.detokenizer.shown
  live : s.ended = false → Books s.state s.tokens s.completions s.numSent ∧ s.state.detokenizer.HeldBack

structure StepOk (s : DeltaStream L D) (op : DeltaOp L) (s' : DeltaStream L D) : Prop where
  inv : s'.Inv
  grows : s.shownText <+: s'.shownText
  ends : s.ended = false → s'.ended = true → (s'.Complete ↔ s.EndsClean op)

lemma completions_emit (state : RequestState L D) (emitted : List (RequestOutput L))
    (externalReqId : RequestId) (completion : CompletionOutput L) (finished : Bool)
    (tokens : List TokenId) (ended : Bool) :
    (⟨state, emitted ++ (some ⟨externalReqId, [some completion], finished⟩ :
      Option (RequestOutput L)).toList, tokens, ended⟩ : DeltaStream L D).completions =
    emitted.flatMap (fun o => o.outputs.reduceOption) ++ [completion] := by
  unfold completions
  rw [flatMap_append]
  rfl

variable {parentReq : Option (ParentRequest L)}

lemma Books.make {emitted : List (RequestOutput L)}
    (h : Books state tokens (emitted.flatMap fun o => o.outputs.reduceOption) n)
    (hparent : ∀ parent ∈ parentReq, state.requestId ∈ parent.childRequests ∧
      parent.samplingParams.outputKind = .delta) (hsend : state.toSend newTokenIds = tokens.drop n)
    (hn : 1 < state.streamInterval → n = state.sentTokensOffset)
    (finishReason : Option FinishReason) (stopReason : Option StopReason)
    (hheld : finishReason = none → state.detokenizer.HeldBack)
    (hnew : finishReason = none → (1 < state.streamInterval → n = 0 ∨
      state.streamInterval ≤ tokens.length - n) → n < tokens.length) : ∃ out state' parentReq',
      state.makeRequestOutput parentReq newTokenIds finishReason stopReason = .ok (out, state', parentReq') ∧
      Inv ⟨state', emitted ++ out.toList, tokens, finishReason.isSome⟩ ∧ state.detokenizer.shown <+:
        shownText (⟨state', emitted ++ out.toList, tokens, finishReason.isSome⟩ : DeltaStream L D) ∧
      (finishReason.isSome = true → (Complete ⟨state', emitted ++ out.toList, tokens, finishReason.isSome⟩ ↔
          n < tokens.length ∨ state.logprobs = none ∨ tokens = [])) := by
  obtain ⟨out, state', parentReq', hmake, hcases⟩ :=
    RequestState.makeRequestOutput_spec h.delta hparent newTokenIds finishReason stopReason
  refine ⟨out, state', parentReq', hmake, ?_⟩
  rcases hcases with ⟨rfl, rfl, rfl, hint, -⟩ |
    ⟨externalReqId, completion, finished, detokenizer, rfl, hnext, htok, hlp, rfl, hready⟩
  · have hsame : (⟨state', emitted ++ (none : Option (RequestOutput L)).toList, tokens,
        (none : Option FinishReason).isSome⟩ : DeltaStream L D).completions =
        emitted.flatMap fun o => o.outputs.reduceOption := by
      unfold completions
      rw [toList_none, append_nil]
    refine ⟨⟨?_, fun _ => ⟨?_, hheld rfl⟩⟩, ?_, nofun⟩
    · unfold shownText
      rw [hsame]
      exact h.text
    · rw [hsame]
      have hsent : (⟨state', emitted ++ (none : Option (RequestOutput L)).toList, tokens,
          (none : Option FinishReason).isSome⟩ : DeltaStream L D).numSent = n := by
        unfold numSent
        rw [if_pos hint, hn hint]
      rw [hsent]
      exact h
    · unfold shownText
      rw [hsame, h.text]
  · rw [hsend] at htok hlp
    obtain ⟨htext, htokens, hlogprobs⟩ := h.emit hnext htok hlp
    obtain ⟨-, -, hshown, -, hall, hheldNew⟩ := IncrementalDetokenizer.getNextOutputText_spec h.offset hnext
    have hcomp := fun st : RequestState L D => completions_emit st emitted externalReqId
      completion finished tokens finishReason.isSome
    refine ⟨⟨?_, fun hlive => ?_⟩, ?_, fun hfin => ?_⟩
    · unfold shownText
      rw [hcomp]
      exact htext
    · have hnone : finishReason = none := not_isSome_iff_eq_none.mp (by simpa using hlive)
      have hlt : n < tokens.length := by
        refine hnew hnone fun hint => ?_
        rw [hn hint, ← h.tokens_eq]
        exact hready hnone hint
      refine ⟨?_, hheldNew (by simpa using hlive) (hheld hnone)⟩
      rw [hcomp]
      have hsent : numSent (⟨{ state with
          detokenizer
          sentTokensOffset := if 1 < state.streamInterval then
            state.detokenizer.outputTokenIds.length else state.sentTokensOffset },
          emitted ++ (some ⟨externalReqId, [some completion], finished⟩ :
            Option (RequestOutput L)).toList, tokens, finishReason.isSome⟩ : DeltaStream L D) = tokens.length := by
        unfold numSent
        split
        · rw [h.tokens_eq]
        · rfl
      rw [hsent]
      exact h.emitted hlt hnext htok hlp _
    · unfold shownText
      rw [hcomp, htext, hshown]
      exact prefix_append _ _
    · have hfull : detokenizer.shown = detokenizer.outputText := hall hfin
      rw [← h.logprobs_eq_nil_iff, ← hlogprobs]
      constructor
      · intro hc
        have hl := hc.logprobs
        unfold shownLogprobs at hl
        rw [hcomp] at hl
        exact hl
      · intro hl
        refine ⟨?_, ?_, ?_⟩
        · unfold shownText
          rw [hcomp, htext]
          exact hfull
        · unfold shownTokens
          rw [hcomp]
          exact htokens
        · unfold shownLogprobs
          rw [hcomp]
          exact hl

lemma Inv.output (h : s.Inv) (hlive : s.ended = false) {output : SampledOutput L}
    (hallowed : s.Allowed (.output output parentReq)) :
    ∃ s', s.step decodeNext (.output output parentReq) = .ok s' ∧ StepOk s (.output output parentReq) s' := by
  obtain ⟨hparent, htoken, hnone, hlen⟩ := hallowed
  obtain ⟨hbooks, hheld⟩ := h.live hlive
  obtain ⟨logprobs, hlogprobs, hnew, hnoneIff⟩ := updateLogprobs_spec hnone hlen
  cases hupdate : s.state.detokenizer.update decodeNext output.newTokenIds
      (decide (output.finishReason = some .stop)) with
  | mk stopString detokenizer =>
    obtain ⟨hids, hshown, hheldNew, -⟩ := IncrementalDetokenizer.update_spec hheld hupdate
    have hmid := hbooks.update hheld hupdate hnew hnoneIff.mp
    have hsend : ({ s.state with detokenizer, logprobs } : RequestState L D).toSend
        output.newTokenIds = (s.tokens ++ output.newTokenIds).drop s.numSent := by
      unfold RequestState.toSend numSent
      split
      · rw [hids, hbooks.tokens_eq]
      · rw [drop_left]
    -- without a stop string the finish reason is the one of the engine
    have hreason : (if stopString.isSome then some .stop else output.finishReason) = none →
        stopString = none ∧ output.finishReason = none := by
      cases stopString with
      | none => exact fun hr => ⟨rfl, hr⟩
      | some stop => nofun
    obtain ⟨out, state, parentReq', hmake, hinv, hgrows, hends⟩ := hmid.make hparent hsend
      (fun hint => if_pos hint) (if stopString.isSome then some .stop else output.finishReason)
      ((stopString.map .string).or (output.stopReason.map .token))
      (fun hr => hheldNew (hreason hr).1) (fun hr hready => by
        have hpos := length_pos_of_ne_nil (htoken (hreason hr).2)
        rw [length_append] at hready ⊢
        have hle := hbooks.le
        by_cases hint : 1 < s.state.streamInterval
        · rcases hready hint with h0 | -
          · omega
          · omega
        · omega)
    refine ⟨_, ?_, hinv, ?_, fun _ hended => ?_⟩
    · simp only [step, hlive, Bool.false_eq_true, ite_false, RequestState.processOutput, hupdate,
        hlogprobs, hmake, ok_bind, pure_eq_ok]
    · rw [h.text, ← hshown]
      exact hgrows
    · rw [hends hended, length_append]
      rw [hnoneIff]
      exact or_comm.trans or_assoc

lemma Inv.abort (h : s.Inv) (hlive : s.ended = false) (hallowed : s.Allowed (.abort parentReq)) :
    ∃ s', s.step decodeNext (.abort parentReq) = .ok s' ∧ StepOk s (.abort parentReq) s' := by
  obtain ⟨hbooks, -⟩ := h.live hlive
  cases hq : s.state.queue with
  | true =>
    have hsend : s.state.toSend [] = s.tokens.drop s.numSent := by
      unfold RequestState.toSend numSent
      split
      · rw [hbooks.tokens_eq]
      · rw [drop_length]
    obtain ⟨out, state, parentReq', hmake, hinv, hgrows, hends⟩ := hbooks.make hallowed hsend
      (fun hint => if_pos hint) (some .abort) none nofun nofun
    refine ⟨_, ?_, hinv, ?_, fun _ hended => ?_⟩
    · simp only [step, hlive, Bool.false_eq_true, ite_false, hq, ite_true, hmake, ok_bind, pure_eq_ok]
      rfl
    · rw [h.text]
      exact hgrows
    · rw [hends hended]
      unfold EndsClean
      rw [if_pos hq]
      exact or_comm.trans or_assoc
  | false =>
    refine ⟨{ s with ended := true }, ?_, ⟨h.text, nofun⟩, prefix_rfl, fun _ _ => ?_⟩
    · simp only [step, hlive, Bool.false_eq_true, ite_false, hq]
    · have hle := hbooks.le
      unfold EndsClean
      rw [if_neg (by rw [hq]; nofun)]
      constructor
      · rintro ⟨htext, htokens, -⟩
        refine ⟨h.text.symm.trans htext, ?_⟩
        have hlen : (s.tokens.take s.numSent).length = s.tokens.length :=
          congrArg List.length (hbooks.tokenIds.symm.trans htokens)
        rw [length_take] at hlen
        omega
      · rintro ⟨hshown, hsent⟩
        refine ⟨h.text.trans hshown, hbooks.tokenIds.trans ?_, hbooks.logprobs.trans ?_⟩
        · rw [hsent, take_length]
        · refine take_of_length_le ?_
          cases hl : s.state.logprobs with
          | none => exact Nat.zero_le _
          | some lp =>
            rw [hsent]
            exact (hbooks.logprobs_size lp hl).le

lemma Inv.step (h : s.Inv) (decodeNext : D → List TokenId → List Char × D) (op : DeltaOp L)
    (hallowed : s.Allowed op) : ∃ s', s.step decodeNext op = .ok s' ∧ StepOk s op s' := by
  cases hlive : s.ended with
  | true =>
    refine ⟨s, ?_, h, prefix_rfl, fun hfalse => ?_⟩
    · cases op <;> simp only [DeltaStream.step, hlive, ite_true]
    · rw [hlive] at hfalse
      cases hfalse
  | false =>
    cases op with
    | output output parentReq => exact h.output hlive hallowed
    | abort parentReq => exact h.abort hlive hallowed

/-- A new request that streams deltas. -/
structure Fresh (state : RequestState L D) : Prop where
  delta : state.outputKind = .delta
  tokens : state.detokenizer.outputTokenIds = []
  text : state.detokenizer.outputText = []
  offset : state.detokenizer.OffsetOk
  logprobs : ∀ lp ∈ state.logprobs, lp = []
  unsent : state.sentTokensOffset = 0

lemma Fresh.inv (h : Fresh state) : Inv ⟨state, [], [], false⟩ := by
  have hshown : state.detokenizer.shown = [] := by
    have hpre := state.detokenizer.shown_prefix
    rw [h.text] at hpre
    exact prefix_nil.mp hpre
  have hsent : numSent (⟨state, [], [], false⟩ : DeltaStream L D) = 0 := by
    unfold numSent
    split
    · exact h.unsent
    · rfl
  refine ⟨hshown.symm, fun _ => ⟨⟨h.delta, h.tokens, fun lp hlp => ?_, h.offset, hshown.symm, ?_, ?_, ?_⟩, ?_⟩⟩
  · rw [h.logprobs lp hlp]
    rfl
  · rw [hsent]
    exact Nat.zero_le _
  · rw [hsent]
    rfl
  · rw [hsent]
    rfl
  · cases hd : state.detokenizer with
    | tokensOnly tokenIds => trivial
    | base self =>
      have htext := h.text
      have hoffset := h.offset
      rw [hd] at htext hoffset
      change self.outputText = [] at htext
      change self.lastOutputTextOffset ≤ self.outputText.length at hoffset
      rw [htext] at hoffset
      exact .inl (Nat.le_zero.mp hoffset)

lemma Inv.reaches (h : s.Inv) (hr : Reaches (DeltaStream.step decodeNext) Allowed s s') :
    s'.Inv ∧ s.shownText <+: s'.shownText := by
  induction hr with
  | start => exact ⟨h, prefix_rfl⟩
  | step op _ hop hstep ih =>
    obtain ⟨u, hu, hok⟩ := ih.1.step decodeNext op hop
    rw [hu, Except.ok.injEq] at hstep
    exact hstep ▸ ⟨hok.inv, ih.2.trans hok.grows⟩

/-- No text is taken back, and the end completes text, tokens and log probabilities if and only if
it is clean. -/
theorem reaches_partition (hfresh : Fresh state) (h : Reaches (step decodeNext) Allowed ⟨state, [], [], false⟩ s) :
    (∀ s', Reaches (step decodeNext) Allowed s s' → s.shownText <+: s'.state.detokenizer.outputText) ∧
    ∀ op, s.Allowed op → ∃ s', s.step decodeNext op = .ok s' ∧
      (s.ended = false → s'.ended = true → (s'.Complete ↔ s.EndsClean op)) := by
  have hinv := (hfresh.inv.reaches h).1
  refine ⟨fun s' hs' => ?_, fun op hop => ?_⟩
  · obtain ⟨hinv', hgrows⟩ := hinv.reaches hs'
    rw [hinv'.text] at hgrows
    exact hgrows.trans s'.state.detokenizer.shown_prefix
  · obtain ⟨s', hs', hok⟩ := hinv.step decodeNext op hop
    exact ⟨s', hs', hok.ends⟩

instance (s : DeltaStream L D) : (op : DeltaOp L) → Decidable (s.Allowed op)
  | .output _ _ => inferInstanceAs (Decidable ((∀ parent ∈ _, _ ∧ _) ∧ (_ → _) ∧ (_ → _) ∧ (_ → _)))
  | .abort _ => inferInstanceAs (Decidable (∀ parent ∈ _, _ ∧ _))

def charDecode (_ : Unit) (tokenIds : List TokenId) : List Char × Unit :=
  ((tokenIds.getLast?.map fun t => Char.ofNat t.toNat).toList, ())

/-- A request with the stop string `bc` and log probabilities. -/
def stopState : RequestState TokenId Unit where
  requestId := "0"
  externalReqId := "req"
  outputKind := .delta
  logprobs := some []
  detokenizer := .base { params := { stop := [['b', 'c']] }, decoder := () }
  queue := true
  streamInterval := 1

def charOutput (newTokenIds : List TokenId) : SampledOutput TokenId where
  requestId := "0"
  newTokenIds
  finishReason := none
  stopReason := none
  hasPoolingOutput := false
  numCachedTokens := 0
  numExternalComputedTokens := 0
  newLogprobs := some newTokenIds

lemma stopState_fresh : Fresh stopState :=
  ⟨rfl, rfl, rfl, Nat.le_refl 0, fun _ hlp => (Option.some.inj hlp).symm, rfl⟩

theorem reaches_partition_stop : ∃ s s', Reaches (step charDecode) Allowed ⟨stopState, [], [], false⟩ s ∧
    s.step charDecode (.output (charOutput [98, 99]) none) = .ok s' ∧
    s'.state.detokenizer.outputText = ['a'] ∧ s'.Complete := by
  have hrun : (runAllowed (step charDecode) Allowed ⟨stopState, [], [], false⟩
      [.output (charOutput [97]) none]).map (fun s =>
        decide (s.Allowed (.output (charOutput [98, 99]) none) ∧ s.ended = false ∧ s.numSent < s.tokens.length + 2 ∧
          ((s.step charDecode (.output (charOutput [98, 99]) none)).toOption.map fun s' =>
            (s'.ended, s'.state.detokenizer.outputText)) = some (true, ['a']))) = some true := by
    decide +kernel
  rw [map_eq_some_iff] at hrun
  obtain ⟨s, hs, hd⟩ := hrun
  obtain ⟨hallowed, hlive, hclean, hstep⟩ := of_decide_eq_true hd
  have hreach := Reaches.start.append_runAllowed hs
  obtain ⟨s', hs', hends⟩ := (reaches_partition stopState_fresh hreach).2 _ hallowed
  rw [hs', Except.toOption, Option.map_some, Option.some.injEq, Prod.mk.injEq] at hstep
  exact ⟨s, s', hreach, hs', hstep.2, (hends hlive hstep.1).mpr (.inr (.inr hclean))⟩

/-- An abort after the first token repeats its log probabilities. -/
theorem abort_repeats_logprobs : ∃ s : DeltaStream TokenId Unit,
    Reaches (step charDecode) Allowed ⟨stopState, [], [], false⟩ s ∧ s.ended = true ∧
    s.shownLogprobs = [97, 97] ∧ s.state.logprobs = some [97] ∧ ¬s.Complete := by
  have hrun : (runAllowed (step charDecode) Allowed ⟨stopState, [], [], false⟩
      [.output (charOutput [97]) none, .abort none]).map (fun s =>
        (s.ended, s.shownLogprobs, s.state.logprobs)) = some (true, [97, 97], some [97]) := by
    decide +kernel
  rw [map_eq_some_iff] at hrun
  obtain ⟨s, hs, hvalues⟩ := hrun
  simp only [Prod.mk.injEq] at hvalues
  obtain ⟨hended, hshown, hlp⟩ := hvalues
  refine ⟨s, Reaches.start.append_runAllowed hs, hended, hshown, hlp, fun hc => ?_⟩
  have hall := hc.logprobs
  rw [hshown, hlp] at hall
  cases hall

end DeltaStream

end CustomAi.Vllm
