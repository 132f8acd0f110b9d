import Mathlib.Algebra.FreeMonoid.Basic
import CustomAi.Lib.KeyedMerge
import CustomAi.Vllm.ParallelSampling

/-!
# Collecting the outputs of a request

`RequestOutputCollector` of `vllm/v1/engine/output_processor.py` and `RequestOutput.add` of
`vllm/outputs.py`: outputs that the consumer has not taken yet are merged. The calls of the producer
and of the consumers run one at a time, and a consumer that waits for the event runs again some time
after the event is set.
-/

namespace CustomAi.Vllm

open List

variable {L P K R E : Type}

/-- A `RequestOutput` that is streamed, with prompt log probabilities `P` and transfer parameters
`K`. -/
structure StreamedOutput (L P K : Type) where
  requestId : RequestId
  promptLogprobs : Option (List P) := none
  outputs : List (CompletionOutput L)
  finished : Bool
  kvTransferParams : Option K := none
  deriving DecidableEq

/-- What may be put: an output, a pooling output `R` or an exception `E`. -/
inductive CollectedOutput (L P K R E : Type)
  | request (output : StreamedOutput L P K)
  | pooling (output : R)
  | exception (error : E)
  deriving DecidableEq

def CompletionOutput.extend (completion nextCompletion : CompletionOutput L) :
    CompletionOutput L :=
  { completion with
    text := completion.text ++ nextCompletion.text
    tokenIds := completion.tokenIds ++ nextCompletion.tokenIds
    logprobs := completion.logprobs.map (· ++ nextCompletion.logprobs.getD [])
    finishReason := nextCompletion.finishReason
    stopReason := nextCompletion.stopReason }

def CompletionOutput.add (aggregate : Bool) (completion nextCompletion : CompletionOutput L) :
    Except PyError (CompletionOutput L) :=
  if aggregate then do
    ensure (nextCompletion.logprobs.getD [] = [] ∨ completion.logprobs.isSome) (.assertionError "")
    return completion.extend nextCompletion
  else .ok nextCompletion

def StreamedOutput.add (self nextOutput : StreamedOutput L P K) (aggregate : Bool) :
    Except PyError (StreamedOutput L P K) := do
  let outputs ← mergeAllByKey CompletionOutput.index (CompletionOutput.add aggregate) self.outputs
    nextOutput.outputs
  return { self with
    finished := self.finished || nextOutput.finished
    kvTransferParams := nextOutput.kvTransferParams
    outputs }

/-- An `asyncio.Event` with the tasks that wait for it and those that it has woken. -/
structure AsyncEvent where
  isSet : Bool := false
  waiting : ℕ := 0
  woken : ℕ := 0
  deriving DecidableEq

namespace AsyncEvent

def set (e : AsyncEvent) : AsyncEvent :=
  { isSet := true, waiting := 0, woken := e.woken + e.waiting }

def clear (e : AsyncEvent) : AsyncEvent := { e with isSet := false }

def wait (e : AsyncEvent) : AsyncEvent :=
  if e.isSet then { e with woken := e.woken + 1 } else { e with waiting := e.waiting + 1 }

end AsyncEvent

structure RequestOutputCollector (L P K R E : Type) where
  aggregate : Bool
  output : Option (CollectedOutput L P K R E) := none
  ready : AsyncEvent := {}
  deriving DecidableEq

namespace RequestOutputCollector

def new (outputKind : RequestOutputKind) : RequestOutputCollector L P K R E where
  aggregate := decide (outputKind = .delta)

def put (self : RequestOutputCollector L P K R E) (output : CollectedOutput L P K R E) :
    Except PyError (RequestOutputCollector L P K R E) :=
  match self.output, output with
  | none, _ | _, .exception _ => .ok { self with output := some output, ready := self.ready.set }
  | some (.request pending), .request next => do
    let merged ← pending.add next self.aggregate
    return { self with output := some (.request merged) }
  | some (.pooling _), .pooling _ => .ok { self with output := some output }
  | some _, _ => .ok self

/-- Take the output if there is one, which `get_nowait` does. -/
def getNowait (self : RequestOutputCollector L P K R E) :
    Option (CollectedOutput L P K R E) × RequestOutputCollector L P K R E :=
  match self.output with
  | none => (none, self)
  | some output => (some output, { self with output := none, ready := self.ready.clear })

/-- `get` until it returns or waits. -/
def get (self : RequestOutputCollector L P K R E) :
    Option (CollectedOutput L P K R E) × RequestOutputCollector L P K R E :=
  match self.output with
  | none => (none, { self with ready := self.ready.wait })
  | some output => (some output, { self with output := none, ready := self.ready.clear })

end RequestOutputCollector

/-- The calls on a collector, where a `get` that waited goes on when the event has woken it. -/
inductive CollectorOp (L P K R E : Type)
  | put (output : CollectedOutput L P K R E)
  | get
  | resume
  | getNowait

/-- A collector with what was put and what its consumers have received. -/
structure CollectorRun (L P K R E : Type) where
  collector : RequestOutputCollector L P K R E
  received : List (CollectedOutput L P K R E) := []
  puts : List (CollectedOutput L P K R E) := []
  firsts : List (CollectedOutput L P K R E) := []

namespace CollectorRun

def receive (s : CollectorRun L P K R E)
    (taken : Option (CollectedOutput L P K R E) × RequestOutputCollector L P K R E) :
    CollectorRun L P K R E :=
  { s with collector := taken.2, received := s.received ++ taken.1.toList }

def call (s : CollectorRun L P K R E) :
    CollectorOp L P K R E → Except PyError (CollectorRun L P K R E)
  | .put output => do
    let collector ← s.collector.put output
    return { s with
      collector
      puts := s.puts ++ [output]
      firsts := if s.collector.output.isNone then s.firsts ++ [output] else s.firsts }
  | .get => .ok (s.receive s.collector.get)
  | .resume =>
    let ready := { s.collector.ready with woken := s.collector.ready.woken - 1 }
    .ok (s.receive { s.collector with ready }.get)
  | .getNowait => .ok (s.receive s.collector.getNowait)

def delivered (s : CollectorRun L P K R E) : List (CollectedOutput L P K R E) :=
  s.received ++ s.collector.output.toList

end CollectorRun

def CollectedOutput.streamed : CollectedOutput L P K R E → Option (StreamedOutput L P K)
  | .request output => some output
  | _ => none

def completions (outputs : List (CollectedOutput L P K R E)) : List (CompletionOutput L) :=
  (outputs.filterMap CollectedOutput.streamed).flatMap StreamedOutput.outputs

def completionsOf (index : ℕ) (outputs : List (CollectedOutput L P K R E)) :
    List (CompletionOutput L) :=
  (completions outputs).filter fun completion => completion.index = index

end CustomAi.Vllm

/-!
## No delta of a request is lost

What the consumers of a collector have received, with the pending output, adds up to what was put,
and no consumer waits while an output is pending.
-/

namespace CustomAi.Vllm

open List

variable {L P K R E : Type}

def Adds {M : Type} [Monoid M] (μ : CompletionOutput L → M) : Prop :=
  ∀ y x z, CompletionOutput.add true y x = .ok z → μ z = μ y * μ x

lemma completion_add_eq {y x z : CompletionOutput L} (h : CompletionOutput.add true y x = .ok z) :
    z = y.extend x ∧ (x.logprobs.getD [] = [] ∨ y.logprobs.isSome) := by
  obtain ⟨_, hensure, heq⟩ := bind_eq_ok.mp h
  cases heq
  exact ⟨rfl, ensure_eq_ok.mp hensure⟩

lemma keepsKey_add : KeepsKey (CompletionOutput.index (L := L)) (CompletionOutput.add true) := by
  intro y x z h _
  rw [(completion_add_eq h).1]
  rfl

lemma adds_text : Adds fun c : CompletionOutput L => FreeMonoid.ofList c.text := by
  intro y x z h
  rw [(completion_add_eq h).1]
  exact FreeMonoid.ofList_append _ _

lemma adds_tokenIds : Adds fun c : CompletionOutput L => FreeMonoid.ofList c.tokenIds := by
  intro y x z h
  rw [(completion_add_eq h).1]
  exact FreeMonoid.ofList_append _ _

lemma adds_logprobs : Adds fun c : CompletionOutput L => FreeMonoid.ofList (c.logprobs.getD []) := by
  intro y x z h
  obtain ⟨rfl, hlogprobs⟩ := completion_add_eq h
  rw [← FreeMonoid.ofList_append]
  unfold CompletionOutput.extend
  cases hy : y.logprobs with
  | none =>
    rcases hlogprobs with hempty | hsome
    · rw [hempty]
      rfl
    · rw [hy] at hsome
      exact absurd hsome Bool.false_ne_true
  | some l => rfl

lemma adds_finishReason : Adds fun c : CompletionOutput L => (⟨some c.finishReason⟩ : Latest _) := by
  intro y x z h
  rw [(completion_add_eq h).1]
  rfl

/-- At most one completion for each index, with log probabilities as its request asks. -/
structure Produced (withLogprobs : ℕ → Bool) (output : StreamedOutput L P K) : Prop where
  nodup : (output.outputs.map CompletionOutput.index).Nodup
  logprobs_eq : ∀ c ∈ output.outputs, c.logprobs.isSome = withLogprobs c.index

structure Merges (pending next merged : StreamedOutput L P K) : Prop where
  prompt : merged.promptLogprobs = pending.promptLogprobs
  finished : merged.finished = (pending.finished || next.finished)
  product : ∀ {M : Type} [Monoid M] {μ : CompletionOutput L → M}, Adds μ → ∀ k,
    keyProduct CompletionOutput.index μ k merged.outputs = keyProduct CompletionOutput.index μ k pending.outputs *
        keyProduct CompletionOutput.index μ k next.outputs

lemma add_produced {withLogprobs : ℕ → Bool} {pending next : StreamedOutput L P K}
    (hpending : Produced withLogprobs pending) (hnext : Produced withLogprobs next) :
    ∃ merged, pending.add next true = .ok merged ∧ Produced withLogprobs merged ∧ Merges pending next merged := by
  have hmerge (y x : CompletionOutput L) (hy : y.logprobs.isSome = withLogprobs y.index)
      (hx : x.logprobs.isSome = withLogprobs x.index) (hsame : y.index = x.index) :
      ∃ z, CompletionOutput.add true y x = .ok z ∧ z.logprobs.isSome = withLogprobs z.index := by
    have hboth : x.logprobs.getD [] = [] ∨ y.logprobs.isSome = true := by
      rw [hy, hsame, ← hx]
      cases x.logprobs with
      | none => exact .inl rfl
      | some l => exact .inr rfl
    refine ⟨y.extend x, ?_, Option.isSome_map.trans hy⟩
    unfold CompletionOutput.add
    rw [ensure_of hboth]
    rfl
  obtain ⟨outputs, hmerged, hlogprobs⟩ := mergeAllByKey_ok hmerge hpending.logprobs_eq hnext.logprobs_eq
  refine ⟨{ pending with
    finished := pending.finished || next.finished
    kvTransferParams := next.kvTransferParams
    outputs }, ?_, ⟨mergeAllByKey_nodup keepsKey_add hpending.nodup hmerged, hlogprobs⟩, rfl, rfl, ?_⟩
  · unfold StreamedOutput.add
    rw [hmerged]
    rfl
  · intro M _ μ hμ k
    exact mergeAllByKey_keyProduct (fun y x z h _ => hμ y x z h) keepsKey_add hpending.nodup hmerged

lemma completions_append (outs outs' : List (CollectedOutput L P K R E)) :
    completions (outs ++ outs') = completions outs ++ completions outs' := by
  unfold completions
  rw [filterMap_append, flatMap_append]

lemma completions_request (output : StreamedOutput L P K) :
    completions [(.request output : CollectedOutput L P K R E)] = output.outputs :=
  append_nil _

def CollectedOutput.finishes (output : CollectedOutput L P K R E) : Bool :=
  output.streamed.any StreamedOutput.finished

def CollectedOutput.prompt (output : CollectedOutput L P K R E) : Option (List P) :=
  output.streamed.bind StreamedOutput.promptLogprobs

/-- What was delivered adds up to what was put, where `firsts` were put with nothing pending. -/
structure Tally (delivered puts firsts : List (CollectedOutput L P K R E)) : Prop where
  product : ∀ {M : Type} [Monoid M] {μ : CompletionOutput L → M}, Adds μ → ∀ k,
    keyProduct CompletionOutput.index μ k (completions delivered) =
      keyProduct CompletionOutput.index μ k (completions puts)
  finishes : delivered.any CollectedOutput.finishes = puts.any CollectedOutput.finishes
  last : puts.getLast?.any CollectedOutput.finishes → delivered.getLast?.any CollectedOutput.finishes
  prompts : delivered.map CollectedOutput.prompt = firsts.map CollectedOutput.prompt

section Tally

variable {delivered puts firsts : List (CollectedOutput L P K R E)}
  {pending next merged : StreamedOutput L P K}

lemma tally_nil : Tally ([] : List (CollectedOutput L P K R E)) [] [] :=
  ⟨fun _ _ => rfl, rfl, id, rfl⟩

lemma tally_first (h : Tally delivered puts firsts) (o : CollectedOutput L P K R E) :
    Tally (delivered ++ [o]) (puts ++ [o]) (firsts ++ [o]) := by
  refine ⟨fun hμ k => ?_, ?_, fun hlast => ?_, ?_⟩
  · rw [completions_append, completions_append, keyProduct_append, keyProduct_append, h.product hμ k]
  · rw [any_append, any_append, h.finishes]
  · rw [List.getLast?_concat] at hlast ⊢
    exact hlast
  · rw [map_append, map_append, h.prompts]

lemma tally_merge (h : Tally (delivered ++ [.request pending]) puts firsts) (hmerges : Merges pending next merged) :
    Tally (delivered ++ [.request merged]) (puts ++ [.request next]) firsts := by
  have hfinishes : CollectedOutput.finishes (.request merged : CollectedOutput L P K R E) =
      (CollectedOutput.finishes (.request pending : CollectedOutput L P K R E) ||
        CollectedOutput.finishes (.request next : CollectedOutput L P K R E)) := hmerges.finished
  refine ⟨fun hμ k => ?_, ?_, fun hlast => ?_, ?_⟩
  · have hbefore := h.product hμ k
    rw [completions_append, completions_request, keyProduct_append] at hbefore ⊢
    rw [completions_append, completions_request, keyProduct_append, ← hbefore, hmerges.product hμ k, mul_assoc]
  · have hbefore := h.finishes
    rw [any_append, any_cons, any_nil, Bool.or_false] at hbefore ⊢
    rw [any_append, any_cons, any_nil, Bool.or_false, ← hbefore, hfinishes, Bool.or_assoc]
  · rw [List.getLast?_concat, Option.any_some] at hlast ⊢
    rw [hfinishes, hlast, Bool.or_true]
  · have hprompt : CollectedOutput.prompt (.request merged : CollectedOutput L P K R E) =
        CollectedOutput.prompt (.request pending : CollectedOutput L P K R E) := hmerges.prompt
    rw [← h.prompts, map_append, map_append, map_singleton, map_singleton, hprompt]

end Tally

namespace CollectorRun

variable {withLogprobs : ℕ → Bool} {s s' : CollectorRun L P K R E}

/-- What was received and is pending adds up to what was put, and the event is set while one is
pending. -/
structure Books (withLogprobs : ℕ → Bool) (s : CollectorRun L P K R E) : Prop where
  aggregate : s.collector.aggregate = true
  ready : s.collector.ready.isSet = s.collector.output.isSome
  waiting : s.collector.output.isSome → s.collector.ready.waiting = 0
  pending : ∀ o ∈ s.collector.output, ∃ r, o = .request r ∧ Produced withLogprobs r
  tally : Tally s.delivered s.puts s.firsts

def start : CollectorRun L P K R E where
  collector := .new .delta

lemma books_start : Books withLogprobs (start : CollectorRun L P K R E) where
  aggregate := rfl
  ready := rfl
  waiting h := absurd h Bool.false_ne_true
  pending _ h := nomatch h
  tally := tally_nil

section

variable (h : Books withLogprobs s)
include h

lemma books_receive {taken : Option (CollectedOutput L P K R E) × RequestOutputCollector L P K R E}
    (htaken : taken.1 = s.collector.output) (hnone : taken.2.output = none)
    (hset : taken.2.ready.isSet = false) (haggregate : taken.2.aggregate = true) :
    Books withLogprobs (s.receive taken) := by
  have hempty : (s.receive taken).collector.output = none := hnone
  have hdelivered : (s.receive taken).delivered = s.delivered := by
    unfold delivered
    rw [hempty, ← htaken]
    exact append_nil _
  refine ⟨haggregate, ?_, fun hsome => ?_, fun o ho => ?_, ?_⟩
  · rw [hempty]
    exact hset
  · rw [hempty] at hsome
    exact absurd hsome Bool.false_ne_true
  · rw [hempty] at ho
    exact nomatch ho
  · rw [hdelivered]
    exact h.tally

lemma books_getNowait : Books withLogprobs (s.receive s.collector.getNowait) := by
  cases ho : s.collector.output with
  | none =>
    have htaken : s.collector.getNowait = (none, s.collector) := by
      unfold RequestOutputCollector.getNowait
      rw [ho]
    rw [htaken]
    refine books_receive h ho.symm ho ?_ h.aggregate
    rw [h.ready, ho]
    rfl
  | some o =>
    have htaken : s.collector.getNowait = (some o, { s.collector with
        output := none, ready := s.collector.ready.clear }) := by
      unfold RequestOutputCollector.getNowait
      rw [ho]
    rw [htaken]
    exact books_receive h ho.symm rfl rfl h.aggregate

lemma books_get (woken : ℕ) : Books withLogprobs (s.receive
      { s.collector with ready := { s.collector.ready with woken } }.get) := by
  cases ho : s.collector.output with
  | none =>
    have hunset : s.collector.ready.isSet = false := by
      rw [h.ready, ho]
      rfl
    refine books_receive h ?_ ?_ ?_ ?_ <;> unfold RequestOutputCollector.get <;> simp only [ho]
    · rw [hunset]
      rfl
    · exact h.aggregate
  | some o =>
    refine books_receive h ?_ ?_ ?_ ?_ <;> unfold RequestOutputCollector.get <;> simp only [ho]
    · rfl
    · exact h.aggregate

lemma books_put {next : StreamedOutput L P K} (hnext : Produced withLogprobs next) :
    ∃ s', s.call (.put (.request next)) = .ok s' ∧ Books withLogprobs s' := by
  have htally := h.tally
  unfold delivered at htally
  cases ho : s.collector.output with
  | none =>
    have hcall : s.call (.put (.request next)) = .ok { s with
        collector := { s.collector with
          output := some (.request next), ready := s.collector.ready.set }
        puts := s.puts ++ [.request next]
        firsts := s.firsts ++ [.request next] } := by
      unfold call RequestOutputCollector.put
      simp only [ho]
      rfl
    rw [ho, Option.toList_none, append_nil] at htally
    refine ⟨_, hcall, h.aggregate, rfl, fun _ => rfl, fun o heq => ?_, tally_first htally _⟩
    exact ⟨next, (Option.mem_some_iff.mp heq).symm, hnext⟩
  | some o =>
    obtain ⟨pending, rfl, hpending⟩ := h.pending o ho
    obtain ⟨merged, hmerged, hproduced, hmerges⟩ := add_produced hpending hnext
    have hcall : s.call (.put (.request next)) = .ok { s with
        collector := { s.collector with output := some (.request merged) }
        puts := s.puts ++ [.request next] } := by
      unfold call RequestOutputCollector.put
      simp only [ho, h.aggregate, hmerged]
      rfl
    rw [ho] at htally
    refine ⟨_, hcall, h.aggregate, ?_, fun _ => ?_, fun o heq => ?_, tally_merge htally hmerges⟩
    · exact h.ready.trans (by rw [ho]; rfl)
    · exact h.waiting (by rw [ho]; rfl)
    · exact ⟨merged, (Option.mem_some_iff.mp heq).symm, hproduced⟩

end

/-- The engine puts outputs, and only waiters that were woken go on. -/
def Allowed (withLogprobs : ℕ → Bool) (s : CollectorRun L P K R E) : CollectorOp L P K R E → Prop
  | .put output => ∃ r, output = .request r ∧ Produced withLogprobs r
  | .resume => 0 < s.collector.ready.woken
  | .get | .getNowait => True

variable {op : CollectorOp L P K R E} {α : Type}

lemma books_call (h : Books withLogprobs s) (hop : Allowed withLogprobs s op) :
    ∃ s', s.call op = .ok s' ∧ Books withLogprobs s' := by
  cases op with
  | put output =>
    obtain ⟨r, rfl, hr⟩ := hop
    exact books_put h hr
  | get => exact ⟨_, rfl, books_get h s.collector.ready.woken⟩
  | resume => exact ⟨_, rfl, books_get h (s.collector.ready.woken - 1)⟩
  | getNowait => exact ⟨_, rfl, books_getNowait h⟩

lemma reaches_books (h : Reaches call (Allowed withLogprobs) start s) : Books withLogprobs s := by
  refine h.invariant books_start fun s op s' hbooks hop hcall => ?_
  obtain ⟨s1, hs1, hbooks'⟩ := books_call hbooks hop
  rw [hcall, Except.ok.injEq] at hs1
  exact hs1 ▸ hbooks'

lemma keyProduct_ofList (f : CompletionOutput L → List α) (index : ℕ) (outputs : List (CollectedOutput L P K R E)) :
    (keyProduct CompletionOutput.index (fun c => FreeMonoid.ofList (f c)) index
      (completions outputs)).toList = (completionsOf index outputs).flatMap f := by
  unfold keyProduct completionsOf
  rw [FreeMonoid.toList_prod, map_map]
  rfl

lemma Books.flatMap_eq (h : Books withLogprobs s) {f : CompletionOutput L → List α}
    (hf : Adds fun c => FreeMonoid.ofList (f c)) (index : ℕ) :
    (completionsOf index s.delivered).flatMap f = (completionsOf index s.puts).flatMap f := by
  rw [← keyProduct_ofList, ← keyProduct_ofList, h.tally.product hf]

lemma Books.finishReason_eq (h : Books withLogprobs s) (index : ℕ) :
    ((completionsOf index s.delivered).map CompletionOutput.finishReason).getLast? =
      ((completionsOf index s.puts).map CompletionOutput.finishReason).getLast? := by
  have hproduct := congrArg Latest.value (h.tally.product adds_finishReason index)
  have hlast (l : List (CompletionOutput L)) :
      (l.map fun c => (⟨some c.finishReason⟩ : Latest (Option FinishReason))).prod.value =
        (l.map CompletionOutput.finishReason).getLast? := by
    rw [← Latest.value_prod, map_map]
    rfl
  unfold keyProduct at hproduct
  rwa [hlast, hlast] at hproduct

lemma call_takes {o : CollectedOutput L P K R E} (ho : s.collector.output = some o)
    (hop : op = .get ∨ op = .resume ∨ op = .getNowait) :
    ∃ s', s.call op = .ok s' ∧ s'.received = s.received ++ [o] ∧ s'.collector.output = none := by
  rcases hop with rfl | rfl | rfl
  · refine ⟨_, rfl, ?_, ?_⟩ <;> simp [receive, RequestOutputCollector.get, ho]
  · refine ⟨_, rfl, ?_, ?_⟩ <;> simp [receive, RequestOutputCollector.get, ho]
  · refine ⟨_, rfl, ?_, ?_⟩ <;> simp [receive, RequestOutputCollector.getNowait, ho]

/-- No call raises, the deltas add up, and a pending output is taken by whoever runs next. -/
theorem collector_loses_no_delta (h : Reaches call (Allowed withLogprobs) start s) :
    (∀ op, Allowed withLogprobs s op → ∃ s', s.call op = .ok s') ∧ (∀ index,
      (completionsOf index s.delivered).flatMap CompletionOutput.text =
        (completionsOf index s.puts).flatMap CompletionOutput.text ∧
      (completionsOf index s.delivered).flatMap CompletionOutput.tokenIds =
        (completionsOf index s.puts).flatMap CompletionOutput.tokenIds ∧
      ((completionsOf index s.delivered).flatMap fun c => c.logprobs.getD []) =
        ((completionsOf index s.puts).flatMap fun c => c.logprobs.getD []) ∧
      ((completionsOf index s.delivered).map CompletionOutput.finishReason).getLast? =
        ((completionsOf index s.puts).map CompletionOutput.finishReason).getLast?) ∧
    s.delivered.any CollectedOutput.finishes = s.puts.any CollectedOutput.finishes ∧
    (s.puts.getLast?.any CollectedOutput.finishes → s.delivered.getLast?.any CollectedOutput.finishes) ∧
    s.delivered.map CollectedOutput.prompt = s.firsts.map CollectedOutput.prompt ∧
    (∀ o, s.collector.output = some o → s.collector.ready.waiting = 0 ∧
      ∀ op, op = .get ∨ op = .resume ∨ op = .getNowait →
        ∃ s', s.call op = .ok s' ∧ s'.received = s.received ++ [o] ∧ s'.collector.output = none) ∧
    ∀ e, ∃ s', s.call (.put (.exception e)) = .ok s' ∧ s'.received = s.received ∧
      s'.collector.ready.waiting = 0 ∧ ∀ op, op = .get ∨ op = .resume ∨ op = .getNowait →
        ∃ s'', s'.call op = .ok s'' ∧ s''.received = s.received ++ [.exception e] ∧
          s''.collector.output = none := by
  have hbooks := reaches_books h
  refine ⟨fun op hop => ?_, fun index => ⟨hbooks.flatMap_eq adds_text index,
    hbooks.flatMap_eq adds_tokenIds index, hbooks.flatMap_eq adds_logprobs index,
    hbooks.finishReason_eq index⟩, hbooks.tally.finishes, hbooks.tally.last, hbooks.tally.prompts,
    fun o ho => ⟨hbooks.waiting (by rw [ho]; rfl), fun op hop => call_takes ho hop⟩, fun e => ?_⟩
  · obtain ⟨s', hcall, -⟩ := books_call hbooks hop
    exact ⟨s', hcall⟩
  · have hput : s.collector.put (.exception e) = .ok { s.collector with
        output := some (.exception e), ready := s.collector.ready.set } := by
      unfold RequestOutputCollector.put
      cases s.collector.output <;> rfl
    have hcall : s.call (.put (.exception e)) = .ok { s with
        collector := { s.collector with
          output := some (.exception e), ready := s.collector.ready.set }
        puts := s.puts ++ [.exception e]
        firsts := if s.collector.output.isNone then s.firsts ++ [.exception e]
          else s.firsts } := by
      simp only [call, hput]
      rfl
    exact ⟨_, hcall, rfl, rfl, fun op hop => call_takes rfl hop⟩

private def tokenOutput (text : List Char) (tokenId : TokenId) (promptLogprobs : Option (List ℕ)) :
    StreamedOutput ℕ ℕ Unit where
  requestId := "r"
  promptLogprobs
  outputs := [{ index := 0, text, tokenIds := [tokenId], logprobs := some [0] }]
  finished := false

private lemma produced_tokenOutput (text : List Char) (tokenId : TokenId) (promptLogprobs : Option (List ℕ)) :
    Produced (fun _ => true) (tokenOutput text tokenId promptLogprobs) where
  nodup := nodup_singleton 0
  logprobs_eq c hc := by
    rw [mem_singleton.mp hc]
    rfl

/-- Two tokens that were put before the consumer took the first. -/
theorem collector_two_tokens : ∃ s : CollectorRun ℕ ℕ Unit Unit Unit,
      s.puts.length = 2 ∧ s.collector.output.isSome ∧
      (completionsOf 0 s.delivered).flatMap CompletionOutput.text = ['a', 'b'] := by
  have hreach : Reaches (ε := PyError) call (Allowed fun _ => true)
      (start : CollectorRun ℕ ℕ Unit Unit Unit) _ :=
    .step (.put (.request (tokenOutput ['b'] 2 none)))
      (.step (.put (.request (tokenOutput ['a'] 1 none))) .start
        ⟨_, rfl, produced_tokenOutput ['a'] 1 none⟩ rfl)
      ⟨_, rfl, produced_tokenOutput ['b'] 2 none⟩ rfl
  have htext := ((collector_loses_no_delta hreach).2.1 0).1
  exact ⟨_, rfl, rfl, htext⟩

/-- An exception replaces a pending delta, and later prompt log probabilities are not received. -/
theorem collector_drops : ((runSteps call (start : CollectorRun ℕ ℕ Unit Unit Unit)
      [.put (.request (tokenOutput ['a'] 1 none)), .put (.exception ()), .getNowait]).map
        CollectorRun.received = .ok [.exception ()]) ∧ (runSteps call (start : CollectorRun ℕ ℕ Unit Unit Unit)
      [.put (.request (tokenOutput ['a'] 1 none)), .put (.request (tokenOutput ['b'] 2 (some [3]))),
        .getNowait]).map (fun s => s.received.map CollectedOutput.prompt) = .ok [none] :=
  ⟨rfl, rfl⟩

end CollectorRun

end CustomAi.Vllm
