import CustomAi.Vllm.EngineCore
import CustomAi.Vllm.GrammarLogits
import CustomAi.Vllm.LiveRequests

/-!
# The masks of the batches in flight

Which tokens a mask was computed for, and what `get_grammar_bitmask` and `update_from_output` do to
the grammars.
-/

namespace CustomAi.Vllm

open List Function Option StructuredOutputGrammar

variable {G : Type}

inductive StructuredOutputGrammar.Accepts (ops : StructuredOutputGrammar G) (reqId : RequestId) :
    G → List TokenId → G → Prop
  | nil (g : G) : Accepts ops reqId g [] g
  | append_singleton {g g' : G} {tokens : List TokenId} (token : TokenId) :
      Accepts ops reqId g tokens g' → (ops.acceptTokens g' reqId [token]).1 = true →
      Accepts ops reqId g (tokens ++ [token]) (ops.acceptTokens g' reqId [token]).2

namespace QueuedBatch

def rowOf (q : QueuedBatch G) (reqId : RequestId) : Option MaskRow :=
  q.grammarOutput.bind fun grammarOutput => grammarOutput.rowOf reqId

/-- The model samples one allowed token, and nothing for a prefill chunk. -/
def SampledFrom (width : ℕ) (q : QueuedBatch G) (out : ModelRunnerOutput) : Prop :=
  ∀ reqId ∈ q.batch.output.numScheduledTokens.keys, if q.batch.samples reqId then
      (out.sampledTokenIds reqId).length = 1 ∧ ∀ token ∈ out.sampledTokenIds reqId,
        0 ≤ token ∧ token.toNat < 32 * width ∧ ∀ row ∈ q.rowOf reqId, row.allows token.toNat = true
    else out.sampledTokenIds reqId = []

/-- All token counts are positive, as `update_from_output` checks. -/
def Positive (q : QueuedBatch G) : Prop :=
  ∀ n ∈ q.batch.output.numScheduledTokens.values, 0 < n

end QueuedBatch

/-- No batch in the queue has a token to deliver for a request that the mask is for. -/
def MaskCall.TokensArrived (ops : StructuredOutputGrammar G) (m : MaskCall G) : Prop :=
  ∀ reqId ∈ m.batch.output.numScheduledTokens.keys, m.batch.samples reqId = true →
    ∀ r ∈ m.requests.get? reqId, r.status.isFinished = false → ∀ g ∈ m.grammars reqId,
      ops.isTerminated g = false ∧ ∀ batch ∈ m.inFlight, batch.samples reqId = false

namespace EngineCore

/-- Each token was sampled with a mask of the grammar after the tokens before it, and accepted. -/
structure MasksFresh (ops : StructuredOutputGrammar G) (e : EngineCore G) : Prop where
  sampled : ∀ x ∈ e.history.sampled, x.accepted = true ∧ ∃ compiled grammar,
    x.compiled = some compiled ∧ x.maskGrammar = some grammar ∧ ops.Accepts x.requestId compiled x.preceding grammar
  outputs : ∀ reqId compiled, e.history.compiled reqId = some compiled →
    ∃ grammar, e.grammars reqId = some grammar ∧ ops.Accepts reqId compiled (e.history.outputTokenIds reqId) grammar

def Compiled (e : EngineCore G) : Prop :=
  ∀ reqId, (e.grammars reqId).isSome = true → (e.history.compiled reqId).isSome = true

def Serves (ops : StructuredOutputGrammar G) (e : EngineCore G) (q : QueuedBatch G) : Prop :=
  ∀ reqId g, e.scheduler.Live reqId → e.grammars reqId = some g → q.batch.samples reqId = true →
    q.grammars reqId = some g ∧ ops.isTerminated g = false ∧ q.rowOf reqId = some (ops.fillBitmask g)

def Apart (e : EngineCore G) (q q' : QueuedBatch G) : Prop :=
  ∀ reqId, e.scheduler.Live reqId → (e.grammars reqId).isSome = true →
    q.batch.samples reqId = true → q'.batch.samples reqId = false

lemma lookup_zip_map {α β : Type*} [DecidableEq α] (f : α → β) {l : List α} {x : α}
    (hx : x ∈ l) : (l.zip (l.map f)).lookup x = some (f x) := by
  induction l with
  | nil => cases hx
  | cons y rest ih =>
    rw [map_cons, zip_cons_cons, Dict.lookup_cons_ite]
    split
    · rename_i hxy
      rw [hxy]
    · rename_i hxy
      exact ih ((mem_cons.mp hx).resolve_left hxy)

variable {requests requests' : Dict RequestId (GrammarRequest G)}
  {interleave : List (List (G × ℕ × Bool)) → List (G × ℕ × Bool)} {ops : StructuredOutputGrammar G}
  {manager manager' : StructuredOutputManager}

lemma callGrammarBitmask_manager {ids : List RequestId}
    {scheduled : Dict RequestId (List TokenId)} {rows : Option (List MaskRow)}
    (h : manager.callGrammarBitmask ops interleave requests ids scheduled = .ok (rows, manager', requests')) :
    ∃ bitmask, manager' = { manager with grammarBitmask := bitmask } := by
  unfold StructuredOutputManager.callGrammarBitmask at h
  split at h
  · obtain ⟨-, rfl, -⟩ := ok_triple_inj h
    exact ⟨_, rfl⟩
  · obtain ⟨bitmask, -, h⟩ := bind_eq_ok.mp h
    obtain ⟨s, -, h⟩ := bind_eq_ok.mp h
    obtain ⟨-, rfl, -⟩ := ok_triple_inj h
    exact ⟨_, rfl⟩

open StructuredOutputManager in
lemma getGrammarBitmask_rows {width : ℕ} (hauto : ops.Automaton width)
    (hinterleave : ∀ batches, (interleave batches).Perm batches.flatten)
    (hready : manager.Ready width) (hreasoner : manager.reasoner = none)
    {output : SchedulerOutput} {grammarOutput : Option GrammarOutput}
    (hcount : output.numScheduledTokens.keys.length ≤ manager.maxNumSeqs)
    (hdrafts : ∀ id, (output.scheduledSpecDecodeTokens.get? id).getD [] = [])
    (h : getGrammarBitmask manager ops interleave requests output = .ok (grammarOutput, manager', requests')) :
    manager'.Ready width ∧ (∃ bitmask, manager' = { manager with grammarBitmask := bitmask }) ∧
      (∀ id, grammarOf requests' id = grammarOf requests id) ∧
      ∀ id ∈ output.numScheduledTokens.keys, ∀ g, grammarOf requests id = some g →
        ops.isTerminated g = false → (grammarOutput.bind fun o => o.rowOf id) = some (ops.fillBitmask g) := by
  have hkeys : output.numScheduledTokens.keys.Nodup := output.numScheduledTokens.nodup_keys
  have hmem : ∀ id ∈ output.numScheduledTokens.keys, ∀ g, grammarOf requests id = some g →
      id ∈ structuredIds requests output.numScheduledTokens.keys := by
    intro id hid g hg
    refine mem_filter.mpr ⟨hid, ?_⟩
    obtain ⟨x, hx, -⟩ := map_eq_some_iff.mp hg
    obtain ⟨request, hrequest, hx⟩ := bind_eq_some_iff.mp hx
    rw [hrequest, any_some]
    unfold GrammarRequest.useStructuredOutput
    rw [hx]
    rfl
  unfold getGrammarBitmask at h
  dsimp only at h
  change (if structuredIds requests output.numScheduledTokens.keys = [] then _ else _) = _ at h
  split at h
  · rename_i hnil
    obtain ⟨rfl, rfl, rfl⟩ := ok_triple_inj h
    refine ⟨hready, ⟨_, rfl⟩, fun _ => rfl, fun id hid g hg => ?_⟩
    have hid := hmem id hid g hg
    rw [hnil] at hid
    cases hid
  · rename_i hne
    have hview : ∀ id ∈ structuredIds requests output.numScheduledTokens.keys,
        ∃ v, manager.view (requests.get? id) = some v ∧ (v.2 = true →
          ops.ValidDrafts id v.1 (draftsOf output.scheduledSpecDecodeTokens id)) := by
      intro id hid
      obtain ⟨v, hv⟩ := exists_view_of_mem manager hid
      refine ⟨v, hv, fun _ before token rest hsplit => ?_⟩
      have hlen := congrArg List.length hsplit
      unfold draftsOf at hlen
      rw [hdrafts id, length_append, length_cons, length_nil] at hlen
      omega
    obtain ⟨manager₁, requests₁, hcall, hready₁, hgrammar₁⟩ := callGrammarBitmask_eq hauto
      hinterleave hready (hkeys.sublist filter_sublist) hne
      ((length_filter_le _ _).trans hcount)
      (fun id => (congrArg List.length (hdrafts id)).trans_le (Nat.zero_le _)) hview
    obtain ⟨⟨bitmask, manager₂, requests₂⟩, hcall', h⟩ := bind_eq_ok.mp h
    obtain ⟨rfl, rfl, rfl⟩ := ok_triple_inj (hcall.symm.trans hcall')
    obtain ⟨rfl, rfl, rfl⟩ := ok_triple_inj h
    refine ⟨hready₁, ?_, hgrammar₁, fun id hid g hg hterm => ?_⟩
    · exact callGrammarBitmask_manager hcall
    · have hmaskRows : ∀ id, manager.maskRows ops width requests output.scheduledSpecDecodeTokens
          id = [(manager.view (requests.get? id)).elim (replicate width (-1)) fun v =>
            ops.positionRow width id v.1 v.2 []] := by
        intro id
        unfold maskRows numRows positionRows draftsOf
        rw [hdrafts id]
        cases manager.view (requests.get? id) <;> rfl
      change (List.zip _ _).lookup id = _
      rw [funext hmaskRows, ← map_eq_flatMap]
      refine (lookup_zip_map _ (hmem id hid g hg)).trans (congrArg some ?_)
      obtain ⟨x, hx, rfl⟩ := map_eq_some_iff.mp hg
      obtain ⟨request, hrequest, hx⟩ := bind_eq_some_iff.mp hx
      have hv : manager.view (requests.get? id) = some (x.grammar, true) := by
        unfold view shouldFillBitmask
        rw [hrequest, bind_some, hx, map_some, hreasoner]
      rw [hv, elim_some]
      unfold positionRow constrains
        stateAfter
      rw [foldl_nil, hterm]
      rfl

lemma grammarOf_grammarRequests (e : EngineCore G) {id : RequestId}
    (hid : e.scheduler.requests.contains id = true) :
    StructuredOutputManager.grammarOf e.grammarRequests id = e.grammars id := by
  obtain ⟨r, hr⟩ := Option.isSome_iff_exists.mp hid
  unfold StructuredOutputManager.grammarOf grammarRequests
  rw [Dict.get?_mapValues, hr, Option.map_some, Option.bind_some, Option.map_map]
  exact Option.map_id'

variable {c : EngineSetup G} {width : ℕ} {e e' : EngineCore G} {q : QueuedBatch G} {batch : Batch}

structure Masked (c : EngineSetup G) (width : ℕ) (e : EngineCore G) (batch : Batch)
    (q : QueuedBatch G) (e' : EngineCore G) : Prop where
  queued : q.batch = batch
  maskGrammars : q.grammars = e.grammars
  rows : ∀ id, batch.output.numScheduledTokens.contains id = true → e.scheduler.Live id → ∀ g,
    e.grammars id = some g → c.ops.isTerminated g = false → q.rowOf id = some (c.ops.fillBitmask g)
  scheduler : e'.scheduler = e.scheduler
  grammars : e'.grammars = e.grammars
  batchQueue : e'.batchQueue = e.batchQueue
  history : e'.history = { e.history with
    maskCalls := e.history.maskCalls ++
      [⟨batch, e.batchQueue.map QueuedBatch.batch, e.scheduler.requests, e.grammars⟩] }
  ready : e'.structuredOutputManager.Ready width
  manager : ∃ bitmask, e'.structuredOutputManager = { e.structuredOutputManager with grammarBitmask := bitmask }

lemma maskBatch_masked (hauto : c.ops.Automaton width)
    (hinterleave : ∀ batches, (c.interleave batches).Perm batches.flatten)
    (hready : e.structuredOutputManager.Ready width) (hreasoner : e.structuredOutputManager.reasoner = none)
    (hcount : batch.output.numScheduledTokens.keys.length ≤ e.structuredOutputManager.maxNumSeqs)
    (hdrafts : ∀ id, (batch.output.scheduledSpecDecodeTokens.get? id).getD [] = [])
    (h : e.maskBatch c batch = .ok (q, e')) : Masked c width e batch q e' := by
  obtain ⟨⟨grammarOutput, manager, requests⟩, hmask, h⟩ := bind_eq_ok.mp h
  obtain ⟨rfl, rfl⟩ := ok_pair_inj h
  obtain ⟨hready', hmanager, hgrammars, hrows⟩ := getGrammarBitmask_rows hauto hinterleave hready
    hreasoner hcount hdrafts hmask
  refine ⟨rfl, rfl, fun id hid ⟨r, hr, _⟩ g hg hterm => ?_, rfl, funext fun id => ?_, rfl, rfl, hready', hmanager⟩
  · refine hrows id ((Dict.mem_keys_iff _ _).mpr hid) g ?_ hterm
    rw [grammarOf_grammarRequests e (by rw [Dict.contains, hr]; rfl)]
    exact hg
  · dsimp only
    split
    · rename_i hid
      exact (hgrammars id).trans (grammarOf_grammarRequests e hid)
    · rfl

structure Shown (ids : List RequestId) (e e' : EngineCore G) : Prop where
  scheduler : e'.scheduler = e.scheduler
  manager : e'.structuredOutputManager = e.structuredOutputManager
  batchQueue : e'.batchQueue = e.batchQueue
  compiled : e'.history.compiled = e.history.compiled
  maskCalls : e'.history.maskCalls = e.history.maskCalls
  processed : e'.history.processed = e.history.processed
  isSome : ∀ id, (e'.grammars id).isSome = (e.grammars id).isSome
  other : ∀ id ∉ ids, e'.grammars id = e.grammars id

lemma Shown.refl (ids : List RequestId) (e : EngineCore G) : Shown ids e e :=
  ⟨rfl, rfl, rfl, rfl, rfl, rfl, fun _ => rfl, fun _ _ => rfl⟩

/-- The output is one token, which was sampled with a mask of the grammar and is accepted. -/
def Acceptable (ops : StructuredOutputGrammar G) (q : QueuedBatch G) (e : EngineCore G)
    (output : EngineCoreOutput) : Prop :=
  ∃ token, output.newTokenIds = [token] ∧ ∀ g, e.grammars output.requestId = some g →
    q.grammars output.requestId = some g ∧ (ops.acceptTokens g output.requestId [token]).1 = true

lemma acceptOutput_shown {output : EngineCoreOutput} (hcompiled : e.Compiled)
    (hfresh : e.MasksFresh c.ops) (hne : output.newTokenIds ≠ []) (hout : Acceptable c.ops q e output) :
    Shown [output.requestId] e (e.acceptOutput c q output) ∧ (e.acceptOutput c q output).MasksFresh c.ops := by
  obtain ⟨token, htoken, haccept⟩ := hout
  unfold acceptOutput
  rw [if_neg hne]
  cases hg : e.grammars output.requestId with
  | none =>
    refine ⟨⟨rfl, rfl, rfl, rfl, rfl, rfl, fun _ => rfl, fun _ _ => rfl⟩, hfresh.sampled, fun id compiled hid => ?_⟩
    obtain ⟨g, hgrammar, haccepts⟩ := hfresh.outputs id compiled hid
    have hne : id ≠ output.requestId := fun heq => by
      rw [heq, hg] at hgrammar
      cases hgrammar
    refine ⟨g, hgrammar, ?_⟩
    dsimp only
    rw [update_of_ne hne]
    exact haccepts
  | some g =>
    obtain ⟨hmask, haccept⟩ := haccept g hg
    obtain ⟨compiled, hcomp⟩ := isSome_iff_exists.mp (hcompiled output.requestId (by
      rw [hg]
      rfl))
    obtain ⟨g', hg', haccepts⟩ := hfresh.outputs output.requestId compiled hcomp
    obtain rfl := some.inj (hg.symm.trans hg')
    rw [htoken]
    refine ⟨⟨rfl, rfl, rfl, rfl, rfl, rfl, fun id => ?_, fun id hid => ?_⟩, fun x hx => ?_,
      fun id compiled' hid => ?_⟩
    · dsimp only
      by_cases hid : id = output.requestId
      · rw [hid, update_self, hg]
        rfl
      · rw [update_of_ne hid]
    · exact update_of_ne (fun heq => hid (mem_singleton.mpr heq)) _ _
    · rcases mem_append.mp hx with hx | hx
      · exact hfresh.sampled x hx
      · obtain rfl := mem_singleton.mp hx
        exact ⟨haccept, compiled, g, hcomp, hmask, haccepts⟩
    · dsimp only
      by_cases hne : id = output.requestId
      · subst hne
        obtain rfl := some.inj (hcomp.symm.trans hid)
        rw [update_self, update_self]
        exact ⟨_, rfl, .append_singleton token haccepts haccept⟩
      · rw [update_of_ne hne, update_of_ne hne]
        exact hfresh.outputs id compiled' hid

lemma foldl_acceptOutput {outputs : List EngineCoreOutput} (hcompiled : e.Compiled) (hfresh : e.MasksFresh c.ops)
    (hnd : ((outputs.filter fun o => o.newTokenIds ≠ []).map fun o => o.requestId).Nodup)
    (hout : ∀ output ∈ outputs, output.newTokenIds ≠ [] → Acceptable c.ops q e output) :
    Shown ((outputs.filter fun o => o.newTokenIds ≠ []).map fun o => o.requestId) e
        (outputs.foldl (fun e output => e.acceptOutput c q output) e) ∧
      (outputs.foldl (fun e output => e.acceptOutput c q output) e).MasksFresh c.ops := by
  induction outputs generalizing e with
  | nil => exact ⟨.refl _ e, hfresh⟩
  | cons output rest ih =>
    rw [foldl_cons]
    by_cases hnil : output.newTokenIds = []
    · have hsame : e.acceptOutput c q output = e := by
        exact if_pos hnil
      have hfilter : (output :: rest).filter (fun o => o.newTokenIds ≠ []) =
          rest.filter fun o => o.newTokenIds ≠ [] := filter_cons_of_neg (by simpa using hnil)
      rw [hfilter] at hnd ⊢
      rw [hsame]
      exact ih hcompiled hfresh hnd fun o ho => hout o (mem_cons_of_mem _ ho)
    · have hfilter : (output :: rest).filter (fun o => o.newTokenIds ≠ []) =
          output :: rest.filter fun o => o.newTokenIds ≠ [] :=
        filter_cons_of_pos (by simpa using hnil)
      rw [hfilter, map_cons] at hnd ⊢
      rw [nodup_cons] at hnd
      obtain ⟨hshown, hfresh1⟩ := acceptOutput_shown hcompiled hfresh hnil (hout output mem_cons_self hnil)
      have hcompiled1 : (e.acceptOutput c q output).Compiled := fun id hid => by
        rw [hshown.compiled]
        exact hcompiled id (hshown.isSome id ▸ hid)
      -- the requests that follow are other ones
      have hout1 : ∀ o ∈ rest, o.newTokenIds ≠ [] →
          Acceptable c.ops q (e.acceptOutput c q output) o := fun o ho hne => by
        have hother : o.requestId ≠ output.requestId := fun heq => hnd.1 (by
          rw [← heq]
          exact mem_map.mpr ⟨o, mem_filter.mpr ⟨ho, by simpa using hne⟩, rfl⟩)
        obtain ⟨token, htoken, haccept⟩ := hout o (mem_cons_of_mem _ ho) hne
        refine ⟨token, htoken, fun g hg => haccept g ?_⟩
        rw [← hshown.other o.requestId (by simpa using hother)]
        exact hg
      obtain ⟨hshown', hfresh'⟩ := ih hcompiled1 hfresh1 hnd.2 hout1
      refine ⟨⟨hshown'.scheduler.trans hshown.scheduler, hshown'.manager.trans hshown.manager,
        hshown'.batchQueue.trans hshown.batchQueue, hshown'.compiled.trans hshown.compiled,
        hshown'.maskCalls.trans hshown.maskCalls, hshown'.processed.trans hshown.processed,
        fun id => (hshown'.isSome id).trans (hshown.isSome id), fun id hid => ?_⟩, hfresh'⟩
      rw [mem_cons, not_or] at hid
      rw [hshown'.other id hid.2]
      exact hshown.other id (by simpa using hid.1)

end EngineCore

end CustomAi.Vllm
