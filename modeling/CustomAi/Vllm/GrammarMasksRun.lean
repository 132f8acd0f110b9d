import CustomAi.Vllm.GrammarMasks

/-!
# Grammar masks over whole runs

A batch whose mask waits for tokens is held back until the oldest batch was processed.
-/

namespace CustomAi.Vllm

open List Function Option Except

variable {G : Type}

namespace EngineHistory

variable {h h' h'' : EngineHistory G}

structure Grows (h h' : EngineHistory G) : Prop where
  maskCalls : h.maskCalls <+: h'.maskCalls
  processed : h.processed <+: h'.processed

lemma Grows.refl (h : EngineHistory G) : Grows h h := ⟨prefix_rfl, prefix_rfl⟩

lemma Grows.trans (h1 : Grows h h') (h2 : Grows h' h'') : Grows h h'' :=
  ⟨h1.maskCalls.trans h2.maskCalls, h1.processed.trans h2.processed⟩

/-- The model samples from the masks, and the masks are computed when the tokens have arrived. -/
structure Orderly (ops : StructuredOutputGrammar G) (width : ℕ) (h : EngineHistory G) : Prop where
  sampled : ∀ x ∈ h.processed, x.1.SampledFrom width x.2
  arrived : ∀ m ∈ h.maskCalls, m.TokensArrived ops

lemma Orderly.of_grows {ops : StructuredOutputGrammar G} {width : ℕ} (ho : Orderly ops width h')
    (hgrows : Grows h h') : Orderly ops width h :=
  ⟨fun x hx => ho.sampled x (hgrows.processed.subset hx), fun m hm => ho.arrived m (hgrows.maskCalls.subset hm)⟩

end EngineHistory

namespace EngineCore

open EngineHistory

variable {c : EngineSetup G} {config : SchedulerConfig} {width : ℕ} {e e' : EngineCore G}
  {q q' : QueuedBatch G} {batch : Batch} {i : StepInput}

/-- A new request takes no id that is in flight. -/
def Allows (e : EngineCore G) : EngineCall G → Prop
  | .addRequest request _ _ => request.Fresh ∧ (e.scheduler.requests.get? request.requestId = none →
      ∀ q ∈ e.batchQueue, q.batch.output.numScheduledTokens.contains request.requestId = false)
  | _ => True

/-- What every call keeps: the masks of the queued batches are of the grammars as they are. -/
structure Served (c : EngineSetup G) (config : SchedulerConfig) (width : ℕ) (e : EngineCore G) :
    Prop where
  sound : Engine.Sound config ⟨e.scheduler, []⟩
  undrafted : e.scheduler.Undrafted
  ready : e.structuredOutputManager.Ready width
  reasoner : e.structuredOutputManager.reasoner = none
  count : e.structuredOutputManager.maxNumSeqs = config.maxNumRunningReqs
  queue : ∀ q ∈ e.batchQueue, q.Positive → e.Serves c.ops q
  apart : e.batchQueue.Pairwise fun q q' => q'.Positive → e.Apart q q'
  compiled : e.Compiled
  fresh : e.MasksFresh c.ops

lemma Apart.symm (h : e.Apart q q') : e.Apart q' q := by
  intro id hlive hsome hs
  rw [← Bool.not_eq_true]
  intro hs'
  rw [h id hlive hsome hs'] at hs
  cases hs

variable {s : Scheduler}

lemma Served.rescheduled (he : Served c config width e)
    (hsound : Engine.Sound config ⟨s, []⟩) (hlive : ∀ id, s.Live id → e.scheduler.Live id)
    (hundrafted : s.Undrafted) : Served c config width { e with scheduler := s } := by
  refine ⟨hsound, hundrafted, he.ready, he.reasoner, he.count,
    fun q hq hpos id g hl hg hs => he.queue q hq hpos id g (hlive id hl) hg hs,
    he.apart.imp fun h hpos id hl hg hs => h hpos id (hlive id hl) hg hs, he.compiled, ?_⟩
  exact ⟨he.fresh.sampled, he.fresh.outputs⟩

lemma sound_of {inFlight inFlight' : List Batch}
    (h : Engine.Sound config ⟨s, inFlight⟩) : Engine.Sound config ⟨s, inFlight'⟩ :=
  ⟨h.placed, h.room, h.config⟩

variable {connectorDelay : RequestId → Bool}

lemma Served.finishRequests {requestIds : List RequestId} (he : Served c config width e)
    (h : e.scheduler.finishRequests connectorDelay requestIds .finishedAborted = .ok s) :
    Served c config width { e with scheduler := s } := by
  have hcarried := Scheduler.finishRequests_carried h he.sound.keys
  refine he.rescheduled ?_ (fun id => hcarried.live) (hcarried.undrafted he.undrafted)
  have hstep : Engine.step ⟨e.scheduler, []⟩
      (.finishRequests requestIds .finishedAborted connectorDelay) = .ok ⟨s, []⟩ := by
    change (e.scheduler.finishRequests connectorDelay requestIds .finishedAborted >>= _) = _
    rw [h]
    rfl
  exact Engine.step_sound hstep trivial he.sound

structure Undrafted (config : SchedulerConfig) (batch : Batch) : Prop where
  spec : ∀ id, (batch.output.scheduledSpecDecodeTokens.get? id).getD [] = []
  total : batch.output.totalNumScheduledTokens = batch.output.numScheduledTokens.values.sum
  count : batch.output.numScheduledTokens.keys.length ≤ config.maxNumRunningReqs

lemma Served.schedule {env : ScheduleEnv} {output : SchedulerOutput}
    (he : Served c config width e) (hconfig : config.numSpecTokens = 0)
    (h : e.scheduler.schedule env = .ok (output, s)) :
    Served c config width { e with scheduler := s } ∧ Undrafted config ⟨output, s.requests⟩ := by
  have hdone := Engine.schedule_undrafts he.sound hconfig he.undrafted h
  refine ⟨he.rescheduled ?_ hdone.live hdone.undrafted, hdone.spec, hdone.total, hdone.count⟩
  have hstep : Engine.step ⟨e.scheduler, []⟩ (.schedule env) = .ok ⟨s, [⟨output, s.requests⟩]⟩ := by
    change (e.scheduler.schedule env >>= _) = _
    rw [h]
    rfl
  exact sound_of (Engine.step_sound hstep trivial he.sound)

lemma maskBatch_grows (h : e.maskBatch c batch = .ok (q, e')) : Grows e.history e'.history := by
  obtain ⟨⟨grammarOutput, manager, requests⟩, -, h⟩ := bind_eq_ok.mp h
  obtain ⟨-, rfl⟩ := ok_pair_inj h
  exact ⟨prefix_append _ _, prefix_rfl⟩

lemma Served.maskBatch (he : Served c config width e) (hauto : c.ops.Automaton width)
    (hinterleave : ∀ batches, (c.interleave batches).Perm batches.flatten)
    (hbatch : Undrafted config batch) (h : e.maskBatch c batch = .ok (q, e'))
    (ho : Orderly c.ops width e'.history) :
    Served c config width e' ∧ e'.Serves c.ops q ∧ ∀ q' ∈ e'.batchQueue, e'.Apart q q' := by
  have hmasked := maskBatch_masked hauto hinterleave he.ready he.reasoner
    (hbatch.count.trans he.count.ge) hbatch.spec h
  have harrived := ho.arrived ⟨batch, e.batchQueue.map QueuedBatch.batch, e.scheduler.requests, e.grammars⟩ (by
      rw [hmasked.history]
      exact mem_append_right _ (mem_singleton_self _))
  have hdone : ∀ id, e.scheduler.Live id → ∀ g, e.grammars id = some g →
      q.batch.samples id = true → c.ops.isTerminated g = false ∧
        ∀ b ∈ e.batchQueue.map QueuedBatch.batch, b.samples id = false := by
    intro id ⟨r, hr, hfin⟩ g hg hs
    rw [hmasked.queued] at hs
    exact harrived id ((Dict.mem_keys_iff _ _).mpr (Batch.samples_iff.mp hs).1) hs r hr hfin g hg
  obtain ⟨bitmask, hmanager⟩ := hmasked.manager
  refine ⟨⟨?_, ?_, hmasked.ready, ?_, ?_, ?_, ?_, ?_, ?_⟩, ?_, ?_⟩
  · rw [hmasked.scheduler]
    exact he.sound
  · rw [hmasked.scheduler]
    exact he.undrafted
  · rw [hmanager]
    exact he.reasoner
  · rw [hmanager]
    exact he.count
  · intro q' hq' hpos id g hl hg hs
    rw [hmasked.batchQueue] at hq'
    rw [hmasked.scheduler] at hl
    rw [hmasked.grammars] at hg
    exact he.queue q' hq' hpos id g hl hg hs
  · rw [hmasked.batchQueue]
    refine he.apart.imp fun hapart hpos id hl hg hs => ?_
    rw [hmasked.scheduler] at hl
    rw [hmasked.grammars] at hg
    exact hapart hpos id hl hg hs
  · intro id hg
    rw [hmasked.grammars] at hg
    rw [hmasked.history]
    exact he.compiled id hg
  · constructor
    · rw [hmasked.history]
      exact he.fresh.sampled
    · rw [hmasked.history, hmasked.grammars]
      exact he.fresh.outputs
  · intro id g hl hg hs
    rw [hmasked.scheduler] at hl
    rw [hmasked.grammars] at hg
    have hterm := (hdone id hl g hg hs).1
    rw [hmasked.queued] at hs
    exact ⟨by rw [hmasked.maskGrammars, hg], hterm, hmasked.rows id (Batch.samples_iff.mp hs).1 hl g hg hterm⟩
  · intro q' hq' id hl hsome hs
    rw [hmasked.batchQueue] at hq'
    rw [hmasked.scheduler] at hl
    rw [hmasked.grammars] at hsome
    obtain ⟨g, hg⟩ := isSome_iff_exists.mp hsome
    exact (hdone id hl g hg hs).2 q'.batch (mem_map.mpr ⟨q', hq', rfl⟩)

lemma Served.enqueue (he : Served c config width e) (hq : q.Positive → e.Serves c.ops q)
    (hapart : ∀ q' ∈ e.batchQueue, q.Positive → e.Apart q' q) : Served c config width (e.enqueue q) := by
  refine ⟨he.sound, he.undrafted, he.ready, he.reasoner, he.count, fun q' hq' => ?_, ?_,
    he.compiled, he.fresh.sampled, he.fresh.outputs⟩
  · rcases mem_append.mp hq' with hq' | hq'
    · exact he.queue q' hq'
    · obtain rfl := mem_singleton.mp hq'
      exact hq
  · refine pairwise_append.mpr ⟨he.apart, pairwise_singleton _ _, fun q1 hq1 q2 hq2 => ?_⟩
    obtain rfl := mem_singleton.mp hq2
    exact hapart q1 hq1

lemma samples_of_empty (hbatch : Undrafted config q.batch)
    (hzero : ¬q.batch.output.totalNumScheduledTokens > 0) (hpos : q.Positive) (id : RequestId) :
    q.batch.samples id = false := by
  have hnil : q.batch.output.numScheduledTokens.values = [] := by
    by_contra hne
    rw [hbatch.total] at hzero
    exact hzero (sum_pos _ hpos hne)
  rw [← Bool.not_eq_true]
  intro hs
  obtain ⟨n, hn⟩ := isSome_iff_exists.mp (Batch.samples_iff.mp hs).1
  exact Dict.values_ne_nil_of_get? hn hnil

lemma acceptOutput_history (e : EngineCore G) (output : EngineCoreOutput) :
    (e.acceptOutput c q output).history.maskCalls = e.history.maskCalls ∧
      (e.acceptOutput c q output).history.processed = e.history.processed := by
  unfold acceptOutput
  dsimp only
  split
  · exact ⟨rfl, rfl⟩
  · split <;> exact ⟨rfl, rfl⟩

lemma foldl_acceptOutput_history (outputs : List EngineCoreOutput) (e : EngineCore G) :
    (outputs.foldl (fun e output => e.acceptOutput c q output) e).history.maskCalls = e.history.maskCalls ∧
      (outputs.foldl (fun e output => e.acceptOutput c q output) e).history.processed = e.history.processed := by
  induction outputs generalizing e with
  | nil => exact ⟨rfl, rfl⟩
  | cons output rest ih =>
    obtain ⟨hmask, hprocessed⟩ := ih (e.acceptOutput c q output)
    obtain ⟨hmask1, hprocessed1⟩ := acceptOutput_history (c := c) (q := q) e output
    exact ⟨hmask.trans hmask1, hprocessed.trans hprocessed1⟩

lemma processBatch_history (h : e.processBatch c i q = .ok e') : e'.history.maskCalls = e.history.maskCalls ∧
      e'.history.processed = e.history.processed ++ [(q, i.out)] := by
  obtain ⟨e1, haborts, h⟩ := bind_eq_ok.mp h
  obtain ⟨⟨outputs, s⟩, -, h⟩ := bind_eq_ok.mp h
  obtain rfl := ok.inj h
  have hsame : e1.history = e.history := by
    unfold processAbortsQueue at haborts
    split at haborts
    · obtain rfl := ok.inj haborts
      rfl
    · obtain ⟨s1, -, haborts⟩ := bind_eq_ok.mp haborts
      obtain rfl := ok.inj haborts
      rfl
  obtain ⟨hmask, hprocessed⟩ := foldl_acceptOutput_history (c := c) (q := q) outputs
    { e1 with
      scheduler := s
      history := { e1.history with processed := e1.history.processed ++ [(q, i.out)] } }
  rw [← hsame]
  exact ⟨hmask, hprocessed⟩

lemma Served.processAbortsQueue (he : Served c config width e) (h : e.processAbortsQueue i = .ok e') :
    Served c config width e' ∧ ∃ s, e' = { e with scheduler := s } ∧ ∀ id, s.Live id → e.scheduler.Live id := by
  unfold EngineCore.processAbortsQueue at h
  split at h
  · obtain rfl := ok.inj h
    exact ⟨he, e.scheduler, rfl, fun _ hl => hl⟩
  · obtain ⟨s, hs, h⟩ := bind_eq_ok.mp h
    obtain rfl := ok.inj h
    exact ⟨he.finishRequests hs, s, rfl, fun id => (Scheduler.finishRequests_carried hs he.sound.keys).live⟩

lemma acceptable_of_sampled (hauto : c.ops.Automaton width) {output : EngineCoreOutput}
    (hsampled : q.SampledFrom width i.out)
    (hcontains : q.batch.output.numScheduledTokens.contains output.requestId = true)
    (htokens : output.newTokenIds <+: i.out.sampledTokenIds output.requestId)
    (hne : output.newTokenIds ≠ []) : q.batch.samples output.requestId = true ∧
      (q.batch.samples output.requestId = true → (∀ g, e.grammars output.requestId = some g →
        q.grammars output.requestId = some g ∧ c.ops.isTerminated g = false ∧
          q.rowOf output.requestId = some (c.ops.fillBitmask g)) → Acceptable c.ops q e output) := by
  have hone := hsampled output.requestId ((Dict.mem_keys_iff _ _).mpr hcontains)
  split at hone
  · rename_i hs
    refine ⟨hs, fun _ hserves => ?_⟩
    obtain ⟨hlen, hallowed⟩ := hone
    obtain ⟨token, htoken⟩ := length_eq_one_iff.mp hlen
    rw [htoken] at htokens hallowed
    obtain ⟨hnonneg, hvocab, hrow⟩ := hallowed token (mem_singleton_self token)
    refine ⟨token, ?_, fun g hg => ?_⟩
    · obtain ⟨rest, hrest⟩ := htokens
      rcases append_eq_singleton_iff.mp hrest with ⟨hnil, -⟩ | ⟨hsingle, -⟩
      · exact absurd hnil hne
      · exact hsingle
    · obtain ⟨hmask, hterm, hfill⟩ := hserves g hg
      have hallows := hrow _ hfill
      rw [hauto.fill_allows g output.requestId token.toNat hterm hvocab, Int.toNat_of_nonneg hnonneg] at hallows
      exact ⟨hmask, hallows⟩
  · rw [hone, prefix_nil] at htokens
    exact absurd htokens hne

lemma Served.processBatch (he : Served c config width e) (hauto : c.ops.Automaton width)
    (hq : q.Positive → e.Serves c.ops q) (hapart : ∀ q' ∈ e.batchQueue, q'.Positive → e.Apart q q')
    (h : e.processBatch c i q = .ok e') (ho : Orderly c.ops width e'.history) : Served c config width e' := by
  have hsampled : q.SampledFrom width i.out := ho.sampled (q, i.out) (by
    rw [(processBatch_history h).2]
    exact mem_append_right _ (mem_singleton_self _))
  obtain ⟨e1, haborts, h⟩ := bind_eq_ok.mp h
  obtain ⟨he1, s1, rfl, hlive1⟩ := he.processAbortsQueue haborts
  obtain ⟨⟨outputs, s⟩, hupdate, h⟩ := bind_eq_ok.mp h
  have hstep : Engine.step ⟨s1, [q.batch]⟩ (.updateFromOutput i.out i.connectorDelay) = .ok ⟨s, []⟩ := by
    change (s1.updateFromOutput q.batch.output i.out i.connectorDelay >>= _) = _
    rw [hupdate]
    rfl
  have hsound := Engine.step_sound hstep trivial (sound_of he1.sound)
  obtain ⟨hcarried, hreturns⟩ := Scheduler.updateFromOutput_returns hupdate he1.sound.keys
  have hserves := hq hreturns.positive
  have hout : ∀ output ∈ outputs, output.newTokenIds ≠ [] →
      q.batch.samples output.requestId = true ∧ e.scheduler.Live output.requestId ∧
        Acceptable c.ops q e output := by
    intro output hmem hne
    have hreturn := hreturns.tokens output hmem hne
    have hlive := hlive1 _ hreturn.live
    obtain ⟨hs, haccept⟩ := acceptable_of_sampled (e := e) hauto hsampled
      (hreturns.contains output hmem hne) hreturn.tokens hne
    exact ⟨hs, hlive, haccept hs fun g hg => hserves _ g hlive hg hs⟩
  obtain ⟨hshown, hfresh⟩ :
      Shown ((outputs.filter fun o => o.newTokenIds ≠ []).map fun o => o.requestId) { e with
          scheduler := s
          history := { e.history with processed := e.history.processed ++ [(q, i.out)] } } e' ∧
        e'.MasksFresh c.ops := by
    rw [← ok.inj h]
    exact foldl_acceptOutput he.compiled ⟨he.fresh.sampled, he.fresh.outputs⟩ hreturns.nodup
      fun output hmem hne => (hout output hmem hne).2.2
  have hlive : ∀ id, e'.scheduler.Live id → e.scheduler.Live id := fun id hl => by
    rw [hshown.scheduler] at hl
    exact hlive1 id (hcarried.live hl)
  have hsome : ∀ id, (e'.grammars id).isSome = (e.grammars id).isSome := hshown.isSome
  refine ⟨?_, ?_, ?_, ?_, ?_, fun q' hq' hpos id g hl hg hs => ?_, ?_, fun id hg => ?_, hfresh⟩
  · rw [hshown.scheduler]
    exact hsound
  · rw [hshown.scheduler]
    exact hcarried.undrafted he1.undrafted
  · rw [hshown.manager]
    exact he.ready
  · rw [hshown.manager]
    exact he.reasoner
  · rw [hshown.manager]
    exact he.count
  · rw [hshown.batchQueue] at hq'
    have hgsome : (e.grammars id).isSome = true := by
      rw [← hsome id, hg]
      rfl
    -- the request has no token in the batch that was processed
    have hout : id ∉ (outputs.filter fun o => o.newTokenIds ≠ []).map fun o => o.requestId := by
      intro hid
      obtain ⟨output, hmem, rfl⟩ := mem_map.mp hid
      obtain ⟨hmem, hne⟩ := mem_filter.mp hmem
      have hother := hapart q' hq' hpos output.requestId (hlive _ hl) hgsome
        (hout output hmem (by simpa using hne)).1
      rw [hother] at hs
      cases hs
    rw [hshown.other id hout] at hg
    exact he.queue q' hq' hpos id g (hlive id hl) hg hs
  · rw [hshown.batchQueue]
    refine he.apart.imp fun hapart hpos id hl hg hs => ?_
    rw [hsome id] at hg
    exact hapart hpos id (hlive id hl) hg hs
  · rw [hshown.compiled]
    exact he.compiled id (hsome id ▸ hg)

lemma processBatch_grows (h : e.processBatch c i q = .ok e') : Grows e.history e'.history := by
  obtain ⟨hmask, hprocessed⟩ := processBatch_history h
  exact ⟨hmask ▸ prefix_rfl, hprocessed ▸ prefix_append _ _⟩

lemma processOldest_grows (h : e.processOldest c i = .ok e') : Grows e.history e'.history := by
  unfold processOldest at h
  split at h
  · cases h
  · have hgrows := processBatch_grows h
    exact hgrows

section

variable (he : Served c config width e) (hauto : c.ops.Automaton width)
include he hauto

lemma Served.processOldest (h : e.processOldest c i = .ok e') (ho : Orderly c.ops width e'.history) :
    Served c config width e' := by
  unfold EngineCore.processOldest at h
  split at h
  · cases h
  · rename_i q rest hqueue
    have hapart := he.apart
    rw [hqueue, pairwise_cons] at hapart
    have hrest : Served c config width { e with batchQueue := rest } := by
      refine ⟨he.sound, he.undrafted, he.ready, he.reasoner, he.count, fun q' hq' => ?_, hapart.2,
        he.compiled, he.fresh.sampled, he.fresh.outputs⟩
      exact he.queue q' (by rw [hqueue]; exact mem_cons_of_mem _ hq')
    exact hrest.processBatch hauto (he.queue q (by rw [hqueue]; exact mem_cons_self))
      hapart.1 h ho

section

variable (hinterleave : ∀ batches, (c.interleave batches).Perm batches.flatten)
include hinterleave

lemma Served.step  (hconfig : config.numSpecTokens = 0) (h : e.step c i = .ok e')
    (ho : Orderly c.ops width e'.history) : Served c config width e' := by
  unfold EngineCore.step at h
  split at h
  · obtain ⟨⟨output, s⟩, hschedule, h⟩ := bind_eq_ok.mp h
    obtain ⟨⟨q, e1⟩, hmask, h⟩ := bind_eq_ok.mp h
    obtain ⟨hs, hbatch⟩ := he.schedule hconfig hschedule
    obtain ⟨he1, hserves, hapart⟩ := hs.maskBatch hauto hinterleave hbatch hmask
      (ho.of_grows (processBatch_grows h))
    exact he1.processBatch hauto (fun _ => hserves) (fun q' hq' _ => hapart q' hq') h ho
  · obtain rfl := ok.inj h
    exact he

lemma Served.stepWithBatchQueue  (hconfig : config.numSpecTokens = 0) (h : e.stepWithBatchQueue c i = .ok e')
    (ho : Orderly c.ops width e'.history) : Served c config width e' := by
  obtain ⟨_, -, h⟩ := bind_eq_ok.mp h
  split at h
  · obtain ⟨⟨output, s⟩, hschedule, h⟩ := bind_eq_ok.mp h
    obtain ⟨hs, hbatch⟩ := he.schedule hconfig hschedule
    dsimp only at h
    split at h
    · split at h
      · -- the mask is computed after the oldest batch was processed
        obtain ⟨e1, hold, h⟩ := bind_eq_ok.mp h
        obtain ⟨⟨q, e2⟩, hmask, h⟩ := bind_eq_ok.mp h
        obtain rfl := ok.inj h
        have hgrows := maskBatch_grows hmask
        have he1 := hs.processOldest hauto hold (ho.of_grows hgrows)
        obtain ⟨he2, hserves, hapart⟩ := he1.maskBatch hauto hinterleave hbatch hmask ho
        exact he2.enqueue (fun _ => hserves) fun q' hq' _ => (hapart q' hq').symm
      · obtain ⟨⟨q, e1⟩, hmask, h⟩ := bind_eq_ok.mp h
        have hqueued : Orderly c.ops width e1.history → Served c config width (e1.enqueue q) := by
          intro ho1
          obtain ⟨he1, hserves, hapart⟩ := hs.maskBatch hauto hinterleave hbatch hmask ho1
          exact he1.enqueue (fun _ => hserves) fun q' hq' _ => (hapart q' hq').symm
        split at h
        · obtain rfl := ok.inj h
          exact hqueued ho
        · exact (hqueued (ho.of_grows (processOldest_grows (e := e1.enqueue q) h))).processOldest hauto h ho
    · rename_i hzero
      have hnone := samples_of_empty (q := ⟨⟨output, s.requests⟩, none, e.grammars⟩) hbatch hzero
      refine Served.processOldest (hs.enqueue (fun hpos id g _ _ hsamples => ?_)
        fun q' _ hpos id _ _ _ => hnone hpos id) hauto h ho
      rw [hnone hpos id] at hsamples
      cases hsamples
  · split at h
    · obtain rfl := ok.inj h
      exact he
    · exact he.processOldest hauto h ho

end

end

lemma Served.addRequest {request : Request} {grammar : Option G} (he : Served c config width e)
    (hop : e.Allows (.addRequest request grammar connectorDelay))
    (h : e.addRequest request grammar connectorDelay = .ok e') : Served c config width e' := by
  obtain ⟨hfresh, hflight⟩ := hop
  obtain ⟨s, hs, h⟩ := bind_eq_ok.mp h
  have hstep : Engine.step ⟨e.scheduler, []⟩ (.addRequest request connectorDelay) = .ok ⟨s, []⟩ := by
    change (e.scheduler.addRequest connectorDelay request >>= _) = _
    rw [hs]
    rfl
  have hsound := Engine.step_sound hstep hfresh he.sound
  have hrecord : ∀ {id r'}, s.requests.get? id = some r' → _ := fun hr' =>
    Scheduler.addRequest_carried hs he.sound.keys hr'
  have hundrafted : s.Undrafted := fun id r' hr' => by
    obtain ⟨-, -, hspec⟩ | ⟨r, hr, -, hspec⟩ := hrecord hr'
    · rw [hspec]
      exact hfresh.specTokenIds
    · rw [hspec]
      exact he.undrafted id r hr
  split at h
  · rename_i hcontains
    obtain rfl := ok.inj h
    refine he.rescheduled hsound (fun id ⟨r', hr', hfin⟩ => ?_) hundrafted
    obtain ⟨rfl, hnone, -⟩ | ⟨r, hr, hback, -⟩ := hrecord hr'
    · rw [Dict.contains, hnone] at hcontains
      cases hcontains
    · exact ⟨r, hr, hback hfin⟩
  · rename_i hcontains
    obtain rfl := ok.inj h
    have hnone : e.scheduler.requests.get? request.requestId = none := by
      simpa [Dict.contains] using hcontains
    have hlive : ∀ id, id ≠ request.requestId → s.Live id → e.scheduler.Live id := by
      intro id hne ⟨r', hr', hfin⟩
      obtain ⟨heq, -, -⟩ | ⟨r, hr, hback, -⟩ := hrecord hr'
      · exact absurd heq hne
      · exact ⟨r, hr, hback hfin⟩
    -- no batch in flight has the new request
    have hsamples : ∀ q ∈ e.batchQueue, q.batch.samples request.requestId = false := by
      intro q hq
      unfold Batch.samples
      rw [hflight hnone q hq, Bool.false_and]
    refine ⟨hsound, hundrafted, he.ready, he.reasoner, he.count, fun q hq hpos id g hl hg hs => ?_,
      ?_, fun id hg => ?_, he.fresh.sampled, fun id compiled hid => ?_⟩
    · by_cases hne : id = request.requestId
      · rw [hne, hsamples q hq] at hs
        cases hs
      · dsimp only at hg
        rw [update_of_ne hne] at hg
        exact he.queue q hq hpos id g (hlive id hne hl) hg hs
    · refine he.apart.imp_of_mem fun {q q'} hq _ hapart hpos id hl hg hs => ?_
      by_cases hne : id = request.requestId
      · rw [hne, hsamples q hq] at hs
        cases hs
      · dsimp only at hg
        rw [update_of_ne hne] at hg
        exact hapart hpos id (hlive id hne hl) hg hs
    · dsimp only at hg ⊢
      by_cases hne : id = request.requestId
      · rw [hne, update_self] at hg ⊢
        exact hg
      · rw [update_of_ne hne] at hg ⊢
        exact he.compiled id hg
    · dsimp only at hid ⊢
      by_cases hne : id = request.requestId
      · subst hne
        rw [update_self] at hid
        rw [update_self, update_self]
        exact ⟨compiled, hid, .nil compiled⟩
      · rw [update_of_ne hne] at hid
        rw [update_of_ne hne, update_of_ne hne]
        exact he.fresh.outputs id compiled hid

lemma step_grows (h : e.step c i = .ok e') : Grows e.history e'.history := by
  unfold EngineCore.step at h
  split at h
  · obtain ⟨⟨output, s⟩, -, h⟩ := bind_eq_ok.mp h
    obtain ⟨⟨q, e1⟩, hmask, h⟩ := bind_eq_ok.mp h
    exact (maskBatch_grows hmask).trans (processBatch_grows h)
  · obtain rfl := ok.inj h
    exact .refl _

lemma stepWithBatchQueue_grows (h : e.stepWithBatchQueue c i = .ok e') : Grows e.history e'.history := by
  obtain ⟨_, -, h⟩ := bind_eq_ok.mp h
  split at h
  · obtain ⟨⟨output, s⟩, -, h⟩ := bind_eq_ok.mp h
    dsimp only at h
    split at h
    · split at h
      · obtain ⟨e1, hold, h⟩ := bind_eq_ok.mp h
        obtain ⟨⟨q, e2⟩, hmask, h⟩ := bind_eq_ok.mp h
        obtain rfl := ok.inj h
        have hold := processOldest_grows hold
        have hmask := maskBatch_grows hmask
        exact hold.trans hmask
      · obtain ⟨⟨q, e1⟩, hmask, h⟩ := bind_eq_ok.mp h
        have hmask := maskBatch_grows hmask
        split at h
        · obtain rfl := ok.inj h
          exact hmask
        · exact hmask.trans (processOldest_grows (e := e1.enqueue q) h)
    · have hgrows := processOldest_grows h
      exact hgrows
  · split at h
    · obtain rfl := ok.inj h
      exact .refl _
    · exact processOldest_grows h

lemma call_served {op : EngineCall G} (he : Orderly c.ops width e.history → Served c config width e)
    (hauto : c.ops.Automaton width) (hinterleave : ∀ batches, (c.interleave batches).Perm batches.flatten)
    (hconfig : config.numSpecTokens = 0) (hop : e.Allows op) (h : e.call c op = .ok e')
    (ho : Orderly c.ops width e'.history) : Served c config width e' := by
  cases op with
  | addRequest request grammar connectorDelay =>
    refine (he (ho.of_grows ?_)).addRequest hop h
    obtain ⟨s, -, h⟩ := bind_eq_ok.mp h
    split at h <;> (obtain rfl := ok.inj h; exact ⟨prefix_rfl, prefix_rfl⟩)
  | abortRequests requestIds connectorDelay =>
    obtain ⟨s, hs, h⟩ := bind_eq_ok.mp h
    obtain rfl := ok.inj h
    exact (he ho).finishRequests hs
  | step i =>
    unfold call at h
    dsimp only at h
    split at h
    · exact (he (ho.of_grows (step_grows h))).step hauto hinterleave hconfig h ho
    · exact (he (ho.of_grows (stepWithBatchQueue_grows h))).stepWithBatchQueue hauto hinterleave hconfig h ho

/-- If all tokens that a mask waits for have arrived, every token is sampled with a mask of the
right grammar and accepted. -/
theorem reaches_masks_fresh (hauto : c.ops.Automaton width)
    (hinterleave : ∀ batches, (c.interleave batches).Perm batches.flatten) {allocateTokenBitmask : ℕ → List MaskRow}
    (hallocate : ∀ n, (allocateTokenBitmask n).length = n ∧ HasWidth width (allocateTokenBitmask n))
    (hconfig : config.numSpecTokens = 0) {k : KVCacheManager} {encoderCache : EncoderCache}
    (h : Reaches (call c) Allows (start config k encoderCache allocateTokenBitmask) e)
    (hsampled : ∀ x ∈ e.history.processed, x.1.SampledFrom width x.2)
    (harrived : ∀ m ∈ e.history.maskCalls, m.TokensArrived c.ops) : e.MasksFresh c.ops := by
  have he : Orderly c.ops width e.history → Served c config width e := by
    refine h.invariant (fun _ => ?_) fun e op e' he hop hstep ho =>
      call_served he hauto hinterleave hconfig hop hstep ho
    refine ⟨Engine.start_sound k encoderCache, fun _ _ hr => (by cases hr),
      ⟨nofun, _, rfl, hallocate⟩, rfl, rfl, nofun, .nil, fun _ hg => (by cases hg), nofun, nofun⟩
  exact (he ⟨hsampled, harrived⟩).fresh

instance (width : ℕ) (q : QueuedBatch G) (out : ModelRunnerOutput) :
    Decidable (q.SampledFrom width out) :=
  inferInstanceAs (Decidable (∀ reqId ∈ q.batch.output.numScheduledTokens.keys, if q.batch.samples reqId then
      (out.sampledTokenIds reqId).length = 1 ∧ ∀ token ∈ out.sampledTokenIds reqId,
        0 ≤ token ∧ token.toNat < 32 * width ∧ ∀ row ∈ q.rowOf reqId, row.allows token.toNat = true
    else out.sampledTokenIds reqId = []))

instance (ops : StructuredOutputGrammar G) (m : MaskCall G) : Decidable (m.TokensArrived ops) :=
  inferInstanceAs (Decidable (∀ reqId ∈ m.batch.output.numScheduledTokens.keys,
    m.batch.samples reqId = true → ∀ r ∈ m.requests.get? reqId, r.status.isFinished = false →
      ∀ g ∈ m.grammars reqId, ops.isTerminated g = false ∧ ∀ batch ∈ m.inFlight, batch.samples reqId = false))

instance (e : EngineCore G) : (op : EngineCall G) → Decidable (e.Allows op)
  | .addRequest request _ _ =>
    inferInstanceAs (Decidable (request.Fresh ∧
      (e.scheduler.requests.get? request.requestId = none → ∀ q ∈ e.batchQueue,
        q.batch.output.numScheduledTokens.contains request.requestId = false)))
  | .abortRequests _ _ | .step _ => inferInstanceAs (Decidable True)

/-- A grammar of the tokens 0, 1 and 2 in this order, with the number of accepted tokens as its
state. -/
def threeTokens : StructuredOutputGrammar ℕ where
  acceptTokens g _ tokens := match tokens with
    | [token] => if g < 3 ∧ token = g then (true, g + 1) else (false, g)
    | _ => (false, g)
  rollback g n := g - n
  fillBitmask g := [1#32 <<< g]
  isTerminated g := decide (3 ≤ g)

lemma threeTokens_automaton : threeTokens.Automaton 1 where
  rollback_exact := by
    intro g n g' h
    have hcount : g' = g + n := by
      induction h with
      | refl => rfl
      | @step g' n reqId token h haccept ih =>
        unfold threeTokens at haccept ⊢
        dsimp only at haccept ⊢
        split at haccept
        · rename_i hif
          rw [if_pos hif, ih]
          rfl
        · cases haccept
    rw [hcount]
    exact Nat.add_sub_cancel g n
  length_fill := fun g => rfl
  fill_allows := by
    intro g reqId token hterm htoken
    have hg : g < 3 := by simpa [threeTokens] using hterm
    unfold threeTokens MaskRow.allows
    dsimp only
    interval_cases g <;> interval_cases token <;> rfl

def shortPrompt (requestId : RequestId) (maxTokens : ℕ) (status : RequestStatus) : Request where
  requestId := requestId
  promptTokenIds := some [1]
  numPromptTokens := 1
  allTokenIds := [1]
  samplingParams := ⟨maxTokens, 0, false, []⟩
  maxTokens := maxTokens
  status := status

def asyncConfig : SchedulerConfig := { smallConfig with asyncScheduling := true }

def clearedMasks (n : ℕ) : List MaskRow := replicate n [0]

def twoInFlight : List (EngineCall ℕ) :=
  [.addRequest (shortPrompt "r" 3 .waitingForFsm) (some 0) (fun _ => false),
    .step { out := sampled 0 }, .step { out := sampled 0 }, .step { out := sampled 1 }]

theorem reaches_masks_fresh_two : ∃ k e, smallCache = .ok k ∧
    Reaches (call ⟨threeTokens, List.flatten, 1⟩) Allows
      (start asyncConfig k (.multiModal (.new 0)) clearedMasks) e ∧
    e.history.outputTokenIds "r" = [0, 1] ∧ e.MasksFresh threeTokens := by
  have hrun : (smallCache.toOption.bind fun k => runAllowed
      (call ⟨threeTokens, List.flatten, 1⟩) Allows
      (start asyncConfig k (.multiModal (.new 0)) clearedMasks) twoInFlight).map (fun e =>
        (decide (∀ x ∈ e.history.processed, x.1.SampledFrom 1 x.2),
          decide (∀ m ∈ e.history.maskCalls, m.TokensArrived threeTokens),
          e.history.outputTokenIds "r")) = some (true, true, [0, 1]) := by decide +kernel
  obtain ⟨k, e, hk, hreach, hstate⟩ := exists_reaches hrun
  simp only [Prod.mk.injEq, decide_eq_true_eq] at hstate
  obtain ⟨hsampled, harrived, houtput⟩ := hstate
  have hinterleave : ∀ batches : List (List (ℕ × ℕ × Bool)),
      batches.flatten.Perm batches.flatten := fun _ => Perm.refl _
  have hallocate : ∀ n, (clearedMasks n).length = n ∧ HasWidth 1 (clearedMasks n) := by
    refine fun n => ⟨length_replicate, fun row hrow => ?_⟩
    rw [eq_of_mem_replicate hrow]
    rfl
  have hconfig : asyncConfig.numSpecTokens = 0 := rfl
  exact ⟨k, e, hk, hreach, houtput, reaches_masks_fresh threeTokens_automaton hinterleave hallocate
    hconfig hreach hsampled harrived⟩

def threeInFlight : List (EngineCall ℕ) :=
  [.addRequest (shortPrompt "x" 1 .waiting) none (fun _ => false), .step { out := sampled 9 },
    .addRequest (shortPrompt "r" 3 .waitingForFsm) (some 0) (fun _ => false),
    .step { out := sampled 9 }, .step { out := sampled 9 }, .step { out := sampled 0 },
    .step { out := sampled 0 }]

theorem stale_mask : ∃ k e, smallCache = .ok k ∧
    Reaches (call ⟨threeTokens, List.flatten, 3⟩) Allows
      (start asyncConfig k (.multiModal (.new 0)) clearedMasks) e ∧
    (∀ x ∈ e.history.processed, x.1.SampledFrom 1 x.2) ∧
    e.history.outputTokenIds "r" = [0, 0] ∧ ¬ e.MasksFresh threeTokens := by
  have hrun : (smallCache.toOption.bind fun k => runAllowed
      (call ⟨threeTokens, List.flatten, 3⟩) Allows
      (start asyncConfig k (.multiModal (.new 0)) clearedMasks) threeInFlight).map (fun e =>
        (decide (∀ x ∈ e.history.processed, x.1.SampledFrom 1 x.2),
          e.history.outputTokenIds "r", e.history.sampled.map fun x => x.accepted)) =
      some (true, [0, 0], [true, false]) := by decide +kernel
  obtain ⟨k, e, hk, hreach, hstate⟩ := exists_reaches hrun
  simp only [Prod.mk.injEq, decide_eq_true_eq] at hstate
  obtain ⟨hsampled, houtput, haccepted⟩ := hstate
  refine ⟨k, e, hk, hreach, hsampled, houtput, fun hfresh => ?_⟩
  have hmem : false ∈ e.history.sampled.map fun x => x.accepted := by
    rw [haccepted]
    exact mem_cons_of_mem _ (mem_singleton_self _)
  obtain ⟨x, hx, hfalse⟩ := mem_map.mp hmem
  rw [(hfresh.sampled x hx).1] at hfalse
  cases hfalse

end EngineCore

end CustomAi.Vllm
