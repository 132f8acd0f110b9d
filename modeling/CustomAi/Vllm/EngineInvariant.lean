import CustomAi.Vllm.RecordChanges
import CustomAi.Vllm.ScheduleBooks
import CustomAi.Vllm.PlacementRun

/-!
# What holds in every state of the engine

The records, the running list and the configuration in every run, and the record rule for a whole
call of `schedule`.
-/

namespace CustomAi.Vllm

open List Option Except Scheduler

def Batch.samples (batch : Batch) (id : RequestId) : Bool :=
  batch.output.numScheduledTokens.contains id &&
    (batch.requests.get? id).any fun r => !r.isPrefillChunk

lemma Batch.samples_iff {batch : Batch} {id : RequestId} : batch.samples id = true ↔
    batch.output.numScheduledTokens.contains id = true ∧
      ∃ r, batch.requests.get? id = some r ∧ r.isPrefillChunk = false := by
  unfold samples
  rw [Bool.and_eq_true, Option.any_eq_true]
  simp only [Bool.not_eq_true']

lemma Request.afterSchedule_sync {config : SchedulerConfig} (hsync : config.asyncScheduling = false)
    (spec : Dict RequestId (List TokenId)) (r : Request) (n : ℤ) :
    r.afterSchedule config spec n = r.advanced n := by
  unfold Request.afterSchedule
  simp [hsync]

namespace Scheduler

variable {s s' : Scheduler} {connectorDelay : RequestId → Bool}

structure Shrunk (s s' : Scheduler) : Prop where
  config : s'.config = s.config
  running : s'.running.length ≤ s.running.length

lemma Shrunk.trans {s1 s2 s3 : Scheduler} (h : Shrunk s1 s2) (h' : Shrunk s2 s3) : Shrunk s1 s3 :=
  ⟨h'.config.trans h.config, h'.running.trans h.running⟩

lemma length_removeAll_le (lst items : List RequestId) : (removeAll lst items).length ≤ lst.length := by
  unfold removeAll
  split
  · exact le_rfl
  · exact length_erase_le
  · exact length_filter_le _ _

lemma finishRequests_shrunk {requestIds : List RequestId} {finishedStatus : RequestStatus}
    (h : s.finishRequests connectorDelay requestIds finishedStatus = .ok s')
    (hkeys : KeysOk s.requests) : Shrunk s s' := by
  obtain ⟨-, heach⟩ := finishRequests_eq_ok h
  obtain ⟨-, ⟨_, _, _, _, _, _, rfl⟩, -, -⟩ := finishEach_spec heach (validRequests_nodup requestIds) hkeys
  exact ⟨rfl, length_removeAll_le _ _⟩

lemma addRequest_shrunk {request : Request} (h : s.addRequest connectorDelay request = .ok s')
    (hkeys : KeysOk s.requests) : Shrunk s s' := by
  cases addRequest_added h hkeys with
  | new | queued | continued => exact ⟨rfl, le_rfl⟩
  | ended _ _ _ hfinish => exact finishRequests_shrunk hfinish hkeys

variable {connectorReset resetConnector success : Bool} {out : ModelRunnerOutput}
  {batch : SchedulerOutput} {fuel : ℕ}

lemma preemptAll_shrunk (h : preemptAll fuel s = .ok s') (hkeys : KeysOk s.requests) : Shrunk s s' := by
  induction fuel generalizing s with
  | zero =>
    obtain rfl := ok.inj h
    exact ⟨rfl, le_rfl⟩
  | succ fuel ih =>
    obtain ⟨-, rfl⟩ | ⟨running, id, request, k, enc, waiting, hrunning, hreq, -, -, -, -, hrest⟩ :=
      preemptAll_succ_eq_ok h hkeys
    · exact ⟨rfl, le_rfl⟩
    · obtain ⟨hconfig, hlen⟩ := ih hrest (hkeys.set (hkeys id request hreq))
      refine ⟨hconfig, hlen.trans ?_⟩
      rw [hrunning, length_append]
      exact Nat.le_add_right _ _

lemma resetPrefixCache_shrunk {resetRunningRequests : Bool}
    (h : s.resetPrefixCache resetRunningRequests resetConnector connectorReset =
      .ok (success, s')) (hkeys : KeysOk s.requests) : Shrunk s s' := by
  obtain ⟨s1, ⟨rfl, -⟩ | ⟨-, s0, hall, rfl⟩, rfl⟩ := resetPrefixCache_eq_ok h
  · exact ⟨rfl, le_rfl⟩
  · obtain ⟨hconfig, hlen⟩ := preemptAll_shrunk hall hkeys
    exact ⟨hconfig, hlen⟩

lemma preemptAll_running (h : preemptAll fuel s = .ok s') (hkeys : KeysOk s.requests)
    (hfuel : s.running.length ≤ fuel) : s'.running = [] := by
  induction fuel generalizing s with
  | zero =>
    obtain rfl := ok.inj h
    exact length_eq_zero_iff.mp (Nat.le_zero.mp hfuel)
  | succ fuel ih =>
    obtain ⟨hnil, rfl⟩ | ⟨running, id, request, k, enc, waiting, hrunning, hreq, -, -, -, -,
      hrest⟩ := preemptAll_succ_eq_ok h hkeys
    · exact hnil
    · refine ih hrest (hkeys.set (hkeys id request hreq)) ?_
      rw [hrunning, length_append] at hfuel
      exact Nat.le_of_succ_le_succ hfuel

lemma resetPrefixCache_running (h : s.resetPrefixCache true resetConnector connectorReset = .ok (success, s'))
    (hkeys : KeysOk s.requests) : s'.running = [] := by
  obtain ⟨s1, ⟨rfl, hfalse⟩ | ⟨-, s0, hall, rfl⟩, rfl⟩ := resetPrefixCache_eq_ok h
  · cases hfalse
  · have hnone : s0.running = [] := preemptAll_running hall hkeys le_rfl
    exact hnone

lemma updateDraftTokenIds_shrunk (drafts : List (RequestId × List TokenId)) :
    Shrunk s (s.updateDraftTokenIds drafts) := by
  unfold updateDraftTokenIds
  induction drafts generalizing s with
  | nil => exact ⟨rfl, le_rfl⟩
  | cons d rest ih =>
    rw [foldl_cons]
    refine Shrunk.trans ?_ ih
    unfold updateDraft
    split
    · exact ⟨rfl, le_rfl⟩
    · split
      · exact ⟨rfl, le_rfl⟩
      · split <;> exact ⟨rfl, le_rfl⟩

lemma updateEach_shrunk {failed : List RequestId} {entries : List (RequestId × ℤ)}
    {u u' : UpdateLocals} (h : updateEach batch out connectorDelay failed entries u = .ok u')
    (hkeys : KeysOk u.s.requests) : KeysOk u'.s.requests ∧ Shrunk u.s u'.s := by
  induction entries generalizing u with
  | nil =>
    obtain rfl := ok.inj h
    exact ⟨hkeys, rfl, le_rfl⟩
  | cons e rest ih =>
    obtain ⟨u1, h1, hrest⟩ := bind_eq_ok.mp h
    have hone : KeysOk u1.s.requests ∧ Shrunk u.s u1.s := by
      cases (updateOne_updated h1 hkeys).2 with
      | ignored => exact ⟨hkeys, rfl, le_rfl⟩
      | goesOn _ hreq _ happly =>
        have hid := hkeys _ _ hreq
        obtain ⟨-, _, _, _, _, _, rfl, -, -⟩ := appliedOutput_spec happly
        exact ⟨hkeys.set hid, rfl, le_rfl⟩
      | stops _ hreq _ happly hstopped =>
        have hid := hkeys _ _ hreq
        obtain ⟨-, _, _, _, _, _, rfl, -, -⟩ := appliedOutput_spec happly
        have heffect := stopEffect hstopped (hkeys.set hid) (Dict.get?_set_self _ _ _)
        exact ⟨heffect.keys, heffect.config, heffect.running.symm ▸ le_rfl⟩
    obtain ⟨hkeys', hshrunk⟩ := ih hrest hone.1
    exact ⟨hkeys', hone.2.trans hshrunk⟩

lemma Transferred.shrunk (h : Transferred s s') : Shrunk s s' := by
  induction h with
  | refl => exact ⟨rfl, le_rfl⟩
  | received id _ ih => exact ⟨ih.config, ih.running⟩
  | freed _ hfree _ ih =>
    obtain ⟨-, k, -, rfl⟩ := freeBlocks_eq_ok hfree
    exact ⟨ih.config, ih.running⟩

lemma updateFromOutput_shrunk {outputs : List EngineCoreOutput}
    (h : s.updateFromOutput batch out connectorDelay = .ok (outputs, s'))
    (hkeys : KeysOk s.requests) : Shrunk s s' := by
  obtain ⟨failed, s1, u, s2, hinvalid, -, hu, hfailed, -, htransfer⟩ := updateFromOutput_eq_ok h
  have h₁ : KeysOk s1.requests ∧ Shrunk s s1 := by
    rcases hinvalid with ⟨rfl, -⟩ | ⟨ids, hids⟩
    · exact ⟨hkeys, rfl, le_rfl⟩
    · obtain ⟨hkeys1, ⟨requests, k, recv, rfl⟩, -⟩ := handleInvalidBlocks_spec hids hkeys
      exact ⟨hkeys1, rfl, le_rfl⟩
  obtain ⟨hkeysu, hu⟩ := updateEach_shrunk hu h₁.1
  have hremoved : Shrunk s (removeStopped u) := h₁.2.trans (hu.trans ⟨rfl, length_removeAll_le _ _⟩)
  refine Shrunk.trans ?_ htransfer.shrunk
  rcases hfailed with rfl | hfinish
  · exact hremoved
  · exact hremoved.trans (finishRequests_shrunk hfinish hkeysu)

end Scheduler

namespace Engine

variable {config : SchedulerConfig} {e e' : Engine} {op : EngineOp}

/-- The queues hold every request once, and not too many run. -/
structure Sound (config : SchedulerConfig) (e : Engine) : Prop where
  placed : ∃ lost extra, QueuesPlaced lost extra e.scheduler
  room : e.scheduler.running.length ≤ config.maxNumRunningReqs
  config : e.scheduler.config = config

lemma Sound.keys (h : Sound config e) : KeysOk e.scheduler.requests := by
  obtain ⟨lost, extra, hplaced⟩ := h.placed
  exact hplaced.keys

lemma Sound.running_iff (h : Sound config e) {id : RequestId} {r : Request}
    (hr : e.scheduler.requests.get? id = some r) : id ∈ e.scheduler.running ↔ r.status = .running := by
  obtain ⟨lost, extra, hplaced⟩ := h.placed
  rw [← count_pos_iff, hplaced.running id, hr, runningCount_some]
  split
  · rename_i hs
    simp [hs]
  · rename_i hs
    simp [hs]

lemma Sound.exists_of_mem (h : Sound config e) {id : RequestId} (hid : id ∈ e.scheduler.running) :
    ∃ r, e.scheduler.requests.get? id = some r ∧ r.status = .running := by
  obtain ⟨lost, extra, hplaced⟩ := h.placed
  have hpos := count_pos_iff.mpr hid
  rw [hplaced.running id] at hpos
  cases hr : e.scheduler.requests.get? id with
  | none =>
    rw [hr] at hpos
    cases hpos
  | some r => exact ⟨r, rfl, (h.running_iff hr).mp hid⟩

lemma start_sound (k : KVCacheManager) (c : EncoderCache) : Sound config (start config k c) :=
  ⟨⟨fun _ => 0, 0, KeysOk.empty, fun _ => rfl, fun _ => rfl, fun _ _ hr => (by cases hr), rfl⟩, Nat.zero_le _, rfl⟩

variable {env : ScheduleEnv} {output : SchedulerOutput}

lemma schedule_config {s s' : Scheduler} (h : s.schedule env = .ok (output, s')) (hkeys : KeysOk s.requests) :
    s'.config = s.config ∧ s'.running.length ≤ s.config.maxNumRunningReqs := by
  obtain ⟨l, waiting, hmoves, -, hout, hupdate⟩ := schedule_eq_ok hkeys h
  have hconfig : l.s.config = s.config := ScheduleLocals.Moves.config hmoves hkeys
  have hkeys' : KeysOk l.s.requests := ScheduleLocals.Moves.keysOk hmoves hkeys
  obtain ⟨-, ⟨requests, enc, rfl⟩, -⟩ := updateAfterSchedule_spec hupdate hkeys'
  have hroom : l.s.running.length ≤ l.s.config.maxNumRunningReqs :=
    (ScheduleLocals.makeOutput_reported hout).running
  exact ⟨hconfig, hconfig ▸ hroom⟩

lemma step_sound (h : e.step op = .ok e') (hop : AddsFresh op) (he : Sound config e) : Sound config e' := by
  obtain ⟨⟨lost, extra, hplaced⟩, hroom, hconfig⟩ := he
  have hshrunk : ∀ {s : Scheduler} {inFlight : List Batch},
      (∃ lost extra, QueuesPlaced lost extra s) → Scheduler.Shrunk e.scheduler s →
      Sound config ⟨s, inFlight⟩ := fun hs hshrunk =>
    ⟨hs, hshrunk.running.trans hroom, hshrunk.config.trans hconfig⟩
  cases step_stepped h with
  | addRequest hs' =>
    obtain ⟨lost', hplaced', -⟩ := hplaced.addRequest (fun _ => hop.status) hs'
    exact hshrunk ⟨_, _, hplaced'⟩ (addRequest_shrunk hs' hplaced.keys)
  | schedule hs' =>
    obtain ⟨hconfig', hroom'⟩ := schedule_config hs' hplaced.keys
    exact ⟨⟨_, _, hplaced.schedule hs'⟩, hconfig ▸ hroom', hconfig'.trans hconfig⟩
  | updateFromOutput hflight hs' =>
    obtain ⟨lost', extra', hplaced', -⟩ := hplaced.updateFromOutput hs'
    exact hshrunk ⟨_, _, hplaced'⟩ (updateFromOutput_shrunk hs' hplaced.keys)
  | finishRequests hs' =>
    exact hshrunk ⟨_, _, hplaced.finishRequests hs'⟩ (finishRequests_shrunk hs' hplaced.keys)
  | resetPrefixCache hs' =>
    exact hshrunk ⟨_, _, hplaced.resetPrefixCache hs'⟩ (resetPrefixCache_shrunk hs' hplaced.keys)
  | updateDraftTokenIds =>
    exact hshrunk ⟨_, _, hplaced.updateDraftTokenIds _⟩ (updateDraftTokenIds_shrunk _)
  | resetEncoderCache => exact ⟨⟨_, _, hplaced⟩, hroom, hconfig⟩

/-- Every reachable engine is sound. -/
theorem reaches_sound {allowed : Engine → EngineOp → Prop} {k : KVCacheManager} {c : EncoderCache}
    (h : Reaches step allowed (start config k c) e) (hallowed : ∀ e op, allowed e op → AddsFresh op) :
    Sound config e :=
  h.invariant (start_sound k c) fun e op _ he hop hstep => step_sound hstep (hallowed e op hop) he

/-- What a call of `schedule` made of the record of a request. -/
inductive StepRecord (config : SchedulerConfig) (P : ScheduleLocals.Decision → Request → Prop)
    (output : SchedulerOutput) (id : RequestId) (r' : Request) : Prop
  | kept : output.numScheduledTokens.get? id = none → P .none r' ∨ P .preempted r' →
      StepRecord config P output id r'
  | scheduled {r : Request} {n : ℤ} : output.numScheduledTokens.get? id = some n →
      P (.scheduled n ((output.scheduledSpecDecodeTokens.get? id).getD [])) r →
      r' = r.afterSchedule config output.scheduledSpecDecodeTokens n → StepRecord config P output id r'

/-- What is known after a call of `schedule` that keeps a property of all records. -/
structure StepDone (config : SchedulerConfig) (P : ScheduleLocals.Decision → Request → Prop)
    (output : SchedulerOutput) (s' : Scheduler) : Prop where
  record : ∀ id r', s'.requests.get? id = some r' → StepRecord config P output id r'
  exists_record : ∀ id, output.numScheduledTokens.contains id = true → ∃ r', s'.requests.get? id = some r'
  spec : ∀ id, output.numScheduledTokens.get? id = none → output.scheduledSpecDecodeTokens.get? id = none

lemma StepDone.exists_scheduled {P : ScheduleLocals.Decision → Request → Prop} {s' : Scheduler}
    (h : StepDone config P output s') {id : RequestId} (hid : output.numScheduledTokens.contains id = true) :
    ∃ r n, P (.scheduled n ((output.scheduledSpecDecodeTokens.get? id).getD [])) r ∧
      s'.requests.get? id = some (r.afterSchedule config output.scheduledSpecDecodeTokens n) := by
  obtain ⟨r', hr'⟩ := h.exists_record id hid
  cases h.record id r' hr' with
  | kept hnone =>
    rw [Dict.contains, hnone] at hid
    cases hid
  | scheduled _ hr heq => exact ⟨_, _, hr, heq ▸ hr'⟩

lemma StepDone.spec_eq_nil {P : ScheduleLocals.Decision → Request → Prop} {s' : Scheduler}
    (h : StepDone config P output s') (hnil : ∀ n spec r, P (.scheduled n spec) r → spec = []) (id : RequestId) :
    (output.scheduledSpecDecodeTokens.get? id).getD [] = [] := by
  cases hn : output.numScheduledTokens.get? id with
  | none =>
    rw [h.spec id hn]
    rfl
  | some n =>
    obtain ⟨r, n, hr, -⟩ := h.exists_scheduled (by rw [Dict.contains, hn]; rfl)
    exact hnil _ _ r hr

lemma Sound.schedule {P : ScheduleLocals.Decision → Request → Prop} {s' : Scheduler}
    (he : Sound config e) (hrule : ScheduleLocals.RecordRule config env P)
    (hstart : ∀ id r, e.scheduler.requests.get? id = some r → P .none r)
    (h : e.scheduler.schedule env = .ok (output, s')) : StepDone config P output s' := by
  obtain ⟨⟨lost, extra, hplaced⟩, hroom, hconfig⟩ := he
  obtain ⟨l, waiting, hmoves, -, hout, hupdate⟩ := schedule_eq_ok hplaced.keys h
  obtain ⟨hplaced', hbooks, hconfig', hrecords⟩ := ScheduleLocals.Moves.records hrule hmoves hconfig
    hplaced (hconfig ▸ hroom) hstart
  obtain ⟨-, -, hget⟩ := updateAfterSchedule_spec hupdate hplaced'.keys
  have hreported := ScheduleLocals.makeOutput_reported hout
  have hnum : output.numScheduledTokens = l.numScheduledTokens := hreported.numScheduledTokens
  have hspec : output.scheduledSpecDecodeTokens = l.scheduledSpecDecodeTokens := hreported.spec
  rw [hnum, hconfig'] at hget
  refine ⟨fun id r' hr' => ?_, fun id hid => ?_, fun id hid => ?_⟩
  · rw [hget id] at hr'
    cases hn : l.numScheduledTokens.get? id with
    | none =>
      rw [hn] at hr'
      have hr := hrecords id r' hr'
      refine .kept (hnum ▸ hn) ?_
      unfold ScheduleLocals.decision at hr
      split at hr
      · exact .inr hr
      · rw [hn] at hr
        exact .inl hr
    | some n =>
      rw [hn] at hr'
      obtain ⟨r, hr, rfl⟩ := map_eq_some_iff.mp hr'
      refine .scheduled (hnum ▸ hn) ?_ rfl
      rw [hspec, ← hbooks.decision_of_scheduled hn]
      exact hrecords id r hr
  · rw [hnum] at hid
    have hpos := count_pos_iff.mpr (hbooks.running id ((hbooks.tokens id).mp hid))
    rw [hplaced'.running id] at hpos
    obtain ⟨n, hn⟩ := isSome_iff_exists.mp hid
    rw [hget id, hn]
    cases hr : l.s.requests.get? id with
    | none =>
      rw [hr] at hpos
      cases hpos
    | some r => exact ⟨_, rfl⟩
  · rw [hspec]
    refine (hbooks.get?_eq_none fun hmem => ?_).2
    obtain ⟨n, hn⟩ := isSome_iff_exists.mp ((hbooks.tokens id).mpr hmem)
    rw [hnum, hn] at hid
    cases hid

end Engine

end CustomAi.Vllm
