import CustomAi.Vllm.EngineInvariant

/-!
# Requests that can still get output

Without speculative decoding: no call but `add_request` starts a request anew, no record has draft
tokens, and `update_from_output` returns tokens of unfinished requests of the batch, once for each
request.
-/

namespace CustomAi.Vllm

open List Option Except Dict

namespace Scheduler

variable {s s' : Scheduler} {connectorDelay : RequestId → Bool} {x : RequestId} {r' : Request}

def Live (s : Scheduler) (id : RequestId) : Prop :=
  ∃ r, s.requests.get? id = some r ∧ r.status.isFinished = false

def Undrafted (s : Scheduler) : Prop := ∀ id r, s.requests.get? id = some r → r.specTokenIds = []

structure Carried (s s' : Scheduler) : Prop where
  record : ∀ id r', s'.requests.get? id = some r' → ∃ r, s.requests.get? id = some r ∧
    (r'.status.isFinished = false → r.status.isFinished = false) ∧ r'.specTokenIds = r.specTokenIds

lemma Carried.refl (s : Scheduler) : Carried s s := ⟨fun _ r' hr' => ⟨r', hr', id, rfl⟩⟩

lemma Carried.trans {s1 s2 s3 : Scheduler} (h : Carried s1 s2) (h' : Carried s2 s3) : Carried s1 s3 := by
  refine ⟨fun id r3 hr3 => ?_⟩
  obtain ⟨r2, hr2, hfin2, hspec2⟩ := h'.record id r3 hr3
  obtain ⟨r1, hr1, hfin1, hspec1⟩ := h.record id r2 hr2
  exact ⟨r1, hr1, fun hfin => hfin1 (hfin2 hfin), hspec2.trans hspec1⟩

variable {id : RequestId}

lemma Carried.live (h : Carried s s') (hlive : s'.Live id) : s.Live id := by
  obtain ⟨r', hr', hfin⟩ := hlive
  obtain ⟨r, hr, hback, -⟩ := h.record id r' hr'
  exact ⟨r, hr, hback hfin⟩

lemma Carried.undrafted (h : Carried s s') (hs : s.Undrafted) : s'.Undrafted := by
  intro id r' hr'
  obtain ⟨r, hr, -, hspec⟩ := h.record id r' hr'
  rw [hspec]
  exact hs id r hr

lemma Carried.of_same (id : RequestId) (hother : ∀ x, x ≠ id → s'.requests.get? x = s.requests.get? x)
    (hid : ∀ r', s'.requests.get? id = some r' → ∃ r, s.requests.get? id = some r ∧
      (r'.status.isFinished = false → r.status.isFinished = false) ∧
      r'.specTokenIds = r.specTokenIds) : Carried s s' := by
  refine ⟨fun x r' hr' => ?_⟩
  by_cases hx : x = id
  · subst hx
    exact hid r' hr'
  · rw [hother x hx] at hr'
    exact ⟨r', hr', fun hfin => hfin, rfl⟩

lemma finishRequests_carried {requestIds : List RequestId} {finishedStatus : RequestStatus}
    (h : s.finishRequests connectorDelay requestIds finishedStatus = .ok s')
    (hkeys : KeysOk s.requests) : Carried s s' := by
  refine ⟨fun id r' hr' => ?_⟩
  obtain ⟨r, hr, rfl | ⟨hfin, rfl⟩⟩ := finishRequests_record h hkeys hr'
  · exact ⟨r', hr, fun hfin => hfin, rfl⟩
  · refine ⟨r, hr, fun hunfin => ?_, rfl⟩
    rw [hfin] at hunfin
    cases hunfin

variable {batch : SchedulerOutput} {out : ModelRunnerOutput} {failed : List RequestId}
  {u u' : UpdateLocals}

lemma UpdatedOne.carried (h : UpdatedOne batch out connectorDelay failed id u u') (hkeys : KeysOk u.s.requests) :
    KeysOk u'.s.requests ∧ Carried u.s u'.s := by
  cases h with
  | ignored => exact ⟨hkeys, .refl _⟩
  | goesOn _ hreq hfin happly =>
    have hid := hkeys _ _ hreq
    obtain ⟨-, _, _, _, _, _, rfl, -, -⟩ := appliedOutput_spec happly
    refine ⟨hkeys.set hid, .of_same _ (fun x hx => get?_set_of_ne _ _ hx)
      fun r' hr' => ?_⟩
    rw [get?_set_self] at hr'
    obtain rfl := some.inj hr'
    exact ⟨_, hreq, fun _ => hfin, rfl⟩
  | @stops request request' _ _ _ s' _ _ _ hreq hfin happly hstopped =>
    obtain rfl := hkeys id request hreq
    have hfields : request'.requestId = request.requestId ∧ request'.specTokenIds = request.specTokenIds := by
      obtain ⟨-, _, _, _, _, _, rfl, -, -⟩ := appliedOutput_spec happly
      exact ⟨rfl, rfl⟩
    obtain ⟨hid, hspec⟩ := hfields
    have heffect := stopEffect hstopped (hkeys.set hid) (get?_set_self _ _ _)
    refine ⟨heffect.keys, .of_same request.requestId (fun x hx => ?_) fun r' hr' => ?_⟩
    · rw [heffect.other x hx]
      exact get?_set_of_ne _ _ hx
    · refine ⟨request, hreq, fun _ => hfin, ?_⟩
      rw [← hid] at hr' hstopped
      obtain ⟨queue, -, rfl⟩ | ⟨update, rest, -, -, hup⟩ | ⟨-, rfl⟩ :=
        hstopped.record (get?_set_self _ _ _) hr'
      · exact hspec
      · obtain ⟨_, _, _, _, rfl⟩ := updateAsSession_record hup
        exact hspec
      · exact hspec

/-- What the loop over a batch returns: tokens that were sampled for unfinished requests. -/
structure ReturnsTokens (s : Scheduler) (out : ModelRunnerOutput) (output : EngineCoreOutput) :
    Prop where
  live : s.Live output.requestId
  tokens : output.newTokenIds <+: out.sampledTokenIds output.requestId

lemma updateOne_outputs {numTokensScheduled : ℤ}
    (h : updateOne batch out connectorDelay failed id numTokensScheduled u = .ok u')
    (hkeys : KeysOk u.s.requests) : u'.outputs = u.outputs ∨ ∃ output : EngineCoreOutput,
      u'.outputs = u.outputs ++ [output] ∧ output.requestId = id ∧ ReturnsTokens u.s out output := by
  obtain ⟨_, -, h⟩ := bind_eq_ok.mp h
  split at h
  · obtain rfl := ok.inj h
    exact .inl rfl
  · split at h
    · obtain rfl := ok.inj h
      exact .inl rfl
    · rename_i request hreq
      split at h
      · obtain rfl := ok.inj h
        exact .inl rfl
      · rename_i hfin
        have hfin : request.status.isFinished = false := by simpa using hfin
        obtain rfl := hkeys id request hreq
        obtain ⟨⟨new, stopped, request', k⟩, happly, h⟩ := bind_eq_ok.mp h
        obtain ⟨hinitial, _, _, _, _, _, rfl, -, -⟩ := appliedOutput_spec happly
        have houtputs : ∀ {p : Prop} [Decidable p] {output : EngineCoreOutput},
            output.requestId = request.requestId → output.newTokenIds = new →
            u'.outputs = (if p then u.outputs ++ [output] else u.outputs) →
            u'.outputs = u.outputs ∨ ∃ output : EngineCoreOutput,
              u'.outputs = u.outputs ++ [output] ∧ output.requestId = request.requestId ∧
                ReturnsTokens u.s out output := by
          intro p _ output hid hnew houtputs
          split at houtputs
          · refine .inr ⟨output, houtputs, hid, ⟨request, ?_, hfin⟩, ?_⟩
            · rw [hid]
              exact hreq
            · rw [hid, hnew]
              exact hinitial
          · exact .inl houtputs
        cases stopped with
        | false =>
          obtain rfl := ok.inj h
          exact houtputs rfl rfl rfl
        | true =>
          obtain ⟨s', -, h⟩ := bind_eq_ok.mp h
          have hcases : ∀ {p : Prop} [Decidable p] {a b : UpdateLocals},
              (if p then pure a else pure b : Except PyError UpdateLocals) = .ok u' → u' = a ∨ u' = b := by
            intro p _ a b hab
            split at hab
            · exact .inl (ok.inj hab).symm
            · exact .inr (ok.inj hab).symm
          rcases hcases h with rfl | rfl <;> exact houtputs rfl rfl rfl

lemma updateEach_outputs {entries : List (RequestId × ℤ)}
    (h : updateEach batch out connectorDelay failed entries u = .ok u') (hkeys : KeysOk u.s.requests) :
    KeysOk u'.s.requests ∧ Carried u.s u'.s ∧ (∀ n ∈ entries.map Prod.snd, 0 < n) ∧
      ∃ outputs : List EngineCoreOutput, u'.outputs = u.outputs ++ outputs ∧
      (outputs.map fun o => o.requestId).Sublist (entries.map Prod.fst) ∧
      ∀ output ∈ outputs, ReturnsTokens u.s out output := by
  induction entries generalizing u with
  | nil =>
    obtain rfl := ok.inj h
    exact ⟨hkeys, .refl _, nofun, [], (append_nil _).symm, .slnil, nofun⟩
  | cons entry rest ih =>
    obtain ⟨u1, h1, hrest⟩ := bind_eq_ok.mp h
    obtain ⟨hpos, hupdated⟩ := updateOne_updated h1 hkeys
    obtain ⟨hkeys1, hcarried1⟩ := hupdated.carried hkeys
    obtain ⟨hkeys', hcarried', hpos', outputs, houtputs, hsub, hreturns⟩ := ih hrest hkeys1
    have hreturns : ∀ output ∈ outputs, ReturnsTokens u.s out output := fun output ho =>
      ⟨hcarried1.live (hreturns output ho).live, (hreturns output ho).tokens⟩
    refine ⟨hkeys', hcarried1.trans hcarried', forall_mem_cons.mpr ⟨hpos, hpos'⟩, ?_⟩
    rcases updateOne_outputs h1 hkeys with hsame | ⟨output, hadded, hid, hreturn⟩
    · exact ⟨outputs, hsame ▸ houtputs, hsub.cons _, hreturns⟩
    · refine ⟨output :: outputs, ?_, ?_, ?_⟩
      · rw [houtputs, hadded, append_assoc, singleton_append]
      · rw [map_cons, hid]
        exact hsub.cons_cons _
      · exact forall_mem_cons.mpr ⟨hreturn, hreturns⟩

lemma Transferred.carried (h : Transferred s s') : Carried s s' :=
  ⟨fun _ r' hr' => ⟨r', h.record hr', fun hfin => hfin, rfl⟩⟩

lemma handleInvalidBlocks_carried {invalidBlockIds : List BlockId}
    (h : s.handleInvalidBlocks invalidBlockIds = .ok (failed, s')) (hkeys : KeysOk s.requests) : Carried s s' := by
  obtain ⟨-, -, hsame⟩ := handleInvalidBlocks_spec h hkeys
  refine ⟨fun id r' hr' => ?_⟩
  have hid := hsame id
  rw [hr'] at hid
  obtain ⟨r, hr, heq⟩ := map_eq_some_iff.mp hid.symm
  have hstatus : r.status = r'.status := (congrArg Request.status heq :)
  have hspec : r.specTokenIds = r'.specTokenIds := (congrArg Request.specTokenIds heq :)
  exact ⟨r, hr, fun hfin => hstatus ▸ hfin, hspec.symm⟩

/-- The tokens that `update_from_output` returns. -/
structure Returns (s : Scheduler) (batch : SchedulerOutput) (out : ModelRunnerOutput)
    (outputs : List EngineCoreOutput) : Prop where
  positive : ∀ n ∈ batch.numScheduledTokens.values, 0 < n
  nodup : ((outputs.filter fun o => o.newTokenIds ≠ []).map fun o => o.requestId).Nodup
  contains : ∀ output ∈ outputs, output.newTokenIds ≠ [] → batch.numScheduledTokens.contains output.requestId = true
  tokens : ∀ output ∈ outputs, output.newTokenIds ≠ [] → ReturnsTokens s out output

lemma updateFromOutput_returns {outputs : List EngineCoreOutput}
    (h : s.updateFromOutput batch out connectorDelay = .ok (outputs, s'))
    (hkeys : KeysOk s.requests) : Carried s s' ∧ Returns s batch out outputs := by
  obtain ⟨⟨failed, s1⟩, hinvalid, h⟩ := bind_eq_ok.mp h
  obtain ⟨u, hu, h⟩ := bind_eq_ok.mp h
  obtain ⟨⟨outputs', s2⟩, hfailed, h⟩ := bind_eq_ok.mp h
  obtain ⟨s3, hkv, h⟩ := bind_eq_ok.mp h
  obtain ⟨rfl, rfl⟩ := ok_pair_inj h
  have h₁ : KeysOk s1.requests ∧ Carried s s1 := by
    split at hinvalid
    · obtain ⟨-, rfl⟩ := ok_pair_inj hinvalid
      exact ⟨hkeys, .refl _⟩
    · exact ⟨(handleInvalidBlocks_spec hinvalid hkeys).1, handleInvalidBlocks_carried hinvalid hkeys⟩
  obtain ⟨hkeysu, hcarriedu, hpos, new, hnew, hsub, hreturns⟩ := updateEach_outputs hu h₁.1
  have hremoved : Carried s (removeStopped u) := by
    refine h₁.2.trans (hcarriedu.trans ⟨fun id r' hr' => ?_⟩)
    exact ⟨r', hr', fun hfin => hfin, rfl⟩
  have hkv : Carried s2 s3 := by
    split at hkv
    · obtain rfl := ok.inj hkv
      exact .refl _
    · exact (updateFromKvXferFinished_transferred hkv).carried
  -- failed requests are finished without tokens
  obtain ⟨errors, herrors, houtputs, hs2⟩ : ∃ errors : List EngineCoreOutput,
      (∀ o ∈ errors, o.newTokenIds = []) ∧ outputs' = u.outputs ++ errors ∧ Carried (removeStopped u) s2 := by
    unfold finishFailed at hfailed
    split at hfailed
    · obtain ⟨rfl, rfl⟩ := ok_pair_inj hfailed
      exact ⟨[], nofun, (append_nil _).symm, .refl _⟩
    · obtain ⟨requests, -, hfailed⟩ := bind_eq_ok.mp hfailed
      obtain ⟨s4, hfin, hfailed⟩ := bind_eq_ok.mp hfailed
      obtain ⟨rfl, rfl⟩ := ok_pair_inj hfailed
      refine ⟨_, fun o ho => ?_, rfl, finishRequests_carried hfin hkeysu⟩
      obtain ⟨request, -, rfl⟩ := mem_map.mp ho
      rfl
  have hmem : ∀ output ∈ outputs', output.newTokenIds ≠ [] → output ∈ new := by
    intro output ho hne
    rw [houtputs, hnew] at ho
    rcases mem_append.mp ho with ho | ho
    · exact ho
    · exact absurd (herrors output ho) hne
  have hkeysMem : ∀ output ∈ new, output.requestId ∈ batch.numScheduledTokens.keys :=
    fun output ho => hsub.subset (mem_map.mpr ⟨output, ho, rfl⟩)
  refine ⟨hremoved.trans (hs2.trans hkv), hpos, ?_, fun output ho hne => ?_, fun output ho hne => ?_⟩
  · have hfilter : errors.filter (fun o => o.newTokenIds ≠ []) = [] := by
      refine filter_eq_nil_iff.mpr fun o ho => ?_
      simpa using herrors o ho
    rw [houtputs, hnew, filter_append, hfilter, append_nil]
    refine (batch.numScheduledTokens.nodup_keys.sublist hsub).sublist ?_
    exact filter_sublist.map _
  · rw [← mem_keys_iff]
    exact hkeysMem output (hmem output ho hne)
  · have hreturn := hreturns output (hmem output ho hne)
    exact ⟨h₁.2.live hreturn.live, hreturn.tokens⟩

lemma addRequest_carried {request : Request} (h : s.addRequest connectorDelay request = .ok s')
    (hkeys : KeysOk s.requests) (hr' : s'.requests.get? x = some r') :
    (x = request.requestId ∧ s.requests.get? x = none ∧ r'.specTokenIds = request.specTokenIds) ∨
      ∃ r, s.requests.get? x = some r ∧ (r'.status.isFinished = false → r.status.isFinished = false) ∧
        r'.specTokenIds = r.specTokenIds := by
  cases addRequest_record h hkeys hr' with
  | same hr => exact .inr ⟨r', hr, fun hfin => hfin, rfl⟩
  | new hid hnone hr' =>
    subst hr'
    exact .inl ⟨hid, hnone, rfl⟩
  | @queued r _ hr _ hr' =>
    subst hr'
    exact .inr ⟨r, hr, fun hfin => hfin, rfl⟩
  | @continued session update _ hr hstatus _ hup =>
    obtain ⟨_, _, _, _, rfl⟩ := updateAsSession_record hup
    refine .inr ⟨session, hr, fun _ => ?_, rfl⟩
    rw [hstatus]
    rfl
  | @ended r hr hr' =>
    subst hr'
    exact .inr ⟨r, hr, fun hfin => (by cases hfin), rfl⟩

end Scheduler

namespace Engine

open ScheduleLocals

variable {config : SchedulerConfig} {e : Engine} {env : ScheduleEnv}

structure UndraftedRecord (s : Scheduler) (d : Decision) (r : Request) : Prop where
  live : r.status.isFinished = false → s.Live r.requestId
  spec : r.specTokenIds = []
  scheduled : ∀ n spec, d = .scheduled n spec → spec = [] ∧ r.status = .running

lemma undrafted_rule (s : Scheduler) : RecordRule config env (UndraftedRecord s) where
  preempted := fun h hs => ⟨fun _ => h.live (by rw [hs]; rfl), rfl, nofun⟩
  scheduled := fun {r} _ _ _ n _ h hs _ _ => by
    refine ⟨fun hfin => h.live hfin, rfl, fun n' spec heq => ?_⟩
    obtain ⟨-, rfl⟩ := Decision.scheduled.inj heq
    refine ⟨?_, hs⟩
    simp only [specTokensToSchedule, h.spec, take_nil, ite_self]
  compiled := fun h hs => ⟨fun _ => h.live (by rw [hs]; rfl), h.spec, nofun⟩
  received := fun h _ hs _ => ⟨fun _ => h.live (by rw [hs]; rfl), h.spec, nofun⟩
  counted := fun h _ _ _ => ⟨fun hfin => h.live hfin, h.spec, nofun⟩
  loading := fun h hs _ => ⟨fun _ => h.live hs.1, h.spec, nofun⟩
  admitted := fun h hs _ _ _ => by
    refine ⟨fun _ => h.live ?_, h.spec, fun n' spec heq => ?_⟩
    · rcases hs with hs | hs <;> rw [hs] <;> rfl
    · obtain ⟨-, rfl⟩ := Decision.scheduled.inj heq
      exact ⟨rfl, rfl⟩

lemma afterSchedule_undrafted (hconfig : config.numSpecTokens = 0) (r : Request) (n : ℤ)
    (spec : Dict RequestId (List TokenId)) : (r.afterSchedule config spec n).requestId = r.requestId ∧
      (r.afterSchedule config spec n).status = r.status ∧
      (r.specTokenIds = [] → (r.afterSchedule config spec n).specTokenIds = []) := by
  unfold Request.afterSchedule
  dsimp only
  split
  · unfold Request.awaiting
    split
    · exact ⟨rfl, rfl, fun h => h⟩
    · refine ⟨rfl, rfl, fun _ => ?_⟩
      rw [hconfig]
      rfl
  · exact ⟨rfl, rfl, fun h => h⟩

/-- What `schedule` returns without drafts. -/
structure Undrafts (s s' : Scheduler) (config : SchedulerConfig) (output : SchedulerOutput) :
    Prop where
  live : ∀ id, s'.Live id → s.Live id
  undrafted : s'.Undrafted
  spec : ∀ id, (output.scheduledSpecDecodeTokens.get? id).getD [] = []
  total : output.totalNumScheduledTokens = output.numScheduledTokens.values.sum
  count : output.numScheduledTokens.keys.length ≤ config.maxNumRunningReqs

lemma schedule_undrafts {output : SchedulerOutput} {s' : Scheduler} (he : Sound config e)
    (hconfig : config.numSpecTokens = 0) (hs : e.scheduler.Undrafted)
    (h : e.scheduler.schedule env = .ok (output, s')) : Undrafts e.scheduler s' config output := by
  have hkeys := he.keys
  have hstep : e.step (.schedule env) = .ok ⟨s', e.inFlight ++ [⟨output, s'.requests⟩]⟩ := by
    change (e.scheduler.schedule env >>= _) = _
    rw [h]
    rfl
  have hsound := step_sound hstep trivial he
  have hdone := he.schedule (undrafted_rule e.scheduler) (fun id r hr => ?_) h
  swap
  · refine ⟨fun hfin => ⟨r, ?_, hfin⟩, hs id r hr, nofun⟩
    rw [hkeys id r hr]
    exact hr
  have hafter := afterSchedule_undrafted hconfig
  refine ⟨fun id ⟨r', hr', hfin⟩ => ?_, fun id r' hr' => ?_, fun id => ?_, ?_, ?_⟩
  · have hid := hsound.keys id r' hr'
    cases hdone.record id r' hr' with
    | kept _ hr =>
      rw [← hid]
      rcases hr with hr | hr <;> exact hr.live hfin
    | @scheduled r n _ hr heq =>
      obtain ⟨hrid, hstatus, -⟩ := hafter r n output.scheduledSpecDecodeTokens
      rw [← heq] at hrid hstatus
      rw [← hid, hrid]
      exact hr.live (hstatus ▸ hfin)
  · cases hdone.record id r' hr' with
    | kept _ hr => rcases hr with hr | hr <;> exact hr.spec
    | @scheduled r n _ hr heq =>
      rw [heq]
      exact (hafter r n output.scheduledSpecDecodeTokens).2.2 hr.spec
  · exact hdone.spec_eq_nil (fun _ _ _ hr => (hr.scheduled _ _ rfl).1) id
  · obtain ⟨l, waiting, -, -, hout, -⟩ := Scheduler.schedule_eq_ok hkeys h
    have hreported := makeOutput_reported hout
    rw [hreported.numScheduledTokens]
    exact hreported.total
  · have hsub : output.numScheduledTokens.keys ⊆ s'.running := by
      intro id hid
      have hcontains := (Dict.mem_keys_iff _ _).mp hid
      obtain ⟨r, n, hr, hr'⟩ := hdone.exists_scheduled hcontains
      refine (hsound.running_iff hr').mpr ?_
      rw [(hafter r n output.scheduledSpecDecodeTokens).2.1]
      exact (hr.scheduled _ _ rfl).2
    have hnd : output.numScheduledTokens.keys.Nodup := output.numScheduledTokens.nodup_keys
    exact (subperm_of_subset hnd hsub).length_le.trans hsound.room

end Engine

end CustomAi.Vllm
