import CustomAi.Vllm.OutputOrder

/-!
# The output of a scheduling step

In every run `schedule` describes each scheduled request once to the workers, and a request that it
preempted is in no part of its output.
-/

namespace CustomAi.Vllm

open List Option Except Scheduler

/-- The requests that the workers get data for. -/
def SchedulerOutput.reqIds (output : SchedulerOutput) : List RequestId :=
  output.scheduledNewReqs.map (·.reqId) ++ output.scheduledCachedReqs.reqIds

/-- The source schedules a negative number of tokens near the maximal length. -/
def Request.Exhausted (config : SchedulerConfig) (r : Request) : Prop :=
  (config.maxModelLen : ℤ) ≤ r.numComputedTokens ∨ r.numTokens + r.numOutputPlaceholders < r.numComputedTokens

/-- What `output` tells of the scheduled requests, in the state `s` that `schedule` left. -/
structure SchedulerOutput.Describes (config : SchedulerConfig) (output : SchedulerOutput)
    (s : Scheduler) : Prop where
  nodup : output.reqIds.Nodup
  scheduled : ∀ id, id ∈ output.reqIds ↔ output.numScheduledTokens.contains id = true
  spec : ∀ id, output.scheduledSpecDecodeTokens.contains id = true → id ∈ output.reqIds
  inputs : ∀ id, output.scheduledEncoderInputs.contains id = true → id ∈ output.reqIds
  running : ∀ id ∈ output.reqIds, id ∈ s.running
  preempted : ∀ id ∈ output.preemptedReqIds, id ∉ s.running
  tokens : ∀ id n, output.numScheduledTokens.get? id = some n → n ≠ 0 ∧ ∃ r : Request,
    (n < 0 → r.Exhausted config) ∧
    s.requests.get? id = some (r.afterSchedule config output.scheduledSpecDecodeTokens n) ∧
      r.numComputedTokens + n ≤ r.numTokens + max 0 r.numOutputPlaceholders +
        ((output.scheduledSpecDecodeTokens.get? id).getD []).length
  total : output.totalNumScheduledTokens = output.numScheduledTokens.values.sum
  budget : output.totalNumScheduledTokens ≤ config.maxNumScheduledTokens

namespace ScheduleLocals

variable {l : ScheduleLocals} {ids : List RequestId}

lemma newRequests_reqIds {data : List NewRequestData} (h : ids.mapM l.newRequestData = .ok data) :
    data.map (·.reqId) = ids := by
  induction ids generalizing data with
  | nil =>
    obtain rfl := ok.inj h
    rfl
  | cons id rest ih =>
    rw [mapM_cons] at h
    obtain ⟨first, hfirst, h⟩ := bind_eq_ok.mp h
    obtain ⟨others, hrest, h⟩ := bind_eq_ok.mp h
    obtain rfl := ok.inj h
    obtain ⟨request, -, hfirst⟩ := bind_eq_ok.mp hfirst
    split at hfirst
    · cases hfirst
    · obtain rfl := ok.inj hfirst
      rw [map_cons, ih hrest]

lemma cachedRequests_reqIds {resumed : Bool} {d d' : CachedRequestData}
    (h : l.cachedRequests resumed ids d = .ok d') : d'.reqIds = d.reqIds ++ ids := by
  induction ids generalizing d with
  | nil =>
    obtain rfl := ok.inj h
    exact (append_nil _).symm
  | cons id rest ih =>
    obtain ⟨d1, h1, hrest⟩ := bind_eq_ok.mp h
    obtain ⟨request, -, h1⟩ := bind_eq_ok.mp h1
    split at h1
    · obtain ⟨_, -, h1⟩ := bind_eq_ok.mp h1
      obtain rfl := ok.inj h1
      rw [ih hrest, append_assoc, singleton_append]
    · cases h1

lemma makeOutput_reqIds {output : SchedulerOutput} (h : l.makeOutput = .ok output) :
    output.reqIds.Perm l.scheduled := by
  unfold makeOutput at h
  simp only [bind_eq_ok] at h
  obtain ⟨_, -, _, -, _, -, _, -, newReqs, hnew, d, hd, cached, hcached, h⟩ := h
  obtain rfl := ok.inj h
  rw [SchedulerOutput.reqIds, newRequests_reqIds hnew, cachedRequests_reqIds hcached,
    cachedRequests_reqIds hd, scheduled]
  change (_ ++ (l.scheduledRunningReqs ++ _)).Perm _
  split
  · rw [append_nil, append_assoc l.scheduledRunningReqs]
    exact perm_append_comm
  · rw [← append_assoc]
    exact perm_append_comm.append_right _

/-- A step computes tokens that the request has, drafts and placeholders included. -/
def Decision.Bounded (config : SchedulerConfig) : Decision → Request → Prop
  | .scheduled n spec, r => n ≠ 0 ∧ (n < 0 → r.Exhausted config) ∧
    r.numComputedTokens + n ≤ r.numTokens + max 0 r.numOutputPlaceholders + spec.length
  | _, _ => True

lemma bounded_rule {config : SchedulerConfig} {env : ScheduleEnv} :
    RecordRule config env (Decision.Bounded config) where
  preempted _ _ := trivial
  scheduled := by
    intro r _ tokenBudget _ n t _ _ hbudget hplan
    obtain ⟨hle, hpos⟩ := hplan.le
    have hbound := (numNewTokensRunning_le config r tokenBudget).2.1
    refine ⟨hplan.ne_zero, fun hneg => ?_, ?_⟩
    · by_contra hnot
      obtain ⟨hlen, hmore⟩ := not_or.mp hnot
      dsimp only at hlen hmore
      change ¬(r.numTokens : ℤ) + r.numOutputPlaceholders < r.numComputedTokens at hmore
      have hnonneg := hpos (numNewTokensRunning_nonneg hbudget.le (by omega)
        (by unfold Request.numTokensWithSpec; omega))
      omega
    unfold Request.numTokensWithSpec at hbound
    change r.numComputedTokens + n ≤ (r.numTokens : ℤ) + max 0 r.numOutputPlaceholders + _
    unfold specTokensToSchedule
    dsimp only
    split
    · rw [length_take]
      omega
    · omega
  compiled _ _ := trivial
  received _ _ _ _ := trivial
  counted _ _ _ _ := trivial
  loading _ _ _ := trivial
  admitted := by
    intro r _ c n _ _ _ hpos hle
    refine ⟨hpos.ne', fun hneg => absurd hpos hneg.not_gt, ?_⟩
    change c.numComputedTokens + n ≤ (r.numTokens : ℤ) + max 0 r.numOutputPlaceholders + _
    omega

end ScheduleLocals

namespace Engine

/-- In every run the output of a step describes each scheduled request once. -/
theorem reaches_step_described {config : SchedulerConfig} {k : KVCacheManager} {c : EncoderCache}
    {e : Engine} {env : ScheduleEnv} {output : SchedulerOutput} {s' : Scheduler}
    (h : Reaches step (fun _ op => AddsFresh op) (start config k c) e)
    (hs : e.scheduler.schedule env = .ok (output, s')) : output.Describes config s' := by
  have hsound := reaches_sound h fun _ _ hop => hop
  have hdone := hsound.schedule ScheduleLocals.bounded_rule (fun _ _ _ => trivial) hs
  obtain ⟨⟨lost, extra, hplaced⟩, hroom, hconfig⟩ := hsound
  obtain ⟨l, waiting, hmoves, -, hout, hupdate⟩ := schedule_eq_ok hplaced.keys hs
  obtain ⟨hplaced', hbooks, hconfig', -⟩ := ScheduleLocals.Moves.records
    ScheduleLocals.bounded_rule hmoves hconfig hplaced (hconfig ▸ hroom) fun _ _ _ => trivial
  have hbooks : ScheduleLocals.Books l := hbooks
  obtain ⟨-, ⟨requests, enc, rfl⟩, -⟩ := updateAfterSchedule_spec hupdate hplaced'.keys
  have hreported := ScheduleLocals.makeOutput_reported hout
  have hids : output.reqIds.Perm l.scheduled := (ScheduleLocals.makeOutput_reqIds hout :)
  refine ⟨hids.nodup_iff.mpr hbooks.nodup, fun id => ?_, fun id hid => ?_, fun id hid => ?_,
    fun id hid => hbooks.running id (hids.mem_iff.mp hid), fun id hid => ?_, fun id n hn => ?_,
    ?_, ?_⟩
  · rw [hids.mem_iff, hreported.numScheduledTokens]
    exact (hbooks.tokens id).symm
  · rw [hreported.spec] at hid
    exact hids.mem_iff.mpr (hbooks.spec id hid)
  · rw [hreported.inputs] at hid
    exact hids.mem_iff.mpr (hbooks.inputs id hid)
  · rw [hreported.preempted] at hid
    exact hbooks.preempted id hid
  · obtain ⟨r', hr'⟩ := hdone.exists_record id (by rw [Dict.contains, hn]; rfl)
    cases hdone.record id r' hr' with
    | kept hnone => cases hnone.symm.trans hn
    | scheduled hn' hbound heq =>
      obtain rfl := some.inj (hn'.symm.trans hn)
      exact ⟨hbound.1, _, hbound.2.1, heq ▸ hr', hbound.2.2⟩
  · rw [hreported.total, hreported.numScheduledTokens]
  · rw [hreported.total, ← hconfig']
    exact hreported.budget

/-- The second chunk of "q" takes the blocks of "r". -/
theorem reaches_step_described_preempted : ∃ (e : Engine) (output : SchedulerOutput) (s' : Scheduler),
    e.scheduler.schedule {} = .ok (output, s') ∧ output.reqIds = ["q"] ∧
    output.preemptedReqIds = ["r"] ∧ output.Describes chunkedConfig s' := by
  have hrun : (smallCache.toOption.bind fun k => runAllowed step (fun _ op => AddsFresh op)
      (start chunkedConfig k (.multiModal (.new 0))) (resumedEarly.take 3)).map (fun e =>
        (e.scheduler.schedule {}).toOption.map fun p => (p.1.reqIds, p.1.preemptedReqIds)) =
      some (some (["q"], ["r"])) := by decide +kernel
  obtain ⟨k, e, -, hreach, hstate⟩ := exists_reaches hrun
  obtain ⟨⟨output, s'⟩, hs, hids⟩ := Option.map_eq_some_iff.mp hstate
  obtain ⟨hids, hpre⟩ := Prod.mk.inj hids
  have hs := eq_ok_of_toOption hs
  exact ⟨e, output, s', hs, hids, hpre, reaches_step_described hreach hs⟩

end Engine

end CustomAi.Vllm
