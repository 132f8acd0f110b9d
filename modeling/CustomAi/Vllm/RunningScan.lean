import CustomAi.Lib.IndexWalk
import CustomAi.Vllm.EngineInvariant

/-!
# Which running requests a scheduling step looks at

The loop over the running requests walks them by index while `_preempt_request` takes victims out of
the list.
-/

namespace CustomAi.Vllm

open IndexWalk List Option Except

/-- The victims of a turn that stood before `req_index` without being scheduled in this step. -/
def lateVictims (l l' : ScheduleLocals) : List RequestId :=
  (l'.preemptedReqs.drop l.preemptedReqs.length).filter fun victim =>
    victim ∈ l.s.running.take l.reqIndex ∧ victim ∉ l.scheduledRunningReqs

/-- The loop with the requests it has looked at and those that slid under the index. -/
structure RunningScan where
  l : ScheduleLocals
  examined : List RequestId := []
  slid : List RequestId := []

namespace RunningScan

variable (t : RunningScan)

def start (s : Scheduler) : RunningScan where
  l := .start s

def turn (env : ScheduleEnv) (requestId : RequestId) : Except PyError (Bool × RunningScan) := do
  let (goOn, l) ← t.l.runningStep env requestId
  return (goOn, {
    l
    examined := t.examined ++ [requestId]
    slid := if goOn then
        t.slid ++ (after requestId l.s.running).take (lateVictims t.l l).length
      else t.slid })

/-- `ScheduleLocals.runningLoop`, and whether no allocation failed. -/
def loop (env : ScheduleEnv) : ℕ → RunningScan → Except PyError (Bool × RunningScan)
  | 0, t => .ok (true, t)
  | fuel + 1, t =>
    match t.l.s.running[t.l.reqIndex]? with
    | none => .ok (true, t)
    | some requestId =>
      if t.l.tokenBudget > 0 then do
        let (goOn, t) ← t.turn env requestId
        if goOn then loop env fuel t else return (false, t)
      else .ok (true, t)

/-- Without the record it is the loop of the scheduler. -/
lemma loop_locals (env : ScheduleEnv) (fuel : ℕ) :
    (loop env fuel t).map (fun p => p.2.l) = t.l.runningLoop env fuel := by
  induction fuel generalizing t with
  | zero => rfl
  | succ fuel ih =>
    unfold loop ScheduleLocals.runningLoop
    cases t.l.s.running[t.l.reqIndex]? with
    | none => rfl
    | some requestId =>
      by_cases hbudget : t.l.tokenBudget > 0
      · simp only [hbudget, if_true, turn]
        cases t.l.runningStep env requestId with
        | error e => rfl
        | ok p =>
          obtain ⟨goOn, l⟩ := p
          cases goOn with
          | false => rfl
          | true => exact ih _
      · simp only [hbudget, if_false]
        rfl

def walk : Walk RequestId :=
  ⟨t.l.s.running, t.l.reqIndex, t.l.scheduledRunningReqs, t.examined, t.slid, t.l.preemptedReqs⟩

end RunningScan

namespace ScheduleLocals

variable {l l' : ScheduleLocals} {examined slid start : List RequestId} {env : ScheduleEnv}
  {w₀ : Walk RequestId} {id victim : RequestId}

/-- The scan in the turn of a request, which began at `w₀`. -/
def Scans (l : ScheduleLocals) (examined slid start : List RequestId) (w₀ : Walk RequestId)
    (id : RequestId) : Prop :=
  ∃ before rest gone, Walk.Turn start (l.s.config.policy = .fcfs) w₀ id before rest gone
    (RunningScan.walk ⟨l, examined, slid⟩)

lemma Preempted.walk_eq (h : Preempted l victim l') (hl : l.Scans examined slid start w₀ id) :
    RunningScan.walk ⟨l', examined, slid⟩ = (RunningScan.walk ⟨l, examined, slid⟩).remove victim ∧
      victim ∈ l.s.running ∧
      (l.s.config.policy = .fcfs → ¬(RunningScan.walk ⟨l, examined, slid⟩).Behind victim) := by
  obtain ⟨before, rest, gone, hturn⟩ := hl
  obtain ⟨l1, request, s', hpop, -, hs', rfl⟩ := h
  obtain ⟨-, _, _, _, -, -, -, rfl⟩ := Scheduler.preemptRequest_eq_ok hs'
  cases hpop with
  | @last front hpolicy hrunning =>
    have hnodup : (front ++ [victim]).Nodup := hrunning ▸ hturn.nodup
    have hfront : victim ∉ front := fun hmem =>
      (List.nodup_append.mp hnodup).2.2 victim hmem victim mem_cons_self rfl
    have hmem : victim ∈ l.s.running := by
      rw [hrunning]
      exact mem_append_right _ mem_cons_self
    have hahead : victim ∈ id :: rest := by
      have hitems : front ++ [victim] = before ++ id :: rest := hrunning ▸ hturn.items
      have hlast := congrArg List.getLast? hitems
      rw [List.getLast?_concat, List.getLast?_append_cons] at hlast
      exact List.mem_of_getLast? hlast.symm
    have hnot : victim ∉ l.scheduledRunningReqs := fun hsched =>
      hturn.rest_ahead victim hahead (hturn.before_behind victim (hturn.counted victim hsched))
    refine ⟨?_, hmem, fun _ => hturn.rest_ahead victim hahead⟩
    have herase : l.s.running.erase victim = front := by
      rw [hrunning, erase_append_right _ hfront, erase_cons_head, append_nil]
    rw [Walk.remove_of_notMem hnot]
    simp only [RunningScan.walk, herase]
  | unscheduled hpolicy hmem hnot =>
    refine ⟨?_, hmem, fun hfcfs => absurd (hpolicy.symm.trans hfcfs) (by decide)⟩
    rw [Walk.remove_of_notMem hnot]
    rfl
  | scheduled hpolicy hmem hsched _ _ _ =>
    refine ⟨?_, hmem, fun hfcfs => absurd (hpolicy.symm.trans hfcfs) (by decide)⟩
    rw [Walk.remove_of_mem hsched]
    rfl

lemma Scans.preempted (hl : l.Scans examined slid start w₀ id) (h : Preempted l victim l')
    (hne : victim ≠ id) : l'.Scans examined slid start w₀ id := by
  obtain ⟨heq, hmem, hfcfs⟩ := h.walk_eq hl
  obtain ⟨before, rest, gone, hturn⟩ := hl
  obtain ⟨before', rest', hturn'⟩ := hturn.remove hne hmem hfcfs
  unfold Scans
  rw [heq, h.config]
  exact ⟨before', rest', gone ++ [victim], hturn'⟩

lemma allocateRunning_scans {numNewTokens : ℤ} {request : Request} {fuel : ℕ}
    {newBlocks : List (List BlockId)} (hkeys : KeysOk l.s.requests)
    (hreq : l.s.requests.get? id = some request) (hl : l.Scans examined slid start w₀ id)
    (h : allocateRunning id numNewTokens fuel l = .ok (some newBlocks, l')) :
    l'.Scans examined slid start w₀ id ∧ KeysOk l'.s.requests ∧
      l'.s.requests.get? id = some request ∧ l'.s.config = l.s.config := by
  induction fuel using Nat.strongRecOn generalizing l with | _ fuel ih
  obtain ⟨blocks, k, -, ⟨b, -, -, rfl⟩ | ⟨victim, l2, -, hpre, ⟨-, hnone, -⟩ | ⟨hne, fuel', hfuel, h⟩⟩⟩ :=
    allocateRunning_cases hreq h
  · exact ⟨hl, hkeys, hreq, rfl⟩
  · cases hnone
  · have hpreempted := preempt_preempted hpre hkeys
    have hl2 : l2.Scans examined slid start w₀ id :=
      Scans.preempted (l := { l with s := { l.s with kvCacheManager := k } }) hl hpreempted hne
    obtain ⟨hscans, hkeys', hreq', hconfig⟩ := ih fuel' (hfuel ▸ Nat.lt_succ_self fuel')
      (hpreempted.keysOk hkeys) ((hpreempted.get?_of_ne hkeys hne).trans hreq) hl2 h
    exact ⟨hscans, hkeys', hreq', hconfig.trans hpreempted.config⟩

lemma runningStep_scans (hkeys : KeysOk l.s.requests)
    (hl : l.Scans examined slid start (RunningScan.walk ⟨l, examined, slid⟩) id)
    (h : l.runningStep env id = .ok (true, l')) : KeysOk l'.s.requests ∧ l'.s.config = l.s.config ∧
      ∃ l1 counts, l1.Scans examined slid start (RunningScan.walk ⟨l, examined, slid⟩) id ∧
        l1.s.config = l.s.config ∧ l1.preemptedReqs = l'.preemptedReqs ∧ ∀ k,
          RunningScan.walk ⟨l', examined ++ [id], slid ++ (after id l'.s.running).take k⟩ =
            (RunningScan.walk ⟨l1, examined, slid⟩).pass id counts k := by
  obtain ⟨request, hreq, h⟩ := bind_eq_ok.mp h
  rw [Scheduler.request_eq_ok] at hreq
  split at h
  · obtain ⟨-, rfl⟩ := ok_pair_inj h
    exact ⟨hkeys, rfl, l, false, hl, rfl, rfl, fun k => rfl⟩
  · obtain ⟨t, -, h⟩ := bind_eq_ok.mp h
    obtain ⟨numNewTokens, -, h⟩ := bind_eq_ok.mp h
    split at h
    · obtain ⟨-, rfl⟩ := ok_pair_inj h
      exact ⟨hkeys, rfl, l, false, hl, rfl, rfl, fun k => rfl⟩
    · obtain ⟨⟨newBlocks, l1⟩, halloc, h⟩ := bind_eq_ok.mp h
      cases newBlocks with
      | none => cases h
      | some b =>
        obtain ⟨hscans, hkeys1, hreq1, hconfig⟩ := allocateRunning_scans (l := { l with
          s := { l.s with encoderCache := t.encoderCache } }) hkeys hreq hl halloc
        obtain ⟨request', hreq', h⟩ := bind_eq_ok.mp h
        obtain rfl := some.inj (hreq1.symm.trans (Scheduler.request_eq_ok.mp hreq'))
        obtain ⟨l2, hsched, h⟩ := bind_eq_ok.mp h
        obtain ⟨-, rfl⟩ := ok_pair_inj h
        obtain ⟨encoderCache, -, rfl⟩ := scheduleRunning_eq_ok hsched
        have hid : request.requestId = id := hkeys id request hreq
        refine ⟨hkeys1.set rfl, hconfig, l1, true, hscans, hconfig, rfl, fun k => ?_⟩
        simp only [RunningScan.walk, Walk.pass, recordRunning, hid, if_true]

end ScheduleLocals

namespace RunningScan

variable {t t' : RunningScan} {start : List RequestId} {env : ScheduleEnv}

lemma turn_between {id : RequestId} (hkeys : KeysOk t.l.s.requests)
    (ht : Walk.Between start (t.l.s.config.policy = .fcfs) t.walk)
    (hid : t.l.s.running[t.l.reqIndex]? = some id) (h : t.turn env id = .ok (true, t')) :
    KeysOk t'.l.s.requests ∧ t'.l.s.config = t.l.s.config ∧
      Walk.Between start (t'.l.s.config.policy = .fcfs) t'.walk ∧ t'.examined = t.examined ++ [id] := by
  obtain ⟨⟨goOn, l⟩, hstep, h⟩ := bind_eq_ok.mp h
  obtain ⟨rfl, rfl⟩ := ok_pair_inj h
  have hscans : t.l.Scans t.examined t.slid start t.walk id := ⟨_, _, _, ht.turn hid⟩
  obtain ⟨hkeys', hconfig, l1, counts, ⟨before, rest, gone, hturn⟩, hconfig1, hpre, hwalk⟩ :=
    ScheduleLocals.runningStep_scans hkeys hscans hstep
  rw [hconfig1, ← hconfig] at hturn
  refine ⟨hkeys', hconfig, ?_, rfl⟩
  have hlate : lateVictims t.l l = t.walk.late gone := by
    have hgone : l.preemptedReqs = t.l.preemptedReqs ++ gone := hpre ▸ hturn.removed
    rw [lateVictims, hgone, drop_left]
    rfl
  have hbetween := hturn.pass counts
  rw [← hwalk, ← hlate] at hbetween
  exact hbetween

/-- The loop keeps its walk, and ends with it unless an allocation failed or the budget is used
up. -/
lemma loop_between {fuel : ℕ} (hkeys : KeysOk t.l.s.requests)
    (ht : Walk.Between start (t.l.s.config.policy = .fcfs) t.walk) (hfuel : start.length ≤ t.examined.length + fuel)
    (h : loop env fuel t = .ok (true, t')) (hbudget : 0 < t'.l.tokenBudget) :
    t'.l.s.config = t.l.s.config ∧ Walk.Between start (t'.l.s.config.policy = .fcfs) t'.walk ∧
      t'.l.s.running.length ≤ t'.l.reqIndex := by
  induction fuel generalizing t with
  | zero =>
    obtain ⟨-, rfl⟩ := ok_pair_inj h
    exact ⟨rfl, ht, ht.length_le_index hfuel⟩
  | succ fuel ih =>
    unfold loop at h
    split at h
    · rename_i hnone
      obtain ⟨-, rfl⟩ := ok_pair_inj h
      exact ⟨rfl, ht, List.getElem?_eq_none_iff.mp hnone⟩
    · rename_i id hid
      split at h
      · obtain ⟨⟨goOn, t1⟩, hturn, h⟩ := bind_eq_ok.mp h
        cases goOn with
        | false => cases h
        | true =>
          obtain ⟨hkeys1, hconfig, ht1, hexamined⟩ := turn_between hkeys ht hid hturn
          have hfuel1 : start.length ≤ t1.examined.length + fuel := by
            rw [hexamined, length_append, length_singleton]
            omega
          obtain ⟨hconfig', hbetween, hend⟩ := ih hkeys1 ht1 hfuel1 h
          exact ⟨hconfig'.trans hconfig, hbetween, hend⟩
      · rename_i hspent
        obtain ⟨-, rfl⟩ := ok_pair_inj h
        exact absurd hbudget hspent

/-- A loop that ends with budget left has looked once at every request that stayed, if and only if
those that slid under the index were preempted later. -/
theorem examined_once_iff {s : Scheduler} (hkeys : KeysOk s.requests) (hnodup : s.running.Nodup)
    (h : loop env s.running.length (.start s) = .ok (true, t)) (hbudget : 0 < t.l.tokenBudget) :
    ((∀ id ∈ s.running, id ∉ t.l.preemptedReqs → t.examined.count id = 1) ↔
        ∀ id ∈ t.slid, id ∈ t.l.preemptedReqs) ∧ (s.config.policy = .fcfs → t.slid = []) := by
  obtain ⟨hconfig, hbetween, hend⟩ :=
    loop_between hkeys (Walk.Between.of_start hnodup) (Nat.le_add_left _ _) h hbudget
  exact ⟨hbetween.seen_once_iff hend, fun hfcfs => hbetween.none_missed (hconfig ▸ hfcfs)⟩

end RunningScan

namespace Engine

/-- No request is in `running` twice. -/
theorem reaches_running_nodup {config : SchedulerConfig} {k : KVCacheManager} {c : EncoderCache}
    {e : Engine} (h : Reaches step (fun _ op => AddsFresh op) (start config k c) e) :
    KeysOk e.scheduler.requests ∧ e.scheduler.running.Nodup := by
  obtain ⟨lost, extra, hplaced⟩ := (reaches_sound h fun _ _ hop => hop).placed
  refine ⟨hplaced.keys, nodup_iff_count_le_one.mpr fun id => ?_⟩
  rw [hplaced.running id]
  unfold runningCount
  split
  · exact Nat.zero_le 1
  · split <;> decide

/-- Four tokens of a prompt at once; the request with the highest number is preempted first. -/
private def priorityConfig : SchedulerConfig :=
  { smallConfig with policy := .priority, longPrefillTokenThreshold := 4 }

private def prompted (requestId : RequestId) (numTokens priority : ℕ) : Request where
  requestId := requestId
  promptTokenIds := some (replicate numTokens 0)
  numPromptTokens := numTokens
  allTokenIds := replicate numTokens 0
  samplingParams := ⟨8, 0, false, []⟩
  maxTokens := 8
  priority := priority

/-- The first request has the lowest priority, and after the others a block is missing. -/
private def filled (numTokens : List (RequestId × ℕ)) : List EngineOp :=
  [.addRequest (prompted "a" 1 1) (fun _ => false), .schedule {}] ++
    numTokens.map (fun p => .addRequest (prompted p.1 p.2 0) (fun _ => false)) ++ [.schedule {}]

private def afterFilled (numTokens : List (RequestId × ℕ)) : Option (Engine × RunningScan) :=
  smallCache.toOption.bind fun k =>
    (runAllowed step (fun _ op => AddsFresh op) (start priorityConfig k (.multiModal (.new 0)))
      (filled numTokens)).bind fun e =>
        match RunningScan.loop {} e.scheduler.running.length (.start e.scheduler) with
        | .ok (true, t) => some (e, t)
        | _ => none

private lemma afterFilled_reaches {numTokens : List (RequestId × ℕ)} {e : Engine}
    {t : RunningScan} (h : afterFilled numTokens = some (e, t)) : ∃ k, smallCache = .ok k ∧
      Reaches step (fun _ op => AddsFresh op) (start priorityConfig k (.multiModal (.new 0))) e ∧
      RunningScan.loop {} e.scheduler.running.length (.start e.scheduler) = .ok (true, t) := by
  obtain ⟨k, hk⟩ := exists_eq_ok_of_isOk (x := smallCache) (by decide)
  unfold afterFilled at h
  rw [hk] at h
  obtain ⟨k', hk', h⟩ := bind_eq_some_iff.mp h
  obtain rfl : k = k' := some.inj hk'
  obtain ⟨e', he', h⟩ := bind_eq_some_iff.mp h
  split at h
  · rename_i t' hloop
    obtain ⟨rfl, rfl⟩ := Prod.mk.inj (some.inj h)
    exact ⟨k, hk, Reaches.start.append_runAllowed he', hloop⟩
  · cases h

/-- The first request is preempted for the last one; the two others are looked at. -/
theorem examined_once_of_filled : ∃ k e t, smallCache = .ok k ∧
    Reaches step (fun _ op => AddsFresh op) (start priorityConfig k (.multiModal (.new 0))) e ∧
    RunningScan.loop {} e.scheduler.running.length (.start e.scheduler) = .ok (true, t) ∧
    t.l.preemptedReqs = ["a"] ∧
    ∀ id ∈ e.scheduler.running, id ∉ t.l.preemptedReqs → t.examined.count id = 1 := by
  have hrun : (afterFilled [("b", 2), ("c", 5)]).map (fun p =>
      (p.2.slid, p.2.l.preemptedReqs, p.2.l.tokenBudget)) = some ([], ["a"], 15) := by
    decide +kernel
  obtain ⟨⟨e, t⟩, hafter, hvalues⟩ := map_eq_some_iff.mp hrun
  obtain ⟨k, hk, hreach, hloop⟩ := afterFilled_reaches hafter
  simp only [Prod.mk.injEq] at hvalues
  obtain ⟨hslid, hpreempted, hbudget⟩ := hvalues
  obtain ⟨hkeys, hnodup⟩ := reaches_running_nodup hreach
  refine ⟨k, e, t, hk, hreach, hloop, hpreempted, ?_⟩
  refine (RunningScan.examined_once_iff hkeys hnodup hloop (by rw [hbudget]; decide)).1.mpr ?_
  rw [hslid]
  exact fun id hid => by cases hid

/-- The first request is preempted for the second one; the third one slides under the index and is
not looked at. -/
theorem running_request_skipped : ∃ k e t, smallCache = .ok k ∧
    Reaches step (fun _ op => AddsFresh op) (start priorityConfig k (.multiModal (.new 0))) e ∧
    RunningScan.loop {} e.scheduler.running.length (.start e.scheduler) = .ok (true, t) ∧
    0 < t.l.tokenBudget ∧ ¬∀ id ∈ e.scheduler.running, id ∉ t.l.preemptedReqs → t.examined.count id = 1 := by
  have hrun : (afterFilled [("b", 5), ("c", 2)]).map (fun p =>
      (p.1.scheduler.running, p.2.examined, p.2.l.preemptedReqs, p.2.l.tokenBudget)) =
      some (["a", "b", "c"], ["a", "b"], ["a"], 15) := by decide +kernel
  obtain ⟨⟨e, t⟩, hafter, hvalues⟩ := map_eq_some_iff.mp hrun
  obtain ⟨k, hk, hreach, hloop⟩ := afterFilled_reaches hafter
  simp only [Prod.mk.injEq] at hvalues
  obtain ⟨hrunning, hexamined, hpreempted, hbudget⟩ := hvalues
  refine ⟨k, e, t, hk, hreach, hloop, by rw [hbudget]; decide, fun hall => ?_⟩
  have hone := hall "c" (by rw [hrunning]; decide) (by rw [hpreempted]; decide)
  rw [hexamined] at hone
  exact absurd hone (by decide)

end Engine

end CustomAi.Vllm
