import CustomAi.Vllm.Schedule

/-!
# The moves of a scheduling step

Every change that `schedule` makes to its local variables, each with what is known when it
happens, and the two loops as sequences of these moves.
-/

namespace CustomAi.Vllm

open List Relation Option Except Scheduler Request Dict

/-- Requests are stored under their ids. -/
def KeysOk (requests : Dict RequestId Request) : Prop :=
  ∀ id r, requests.get? id = some r → r.requestId = id

lemma KeysOk.empty : KeysOk .empty := fun _ _ h => by cases h

lemma KeysOk.set {requests : Dict RequestId Request} (h : KeysOk requests) {id : RequestId}
    {request : Request} (hid : request.requestId = id) : KeysOk (requests.set id request) := by
  intro id' r hr
  rw [get?_set] at hr
  split at hr
  · rename_i hid'
    rw [← some.inj hr, hid, hid']
  · exact h id' r hr

lemma KeysOk.erase {requests : Dict RequestId Request} (h : KeysOk requests) (id : RequestId) :
    KeysOk (requests.erase id) := by
  intro id' r hr
  rw [get?_erase] at hr
  split at hr
  · cases hr
  · exact h id' r hr

/-- The record of a request after it was preempted in `schedule`. -/
def Request.preempted (request : Request) : Request :=
  { request with
    status := .preempted
    numComputedTokens := 0
    numPreemptions := request.numPreemptions + 1
    specTokenIds := [] }

namespace Scheduler

variable {s s' : Scheduler}

variable {request : Request}

lemma request_eq_ok {id : RequestId} : s.request id = .ok request ↔ s.requests.get? id = some request := by
  unfold Scheduler.request
  cases s.requests.get? id <;> simp

lemma setRequest_eq {id : RequestId} (hid : request.requestId = id) :
    s.setRequest request = { s with requests := s.requests.set id request } := by
  rw [setRequest, hid]

@[simp] lemma setRequest_requests (request : Request) :
    (s.setRequest request).requests = s.requests.set request.requestId request := rfl

lemma preemptRequest_eq_ok (h : s.preemptRequest request = .ok s') :
    request.status = .running ∧ ∃ kvCacheManager encoderCache waiting,
      s.kvCacheManager.free request = .ok kvCacheManager ∧
      s.encoderCache.free s.config.setOrder request = .ok encoderCache ∧
      waiting.Perm (request.requestId :: s.waiting) ∧
      s' = { s with
        kvCacheManager, encoderCache, waiting
        requests := s.requests.set request.requestId request.preempted } := by
  obtain ⟨r, hr, h⟩ := bind_eq_ok.mp h
  obtain ⟨kvCacheManager, hkv, h⟩ := bind_eq_ok.mp h
  obtain ⟨encoderCache, henc, h⟩ := bind_eq_ok.mp h
  obtain ⟨u, hu, hr⟩ := bind_eq_ok.mp hr
  rw [pure_eq_ok, ok.injEq] at hr h
  subst hr
  refine ⟨ensure_eq_ok.mp hu, kvCacheManager, encoderCache, s'.waiting, hkv, henc, ?_, ?_⟩
  · rw [← h]
    exact RequestQueue.prependRequest_perm _
  · rw [← h]
    rfl

inductive Checked (s : Scheduler) (request : Request) : Bool → Scheduler → Prop
  | kept {skipped : Bool} : (skipped = false → request.status ≠ .waitingForStreamingReq) →
      Checked s request skipped s
  | compiled : request.status = .waitingForFsm →
      Checked s request false (s.setRequest { request with status := .waiting })
  | received {kvCacheManager : KVCacheManager} {numComputedTokens : ℤ}
      {finishedRecvingKvReqIds failedRecvingKvReqIds : Finset RequestId} :
      request.status = .waitingForRemoteKvs → s.config.hasConnector = true →
      (∃ n, s.kvCacheManager.cacheBlocks request n = .ok kvCacheManager) ∨
        s.kvCacheManager.free request = .ok kvCacheManager →
      Checked s request false { s with
        kvCacheManager, finishedRecvingKvReqIds, failedRecvingKvReqIds
        requests := s.requests.set request.requestId { request with
          numComputedTokens
          status := if request.numPreemptions ≠ 0 then .preempted else .waiting } }

lemma updateWaitingForRemoteKv_cases {isReady : Bool}
    (h : s.updateWaitingForRemoteKv request = .ok (isReady, s')) : s.config.hasConnector = true ∧
      (isReady = false ∧ s' = s ∨ isReady = true ∧
        ∃ kvCacheManager numComputedTokens finishedRecvingKvReqIds failedRecvingKvReqIds requests,
          ((∃ n, s.kvCacheManager.cacheBlocks request n = .ok kvCacheManager) ∨
            s.kvCacheManager.free request = .ok kvCacheManager) ∧
          (requests = s.requests ∧ numComputedTokens = request.numComputedTokens ∨
            requests = s.requests.set request.requestId { request with numComputedTokens }) ∧
          s' = { s with
            kvCacheManager, finishedRecvingKvReqIds, failedRecvingKvReqIds, requests }) := by
  obtain ⟨_, hconn, h⟩ := bind_eq_ok.mp h
  refine ⟨ensure_eq_ok.mp hconn, ?_⟩
  dsimp only at h
  split at h
  · obtain ⟨rfl, rfl⟩ := ok_pair_inj h
    exact .inl ⟨rfl, rfl⟩
  · split at h
    · obtain ⟨kvCacheManager, hkv, h⟩ := bind_eq_ok.mp h
      obtain ⟨rfl, rfl⟩ := ok_pair_inj h
      refine .inr ⟨rfl, kvCacheManager, _, _, _, s.requests, ?_, .inl ⟨rfl, rfl⟩, rfl⟩
      split at hkv
      · exact .inl ⟨_, hkv⟩
      · exact .inr hkv
    · split at h
      · obtain ⟨kvCacheManager, hkv, h⟩ := bind_eq_ok.mp h
        obtain ⟨rfl, rfl⟩ := ok_pair_inj h
        exact .inr ⟨rfl, kvCacheManager, _, _, _, _, .inl ⟨_, hkv⟩, .inr rfl, rfl⟩
      · cases h

variable {skipped : Bool}

lemma checkStatus_checked {env : ScheduleEnv} (hreq : s.requests.get? request.requestId = some request)
    (h : s.checkStatus env request = .ok (skipped, s')) : Checked s request skipped s' := by
  unfold checkStatus at h
  split at h
  · rename_i hstatus
    obtain ⟨⟨isReady, s1⟩, hready, hrest⟩ := bind_eq_ok.mp h
    obtain ⟨hconn, ⟨rfl, rfl⟩ | ⟨rfl, kvCacheManager, n, finished, failed, requests, hkv, hset,
      rfl⟩⟩ := updateWaitingForRemoteKv_cases hready
    · obtain ⟨rfl, rfl⟩ := ok_pair_inj hrest
      exact .kept fun hskip => by cases hskip
    · obtain ⟨request', hreq', hrest⟩ := bind_eq_ok.mp hrest
      obtain ⟨rfl, rfl⟩ := ok_pair_inj hrest
      rw [request_eq_ok] at hreq'
      rcases hset with ⟨rfl, rfl⟩ | rfl
      · obtain rfl := some.inj (hreq.symm.trans hreq')
        exact .received hstatus hconn hkv
      · rw [Dict.get?_set_self] at hreq'
        obtain rfl := some.inj hreq'
        simp only [setRequest, Dict.set_set]
        exact .received hstatus hconn hkv
  · rename_i hstatus
    split at h
    · obtain ⟨rfl, rfl⟩ := ok_pair_inj h
      exact .compiled hstatus
    · obtain ⟨rfl, rfl⟩ := ok_pair_inj h
      exact .kept fun hskip => by cases hskip
  · obtain ⟨_, -, h⟩ := bind_eq_ok.mp h
    obtain ⟨rfl, rfl⟩ := ok_pair_inj h
    exact .kept fun hskip => by cases hskip
  · rename_i hstreaming
    obtain ⟨rfl, rfl⟩ := ok_pair_inj h
    exact .kept fun _ => hstreaming

lemma Checked.keysOk (h : Checked s request skipped s') (hkeys : KeysOk s.requests) : KeysOk s'.requests := by
  cases h with
  | kept => exact hkeys
  | compiled => exact hkeys.set rfl
  | received => exact hkeys.set rfl

lemma Checked.status_ne {request' : Request} (h : Checked s request false s')
    (hreq : s.requests.get? request.requestId = some request)
    (hreq' : s'.requests.get? request.requestId = some request') : request'.status ≠ .waitingForStreamingReq := by
  cases h with
  | kept hstatus =>
    obtain rfl := some.inj (hreq.symm.trans hreq')
    exact hstatus rfl
  | compiled =>
    rw [setRequest_requests, get?_set_self] at hreq'
    rw [← some.inj hreq']
    exact nofun
  | received =>
    rw [get?_set_self] at hreq'
    rw [← some.inj hreq']
    split <;> exact nofun

section

variable (h : Checked s request skipped s')
include h

lemma Checked.waiting : s'.waiting = s.waiting := by
  cases h <;> rfl

lemma Checked.running : s'.running = s.running := by
  cases h <;> rfl

lemma Checked.config : s'.config = s.config := by
  cases h <;> rfl

end

end Scheduler

namespace ScheduleLocals

variable {l l' : ScheduleLocals}

inductive Popped (l : ScheduleLocals) (victim : RequestId) : ScheduleLocals → Prop
  | last {rest : List RequestId} : l.s.config.policy = .fcfs → l.s.running = rest ++ [victim] →
      Popped l victim { l with s := { l.s with running := rest } }
  | unscheduled : l.s.config.policy = .priority → victim ∈ l.s.running → victim ∉ l.scheduledRunningReqs →
      Popped l victim { l with s := { l.s with running := l.s.running.erase victim } }
  | scheduled {request : Request} {numTokens numEmbeds : ℤ} : l.s.config.policy = .priority →
      victim ∈ l.s.running → victim ∈ l.scheduledRunningReqs →
      l.s.request victim = .ok request → l.numScheduledTokens.get? victim = some numTokens →
      sumEmbeds request ((l.scheduledEncoderInputs.get? victim).getD []) = .ok numEmbeds →
      Popped l victim { l with
        s := { l.s with running := l.s.running.erase victim }
        scheduledRunningReqs := l.scheduledRunningReqs.erase victim
        tokenBudget := l.tokenBudget + numTokens
        numScheduledTokens := l.numScheduledTokens.erase victim
        reqToNewBlocks := l.reqToNewBlocks.erase victim
        scheduledSpecDecodeTokens := l.scheduledSpecDecodeTokens.erase victim
        scheduledEncoderInputs := l.scheduledEncoderInputs.erase victim
        encoderComputeBudget := l.encoderComputeBudget + numEmbeds
        reqIndex := l.reqIndex - 1 }

lemma foldl_choose_mem {f : RequestId → RequestId → RequestId} (hf : ∀ a b, f a b = a ∨ f a b = b)
    (rest : List RequestId) (best : RequestId) : rest.foldl f best ∈ best :: rest := by
  induction rest generalizing best with
  | nil => exact mem_cons_self
  | cons y rest ih =>
    rw [foldl_cons]
    rcases hf best y with h | h
    · rw [h]
      exact Sublist.subset (by simp) (ih best)
    · rw [h]
      exact mem_cons_of_mem best (ih y)

variable {id : RequestId}

lemma lowestPriority_mem {requests : Dict RequestId Request} {running : List RequestId}
    (h : lowestPriority requests running = some id) : id ∈ running := by
  cases running with
  | nil => cases h
  | cons x rest =>
    obtain rfl := some.inj h
    refine foldl_choose_mem (fun a b => ?_) rest x
    split
    · split
      · exact .inr rfl
      · exact .inl rfl
    · exact .inl rfl

variable {victim : RequestId}

lemma popVictim_popped (hkeys : KeysOk l.s.requests) (h : l.popVictim = .ok (victim, l')) : Popped l victim l' := by
  unfold popVictim at h
  split at h
  · rename_i hpolicy
    split at h
    · cases h
    · rename_i id hid
      have hmem : id ∈ l.s.running := lowestPriority_mem hid
      dsimp only at h
      split at h
      · rename_i hsched
        obtain ⟨request, hreq, h⟩ := bind_eq_ok.mp h
        obtain ⟨l₁, hroll, h⟩ := bind_eq_ok.mp h
        rw [pure_eq_ok, ok.injEq, Prod.mk.injEq] at h
        obtain ⟨rfl, rfl⟩ := h
        have hrid : request.requestId = id := hkeys id request (request_eq_ok.mp hreq)
        unfold rollback at hroll
        dsimp only at hroll
        split at hroll
        · cases hroll
        · rename_i numTokens hnum
          obtain ⟨_, -, hroll⟩ := bind_eq_ok.mp hroll
          obtain ⟨numEmbeds, hemb, hroll⟩ := bind_eq_ok.mp hroll
          rw [pure_eq_ok, ok.injEq] at hroll
          subst hroll
          rw [hrid] at hnum hemb ⊢
          exact .scheduled hpolicy hmem hsched hreq hnum hemb
      · rename_i hsched
        obtain ⟨rfl, rfl⟩ := h
        exact .unscheduled hpolicy hmem hsched
  · rename_i hpolicy
    split at h
    · cases h
    · rename_i id hid
      rw [ok.injEq, Prod.mk.injEq] at h
      obtain ⟨rfl, rfl⟩ := h
      exact .last hpolicy (dropLast_append_getLast? id hid).symm

structure Preempted (l : ScheduleLocals) (victim : RequestId) (l' : ScheduleLocals) : Prop where
  exists_popped : ∃ l₁ request s', Popped l victim l₁ ∧
    l.s.requests.get? victim = some request ∧ l₁.s.preemptRequest request = .ok s' ∧
    l' = { l₁ with s := s', preemptedReqs := l₁.preemptedReqs ++ [victim] }

lemma Popped.requests (h : Popped l victim l') : l'.s.requests = l.s.requests := by
  cases h <;> rfl

lemma Popped.config (h : Popped l victim l') : l'.s.config = l.s.config := by
  cases h <;> rfl

lemma preempt_preempted (h : l.preempt = .ok (victim, l'))
    (hkeys : KeysOk l.s.requests) : Preempted l victim l' := by
  obtain ⟨⟨id, l₁⟩, hpop, h⟩ := bind_eq_ok.mp h
  obtain ⟨request, hreq, h⟩ := bind_eq_ok.mp h
  obtain ⟨s', hs', h⟩ := bind_eq_ok.mp h
  obtain ⟨rfl, rfl⟩ := h
  have hpopped := popVictim_popped hkeys hpop
  rw [request_eq_ok, hpopped.requests] at hreq
  exact ⟨l₁, request, s', hpopped, hreq, hs', rfl⟩

lemma Preempted.config (h : Preempted l victim l') : l'.s.config = l.s.config := by
  obtain ⟨l₁, request, s', hpop, -, hs', rfl⟩ := h
  obtain ⟨-, _, _, _, -, -, -, rfl⟩ := preemptRequest_eq_ok hs'
  exact hpop.config

lemma Preempted.requests (h : Preempted l victim l')
    (hkeys : KeysOk l.s.requests) : ∃ request, l.s.requests.get? victim = some request ∧
      request.status = .running ∧ l'.s.requests = l.s.requests.set victim request.preempted := by
  obtain ⟨l₁, request, s', hpop, hreq, hs', rfl⟩ := h
  obtain ⟨hstatus, _, _, _, -, -, -, rfl⟩ := preemptRequest_eq_ok hs'
  refine ⟨request, hreq, hstatus, ?_⟩
  rw [hpop.requests, hkeys victim request hreq]

lemma Preempted.keysOk (h : Preempted l victim l') (hkeys : KeysOk l.s.requests) : KeysOk l'.s.requests := by
  obtain ⟨r, hr, -, hrequests⟩ := h.requests hkeys
  rw [hrequests]
  exact hkeys.set (hkeys victim r hr)

lemma Preempted.get?_of_ne (h : Preempted l victim l') (hkeys : KeysOk l.s.requests) (hne : victim ≠ id) :
    l'.s.requests.get? id = l.s.requests.get? id := by
  obtain ⟨r, -, -, hrequests⟩ := h.requests hkeys
  rw [hrequests, get?_set_of_ne _ _ (Ne.symm hne)]

lemma Popped.queues (h : Popped l victim l') :
    l.s.running.Perm (victim :: l'.s.running) ∧ l'.s.waiting = l.s.waiting ∧
      l'.skippedWaitingRequests = l.skippedWaitingRequests ∧
      l'.s.numWaitingForStreamingInput = l.s.numWaitingForStreamingInput := by
  cases h with
  | last _ hrunning =>
    refine ⟨?_, rfl, rfl, rfl⟩
    rw [hrunning]
    exact perm_append_singleton victim _
  | unscheduled _ hmem => exact ⟨perm_cons_erase hmem, rfl, rfl, rfl⟩
  | scheduled _ hmem => exact ⟨perm_cons_erase hmem, rfl, rfl, rfl⟩

lemma Preempted.queues (h : Preempted l victim l') (hkeys : KeysOk l.s.requests) :
    l.s.running.Perm (victim :: l'.s.running) ∧ l'.s.waiting.Perm (victim :: l.s.waiting) ∧
      l'.skippedWaitingRequests = l.skippedWaitingRequests ∧
      l'.s.numWaitingForStreamingInput = l.s.numWaitingForStreamingInput := by
  obtain ⟨l₁, request, s', hpop, hreq, hs', rfl⟩ := h
  obtain ⟨-, _, _, waiting, -, -, hwaiting, rfl⟩ := preemptRequest_eq_ok hs'
  obtain ⟨hrunning, hw, hskipped, hcounter⟩ := hpop.queues
  rw [hkeys victim request hreq, hw] at hwaiting
  exact ⟨hrunning, hwaiting, hskipped, hcounter⟩

/-- How many tokens of a running request are to be computed, with which encoder inputs. -/
structure RunningPlan (config : SchedulerConfig) (env : ScheduleEnv) (encoderCache : EncoderCache)
    (tokenBudget encoderComputeBudget : ℤ) (request : Request) (numNewTokens : ℤ)
    (t : EncoderTry) : Prop where
  notDone : request.reachesMaxTokens = false
  inputs : tryScheduleEncoderInputs config env encoderCache request request.numComputedTokens
    (numNewTokensRunning config request tokenBudget) encoderComputeBudget = .ok t
  aligned : (if config.needMambaBlockAlignedSplit then
    mambaBlockAlignedSplit config request t.numNewTokens 0 0 else .ok t.numNewTokens) = .ok numNewTokens
  ne_zero : numNewTokens ≠ 0

structure Counted (config : SchedulerConfig) (k : KVCacheManager) (request : Request)
    (c : ComputedTokens) : Prop where
  total : c.numComputedTokens = request.numComputedTokens + c.numNewLocalComputedTokens +
    c.numExternalComputedTokens
  hits : request.numComputedTokens = 0 →
    k.getComputedBlocks request = .ok (c.newComputedBlocks, c.numNewLocalComputedTokens)
  noHits : request.numComputedTokens ≠ 0 → c.newComputedBlocks = k.emptyKvCacheBlocks ∧
    c.numNewLocalComputedTokens = 0 ∧ c.numExternalComputedTokens = 0 ∧ c.loadKvAsync = false
  noConnector : config.hasConnector = false → c.numExternalComputedTokens = 0 ∧ c.loadKvAsync = false

def recordRunning (l : ScheduleLocals) (request : Request) (numNewTokens : ℤ)
    (newBlocks : List (List BlockId)) (t : EncoderTry) (kvCacheManager : KVCacheManager)
    (encoderCache : EncoderCache) : ScheduleLocals :=
  let id := request.requestId
  let specTokenIds := specTokensToSchedule request numNewTokens
  { l with
    scheduledRunningReqs := l.scheduledRunningReqs ++ [id]
    reqToNewBlocks := l.reqToNewBlocks.set id newBlocks
    numScheduledTokens := l.numScheduledTokens.set id numNewTokens
    tokenBudget := l.tokenBudget - numNewTokens
    reqIndex := l.reqIndex + 1
    scheduledSpecDecodeTokens := if specTokenIds = [] then l.scheduledSpecDecodeTokens
      else l.scheduledSpecDecodeTokens.set id specTokenIds
    scheduledEncoderInputs := if t.encoderInputsToSchedule = [] then l.scheduledEncoderInputs
      else l.scheduledEncoderInputs.set id t.encoderInputsToSchedule
    encoderComputeBudget := if t.encoderInputsToSchedule = [] then l.encoderComputeBudget
      else t.encoderComputeBudget
    s := { l.s with
      kvCacheManager, encoderCache
      requests := l.s.requests.set id { request with specTokenIds := [] } } }

def recordAdmitted (l : ScheduleLocals) (request : Request) (c : ComputedTokens)
    (numNewTokens : ℤ) (t : EncoderTry) (kvCacheManager : KVCacheManager)
    (encoderCache : EncoderCache) (waiting : RequestQueue) : ScheduleLocals :=
  let id := request.requestId
  { l with
    scheduledNewReqs := if request.status = .waiting then l.scheduledNewReqs ++ [id]
      else l.scheduledNewReqs
    scheduledResumedReqs := if request.status = .preempted then l.scheduledResumedReqs ++ [id]
      else l.scheduledResumedReqs
    scheduledLoras := match l.s.config.maxLoras, request.loraRequest with
      | some _, some lora => insert lora.loraIntId l.scheduledLoras
      | _, _ => l.scheduledLoras
    reqToNewBlocks := l.reqToNewBlocks.set id (kvCacheManager.getBlockIds id)
    numScheduledTokens := l.numScheduledTokens.set id numNewTokens
    tokenBudget := l.tokenBudget - numNewTokens
    scheduledEncoderInputs := if t.encoderInputsToSchedule = [] then l.scheduledEncoderInputs
      else l.scheduledEncoderInputs.set id t.encoderInputsToSchedule
    encoderComputeBudget := if t.encoderInputsToSchedule = [] then l.encoderComputeBudget
      else t.encoderComputeBudget
    s := { l.s with
      kvCacheManager, encoderCache, waiting
      running := l.s.running ++ [id]
      requests := l.s.requests.set id { request with
        status := .running
        numComputedTokens := c.numComputedTokens
        numCachedTokens := if request.numCachedTokens < 0 then c.numComputedTokens
          else request.numCachedTokens } } }

def AllocatedInputs (request : Request) (t : EncoderTry) (c c' : EncoderCache) : Prop :=
  ∃ c₁, c.allocateAll request t.encoderInputsToSchedule = .ok c₁ ∧
    c₁.allocateAll request t.externalLoadEncoderInput = .ok c'

/-- Looking for the next running request, for blocks for it, or for the next waiting request. -/
inductive Phase
  | scan
  | wait
  | running (requestId : RequestId) (numNewTokens : ℤ) (t : EncoderTry)

/-- One change of the local variables of `schedule`. -/
inductive Move (env : ScheduleEnv) : Phase × ScheduleLocals → Phase × ScheduleLocals → Prop
  | pass {l : ScheduleLocals} {id : RequestId} :
      l.s.running[l.reqIndex]? = some id → Move env (.scan, l) (.scan, { l with reqIndex := l.reqIndex + 1 })
  | passInputs {l : ScheduleLocals} {id : RequestId} {request : Request} {t : EncoderTry} :
      l.s.running[l.reqIndex]? = some id → l.s.requests.get? id = some request →
      tryScheduleEncoderInputs l.s.config env l.s.encoderCache request request.numComputedTokens
        (numNewTokensRunning l.s.config request l.tokenBudget) l.encoderComputeBudget = .ok t →
      Move env (.scan, l) (.scan, { l with
        reqIndex := l.reqIndex + 1
        s := { l.s with encoderCache := t.encoderCache } })
  | plan {l : ScheduleLocals} {id : RequestId} {request : Request} {numNewTokens : ℤ}
      {t : EncoderTry} :
      l.s.running[l.reqIndex]? = some id → 0 < l.tokenBudget → l.s.requests.get? id = some request →
      RunningPlan l.s.config env l.s.encoderCache l.tokenBudget l.encoderComputeBudget request
        numNewTokens t → Move env (.scan, l) (.running id numNewTokens t,
        { l with s := { l.s with encoderCache := t.encoderCache } })
  | noBlocks {l : ScheduleLocals} {id : RequestId} {request : Request} {numNewTokens : ℤ}
      {t : EncoderTry} {kvCacheManager : KVCacheManager} :
      l.s.requests.get? id = some request →
      l.s.kvCacheManager.allocateSlots request l.s.kvCacheManager.emptyKvCacheBlocks 0
        { numNewTokens, numLookaheadTokens := l.s.config.numLookaheadTokens } = .ok (none, kvCacheManager) →
      Move env (.running id numNewTokens t, l) (.running id numNewTokens t,
        { l with s := { l.s with kvCacheManager } })
  | preempt {l l' : ScheduleLocals} {id victim : RequestId} {numNewTokens : ℤ} {t : EncoderTry} :
      victim ≠ id → Preempted l victim l' →
      Move env (.running id numNewTokens t, l) (.running id numNewTokens t, l')
  | preemptSelf {l l' : ScheduleLocals} {id : RequestId} {numNewTokens : ℤ} {t : EncoderTry} :
      Preempted l id l' → Move env (.running id numNewTokens t, l) (.scan, l')
  | schedule {l : ScheduleLocals} {id : RequestId} {request : Request} {numNewTokens : ℤ}
      {t : EncoderTry} {c : EncoderCache} {tokenBudget encoderComputeBudget : ℤ}
      {newBlocks : List (List BlockId)} {kvCacheManager : KVCacheManager}
      {encoderCache : EncoderCache} :
      l.s.requests.get? id = some request → 0 < tokenBudget →
      RunningPlan l.s.config env c tokenBudget encoderComputeBudget request numNewTokens t →
      l.s.kvCacheManager.allocateSlots request l.s.kvCacheManager.emptyKvCacheBlocks 0
        { numNewTokens, numLookaheadTokens := l.s.config.numLookaheadTokens } =
        .ok (some newBlocks, kvCacheManager) → AllocatedInputs request t l.s.encoderCache encoderCache →
      Move env (.running id numNewTokens t, l)
        (.scan, l.recordRunning request numNewTokens newBlocks t kvCacheManager encoderCache)
  | loras {l : ScheduleLocals} (scheduledLoras : Finset ℕ) :
      Move env (.scan, l) (.wait, { l with scheduledLoras })
  | check {l : ScheduleLocals} {id : RequestId} {request : Request} {skipped : Bool}
      {s : Scheduler} :
      l.preemptedReqs = [] → l.s.waiting.peekRequest = some id →
      l.s.requests.get? id = some request → Scheduler.Checked l.s request skipped s →
      Move env (.wait, l) (.wait, { l with s })
  | skip {l : ScheduleLocals} {id : RequestId} {waiting skipped : RequestQueue} :
      l.preemptedReqs = [] → (id :: waiting).Perm l.s.waiting → skipped.Perm (id :: l.skippedWaitingRequests) →
      Move env (.wait, l) (.wait, { l with
        s := { l.s with waiting }
        skippedWaitingRequests := skipped })
  | count {l : ScheduleLocals} {id : RequestId} {request : Request} {c : Option ComputedTokens}
      {s : Scheduler} :
      l.preemptedReqs = [] → l.s.waiting.peekRequest = some id →
      l.s.requests.get? id = some request → l.getComputedTokens env request = .ok (c, s) →
      Move env (.wait, l) (.wait, { l with s })
  | inputs {l : ScheduleLocals} {id : RequestId} {request : Request} {c : ComputedTokens}
      {numNewTokens : Option ℤ} {t : EncoderTry} :
      l.preemptedReqs = [] → l.s.requests.get? id = some request →
      l.numNewTokensWaiting env request c = .ok (numNewTokens, t) →
      Move env (.wait, l) (.wait, { l with s := { l.s with encoderCache := t.encoderCache } })
  | refuse {l : ScheduleLocals} {id : RequestId} {request : Request} {c : ComputedTokens}
      {numNewTokens : ℤ} {kvCacheManager : KVCacheManager} {encoderCache : EncoderCache} :
      l.preemptedReqs = [] → l.s.waiting.peekRequest = some id →
      l.s.requests.get? id = some request → Counted l.s.config l.s.kvCacheManager request c →
      l.s.kvCacheManager.allocateSlots request c.newComputedBlocks c.numNewLocalComputedTokens
        (l.waitingArgs request c numNewTokens) = .ok (none, kvCacheManager) →
      (if request.hasEncoderInputs then l.s.encoderCache.free l.s.config.setOrder request
        else .ok l.s.encoderCache) = .ok encoderCache →
      Move env (.wait, l) (.wait, { l with s := { l.s with kvCacheManager, encoderCache } })
  | startAsync {l : ScheduleLocals} {id : RequestId} {request : Request} {c : ComputedTokens}
      {numNewTokens : ℤ} {newBlocks : List (List BlockId)} {kvCacheManager : KVCacheManager}
      {waiting skipped : RequestQueue} :
      l.preemptedReqs = [] → l.s.requests.get? id = some request → request.status ≠ .waitingForStreamingReq →
      Counted l.s.config l.s.kvCacheManager request c → c.loadKvAsync = true →
      l.s.kvCacheManager.allocateSlots request c.newComputedBlocks c.numNewLocalComputedTokens
        (l.waitingArgs request c numNewTokens) = .ok (some newBlocks, kvCacheManager) →
      (id :: waiting).Perm l.s.waiting → skipped.Perm (id :: l.skippedWaitingRequests) →
      Move env (.wait, l) (.wait, { l with
        s := { l.s with
          kvCacheManager, waiting
          requests := l.s.requests.set id { request with status := .waitingForRemoteKvs } }
        skippedWaitingRequests := skipped })
  | admitted {l : ScheduleLocals} {id : RequestId} {request : Request} {c : ComputedTokens}
      {numNewTokens : ℤ} {t : EncoderTry} {newBlocks : List (List BlockId)}
      {kvCacheManager : KVCacheManager} {encoderCache encoderCache' : EncoderCache}
      {waiting : RequestQueue} :
      l.preemptedReqs = [] → l.s.running.length ≠ l.s.config.maxNumRunningReqs →
      l.s.requests.get? id = some request →
      Counted l.s.config l.s.kvCacheManager request c → c.loadKvAsync = false →
      { l with s := { l.s with encoderCache } }.numNewTokensWaiting env request c =
        .ok (some numNewTokens, t) → t.encoderCache = l.s.encoderCache →
      request.status = .waiting ∨ request.status = .preempted →
      l.s.kvCacheManager.allocateSlots request c.newComputedBlocks c.numNewLocalComputedTokens
        (l.waitingArgs request c numNewTokens) = .ok (some newBlocks, kvCacheManager) →
      (id :: waiting).Perm l.s.waiting → AllocatedInputs request t l.s.encoderCache encoderCache' →
      Move env (.wait, l)
        (.wait, l.recordAdmitted request c numNewTokens t kvCacheManager encoderCache' waiting)

abbrev Moves (env : ScheduleEnv) : Phase × ScheduleLocals → Phase × ScheduleLocals → Prop :=
  ReflTransGen (Move env)

variable {env : ScheduleEnv}

variable {request : Request} {t : EncoderTry}

lemma allocateEncoder_eq_ok
    (h : l.allocateEncoder request t = .ok l') : ∃ encoderCache,
      AllocatedInputs request t l.s.encoderCache encoderCache ∧
      l' = { l with
        scheduledEncoderInputs := if t.encoderInputsToSchedule = [] then l.scheduledEncoderInputs
          else l.scheduledEncoderInputs.set request.requestId t.encoderInputsToSchedule
        encoderComputeBudget := if t.encoderInputsToSchedule = [] then l.encoderComputeBudget
          else t.encoderComputeBudget
        s := { l.s with encoderCache } } := by
  obtain ⟨c₁, h1, h⟩ := bind_eq_ok.mp h
  obtain ⟨c2, h2, h⟩ := bind_eq_ok.mp h
  refine ⟨c2, ⟨c₁, h1, h2⟩, ?_⟩
  split at h
  · rename_i hnil
    rw [pure_eq_ok, ok.injEq] at h
    rw [if_pos hnil, if_pos hnil, ← h]
  · rename_i hnil
    rw [pure_eq_ok, ok.injEq] at h
    rw [if_neg hnil, if_neg hnil, ← h]

variable {numNewTokens : ℤ}

lemma scheduleRunning_eq_ok {newBlocks : List (List BlockId)}
    (h : l.scheduleRunning request numNewTokens newBlocks t = .ok l') : ∃ encoderCache,
      AllocatedInputs request t l.s.encoderCache encoderCache ∧
      l' = l.recordRunning request numNewTokens newBlocks t l.s.kvCacheManager encoderCache := by
  obtain ⟨encoderCache, halloc, rfl⟩ := allocateEncoder_eq_ok h
  exact ⟨encoderCache, halloc, rfl⟩

variable {fuel : ℕ}

variable {c : ComputedTokens} {newBlocks : Option (List (List BlockId))}

lemma allocateRunning_cases (hreq : l.s.requests.get? id = some request)
    (h : allocateRunning id numNewTokens fuel l = .ok (newBlocks, l')) : ∃ blocks kvCacheManager,
      l.s.kvCacheManager.allocateSlots request l.s.kvCacheManager.emptyKvCacheBlocks 0
        { numNewTokens, numLookaheadTokens := l.s.config.numLookaheadTokens } = .ok (blocks, kvCacheManager) ∧
      ((∃ b, blocks = some b ∧ newBlocks = some b ∧ l' = { l with s := { l.s with kvCacheManager } }) ∨
        ∃ victim l2, blocks = none ∧ { l with s := { l.s with kvCacheManager } }.preempt = .ok (victim, l2) ∧
          (victim = id ∧ newBlocks = none ∧ l' = l2 ∨ victim ≠ id ∧ ∃ fuel', fuel = fuel' + 1 ∧
              allocateRunning id numNewTokens fuel' l2 = .ok (newBlocks, l'))) := by
  unfold allocateRunning at h
  obtain ⟨request', hreq', h⟩ := bind_eq_ok.mp h
  obtain rfl := some.inj (hreq.symm.trans (request_eq_ok.mp hreq'))
  obtain ⟨⟨blocks, kvCacheManager⟩, halloc, h⟩ := bind_eq_ok.mp h
  refine ⟨blocks, kvCacheManager, halloc, ?_⟩
  cases blocks with
  | some b =>
    obtain ⟨rfl, rfl⟩ := ok_pair_inj h
    exact .inl ⟨b, rfl, rfl, rfl⟩
  | none =>
    obtain ⟨⟨victim, l2⟩, hpre, h⟩ := bind_eq_ok.mp h
    refine .inr ⟨victim, l2, rfl, hpre, ?_⟩
    dsimp only at h
    split at h
    · rename_i hself
      obtain ⟨rfl, rfl⟩ := ok_pair_inj h
      exact .inl ⟨hself, rfl, rfl⟩
    · rename_i hself
      cases fuel with
      | zero => cases h
      | succ fuel => exact .inr ⟨hself, fuel, rfl, h⟩

lemma allocateRunning_moves (env : ScheduleEnv) (t : EncoderTry) (hkeys : KeysOk l.s.requests)
    (hreq : l.s.requests.get? id = some request)
    (h : allocateRunning id numNewTokens fuel l = .ok (newBlocks, l')) :
    (newBlocks = none ∧ Moves env (.running id numNewTokens t, l) (.scan, l')) ∨
    ∃ blocks l₁ kvCacheManager, newBlocks = some blocks ∧
      Moves env (.running id numNewTokens t, l) (.running id numNewTokens t, l₁) ∧
      l₁.s.requests.get? id = some request ∧ l₁.s.config = l.s.config ∧
      l₁.s.kvCacheManager.allocateSlots request l₁.s.kvCacheManager.emptyKvCacheBlocks 0
        { numNewTokens, numLookaheadTokens := l₁.s.config.numLookaheadTokens } =
        .ok (some blocks, kvCacheManager) ∧ l' = { l₁ with s := { l₁.s with kvCacheManager } } := by
  induction fuel using Nat.strongRecOn generalizing l with | _ fuel ih
  obtain ⟨blocks, kvCacheManager, halloc, hcase⟩ := allocateRunning_cases hreq h
  obtain ⟨b, rfl, rfl, rfl⟩ | ⟨victim, l2, rfl, hpre, hcase⟩ := hcase
  · exact .inr ⟨b, l, kvCacheManager, rfl, .refl, hreq, rfl, halloc, rfl⟩
  have hpreempted := preempt_preempted hpre hkeys
  obtain ⟨rfl, rfl, rfl⟩ | ⟨hne, fuel', hfuel, h⟩ := hcase
  · exact .inl ⟨rfl, .head (.noBlocks hreq halloc) (.single (.preemptSelf hpreempted))⟩
  have hreq2 : l2.s.requests.get? id = some request := (hpreempted.get?_of_ne hkeys hne).trans hreq
  have hhead : Moves env (.running id numNewTokens t, l) (.running id numNewTokens t, l2) :=
    .head (.noBlocks hreq halloc) (.single (.preempt hne hpreempted))
  have hlt : fuel' < fuel := hfuel ▸ Nat.lt_succ_self fuel'
  obtain ⟨hnone, hmoves⟩ | ⟨b, l3, k3, hsome, hmoves, hreq3, hconfig, halloc3, hl'⟩ :=
    ih fuel' hlt (hpreempted.keysOk hkeys) hreq2 h
  · exact .inl ⟨hnone, hhead.trans hmoves⟩
  · exact .inr ⟨b, l3, k3, hsome, hhead.trans hmoves, hreq3, hconfig.trans hpreempted.config, halloc3, hl'⟩

variable {goOn : Bool}

lemma runningStep_moves (hkeys : KeysOk l.s.requests)
    (hid : l.s.running[l.reqIndex]? = some id) (hbudget : 0 < l.tokenBudget)
    (h : l.runningStep env id = .ok (goOn, l')) : Moves env (.scan, l) (.scan, l') := by
  obtain ⟨request, hreq, h⟩ := bind_eq_ok.mp h
  rw [request_eq_ok] at hreq
  split at h
  · obtain ⟨rfl, rfl⟩ := ok_pair_inj h
    exact .single (.pass hid)
  · rename_i hdone
    obtain ⟨t, ht, h⟩ := bind_eq_ok.mp h
    obtain ⟨numNewTokens, hn, h⟩ := bind_eq_ok.mp h
    split at h
    · obtain ⟨rfl, rfl⟩ := ok_pair_inj h
      exact .single (.passInputs hid hreq ht)
    · rename_i hzero
      obtain ⟨⟨newBlocks, l₁⟩, halloc, h⟩ := bind_eq_ok.mp h
      have hplan : RunningPlan l.s.config env l.s.encoderCache l.tokenBudget
          l.encoderComputeBudget request numNewTokens t :=
        ⟨by simpa using hdone, ht, hn, hzero⟩
      have hbegin := Move.plan hid hbudget hreq hplan
      obtain ⟨rfl, hmoves⟩ | ⟨b, l2, k, rfl, hmoves, hreq2, hconfig, hok, rfl⟩ :=
        allocateRunning_moves env t (l := { l with
          s := { l.s with encoderCache := t.encoderCache } }) hkeys hreq halloc
      · obtain ⟨rfl, rfl⟩ := ok_pair_inj h
        exact .head hbegin hmoves
      · obtain ⟨request', hreq', h⟩ := bind_eq_ok.mp h
        obtain rfl := some.inj (hreq2.symm.trans (request_eq_ok.mp hreq'))
        obtain ⟨l3, hsched, h⟩ := bind_eq_ok.mp h
        obtain ⟨rfl, rfl⟩ := ok_pair_inj h
        obtain ⟨encoderCache, hinputs, rfl⟩ := scheduleRunning_eq_ok hsched
        have hplan2 : RunningPlan l2.s.config env l.s.encoderCache l.tokenBudget
            l.encoderComputeBudget request numNewTokens t := hconfig ▸ hplan
        exact .head hbegin (hmoves.tail (.schedule hreq2 hbudget hplan2 hok hinputs))

abbrev WaitMoves (env : ScheduleEnv) : ScheduleLocals → ScheduleLocals → Prop :=
  ReflTransGen fun l l' => Move env (.wait, l) (.wait, l')

lemma WaitMoves.moves (h : WaitMoves env l l') : Moves env (.wait, l) (.wait, l') := by
  induction h with
  | refl => exact .refl
  | tail _ hmove ih => exact ih.tail hmove

lemma WaitMoves.preemptedReqs (h : WaitMoves env l l') : l'.preemptedReqs = l.preemptedReqs := by
  induction h with
  | refl => rfl
  | tail _ hmove ih =>
    rw [← ih]
    cases hmove <;> rfl

lemma skip_eq_ok (hpeek : l.s.waiting.peekRequest = some id)
    (h : l.skip id = .ok l') : ∃ waiting skipped, (id :: waiting).Perm l.s.waiting ∧
      skipped.Perm (id :: l.skippedWaitingRequests) ∧
      l' = { l with s := { l.s with waiting }, skippedWaitingRequests := skipped } := by
  unfold skip at h
  split at h
  · cases h
  · rename_i id' waiting hpop
    obtain ⟨hpeek', hperm⟩ := RequestQueue.popRequest_spec hpop
    obtain rfl := some.inj (hpeek.symm.trans hpeek')
    obtain rfl := ok.inj h
    exact ⟨waiting, _, hperm, RequestQueue.prependRequest_perm _, rfl⟩

lemma getComputedTokens_counted {c : Option ComputedTokens} {s' : Scheduler}
    (hreq : l.s.requests.get? request.requestId = some request)
    (h : l.getComputedTokens env request = .ok (c, s')) :
    ∃ request', s'.requests.get? request.requestId = some request' ∧
      (s' = l.s ∨ l.s.config.hasConnector = true ∧ ∃ numExternalComputedTokens,
        request' = { request with numExternalComputedTokens } ∧ s' = l.s.setRequest request') ∧
      ∀ c', c = some c' → Counted s'.config s'.kvCacheManager request' c' := by
  unfold getComputedTokens at h
  split at h
  · rename_i hzero
    obtain ⟨⟨blocks, n⟩, hblocks, h⟩ := bind_eq_ok.mp h
    dsimp only at h
    split at h
    · rename_i hconn
      split at h
      · obtain ⟨rfl, rfl⟩ := ok_pair_inj h
        exact ⟨request, hreq, .inl rfl, fun c' hc' => by cases hc'⟩
      · obtain ⟨rfl, rfl⟩ := ok_pair_inj h
        refine ⟨_, get?_set_self _ _ _, .inr ⟨hconn, _, rfl, rfl⟩, fun c' hc' => ?_⟩
        obtain rfl := some.inj hc'
        exact ⟨by simp [hzero], fun _ => hblocks, fun hne => absurd hzero hne,
          fun hno => by cases hconn.symm.trans hno⟩
    · obtain ⟨rfl, rfl⟩ := ok_pair_inj h
      refine ⟨request, hreq, .inl rfl, fun c' hc' => ?_⟩
      obtain rfl := some.inj hc'
      exact ⟨by simp [hzero], fun _ => hblocks, fun hne => absurd hzero hne, fun _ => ⟨rfl, rfl⟩⟩
  · rename_i hne
    obtain ⟨rfl, rfl⟩ := ok_pair_inj h
    refine ⟨request, hreq, .inl rfl, fun c' hc' => ?_⟩
    obtain rfl := some.inj hc'
    exact ⟨by simp, fun hzero => absurd hzero hne, fun _ => ⟨rfl, rfl, rfl, rfl⟩, fun _ => ⟨rfl, rfl⟩⟩

variable {a b : Phase × ScheduleLocals}

lemma Move.keysOk (h : Move env a b) (hkeys : KeysOk a.2.s.requests) : KeysOk b.2.s.requests := by
  cases h with
  | pass | passInputs | plan | noBlocks | loras | skip | inputs | refuse => exact hkeys
  | preempt hne hp => exact hp.keysOk hkeys
  | preemptSelf hp => exact hp.keysOk hkeys
  | schedule => exact hkeys.set rfl
  | check hpre hpeek hreq hc => exact hc.keysOk hkeys
  | count hpre hpeek hreq hc =>
    obtain rfl := hkeys _ _ hreq
    obtain ⟨request', -, rfl | ⟨-, _, rfl, rfl⟩, -⟩ := getComputedTokens_counted hreq hc
    · exact hkeys
    · exact hkeys.set rfl
  | startAsync hpre hreq =>
    have hid := hkeys _ _ hreq
    exact hkeys.set hid
  | admitted => exact hkeys.set rfl

lemma Move.config (h : Move env a b) (hkeys : KeysOk a.2.s.requests) : b.2.s.config = a.2.s.config := by
  cases h with
  | pass | passInputs | plan | noBlocks | loras | skip | inputs | refuse => rfl
  | schedule | startAsync | admitted => rfl
  | preempt hne hp => exact hp.config
  | preemptSelf hp => exact hp.config
  | check hpre hpeek hreq hc => exact hc.config
  | count hpre hpeek hreq hc =>
    obtain rfl := hkeys _ _ hreq
    obtain ⟨request', -, rfl | ⟨-, _, rfl, rfl⟩, -⟩ := getComputedTokens_counted hreq hc <;> rfl

lemma admit_eq_ok (h : l.admitRequest request c numNewTokens t = .ok l') :
    (request.status = .waiting ∨ request.status = .preempted) ∧ ∃ encoderCache,
      AllocatedInputs request t l.s.encoderCache encoderCache ∧
      l' = l.recordAdmitted request c numNewTokens t l.s.kvCacheManager encoderCache l.s.waiting := by
  obtain ⟨_, hstatus, h⟩ := bind_eq_ok.mp h
  obtain ⟨encoderCache, halloc, rfl⟩ := allocateEncoder_eq_ok h
  exact ⟨ensure_eq_ok.mp hstatus, encoderCache, halloc, rfl⟩

lemma startWaiting_moves (encoderCache : EncoderCache) (hpre : l.preemptedReqs = [])
    (hpeek : l.s.waiting.peekRequest = some id) (hroom : l.s.running.length ≠ l.s.config.maxNumRunningReqs)
    (hreq : l.s.requests.get? id = some request) (hid : request.requestId = id)
    (hstatus : request.status ≠ .waitingForStreamingReq) (hc : Counted l.s.config l.s.kvCacheManager request c)
    (hn : { l with s := { l.s with encoderCache } }.numNewTokensWaiting env request c =
      .ok (some numNewTokens, t)) (ht : t.encoderCache = l.s.encoderCache)
    (h : l.startWaiting request c numNewTokens t = .ok (goOn, l')) : WaitMoves env l l' := by
  subst hid
  obtain ⟨⟨newBlocks, kvCacheManager⟩, halloc, h⟩ := bind_eq_ok.mp h
  cases newBlocks with
  | none =>
    obtain ⟨enc, henc, h⟩ := bind_eq_ok.mp h
    obtain ⟨rfl, rfl⟩ := ok_pair_inj h
    exact .single (.refuse hpre hpeek hreq hc halloc henc)
  | some blocks =>
    dsimp only at h
    split at h
    · rename_i hasync
      obtain ⟨l₁, hskip, h⟩ := bind_eq_ok.mp h
      obtain ⟨waiting, skipped, hwaiting, hskipped, rfl⟩ := skip_eq_ok (by exact hpeek) hskip
      obtain ⟨rfl, rfl⟩ := ok_pair_inj h
      exact .single (.startAsync hpre hreq hstatus hc hasync halloc hwaiting hskipped)
    · rename_i hasync
      split at h
      · cases h
      · rename_i id' waiting hpop
        obtain ⟨hpeek', hwaiting⟩ := RequestQueue.popRequest_spec hpop
        obtain rfl := some.inj (hpeek.symm.trans hpeek')
        obtain ⟨l₁, hadmit, h⟩ := bind_eq_ok.mp h
        obtain ⟨rfl, rfl⟩ := ok_pair_inj h
        obtain ⟨hready, enc, hinputs, rfl⟩ := admit_eq_ok hadmit
        exact .single (.admitted hpre hroom hreq hc (by simpa using hasync) hn ht hready halloc
          hwaiting hinputs)

lemma waitingStep_moves (hkeys : KeysOk l.s.requests)
    (hpre : l.preemptedReqs = []) (hpeek : l.s.waiting.peekRequest = some id)
    (hroom : l.s.running.length ≠ l.s.config.maxNumRunningReqs)
    (h : l.waitingStep env id = .ok (goOn, l')) : WaitMoves env l l' := by
  obtain ⟨request, hreq, h⟩ := bind_eq_ok.mp h
  rw [request_eq_ok] at hreq
  obtain rfl := hkeys id request hreq
  obtain ⟨⟨skipped, s1⟩, hcheck, h⟩ := bind_eq_ok.mp h
  have hchecked := checkStatus_checked hreq hcheck
  have hmove1 : Move env (.wait, l) (.wait, { l with s := s1 }) := .check hpre hpeek hreq hchecked
  have hpeek1 : s1.waiting.peekRequest = some request.requestId := by
    rw [hchecked.waiting]
    exact hpeek
  have hskips : ∀ {l₁ l2 : ScheduleLocals}, l₁.preemptedReqs = [] →
      l₁.s.waiting.peekRequest = some request.requestId → l₁.skip request.requestId = .ok l2 →
      Move env (.wait, l₁) (.wait, l2) := by
    intro l₁ l2 hpre1 hpeek1 hskip
    obtain ⟨waiting, skipped, hwaiting, hskipped, rfl⟩ := skip_eq_ok hpeek1 hskip
    exact .skip hpre1 hwaiting hskipped
  dsimp only at h
  split at h
  · obtain ⟨l2, hskip, h⟩ := bind_eq_ok.mp h
    obtain ⟨rfl, rfl⟩ := ok_pair_inj h
    exact .head hmove1 (.single (hskips hpre hpeek1 hskip))
  · rename_i hskipped
    obtain rfl : skipped = false := by simpa using hskipped
    obtain ⟨request1, hreq1, h⟩ := bind_eq_ok.mp h
    rw [request_eq_ok] at hreq1
    have hid1 := hchecked.keysOk hkeys _ request1 hreq1
    have hstatus1 := hchecked.status_ne hreq hreq1
    split at h
    · obtain ⟨l2, hskip, h⟩ := bind_eq_ok.mp h
      obtain ⟨rfl, rfl⟩ := ok_pair_inj h
      exact .head hmove1 (.single (hskips hpre hpeek1 hskip))
    · obtain ⟨⟨c, s2⟩, hcount, h⟩ := bind_eq_ok.mp h
      have hmove2 : Move env (.wait, { l with s := s1 }) (.wait, { l with s := s2 }) :=
        .count hpre hpeek1 hreq1 hcount
      obtain ⟨request2, hreq2, hs2, hcounted⟩ := getComputedTokens_counted (by rw [hid1]; exact hreq1) hcount
      rw [hid1] at hreq2
      have hkeys2 := hmove2.keysOk (hchecked.keysOk hkeys)
      have hstatus2 : request2.status ≠ .waitingForStreamingReq := by
        rcases hs2 with rfl | ⟨-, _, hr, -⟩
        · obtain rfl := some.inj (hreq1.symm.trans hreq2)
          exact hstatus1
        · rw [hr]
          exact hstatus1
      have hpeek2 : s2.waiting.peekRequest = some request.requestId := by
        rcases hs2 with rfl | ⟨-, _, -, rfl⟩ <;> exact hpeek1
      have hroom2 : s2.running.length ≠ s2.config.maxNumRunningReqs := by
        have hroom1 : s1.running.length ≠ s1.config.maxNumRunningReqs := by
          rw [hchecked.running, hchecked.config]
          exact hroom
        rcases hs2 with rfl | ⟨-, _, -, rfl⟩ <;> exact hroom1
      cases c with
      | none =>
        obtain ⟨l2, hskip, h⟩ := bind_eq_ok.mp h
        obtain ⟨rfl, rfl⟩ := ok_pair_inj h
        exact .head hmove1 (.head hmove2 (.single (hskips hpre hpeek2 hskip)))
      | some c =>
        obtain ⟨request', hreq', h⟩ := bind_eq_ok.mp h
        obtain rfl := some.inj (hreq2.symm.trans (request_eq_ok.mp hreq'))
        obtain ⟨⟨numNewTokens, t⟩, hn, h⟩ := bind_eq_ok.mp h
        have hmove3 : Move env (.wait, { l with s := s2 })
            (.wait, { l with s := { s2 with encoderCache := t.encoderCache } }) :=
          .inputs hpre hreq2 hn
        refine .head hmove1 (.head hmove2 (.head hmove3 ?_))
        cases numNewTokens with
        | none =>
          obtain ⟨rfl, rfl⟩ := ok_pair_inj h
          exact .refl
        | some numNewTokens =>
          exact startWaiting_moves s2.encoderCache hpre hpeek2 hroom2 hreq2 (hkeys2 _ _ hreq2)
            hstatus2 (hcounted c rfl) hn rfl h

lemma Moves.keysOk (h : Moves env a b) (hkeys : KeysOk a.2.s.requests) : KeysOk b.2.s.requests := by
  induction h with
  | refl => exact hkeys
  | tail _ hmove ih => exact hmove.keysOk ih

lemma Moves.config (h : Moves env a b) (hkeys : KeysOk a.2.s.requests) : b.2.s.config = a.2.s.config := by
  induction h with
  | refl => rfl
  | tail hmoves hmove ih => rw [hmove.config (Moves.keysOk hmoves hkeys), ih]

lemma Moves.invariant (Inv : Phase → ScheduleLocals → Prop)
    (h : Moves env a b) (hkeys : KeysOk a.2.s.requests) (hstart : Inv a.1 a.2)
    (hmove : ∀ a b, KeysOk a.2.s.requests → Move env a b → Inv a.1 a.2 → Inv b.1 b.2) : Inv b.1 b.2 := by
  induction h with
  | refl => exact hstart
  | tail hmoves hlast ih => exact hmove _ _ (Moves.keysOk hmoves hkeys) hlast ih

lemma runningLoop_moves (hkeys : KeysOk l.s.requests)
    (h : runningLoop env fuel l = .ok l') : Moves env (.scan, l) (.scan, l') := by
  induction fuel generalizing l with
  | zero =>
    obtain rfl := ok.inj h
    exact .refl
  | succ fuel ih =>
    unfold runningLoop at h
    split at h
    · obtain rfl := ok.inj h
      exact .refl
    · rename_i id hid
      split at h
      · rename_i hbudget
        obtain ⟨⟨goOn, l₁⟩, hstep, h⟩ := bind_eq_ok.mp h
        have hmoves : Moves env (.scan, l) (.scan, l₁) := runningStep_moves hkeys hid hbudget hstep
        dsimp only at h
        split at h
        · exact hmoves.trans (ih (Moves.keysOk hmoves hkeys) h)
        · obtain rfl := ok.inj h
          exact hmoves
      · obtain rfl := ok.inj h
        exact .refl

lemma recordLoras_moves (h : l.recordLoras = .ok l') : Moves env (.scan, l) (.wait, l') := by
  unfold recordLoras at h
  split at h
  · obtain rfl := ok.inj h
    exact .single (.loras l.scheduledLoras)
  · obtain ⟨_, -, h⟩ := bind_eq_ok.mp h
    obtain rfl := ok.inj h
    exact .single (.loras _)

lemma waitingLoop_moves (hkeys : KeysOk l.s.requests) (hpre : l.preemptedReqs = [])
    (h : waitingLoop env fuel l = .ok l') : Moves env (.wait, l) (.wait, l') := by
  induction fuel generalizing l with
  | zero =>
    obtain rfl := ok.inj h
    exact .refl
  | succ fuel ih =>
    unfold waitingLoop at h
    split at h
    · obtain rfl := ok.inj h
      exact .refl
    · rename_i id hid
      split at h
      · rename_i hcond
        obtain ⟨⟨goOn, l₁⟩, hstep, h⟩ := bind_eq_ok.mp h
        have hwaits : WaitMoves env l l₁ := waitingStep_moves hkeys hpre hid hcond.2 hstep
        have hmoves := hwaits.moves
        have hpre1 : l₁.preemptedReqs = [] := hwaits.preemptedReqs.trans hpre
        dsimp only at h
        split at h
        · exact hmoves.trans (ih (Moves.keysOk hmoves hkeys) hpre1 h)
        · obtain rfl := ok.inj h
          exact hmoves
      · obtain rfl := ok.inj h
        exact .refl

lemma loops_moves {s : Scheduler} (hkeys : KeysOk s.requests) (h : loops env s = .ok l') :
    ∃ l, Moves env (.scan, start s) (.wait, l) ∧ ∃ waiting,
      waiting.Perm (l.skippedWaitingRequests ++ l.s.waiting) ∧ l' = { l with s := { l.s with waiting } } := by
  obtain ⟨l₁, hrun, h⟩ := bind_eq_ok.mp h
  obtain ⟨l2, hloras, h⟩ := bind_eq_ok.mp h
  obtain ⟨l3, hwait, h⟩ := bind_eq_ok.mp h
  have hmoves1 : Moves env (.scan, start s) (.scan, l₁) := runningLoop_moves (l := start s) hkeys hrun
  have hmoves2 : Moves env (.scan, start s) (.wait, l2) := hmoves1.trans (recordLoras_moves hloras)
  have hmoves3 : Moves env (.scan, start s) (.wait, l3) := by
    split at hwait
    · rename_i hpre
      exact hmoves2.trans (waitingLoop_moves (Moves.keysOk hmoves2 hkeys) hpre hwait)
    · obtain rfl := ok.inj hwait
      exact hmoves2
  refine ⟨l3, hmoves3, ?_⟩
  split at h
  · rename_i hnil
    obtain rfl := ok.inj h
    exact ⟨l3.s.waiting, by rw [hnil, nil_append], rfl⟩
  · obtain rfl := ok.inj h
    exact ⟨_, RequestQueue.prependRequests_perm _, rfl⟩

end ScheduleLocals

def Request.advanced (request : Request) (numScheduledTokens : ℤ) : Request :=
  { request with
    numComputedTokens := request.numComputedTokens + numScheduledTokens
    isPrefillChunk := request.numComputedTokens + numScheduledTokens <
      request.numTokens + request.numOutputPlaceholders }

def Request.awaiting (request : Request) (numSpecTokens curNumSpecTokens : ℕ) : Request :=
  if request.isPrefillChunk then request
  else { request with
    numOutputPlaceholders := request.numOutputPlaceholders + (1 + curNumSpecTokens)
    specTokenIds := replicate numSpecTokens (-1) }

/-- What `_update_after_schedule` makes of the record of a scheduled request. -/
def Request.afterSchedule (config : SchedulerConfig)
    (scheduledSpecDecodeTokens : Dict RequestId (List TokenId)) (request : Request)
    (numScheduledTokens : ℤ) : Request :=
  let request := request.advanced numScheduledTokens
  if config.asyncScheduling then request.awaiting config.numSpecTokens
    ((scheduledSpecDecodeTokens.get? request.requestId).getD []).length
  else request

namespace Scheduler

variable {s s' : Scheduler}

lemma advanceRequest_eq_ok {id : RequestId} {numScheduledTokens : ℤ}
    (h : s.advanceRequest id numScheduledTokens = .ok s') : ∃ request encoderCache,
      s.requests.get? id = some request ∧ (if request.hasEncoderInputs then
          s.encoderCache.freeEncoderInputs s.config.setOrder (request.advanced numScheduledTokens)
        else .ok s.encoderCache) = .ok encoderCache ∧
      s' = { s with
        encoderCache
        requests := s.requests.set request.requestId (request.advanced numScheduledTokens) } := by
  obtain ⟨request, hreq, h⟩ := bind_eq_ok.mp h
  obtain ⟨encoderCache, henc, h⟩ := bind_eq_ok.mp h
  obtain rfl := ok.inj h
  exact ⟨request, encoderCache, request_eq_ok.mp hreq, henc, rfl⟩

lemma addPlaceholders_eq_ok {spec : Dict RequestId (List TokenId)} {id : RequestId}
    (hkeys : KeysOk s.requests) (h : s.addPlaceholders spec id = .ok s') : ∃ request,
      s.requests.get? id = some request ∧ KeysOk s'.requests ∧ (∃ requests, s' = { s with requests }) ∧
      ∀ x, s'.requests.get? x = if x = id then
        some (request.awaiting s.config.numSpecTokens ((spec.get? id).getD []).length) else s.requests.get? x := by
  obtain ⟨request, hreq, h⟩ := bind_eq_ok.mp h
  rw [request_eq_ok] at hreq
  refine ⟨request, hreq, ?_⟩
  split at h
  · obtain rfl := ok.inj h
    refine ⟨hkeys, ⟨s.requests, rfl⟩, fun x => ?_⟩
    rw [awaiting]
    split
    · rename_i hx
      rw [hx, hreq]
    · rfl
  · rename_i hchunk
    obtain rfl := ok.inj h
    have hid := hkeys id request hreq
    refine ⟨hkeys.set rfl, ⟨_, rfl⟩, fun x => ?_⟩
    rw [awaiting, if_neg hchunk, setRequest_requests, get?_set, hid]

lemma advanceAll_spec {entries : List (RequestId × ℤ)} (hnd : (entries.map Prod.fst).Nodup)
    (h : advanceAll entries s = .ok s') (hkeys : KeysOk s.requests) :
    KeysOk s'.requests ∧ (∃ requests encoderCache, s' = { s with requests, encoderCache }) ∧
      ∀ x, s'.requests.get? x = match entries.lookup x with
        | none => s.requests.get? x
        | some n => (s.requests.get? x).map fun r => r.advanced n := by
  induction entries generalizing s with
  | nil =>
    obtain rfl := ok.inj h
    exact ⟨hkeys, ⟨_, _, rfl⟩, fun x => rfl⟩
  | cons e rest ih =>
    obtain ⟨id, n⟩ := e
    rw [map_cons, nodup_cons] at hnd
    obtain ⟨s1, h1, hrest⟩ := bind_eq_ok.mp h
    obtain ⟨request, encoderCache, hreq, -, rfl⟩ := advanceRequest_eq_ok h1
    obtain rfl := hkeys id request hreq
    obtain ⟨hkeys', ⟨requests, enc, rfl⟩, hget⟩ := ih hnd.2 hrest (hkeys.set rfl)
    refine ⟨hkeys', ⟨requests, enc, rfl⟩, fun x => ?_⟩
    rw [hget x, lookup_cons_ite]
    by_cases hx : x = request.requestId
    · subst hx
      have hnone : rest.lookup request.requestId = none := by
        rw [lookup_eq_none_iff]
        intro e he
        have hne : request.requestId ≠ e.1 := fun h => hnd.1 (mem_map.mpr ⟨e, he, h.symm⟩)
        simpa using hne
      rw [hnone, if_pos rfl, hreq]
      exact get?_set_self _ _ _
    · rw [if_neg hx, get?_set_of_ne _ _ hx]

lemma addPlaceholdersAll_spec {spec : Dict RequestId (List TokenId)} {ids : List RequestId}
    (hnd : ids.Nodup) (h : addPlaceholdersAll spec ids s = .ok s') (hkeys : KeysOk s.requests) :
    KeysOk s'.requests ∧ (∃ requests, s' = { s with requests }) ∧
      ∀ x, s'.requests.get? x = if x ∈ ids then (s.requests.get? x).map fun r =>
          r.awaiting s.config.numSpecTokens ((spec.get? x).getD []).length else s.requests.get? x := by
  induction ids generalizing s with
  | nil =>
    obtain rfl := ok.inj h
    exact ⟨hkeys, ⟨_, rfl⟩, fun x => by simp⟩
  | cons id rest ih =>
    rw [nodup_cons] at hnd
    obtain ⟨s1, h1, hrest⟩ := bind_eq_ok.mp h
    obtain ⟨request, hreq, hkeys1, ⟨requests1, rfl⟩, hget1⟩ := addPlaceholders_eq_ok hkeys h1
    obtain ⟨hkeys', ⟨requests, rfl⟩, hget⟩ := ih hnd.2 hrest hkeys1
    refine ⟨hkeys', ⟨requests, rfl⟩, fun x => ?_⟩
    rw [hget x, hget1 x]
    by_cases hx : x = id
    · subst hx
      rw [if_neg hnd.1, if_pos rfl, if_pos mem_cons_self, hreq]
      rfl
    · simp only [hx, if_false, mem_cons, false_or]

lemma updateAfterSchedule_spec {output : SchedulerOutput}
    (h : s.updateAfterSchedule output = .ok s') (hkeys : KeysOk s.requests) : KeysOk s'.requests ∧
      (∃ requests encoderCache, s' = { s with requests, encoderCache, finishedReqIds := ∅ }) ∧
      ∀ x, s'.requests.get? x = match output.numScheduledTokens.get? x with
        | none => s.requests.get? x
        | some n => (s.requests.get? x).map fun r =>
          r.afterSchedule s.config output.scheduledSpecDecodeTokens n := by
  obtain ⟨s1, h1, h⟩ := bind_eq_ok.mp h
  obtain ⟨hkeys1, ⟨requests1, enc1, rfl⟩, hget1⟩ := advanceAll_spec output.numScheduledTokens.nodup_keys h1 hkeys
  have hget1 : ∀ x, requests1.get? x = match output.numScheduledTokens.get? x with
        | none => s.requests.get? x
        | some n => (s.requests.get? x).map fun r => r.advanced n := hget1
  dsimp only at h
  split at h
  · rename_i hasync
    have hnd : output.numScheduledTokens.keys.Nodup := output.numScheduledTokens.nodup_keys
    obtain ⟨hkeys2, ⟨requests2, rfl⟩, hget2⟩ := addPlaceholdersAll_spec hnd h hkeys1
    refine ⟨hkeys2, ⟨requests2, enc1, rfl⟩, fun x => ?_⟩
    have hmem := output.numScheduledTokens.mem_keys_iff x
    rw [Dict.contains] at hmem
    rw [hget2 x, hget1 x]
    cases hn : output.numScheduledTokens.get? x with
    | none =>
      rw [if_neg (by simp [hmem, hn])]
    | some n =>
      rw [if_pos (by simp [hmem, hn])]
      cases hr : s.requests.get? x with
      | none => simp
      | some r =>
        have hid := hkeys x r hr
        simp [afterSchedule, hasync, advanced, hid]
  · rename_i hasync
    obtain rfl := ok.inj h
    refine ⟨hkeys1, ⟨requests1, enc1, rfl⟩, fun x => ?_⟩
    rw [hget1 x]
    simp only [afterSchedule, hasync]
    rfl

end Scheduler

namespace ScheduleLocals

variable {l : ScheduleLocals}

structure Reported (l : ScheduleLocals) (output : SchedulerOutput) : Prop where
  numScheduledTokens : output.numScheduledTokens = l.numScheduledTokens
  total : output.totalNumScheduledTokens = l.numScheduledTokens.values.sum
  spec : output.scheduledSpecDecodeTokens = l.scheduledSpecDecodeTokens
  inputs : output.scheduledEncoderInputs = l.scheduledEncoderInputs
  preempted : output.preemptedReqIds = l.preemptedReqs
  budget : l.numScheduledTokens.values.sum ≤ l.s.config.maxNumScheduledTokens
  running : l.s.running.length ≤ l.s.config.maxNumRunningReqs

lemma makeOutput_reported {output : SchedulerOutput} (h : l.makeOutput = .ok output) : Reported l output := by
  obtain ⟨_, hbudget, h⟩ := bind_eq_ok.mp h
  obtain ⟨_, -, h⟩ := bind_eq_ok.mp h
  obtain ⟨_, hrunning, h⟩ := bind_eq_ok.mp h
  obtain ⟨_, -, h⟩ := bind_eq_ok.mp h
  obtain ⟨newReqs, -, h⟩ := bind_eq_ok.mp h
  obtain ⟨d, -, h⟩ := bind_eq_ok.mp h
  obtain ⟨cached, -, h⟩ := bind_eq_ok.mp h
  obtain rfl := ok.inj h
  exact ⟨rfl, rfl, rfl, rfl, rfl, ensure_eq_ok.mp hbudget, ensure_eq_ok.mp hrunning⟩

end ScheduleLocals

/-- A call of `schedule`: the moves, the skipped requests, the output and the advanced records. -/
theorem Scheduler.schedule_eq_ok {s s' : Scheduler} {env : ScheduleEnv} {output : SchedulerOutput}
    (hkeys : KeysOk s.requests) (h : s.schedule env = .ok (output, s')) :
    ∃ l waiting, ScheduleLocals.Moves env (.scan, .start s) (.wait, l) ∧
      waiting.Perm (l.skippedWaitingRequests ++ l.s.waiting) ∧
      { l with s := { l.s with waiting } }.makeOutput = .ok output ∧
      { l.s with
        waiting
        prevStepScheduledReqIds := output.numScheduledTokens.keys.toFinset
        encoderCache := l.s.encoderCache.getFreedMmHashes.2 }.updateAfterSchedule output = .ok s' := by
  obtain ⟨l₁, hloops, h⟩ := bind_eq_ok.mp h
  obtain ⟨out, hout, h⟩ := bind_eq_ok.mp h
  obtain ⟨s1, hupdate, h⟩ := bind_eq_ok.mp h
  obtain ⟨rfl, rfl⟩ := ok_pair_inj h
  obtain ⟨l, hmoves, waiting, hwaiting, rfl⟩ := ScheduleLocals.loops_moves hkeys hloops
  exact ⟨l, waiting, hmoves, hwaiting, hout, hupdate⟩

end CustomAi.Vllm
