import CustomAi.Vllm.LoadBlocks
import CustomAi.Vllm.ScheduleMoves

/-!
# Requests that wait for a remote KV load

`schedule` allocates blocks for the locally cached and the external tokens of a request and lets it
wait; when the load is done, `_update_waiting_for_remote_kv` derives the number of computed tokens
from the number of these blocks and not from the number of tokens that were loaded.
-/

namespace CustomAi.Vllm

open List Option Except KVCacheManager Scheduler Dict

namespace Scheduler

variable {s s' : Scheduler} {request : Request} {m : SingleTypeKVCacheManager}

/-- Only loaded or cached tokens count as computed, and enter the prefix cache. -/
structure OnlyLoaded (requestId : RequestId) (numTokens : ℕ) (s s' : Scheduler) : Prop where
  computed : ∀ request, s'.requests.get? requestId = some request → request.numComputedTokens ≤ numTokens
  cached : ∀ m ∈ s.kvCacheManager.singleTypeManagers, ∀ b, (s.kvCacheManager.blockPool.blocks b).blockHash = none →
    (s'.kvCacheManager.blockPool.blocks b).blockHash ≠ none →
    ∃ i, (m.reqBlocks requestId)[i]? = some b ∧ (i + 1) * m.blockSize ≤ numTokens

theorem updateWaitingForRemoteKv_onlyLoaded_iff {numTokens : ℕ}
    (hm : s.kvCacheManager.singleTypeManagers = [m]) (hfailed : request.requestId ∉ s.failedRecvingKvReqIds)
    (hok : s.updateWaitingForRemoteKv request = .ok (true, s')) : OnlyLoaded request.requestId numTokens s s' ↔
      (m.reqBlocks request.requestId).length * s.config.blockSize ≤ numTokens ∨
        request.numTokens ≤ numTokens + 1 := by
  obtain ⟨_, -, hok⟩ := bind_eq_ok.mp hok
  dsimp only at hok
  split at hok
  · cases (ok_pair_inj hok).1
  · have hids : s.kvCacheManager.getBlockIds request.requestId = [m.reqBlocks request.requestId] := by
      unfold getBlockIds
      rw [hm, map_singleton]
    rw [hids] at hok
    obtain ⟨k, hcache, hok⟩ := bind_eq_ok.mp hok
    obtain ⟨-, rfl⟩ := ok_pair_inj hok
    set n : ℤ := if min (((m.reqBlocks request.requestId).length : ℤ) * s.config.blockSize)
        (request.numTokens : ℤ) = request.numTokens then
          min (((m.reqBlocks request.requestId).length : ℤ) * s.config.blockSize) (request.numTokens : ℤ) - 1
        else min (((m.reqBlocks request.requestId).length : ℤ) * s.config.blockSize)
          (request.numTokens : ℤ) with hn
    have hcount : n ≤ numTokens ↔ (m.reqBlocks request.requestId).length * s.config.blockSize ≤ numTokens ∨
          request.numTokens ≤ numTokens + 1 := by
      rw [hn]
      split <;> omega
    rw [← hcount]
    constructor
    · intro h
      exact h.computed { request with numComputedTokens := n } (get?_set_self _ _ _)
    · refine fun hle => ⟨fun r hr => ?_, fun m' hm' b hnone hsome => ?_⟩
      · obtain rfl := some.inj ((get?_set_self _ _ _).symm.trans hr)
        exact hle
      · rw [hm, mem_singleton] at hm'
        subst hm'
        obtain ⟨i, hget, hi⟩ := cacheBlocks_entered hm hcache fun h => hsome (h.trans hnone)
        exact ⟨i, hget, hi.trans (Int.toNat_le.mpr hle)⟩

lemma updateWaitingForRemoteKv_one (hfailed : request.requestId ∉ s.failedRecvingKvReqIds)
    (hok : s.updateWaitingForRemoteKv request = .ok (true, s')) :
    ∃ m, s.kvCacheManager.singleTypeManagers = [m] := by
  obtain ⟨_, -, hok⟩ := bind_eq_ok.mp hok
  dsimp only at hok
  split at hok
  · cases (ok_pair_inj hok).1
  · split at hok
    · rename_i blockIds hids
      obtain ⟨m, hm, -⟩ := map_eq_singleton_iff.mp hids
      exact ⟨m, hm⟩
    · cases hok

/-- The encoder tokens that `schedule` passes for the request. -/
def numEncoderTokens (s : Scheduler) (request : Request) : ℕ :=
  if s.isEncoderDecoder && request.hasEncoderInputs then s.config.numEncoderMaxInputTokens else 0

variable {request' : Request} {skipped : Bool}

lemma checkStatus_status_ne {env : ScheduleEnv}
    (hreq : s.requests.get? request.requestId = some request) (hok : s.checkStatus env request = .ok (false, s'))
    (hreq' : s'.requests.get? request.requestId = some request') : request'.status ≠ .waitingForRemoteKvs := by
  unfold checkStatus at hok
  split at hok
  · obtain ⟨⟨isReady, s1⟩, hready, hrest⟩ := bind_eq_ok.mp hok
    cases isReady with
    | false => cases (ok_pair_inj hrest).1
    | true =>
      obtain ⟨request1, hreq1, hrest⟩ := bind_eq_ok.mp hrest
      obtain ⟨-, rfl⟩ := ok_pair_inj hrest
      rw [request_eq_ok] at hreq1
      have hid : request1.requestId = request.requestId := by
        obtain ⟨-, ⟨hfalse, -⟩ | ⟨-, _, _, _, _, requests, -, hset, rfl⟩⟩ := updateWaitingForRemoteKv_cases hready
        · cases hfalse
        · rcases hset with ⟨rfl, -⟩ | rfl
          · rw [some.inj (hreq.symm.trans hreq1)]
          · rw [get?_set_self] at hreq1
            rw [← some.inj hreq1]
      rw [setRequest_requests, hid, get?_set_self] at hreq'
      rw [← some.inj hreq']
      split <;> exact nofun
  · split at hok
    · obtain ⟨-, rfl⟩ := ok_pair_inj hok
      rw [setRequest_requests, get?_set_self] at hreq'
      rw [← some.inj hreq']
      exact nofun
    · cases (ok_pair_inj hok).1
  · obtain ⟨_, -, hok⟩ := bind_eq_ok.mp hok
    cases (ok_pair_inj hok).1
  · rename_i hstatus _ _
    obtain ⟨-, rfl⟩ := ok_pair_inj hok
    rw [← some.inj (hreq.symm.trans hreq')]
    exact hstatus

lemma Checked.requestId (h : Checked s request skipped s')
    (hreq : s.requests.get? request.requestId = some request)
    (hreq' : s'.requests.get? request.requestId = some request') : request'.requestId = request.requestId := by
  cases h with
  | kept => rw [← some.inj (hreq.symm.trans hreq')]
  | compiled =>
    rw [setRequest_requests, get?_set_self] at hreq'
    rw [← some.inj hreq']
  | received =>
    rw [get?_set_self] at hreq'
    rw [← some.inj hreq']

lemma Checked.reaches (h : Checked s request skipped s') {k₀ : KVCacheManager}
    (hrun : Reaches step (fun _ _ => True) k₀ s.kvCacheManager) :
    Reaches step (fun _ _ => True) k₀ s'.kvCacheManager := by
  cases h with
  | kept | compiled => exact hrun
  | received hstatus hconn hk =>
    rcases hk with ⟨n, hcache⟩ | hfree
    · exact hrun.step (.cacheBlocks request n) trivial hcache
    · exact hrun.step (.free request) trivial hfree

end Scheduler

namespace ScheduleLocals

variable {l l' : ScheduleLocals} {env : ScheduleEnv} {request waiting : Request}

lemma startWaiting_load {c : ComputedTokens} {t : EncoderTry} {goOn : Bool}
    (hasync : c.loadKvAsync = true) (hzero : request.numComputedTokens = 0)
    (hreq : l.s.requests.get? request.requestId = some request) (hstatus : request.status ≠ .waitingForRemoteKvs)
    (hwaiting : l'.s.requests.get? request.requestId = some waiting)
    (hload : waiting.status = .waitingForRemoteKvs) (hok : l.startWaiting request c 0 t = .ok (goOn, l')) :
    waiting = { request with status := .waitingForRemoteKvs } ∧ l'.s.config = l.s.config ∧
      ∃ new, l.s.kvCacheManager.allocateSlots request c.newComputedBlocks
        c.numNewLocalComputedTokens (loadArgs c.numExternalComputedTokens
          (l.s.numEncoderTokens request)) = .ok (some new, l'.s.kvCacheManager) := by
  have hargs : l.waitingArgs request c 0 = loadArgs c.numExternalComputedTokens
      (l.s.numEncoderTokens request) := by
    simp only [waitingArgs, hzero, if_true, hasync]
    rfl
  unfold startWaiting at hok
  rw [hargs] at hok
  obtain ⟨⟨new, k⟩, halloc, hok⟩ := bind_eq_ok.mp hok
  cases new with
  | none =>
    obtain ⟨_, -, hok⟩ := bind_eq_ok.mp hok
    obtain ⟨-, rfl⟩ := ok_pair_inj hok
    obtain rfl := some.inj (hreq.symm.trans hwaiting)
    exact absurd hload hstatus
  | some new =>
    dsimp only at hok
    rw [if_pos hasync] at hok
    obtain ⟨l1, hskip, hok⟩ := bind_eq_ok.mp hok
    obtain ⟨-, rfl⟩ := ok_pair_inj hok
    have hl1 : l1.s.config = l.s.config ∧ l1.s.kvCacheManager = k := by
      unfold skip at hskip
      split at hskip
      · cases hskip
      · obtain rfl := ok.inj hskip
        exact ⟨rfl, rfl⟩
    refine ⟨?_, hl1.1, new, ?_⟩
    · exact some.inj (hwaiting.symm.trans (get?_set_self _ _ _))
    · rw [halloc]
      exact congrArg (fun k => Except.ok (some new, k)) hl1.2.symm

lemma waitingStep_load {record : Request} {s : Scheduler} {hits : List (List BlockId)}
    {numLocal numExternal : ℕ} {goOn : Bool} (hrecord : l.s.requests.get? record.requestId = some record)
    (hcheck : l.s.checkStatus env record = .ok (false, s)) (hreq : s.requests.get? record.requestId = some request)
    (hzero : request.numComputedTokens = 0) (hconn : l.s.config.hasConnector = true)
    (hlookup : s.kvCacheManager.getComputedBlocks request = .ok (hits, numLocal))
    (hmatched : env.getNumNewMatchedTokens record.requestId numLocal = (some numExternal, true))
    (hstep : l.waitingStep env record.requestId = .ok (goOn, l'))
    (hwaiting : l'.s.requests.get? record.requestId = some waiting)
    (hload : waiting.status = .waitingForRemoteKvs) :
    0 < numExternal ∧ waiting = { request with
        numExternalComputedTokens := numExternal, status := .waitingForRemoteKvs } ∧
      l'.s.config = l.s.config ∧ ∃ new, s.kvCacheManager.allocateSlots
        { request with numExternalComputedTokens := numExternal } hits numLocal
        (loadArgs numExternal (s.numEncoderTokens request)) =
          .ok (some new, l'.s.kvCacheManager) := by
  have hstatus := checkStatus_status_ne hrecord hcheck hreq
  have hchecked := checkStatus_checked hrecord hcheck
  have hid := hchecked.requestId hrecord hreq
  have hconfig := hchecked.config
  unfold waitingStep at hstep
  rw [request_eq_ok.mpr hrecord, ok_bind, hcheck, ok_bind] at hstep
  dsimp only at hstep
  rw [if_neg Bool.false_ne_true, request_eq_ok.mpr hreq, ok_bind] at hstep
  split at hstep
  · -- too many LoRAs: the record stays
    obtain ⟨l1, hskip, hstep⟩ := bind_eq_ok.mp hstep
    obtain ⟨-, rfl⟩ := ok_pair_inj hstep
    unfold skip at hskip
    split at hskip
    · cases hskip
    · obtain rfl := ok.inj hskip
      obtain rfl := some.inj (hreq.symm.trans hwaiting)
      exact absurd hload hstatus
  · have hcount : { l with s }.getComputedTokens env request = .ok (some {
          newComputedBlocks := hits
          numNewLocalComputedTokens := numLocal
          numExternalComputedTokens := numExternal
          loadKvAsync := true
          numComputedTokens := numLocal + numExternal },
        s.setRequest { request with numExternalComputedTokens := numExternal }) := by
      rw [← hid] at hmatched
      unfold getComputedTokens
      rw [if_pos hzero]
      simp only [hlookup, ok_bind, hconfig, hconn, if_true, hmatched, pure_eq_ok]
    rw [hcount, ok_bind] at hstep
    dsimp only at hstep
    have hget : (s.setRequest { request with numExternalComputedTokens := numExternal }).request
        record.requestId = .ok { request with numExternalComputedTokens := numExternal } := by
      rw [request_eq_ok, ← hid]
      exact get?_set_self _ _ _
    rw [hget, ok_bind] at hstep
    obtain ⟨⟨numNewTokens, t⟩, hn, hstep⟩ := bind_eq_ok.mp hstep
    simp only [numNewTokensWaiting, if_true] at hn
    obtain ⟨_, hext, hn⟩ := bind_eq_ok.mp hn
    have hext := ensure_eq_ok.mp hext
    obtain ⟨numNewTokens', halign, hn⟩ := bind_eq_ok.mp hn
    obtain ⟨rfl, rfl⟩ := ok_pair_inj hn
    -- the Mamba split refuses external tokens
    have hzeroNew : numNewTokens' = some 0 := by
      unfold alignWaiting at halign
      split at halign
      · obtain ⟨_, hsplit, -⟩ := bind_eq_ok.mp halign
        obtain ⟨_, hnone, -⟩ := bind_eq_ok.mp hsplit
        have hnone := ensure_eq_ok.mp hnone
        dsimp only at hnone
        omega
      · exact (ok.inj halign).symm
    subst hzeroNew
    rw [← hid] at hwaiting
    obtain ⟨hw, hcfg, new, halloc⟩ := startWaiting_load rfl (by exact hzero)
      (by exact get?_set_self _ _ _) (by exact hstatus) (by exact hwaiting) hload hstep
    exact ⟨hext, hw, hcfg.trans hconfig, new, halloc⟩

end ScheduleLocals

/-- A waiting request has `numLocal` cached tokens and is to load `numExternal` more. Others are
served until the load is done. -/
structure RemoteLoad (k₀ : KVCacheManager) where
  env : ScheduleEnv
  before : ScheduleLocals
  record : Request
  checked : Scheduler
  request : Request
  hits : List (List BlockId)
  numLocal : ℕ
  numExternal : ℕ
  after : ScheduleLocals
  waiting : Request
  done : Scheduler
  reached : Reaches KVCacheManager.step (fun _ _ => True) k₀ before.s.kvCacheManager
  connected : before.s.config.hasConnector = true
  recorded : before.s.requests.get? record.requestId = some record
  check : before.s.checkStatus env record = .ok (false, checked)
  found : checked.requests.get? record.requestId = some request
  noneComputed : request.numComputedTokens = 0
  unknown : 1 < request.numTokens → ∀ m ∈ checked.kvCacheManager.singleTypeManagers, m.Unknown record.requestId
  lookup : checked.kvCacheManager.getComputedBlocks request = .ok (hits, numLocal)
  matched : env.getNumNewMatchedTokens record.requestId numLocal = (some numExternal, true)
  within : numLocal + numExternal ≤ request.numTokens
  fits : request.numTokens ≤ k₀.maxModelLen
  step : before.waitingStep env record.requestId = .ok (true, after)
  stored : after.s.requests.get? record.requestId = some waiting
  loading : waiting.status = .waitingForRemoteKvs
  meanwhile : Reaches KVCacheManager.step (KVCacheManager.Touches (· ≠ record.requestId))
    after.s.kvCacheManager done.kvCacheManager
  sameConfig : done.config = after.s.config
  notFailed : record.requestId ∉ done.failedRecvingKvReqIds

namespace RemoteLoad

variable {k₀ : KVCacheManager} (load : RemoteLoad k₀)

def numLoaded : ℕ := load.numLocal + load.numExternal

/-- The loaded tokens fill all blocks of the load. -/
def FillsBlocks : Prop :=
  ∀ m ∈ load.done.kvCacheManager.singleTypeManagers,
    m.blocksOfLoad load.numLoaded (load.checked.numEncoderTokens load.request) *
      load.done.config.blockSize ≤ load.numLoaded

lemma request_requestId : load.request.requestId = load.record.requestId :=
  (checkStatus_checked load.recorded load.check).requestId load.recorded load.found

lemma waiting_eq : load.waiting = { load.request with
    numExternalComputedTokens := load.numExternal, status := .waitingForRemoteKvs } :=
  (ScheduleLocals.waitingStep_load load.recorded load.check load.found load.noneComputed
    load.connected load.lookup load.matched load.step load.stored load.loading).2.1

lemma length_reqBlocks {config : KVCacheConfig} {maxModelLen hashBlockSize : ℕ}
    {enableCaching useEagle events useInt : Bool} {dcpWorldSize pcpWorldSize : ℕ}
    (hsizes : ∀ spec ∈ config.kvCacheGroups, 0 < spec.blockSize)
    (hwindows : ∀ attn window, .slidingWindow attn window ∈ config.kvCacheGroups → 0 < window)
    (hdcp : 0 < dcpWorldSize) (hpcp : 0 < pcpWorldSize)
    (hnew : new config maxModelLen hashBlockSize enableCaching useEagle events useInt
      dcpWorldSize pcpWorldSize = .ok k₀) {m : SingleTypeKVCacheManager}
    (hm : load.done.kvCacheManager.singleTypeManagers = [m]) (hlong : 1 < load.request.numTokens) :
    (m.reqBlocks load.record.requestId).length =
      m.blocksOfLoad load.numLoaded (load.checked.numEncoderTokens load.request) := by
  obtain ⟨hext, -, -, new, halloc⟩ := ScheduleLocals.waitingStep_load load.recorded load.check
    load.found load.noneComputed load.connected load.lookup load.matched load.step load.stored
    load.loading
  have hid := load.request_requestId
  -- from the new manager to the look-up, the allocation and the end of the load
  have hreached := (checkStatus_checked load.recorded load.check).reaches load.reached
  have hframe0 : k₀.Framed (fun _ => True) load.checked.kvCacheManager :=
    reaches_framed (hreached.mono fun _ _ _ _ _ => trivial)
  have hframe1 : load.checked.kvCacheManager.Framed (fun _ => True) load.after.s.kvCacheManager :=
    allocateSlots_framed trivial halloc
  have hframe2 := reaches_framed load.meanwhile
  obtain ⟨m1, hm1, hsame⟩ := hframe2.one hm
  obtain ⟨m0, hm0, hset⟩ := hframe1.one hm1
  obtain ⟨hbs, hw⟩ := hframe0.managerFits hsizes hwindows hnew (hm0 ▸ mem_singleton_self m0)
  have hunknown := load.unknown hlong m0 (hm0 ▸ mem_singleton_self m0)
  have hmax : load.checked.kvCacheManager.maxModelLen = k₀.maxModelLen := hframe0.maxModelLen
  obtain ⟨m1', hm1', hlen⟩ := allocateSlots_load hm0 (by exact hid ▸ hunknown) hbs
    hw (by exact load.noneComputed)
    (hits_within_local hdcp hpcp hnew hframe0 hm0 load.lookup) hext
    (by rw [hmax]; exact load.within.trans load.fits) halloc
  obtain rfl : m1' = m1 := singleton_injective (hm1'.symm.trans hm1)
  rw [hsame.reqBlocks _ fun h => h rfl, ← hid, hlen,
    ← SingleTypeKVCacheManager.blocksOfLoad_congr (hset.settings.trans hsame.settings)]
  rfl

/-- Only loaded tokens count as computed if and only if the given blocks end with these tokens or at
most one token is left. -/
theorem onlyLoaded_iff (config : KVCacheConfig) (maxModelLen hashBlockSize dcpWorldSize pcpWorldSize : ℕ)
    (enableCaching useEagle enableKvCacheEvents useIntBlockHashes : Bool) (k₀ : KVCacheManager)
    (hsizes : ∀ spec ∈ config.kvCacheGroups, 0 < spec.blockSize)
    (hwindows : ∀ attn window, .slidingWindow attn window ∈ config.kvCacheGroups → 0 < window)
    (hdcp : 0 < dcpWorldSize) (hpcp : 0 < pcpWorldSize)
    (hnew : KVCacheManager.new config maxModelLen hashBlockSize enableCaching useEagle
      enableKvCacheEvents useIntBlockHashes dcpWorldSize pcpWorldSize = .ok k₀)
    (load : RemoteLoad k₀) (s : Scheduler)
    (hupdate : load.done.updateWaitingForRemoteKv load.waiting = .ok (true, s)) :
    Scheduler.OnlyLoaded load.record.requestId load.numLoaded load.done s ↔
      load.FillsBlocks ∨ load.request.numTokens ≤ load.numLoaded + 1 := by
  have hid : load.waiting.requestId = load.record.requestId := by
    rw [load.waiting_eq]
    exact load.request_requestId
  have hnum : load.waiting.numTokens = load.request.numTokens := by
    rw [load.waiting_eq]
    rfl
  have hfailed : load.waiting.requestId ∉ load.done.failedRecvingKvReqIds := hid ▸ load.notFailed
  obtain ⟨m, hm⟩ := updateWaitingForRemoteKv_one hfailed hupdate
  rw [← hid, updateWaitingForRemoteKv_onlyLoaded_iff hm hfailed hupdate, hnum]
  by_cases hlong : 1 < load.request.numTokens
  · rw [hid, load.length_reqBlocks hsizes hwindows hdcp hpcp hnew hm hlong]
    unfold FillsBlocks
    rw [hm]
    simp only [mem_singleton, forall_eq]
  · have hshort : load.request.numTokens ≤ load.numLoaded + 1 := by omega
    exact iff_of_true (.inr hshort) (.inr hshort)

def fourTokenBlocks : KVCacheConfig := ⟨8, [.fullAttention ⟨4, 1, 1, ⟨"f", 2⟩, none⟩ 1 none none]⟩

def blocksCache : Except PyError KVCacheManager :=
  KVCacheManager.new fourTokenBlocks 32 4 true false false false 1 1

def remoteConfig : SchedulerConfig where
  maxNumRunningReqs := 4
  maxNumScheduledTokens := 32
  maxModelLen := 32
  blockSize := 4
  cacheBlockSize := 4
  hasConnector := true

def longPrompt : Request :=
  { requestId := "a", promptTokenIds := none, numPromptTokens := 20
    allTokenIds := replicate 20 0, samplingParams := ⟨1, 0, false, []⟩, maxTokens := 1
    blockHashes := [[1], [2], [3], [4], [5]] }

def promptWaits (k : KVCacheManager) : ScheduleLocals :=
  .start { Scheduler.new remoteConfig k (.multiModal (.new 0)) with
    requests := Dict.empty.set "a" longPrompt
    waiting := ["a"] }

/-- The connector has `n` tokens of every request. -/
def remoteHas (n : ℕ) : ScheduleEnv where
  getNumNewMatchedTokens := fun _ _ => (some n, true)

def goesOnTo {σ : Type} (x : Except PyError (Bool × σ)) : Option σ :=
  match x with
  | .ok (true, s) => some s
  | _ => none

lemma goesOnTo_eq_some {σ : Type} {x : Except PyError (Bool × σ)} {s : σ}
    (h : goesOnTo x = some s) : x = .ok (true, s) := by
  unfold goesOnTo at h
  split at h
  · rw [some.inj h]
  · cases h

def received (l : ScheduleLocals) : Scheduler := { l.s with finishedRecvingKvReqIds := {"a"} }

def loadedPrompt (n : ℕ) : Request :=
  { longPrompt with numExternalComputedTokens := n, status := .waitingForRemoteKvs }

/-- The prompt is to load `n` tokens, and its two blocks count as 8 computed tokens. -/
def LoadsPrompt (n : ℕ) (k : KVCacheManager) : Prop :=
  (k.getComputedBlocks longPrompt).toOption = some ([[]], 0) ∧
  (∀ m ∈ k.singleTypeManagers, m.reqBlocks "a" = [] ∧ m.numCachedBlock.contains "a" = false ∧
    "a" ∉ m.allocatedBlockReqs) ∧
  k.maxModelLen = 32 ∧
  ∃ l ∈ goesOnTo ((promptWaits k).waitingStep (remoteHas n) "a"),
    l.s.requests.get? "a" = some (loadedPrompt n) ∧ "a" ∉ l.s.failedRecvingKvReqIds ∧
    l.s.kvCacheManager.singleTypeManagers.map
      (fun m => m.blocksOfLoad n 0 * l.s.config.blockSize) = [8] ∧
    ∃ s ∈ goesOnTo ((received l).updateWaitingForRemoteKv (loadedPrompt n)),
      (s.requests.get? "a").map (·.numComputedTokens) = some 8

instance (n : ℕ) (k : KVCacheManager) : Decidable (LoadsPrompt n k) :=
  inferInstanceAs (Decidable (_ ∧ _))

lemma LoadsPrompt.exists_load {n : ℕ} (hn : n ≤ 20) {k : KVCacheManager} (h : LoadsPrompt n k) :
    ∃ (load : RemoteLoad k) (s : Scheduler), load.numLoaded = n ∧
      load.record.requestId = "a" ∧
      load.done.updateWaitingForRemoteKv load.waiting = .ok (true, s) ∧
      (load.FillsBlocks ↔ 8 ≤ n) ∧
      ∃ request, s.requests.get? "a" = some request ∧ request.numComputedTokens = 8 := by
  obtain ⟨hlookup, hunknown, hmax, l, hl, hstored, hfailed, hblocks, s, hs, hcount⟩ := h
  obtain ⟨request, hrequest, hcount⟩ := map_eq_some_iff.mp hcount
  refine ⟨{
    env := remoteHas n
    before := promptWaits k
    record := longPrompt
    checked := (promptWaits k).s
    request := longPrompt
    hits := [[]]
    numLocal := 0
    numExternal := n
    after := l
    waiting := loadedPrompt n
    done := received l
    reached := .start
    connected := rfl
    recorded := rfl
    check := rfl
    found := rfl
    noneComputed := rfl
    unknown := fun _ m hm => ⟨(hunknown m hm).1, (hunknown m hm).2.1, (hunknown m hm).2.2⟩
    lookup := eq_ok_of_toOption hlookup
    matched := rfl
    within := (Nat.zero_add n).le.trans hn
    fits := by
      rw [hmax]
      decide
    step := goesOnTo_eq_some hl
    stored := hstored
    loading := rfl
    meanwhile := .start
    sameConfig := rfl
    notFailed := hfailed }, s, Nat.zero_add n, rfl, goesOnTo_eq_some hs, ?_, request, hrequest, hcount⟩
  obtain ⟨m, hm, hfilled⟩ := map_eq_singleton_iff.mp hblocks
  have hone : ∀ m', m' ∈ l.s.kvCacheManager.singleTypeManagers ↔ m' = m := by
    intro m'
    rw [hm, mem_singleton]
  change (∀ m ∈ l.s.kvCacheManager.singleTypeManagers,
    m.blocksOfLoad (0 + n) 0 * l.s.config.blockSize ≤ 0 + n) ↔ 8 ≤ n
  rw [Nat.zero_add, ← hfilled]
  constructor
  · exact fun h => h m ((hone m).mpr rfl)
  · intro h m' hm'
    rw [(hone m').mp hm']
    exact h

/-- Two blocks of loaded tokens. -/
theorem onlyLoaded_iff_aligned : ∃ k₀, ∃ (load : RemoteLoad k₀) (s : Scheduler),
    blocksCache = .ok k₀ ∧ load.numLoaded = 8 ∧ load.done.updateWaitingForRemoteKv load.waiting = .ok (true, s) ∧
    Scheduler.OnlyLoaded load.record.requestId load.numLoaded load.done s := by
  obtain ⟨k₀, h0⟩ := exists_eq_ok_of_isOk (x := blocksCache) (by decide)
  have hloads : (blocksCache.toOption.map fun k => decide (LoadsPrompt 8 k)) = some true := by
    decide +kernel
  rw [h0] at hloads
  obtain ⟨load, s, hnum, -, hupdate, hfills, -⟩ := LoadsPrompt.exists_load (by decide)
    (of_decide_eq_true (some.inj hloads))
  have hgroup : ∀ spec ∈ fourTokenBlocks.kvCacheGroups,
      spec = .fullAttention ⟨4, 1, 1, ⟨"f", 2⟩, none⟩ 1 none none :=
    fun spec hspec => mem_singleton.mp hspec
  refine ⟨k₀, load, s, h0, hnum, hupdate, (onlyLoaded_iff fourTokenBlocks 32 4 1 1 true false false
    false k₀ (fun spec hspec => ?_) (fun attn window hspec => ?_) Nat.one_pos Nat.one_pos h0 load s
    hupdate).mpr (.inl (hfills.mpr (le_refl 8)))⟩
  · rw [hgroup spec hspec]
    decide
  · cases hgroup _ hspec

/-- Five loaded tokens count as eight. -/
theorem unloaded_tokens_computed : ∃ k₀, ∃ (load : RemoteLoad k₀) (s : Scheduler),
    blocksCache = .ok k₀ ∧ load.numLoaded = 5 ∧ load.done.updateWaitingForRemoteKv load.waiting = .ok (true, s) ∧
    ¬ Scheduler.OnlyLoaded load.record.requestId load.numLoaded load.done s := by
  obtain ⟨k₀, h0⟩ := exists_eq_ok_of_isOk (x := blocksCache) (by decide)
  have hloads : (blocksCache.toOption.map fun k => decide (LoadsPrompt 5 k)) = some true := by
    decide +kernel
  rw [h0] at hloads
  obtain ⟨load, s, hnum, hid, hupdate, -, request, hrequest, hcount⟩ :=
    LoadsPrompt.exists_load (by decide) (of_decide_eq_true (some.inj hloads))
  refine ⟨k₀, load, s, h0, hnum, hupdate, fun honly => ?_⟩
  rw [hid, hnum] at honly
  have hle := honly.computed request hrequest
  rw [hcount] at hle
  exact absurd hle (by decide)

end RemoteLoad

end CustomAi.Vllm
