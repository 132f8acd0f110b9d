import CustomAi.Vllm.SchedulerEffects
import CustomAi.Vllm.SchedulerRun

/-!
# Where the requests are

Every unfinished request is in one of the two queues, once.
-/

namespace CustomAi.Vllm

open List Option Except Scheduler Dict RequestStatus

def runningCount : Option Request → ℕ
  | none => 0
  | some r => if r.status = .running then 1 else 0

def waitingCount : Option Request → ℕ
  | none => 0
  | some r => if r.status.isFinished ∨ r.status = .running then 0 else 1

@[simp] lemma runningCount_some (r : Request) : runningCount (some r) = if r.status = .running then 1 else 0 := rfl

@[simp] lemma waitingCount_some (r : Request) :
    waitingCount (some r) = if r.status.isFinished ∨ r.status = .running then 0 else 1 := rfl

def queueView (r : Request) : RequestStatus × Bool × List (Option StreamingUpdate) :=
  (r.status, r.resumable, r.streamingQueue)

variable (o : Option Request)

lemma runningCount_eq : runningCount o = (o.map queueView).elim 0 fun v => if v.1 = .running then 1 else 0 := by
  cases o <;> rfl

lemma waitingCount_eq : waitingCount o =
    (o.map queueView).elim 0 fun v => if v.1.isFinished ∨ v.1 = .running then 0 else 1 := by
  cases o <;> rfl

/-- The status of a request in the waiting queue that does not wait for streaming input. -/
def RequestStatus.Waits (status : RequestStatus) : Prop :=
  status.isFinished = false ∧ status ≠ .running ∧ status ≠ .waitingForStreamingReq

namespace RequestStatus

instance (status : RequestStatus) : Decidable status.Waits :=
  inferInstanceAs (Decidable (_ ∧ _ ∧ _))

lemma ne_of_isFinished {status status' : RequestStatus} (h : status.isFinished = true)
    (h' : status'.isFinished = false) : status ≠ status' := by
  rintro rfl
  rw [h] at h'
  cases h'

end RequestStatus

def streamingShare (r : Request) : ℤ := if r.status = .waitingForStreamingReq then 1 else 0

def streamingSessions (requests : Dict RequestId Request) : ℤ :=
  requests.sum fun _ r => streamingShare r

structure Placed (lost : RequestId → ℕ) (extra : ℤ) (requests : Dict RequestId Request)
    (running waiting : List RequestId) (counter : ℤ) : Prop where
  keys : KeysOk requests
  running : ∀ id, running.count id = runningCount (requests.get? id)
  waiting : ∀ id, waiting.count id + lost id = waitingCount (requests.get? id)
  streaming : ∀ id r, requests.get? id = some r → r.status = .waitingForStreamingReq →
    r.resumable = true ∧ r.streamingQueue = []
  counter : counter = streamingSessions requests + extra

variable {requests : Dict RequestId Request}

lemma streamingSessions_set {id : RequestId} {r r' : Request}
    (h : requests.get? id = some r) : streamingSessions (requests.set id r') =
      streamingSessions requests + streamingShare r' - streamingShare r := by
  have hsum := requests.sum_set (fun _ r => streamingShare r) id r'
  rw [h] at hsum
  simp only [elim_some] at hsum
  unfold streamingSessions
  linarith

lemma streamingSessions_set_new {id : RequestId} {r' : Request}
    (h : requests.get? id = none) : streamingSessions (requests.set id r') =
      streamingSessions requests + streamingShare r' := by
  have hsum := requests.sum_set (fun _ r => streamingShare r) id r'
  rw [h] at hsum
  simp only [elim_none, add_zero] at hsum
  exact hsum

lemma streamingSessions_erase {id : RequestId} {r : Request}
    (h : requests.get? id = some r) : streamingSessions (requests.erase id) =
      streamingSessions requests - streamingShare r := by
  have hsum := requests.sum_erase (fun _ r => streamingShare r) id
  rw [h] at hsum
  simp only [elim_some] at hsum
  unfold streamingSessions
  linarith

lemma queueView_set {id : RequestId} {r r' : Request} (hr : requests.get? id = some r)
    (hview : queueView r' = queueView r) (x : RequestId) :
    ((requests.set id r').get? x).map queueView = (requests.get? x).map queueView := by
  rw [get?_set]
  split
  · rename_i hx
    rw [hx, hr, map_some, map_some, hview]
  · rfl

lemma streamingSessions_congr {requests' : Dict RequestId Request}
    (hsame : ∀ id, (requests'.get? id).map queueView = (requests.get? id).map queueView) :
    streamingSessions requests' = streamingSessions requests := by
  have hshare : ∀ o : Option Request, o.elim 0 streamingShare =
      (o.map queueView).elim 0 fun v => if v.1 = .waitingForStreamingReq then 1 else 0 := by
    intro o
    cases o <;> rfl
  refine sum_congr_get? fun id => ?_
  rw [hshare, hshare, hsame id]

lemma streaming_congr {requests' : Dict RequestId Request}
    (hsame : ∀ id, (requests'.get? id).map queueView = (requests.get? id).map queueView)
    (h : ∀ id r, requests.get? id = some r → r.status = .waitingForStreamingReq →
      r.resumable = true ∧ r.streamingQueue = []) {id : RequestId} {q : Request}
    (hq : requests'.get? id = some q) (hs : q.status = .waitingForStreamingReq) :
    q.resumable = true ∧ q.streamingQueue = [] := by
  have hid := hsame id
  rw [hq] at hid
  obtain ⟨r, hr, hview⟩ := map_eq_some_iff.mp hid.symm
  obtain ⟨hstatus, hres, hqueue⟩ : r.status = q.status ∧ r.resumable = q.resumable ∧
      r.streamingQueue = q.streamingQueue := by simpa [queueView] using hview
  rw [← hres, ← hqueue]
  exact h id r hr (hstatus.trans hs)

lemma waitingCount_le_one : waitingCount o ≤ 1 := by
  unfold waitingCount
  split
  · exact Nat.zero_le 1
  · split <;> omega

lemma runningCount_le_one : runningCount o ≤ 1 := by
  unfold runningCount
  split
  · exact Nat.zero_le 1
  · split <;> omega

namespace Placed

variable {lost : RequestId → ℕ} {extra counter : ℤ} {requests : Dict RequestId Request}
  {running waiting running' waiting' : List RequestId} {id : RequestId} {r r' : Request}

section

variable (h : Placed lost extra requests running waiting counter)
include h

lemma perm (hrun : running'.Perm running) (hwait : waiting'.Perm waiting) :
    Placed lost extra requests running' waiting' counter where
  keys := h.keys
  running := fun x => (hrun.count_eq x).trans (h.running x)
  waiting := fun x => by rw [hwait.count_eq x, h.waiting x]
  streaming := h.streaming
  counter := h.counter

lemma waiting_of_mem (hmem : id ∈ waiting)
    (hr : requests.get? id = some r) : r.status.isFinished = false ∧ r.status ≠ .running := by
  have hpos := count_pos_iff.mpr hmem
  have hcount := h.waiting id
  rw [hr, waitingCount_some] at hcount
  split at hcount
  · omega
  · rename_i hstatus
    rw [not_or] at hstatus
    exact ⟨by simpa using hstatus.1, hstatus.2⟩

lemma set {counter' : ℤ} (hid : r'.requestId = id)
    (hother : ∀ x, x ≠ id → running'.count x = running.count x ∧ waiting'.count x = waiting.count x)
    (hrun : running'.count id = runningCount (some r'))
    (hwait : waiting'.count id + lost id = waitingCount (some r'))
    (hstream : r'.status = .waitingForStreamingReq → r'.resumable = true ∧ r'.streamingQueue = [])
    (hcounter : counter' = streamingSessions (requests.set id r') + extra) :
    Placed lost extra (requests.set id r') running' waiting' counter' where
  keys := h.keys.set hid
  running := fun x => by
    by_cases hx : x = id
    · rw [hx, get?_set_self, hrun]
    · rw [get?_set_of_ne _ _ hx, (hother x hx).1, h.running x]
  waiting := fun x => by
    by_cases hx : x = id
    · rw [hx, get?_set_self, hwait]
    · rw [get?_set_of_ne _ _ hx, (hother x hx).2, h.waiting x]
  streaming := fun x q hq hs => by
    rw [get?_set] at hq
    split at hq
    · obtain rfl := some.inj hq
      exact hstream hs
    · exact h.streaming x q hq hs
  counter := hcounter

lemma of_same {requests' : Dict RequestId Request} (hkeys : KeysOk requests')
    (hsame : ∀ id, (requests'.get? id).map queueView = (requests.get? id).map queueView) :
    Placed lost extra requests' running waiting counter where
  keys := hkeys
  running := fun id => by rw [h.running id, runningCount_eq, runningCount_eq, hsame id]
  waiting := fun id => by rw [h.waiting id, waitingCount_eq, waitingCount_eq, hsame id]
  streaming := fun _ _ => streaming_congr hsame h.streaming
  counter := by rw [h.counter, streamingSessions_congr hsame]

section

variable (hr : requests.get? id = some r) (hid : r'.requestId = id)
include hr hid

lemma replace_same (hview : queueView r' = queueView r) :
    Placed lost extra (requests.set id r') running waiting counter :=
  h.of_same (h.keys.set hid) (queueView_set hr hview)

lemma replace (hrun : runningCount (some r') = runningCount (some r))
    (hwait : waitingCount (some r') = waitingCount (some r))
    (hstream : r'.status = .waitingForStreamingReq → r'.resumable = true ∧ r'.streamingQueue = []) :
    Placed lost extra (requests.set id r') running waiting (counter + streamingShare r' - streamingShare r) := by
  refine h.set hid (fun _ _ => ⟨rfl, rfl⟩) ?_ ?_ hstream ?_
  · rw [h.running id, hr, hrun]
  · rw [h.waiting id, hr, hwait]
  · rw [streamingSessions_set hr, h.counter]
    omega

lemma replace_busy (hstatus : r'.status = r.status) (hbusy : r.status ≠ .waitingForStreamingReq) :
    Placed lost extra (requests.set id r') running waiting counter := by
  have hplaced := h.replace hr hid (by rw [runningCount_some, runningCount_some, hstatus])
    (by rw [waitingCount_some, waitingCount_some, hstatus]) fun hs => absurd (hstatus ▸ hs) hbusy
  rw [streamingShare, streamingShare, hstatus, add_sub_cancel_right] at hplaced
  exact hplaced

lemma rewait (hstatus : r.status.Waits)
    (hstatus' : r'.status.Waits) : Placed lost extra (requests.set id r') running waiting counter := by
  obtain ⟨hfin, hrun, hstream⟩ := hstatus
  obtain ⟨hfin', hrun', hstream'⟩ := hstatus'
  have hplaced := h.replace hr hid (by simp [hrun, hrun']) (by simp [hrun, hrun', hfin, hfin'])
    fun hs => absurd hs hstream'
  rw [streamingShare, if_neg hstream', streamingShare, if_neg hstream] at hplaced
  simpa using hplaced

end

lemma preempt (hr : requests.get? id = some r) (hid : r'.requestId = id)
    (hstatus : r.status = .running) (hstatus' : r'.status = .preempted)
    (hrun : running.Perm (id :: running')) (hwait : waiting'.Perm (id :: waiting)) :
    Placed lost extra (requests.set id r') running' waiting' counter := by
  have hrunning := h.running id
  have hwaiting := h.waiting id
  rw [hr, hrun.count_eq id, runningCount_some, if_pos hstatus, count_cons_self] at hrunning
  rw [hr, waitingCount_some, if_pos (.inr hstatus)] at hwaiting
  refine h.set hid (fun x hx => ⟨?_, ?_⟩) ?_ ?_ (fun hs => ?_) ?_
  · rw [hrun.count_eq x, count_cons_of_ne (Ne.symm hx)]
  · rw [hwait.count_eq x, count_cons_of_ne (Ne.symm hx)]
  · rw [runningCount_some, if_neg (by simp [hstatus'])]
    omega
  · rw [hwait.count_eq id, waitingCount_some, count_cons_self,
      if_neg (by simp [hstatus', RequestStatus.isFinished])]
    omega
  · rw [hstatus'] at hs
    cases hs
  · rw [streamingSessions_set hr, h.counter]
    simp [streamingShare, hstatus, hstatus']

lemma start (hr : requests.get? id = some r) (hid : r'.requestId = id)
    (hstatus : r.status ≠ .waitingForStreamingReq) (hstatus' : r'.status = .running)
    (hrun : running'.Perm (id :: running)) (hwait : waiting.Perm (id :: waiting')) :
    Placed lost extra (requests.set id r') running' waiting' counter := by
  have hrunning := h.running id
  have hwaiting := h.waiting id
  have hle := waitingCount_le_one (requests.get? id)
  have hw := h.waiting_of_mem (hwait.mem_iff.mpr mem_cons_self) hr
  rw [hr, runningCount_some, if_neg hw.2] at hrunning
  rw [hwait.count_eq id, count_cons_self] at hwaiting
  refine h.set hid (fun x hx => ⟨?_, ?_⟩) ?_ ?_ (fun hs => ?_) ?_
  · rw [hrun.count_eq x, count_cons_of_ne (Ne.symm hx)]
  · rw [hwait.count_eq x, count_cons_of_ne (Ne.symm hx)]
  · rw [hrun.count_eq id, runningCount_some, if_pos hstatus', count_cons_self, hrunning]
  · rw [waitingCount_some, if_pos (.inr hstatus')]
    omega
  · rw [hstatus'] at hs
    cases hs
  · rw [streamingSessions_set hr, h.counter]
    simp [streamingShare, hstatus, hstatus']

lemma add (hr : requests.get? id = none) (hid : r'.requestId = id)
    (hstatus : r'.status = .waiting ∨ r'.status = .waitingForFsm) (hwait : waiting'.Perm (id :: waiting)) :
    Placed lost extra (requests.set id r') running waiting' counter := by
  have hwaiting := h.waiting id
  rw [hr, waitingCount] at hwaiting
  refine h.set hid (fun x hx => ⟨rfl, ?_⟩) ?_ ?_ (fun hs => ?_) ?_
  · rw [hwait.count_eq x, count_cons_of_ne (Ne.symm hx)]
  · rw [h.running id, hr, runningCount_some, if_neg]
    · rfl
    · rcases hstatus with hs | hs <;> simp [hs]
  · rw [hwait.count_eq id, waitingCount_some, count_cons_self, if_neg]
    · omega
    · rcases hstatus with hs | hs <;> simp [hs, RequestStatus.isFinished]
  · rcases hstatus with hs' | hs' <;> rw [hs'] at hs <;> cases hs
  · rw [streamingSessions_set_new hr, h.counter]
    rcases hstatus with hs | hs <;> simp [streamingShare, hs]

lemma forget (hr : requests.get? id = some r) (hfin : r.status.isFinished = true) :
    Placed lost extra (requests.erase id) running waiting counter := by
  have hrun : r.status ≠ .running := ne_of_isFinished hfin rfl
  have hstream : r.status ≠ .waitingForStreamingReq := ne_of_isFinished hfin rfl
  refine ⟨h.keys.erase id, fun x => ?_, fun x => ?_, fun x q hq hs => ?_, ?_⟩
  · have hcount := h.running x
    by_cases hx : x = id
    · subst hx
      rw [hr, runningCount_some, if_neg hrun] at hcount
      rw [hcount, get?_erase_self]
      rfl
    · rw [hcount, get?_erase_of_ne _ hx]
  · have hcount := h.waiting x
    by_cases hx : x = id
    · subst hx
      rw [hr, waitingCount_some, if_pos (.inl hfin)] at hcount
      rw [hcount, get?_erase_self]
      rfl
    · rw [hcount, get?_erase_of_ne _ hx]
  · rw [get?_erase] at hq
    split at hq
    · cases hq
    · exact h.streaming x q hq hs
  · rw [streamingSessions_erase hr, h.counter, streamingShare, if_neg hstream, sub_zero]

end

end Placed

namespace ScheduleLocals

variable {lost : RequestId → ℕ} {extra : ℤ} {l l' : ScheduleLocals} {env : ScheduleEnv}

/-- The queues during `schedule`, where some waiting requests are set aside. -/
def QueuesPlaced (lost : RequestId → ℕ) (extra : ℤ) (l : ScheduleLocals) : Prop :=
  Placed lost extra l.s.requests l.s.running (l.skippedWaitingRequests ++ l.s.waiting)
    l.s.numWaitingForStreamingInput

lemma Preempted.placed {victim : RequestId} (h : Preempted l victim l')
    (hl : QueuesPlaced lost extra l) : QueuesPlaced lost extra l' := by
  obtain ⟨request, hreq, hstatus, hrequests⟩ := h.requests hl.keys
  obtain ⟨hrunning, hwaiting, hskipped, hcounter⟩ := h.queues hl.keys
  unfold QueuesPlaced
  rw [hrequests, hskipped, hcounter]
  exact hl.preempt hreq (hl.keys victim request hreq) hstatus rfl hrunning
    ((hwaiting.append_left _).trans perm_middle)

lemma checked_placed {s s' : Scheduler} {request : Request} {skipped : Bool}
    {running waiting : List RequestId} {counter : ℤ} (h : Scheduler.Checked s request skipped s')
    (hreq : s.requests.get? request.requestId = some request)
    (hs : Placed lost extra s.requests running waiting counter) :
    Placed lost extra s'.requests running waiting counter ∧
      s'.numWaitingForStreamingInput = s.numWaitingForStreamingInput := by
  cases h with
  | kept => exact ⟨hs, rfl⟩
  | compiled hstatus =>
    exact ⟨hs.rewait hreq rfl (hstatus ▸ by decide) ⟨rfl, nofun, nofun⟩, rfl⟩
  | received hstatus =>
    refine ⟨hs.rewait hreq rfl (hstatus ▸ by decide) ?_, rfl⟩
    split <;> exact ⟨rfl, nofun, nofun⟩

lemma Move.placed {a b : Phase × ScheduleLocals} (h : Move env a b)
    (ha : QueuesPlaced lost extra a.2) : QueuesPlaced lost extra b.2 := by
  cases h with
  | pass | passInputs | plan | noBlocks | loras | inputs | refuse => exact ha
  | preempt _ hp => exact hp.placed ha
  | preemptSelf hp => exact hp.placed ha
  | schedule hreq =>
    have hid := ha.keys _ _ hreq
    subst hid
    exact ha.replace_same hreq rfl rfl
  | check _ _ hreq hc =>
    have hid := ha.keys _ _ hreq
    subst hid
    obtain ⟨hplaced, hcounter⟩ := checked_placed hc hreq ha
    unfold QueuesPlaced
    rw [hc.running, hc.waiting, hcounter]
    exact hplaced
  | skip _ hwaiting hskipped =>
    refine ha.perm (.refl _) ?_
    exact (hskipped.append_right _).trans (perm_middle.symm.trans (hwaiting.append_left _))
  | count _ _ hreq hc =>
    have hid := ha.keys _ _ hreq
    subst hid
    obtain ⟨_, -, rfl | ⟨-, _, rfl, rfl⟩, -⟩ := getComputedTokens_counted hreq hc
    · exact ha
    · exact ha.replace_same hreq rfl rfl
  | startAsync _ hreq hstatus _ _ _ hwaiting hskipped =>
    have hid := ha.keys _ _ hreq
    subst hid
    obtain ⟨hfin, hrun⟩ := ha.waiting_of_mem (mem_append_right _ (hwaiting.mem_iff.mp mem_cons_self)) hreq
    refine Placed.perm (ha.rewait hreq ?_ ⟨hfin, hrun, hstatus⟩ ?_) (.refl _) ?_
    · rfl
    · exact ⟨rfl, nofun, nofun⟩
    exact (hskipped.append_right _).trans (perm_middle.symm.trans (hwaiting.append_left _))
  | admitted _ _ hreq _ _ _ _ hstatus _ hwaiting =>
    have hid := ha.keys _ _ hreq
    subst hid
    refine ha.start hreq rfl ?_ rfl (perm_append_singleton _ _) ?_
    · rcases hstatus with hs | hs <;> rw [hs] <;> exact nofun
    · exact (hwaiting.symm.append_left _).trans perm_middle

end ScheduleLocals

def QueuesPlaced (lost : RequestId → ℕ) (extra : ℤ) (s : Scheduler) : Prop :=
  Placed lost extra s.requests s.running s.waiting s.numWaitingForStreamingInput

namespace QueuesPlaced

variable {lost : RequestId → ℕ} {extra : ℤ} {s s' : Scheduler}

lemma afterSchedule_queueView (config : SchedulerConfig)
    (spec : Dict RequestId (List TokenId)) (r : Request) (n : ℤ) :
    queueView (r.afterSchedule config spec n) = queueView r := by
  unfold Request.afterSchedule Request.awaiting
  dsimp only
  split
  · split <;> rfl
  · rfl

lemma schedule {env : ScheduleEnv} {output : SchedulerOutput} (hs : QueuesPlaced lost extra s)
    (h : s.schedule env = .ok (output, s')) : QueuesPlaced lost extra s' := by
  obtain ⟨l, waiting, hmoves, hwaiting, -, hupdate⟩ := schedule_eq_ok hs.keys h
  have hl : ScheduleLocals.QueuesPlaced lost extra l :=
    ScheduleLocals.Moves.invariant (fun _ l => ScheduleLocals.QueuesPlaced lost extra l)
      hmoves hs.keys hs fun a b _ hmove ha => hmove.placed ha
  obtain ⟨hkeys, ⟨requests, enc, rfl⟩, hget⟩ := updateAfterSchedule_spec hupdate hl.keys
  refine (hl.perm (.refl _) hwaiting).of_same hkeys fun id => ?_
  rw [hget id]
  cases output.numScheduledTokens.get? id with
  | none => rfl
  | some n =>
    rw [Option.map_map]
    exact congrFun (congrArg Option.map
      (funext fun r => afterSchedule_queueView _ _ r n)) _

lemma sum_streaming (s : Scheduler) (ids : List RequestId) :
    (ids.map fun id => (s.requests.get? id).elim 0 streamingShare).sum =
      (ids.countP (s.hasStatus fun status => status = .waitingForStreamingReq) : ℤ) := by
  induction ids with
  | nil => rfl
  | cons id rest ih =>
    rw [map_cons, sum_cons, ih, countP_cons, hasStatus]
    cases s.requests.get? id with
    | none => simp
    | some r =>
      by_cases hs : r.status = .waitingForStreamingReq <;> simp [streamingShare, hs, add_comm]

section

variable (hs : QueuesPlaced lost extra s)
include hs

variable {connectorDelay : RequestId → Bool}

lemma finishRequests {requestIds : List RequestId}
    {finishedStatus : RequestStatus} (h : s.finishRequests connectorDelay requestIds finishedStatus = .ok s') :
    QueuesPlaced (fun x => if x ∈ s.validRequests requestIds then 0 else lost x) extra s' := by
  obtain ⟨hfin, heach⟩ := finishRequests_eq_ok h
  obtain ⟨hkeys, ⟨req, k, enc, fin, recv, failed, hs'⟩, hsame, hdone⟩ :=
    finishEach_spec heach (validRequests_nodup _) hs.keys
  have hnone : ∀ x ∈ s.validRequests requestIds, runningCount (s'.requests.get? x) = 0 ∧
      waitingCount (s'.requests.get? x) = 0 ∧ (s'.requests.get? x).elim 0 streamingShare = 0 := by
    intro x hx
    obtain ⟨r, -, hr | hr⟩ := hdone x hx
    · rw [hr]
      exact ⟨rfl, rfl, rfl⟩
    · rw [hr, runningCount_some]
      have hne : finishedStatus ≠ .running := ne_of_isFinished hfin rfl
      have hne' : finishedStatus ≠ .waitingForStreamingReq := ne_of_isFinished hfin rfl
      exact ⟨if_neg hne, if_pos (.inl hfin), by simp [streamingShare, hne']⟩
  have hvalid : ∀ x ∈ s.validRequests requestIds, ∃ r, s.requests.get? x = some r ∧
      r.status.isFinished = false := fun x hx => (mem_validRequests.mp hx).2
  have hrunning : ∀ x, s'.running.count x = if x ∈ (s.validRequests requestIds).filter
      (s.hasStatus fun status => status = .running) then 0 else s.running.count x := by
    intro x
    rw [hs']
    refine count_removeAll (fun y hy => ?_) x
    have hpos := count_pos_iff.mpr hy
    have hcount := hs.running y
    have hle := runningCount_le_one (s.requests.get? y)
    omega
  have hwaiting : ∀ x, s'.waiting.count x = if x ∈ (s.validRequests requestIds).filter
      (s.hasStatus fun status => status ≠ .running) then 0 else s.waiting.count x := by
    intro x
    rw [hs']
    dsimp only
    split
    · rename_i hnil
      rw [hnil, if_neg not_mem_nil]
    · exact count_removeRequests x
  refine ⟨hkeys, fun x => ?_, fun x => ?_, fun x r hr hstatus => ?_, ?_⟩
  · have hcount := hs.running x
    rw [hrunning x]
    by_cases hx : x ∈ s.validRequests requestIds
    · obtain ⟨r, hr, -⟩ := hvalid x hx
      rw [(hnone x hx).1]
      split
      · rfl
      · rename_i hnot
        rw [hr, runningCount_some] at hcount
        rw [hcount, if_neg]
        intro hrun
        exact hnot (mem_filter.mpr ⟨hx, by simp [hasStatus, hr, hrun]⟩)
    · rw [if_neg fun hmem => hx (mem_filter.mp hmem).1, hsame x hx, hcount]
  · have hcount := hs.waiting x
    rw [hwaiting x]
    by_cases hx : x ∈ s.validRequests requestIds
    · obtain ⟨r, hr, -⟩ := hvalid x hx
      rw [(hnone x hx).2.1]
      split
      · rfl
      · rename_i hnot
        have hrun : r.status = .running := by
          by_contra hrun
          exact hnot (mem_filter.mpr ⟨hx, by simp [hasStatus, hr, hrun]⟩)
        rw [hr, waitingCount_some, if_pos (.inr hrun)] at hcount
        omega
    · rw [if_neg fun hmem => hx (mem_filter.mp hmem).1, if_neg hx, hsame x hx, hcount]
  · by_cases hx : x ∈ s.validRequests requestIds
    · have hshare := (hnone x hx).2.2
      rw [hr] at hshare
      simp [streamingShare, hstatus] at hshare
    · rw [hsame x hx] at hr
      exact hs.streaming x r hr hstatus
  · have hsum := sum_add_sum_removed (d := s.requests) (e := s'.requests)
      (f := fun _ r => streamingShare r) (validRequests_nodup requestIds)
      (fun x hx => by rw [hsame x hx]) fun x hx => (hnone x hx).2.2
    have hcount := sum_streaming s (s.validRequests requestIds)
    have hcounter : s'.numWaitingForStreamingInput = s.numWaitingForStreamingInput -
        (s.validRequests requestIds).countP
          (s.hasStatus fun status => status = .waitingForStreamingReq) := by rw [hs']
    rw [hcounter, hs.counter]
    unfold streamingSessions
    rw [← hsum, hcount]
    omega

lemma addRequest {request : Request}
    (hnew : s.requests.get? request.requestId = none → request.status = .waiting ∨ request.status = .waitingForFsm)
    (h : s.addRequest connectorDelay request = .ok s') :
    ∃ lost', QueuesPlaced lost' extra s' ∧ ∀ id, lost' id ≤ lost id := by
  cases addRequest_added h hs.keys with
  | new hnone hwaiting =>
    exact ⟨lost, hs.add hnone rfl (hnew hnone) hwaiting, fun id => le_rfl⟩
  | queued hexisting hstatus hres =>
    have hid := hs.keys _ _ hexisting
    exact ⟨lost, hs.replace_busy hexisting hid rfl hstatus, fun id => le_rfl⟩
  | continued hexisting hstatus hupdate hup =>
    obtain ⟨hid, hstatus', -, -⟩ := updateAsSession_eq_ok hup
    rw [hs.keys _ _ hexisting] at hid
    refine ⟨lost, ?_, fun id => le_rfl⟩
    have hplaced := hs.replace hexisting hid (by simp [hstatus, hstatus'])
      (by simp [hstatus, hstatus', RequestStatus.isFinished]) fun h => by
        rw [hstatus'] at h
        cases h
    rw [streamingShare, if_neg (by simp [hstatus']), add_zero, streamingShare, if_pos hstatus] at hplaced
    exact hplaced
  | ended hexisting hstatus hupdate hfinish =>
    refine ⟨_, hs.finishRequests hfinish, fun id => ?_⟩
    split
    · exact Nat.zero_le _
    · exact le_rfl

lemma preemptAll {fuel : ℕ} (h : preemptAll fuel s = .ok s') : QueuesPlaced lost extra s' := by
  induction fuel generalizing s with
  | zero =>
    obtain rfl := ok.inj h
    exact hs
  | succ fuel ih =>
    obtain ⟨-, rfl⟩ | ⟨running, id, request, k, enc, waiting, hrunning, hreq, hstatus, -, -,
      hwaiting, hrest⟩ := preemptAll_succ_eq_ok h hs.keys
    · exact hs
    · refine ih ?_ hrest
      have hid := hs.keys id request hreq
      refine hs.preempt hreq hid hstatus rfl ?_ hwaiting
      rw [hrunning]
      exact perm_append_singleton id running

lemma updateDraftTokenIds (drafts : List (RequestId × List TokenId)) :
    QueuesPlaced lost extra (s.updateDraftTokenIds drafts) := by
  unfold Scheduler.updateDraftTokenIds
  induction drafts generalizing s with
  | nil => exact hs
  | cons d rest ih =>
    rw [foldl_cons]
    refine ih ?_
    unfold Scheduler.updateDraft
    split
    · exact hs
    · rename_i request hreq
      obtain hid := hs.keys _ _ hreq
      split
      · exact hs
      · rw [hid.symm] at hreq
        split <;> exact hs.replace_same hreq rfl rfl

lemma resetPrefixCache {resetRunningRequests resetConnector connectorReset success : Bool}
    (h : s.resetPrefixCache resetRunningRequests resetConnector connectorReset =
      .ok (success, s')) : QueuesPlaced lost extra s' := by
  obtain ⟨s1, ⟨rfl, -⟩ | ⟨-, s0, hall, rfl⟩, rfl⟩ := resetPrefixCache_eq_ok h
  · exact hs
  · have hplaced := preemptAll hs hall
    exact hplaced

end

end QueuesPlaced

/-- The queues while an output is processed: the stopped requests are still in their old queue. -/
structure UpdatePlaced (lost : RequestId → ℕ) (extra : ℤ) (u : Scheduler.UpdateLocals) : Prop where
  keys : KeysOk u.s.requests
  running : ∀ id, u.s.running.count id = runningCount (u.s.requests.get? id) + u.stoppedRunningReqs.count id
  waiting : ∀ id, u.s.waiting.count id + lost id =
    waitingCount (u.s.requests.get? id) + u.stoppedPreemptedReqs.count id
  stopped : ∀ id ∈ u.stoppedRunningReqs, runningCount (u.s.requests.get? id) = 0
  streaming : ∀ id r, u.s.requests.get? id = some r → r.status = .waitingForStreamingReq →
    r.resumable = true ∧ r.streamingQueue = []
  counter : u.s.numWaitingForStreamingInput = streamingSessions u.s.requests + extra

lemma count_cons_ite (x id : RequestId) (l : List RequestId) :
    (id :: l).count x = l.count x + if x = id then 1 else 0 := by
  by_cases hx : x = id
  · rw [hx, count_cons_self, if_pos rfl]
  · rw [count_cons_of_ne (Ne.symm hx), if_neg hx, add_zero]

/-- What the end of a request does to the queues: it may enter the waiting queue again. -/
structure StopEffect (s : Scheduler) (id : RequestId) (s' : Scheduler) : Prop where
  config : s'.config = s.config
  keys : KeysOk s'.requests
  running : s'.running = s.running
  other : ∀ x, x ≠ id → s'.requests.get? x = s.requests.get? x
  stopped : runningCount (s'.requests.get? id) = 0
  waiting : ∀ x, s'.waiting.count x = s.waiting.count x + if x = id then waitingCount (s'.requests.get? id) else 0
  counter : s'.numWaitingForStreamingInput = s.numWaitingForStreamingInput +
    (s'.requests.get? id).elim 0 streamingShare
  streaming : ∀ r, s'.requests.get? id = some r → r.status = .waitingForStreamingReq →
    r.resumable = true ∧ r.streamingQueue = []

variable {connectorDelay : RequestId → Bool} {s s' : Scheduler} {request : Request}

lemma stopEffect_freed {final : Request}
    {delayFreeBlocks : Bool} (h : s.freeRequest connectorDelay final delayFreeBlocks = .ok s')
    (hkeys : KeysOk s.requests) (hreq : s.requests.get? final.requestId = some final) :
    StopEffect s final.requestId s' := by
  obtain ⟨hfin, k, enc, forgotten, -, -, rfl⟩ := freeRequest_eq_ok h
  have hrun : final.status ≠ .running := ne_of_isFinished hfin rfl
  have hstream : final.status ≠ .waitingForStreamingReq := ne_of_isFinished hfin rfl
  cases forgotten with
  | true =>
    have hnone := get?_erase_self s.requests final.requestId
    refine ⟨rfl, hkeys.erase _, rfl, fun x hx => get?_erase_of_ne _ hx, ?_, fun x => ?_, ?_, fun r hr => ?_⟩
    · simp only [if_true, hnone, runningCount]
    · simp [waitingCount]
    · simp
    · simp at hr
  | false =>
    refine ⟨rfl, hkeys, rfl, fun x hx => rfl, ?_, fun x => ?_, ?_, fun r hr hs => ?_⟩
    · simp [hreq, hrun]
    · simp [hreq, hfin]
    · simp [hreq, streamingShare, hstream]
    · obtain rfl := some.inj (hreq.symm.trans hr)
      exact absurd hs hstream

lemma stopEffect {id : RequestId} (h : Scheduler.Stopped s connectorDelay request s')
    (hkeys : KeysOk s.requests) (hreq : s.requests.get? id = some request) : StopEffect s id s' := by
  obtain rfl := hkeys id request hreq
  cases h with
  | finished hfinal hfree =>
    rcases hfinal with ⟨-, rfl, rfl⟩ | ⟨rest, -, -, rfl, rfl⟩
    · exact stopEffect_freed hfree hkeys hreq
    · have heffect := stopEffect_freed hfree (hkeys.set rfl) (get?_set_self _ _ _)
      exact { heffect with
        other := fun x hx => (heffect.other x hx).trans (get?_set_of_ne _ _ hx) }
  | continued hres hqueue hup hwaiting =>
    obtain ⟨hid, hstatus, -, -⟩ := updateAsSession_eq_ok hup
    refine ⟨rfl, hkeys.set hid, rfl, fun x hx => get?_set_of_ne _ _ hx, ?_, fun x => ?_, ?_, fun r hr hs => ?_⟩
    · simp [hstatus]
    · rw [hwaiting.count_eq x, count_cons_ite]
      simp [hstatus, RequestStatus.isFinished]
    · simp [streamingShare, hstatus]
    · rw [get?_set_self] at hr
      obtain rfl := some.inj hr
      rw [hstatus] at hs
      cases hs
  | waits hres hqueue hwaiting =>
    refine ⟨rfl, hkeys.set rfl, rfl, fun x hx => get?_set_of_ne _ _ hx, ?_, fun x => ?_, ?_, fun r hr hs => ?_⟩
    · simp
    · rw [hwaiting.count_eq x, count_cons_ite]
      simp [RequestStatus.isFinished]
    · simp [streamingShare]
    · rw [get?_set_self] at hr
      obtain rfl := some.inj hr
      exact ⟨hres, hqueue⟩

lemma stopped_waitingCount {id : RequestId} (h : Scheduler.Stopped s connectorDelay request s')
    (hkeys : KeysOk s.requests) (hreq : s.requests.get? id = some request)
    (hends : request.resumable = false ∨ request.streamingQueue.head? = some none) :
    waitingCount (s'.requests.get? id) = 0 := by
  obtain rfl := hkeys id request hreq
  cases h with
  | finished hfinal hfree =>
    obtain ⟨hfin, k, enc, forgotten, -, -, rfl⟩ := freeRequest_eq_ok hfree
    rcases hfinal with ⟨-, rfl, rfl⟩ | ⟨rest, -, -, rfl, rfl⟩
    · cases forgotten <;> simp [waitingCount, hreq, hfin]
    · cases forgotten <;> simp [waitingCount, hfin]
  | continued hres hqueue =>
    rw [hres, hqueue] at hends
    simp at hends
  | waits hres hqueue =>
    rw [hres, hqueue] at hends
    simp at hends

/-- An output stops a session that is not in the running list, and the session goes on. -/
def StopsWaitingSession (s : Scheduler) (out : ModelRunnerOutput) (id : RequestId) : Prop :=
  ∃ request, s.requests.get? id = some request ∧ request.status.isFinished = false ∧
    request.status ≠ .running ∧ request.resumable = true ∧ request.streamingQueue.head? ≠ some none ∧
    Scheduler.stopsOn s.config request (out.sampledTokenIds id) (out.hasPoolerOutput id) = true

lemma StopsWaitingSession.congr {out : ModelRunnerOutput} {id : RequestId}
    (hconfig : s'.config = s.config) (hget : s'.requests.get? id = s.requests.get? id)
    (h : StopsWaitingSession s' out id) : StopsWaitingSession s out id := by
  obtain ⟨request, hreq, hrest⟩ := h
  rw [hget] at hreq
  rw [hconfig] at hrest
  exact ⟨request, hreq, hrest⟩

namespace UpdatePlaced

variable {lost : RequestId → ℕ} {extra : ℤ} {u u' : Scheduler.UpdateLocals} {id : RequestId}
  {request : Request}

variable {outputs : List EngineCoreOutput}

lemma goesOn {request' : Request} {k : KVCacheManager}
    (h : UpdatePlaced lost extra u) (hreq : u.s.requests.get? id = some request)
    (hid : request'.requestId = id) (hview : queueView request' = queueView request) :
    UpdatePlaced lost extra { u with
      s := { u.s with kvCacheManager := k, requests := u.s.requests.set id request' }
      outputs } := by
  have hsame := queueView_set hreq hview
  refine ⟨h.keys.set hid, fun x => ?_, fun x => ?_, fun x hx => ?_, fun _ _ => streaming_congr hsame h.streaming, ?_⟩
  · rw [runningCount_eq, hsame x, ← runningCount_eq]
    exact h.running x
  · rw [waitingCount_eq, hsame x, ← waitingCount_eq]
    exact h.waiting x
  · rw [runningCount_eq, hsame x, ← runningCount_eq]
    exact h.stopped x hx
  · exact h.counter.trans (congrArg (· + extra) (streamingSessions_congr hsame).symm)

lemma stops {s' : Scheduler} {running preempted : List RequestId}
    (h : UpdatePlaced lost extra u) (hreq : u.s.requests.get? id = some request)
    (hfin : request.status.isFinished = false) (heffect : StopEffect u.s id s')
    (hrun : id ∉ u.stoppedRunningReqs) (hpre : id ∉ u.stoppedPreemptedReqs)
    (hlists : request.status = .running ∧ running = u.stoppedRunningReqs ++ [id] ∧
          preempted = u.stoppedPreemptedReqs ∨ request.status ≠ .running ∧ running = u.stoppedRunningReqs ∧
          preempted = u.stoppedPreemptedReqs ++ [id]) : UpdatePlaced lost (extra + streamingShare request)
      { s := s', outputs, stoppedRunningReqs := running, stoppedPreemptedReqs := preempted } := by
  have hrunning := h.running id
  have hwaiting := h.waiting id
  rw [hreq, runningCount_some, count_eq_zero.mpr hrun] at hrunning
  rw [hreq, waitingCount_some, count_eq_zero.mpr hpre] at hwaiting
  have hcounts : running.count id = (if request.status = .running then 1 else 0) ∧
      preempted.count id = (if request.status = .running then 0 else 1) := by
    rcases hlists with ⟨hs, rfl, rfl⟩ | ⟨hs, rfl, rfl⟩
    · rw [if_pos hs, if_pos hs, count_append, count_eq_zero.mpr hrun, count_eq_zero.mpr hpre]
      simp
    · rw [if_neg hs, if_neg hs, count_append, count_eq_zero.mpr hrun, count_eq_zero.mpr hpre]
      simp
  have hother : ∀ x, x ≠ id → running.count x = u.stoppedRunningReqs.count x ∧
      preempted.count x = u.stoppedPreemptedReqs.count x := by
    intro x hx
    have hzero : [id].count x = 0 := count_eq_zero.mpr (by simpa using hx)
    rcases hlists with ⟨-, rfl, rfl⟩ | ⟨-, rfl, rfl⟩
    · rw [count_append, hzero]
      exact ⟨rfl, rfl⟩
    · rw [count_append, hzero]
      exact ⟨rfl, rfl⟩
  refine ⟨heffect.keys, fun x => ?_, fun x => ?_, fun x hx => ?_, fun x r hr hs => ?_, ?_⟩
  · dsimp only
    rw [heffect.running]
    by_cases hx : x = id
    · rw [hx, heffect.stopped]
      omega
    · rw [heffect.other x hx, h.running x, (hother x hx).1]
  · dsimp only
    rw [heffect.waiting x]
    by_cases hx : x = id
    · subst hx
      rw [if_pos rfl, hcounts.2]
      by_cases hs : request.status = .running
      · rw [if_pos (.inr hs)] at hwaiting
        rw [if_pos hs]
        omega
      · rw [if_neg (by simp [hs, hfin])] at hwaiting
        rw [if_neg hs]
        omega
    · rw [if_neg hx, heffect.other x hx, add_zero, h.waiting x, (hother x hx).2]
  · by_cases hx' : x = id
    · rw [hx']
      exact heffect.stopped
    · rw [heffect.other x hx']
      refine h.stopped x ?_
      have hpos := count_pos_iff.mpr hx
      rw [(hother x hx').1] at hpos
      exact count_pos_iff.mp hpos
  · by_cases hx : x = id
    · subst hx
      exact heffect.streaming r hr hs
    · rw [heffect.other x hx] at hr
      exact h.streaming x r hr hs
  · have hsum := sum_of_agree_except (f := fun _ r => streamingShare r) heffect.other
    rw [hreq, elim_some] at hsum
    have hcounter := heffect.counter
    have hold := h.counter
    unfold streamingSessions at hold ⊢
    linarith

variable {batch : SchedulerOutput} {out : ModelRunnerOutput} {connectorDelay : RequestId → Bool}
  {failed : List RequestId}

def EndedForGood (u : Scheduler.UpdateLocals) : Prop :=
  ∀ id ∈ u.stoppedPreemptedReqs, waitingCount (u.s.requests.get? id) = 0

lemma updated (h : UpdatePlaced lost extra u) (hu : Scheduler.UpdatedOne batch out connectorDelay failed id u u')
    (hrun : id ∉ u.stoppedRunningReqs) (hpre : id ∉ u.stoppedPreemptedReqs) :
    (∃ extra', UpdatePlaced lost extra' u' ∧
      (¬ StopsWaitingSession u.s out id → extra' = extra ∧ (EndedForGood u → EndedForGood u'))) ∧
    u'.s.config = u.s.config ∧ (∀ x, x ≠ id → u'.s.requests.get? x = u.s.requests.get? x) ∧
    (∀ x, x ≠ id → x ∉ u.stoppedRunningReqs → x ∉ u'.stoppedRunningReqs) ∧
    ∀ x, x ≠ id → x ∉ u.stoppedPreemptedReqs → x ∉ u'.stoppedPreemptedReqs := by
  cases hu with
  | ignored =>
    exact ⟨⟨extra, h, fun _ => ⟨rfl, fun h => h⟩⟩, rfl, fun x _ => rfl, fun x _ hx => hx, fun x _ hx => hx⟩
  | goesOn hfailed hreq hfin happly =>
    obtain ⟨-, _, status, _, _, _, rfl, hstatus, -⟩ := appliedOutput_spec happly
    have hid := h.keys _ _ hreq
    refine ⟨⟨extra, h.goesOn hreq hid ?_, fun _ => ⟨rfl, fun hends x hx => ?_⟩⟩, rfl,
      fun x hx => get?_set_of_ne _ _ hx, fun x _ hx => hx, fun x _ hx => hx⟩
    · unfold queueView
      rw [hstatus rfl]
    · have hne : x ≠ id := fun heq => hpre (heq ▸ hx)
      rw [get?_set_of_ne _ _ hne]
      exact hends x hx
  | @stops request request' _ _ _ s' _ _ hfailed hreq hfin happly hstopped hlists =>
    have hstops := applyTokens_stops happly
    rw [stopsOn_rejected] at hstops
    obtain ⟨-, _, status, _, _, _, hreq', -, -⟩ := appliedOutput_spec happly
    have hid := h.keys _ _ hreq
    have hid' : request'.requestId = id := by
      rw [hreq']
      exact hid
    have hkeys' := h.keys.set hid'
    have hget' := get?_set_self u.s.requests id request'
    have heffect := stopEffect hstopped hkeys' hget'
    have heffect' : StopEffect u.s id s' := { heffect with
      other := fun x hx => (heffect.other x hx).trans (get?_set_of_ne _ _ hx) }
    have hmem : ∀ x, x ≠ id → ∀ l : List RequestId, x ∉ l → x ∉ l ++ [id] := by
      intro x hx l hl
      simp [hx, hl]
    refine ⟨⟨_, h.stops hreq hfin heffect' hrun hpre hlists, fun hno => ?_⟩, heffect.config,
      heffect'.other, fun x hx hnot => ?_, fun x hx hnot => ?_⟩
    · have hends : request.status ≠ .running →
          request.resumable = false ∨ request.streamingQueue.head? = some none := by
        intro hs
        by_contra hgoes
        rw [not_or] at hgoes
        exact hno ⟨request, hreq, hfin, hs, by simpa using hgoes.1, hgoes.2, hstops.symm⟩
      refine ⟨?_, fun hgood x hx => ?_⟩
      · have hne : request.status ≠ .waitingForStreamingReq := by
          intro hs
          obtain ⟨hres, hqueue⟩ := h.streaming id request hreq hs
          have hcase := hends (by rw [hs]; exact nofun)
          rw [hres, hqueue] at hcase
          simp at hcase
        rw [streamingShare, if_neg hne, add_zero]
      · by_cases hx' : x = id
        · subst hx'
          refine stopped_waitingCount hstopped hkeys' hget' ?_
          rcases hlists with ⟨-, -, rfl⟩ | ⟨hs, -, -⟩
          · exact absurd hx hpre
          · rw [hreq']
            exact hends hs
        · rw [heffect'.other x hx']
          refine hgood x ?_
          rcases hlists with ⟨-, -, rfl⟩ | ⟨-, -, rfl⟩
          · exact hx
          · simpa [hx'] using hx
    · rcases hlists with ⟨-, rfl, -⟩ | ⟨-, rfl, -⟩
      · exact hmem x hx _ hnot
      · exact hnot
    · rcases hlists with ⟨-, -, rfl⟩ | ⟨-, -, rfl⟩
      · exact hnot
      · exact hmem x hx _ hnot

lemma updateEach {entries : List (RequestId × ℤ)}
    (hu : updateEach batch out connectorDelay failed entries u = .ok u')
    (h : UpdatePlaced lost extra u) (hnd : (entries.map Prod.fst).Nodup)
    (hrun : ∀ e ∈ entries, e.1 ∉ u.stoppedRunningReqs) (hpre : ∀ e ∈ entries, e.1 ∉ u.stoppedPreemptedReqs) :
    ∃ extra', UpdatePlaced lost extra' u' ∧ ((∀ e ∈ entries, ¬ StopsWaitingSession u.s out e.1) →
        extra' = extra ∧ (EndedForGood u → EndedForGood u')) := by
  induction entries generalizing u extra with
  | nil =>
    obtain rfl := ok.inj hu
    exact ⟨extra, h, fun _ => ⟨rfl, fun h => h⟩⟩
  | cons e rest ih =>
    obtain ⟨id, n⟩ := e
    rw [map_cons, nodup_cons] at hnd
    obtain ⟨u1, h1, hrest⟩ := bind_eq_ok.mp hu
    obtain ⟨-, hone⟩ := updateOne_updated h1 h.keys
    obtain ⟨⟨extra1, hplaced1, hgood1⟩, hconfig, hother, hrun1, hpre1⟩ :=
      h.updated hone (hrun _ mem_cons_self) (hpre _ mem_cons_self)
    have hne : ∀ e ∈ rest, e.1 ≠ id := by
      intro e he heq
      exact hnd.1 (mem_map.mpr ⟨e, he, heq⟩)
    obtain ⟨extra', hplaced', hgood'⟩ := ih hrest hplaced1 hnd.2
      (fun e he => hrun1 _ (hne e he) (hrun e (mem_cons_of_mem _ he)))
      (fun e he => hpre1 _ (hne e he) (hpre e (mem_cons_of_mem _ he)))
    refine ⟨extra', hplaced', fun hno => ?_⟩
    obtain ⟨rfl, hends1⟩ := hgood1 (hno _ mem_cons_self)
    obtain ⟨rfl, hends'⟩ := hgood' fun e he hstops =>
      hno e (mem_cons_of_mem _ he) (hstops.congr hconfig (hother _ (hne e he)))
    exact ⟨rfl, fun hgood => hends' (hends1 hgood)⟩

lemma removeStopped (h : UpdatePlaced lost extra u) : QueuesPlaced (fun x => if x ∈ u.stoppedPreemptedReqs then
      waitingCount (u.s.requests.get? x) else lost x) extra (Scheduler.removeStopped u) := by
  refine ⟨h.keys, fun x => ?_, fun x => ?_, h.streaming, h.counter⟩
  · have hcount := h.running x
    change (removeAll u.s.running u.stoppedRunningReqs).count x = runningCount (u.s.requests.get? x)
    rw [Scheduler.count_removeAll]
    · split
      · rename_i hx
        exact (h.stopped x hx).symm
      · rename_i hx
        rw [count_eq_zero.mpr hx] at hcount
        exact hcount
    · intro y hy
      rw [h.running y, h.stopped y hy, zero_add]
  · have hcount := h.waiting x
    have hwaiting : (Scheduler.removeStopped u).waiting.count x =
        if x ∈ u.stoppedPreemptedReqs then 0 else u.s.waiting.count x := by
      unfold Scheduler.removeStopped
      split
      · rename_i hnil
        rw [hnil, if_neg not_mem_nil]
      · exact Scheduler.count_removeRequests x
    rw [hwaiting]
    change _ = waitingCount (u.s.requests.get? x)
    split
    · rw [zero_add]
    · rename_i hx
      rw [count_eq_zero.mpr hx] at hcount
      exact hcount

end UpdatePlaced

variable {s s' : Scheduler} {lost : RequestId → ℕ} {extra : ℤ} {out : ModelRunnerOutput}

lemma QueuesPlaced.transferred
    (h : Scheduler.Transferred s s') (hs : QueuesPlaced lost extra s) : QueuesPlaced lost extra s' := by
  induction h with
  | refl => exact hs
  | received id _ ih => exact ih hs
  | freed hreq hfree _ ih =>
    obtain ⟨hfin, k, -, rfl⟩ := freeBlocks_eq_ok hfree
    have hid := hs.keys _ _ hreq
    subst hid
    exact ih (hs.forget hreq hfin)

lemma queueView_of_uncounted {o o' : Option Request}
    (h : o.map uncounted = o'.map uncounted) : o.map queueView = o'.map queueView := by
  have hview : ∀ o : Option Request, o.map queueView = (o.map uncounted).map queueView := by
    intro o
    cases o <;> rfl
  rw [hview, hview o', h]

lemma StopsWaitingSession.of_uncounted
    {id : RequestId} (hconfig : s'.config = s.config) (hget : (s'.requests.get? id).map uncounted =
      (s.requests.get? id).map uncounted)
    (h : StopsWaitingSession s' out id) : StopsWaitingSession s out id := by
  obtain ⟨r', hr', hfin, hrun, hres, hqueue, hstops⟩ := h
  rw [hr'] at hget
  obtain ⟨r, hr, huncounted⟩ := map_eq_some_iff.mp hget.symm
  have hview : ∀ {β : Type} (f : Request → β), (∀ q, f (uncounted q) = f q) →
      f r = f r' := fun f hf => by rw [← hf r, huncounted, hf r']
  refine ⟨r, hr, ?_, ?_, ?_, ?_, ?_⟩
  · rw [hview (fun q => q.status) fun _ => rfl]
    exact hfin
  · rw [hview (fun q => q.status) fun _ => rfl]
    exact hrun
  · rw [hview (fun q => q.resumable) fun _ => rfl]
    exact hres
  · rw [hview (fun q => q.streamingQueue) fun _ => rfl]
    exact hqueue
  · rw [hconfig] at hstops
    rw [stopsOn_congr s.config (hview stopView fun _ => rfl)
      (hview (fun q => q.discardLatestAsyncTokens) fun _ => rfl)
      (hview (fun q => q.poolingParams) fun _ => rfl)]
    exact hstops

lemma QueuesPlaced.updateFromOutput {batch : SchedulerOutput} {connectorDelay : RequestId → Bool}
    {outputs : List EngineCoreOutput} (hs : QueuesPlaced lost extra s)
    (h : s.updateFromOutput batch out connectorDelay = .ok (outputs, s')) :
    ∃ lost' extra', QueuesPlaced lost' extra' s' ∧
      ((∀ id, batch.numScheduledTokens.contains id = true → ¬ StopsWaitingSession s out id) →
        extra' = extra ∧ ∀ x, lost' x ≤ lost x) := by
  obtain ⟨failed, s1, u, s2, hinvalid, -, hu, hfailed, -, htransfer⟩ := updateFromOutput_eq_ok h
  have hs1 : QueuesPlaced lost extra s1 ∧ s1.config = s.config ∧
      ∀ x, (s1.requests.get? x).map uncounted = (s.requests.get? x).map uncounted := by
    rcases hinvalid with ⟨rfl, -⟩ | ⟨ids, hids⟩
    · exact ⟨hs, rfl, fun x => rfl⟩
    · obtain ⟨hkeys, ⟨requests, k, recv, rfl⟩, hget⟩ := handleInvalidBlocks_spec hids hs.keys
      exact ⟨hs.of_same hkeys fun x => queueView_of_uncounted (hget x), rfl, hget⟩
  obtain ⟨hplaced1, hconfig1, hget1⟩ := hs1
  have hstart : UpdatePlaced lost extra { s := s1 } := ⟨hplaced1.keys, fun x => by simpa using hplaced1.running x,
      fun x => by simpa using hplaced1.waiting x, fun x hx => by simp at hx, hplaced1.streaming, hplaced1.counter⟩
  obtain ⟨extra', hplaced, hgood⟩ := hstart.updateEach hu batch.numScheduledTokens.nodup_keys
    (fun e _ => not_mem_nil) fun e _ => not_mem_nil
  have hremoved := hplaced.removeStopped
  have hlost : (∀ id, batch.numScheduledTokens.contains id = true →
      ¬ StopsWaitingSession s out id) → extra' = extra ∧ UpdatePlaced.EndedForGood u := by
    intro hno
    obtain ⟨rfl, hends⟩ := hgood fun e he hstops => by
      refine hno e.1 ?_ (hstops.of_uncounted hconfig1 (hget1 e.1))
      rw [← mem_keys_iff]
      exact mem_map.mpr ⟨e, he, rfl⟩
    exact ⟨rfl, hends fun x hx => by simp at hx⟩
  have hle : UpdatePlaced.EndedForGood u → ∀ x, (if x ∈ u.stoppedPreemptedReqs then
      waitingCount (u.s.requests.get? x) else lost x) ≤ lost x := by
    intro hends x
    split
    · rename_i hx
      rw [hends x hx]
      exact Nat.zero_le _
    · exact le_rfl
  rcases hfailed with rfl | hfin
  · refine ⟨_, extra', hremoved.transferred htransfer, fun hno => ?_⟩
    obtain ⟨hextra, hends⟩ := hlost hno
    exact ⟨hextra, hle hends⟩
  · refine ⟨_, extra', (hremoved.finishRequests hfin).transferred htransfer, fun hno => ?_⟩
    obtain ⟨hextra, hends⟩ := hlost hno
    refine ⟨hextra, fun x => ?_⟩
    split
    · exact Nat.zero_le _
    · exact hle hends x

end CustomAi.Vllm
