import CustomAi.Vllm.QueuePlacement

/-!
# No request is lost or queued twice

The placement of the requests over whole runs of the engine, and the run in which it fails: a
session whose output arrives after it was preempted.
-/

namespace CustomAi.Vllm

open List Option

/-- Every unfinished request is in one queue, once, and the counter of sessions is right. -/
structure Scheduler.AllPlaced (s : Scheduler) : Prop where
  once : ∀ id r, s.requests.get? id = some r → r.status.isFinished = false →
    s.running.count id + s.waiting.count id = 1
  running_iff : ∀ id r, s.requests.get? id = some r → r.status.isFinished = false →
    (id ∈ s.running ↔ r.status = .running)
  unfinished : ∀ id, id ∈ s.running ∨ id ∈ s.waiting →
    ∃ r, s.requests.get? id = some r ∧ r.status.isFinished = false
  counter : s.numWaitingForStreamingInput = s.requests.values.countP fun r => r.status = .waitingForStreamingReq

lemma streamingSessions_eq (requests : Dict RequestId Request) : streamingSessions requests =
    (requests.values.countP fun r => r.status = .waitingForStreamingReq : ℕ) := by
  unfold streamingSessions Dict.sum Dict.values
  induction requests.entries with
  | nil => rfl
  | cons e rest ih =>
    rw [map_cons, sum_cons, ih, map_cons]
    by_cases hs : e.2.status = .waitingForStreamingReq
    · simp [streamingShare, hs, add_comm]
    · simp [streamingShare, hs]

lemma QueuesPlaced.allPlaced {s : Scheduler} (h : QueuesPlaced (fun _ => 0) 0 s) : s.AllPlaced := by
  refine ⟨fun id r hr hfin => ?_, fun id r hr hfin => ?_, fun id hmem => ?_, ?_⟩
  · have hrunning := h.running id
    have hwaiting := h.waiting id
    rw [hr] at hrunning
    rw [hr, add_zero] at hwaiting
    rw [hrunning, hwaiting]
    by_cases hs : r.status = .running
    · simp [hs]
    · simp [hs, hfin]
  · have hrunning := h.running id
    rw [hr, runningCount_some] at hrunning
    rw [← count_pos_iff, hrunning]
    split
    · rename_i hs
      simp [hs]
    · rename_i hs
      simp [hs]
  · cases hr : s.requests.get? id with
    | none =>
      have hrunning := h.running id
      have hwaiting := h.waiting id
      rw [hr] at hrunning hwaiting
      rw [← count_pos_iff, ← count_pos_iff, hrunning] at hmem
      rw [add_zero] at hwaiting
      rw [hwaiting] at hmem
      rcases hmem with hpos | hpos <;> cases hpos
    | some r =>
      refine ⟨r, rfl, ?_⟩
      rcases hmem with hmem | hmem
      · have hrunning := h.running id
        have hpos := count_pos_iff.mpr hmem
        rw [hr, runningCount_some] at hrunning
        split at hrunning
        · rename_i hs
          rw [hs]
          rfl
        · omega
      · exact (h.waiting_of_mem hmem hr).1
  · rw [h.counter, add_zero, streamingSessions_eq]

namespace Engine

/-- Requests enter the scheduler as `Request.__init__` makes them. -/
def AddsFresh : EngineOp → Prop
  | .addRequest request _ => request.Fresh
  | _ => True

/-- No session stops while a streaming update waits. -/
def KeepsSessions (e : Engine) : EngineOp → Prop
  | .updateFromOutput out _ =>
    ∀ batch ∈ e.inFlight.head?, ∀ id ∈ batch.output.numScheduledTokens.keys,
      ¬ StopsWaitingSession e.scheduler out id
  | _ => True

lemma step_placed {e e' : Engine} {op : EngineOp} (h : e.step op = .ok e') (hop : AddsFresh op)
    (hkeeps : e.KeepsSessions op) (he : QueuesPlaced (fun _ => 0) 0 e.scheduler) :
    QueuesPlaced (fun _ => 0) 0 e'.scheduler := by
  have hzero : ∀ {lost : RequestId → ℕ} {s : Scheduler}, QueuesPlaced lost 0 s →
      (∀ id, lost id ≤ 0) → QueuesPlaced (fun _ => 0) 0 s := by
    intro lost s hs hle
    have hlost : lost = fun _ => 0 := funext fun id => Nat.le_zero.mp (hle id)
    exact hlost ▸ hs
  cases step_stepped h with
  | addRequest hs' =>
    obtain ⟨lost, hplaced, hle⟩ := he.addRequest (fun _ => hop.status) hs'
    exact hzero hplaced hle
  | schedule hs' => exact he.schedule hs'
  | updateFromOutput hflight hs' =>
    obtain ⟨lost, extra, hplaced, hgood⟩ := he.updateFromOutput hs'
    obtain ⟨rfl, hle⟩ := hgood fun id hid =>
      hkeeps _ (by rw [hflight]; rfl) id ((Dict.mem_keys_iff _ _).mpr hid)
    exact hzero hplaced hle
  | finishRequests hs' =>
    refine hzero (he.finishRequests hs') fun id => ?_
    split <;> exact le_rfl
  | resetPrefixCache hs' => exact he.resetPrefixCache hs'
  | updateDraftTokenIds => exact he.updateDraftTokenIds _
  | resetEncoderCache => exact he

/-- If no output stops a session that is not running, every request is in its place. -/
theorem reaches_all_placed {config : SchedulerConfig} {k : KVCacheManager} {c : EncoderCache}
    {e : Engine} (h : Reaches step (fun e op => AddsFresh op ∧ e.KeepsSessions op)
      (start config k c) e) : e.scheduler.AllPlaced := by
  have hplaced : QueuesPlaced (fun _ => 0) 0 e.scheduler := by
    refine h.invariant ?_ fun e op e' he hop hstep => step_placed hstep hop.1 hop.2 he
    exact ⟨KeysOk.empty, fun id => rfl, fun id => rfl, fun id r hr => (by cases hr), rfl⟩
  exact hplaced.allPlaced

instance (request : Request) : Decidable request.Fresh :=
  decidable_of_iff ((request.status = .waiting ∨ request.status = .waitingForFsm) ∧
      request.outputTokenIds = [] ∧ request.numComputedTokens = 0 ∧
      request.numPromptTokens = request.allTokenIds.length ∧ request.specTokenIds = [] ∧
      request.numOutputPlaceholders = 0 ∧ request.discardLatestAsyncTokens = false ∧
      request.numCachedTokens = -1 ∧ request.isPrefillChunk = false ∧ request.numPreemptions = 0 ∧
      (request.poolingParams = false → request.maxTokens = request.samplingParams.maxTokens))
    ⟨fun ⟨h1, h2, h3, h4, h5, h6, h7, h8, h9, h10, h11⟩ =>
      ⟨h1, h2, h3, h4, h5, h6, h7, h8, h9, h10, h11⟩, fun ⟨h1, h2, h3, h4, h5, h6, h7, h8, h9, h10, h11⟩ =>
      ⟨h1, h2, h3, h4, h5, h6, h7, h8, h9, h10, h11⟩⟩

instance : (op : EngineOp) → Decidable (AddsFresh op)
  | .addRequest request _ => inferInstanceAs (Decidable request.Fresh)
  | .schedule _ | .updateFromOutput _ _ | .finishRequests _ _ _ | .resetPrefixCache _ _ _
  | .updateDraftTokenIds _ | .resetEncoderCache => inferInstanceAs (Decidable True)

instance (s : Scheduler) (out : ModelRunnerOutput) (id : RequestId) :
    Decidable (StopsWaitingSession s out id) :=
  decidable_of_iff (∃ request ∈ (s.requests.get? id).toList, request.status.isFinished = false ∧
      request.status ≠ .running ∧ request.resumable = true ∧ request.streamingQueue.head? ≠ some none ∧
      Scheduler.stopsOn s.config request (out.sampledTokenIds id) (out.hasPoolerOutput id) = true)
    (by simp [StopsWaitingSession])

instance (e : Engine) : (op : EngineOp) → Decidable (e.KeepsSessions op)
  | .updateFromOutput out _ =>
    inferInstanceAs (Decidable (∀ batch ∈ e.inFlight.head?,
      ∀ id ∈ batch.output.numScheduledTokens.keys, ¬ StopsWaitingSession e.scheduler out id))
  | .addRequest _ _ | .schedule _ | .finishRequests _ _ _ | .resetPrefixCache _ _ _
  | .updateDraftTokenIds _ | .resetEncoderCache => inferInstanceAs (Decidable True)

def shortSession (promptTokenIds : List TokenId) : Request where
  requestId := "r"
  promptTokenIds := some promptTokenIds
  numPromptTokens := promptTokenIds.length
  allTokenIds := promptTokenIds
  samplingParams := ⟨1, 0, false, []⟩
  maxTokens := 1
  resumable := true

def continuedSession : List EngineOp :=
  [.addRequest (shortSession [1, 2, 3]) (fun _ => false), .schedule {},
    .updateFromOutput (sampled 7) (fun _ => false),
    .addRequest (shortSession [4, 5]) (fun _ => false), .schedule {}]

def preemptedSession : List EngineOp :=
  [.addRequest (shortSession [1, 2, 3]) (fun _ => false), .schedule {},
    .resetPrefixCache true false false, .updateFromOutput (sampled 7) (fun _ => false)]

theorem reaches_all_placed_continued : ∃ k e, smallCache = .ok k ∧
    Reaches step (fun e op => AddsFresh op ∧ e.KeepsSessions op)
      (start smallConfig k (.multiModal (.new 0))) e ∧
    e.scheduler.running = ["r"] ∧ e.scheduler.AllPlaced := by
  have hrun : (smallCache.toOption.bind fun k => runAllowed step
      (fun e op => AddsFresh op ∧ e.KeepsSessions op) (start smallConfig k (.multiModal (.new 0)))
      continuedSession).map (fun e => e.scheduler.running) = some ["r"] := by decide +kernel
  obtain ⟨k, e, hk, hreach, hrunning⟩ := exists_reaches hrun
  exact ⟨k, e, hk, hreach, hrunning, reaches_all_placed hreach⟩

/-- The preempted session is in neither queue after its output has stopped it. -/
theorem session_lost : ∃ k e, smallCache = .ok k ∧
    Reaches step (fun _ op => AddsFresh op) (start smallConfig k (.multiModal (.new 0))) e ∧
    ¬ e.scheduler.AllPlaced := by
  have hrun : (smallCache.toOption.bind fun k => runAllowed step (fun _ op => AddsFresh op)
      (start smallConfig k (.multiModal (.new 0))) preemptedSession).map (fun e =>
        (e.scheduler.running, e.scheduler.waiting,
          (e.scheduler.requests.get? "r").map fun r => r.status)) =
      some ([], [], some .waitingForStreamingReq) := by decide +kernel
  obtain ⟨k, e, hk, hreach, hstate⟩ := exists_reaches hrun
  refine ⟨k, e, hk, hreach, fun hplaced => ?_⟩
  simp only [Prod.mk.injEq] at hstate
  obtain ⟨hrunning, hwaiting, hstatus⟩ := hstate
  obtain ⟨r, hr, hs⟩ := map_eq_some_iff.mp hstatus
  have hcount := hplaced.once "r" r hr (by rw [hs]; rfl)
  rw [hrunning, hwaiting] at hcount
  simp at hcount

end Engine

end CustomAi.Vllm
