import CustomAi.Lib.Heap
import CustomAi.Lib.Dict
import CustomAi.Vllm.Request

/-!
# Request queues

`vllm/v1/core/sched/request_queue.py`. A queue holds ids, since the scheduler has one record for
each id: a `FCFSRequestQueue` is the list of its entries, a `PriorityRequestQueue` its heap.
-/

namespace CustomAi.Vllm

inductive SchedulingPolicy
  | fcfs
  | priority
  deriving DecidableEq, Repr

/-- `Request.__lt__` -/
def Request.before (r other : Request) : Bool :=
  if r.priority ≠ other.priority then r.priority < other.priority
  else if r.arrivalTime ≠ other.arrivalTime then r.arrivalTime < other.arrivalTime
  else r.requestId < other.requestId

def requestBefore (requests : Dict RequestId Request) (a b : RequestId) : Bool :=
  match requests.get? a, requests.get? b with
  | some r, some other => r.before other
  | _, _ => false

abbrev RequestQueue := List RequestId

namespace RequestQueue

variable (policy : SchedulingPolicy) (lt : RequestId → RequestId → Bool) (q : RequestQueue)

def addRequest (requestId : RequestId) : RequestQueue :=
  match policy with
  | .fcfs => q ++ [requestId]
  | .priority => Heap.heappush lt q requestId

def popRequest : Option (RequestId × RequestQueue) :=
  match policy with
  | .fcfs =>
    match q with
    | [] => none
    | requestId :: rest => some (requestId, rest)
  | .priority => Heap.heappop lt q

def peekRequest : Option RequestId := q.head?

def prependRequest (requestId : RequestId) : RequestQueue :=
  match policy with
  | .fcfs => requestId :: q
  | .priority => Heap.heappush lt q requestId

def iter : List RequestId :=
  match policy with
  | .fcfs => q
  | .priority => Heap.drain lt q.length q

/-- `prepend_requests`. A FCFS queue gets them in reverse order. -/
def prependRequests (requests : RequestQueue) : RequestQueue :=
  match policy with
  | .fcfs => requests.reverse ++ q
  | .priority => (iter policy lt requests).foldl (Heap.heappush lt) q

def removeRequests (requests : List RequestId) : RequestQueue :=
  let kept := q.filter fun requestId => requestId ∉ requests
  match policy with
  | .fcfs => kept
  | .priority => Heap.heapify lt kept

variable {policy lt q}

lemma addRequest_perm (requestId : RequestId) : (addRequest policy lt q requestId).Perm (requestId :: q) := by
  cases policy with
  | fcfs => exact List.perm_append_singleton requestId q
  | priority => exact Heap.heappush_perm q requestId

lemma popRequest_spec {requestId : RequestId} {rest : RequestQueue}
    (h : popRequest policy lt q = some (requestId, rest)) :
    q.peekRequest = some requestId ∧ (requestId :: rest).Perm q := by
  cases policy with
  | fcfs =>
    cases q with
    | nil => cases h
    | cons x l =>
      obtain ⟨rfl, rfl⟩ := Prod.mk.inj (Option.some.inj h)
      exact ⟨rfl, .refl _⟩
  | priority => exact Heap.heappop_spec h

lemma prependRequest_perm (requestId : RequestId) :
    (prependRequest policy lt q requestId).Perm (requestId :: q) := by
  cases policy with
  | fcfs => exact .refl _
  | priority => exact Heap.heappush_perm q requestId

lemma foldl_heappush_perm (l : List RequestId) : (l.foldl (Heap.heappush lt) q).Perm (l ++ q) := by
  induction l generalizing q with
  | nil => exact .refl _
  | cons x l ih =>
    refine ih.trans ?_
    exact ((Heap.heappush_perm q x).append_left l).trans List.perm_middle

lemma prependRequests_perm (requests : RequestQueue) :
    (prependRequests policy lt q requests).Perm (requests ++ q) := by
  cases policy with
  | fcfs => exact (List.reverse_perm requests).append_right q
  | priority => exact (foldl_heappush_perm _).trans ((Heap.drain_perm le_rfl).append_right q)

lemma removeRequests_perm (requests : List RequestId) :
    (removeRequests policy lt q requests).Perm (q.filter fun r => r ∉ requests) := by
  cases policy with
  | fcfs => exact .refl _
  | priority => exact Heap.heapify_perm _

end RequestQueue

end CustomAi.Vllm
