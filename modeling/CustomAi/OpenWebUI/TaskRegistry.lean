import CustomAi.Lib.ListDict
import CustomAi.Lib.Run

/-!
# The registry of background tasks

`tasks.py`: `create_task` with `redis_save_task`, `cleanup_task` with `redis_cleanup_task`, and
`stop_task`.
-/

namespace CustomAi.OpenWebUI.TaskRegistry

open List Option Function Dict

open CustomAi (Dict)

abbrev Str := List Char

variable {Tid : Type} [DecidableEq Tid]

structure Redis (Tid : Type) [DecidableEq Tid] where
  tasks : Dict Tid Str
  item_tasks : Dict Str (List Tid)
  tidy : item_tasks.Tidy

/-- How far `cleanup_task` is. -/
inductive Cleanup
  | running
  | scheduled
  | emptied
  | removed
  | returned
  deriving DecidableEq

/-- A task and the calls about it. `saved` is false while `create_task` awaits Redis. -/
structure Call where
  id : Option Str
  saved : Bool
  stopped : Bool
  cleanup : Cleanup

/-- `tasks` has the keys of the dictionary of that name. -/
structure State (Tid : Type) [DecidableEq Tid] where
  tasks : List Tid
  item_tasks : Dict (Option Str) (List Tid)
  redis : Option (Redis Tid)
  calls : Tid → Option Call

inductive Op (Tid : Type)
  | create (task_id : Tid) (id : Option Str)
  | save (task_id : Tid)
  | finish (task_id : Tid)
  | stop (task_id : Tid)
  | cleanup (task_id : Tid)

inductive Disabled
  | ended

def State.start (redis : Option (Redis Tid)) : State Tid :=
  { tasks := [], item_tasks := .empty, redis := redis, calls := fun _ => none }

def truthy : Option Str → Bool
  | none | some [] => false
  | some (_ :: _) => true

namespace Redis

def hset (r : Redis Tid) (task_id : Tid) (item_id : Str) : Redis Tid :=
  { r with tasks := r.tasks.set task_id item_id }

def hdel (r : Redis Tid) (task_id : Tid) : Redis Tid :=
  { r with tasks := r.tasks.erase task_id }

def sadd (r : Redis Tid) (item_id : Str) (task_id : Tid) : Redis Tid :=
  { r with item_tasks := r.item_tasks.insertAt item_id task_id, tidy := r.tidy.insertAt }

def srem (r : Redis Tid) (item_id : Str) (task_id : Tid) : Redis Tid :=
  { r with
    item_tasks := r.item_tasks.removeFrom item_id task_id
    tidy := r.tidy.removeFrom item_id task_id }

def scard (r : Redis Tid) (item_id : Str) : ℕ := (r.item_tasks.listAt item_id).length

def delete (r : Redis Tid) (item_id : Str) : Redis Tid :=
  { r with item_tasks := r.item_tasks.erase item_id, tidy := r.tidy.erase item_id }

def mentions (r : Redis Tid) (task_id : Tid) : Bool :=
  r.tasks.contains task_id || r.item_tasks.entries.any fun e => e.2.contains task_id

end Redis

def redis_save_task (r : Redis Tid) (task_id : Tid) (item_id : Option Str) : Redis Tid :=
  let r := r.hset task_id (item_id.getD [])
  if truthy item_id then r.sadd (item_id.getD []) task_id else r

def redis_cleanup_task (r : Redis Tid) (task_id : Tid) (item_id : Option Str) : Redis Tid × Bool :=
  let r := r.hdel task_id
  if truthy item_id then
    let r := r.srem (item_id.getD []) task_id
    (r, r.scard (item_id.getD []) == 0)
  else (r, false)

/-- `cleanup_task` after Redis. -/
def cleanup_task (s : State Tid) (task_id : Tid) (id : Option Str) : State Tid :=
  { s with
    tasks := s.tasks.erase task_id
    item_tasks :=
      if truthy id && (s.item_tasks.listAt id).contains task_id then
        s.item_tasks.removeFrom id task_id
      else s.item_tasks }

/-- `create_task` before Redis. -/
def create_task (s : State Tid) (task_id : Tid) (id : Option Str) : State Tid :=
  { s with
    tasks := s.tasks ++ [task_id]
    item_tasks := s.item_tasks.appendAt id task_id }

/-- Without Redis a task leaves the registry before it is cancelled; with Redis it only gets the
signal. -/
def stop_task (s : State Tid) (task_id : Tid) : State Tid :=
  { s with tasks := if s.redis.isSome then s.tasks else s.tasks.erase task_id }

def State.note (s : State Tid) (task_id : Tid) (call : Call) : State Tid :=
  { s with calls := Function.update s.calls task_id (some call) }

def State.inUse (s : State Tid) (task_id : Tid) : Bool :=
  (s.calls task_id).isSome || s.redis.any (Redis.mentions · task_id)

def step (s : State Tid) : Op Tid → Except Disabled (State Tid)
  -- `uuid4` gives an id that is not in use
  | .create task_id id =>
    if s.inUse task_id then .error .ended
    else .ok <| (create_task s task_id id).note task_id
      { id := id, saved := s.redis.isNone, stopped := false, cleanup := .running }
  | .save task_id =>
    match s.calls task_id, s.redis with
    | some call, some r =>
      if call.saved then .error .ended
      else .ok <| { s with redis := some (redis_save_task r task_id call.id) }.note task_id
        { call with saved := true }
    | _, _ => .error .ended
  | .finish task_id =>
    match s.calls task_id with
    | some call =>
      if call.cleanup = .running then .ok (s.note task_id { call with cleanup := .scheduled })
      else .error .ended
    | none => .error .ended
  | .stop task_id =>
    match s.calls task_id with
    | some call => .ok ((stop_task s task_id).note task_id { call with stopped := true })
    | none => .error .ended
  | .cleanup task_id =>
    match s.calls task_id with
    | none => .error .ended
    | some call =>
      match call.cleanup, s.redis with
      | .scheduled, some r =>
        let (r, empty) := redis_cleanup_task r task_id call.id
        .ok <| { s with redis := some r }.note task_id
          { call with cleanup := if empty then .emptied else .removed }
      | .emptied, some r =>
        .ok <| { s with redis := some (r.delete (call.id.getD [])) }.note task_id
          { call with cleanup := .removed }
      | .scheduled, none | .removed, _ =>
        .ok <| (cleanup_task s task_id call.id).note task_id { call with cleanup := .returned }
      | _, _ => .error .ended

/-- Every task has been saved and cleaned up. -/
def Completed (s : State Tid) : Prop :=
  ∀ task_id call, s.calls task_id = some call → call.saved = true ∧ call.cleanup = .returned

/-- A task has an item id, and its `redis_save_task` executes before its `redis_cleanup_task`. -/
def SavedFirst (s : State Tid) : Op Tid → Prop
  | .create _ id => truthy id = true
  | .save task_id => ∀ call, s.calls task_id = some call → call.cleanup = .running ∨ call.cleanup = .scheduled
  | .finish _ | .stop _ | .cleanup _ => True

def Call.Listed (call : Call) : Prop :=
  call.saved = true ∧ (call.cleanup = .running ∨ call.cleanup = .scheduled)

abbrev Calls (Tid : Type) := Tid → Option Call

/-- Each task that runs is in `tasks` unless it was stopped, and what is there is not cleaned up. -/
structure TasksKept (tasks : List Tid) (calls : Calls Tid) : Prop where
  nodup : tasks.Nodup
  live : ∀ t ∈ tasks, ∃ call, calls t = some call ∧ call.cleanup ≠ .returned
  running : ∀ t call, calls t = some call → call.cleanup = .running → call.stopped = false → t ∈ tasks

structure ItemsKept (item_tasks : Dict (Option Str) (List Tid)) (calls : Calls Tid) : Prop where
  tidy : item_tasks.Tidy
  live : ∀ id t, item_tasks.Lists id t → truthy id = true ∧
    ∃ call, calls t = some call ∧ call.id = id ∧ call.cleanup ≠ .returned

structure RedisKept (r : Redis Tid) (calls : Calls Tid) : Prop where
  hash : ∀ t call, calls t = some call → r.tasks.contains t = true → call.Listed
  sets : ∀ key t call, calls t = some call → r.item_tasks.Lists key t →
    truthy call.id = true ∧ call.id = some key ∧ call.Listed

structure Kept (s : State Tid) : Prop where
  tasks : TasksKept s.tasks s.calls
  items : ItemsKept s.item_tasks s.calls
  redis : ∀ r, s.redis = some r → RedisKept r s.calls

variable {s s' : State Tid} {r : Redis Tid} {t : Tid} {call call' : Call} {calls : Calls Tid}
  {tasks : List Tid} {item_tasks : Dict (Option Str) (List Tid)} {id : Option Str}

lemma Redis.not_mentions_iff : r.mentions t = false ↔
    r.tasks.contains t = false ∧ ∀ key, ¬ r.item_tasks.Lists key t := by
  rw [Redis.mentions, Bool.or_eq_false_iff]
  refine and_congr_right fun _ => ?_
  constructor
  · intro h key hlists
    rw [Dict.Lists, listAt] at hlists
    cases hget : r.item_tasks.get? key with
    | none => simp [hget] at hlists
    | some l =>
      have hmem := (mem_entries_iff _ _ _).mpr hget
      have hnot := List.any_eq_false.mp h _ hmem
      simp only [hget, getD_some] at hlists
      exact hnot (by simpa using hlists)
  · intro h
    rw [List.any_eq_false]
    intro e he hcontains
    refine h e.1 ?_
    rw [Dict.Lists, listAt, (mem_entries_iff _ e.1 e.2).mp he]
    simpa using hcontains

lemma update_eq_some {t' : Tid} {c : Call} : update calls t (some call') t' = some c ↔
      (t' = t ∧ call' = c) ∨ (t' ≠ t ∧ calls t' = some c) := by
  by_cases ht : t' = t
  · simp [ht]
  · simp [ht]

namespace TasksKept

lemma relabel (h : TasksKept tasks calls) (hcall : calls t = some call)
    (hreturned : call.cleanup ≠ .returned → call'.cleanup ≠ .returned)
    (hrunning : call'.cleanup = .running → call'.stopped = false → call.cleanup = .running ∧ call.stopped = false) :
    TasksKept tasks (update calls t (some call')) where
  nodup := h.nodup
  live t' ht' := by
    obtain ⟨c, hc, hlive⟩ := h.live t' ht'
    by_cases ht : t' = t
    · subst ht
      cases hcall.symm.trans hc
      exact ⟨call', update_eq_some.mpr (.inl ⟨rfl, rfl⟩), hreturned hlive⟩
    · exact ⟨c, update_eq_some.mpr (.inr ⟨ht, hc⟩), hlive⟩
  running t' c hc hrun hstop := by
    obtain ⟨rfl, rfl⟩ | ⟨-, hc⟩ := update_eq_some.mp hc
    · obtain ⟨hrun, hstop⟩ := hrunning hrun hstop
      exact h.running _ call hcall hrun hstop
    · exact h.running t' c hc hrun hstop

lemma append (h : TasksKept tasks calls) (hnew : calls t = none) (hreturned : call'.cleanup ≠ .returned) :
    TasksKept (tasks ++ [t]) (update calls t (some call')) := by
  have hnot : t ∉ tasks := by
    intro ht
    obtain ⟨c, hc, -⟩ := h.live t ht
    rw [hnew] at hc
    cases hc
  constructor
  case nodup =>
    exact List.nodup_append.mpr ⟨h.nodup, nodup_singleton t, by
      rintro x hx y hy rfl
      exact hnot (mem_singleton.mp hy ▸ hx)⟩
  case live =>
    intro t' ht'
    obtain ht' | ht' := mem_append.mp ht'
    · obtain ⟨c, hc, hlive⟩ := h.live t' ht'
      exact ⟨c, update_eq_some.mpr (.inr ⟨fun e => hnot (e ▸ ht'), hc⟩), hlive⟩
    · exact ⟨call', update_eq_some.mpr (.inl ⟨mem_singleton.mp ht', rfl⟩), hreturned⟩
  case running =>
    intro t' c hc hrun hstop
    obtain ⟨rfl, rfl⟩ | ⟨-, hc⟩ := update_eq_some.mp hc
    · exact mem_append_right _ (mem_singleton_self _)
    · exact mem_append_left _ (h.running t' c hc hrun hstop)

lemma erase (h : TasksKept tasks calls) (hrunning : call'.cleanup = .running → call'.stopped = true) :
    TasksKept (tasks.erase t) (update calls t (some call')) where
  nodup := h.nodup.erase t
  live t' ht' := by
    obtain ⟨hne, ht'⟩ := h.nodup.mem_erase_iff.mp ht'
    obtain ⟨c, hc, hlive⟩ := h.live t' ht'
    exact ⟨c, update_eq_some.mpr (.inr ⟨hne, hc⟩), hlive⟩
  running t' c hc hrun hstop := by
    obtain ⟨rfl, rfl⟩ | ⟨hne, hc⟩ := update_eq_some.mp hc
    · rw [hrunning hrun] at hstop
      cases hstop
    · exact h.nodup.mem_erase_iff.mpr ⟨hne, h.running t' c hc hrun hstop⟩

end TasksKept

namespace ItemsKept

section

variable (h : ItemsKept item_tasks calls)
include h

lemma relabel (hcall : calls t = some call) (hid : call'.id = call.id)
    (hreturned : call.cleanup ≠ .returned → call'.cleanup ≠ .returned) :
    ItemsKept item_tasks (update calls t (some call')) where
  tidy := h.tidy
  live id t' ht' := by
    obtain ⟨htruthy, c, hc, hcid, hlive⟩ := h.live id t' ht'
    refine ⟨htruthy, ?_⟩
    by_cases ht : t' = t
    · subst ht
      cases hcall.symm.trans hc
      exact ⟨call', update_eq_some.mpr (.inl ⟨rfl, rfl⟩), hid.trans hcid, hreturned hlive⟩
    · exact ⟨c, update_eq_some.mpr (.inr ⟨ht, hc⟩), hcid, hlive⟩

lemma append (hnew : calls t = none) (hid : call'.id = id)
    (htruthy : truthy id = true) (hreturned : call'.cleanup ≠ .returned) :
    ItemsKept (item_tasks.appendAt id t) (update calls t (some call')) := by
  have hnot : ∀ id, ¬ item_tasks.Lists id t := by
    intro id ht
    obtain ⟨-, c, hc, -⟩ := h.live id t ht
    rw [hnew] at hc
    cases hc
  constructor
  case tidy => exact h.tidy.appendAt (hnot _)
  case live =>
    intro id t' ht'
    obtain ht' | ⟨rfl, rfl⟩ := lists_appendAt.mp ht'
    · obtain ⟨htruthy, c, hc, hlive⟩ := h.live id t' ht'
      exact ⟨htruthy, c, update_eq_some.mpr (.inr ⟨fun e => hnot id (e ▸ ht'), hc⟩), hlive⟩
    · exact ⟨htruthy, call', update_eq_some.mpr (.inl ⟨rfl, rfl⟩), hid, hreturned⟩

lemma erase (hcall : calls t = some call) : ItemsKept
      (if truthy call.id && (item_tasks.listAt call.id).contains t then item_tasks.removeFrom call.id t
      else item_tasks) (update calls t (some call')) := by
  have hkeep : ∀ id t', item_tasks.Lists id t' → t' ≠ t → truthy id = true ∧
      ∃ c, update calls t (some call') t' = some c ∧ c.id = id ∧ c.cleanup ≠ .returned := by
    intro id t' ht' hne
    obtain ⟨htruthy, c, hc, hlive⟩ := h.live id t' ht'
    exact ⟨htruthy, c, update_eq_some.mpr (.inr ⟨hne, hc⟩), hlive⟩
  have hown : ∀ id, item_tasks.Lists id t → truthy id = true ∧ id = call.id := by
    intro id ht
    obtain ⟨htruthy, c, hc, hcid, -⟩ := h.live id t ht
    cases hcall.symm.trans hc
    exact ⟨htruthy, hcid.symm⟩
  split
  · refine ⟨h.tidy.removeFrom call.id t, fun id t' hlists => ?_⟩
    obtain ⟨ht', hnot⟩ := h.tidy.lists_removeFrom.mp hlists
    refine hkeep id t' ht' fun ht => ?_
    subst ht
    exact hnot ⟨(hown id ht').2, rfl⟩
  · rename_i hcontains
    refine ⟨h.tidy, fun id t' ht' => hkeep id t' ht' ?_⟩
    rintro rfl
    obtain ⟨htruthy, rfl⟩ := hown id ht'
    rw [htruthy] at hcontains
    exact hcontains (contains_iff_mem.mpr ht')

end

end ItemsKept

namespace RedisKept

section

variable (h : RedisKept r calls)
include h

lemma relabel (hcall : calls t = some call) (hid : call'.id = call.id)
    (hlisted : call.Listed → call'.Listed) : RedisKept r (update calls t (some call')) where
  hash t' c hc hhash := by
    obtain ⟨rfl, rfl⟩ | ⟨-, hc⟩ := update_eq_some.mp hc
    · exact hlisted (h.hash _ call hcall hhash)
    · exact h.hash t' c hc hhash
  sets key t' c hc hset := by
    obtain ⟨rfl, rfl⟩ | ⟨-, hc⟩ := update_eq_some.mp hc
    · obtain ⟨htruthy, hkey, hcall⟩ := h.sets key _ call hcall hset
      exact ⟨hid ▸ htruthy, hid.trans hkey, hlisted hcall⟩
    · exact h.sets key t' c hc hset

lemma of_not_mentions (hnot : r.mentions t = false) : RedisKept r (update calls t (some call')) := by
  obtain ⟨hhash, hsets⟩ := Redis.not_mentions_iff.mp hnot
  constructor
  case hash =>
    intro t' c hc hcontains
    obtain ⟨rfl, rfl⟩ | ⟨-, hc⟩ := update_eq_some.mp hc
    · rw [hhash] at hcontains
      cases hcontains
    · exact h.hash t' c hc hcontains
  case sets =>
    intro key t' c hc hlists
    obtain ⟨rfl, rfl⟩ | ⟨-, hc⟩ := update_eq_some.mp hc
    · exact absurd hlists (hsets key)
    · exact h.sets key t' c hc hlists

lemma hset (hlisted : ∀ c, calls t = some c → c.Listed) (key : Str) : RedisKept (r.hset t key) calls where
  hash t' c hc hcontains := by
    by_cases ht : t' = t
    · exact hlisted c (ht ▸ hc)
    · refine h.hash t' c hc ?_
      simpa [Redis.hset, Dict.contains, Dict.get?_set, ht] using hcontains
  sets := h.sets

lemma sadd {key : Str} (hlisted : ∀ c, calls t = some c → truthy c.id = true ∧ c.id = some key ∧ c.Listed) :
    RedisKept (r.sadd key t) calls where
  hash := h.hash
  sets key' t' c hc hlists := by
    obtain hlists | ⟨rfl, rfl⟩ := lists_insertAt.mp hlists
    · exact h.sets key' t' c hc hlists
    · exact hlisted c hc

lemma hdel : RedisKept (r.hdel t) calls where
  hash t' c hc hcontains := by
    refine h.hash t' c hc ?_
    rw [Redis.hdel, contains_erase] at hcontains
    exact (by simpa using hcontains : _ ∧ _).2
  sets := h.sets

lemma srem {key : Str} : RedisKept (r.srem key t) calls where
  hash := h.hash
  sets key' t' c hc hlists := h.sets key' t' c hc (r.tidy.lists_removeFrom.mp hlists).1

lemma delete {key : Str} : RedisKept (r.delete key) calls where
  hash := h.hash
  sets key' t' c hc hlists := h.sets key' t' c hc (lists_erase.mp hlists).1

end

lemma redis_cleanup_task (h : RedisKept r calls) (hcall : calls t = some call) :
    RedisKept (redis_cleanup_task r t call.id).1 calls ∧ (redis_cleanup_task r t call.id).1.mentions t = false := by
  have hgone : (r.hdel t).tasks.contains t = false := by
    rw [Redis.hdel]
    simp
  unfold TaskRegistry.redis_cleanup_task
  split
  · refine ⟨h.hdel.srem, Redis.not_mentions_iff.mpr ⟨hgone, fun key hlists => ?_⟩⟩
    obtain ⟨hlists, hnot⟩ := r.tidy.lists_removeFrom.mp hlists
    obtain ⟨-, hkey, -⟩ := h.sets key t call hcall hlists
    refine hnot ⟨?_, rfl⟩
    rw [hkey, getD_some]
  · rename_i htruthy
    refine ⟨h.hdel, Redis.not_mentions_iff.mpr ⟨hgone, fun key hlists => ?_⟩⟩
    exact htruthy (h.sets key t call hcall hlists).1

lemma redis_save_task (h : RedisKept r calls) (hcall : calls t = some call)
    (hid : call.id = id) (hlisted : call.Listed) : RedisKept (redis_save_task r t id) calls := by
  subst hid
  have hhset : RedisKept (r.hset t (call.id.getD [])) calls := by
    refine h.hset (fun c hc => ?_) _
    cases hcall.symm.trans hc
    exact hlisted
  unfold TaskRegistry.redis_save_task
  split
  · rename_i htruthy
    refine hhset.sadd fun c hc => ?_
    cases hcall.symm.trans hc
    refine ⟨htruthy, ?_, hlisted⟩
    cases hid : call.id with
    | none =>
      rw [hid] at htruthy
      cases htruthy
    | some key => rfl
  · exact hhset

end RedisKept

lemma Kept.start (redis : Option (Redis Tid)) : Kept (State.start redis) where
  tasks := ⟨nodup_nil, (fun t ht => by cases ht), (fun t call h => by cases h)⟩
  items := ⟨.empty, fun id t h => absurd h not_lists_empty⟩
  redis r _ := ⟨(fun t call h => by cases h), (fun key t call h => by cases h)⟩

section

variable (h : Kept s)
include h

lemma Kept.relabel (hcall : s.calls t = some call) (hid : call'.id = call.id)
    (hreturned : call.cleanup ≠ .returned → call'.cleanup ≠ .returned)
    (hrunning : call'.cleanup = .running → call'.stopped = false → call.cleanup = .running ∧ call.stopped = false)
    (hlisted : call.Listed → call'.Listed) : Kept (s.note t call') where
  tasks := h.tasks.relabel hcall hreturned hrunning
  items := h.items.relabel hcall hid hreturned
  redis r hr := (h.redis r hr).relabel hcall hid hlisted

lemma Kept.create_task (hnew : s.inUse t = false) (htruthy : truthy id = true) :
    Kept ((create_task s t id).note t
      { id := id, saved := s.redis.isNone, stopped := false, cleanup := .running }) := by
  rw [State.inUse, Bool.or_eq_false_iff] at hnew
  have hnone : s.calls t = none := by simpa using hnew.1
  constructor
  case tasks => exact h.tasks.append hnone Cleanup.noConfusion
  case items => exact h.items.append hnone rfl htruthy Cleanup.noConfusion
  case redis =>
    intro r hr
    refine (h.redis r hr).of_not_mentions ?_
    have hmentions := hnew.2
    have hr' : s.redis = some r := hr
    rw [hr'] at hmentions
    exact hmentions

lemma Kept.save (hcall : s.calls t = some call) (hr : s.redis = some r)
    (hpending : call.cleanup = .running ∨ call.cleanup = .scheduled) :
    Kept ({ s with redis := some (redis_save_task r t call.id) }.note t
      { call with saved := true }) where
  tasks := h.tasks.relabel hcall (fun h => h) fun hrun hstop => ⟨hrun, hstop⟩
  items := h.items.relabel hcall rfl fun h => h
  redis r' hr' := by
    cases hr'
    have hlisted : Call.Listed { call with saved := true } := ⟨rfl, hpending⟩
    have hkept : RedisKept r (update s.calls t (some { call with saved := true })) :=
      (h.redis r hr).relabel hcall rfl fun _ => hlisted
    exact hkept.redis_save_task (update_eq_some.mpr (.inl ⟨rfl, rfl⟩)) rfl hlisted

lemma Kept.stop_task (hcall : s.calls t = some call) :
    Kept ((stop_task s t).note t { call with stopped := true }) := by
  constructor
  case tasks =>
    change TasksKept (if s.redis.isSome then s.tasks else s.tasks.erase t) _
    split
    · exact h.tasks.relabel hcall (fun h => h) fun _ hstop => by cases hstop
    · exact h.tasks.erase fun _ => rfl
  case items => exact h.items.relabel hcall rfl fun h => h
  case redis => exact fun r hr => (h.redis r hr).relabel hcall rfl fun h => h

lemma Kept.redis_cleanup_task (hcall : s.calls t = some call)
    (hr : s.redis = some r) {cleanup : Cleanup} (hrunning : cleanup ≠ .running) (hreturned : cleanup ≠ .returned) :
    Kept ({ s with redis := some (redis_cleanup_task r t call.id).1 }.note t
      { call with cleanup := cleanup }) where
  tasks := h.tasks.relabel hcall (fun _ => hreturned) fun hrun => absurd hrun hrunning
  items := h.items.relabel hcall rfl fun _ => hreturned
  redis r' hr' := by
    cases hr'
    obtain ⟨hkept, hnot⟩ := (h.redis r hr).redis_cleanup_task hcall
    exact hkept.of_not_mentions hnot

lemma Kept.cleanup_task (hcall : s.calls t = some call) (hlisted : s.redis = none ∨ ¬ call.Listed) :
    Kept ((cleanup_task s t call.id).note t { call with cleanup := .returned }) where
  tasks := h.tasks.erase fun hrun => by cases hrun
  items := h.items.erase hcall
  redis r hr := by
    have hr' : s.redis = some r := hr
    obtain hnone | hnot := hlisted
    · rw [hnone] at hr'
      cases hr'
    · exact (h.redis r hr').relabel hcall rfl fun hcall => absurd hcall hnot

lemma Kept.step {op : Op Tid} (hfirst : SavedFirst s op) (hs : step s op = .ok s') : Kept s' := by
  cases op with
  | create t id =>
    simp only [TaskRegistry.step] at hs
    split at hs
    · cases hs
    · rename_i hnew
      cases hs
      exact h.create_task (by simpa using hnew) hfirst
  | save t =>
    simp only [TaskRegistry.step] at hs
    split at hs
    · rename_i call r hcall hr
      split at hs
      · cases hs
      · cases hs
        exact h.save hcall hr (hfirst call hcall)
    · cases hs
  | finish t =>
    simp only [TaskRegistry.step] at hs
    split at hs
    · rename_i call hcall
      split at hs
      · cases hs
        refine h.relabel hcall rfl (fun _ => by simp) (fun hrun => by cases hrun) fun hlisted => ?_
        exact ⟨hlisted.1, .inr rfl⟩
      · cases hs
    · cases hs
  | stop t =>
    simp only [TaskRegistry.step] at hs
    split at hs
    · rename_i call hcall
      cases hs
      exact h.stop_task hcall
    · cases hs
  | cleanup t =>
    simp only [TaskRegistry.step] at hs
    split at hs
    · cases hs
    · rename_i call hcall
      split at hs
      · rename_i r hphase hr
        cases hs
        exact h.redis_cleanup_task hcall hr (by split <;> simp) (by split <;> simp)
      · rename_i r hphase hr
        cases hs
        have hnot : ¬ call.Listed := by simp [Call.Listed, hphase]
        constructor
        case tasks => exact h.tasks.relabel hcall (fun _ => by simp) fun hrun => by cases hrun
        case items => exact h.items.relabel hcall rfl fun _ => by simp
        case redis =>
          intro r' hr'
          cases hr'
          exact (h.redis r hr).delete.relabel hcall rfl fun hlisted => absurd hlisted hnot
      · rename_i hphase hr
        cases hs
        exact h.cleanup_task hcall (.inl hr)
      · rename_i hphase
        cases hs
        exact h.cleanup_task hcall (.inr (by simp [Call.Listed, hphase]))
      · cases hs

end

/-- If each task has an item id and is saved before its cleanup, running tasks are registered and
ended ones leave nothing. -/
theorem reaches_registered (redis : Option (Redis Tid)) (s : State Tid)
    (h : Reaches step SavedFirst (.start redis) s) :
    (∀ task_id call, s.calls task_id = some call → call.cleanup = .running →
      call.stopped = false → task_id ∈ s.tasks) ∧ (Completed s → s.tasks = [] ∧ s.item_tasks.entries = [] ∧
      ∀ r task_id, s.redis = some r → (s.calls task_id).isSome = true →
        r.tasks.contains task_id = false ∧ ∀ item_id, ¬ r.item_tasks.Lists item_id task_id) := by
  have hkept : Kept s := h.invariant (.start redis) fun _ _ _ hkept hfirst hs =>
    hkept.step hfirst hs
  refine ⟨hkept.tasks.running, fun hdone => ⟨?_, ?_, ?_⟩⟩
  · rw [eq_nil_iff_forall_not_mem]
    intro t ht
    obtain ⟨call, hcall, hlive⟩ := hkept.tasks.live t ht
    exact hlive (hdone t call hcall).2
  · refine hkept.items.tidy.entries_eq_nil fun id t ht => ?_
    obtain ⟨-, call, hcall, -, hlive⟩ := hkept.items.live id t ht
    exact hlive (hdone t call hcall).2
  · intro r t hr ht
    obtain ⟨call, hcall⟩ := isSome_iff_exists.mp ht
    have hnot : ¬ call.Listed := by simp [Call.Listed, (hdone t call hcall).2]
    refine ⟨?_, fun key hlists => hnot ((hkept.redis r hr).sets key t call hcall hlists).2.2⟩
    rw [← Bool.not_eq_true]
    exact fun hcontains => hnot ((hkept.redis r hr).hash t call hcall hcontains)

def noTasks : Redis ℕ := { tasks := .empty, item_tasks := .empty, tidy := .empty }

/-- A task of a chat is saved, finishes and is cleaned up. -/
theorem reaches_registered_one : ∃ s : State ℕ,
    Reaches step SavedFirst (.start (some noTasks)) s ∧ (s.calls 0).isSome = true ∧ s.tasks = [] := by
  have hreach : ∃ s : State ℕ, Reaches step SavedFirst (.start (some noTasks)) s ∧
      (s.calls 0).isSome = true ∧ Completed s := by
    refine ⟨_, .step (.cleanup 0) (.step (.cleanup 0) (.step (.cleanup 0) (.step (.finish 0)
      (.step (.save 0) (.step (.create 0 (some ['c'])) .start rfl rfl) ?_ rfl) trivial rfl)
      trivial rfl) trivial rfl) trivial rfl, rfl, ?_⟩
    · intro call hcall
      cases hcall
      exact .inl rfl
    · intro t call hcall
      by_cases ht : t = 0
      · subst ht
        cases hcall
        exact ⟨rfl, rfl⟩
      · simp [State.note, cleanup_task, create_task, State.start, ht] at hcall
  obtain ⟨s, hs, hcall, hdone⟩ := hreach
  exact ⟨s, hs, hcall, ((reaches_registered (some noTasks) s hs).2 hdone).1⟩

/-- A task without an item id stays in `item_tasks`. -/
theorem item_entry_left : ¬ ∀ s : State ℕ, Reaches step (fun _ _ => True) (.start none) s →
    Completed s → s.item_tasks.entries = [] := by
  intro hempty
  have hreach : ∃ s : State ℕ, Reaches step (fun _ _ => True) (.start none) s ∧ Completed s ∧
      s.item_tasks.entries = [(none, [0])] := by
    refine ⟨_, .step (.cleanup 0) (.step (.finish 0) (.step (.create 0 none) .start trivial rfl)
      trivial rfl) trivial rfl, ?_, rfl⟩
    intro t call hcall
    by_cases ht : t = 0
    · subst ht
      cases hcall
      exact ⟨rfl, rfl⟩
    · simp [State.note, cleanup_task, create_task, State.start, ht] at hcall
  obtain ⟨s, hs, hdone, hentries⟩ := hreach
  rw [hempty s hs hdone] at hentries
  cases hentries

end CustomAi.OpenWebUI.TaskRegistry
