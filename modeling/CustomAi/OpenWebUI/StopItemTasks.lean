import Mathlib.Logic.Function.Basic
import Mathlib.Logic.Relation
import Mathlib.Data.List.Nodup

/-!
# Stopping the tasks of an item

Without Redis `stop_item_tasks` walks the list of an item's tasks itself, while the tasks end and
their cleanups take them out of it.
-/

namespace CustomAi.OpenWebUI.StopItemTasks

open List Function Option

abbrev TaskId := ℕ

inductive Outcome where
  | returned
  | cancelled
  | failed
  deriving DecidableEq

/-- Where `stop_item_tasks` stands. -/
inductive Loop where
  | awaiting (index : ℕ) (task_id : TaskId)
  | ended
  deriving DecidableEq

structure State where
  /-- The keys of `tasks`. -/
  tasks : List TaskId
  /-- `item_tasks.get(id, [])` -/
  item_tasks : List TaskId
  /-- The list that the loop walks, and whether it still is the one of the item. -/
  walked : List TaskId := []
  shared : Bool := false
  outcome : TaskId → Option Outcome
  cancel_requested : TaskId → Bool
  cleaned : TaskId → Bool
  loop : Loop := .ended

namespace State

/-- The loop from an index on, with `stop_task` for each task until one has to be awaited. -/
def advance (s : State) (index : ℕ) : List TaskId → State
  | [] => { s with loop := .ended }
  | task_id :: rest =>
    if task_id ∈ s.tasks then
      let popped := { s with tasks := s.tasks.erase task_id }
      match s.outcome task_id with
      | none =>
        { popped with
          cancel_requested := Function.update s.cancel_requested task_id true
          loop := .awaiting index task_id }
      | some .failed => { popped with loop := .ended }
      | some _ => advance popped (index + 1) rest
    else { s with loop := .ended }

/-- The call up to its first suspension. -/
def stop_item_tasks (s : State) : State :=
  advance { s with walked := s.item_tasks, shared := true } 0 s.item_tasks

/-- The awaited task has ended. -/
def resume (s : State) (index : ℕ) (outcome : Outcome) : State :=
  if outcome = .failed then { s with loop := .ended }
  else s.advance (index + 1) (s.walked.drop (index + 1))

def finish_task (s : State) (task_id : TaskId) (outcome : Outcome) : State :=
  { s with outcome := Function.update s.outcome task_id (some outcome) }

def cleanup_task (s : State) (task_id : TaskId) : State :=
  let item_tasks := s.item_tasks.erase task_id
  { s with
    tasks := s.tasks.erase task_id
    item_tasks
    walked := if s.shared then item_tasks else s.walked
    -- An empty list is no longer the one of the item.
    shared := s.shared && !item_tasks.isEmpty
    cleaned := Function.update s.cleaned task_id true }

def create_task (s : State) (task_id : TaskId) : State :=
  if s.item_tasks = [] then
    { s with tasks := s.tasks ++ [task_id], item_tasks := [task_id], shared := false }
  else
    { s with
      tasks := s.tasks ++ [task_id]
      item_tasks := s.item_tasks ++ [task_id]
      walked := if s.shared then s.item_tasks ++ [task_id] else s.walked }

end State

/-- What can happen while the loop awaits a task. -/
inductive Step : State → State → Prop
  | finish {s : State} (task_id : TaskId) (outcome : Outcome) (h : s.outcome task_id = none) :
      Step s (s.finish_task task_id outcome)
  | cleanup {s : State} (task_id : TaskId) (hdone : s.outcome task_id ≠ none)
      (h : s.cleaned task_id = false) : Step s (s.cleanup_task task_id)
  | create {s : State} (task_id : TaskId) (htasks : task_id ∉ s.tasks)
      (hitem : task_id ∉ s.item_tasks) (h : s.outcome task_id = none) :
      Step s (s.create_task task_id)
  | resume {s : State} (index : ℕ) (task_id : TaskId) (outcome : Outcome)
      (hloop : s.loop = .awaiting index task_id) (h : s.outcome task_id = some outcome) :
      Step s (s.resume index outcome)

namespace State

/-- The task is done or was asked to cancel. -/
def Settled (s : State) (task_id : TaskId) : Prop :=
  s.outcome task_id ≠ none ∨ s.cancel_requested task_id = true

/-- Whenever the call ends, every task that was registered for the item is settled. -/
def StopsAll (s : State) : Prop :=
  ∀ s', Relation.ReflTransGen Step s.stop_item_tasks s' → s'.loop = .ended →
    ∀ task_id ∈ s.item_tasks, s'.Settled task_id

/-- At most one task has to be stopped, and those before it ended without an error. -/
def OneToStop (s : State) : Prop :=
  (∀ task_id ∈ s.item_tasks, s.Settled task_id) ∨
    ∃ before task_id after, s.item_tasks = before ++ task_id :: after ∧ task_id ∈ s.tasks ∧
      (∀ x ∈ before, x ∈ s.tasks ∧ ∃ outcome, s.outcome x = some outcome ∧ outcome ≠ .failed) ∧
      ∀ x ∈ after, s.Settled x

variable {s s' : State} {task_id : TaskId}

lemma advance_settled (index : ℕ) (l : List TaskId) (h : s.Settled task_id) :
    (s.advance index l).Settled task_id := by
  induction l generalizing s index with
  | nil => exact h
  | cons t rest ih =>
    rw [advance]
    split_ifs
    · split
      · refine h.imp id fun hrequested => ?_
        dsimp only
        by_cases ht : task_id = t
        · rw [ht, update_self]
        · rw [update_of_ne ht, hrequested]
      · exact h
      · exact ih (s := { s with tasks := s.tasks.erase t }) (index + 1) h
    · exact h

/-- The first part of the call ends with the tasks as they were, or it awaits the first task that is
still running. -/
lemma advance_spec (index : ℕ) (l : List TaskId) :
    ((s.advance index l).loop = .ended ∧ ∀ x, (s.advance index l).Settled x → s.Settled x) ∨
      ∃ before t after, l = before ++ t :: after ∧
        (∀ x ∈ before, x ∈ s.tasks ∧ ∃ outcome, s.outcome x = some outcome ∧ outcome ≠ .failed) ∧
        t ∈ s.tasks ∧ s.outcome t = none ∧ (s.advance index l).loop = .awaiting (index + before.length) t ∧
        (s.advance index l).outcome = s.outcome ∧
        (s.advance index l).cancel_requested = update s.cancel_requested t true := by
  induction l generalizing s index with
  | nil => exact .inl ⟨rfl, fun _ h => h⟩
  | cons t rest ih =>
    by_cases ht : t ∈ s.tasks
    · cases houtcome : s.outcome t with
      | none =>
        rw [advance, if_pos ht, houtcome]
        exact .inr ⟨[], t, rest, rfl, by simp, ht, houtcome, rfl, rfl, rfl⟩
      | some outcome =>
        by_cases hfailed : outcome = .failed
        · rw [advance, if_pos ht, houtcome, hfailed]
          exact .inl ⟨rfl, fun _ h => h⟩
        · have hnext : s.advance index (t :: rest) =
              State.advance { s with tasks := s.tasks.erase t } (index + 1) rest := by
            rw [advance, if_pos ht, houtcome]
            cases outcome <;> first | rfl | exact absurd rfl hfailed
          rw [hnext]
          refine (ih (s := { s with tasks := s.tasks.erase t }) (index + 1)).imp id ?_
          rintro ⟨before, u, after, rfl, hbefore, hu, hnone, hloop, hout, hreq⟩
          refine ⟨t :: before, u, after, rfl, ?_, mem_of_mem_erase hu, hnone, ?_, hout, hreq⟩
          · refine forall_mem_cons.mpr ⟨⟨ht, outcome, houtcome, hfailed⟩, fun x hx => ?_⟩
            exact ⟨mem_of_mem_erase (hbefore x hx).1, (hbefore x hx).2⟩
          · rw [hloop, length_cons]
            congr 1
            omega
    · rw [advance, if_neg ht]
      exact .inl ⟨rfl, fun _ h => h⟩

/-- The first part of the call gets past tasks that ended without an error. -/
lemma advance_append (index : ℕ) {before : List TaskId} (rest : List TaskId) (hnd : before.Nodup)
    (h : ∀ x ∈ before, x ∈ s.tasks ∧ ∃ outcome, s.outcome x = some outcome ∧ outcome ≠ .failed) :
    ∃ tasks, (∀ x ∉ before, x ∈ s.tasks → x ∈ tasks) ∧ s.advance index (before ++ rest) =
      State.advance { s with tasks } (index + before.length) rest := by
  induction before generalizing s index with
  | nil => exact ⟨s.tasks, fun _ _ hx => hx, rfl⟩
  | cons t before ih =>
    rw [forall_mem_cons] at h
    rw [nodup_cons] at hnd
    obtain ⟨⟨ht, outcome, houtcome, hfailed⟩, hrest⟩ := h
    obtain ⟨tasks, htasks, heq⟩ := ih (s := { s with tasks := s.tasks.erase t }) (index + 1) hnd.2
      fun x hx => ⟨(mem_erase_of_ne (ne_of_mem_of_not_mem hx hnd.1)).mpr (hrest x hx).1, (hrest x hx).2⟩
    refine ⟨tasks, fun x hx hmem => ?_, ?_⟩
    · rw [mem_cons, not_or] at hx
      exact htasks x hx.2 ((mem_erase_of_ne hx.1).mpr hmem)
    · rw [cons_append, advance, if_pos ht, houtcome, length_cons,
        show index + (before.length + 1) = index + 1 + before.length by omega, ← heq]
      cases outcome <;> first | rfl | exact absurd rfl hfailed

end State

open State

variable {s s' : State} {task_id : TaskId}

lemma Step.settled (hstep : Step s s') (h : s.Settled task_id) : s'.Settled task_id := by
  cases hstep with
  | finish t outcome hnone =>
    refine h.imp (fun hdone => ?_) id
    change update s.outcome t (some outcome) task_id ≠ none
    by_cases ht : task_id = t
    · rw [ht, update_self]
      exact some_ne_none outcome
    · rwa [update_of_ne ht]
  | cleanup t _ _ => exact h
  | create t _ _ _ =>
    unfold create_task
    split_ifs <;> exact h
  | resume index t outcome _ _ =>
    unfold State.resume
    split_ifs
    · exact h
    · exact advance_settled _ _ h

lemma settled_of_reaches (hreach : Relation.ReflTransGen Step s s') (h : s.Settled task_id) :
    s'.Settled task_id := by
  induction hreach with
  | refl => exact h
  | tail _ hstep ih => exact hstep.settled ih

/-- Stopping settles all tasks, in every order of the steps, exactly if at most one has to be
stopped and is reached. -/
theorem stopsAll_iff (hnd : s.item_tasks.Nodup) : s.StopsAll ↔ s.OneToStop := by
  constructor
  · intro hstops
    rcases advance_spec (s := { s with walked := s.item_tasks, shared := true }) 0 s.item_tasks with
      ⟨hended, hsame⟩ | ⟨before, t, after, hl, hbefore, ht, hnone, hloop, hout, hreq⟩
    · exact .inl fun x hx => hsame x (hstops _ .refl hended x hx)
    · -- The awaited task catches the cancellation and ends with an error.
      have hfinish := Step.finish (s := s.stop_item_tasks) t .failed (by
        rw [stop_item_tasks, hout]
        exact hnone)
      have hresume := Step.resume (s := s.stop_item_tasks.finish_task t .failed) _ t .failed hloop
        (update_self t _ _)
      have hsettled := hstops _ (.tail (.single hfinish) hresume) rfl
      refine .inr ⟨before, t, after, hl, ht, hbefore, fun x hx => ?_⟩
      rw [hl] at hnd
      have hne : x ≠ t := by
        rintro rfl
        exact (nodup_cons.mp (List.nodup_append.mp hnd).2.1).1 hx
      refine (hsettled x (by simp [hl, hx])).imp (fun hdone => ?_) fun hrequested => ?_
      · change update s.stop_item_tasks.outcome t (some Outcome.failed) x ≠ none at hdone
        rw [update_of_ne hne, stop_item_tasks, hout] at hdone
        exact hdone
      · change s.stop_item_tasks.cancel_requested x = true at hrequested
        rw [stop_item_tasks, hreq, update_of_ne hne] at hrequested
        exact hrequested
  · intro hone s' hreach _ x hx
    refine settled_of_reaches hreach ?_
    rcases hone with hall | ⟨before, t, after, hl, ht, hbefore, hafter⟩
    · exact advance_settled (s := { s with walked := s.item_tasks, shared := true }) _ _ (hall x hx)
    · by_cases hsettled : s.Settled x
      · exact advance_settled (s := { s with walked := s.item_tasks, shared := true }) _ _ hsettled
      · have hxt : x = t := by
          rw [hl, mem_append, mem_cons] at hx
          rcases hx with hx | hx | hx
          · obtain ⟨outcome, houtcome, -⟩ := (hbefore x hx).2
            exact absurd (.inl (houtcome ▸ some_ne_none outcome)) hsettled
          · exact hx
          · exact absurd (hafter x hx) hsettled
        subst hxt
        rw [hl, List.nodup_append] at hnd
        have hnotin : x ∉ before := fun hmem => hnd.2.2 x hmem x (by simp) rfl
        obtain ⟨tasks, htasks, heq⟩ := advance_append
          (s := { s with walked := s.item_tasks, shared := true }) 0 (x :: after) hnd.1 hbefore
        have hnone : s.outcome x = none := not_not.mp fun hdone => hsettled (.inl hdone)
        refine .inr ?_
        rw [← hl] at heq
        rw [stop_item_tasks, heq, advance, if_pos (htasks x hnotin ht)]
        rw [hnone]
        exact update_self x _ _

/-- The first task has ended, the second one runs and the third one was asked to cancel. -/
def oneRunning : State where
  tasks := [0, 1, 2]
  item_tasks := [0, 1, 2]
  outcome task_id := if task_id = 0 then some .returned else none
  cancel_requested task_id := decide (task_id = 2)
  cleaned _ := false

theorem stopsAll_iff_three : oneRunning.StopsAll :=
  (stopsAll_iff (by decide)).mpr (.inr ⟨[0], 1, [2], rfl, by decide,
    fun x hx => by
      obtain rfl := mem_singleton.mp hx
      exact ⟨by decide, .returned, rfl, by decide⟩,
    fun x hx => .inr (decide_eq_true (mem_singleton.mp hx))⟩)

def twoRunning : State where
  tasks := [0, 1]
  item_tasks := [0, 1]
  outcome _ := none
  cancel_requested _ := false
  cleaned _ := false

/-- The first task ends with an error. -/
theorem second_task_runs_on : ¬ twoRunning.StopsAll := by
  intro h
  have hfinish := Step.finish (s := twoRunning.stop_item_tasks) 0 .failed rfl
  have hresume := Step.resume (s := twoRunning.stop_item_tasks.finish_task 0 .failed) 0 0 .failed
    rfl rfl
  have hsettled := h _ (.tail (.single hfinish) hresume) rfl 1 (by decide)
  rcases hsettled with hdone | hrequested
  · exact hdone rfl
  · cases hrequested

end CustomAi.OpenWebUI.StopItemTasks
