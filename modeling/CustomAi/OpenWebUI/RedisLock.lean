import CustomAi.Lib.Lease
import CustomAi.Lib.Run

/-!
# The Redis lock of the usage pool cleanup

`RedisLock` of the socket layer and the processes that run `periodic_usage_pool_cleanup` under it.
-/

namespace CustomAi.OpenWebUI.RedisLock

variable {P : Type} [DecidableEq P] {timeout_secs : P → ℕ}

/-- Where a process is in `periodic_usage_pool_cleanup`. -/
inductive Phase
  | aquiring (attempt : ℕ)
  | renewing
  | cleaning
  | releasing
  | deleting
  | returned
  deriving DecidableEq

structure State (P : Type) where
  lock : Lease P
  phase : P → Phase

inductive Event (P : Type)
  | elapse (secs : ℕ)
  | aquire_lock (p : P)
  | renew_lock (p : P)
  | sleep_over (p : P)
  | raise (p : P)
  | get (p : P)
  | delete (p : P)

inductive Disabled
  | phase

def max_retries : ℕ := 2

def State.start : State P :=
  { lock := .empty, phase := fun _ => .aquiring 0 }

def State.goto (s : State P) (p : P) (lock : Lease P) (phase : Phase) : State P :=
  { lock := lock, phase := Function.update s.phase p phase }

def step (timeout_secs : P → ℕ) (s : State P) : Event P → Except Disabled (State P)
  | .elapse secs => .ok { s with lock := s.lock.tick secs }
  | .aquire_lock p =>
    match s.phase p with
    | .aquiring attempt =>
      let (lock_obtained, lock) := s.lock.acquire timeout_secs p
      .ok <| s.goto p lock <|
        if lock_obtained then .renewing
        else if attempt < max_retries then .aquiring (attempt + 1)
        else .returned
    | _ => .error .phase
  | .renew_lock p =>
    match s.phase p with
    | .renewing =>
      let (renewed, lock) := s.lock.renew timeout_secs p
      .ok (s.goto p lock (if renewed then .cleaning else .releasing))
    | _ => .error .phase
  | .sleep_over p =>
    match s.phase p with
    | .cleaning => .ok (s.goto p s.lock .renewing)
    | _ => .error .phase
  | .raise p =>
    match s.phase p with
    | .aquiring _ => .ok (s.goto p s.lock .returned)
    -- the `finally` block runs after any exception in the loop
    | .renewing | .cleaning => .ok (s.goto p s.lock .releasing)
    | _ => .error .phase
  | .get p =>
    match s.phase p with
    | .releasing => .ok (s.goto p s.lock (if s.lock.holder = some p then .deleting else .returned))
    | _ => .error .phase
  | .delete p =>
    match s.phase p with
    | .deleting => .ok (s.goto p (s.lock.remove p) .returned)
    | _ => .error .phase

/-- The process has acquired or renewed the lock less than its timeout ago and has not called
`release_lock` since. -/
def Holds (timeout_secs : P → ℕ) (s : State P) (p : P) : Prop :=
  (∃ t, s.lock.granted p = some t ∧ s.lock.now < t + timeout_secs p) ∧ s.phase p ≠ .deleting ∧ s.phase p ≠ .returned

/-- `renew_lock` and `delete` come before the own key has expired, or while nobody has the lock. -/
def InTime (timeout_secs : P → ℕ) (s : State P) : Event P → Prop
  | .renew_lock p | .delete p =>
    (∃ t, s.lock.granted p = some t ∧ s.lock.now < t + timeout_secs p) ∨ s.lock.holder = none
  | _ => True

lemma step_backed {s s' : State P} {e : Event P} (h : s.lock.Backed timeout_secs)
    (htime : InTime timeout_secs s e) (hs : step timeout_secs s e = .ok s') : s'.lock.Backed timeout_secs := by
  cases e with
  | elapse secs =>
    cases hs
    exact h.tick secs
  | aquire_lock p =>
    simp only [step] at hs
    split at hs
    · cases hs
      exact h.acquire
    · cases hs
  | renew_lock p =>
    simp only [step] at hs
    split at hs
    · cases hs
      exact h.renew htime
    · cases hs
  | sleep_over p | raise p | get p =>
    simp only [step] at hs
    split at hs <;> cases hs
    all_goals exact h
  | delete p =>
    simp only [step] at hs
    split at hs
    · cases hs
      exact h.remove htime
    · cases hs

/-- If every command comes in time, at most one process holds the lock and none loses it to another. -/
theorem reaches_exclusive (timeout_secs : P → ℕ) (s : State P)
    (h : Reaches (step timeout_secs) (InTime timeout_secs) .start s) :
    (∀ p q, Holds timeout_secs s p → Holds timeout_secs s q → p = q) ∧
      ∀ p s', InTime timeout_secs s (.delete p) → step timeout_secs s (.delete p) = .ok s' →
        ∀ q, s.lock.holder = some q → q = p := by
  have hbacked : s.lock.Backed timeout_secs := by
    refine h.invariant ?_ fun s e s' hbacked htime hs => step_backed hbacked htime hs
    exact Lease.Backed.empty
  refine ⟨fun p q hp hq => hbacked.exclusive hp.1 hq.1, fun p s' htime _ q hq => ?_⟩
  exact hbacked.holder_of_free htime hq

/-- A process acquires and renews the lock. -/
theorem reaches_exclusive_one : ∃ s : State ℕ,
    Reaches (step fun _ => 10) (InTime fun _ => 10) .start s ∧ Holds (fun _ => 10) s 0 ∧
      ∀ q, Holds (fun _ => 10) s q → q = 0 := by
  have hreach : ∃ s : State ℕ, Reaches (step fun _ => 10) (InTime fun _ => 10) .start s ∧ Holds (fun _ => 10) s 0 :=
    ⟨_, .step (.renew_lock 0) (.step (.elapse 4) (.step (.aquire_lock 0) .start trivial rfl)
      trivial rfl) (.inl ⟨0, rfl, by decide⟩) rfl, ⟨⟨4, rfl, by decide⟩, by decide, by decide⟩⟩
  obtain ⟨s, hs, hholds⟩ := hreach
  exact ⟨s, hs, hholds, fun q hq => (reaches_exclusive (fun _ => 10) s hs).1 q 0 hq hholds⟩

/-- A process renews the lock that another one has taken after its own has expired. -/
theorem renewed_from_other : ¬ ∀ s : State ℕ, Reaches (step fun _ => 10) (fun _ _ => True) .start s →
      ∀ p q, Holds (fun _ => 10) s p → Holds (fun _ => 10) s q → p = q := by
  intro hexclusive
  have hreach : ∃ s : State ℕ, Reaches (step fun _ => 10) (fun _ _ => True) .start s ∧
      Holds (fun _ => 10) s 0 ∧ Holds (fun _ => 10) s 1 :=
    ⟨_, .step (.renew_lock 0) (.step (.aquire_lock 1) (.step (.elapse 10)
      (.step (.aquire_lock 0) .start trivial rfl) trivial rfl) trivial rfl) trivial rfl,
      ⟨⟨10, rfl, by decide⟩, by decide, by decide⟩, ⟨⟨10, rfl, by decide⟩, by decide, by decide⟩⟩
  obtain ⟨s, hs, h0, h1⟩ := hreach
  cases hexclusive s hs 0 1 h0 h1

end CustomAi.OpenWebUI.RedisLock
