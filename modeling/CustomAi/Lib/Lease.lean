import Mathlib.Data.Nat.Notation
import Mathlib.Data.Option.Basic

/-!
# Leases on an expiring key

A key holds the name of a process until a time. A process is granted the key when it sets it, and
the grant lasts for the duration of the process. The key is set where it is absent (`acquire`), or
over whatever it holds (`renew`), and removed whatever it holds (`remove`). The grants exclude each
other as long as no process sets or removes a key that another one holds.
-/

namespace CustomAi

open Function Option

/-- `granted` is the time of the latest grant. -/
structure Lease (P : Type) where
  now : ℕ
  key : Option (P × ℕ)
  granted : P → Option ℕ

namespace Lease

variable {P : Type} [DecidableEq P] {duration : P → ℕ} {s : Lease P} {p q : P}

def empty : Lease P := { now := 0, key := none, granted := fun _ => none }

def holder (s : Lease P) : Option P :=
  (s.key.filter fun entry => s.now < entry.2).map Prod.fst

def tick (elapsed : ℕ) (s : Lease P) : Lease P :=
  { s with now := s.now + elapsed }

def grant (duration : P → ℕ) (p : P) (s : Lease P) : Lease P :=
  { s with
    key := some (p, s.now + duration p)
    granted := Function.update s.granted p (some s.now) }

def acquire (duration : P → ℕ) (p : P) (s : Lease P) : Bool × Lease P :=
  if s.holder.isNone then (true, s.grant duration p) else (false, s)

def renew (duration : P → ℕ) (p : P) (s : Lease P) : Bool × Lease P :=
  if s.holder.isSome then (true, s.grant duration p) else (false, s)

def remove (p : P) (s : Lease P) : Lease P :=
  { s with key := none, granted := Function.update s.granted p none }

def Current (duration : P → ℕ) (s : Lease P) (p : P) : Prop :=
  ∃ t, s.granted p = some t ∧ s.now < t + duration p

def Free (duration : P → ℕ) (s : Lease P) (p : P) : Prop :=
  Current duration s p ∨ s.holder = none

def Backed (duration : P → ℕ) (s : Lease P) : Prop :=
  ∀ p t, s.granted p = some t → s.now < t + duration p → s.key = some (p, t + duration p)

omit [DecidableEq P] in
lemma holder_eq_some : s.holder = some p ↔ ∃ e, s.key = some (p, e) ∧ s.now < e := by
  simp [holder, filter_eq_some_iff]

namespace Backed

omit [DecidableEq P] in
lemma empty : Backed duration Lease.empty :=
  fun _ _ h => by cases h

section

variable (h : Backed duration s)
include h

section

omit [DecidableEq P]

lemma holder (hp : Current duration s p) : s.holder = some p := by
  obtain ⟨t, hgranted, hnow⟩ := hp
  exact holder_eq_some.mpr ⟨_, h p t hgranted hnow, hnow⟩

theorem exclusive (hp : Current duration s p) (hq : Current duration s q) : p = q :=
  some.inj ((h.holder hp).symm.trans (h.holder hq))

lemma holder_of_free (hfree : Free duration s p) (hq : s.holder = some q) : q = p := by
  obtain hp | hnone := hfree
  · exact some.inj (hq.symm.trans (h.holder hp))
  · rw [hnone] at hq
    cases hq

lemma not_current (hfree : Free duration s p) (hqp : q ≠ p) : ¬ Current duration s q :=
  fun hq => hqp (h.holder_of_free hfree (h.holder hq))

lemma tick (elapsed : ℕ) : Backed duration (s.tick elapsed) := by
  intro p t hgranted hnow
  have hnow' : s.now + elapsed < t + duration p := hnow
  exact h p t hgranted (by omega)

end

lemma grant (hfree : Free duration s p) : Backed duration (s.grant duration p) := by
  intro q t hgranted hnow
  by_cases hqp : q = p
  · subst hqp
    simp only [Lease.grant, update_self, some.injEq] at hgranted
    subst hgranted
    rfl
  · simp only [Lease.grant, update_of_ne hqp] at hgranted
    exact absurd ⟨t, hgranted, hnow⟩ (h.not_current hfree hqp)

lemma acquire : Backed duration (s.acquire duration p).2 := by
  unfold Lease.acquire
  split
  · rename_i hnone
    exact h.grant (.inr (isNone_iff_eq_none.mp hnone))
  · exact h

lemma renew (hfree : Free duration s p) : Backed duration (s.renew duration p).2 := by
  unfold Lease.renew
  split
  · exact h.grant hfree
  · exact h

lemma remove (hfree : Free duration s p) : Backed duration (s.remove p) := by
  intro q t hgranted hnow
  by_cases hqp : q = p
  · subst hqp
    simp [Lease.remove] at hgranted
  · simp only [Lease.remove, update_of_ne hqp] at hgranted
    exact absurd ⟨t, hgranted, hnow⟩ (h.not_current hfree hqp)

end

end Backed

end Lease

end CustomAi
