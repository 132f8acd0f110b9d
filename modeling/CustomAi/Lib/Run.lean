import CustomAi.Lib.Except

/-!
# Runs of a partial step function

The states a system reaches by steps that succeed, and the induction rule for invariants.
-/

namespace CustomAi

universe u v w

variable {σ : Type u} {α : Type v} {ε : Type w}

/-- The states reached from `s₀` by successful steps that `allowed` admits. -/
inductive Reaches (step : σ → α → Except ε σ) (allowed : σ → α → Prop) (s₀ : σ) : σ → Prop
  | start : Reaches step allowed s₀ s₀
  | step {s s' : σ} (a : α) : Reaches step allowed s₀ s → allowed s a → step s a = .ok s' →
      Reaches step allowed s₀ s'

variable {step : σ → α → Except ε σ} {allowed : σ → α → Prop} {s₀ s : σ}

theorem Reaches.invariant {Inv : σ → Prop} (h : Reaches step allowed s₀ s) (hstart : Inv s₀)
    (hstep : ∀ s a s', Inv s → allowed s a → step s a = .ok s' → Inv s') : Inv s := by
  induction h with
  | start => exact hstart
  | step a _ ha hs ih => exact hstep _ a _ ih ha hs

def runSteps (step : σ → α → Except ε σ) : σ → List α → Except ε σ
  | s, [] => .ok s
  | s, a :: rest => do
    let s' ← step s a
    runSteps step s' rest

variable {l : List α} {β : Type u} {x : Except ε β} {s' : σ}

lemma Reaches.append_runSteps (h : Reaches step (fun _ _ => True) s₀ s)
    (hl : runSteps step s l = .ok s') : Reaches step (fun _ _ => True) s₀ s' := by
  induction l generalizing s with
  | nil =>
    simp only [runSteps, Except.ok.injEq] at hl
    exact hl ▸ h
  | cons a rest ih =>
    rw [runSteps] at hl
    cases hs : step s a with
    | error e => rw [hs] at hl; cases hl
    | ok t =>
      rw [hs] at hl
      exact ih (.step a h trivial hs) hl

def runAllowed (step : σ → α → Except ε σ) (allowed : σ → α → Prop)
    [∀ s a, Decidable (allowed s a)] : σ → List α → Option σ
  | s, [] => some s
  | s, a :: rest =>
    if allowed s a then
      match step s a with
      | .error _ => none
      | .ok s' => runAllowed step allowed s' rest
    else none

lemma Reaches.append_runAllowed [∀ s a, Decidable (allowed s a)] (h : Reaches step allowed s₀ s)
    (hl : runAllowed step allowed s l = some s') : Reaches step allowed s₀ s' := by
  induction l generalizing s with
  | nil =>
    simp only [runAllowed, Option.some.injEq] at hl
    exact hl ▸ h
  | cons a rest ih =>
    rw [runAllowed] at hl
    split at hl
    · rename_i ha
      cases hs : step s a with
      | error e => simp [hs] at hl
      | ok t =>
        simp only [hs] at hl
        exact ih (.step a h ha hs) hl
    · cases hl

/-- A run from a start that is computed is seen by evaluating it. -/
lemma exists_reaches {κ : Type u} {γ : Type v} [∀ s a, Decidable (allowed s a)] {x : Except ε κ}
    {start : κ → σ} {f : σ → γ} {c : γ}
    (h : (x.toOption.bind fun k => runAllowed step allowed (start k) l).map f = some c) :
    ∃ k s, x = .ok k ∧ Reaches step allowed (start k) s ∧ f s = c := by
  cases x with
  | error e => cases h
  | ok k =>
    obtain ⟨s, hs, hc⟩ := Option.map_eq_some_iff.mp h
    exact ⟨k, s, rfl, Reaches.start.append_runAllowed hs, hc⟩

lemma Reaches.mono {allowed' : σ → α → Prop} (h : Reaches step allowed s₀ s)
    (hsub : ∀ s a, allowed s a → allowed' s a) : Reaches step allowed' s₀ s := by
  induction h with
  | start => exact .start
  | step a _ ha hs ih => exact .step a ih (hsub _ a ha) hs

def nextState (step : σ → α → Except ε σ) (s : σ) (a : α) : σ := (step s a).toOption.getD s

lemma Reaches.next {a : α} (h : Reaches step allowed s₀ s) (ha : allowed s a)
    (hok : (step s a).isOk = true) : Reaches step allowed s₀ (nextState step s a) := by
  refine .step a h ha ?_
  unfold nextState
  cases hs : step s a with
  | error e =>
    rw [hs] at hok
    cases hok
  | ok t => rfl

lemma eq_ok_of_toOption {b : β} (h : x.toOption = some b) : x = .ok b := by
  cases x with
  | error e => cases h
  | ok b' => exact congrArg Except.ok (Option.some.inj h)

lemma exists_eq_ok_of_isOk (h : x.isOk = true) : ∃ b, x = .ok b := by
  cases x with
  | error e => cases h
  | ok b => exact ⟨b, rfl⟩

end CustomAi
