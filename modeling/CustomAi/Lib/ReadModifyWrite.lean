import CustomAi.Lib.Run
import Mathlib.Data.List.Nodup

/-!
# Concurrent calls that read, change and write one document

Each call reads the whole document, computes a new one and writes it back in a later step. In a run
in which every write finds the document that its call has read, the calls take effect one after
another in the order of their writes.
-/

namespace CustomAi.Lib.ReadModifyWrite

open CustomAi List Function

variable {C D : Type} [DecidableEq C]

inductive Phase (D : Type)
  | start
  | repairing (doc : D)
  | loaded (doc : D)
  | returned

/-- A read repairs a document that is not clean and writes the result. `modify` is `none` where the
call raises. -/
structure Calls (C D : Type) where
  clean : D → Bool
  repair : D → D
  modify : C → D → Option D

/-- `log` lists the calls that have written, in the order of their writes. -/
structure State (C D : Type) where
  doc : D
  phase : C → Phase D
  log : List C

inductive Stalled
  | ended

def start (doc : D) : State C D :=
  { doc := doc, phase := fun _ => .start, log := [] }

/-- The next step of the call `c`. -/
def step (calls : Calls C D) (s : State C D) (c : C) : Except Stalled (State C D) :=
  match s.phase c with
  | .start =>
    let read := if calls.clean s.doc then .loaded s.doc else .repairing s.doc
    .ok { s with phase := Function.update s.phase c read }
  | .repairing doc => .ok
      { s with
        doc := calls.repair doc
        phase := Function.update s.phase c (.loaded (calls.repair doc)) }
  | .loaded doc =>
    match calls.modify c doc with
    | none => .ok { s with phase := Function.update s.phase c .returned }
    | some doc' => .ok
        { doc := doc'
          phase := Function.update s.phase c .returned
          log := s.log ++ [c] }
  | .returned => .error .ended

/-- What call `c` has read is what is stored. -/
def Fresh (s : State C D) (c : C) : Prop :=
  match s.phase c with
  | .repairing doc => s.doc = doc
  | .loaded doc => s.doc = doc
  | .start => True
  | .returned => True

variable {calls : Calls C D} {init : D} {s : State C D} {P : D → List C → Prop}

variable {c : C} {doc : D}

lemma step_cases {s' : State C D} (h : step calls s c = .ok s') : (s.phase c = .start ∧ calls.clean s.doc = true ∧
      s' = { s with phase := update s.phase c (.loaded s.doc) }) ∨
    (s.phase c = .start ∧ calls.clean s.doc = false ∧
      s' = { s with phase := update s.phase c (.repairing s.doc) }) ∨
    (∃ doc, s.phase c = .repairing doc ∧ s' =
      { s with
        doc := calls.repair doc
        phase := update s.phase c (.loaded (calls.repair doc)) }) ∨
    (∃ doc, s.phase c = .loaded doc ∧ calls.modify c doc = none ∧
      s' = { s with phase := update s.phase c .returned }) ∨
    ∃ doc doc', s.phase c = .loaded doc ∧ calls.modify c doc = some doc' ∧ s' =
      { doc := doc'
        phase := update s.phase c .returned
        log := s.log ++ [c] } := by
  unfold step at h
  split at h
  · rename_i hc
    cases h
    cases hclean : calls.clean s.doc with
    | true => exact .inl ⟨hc, rfl, rfl⟩
    | false => exact .inr (.inl ⟨hc, rfl, rfl⟩)
  · rename_i doc hc
    cases h
    exact .inr (.inr (.inl ⟨doc, hc, rfl⟩))
  · rename_i doc hc
    split at h
    · rename_i hmod
      cases h
      exact .inr (.inr (.inr (.inl ⟨doc, hc, hmod, rfl⟩)))
    · rename_i doc' hmod
      cases h
      exact .inr (.inr (.inr (.inr ⟨doc, doc', hc, hmod, rfl⟩)))
  · cases h

omit [DecidableEq C] in
lemma fresh_repairing (hfresh : Fresh s c) (hc : s.phase c = .repairing doc) : s.doc = doc := by
  rw [Fresh, hc] at hfresh
  exact hfresh

omit [DecidableEq C] in
lemma fresh_loaded (hfresh : Fresh s c) (hc : s.phase c = .loaded doc) : s.doc = doc := by
  rw [Fresh, hc] at hfresh
  exact hfresh

def RepairsUnclean (calls : Calls C D) (s : State C D) : Prop :=
  ∀ c doc, s.phase c = .repairing doc → calls.clean doc = false

lemma RepairsUnclean.update {phase : Phase D} {log : List C} (h : RepairsUnclean calls s)
    (hphase : ∀ doc, phase = .repairing doc → calls.clean doc = false) :
    RepairsUnclean calls { doc := doc, phase := update s.phase c phase, log := log } := by
  intro c' doc' hc'
  dsimp only at hc'
  by_cases hcc : c' = c
  · rw [hcc, update_self] at hc'
    exact hphase doc' hc'
  · rw [update_of_ne hcc] at hc'
    exact h c' doc' hc'

def KeptUnclean (calls : Calls C D) (P : D → List C → Prop) (s : State C D) : Prop :=
  P s.doc s.log ∧ RepairsUnclean calls s

theorem fresh_invariant (hinit : P init [])
    (hrepair : ∀ doc log, P doc log → calls.clean doc = false → P (calls.repair doc) log)
    (hmodify : ∀ doc log c doc', P doc log → calls.modify c doc = some doc' → P doc' (log ++ [c]))
    (h : Reaches (step calls) Fresh (start init) s) : P s.doc s.log := by
  have hinv : KeptUnclean calls P s := by
    refine h.invariant ⟨hinit, fun c doc hc => by cases hc⟩ ?_
    rintro s c s' ⟨hP, hunclean⟩ hfresh hs
    obtain ⟨-, -, rfl⟩ | ⟨-, hclean, rfl⟩ | ⟨doc, hc, rfl⟩ | ⟨doc, -, -, rfl⟩ |
      ⟨doc, doc', hc, hmod, rfl⟩ := step_cases hs
    · exact ⟨hP, hunclean.update fun doc hdoc => by cases hdoc⟩
    · refine ⟨hP, hunclean.update fun doc hdoc => ?_⟩
      cases hdoc
      exact hclean
    · refine ⟨?_, hunclean.update fun doc hdoc => by cases hdoc⟩
      rw [← fresh_repairing hfresh hc]
      exact hrepair _ _ hP (fresh_repairing hfresh hc ▸ hunclean c doc hc)
    · exact ⟨hP, hunclean.update fun doc hdoc => by cases hdoc⟩
    · refine ⟨?_, hunclean.update fun doc hdoc => by cases hdoc⟩
      exact hmodify doc s.log c doc' (fresh_loaded hfresh hc ▸ hP) hmod
  exact hinv.1

def LogReturned (s : State C D) : Prop :=
  s.log.Nodup ∧ ∀ c ∈ s.log, s.phase c = .returned

theorem log_nodup (h : Reaches (step calls) Fresh (start init) s) : LogReturned s := by
  refine h.invariant ⟨nodup_nil, fun c hc => by cases hc⟩ ?_
  rintro s c s' ⟨hnodup, hlog⟩ - hs
  -- a call that makes a step has not returned, so it is not in the log
  have hnot : s.phase c ≠ .returned → c ∉ s.log := fun hc hmem => hc (hlog c hmem)
  have hkeep : ∀ phase, c ∉ s.log → ∀ c' ∈ s.log, update s.phase c phase c' = .returned := by
    intro phase hc c' hc'
    rw [update_of_ne fun (e : c' = c) => hc (e ▸ hc')]
    exact hlog c' hc'
  obtain ⟨hc, -, rfl⟩ | ⟨hc, -, rfl⟩ | ⟨doc, hc, rfl⟩ | ⟨doc, hc, -, rfl⟩ |
    ⟨doc, doc', hc, -, rfl⟩ := step_cases hs
  · exact ⟨hnodup, hkeep _ (hnot (by simp [hc]))⟩
  · exact ⟨hnodup, hkeep _ (hnot (by simp [hc]))⟩
  · exact ⟨hnodup, hkeep _ (hnot (by simp [hc]))⟩
  · exact ⟨hnodup, hkeep _ (hnot (by simp [hc]))⟩
  · have hmem : c ∉ s.log := hnot (by simp [hc])
    refine ⟨List.nodup_append.mpr ⟨hnodup, nodup_singleton c, ?_⟩, fun c' hc' => ?_⟩
    · intro a ha b hb hab
      exact hmem (mem_singleton.mp hb ▸ hab ▸ ha)
    · rcases mem_append.mp hc' with hc' | hc'
      · exact hkeep _ hmem c' hc'
      · rw [mem_singleton.mp hc']
        exact update_self ..

lemma mem_log_of_returned (hinit : P init [])
    (hrepair : ∀ doc log, P doc log → calls.clean doc = false → P (calls.repair doc) log)
    (hmodify : ∀ doc log c, P doc log → ∃ doc', calls.modify c doc = some doc' ∧ P doc' (log ++ [c]))
    (h : Reaches (step calls) Fresh (start init) s) : ∀ c, s.phase c = .returned → c ∈ s.log := by
  induction h with
  | start =>
    intro c hc
    cases hc
  | @step s s' c hreach hfresh hs ih =>
    have hP : P s.doc s.log := by
      refine fresh_invariant hinit hrepair (fun doc log c doc' hP hmod => ?_) hreach
      obtain ⟨doc'', hmod', hP'⟩ := hmodify doc log c hP
      rw [hmod, Option.some.injEq] at hmod'
      exact hmod' ▸ hP'
    -- the other calls keep their phase, and the call that steps does not return without a write
    have hkeep : ∀ phase, phase ≠ .returned → ∀ c', update s.phase c phase c' = .returned →
        c' ∈ s.log := by
      intro phase hphase c' hc'
      by_cases hcc : c' = c
      · rw [hcc, update_self] at hc'
        exact absurd hc' hphase
      · rw [update_of_ne hcc] at hc'
        exact ih c' hc'
    obtain ⟨-, -, rfl⟩ | ⟨-, -, rfl⟩ | ⟨doc, -, rfl⟩ | ⟨doc, hc, hmod, rfl⟩ |
      ⟨doc, doc', -, -, rfl⟩ := step_cases hs
    · exact hkeep _ (by simp)
    · exact hkeep _ (by simp)
    · exact hkeep _ (by simp)
    · obtain ⟨doc', hmod', -⟩ := hmodify doc s.log c (fresh_loaded hfresh hc ▸ hP)
      rw [hmod] at hmod'
      cases hmod'
    · intro c' hc'
      dsimp only at hc'
      by_cases hcc : c' = c
      · simp [hcc]
      · rw [update_of_ne hcc] at hc'
        exact mem_append_left _ (ih c' hc')

end CustomAi.Lib.ReadModifyWrite
