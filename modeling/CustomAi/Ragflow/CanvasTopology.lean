import CustomAi.Lib.Wavefront
import CustomAi.Ragflow.Canvas
import Mathlib.Data.Fin.VecNotation
import Mathlib.Data.Fintype.EquivFin

/-!
# Acyclic canvases without iterations

When `Canvas.run` evaluates the canvas in topological order.
-/

namespace CustomAi.Ragflow.Canvas

open List Relation

variable {V K W Val : Type} [DecidableEq V] [DecidableEq K] [DecidableEq W]
  {dsl : Dsl V K W Val} {result : V → ℕ → W → Val} {s : Canvas V K W Val}

/-- `d` is downstream of `c`. -/
def Edge (dsl : Dsl V K W Val) (c d : V) : Prop := d ∈ (dsl.component c).downstream

/-- The canvas is acyclic and rooted at `begin`, without iterations, and each component refers to
ancestors only. -/
structure Topological (dsl : Dsl V K W Val) : Prop where
  kind : ∀ c, (dsl.component c).kind = if c = dsl.begin then .begin else .ordinary
  parent : ∀ c, (dsl.component c).parent = none
  acyclic : ∀ c, ¬ TransGen (Edge dsl) c c
  rooted : ∀ c, ReflTransGen (Edge dsl) dsl.begin c
  refs : ∀ c, ∀ a ∈ (dsl.component c).refs, TransGen (Edge dsl) a c

/-- No component of the batch refers to an earlier one of it, and what it appends is not on the path
yet. -/
def Layered (dsl : Dsl V K W Val) (s : Canvas V K W Val) : Prop :=
  ((s.batch dsl).Pairwise fun a c => a ∉ (dsl.component c).refs) ∧ Fresh (s.front ++ s.batch dsl)
    ((s.batch dsl).flatMap fun c => (dsl.component c).downstream)

instance (dsl : Dsl V K W Val) (s : Canvas V K W Val) : Decidable (Layered dsl s) :=
  inferInstanceAs (Decidable (_ ∧ _))

omit [DecidableEq K] [DecidableEq W] in
lemma Topological.following_eq (h : Topological dsl) (s : Canvas V K W Val) (c : V) :
    following dsl s c = (dsl.component c).downstream := by
  unfold following
  have hkind := h.kind c
  have hitem : (dsl.component c).kind ≠ .iterationItem := by
    rw [hkind]
    split <;> exact fun e => nomatch e
  have hiter : (dsl.component c).kind ≠ .iteration := by
    rw [hkind]
    split <;> exact fun e => nomatch e
  simp [hitem, hiter, h.parent c]

lemma Topological.invoke_failed (h : Topological dsl) (s : Canvas V K W Val) (c : V) :
    (invoke dsl result s c).failed = s.failed := by
  unfold invoke
  have hkind := h.kind c
  split
  · rename_i hk
    rw [hk] at hkind
    split at hkind <;> cases hkind
  · rfl
  · rfl
  · rfl

lemma Topological.foldl_failed (h : Topological dsl) (l : List V) (s : Canvas V K W Val) :
    (l.foldl (invoke dsl result) s).failed = s.failed := by
  induction l generalizing s with
  | nil => rfl
  | cons c rest ih => rw [foldl_cons, ih, h.invoke_failed]

structure Progress (dsl : Dsl V K W Val) (s : Canvas V K W Val) : Prop where
  ok : s.failed = false
  nodup : s.path.Nodup
  idx_le : s.idx ≤ s.path.length
  batches_eq : s.batches.flatten = s.front
  inputs : ∀ pre b post, s.batches = pre ++ b :: post → ∀ c ∈ b, ∀ a ∈ (dsl.component c).refs, a ∈ pre.flatten

lemma append_singleton_split {α : Type} {l pre post : List α} {x b : α} (h : l ++ [x] = pre ++ b :: post) :
    (l = pre ∧ x = b) ∨ ∃ post', l = pre ++ b :: post' := by
  rcases eq_nil_or_concat post with rfl | ⟨post', y, rfl⟩
  · exact .inl (append_singleton_inj.1 h)
  · right
    refine ⟨post', ?_⟩
    rw [concat_eq_append, ← cons_append, ← append_assoc] at h
    exact (append_singleton_inj.1 h).1

omit [DecidableEq K] [DecidableEq W] in
lemma Topological.refs_begin (h : Topological dsl) : (dsl.component dsl.begin).refs = [] := by
  rw [eq_nil_iff_forall_not_mem]
  intro a ha
  exact h.acyclic dsl.begin (TransGen.trans_right (h.rooted a) (h.refs _ a ha))

omit [DecidableEq K] [DecidableEq W] in
lemma Progress.nodup_batch (hp : Progress dsl s) : (s.front ++ s.batch dsl).Nodup := by
  have hsub : (s.front ++ s.batch dsl).Sublist s.path := by
    have happ : (s.front ++ s.batch dsl).Sublist (s.front ++ s.path.drop s.idx) :=
      (List.Sublist.refl s.front).append (ready_sublist s.front (s.path.drop s.idx))
    rwa [front, take_append_drop] at happ
  exact hp.nodup.sublist hsub

lemma Progress.step (hp : Progress dsl s) (htop : Topological dsl) (hlay : Layered dsl s) :
    Progress dsl (step dsl result s) := by
  by_cases hfin : s.finished
  · rwa [step_of_finished hfin]
  · have hok : (invokeAll dsl result s).failed = false := by
      unfold invokeAll
      rw [htop.foldl_failed, hp.ok]
    have hfollow : (s.batch dsl).flatMap (following dsl (invokeAll dsl result s)) =
        (s.batch dsl).flatMap fun c => (dsl.component c).downstream :=
      flatMap_congr fun c _ => htop.following_eq _ c
    have hfront := front_step result hfin hok
    rw [step_of_running hfin hok, hfollow] at hfront ⊢
    refine ⟨hok, hlay.2.nodup hp.nodup_batch, ?_, ?_, ?_⟩
    · obtain ⟨l, hl⟩ := extend_path_eq (s.front ++ s.batch dsl)
        ((s.batch dsl).flatMap fun c => (dsl.component c).downstream)
      rw [hl, length_append, length_append]
      exact Nat.le_add_right _ _
    · rw [hfront]
      rw [flatten_append, hp.batches_eq]
      simp
    · intro pre b post hsplit c hc a ha
      rcases append_singleton_split hsplit with ⟨rfl, rfl⟩ | ⟨post', hold⟩
      · rw [hp.batches_eq]
        obtain ⟨before, after, hkept⟩ := append_of_mem hc
        rcases ready_refs hkept with hbegin | hrefs
        · have hc' : c = dsl.begin := by
            by_contra hne
            rw [htop.kind c, if_neg hne] at hbegin
            cases hbegin
          rw [hc', htop.refs_begin] at ha
          cases ha
        · have hpair := hlay.1
          rw [hkept, pairwise_append] at hpair
          exact (mem_append.1 (hrefs a ha)).resolve_right fun hb =>
            hpair.2.2 a hb c mem_cons_self ha
      · exact hp.inputs pre b post' hold c hc a ha

omit [DecidableEq V] [DecidableEq K] [DecidableEq W] in
lemma Progress.start : Progress dsl (start dsl (new : Canvas V K W Val)) where
  ok := rfl
  nodup := nodup_cons.2 ⟨not_mem_nil, nodup_nil⟩
  idx_le := Nat.zero_le _
  batches_eq := rfl
  inputs := fun pre b post h => by
    have := congrArg List.length h
    simp [Canvas.start] at this

/-- A round that does something keeps the entries whose inputs are there and appends what is
downstream of them. -/
lemma Progress.step_eq (hp : Progress dsl s) (result : V → ℕ → W → Val) (htop : Topological dsl)
    (hfin : ¬ s.finished) : (Canvas.step dsl result s).front = s.front ++ s.batch dsl ∧
      (Canvas.step dsl result s).path = extend_path (s.front ++ s.batch dsl)
        ((s.batch dsl).flatMap fun c => (dsl.component c).downstream) := by
  have hok : (invokeAll dsl result s).failed = false := by
    unfold invokeAll
    rw [htop.foldl_failed, hp.ok]
  refine ⟨front_step result hfin hok, ?_⟩
  rw [step_of_running hfin hok]
  refine congrArg (extend_path _) (flatMap_congr fun c _ => htop.following_eq _ c)

omit [DecidableEq V] [DecidableEq K] [DecidableEq W] in
lemma Progress.drop_of_finished (hp : Progress dsl s) (hfin : s.finished) : s.path.drop s.idx = [] := by
  rcases hfin with hfailed | hle
  · rw [hp.ok] at hfailed
    cases hfailed
  · exact drop_eq_nil_of_le hle

section Rounds

variable (htop : Topological dsl) (hlay : ∀ k, Layered dsl (rounds dsl result (start dsl new) k))
include htop hlay

lemma progress_rounds (k : ℕ) : Progress dsl (rounds dsl result (start dsl new) k) := by
  induction k with
  | zero => exact Progress.start
  | succ k ih =>
    rw [rounds_succ]
    exact ih.step htop (hlay k)

lemma wavefront_rounds (N : ℕ) : Wavefront (Edge dsl)
    (fun k => {c | c ∈ (rounds dsl result (start dsl new) k).front})
    (fun k => {c | c ∈ (rounds dsl result (start dsl new) k).path.drop
      (rounds dsl result (start dsl new) k).idx}) N where
  start := by
    simp [rounds, Canvas.start, new, front]
  roots := fun c hc => by
    have hbegin : c = dsl.begin := by
      rcases ReflTransGen.cases_tail (htop.rooted c) with h | ⟨u, _, hu⟩
      · exact h
      · exact absurd hu (hc u)
    simp [rounds, Canvas.start, new, hbegin]
  mono := fun k _ c hc => by
    have hp := progress_rounds htop hlay k
    rw [rounds_succ]
    by_cases hfin : (rounds dsl result (start dsl new) k).finished
    · rwa [step_of_finished hfin]
    · rw [(hp.step_eq result htop hfin).1]
      exact mem_append_left _ hc
  pushes := fun k _ x y hxy hx hx' => by
    have hp := progress_rounds htop hlay k
    simp only [Set.mem_ofPred_eq, rounds_succ] at hx hx' ⊢
    by_cases hfin : (rounds dsl result (start dsl new) k).finished
    · rw [step_of_finished hfin] at hx'
      exact absurd hx' hx
    · obtain ⟨hfront, hpath⟩ := hp.step_eq result htop hfin
      rw [hfront, mem_append] at hx'
      have hkept := hx'.resolve_left hx
      have hy : y ∈ (batch dsl (rounds dsl result (start dsl new) k)).flatMap
          fun c => (dsl.component c).downstream := mem_flatMap.2 ⟨x, hkept, hxy⟩
      refine ⟨(hlay k).2.notMem (ne_nil_of_mem hkept) hp.nodup_batch hy, ?_⟩
      have hmem := mem_extend_path ((rounds dsl result (start dsl new) k).front ++
        batch dsl (rounds dsl result (start dsl new) k)) hy
      rw [← hpath, ← take_append_drop (Canvas.step dsl result _).idx (Canvas.step dsl result _).path] at hmem
      exact (mem_append.1 hmem).symm
  blocked := fun k _ c hc hc' => by
    have hp := progress_rounds htop hlay k
    simp only [Set.mem_ofPred_eq, rounds_succ] at hc hc' ⊢
    by_cases hfin : (rounds dsl result (start dsl new) k).finished
    · rw [hp.drop_of_finished hfin] at hc
      cases hc
    · rw [(hp.step_eq result htop hfin).1, mem_append, not_or] at hc'
      obtain ⟨a, ha, hfront⟩ := exists_missing_of_popped hc hc'.2
      exact ⟨a, htop.refs c a ha, hfront⟩

/-- If every round is layered, the loop ends and every component is invoked once, after its inputs. -/
theorem run_topological [Fintype V] : ∃ k, (rounds dsl result (start dsl new) k).finished ∧
      (∀ c, (rounds dsl result (start dsl new) k).batches.flatten.count c = 1) ∧
      ∀ pre b post, (rounds dsl result (start dsl new) k).batches = pre ++ b :: post →
        ∀ c ∈ b, ∀ a ∈ (dsl.component c).refs, a ∈ pre.flatten := by
  have hwf : WellFounded (Edge dsl) := by
    have : Std.Irrefl (TransGen (Edge dsl)) := ⟨htop.acyclic⟩
    exact WellFounded.mono (Finite.wellFounded_of_trans_of_irrefl _) fun _ _ => TransGen.single
  have hall : ∀ c, c ∈ (rounds dsl result (start dsl new) (Fintype.card V)).front :=
    (wavefront_rounds htop hlay (Fintype.card V)).complete hwf le_rfl
  have hp := progress_rounds htop hlay (Fintype.card V)
  refine ⟨Fintype.card V, .inr ?_, fun c => ?_, hp.inputs⟩
  · by_contra hlt
    have hdrop : (rounds dsl result (start dsl new) (Fintype.card V)).path.drop
        (rounds dsl result (start dsl new) (Fintype.card V)).idx ≠ [] := by
      rw [Ne, drop_eq_nil_iff]
      exact hlt
    obtain ⟨c, hc⟩ := exists_mem_of_ne_nil _ hdrop
    have hnodup := hp.nodup
    rw [← take_append_drop (rounds dsl result (start dsl new) (Fintype.card V)).idx
      (rounds dsl result (start dsl new) (Fintype.card V)).path] at hnodup
    exact (List.nodup_append.1 hnodup).2.2 c (hall c) c hc rfl
  · rw [hp.batches_eq]
    exact count_eq_one_of_mem (hp.nodup.sublist (take_sublist _ _)) (hall c)

end Rounds

omit [DecidableEq K] [DecidableEq W] in
lemma layered_of_done (h : s.path.length ≤ s.idx) : Layered dsl s := by
  have hbatch : s.batch dsl = [] := by
    unfold batch
    rw [drop_eq_nil_of_le h]
    rfl
  rw [Layered, hbatch]
  exact ⟨List.Pairwise.nil, trivial⟩

/-- A canvas of ordinary components behind `begin`, given by the downstream lists and inputs. -/
def plainDsl {n : ℕ} (downstream refs : Fin (n + 1) → List (Fin (n + 1))) :
    Dsl (Fin (n + 1)) ℕ ℕ ℕ where
  component := fun c => ⟨if c = 0 then .begin else .ordinary, downstream c, none, refs c⟩
  keys := List.finRange (n + 1)
  begin := 0
  items := fun _ => []
  outputRefs := fun _ => []
  itemVar := 0
  indexVar := 1
  ofIndex := Int.toNat

lemma topological_plainDsl {n : ℕ} {downstream refs : Fin (n + 1) → List (Fin (n + 1))}
    (hlt : ∀ c, ∀ d ∈ downstream c, c < d) (hpred : ∀ d, d ≠ 0 → ∃ c, d ∈ downstream c)
    (hrefs : ∀ c, ∀ a ∈ refs c, c ∈ downstream a) : Topological (plainDsl downstream refs) where
  kind := fun _ => rfl
  parent := fun _ => rfl
  acyclic := fun c hc => by
    have hmono : ∀ a b, TransGen (Edge (plainDsl downstream refs)) a b → a < b := by
      intro a b hab
      induction hab with
      | single h => exact hlt _ _ h
      | tail _ h ih => exact ih.trans (hlt _ _ h)
    exact absurd (hmono c c hc) (lt_irrefl c)
  rooted := fun c => by
    induction c using WellFoundedLT.induction with
    | ind c ih =>
      by_cases hc : c = 0
      · rw [hc]
        exact .refl
      · obtain ⟨b, hb⟩ := hpred c hc
        exact (ih b (hlt b c hb)).tail hb
  refs := fun c a ha => .single (hrefs c a ha)

/-- `begin` is followed by two branches that meet. -/
def diamond : Dsl (Fin 4) ℕ ℕ ℕ := plainDsl ![[1, 2], [3], [3], []] ![[], [], [], [1, 2]]

/-- `begin`, then 1 and 2, then 3. -/
theorem run_topological_diamond : ∃ k, (rounds diamond (fun c _ _ => c) (start diamond new) k).finished ∧
      (∀ c, (rounds diamond (fun c _ _ => c) (start diamond new) k).batches.flatten.count c = 1) ∧
      ∀ pre b post, (rounds diamond (fun c _ _ => c) (start diamond new) k).batches = pre ++ b :: post →
        ∀ c ∈ b, ∀ a ∈ (diamond.component c).refs, a ∈ pre.flatten := by
  refine run_topological (topological_plainDsl (by decide) (by decide) (by decide)) fun k => ?_
  have hdone : (rounds diamond (fun c _ _ => c) (start diamond new) 3).path.length ≤
      (rounds diamond (fun c _ _ => c) (start diamond new) 3).idx := by decide
  match k with
  | 0 => decide
  | 1 => decide
  | 2 => decide
  | k + 3 =>
    rw [Nat.add_comm, rounds_add_of_finished (.inr hdone)]
    exact layered_of_done hdone

/-- `begin` is followed by 1 and 2, 1 by 3 and 4, and 2 by 3. -/
def crossed : Dsl (Fin 5) ℕ ℕ ℕ :=
  plainDsl ![[1, 2], [3, 4], [3], [], []] fun _ => []

/-- Component 3 is invoked twice. -/
theorem crossed_invoked_twice : Topological crossed ∧
      (rounds crossed (fun c _ _ => c) (start crossed new) 3).finished ∧
      (rounds crossed (fun c _ _ => c) (start crossed new) 3).batches.flatten.count 3 = 2 := by
  refine ⟨topological_plainDsl (by decide) (by decide) (by decide), ?_, ?_⟩
  · exact .inr (by decide)
  · decide

end CustomAi.Ragflow.Canvas
