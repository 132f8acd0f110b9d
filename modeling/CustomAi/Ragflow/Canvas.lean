import Mathlib.Algebra.Order.Group.Unbundled.Int
import Mathlib.Data.List.Nodup

/-!
# The agent canvas

The scheduler of `Canvas.run`: a path that grows while it is worked off in batches, for canvases of
ordinary components and iterations.
-/

namespace CustomAi.Ragflow

open List

variable {V K W Val : Type}

inductive Kind
  | begin
  | ordinary
  | iteration
  | iterationItem
deriving DecidableEq

/-- A component of the canvas; `refs` are the `_cpn_id`s of its input elements. -/
structure Component (V : Type) where
  kind : Kind
  downstream : List V
  parent : Option V
  refs : List V

/-- The canvas. `outputRefs` are the outputs of an iteration with a `ref`. -/
structure Dsl (V K W Val : Type) where
  component : V → Component V
  keys : List V
  begin : V
  items : V → List Val
  outputRefs : V → List (K × V × W)
  itemVar : W
  indexVar : W
  ofIndex : ℤ → Val

structure Canvas (V K W Val : Type) where
  path : List V
  idx : ℕ
  /-- The components of the finished batches. -/
  batches : List (List V)
  /-- `IterationItem._idx`, which outlives a run. -/
  itemIdx : V → ℤ
  count : V → ℕ
  output : V → W → Option Val
  collected : V → K → List (Option Val)
  failed : Bool

namespace Canvas

variable [DecidableEq V] [DecidableEq K] [DecidableEq W] (dsl : Dsl V K W Val)

def new : Canvas V K W Val :=
  ⟨[], 0, [], fun _ => 0, fun _ => 0, fun _ _ => none, fun _ _ => [], false⟩

/-- The start of a run: the outputs are reset, and `begin` joins the path of earlier runs. -/
def start (s : Canvas V K W Val) : Canvas V K W Val where
  path := s.path ++ [dsl.begin]
  idx := s.path.length
  batches := []
  itemIdx := s.itemIdx
  count := fun _ => 0
  output := fun _ _ => none
  collected := fun _ _ => []
  failed := false

/-- `_run_batch`: the components of the batch whose inputs are on the path before them; the others
are popped. -/
def ready (front : List V) : List V → List V
  | [] => []
  | c :: rest =>
    if (dsl.component c).kind = .begin ∨ ∀ a ∈ (dsl.component c).refs, a ∈ front then
      c :: ready (front ++ [c]) rest
    else ready front rest

def get_start (p : V) : Option V :=
  dsl.keys.find? fun c =>
    (dsl.component c).kind = .iterationItem ∧ (dsl.component c).parent = some p

def output_collation (p : V) (s : Canvas V K W Val) : Canvas V K W Val :=
  { s with collected := Function.update s.collected p fun k =>
      s.collected p k ++ dsl.keys.flatMap fun c =>
        if (dsl.component c).parent = some p then
          ((dsl.outputRefs p).filter fun o => o.1 = k ∧ o.2.1 = c).map fun o => s.output c o.2.2
        else [] }

/-- `arr[i]`, where -1 is the last position. -/
def pyIndex {α : Type} (arr : List α) (i : ℤ) : Option α :=
  if 0 ≤ i then arr[i.toNat]? else if 0 ≤ arr.length + i then arr[(arr.length + i).toNat]? else none

/-- `IterationItem._invoke` -/
def invokeItem (c : V) (s : Canvas V K W Val) : Canvas V K W Val :=
  match (dsl.component c).parent with
  | none => { s with failed := true }
  | some p =>
    let arr := dsl.items p
    let idx := s.itemIdx c
    let s := if 0 < idx then output_collation dsl p s else s
    if (arr.length : ℤ) ≤ idx then { s with itemIdx := Function.update s.itemIdx c (-1) }
    else match pyIndex arr idx with
      | none => { s with failed := true }
      | some x => { s with
          output := Function.update s.output c (Function.update
            (Function.update (s.output c) dsl.itemVar (some x)) dsl.indexVar (some (dsl.ofIndex idx)))
          itemIdx := Function.update s.itemIdx c (idx + 1) }

/-- The invocation of a component; `result c n w` is what its n-th invocation outputs. -/
def invoke (result : V → ℕ → W → Val) (s : Canvas V K W Val) (c : V) : Canvas V K W Val :=
  let s := { s with count := Function.update s.count c (s.count c + 1) }
  match (dsl.component c).kind with
  | .iterationItem => invokeItem dsl c s
  | .iteration => s
  | .begin | .ordinary =>
    { s with output := Function.update s.output c fun w => some (result c (s.count c) w) }

/-- `IterationItem.end` -/
def ended (s : Canvas V K W Val) (c : V) : Prop := s.itemIdx c = -1

instance (s : Canvas V K W Val) (c : V) : Decidable (ended s c) :=
  inferInstanceAs (Decidable (_ = _))

def append_path (path : List V) (c : V) : List V :=
  if path.getLast? = some c then path else path ++ [c]

def extend_path (path : List V) (cs : List V) : List V := cs.foldl append_path path

def following (s : Canvas V K W Val) (c : V) : List V :=
  let cpn := dsl.component c
  if cpn.kind = .iterationItem ∧ ended s c then
    (cpn.parent.map fun p => (dsl.component p).downstream).getD []
  else if cpn.kind = .iteration then (get_start dsl c).toList
  else if cpn.downstream = [] ∧ cpn.parent.isSome then
    (cpn.parent.bind (get_start dsl)).toList
  else cpn.downstream

def front (s : Canvas V K W Val) : List V := s.path.take s.idx

def batch (s : Canvas V K W Val) : List V := ready dsl s.front (s.path.drop s.idx)

def step (result : V → ℕ → W → Val) (s : Canvas V K W Val) : Canvas V K W Val :=
  if s.failed ∨ s.path.length ≤ s.idx then s
  else
    let kept := s.batch dsl
    let invoked := kept.foldl (invoke dsl result) s
    if invoked.failed then { invoked with path := s.front ++ kept }
    else { invoked with
      path := extend_path (s.front ++ kept) (kept.flatMap (following dsl invoked))
      idx := s.front.length + kept.length
      batches := s.batches ++ [kept] }

/-- The canvas after `k` rounds. -/
def rounds (result : V → ℕ → W → Val) (s : Canvas V K W Val) (k : ℕ) : Canvas V K W Val :=
  (step dsl result)^[k] s

def finished (s : Canvas V K W Val) : Prop := s.failed = true ∨ s.path.length ≤ s.idx

end Canvas

end CustomAi.Ragflow

/-!
## The path of the canvas

What one round of the main loop does to the path: the entries it keeps, pops and appends.
-/

namespace CustomAi.Ragflow.Canvas

open List

variable {V K W Val : Type} [DecidableEq V] {dsl : Dsl V K W Val}

/-- What a batch appends is not on the path before. -/
def Fresh : List V → List V → Prop
  | _, [] => True
  | path, c :: rest =>
    if path.getLast? = some c then Fresh path rest else c ∉ path ∧ Fresh (path ++ [c]) rest

instance : (path cs : List V) → Decidable (Fresh path cs)
  | _, [] => inferInstanceAs (Decidable True)
  | path, c :: rest =>
    have := instDecidableFresh path rest
    have := instDecidableFresh (path ++ [c]) rest
    inferInstanceAs (Decidable (if path.getLast? = some c then Fresh path rest
      else c ∉ path ∧ Fresh (path ++ [c]) rest))

variable {cs front l : List V} {c : V} (path : List V)

lemma extend_path_cons (c : V) (cs : List V) :
    extend_path path (c :: cs) = extend_path (append_path path c) cs := rfl

lemma append_path_eq (c : V) : ∃ l, append_path path c = path ++ l := by
  unfold append_path
  split
  · exact ⟨[], (append_nil _).symm⟩
  · exact ⟨[c], rfl⟩

lemma extend_path_eq (cs : List V) : ∃ l, extend_path path cs = path ++ l := by
  induction cs generalizing path with
  | nil => exact ⟨[], (append_nil _).symm⟩
  | cons c cs ih =>
    obtain ⟨l, hl⟩ := append_path_eq path c
    obtain ⟨l', hl'⟩ := ih (append_path path c)
    exact ⟨l ++ l', by rw [extend_path_cons, hl', hl, append_assoc]⟩

lemma mem_append_path (c : V) : c ∈ append_path path c := by
  unfold append_path
  split
  · rename_i h
    exact mem_of_getLast? h
  · exact mem_append_right _ (mem_singleton_self c)

lemma mem_extend_path (h : c ∈ cs) : c ∈ extend_path path cs := by
  induction cs generalizing path with
  | nil => cases h
  | cons d cs ih =>
    rw [extend_path_cons]
    rcases mem_cons.1 h with rfl | hrest
    · obtain ⟨l, hl⟩ := extend_path_eq (append_path path c) cs
      rw [hl]
      exact mem_append_left _ (mem_append_path path c)
    · exact ih _ hrest

lemma Fresh.nodup {path : List V} (h : Fresh path cs) (hnd : path.Nodup) : (extend_path path cs).Nodup := by
  induction cs generalizing path with
  | nil => exact hnd
  | cons c cs ih =>
    rw [extend_path_cons]
    unfold Fresh at h
    unfold append_path
    split at h
    · rename_i hlast
      rw [if_pos hlast]
      exact ih h hnd
    · rename_i hlast
      rw [if_neg hlast]
      refine ih h.2 (List.nodup_append.2 ⟨hnd, nodup_singleton c, fun a ha b hb e => ?_⟩)
      rw [mem_singleton] at hb
      exact h.1 (hb ▸ e ▸ ha)

lemma Fresh.notMem {old kept : List V} (h : Fresh (old ++ kept) cs) (hkept : kept ≠ [])
    (hnd : (old ++ kept).Nodup) (hc : c ∈ cs) : c ∉ old := by
  induction cs generalizing kept with
  | nil => cases hc
  | cons d cs ih =>
    unfold Fresh at h
    split at h
    · rename_i hlast
      rcases mem_cons.1 hc with rfl | hrest
      · rw [List.getLast?_append_of_ne_nil _ hkept] at hlast
        intro hold
        exact (disjoint_of_nodup_append hnd) hold (mem_of_getLast? hlast)
      · exact ih h hkept hnd hrest
    · obtain ⟨hnew, hfresh⟩ := h
      rcases mem_cons.1 hc with rfl | hrest
      · exact fun hold => hnew (mem_append_left _ hold)
      · rw [append_assoc] at hfresh
        refine ih hfresh (by simp) ?_ hrest
        rw [← append_assoc]
        refine List.nodup_append.2 ⟨hnd, nodup_singleton d, fun a ha b hb e => ?_⟩
        rw [mem_singleton] at hb
        exact hnew (hb ▸ e ▸ ha)

lemma ready_refs {pre post : List V} (h : ready dsl front l = pre ++ c :: post) :
    (dsl.component c).kind = .begin ∨ ∀ a ∈ (dsl.component c).refs, a ∈ front ++ pre := by
  induction l generalizing front pre with
  | nil => simp [ready] at h
  | cons d rest ih =>
    unfold ready at h
    split at h
    · rename_i hd
      cases pre with
      | nil =>
        cases h
        simpa using hd
      | cons p pre =>
        obtain ⟨rfl, htail⟩ := List.cons.inj h
        simpa using ih htail
    · exact ih h

lemma exists_missing_of_popped (hc : c ∈ l) (hnot : c ∉ ready dsl front l) :
    ∃ a ∈ (dsl.component c).refs, a ∉ front := by
  induction l generalizing front with
  | nil => cases hc
  | cons d rest ih =>
    unfold ready at hnot
    split at hnot
    · rw [mem_cons, not_or] at hnot
      rcases mem_cons.1 hc with rfl | hrest
      · exact absurd rfl hnot.1
      · obtain ⟨a, ha, hfront⟩ := ih hrest hnot.2
        exact ⟨a, ha, fun h => hfront (mem_append_left _ h)⟩
    · rename_i hd
      rcases mem_cons.1 hc with rfl | hrest
      · rw [not_or] at hd
        by_contra hall
        push Not at hall
        exact hd.2 hall
      · exact ih hrest hnot

lemma mem_of_mem_ready (h : c ∈ ready dsl front l) : c ∈ l := by
  induction l generalizing front with
  | nil => simp [ready] at h
  | cons d rest ih =>
    unfold ready at h
    split at h
    · rcases mem_cons.1 h with rfl | hrest
      · exact mem_cons_self
      · exact mem_cons_of_mem _ (ih hrest)
    · exact mem_cons_of_mem _ (ih h)

lemma ready_sublist (front l : List V) : (ready dsl front l).Sublist l := by
  induction l generalizing front with
  | nil => exact List.Sublist.refl _
  | cons d rest ih =>
    unfold ready
    split
    · exact (ih _).cons_cons d
    · exact (ih _).cons d

section Step

variable [DecidableEq K] [DecidableEq W] {result : V → ℕ → W → Val} {s : Canvas V K W Val}

def invokeAll (dsl : Dsl V K W Val) (result : V → ℕ → W → Val) (s : Canvas V K W Val) :
    Canvas V K W Val := (s.batch dsl).foldl (invoke dsl result) s

lemma step_of_running (hrun : ¬ s.finished) (hok : (invokeAll dsl result s).failed = false) :
    step dsl result s = { invokeAll dsl result s with
      path := extend_path (s.front ++ s.batch dsl)
        ((s.batch dsl).flatMap (following dsl (invokeAll dsl result s)))
      idx := s.front.length + (s.batch dsl).length
      batches := s.batches ++ [s.batch dsl] } := by
  have hnot : ¬ (invokeAll dsl result s).failed = true := by
    rw [hok]
    exact Bool.false_ne_true
  exact (if_neg hrun).trans (if_neg hnot)

lemma step_of_finished (hfin : s.finished) : step dsl result s = s := if_pos hfin

lemma front_step (result : V → ℕ → W → Val) (hrun : ¬ s.finished)
    (hok : (invokeAll dsl result s).failed = false) : (step dsl result s).front = s.front ++ s.batch dsl := by
  rw [step_of_running hrun hok]
  obtain ⟨l, hl⟩ := extend_path_eq (s.front ++ s.batch dsl)
    ((s.batch dsl).flatMap (following dsl (invokeAll dsl result s)))
  rw [hl, ← length_append]
  exact take_left

lemma rounds_succ (k : ℕ) : rounds dsl result s (k + 1) = step dsl result (rounds dsl result s k) :=
  Function.iterate_succ_apply' _ _ _

lemma rounds_add_of_finished {k : ℕ} (hfin : (rounds dsl result s k).finished) (j : ℕ) :
    rounds dsl result s (k + j) = rounds dsl result s k := by
  induction j with
  | zero => rfl
  | succ j ih => rw [← Nat.add_assoc, rounds_succ, ih, step_of_finished hfin]

end Step

end CustomAi.Ragflow.Canvas
