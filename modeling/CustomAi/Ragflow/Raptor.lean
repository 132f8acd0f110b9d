import Mathlib.Algebra.Order.Ring.Rat
import Mathlib.Data.List.Perm.Basic
import Mathlib.Data.List.ReduceOption
import Mathlib.Logic.Relation

/-!
# The layers of RAPTOR

A layer of chunks is clustered, every cluster is summarised by a task of its own, and the summaries
are the next layer.
-/

namespace CustomAi.Ragflow.Raptor

open List Option

structure Chunk (E : Type) where
  text : String
  embd : Option (List E)

def Chunk.usable {E : Type} (c : Chunk E) : Bool :=
  c.text ≠ "" && c.embd.any (· ≠ [])

structure Behaviour (E : Type) where
  /-- `np.argmin(bics)` -/
  argmin : ℕ
  probs : List (List ℚ)
  /-- The clusters in the order in which their summaries complete. -/
  completion : List ℕ
  /-- The summary of a cluster, `none` if it fails. -/
  summary : ℕ → Option (Chunk E)

structure State (E : Type) where
  chunks : List (Chunk E)
  start : ℕ
  stop : ℕ
  layers : List (ℕ × ℕ)
  errorCount : ℕ
  /-- The outcomes of the summaries so far, which the code does not keep. -/
  outcomes : List (Option (Chunk E))

inductive Failure
  /-- `np.argmin` of an empty list -/
  | value
  | index
  | assertion
  /-- `RAPTOR aborted` -/
  | aborted
deriving DecidableEq

structure Config where
  maxCluster : ℕ
  threshold : ℚ
  /-- `_max_errors`, which is at least one -/
  maxErrors : ℕ

variable {E : Type} (config : Config) (env : State E → Behaviour E)

/-- `n_clusters[np.argmin(bics)]` with `n_clusters = np.arange(1, max_clusters)`. -/
def getOptimalClusters (numEmbeddings argmin : ℕ) : Option ℕ :=
  (range' 1 (min config.maxCluster numEmbeddings - 1))[argmin]?

/-- The first component of each row above the threshold; `none` if a row has none. -/
def labels (nClusters numEmbeddings : ℕ) (probs : List (List ℚ)) : Option (List ℕ) :=
  if nClusters = 1 then some (replicate numEmbeddings 0)
  else probs.mapM fun prob => prob.findIdx? (config.threshold < ·)

/-- One `summarize` task. -/
def summarize (outcome : Option (Chunk E)) (s : State E) : State E × Option Failure :=
  let s := { s with outcomes := s.outcomes ++ [outcome] }
  match outcome with
  | some c => ({ s with chunks := s.chunks ++ [c] }, none)
  | none =>
    let s := { s with errorCount := s.errorCount + 1 }
    (s, if config.maxErrors ≤ s.errorCount then some .aborted else none)

/-- The tasks of a layer in the order in which they complete, up to the first exception. -/
def gather : List (Option (Chunk E)) → State E → State E × Option Failure
  | [], s => (s, none)
  | outcome :: rest, s =>
    match summarize config outcome s with
    | (s, some failure) => (s, some failure)
    | (s, none) => gather rest s

def State.nextLayer (s : State E) : State E :=
  { s with
    layers := s.layers ++ [(s.stop, s.chunks.length)]
    start := s.stop
    stop := s.chunks.length }

def layerStep (s : State E) : State E × Option Failure :=
  let b := env s
  let numEmbeddings := s.stop - s.start
  if numEmbeddings = 2 then
    match summarize config (b.summary 0) s with
    | (s, some failure) => (s, some failure)
    | (s, none) => (s.nextLayer, none)
  else
    match getOptimalClusters config numEmbeddings b.argmin with
    | none => (s, some .value)
    | some nClusters =>
      match labels config nClusters numEmbeddings b.probs with
      | none => (s, some .index)
      | some lbls =>
        if ∃ c ∈ List.range nClusters, c ∉ lbls then (s, some .assertion)
        else
          match gather config (b.completion.map b.summary) s with
          | (s, some failure) => (s, some failure)
          | (s, none) =>
            if s.chunks.length - s.stop = nClusters then (s.nextLayer, none)
            else (s, some .assertion)

/-- The `while` loop; `none` if it has not ended after `fuel` layers. -/
def layerLoop : ℕ → State E → Option (State E × Option Failure)
  | fuel, s =>
    if s.stop - s.start ≤ 1 then some (s, none)
    else
      match fuel with
      | 0 => none
      | fuel + 1 =>
        match layerStep config env s with
        | (s, some failure) => some (s, some failure)
        | (s, none) => layerLoop fuel s

def State.init (chunks : List (Chunk E)) : State E :=
  ⟨chunks, 0, chunks.length, [(0, chunks.length)], 0, []⟩

/-- The state when the call ends, and the exception it raises, if any. -/
def call (fuel : ℕ) (chunks : List (Chunk E)) : Option (State E × Option Failure) :=
  if chunks.length ≤ 1 then some (State.init [], none)
  else layerLoop config env fuel (State.init (chunks.filter Chunk.usable))

/-! ## What the libraries promise, and what the call should do -/

/-- A number that was tried is chosen, rows are distributions, and every cluster is summarised once. -/
structure Behaviour.Lawful (b : Behaviour E) (numEmbeddings : ℕ) : Prop where
  argmin_lt : b.argmin < min config.maxCluster numEmbeddings - 1
  length : b.probs.length = numEmbeddings
  row : ∀ prob ∈ b.probs, prob.length = b.argmin + 1 ∧ (∀ p ∈ prob, 0 ≤ p) ∧ prob.sum = 1
  completion : b.completion.Perm (List.range (b.argmin + 1))

/-- Layers that end without an exception lead from `s` to `s'`. -/
def Reaches (s s' : State E) : Prop :=
  Relation.ReflTransGen
    (fun s s' => 1 < s.stop - s.start ∧ layerStep config env s = (s', none)) s s'

def Behaviour.failures (b : Behaviour E) : ℕ := (b.completion.map b.summary).countP Option.isNone

/-- Rows exceed the threshold, components are hit, and no summary fails unless the call is aborted. -/
structure Clear (s : State E) : Prop where
  labelled : ∃ lbls, labels config ((env s).argmin + 1) (s.stop - s.start) (env s).probs = some lbls ∧
    ∀ c, c < (env s).argmin + 1 → c ∈ lbls
  failures : (env s).failures = 0 ∨ config.maxErrors ≤ (env s).failures

/-- With fewer failures than `max_errors` the original chunks and the summaries are returned. -/
def Tolerates (chunks : List (Chunk E)) (r : State E × Option Failure) : Prop :=
  r.1.outcomes.countP Option.isNone < config.maxErrors →
    r.2 = none ∧ r.1.chunks = chunks ++ r.1.outcomes.reduceOption

/-! ## One layer -/

def State.after (s : State E) (outcomes : List (Option (Chunk E))) : State E :=
  { s with
    chunks := s.chunks ++ outcomes.reduceOption
    errorCount := s.errorCount + outcomes.countP Option.isNone
    outcomes := s.outcomes ++ outcomes }

lemma State.after_after (s : State E) (l l' : List (Option (Chunk E))) :
    (s.after l).after l' = s.after (l ++ l') := by
  simp only [State.after, reduceOption, filterMap_append, countP_append, append_assoc, Nat.add_assoc]

lemma summarize_eq (outcome : Option (Chunk E)) (s : State E) : summarize config outcome s = (s.after [outcome],
      if outcome = none ∧ config.maxErrors ≤ (s.after [outcome]).errorCount then some .aborted else none) := by
  cases outcome with
  | none => simp [summarize, State.after, reduceOption]
  | some c => simp [summarize, State.after, reduceOption]

/-- The tasks all complete, with too few failures to abort, or they are aborted. -/
lemma gather_cases (outcomes : List (Option (Chunk E))) (s : State E) :
    (gather config outcomes s = (s.after outcomes, none) ∧ (outcomes.countP isNone = 0 ∨
        (s.after outcomes).errorCount < config.maxErrors)) ∨ ∃ done rest, outcomes = done ++ rest ∧
      gather config outcomes s = (s.after done, some .aborted) ∧ config.maxErrors ≤ (s.after done).errorCount := by
  induction outcomes generalizing s with
  | nil =>
    refine .inl ⟨?_, .inl rfl⟩
    simp [gather, State.after, reduceOption]
  | cons outcome rest ih =>
    unfold gather
    rw [summarize_eq]
    by_cases habort : outcome = none ∧ config.maxErrors ≤ (s.after [outcome]).errorCount
    · rw [if_pos habort]
      exact .inr ⟨[outcome], rest, rfl, rfl, habort.2⟩
    · rw [if_neg habort]
      rcases ih (s.after [outcome]) with ⟨hrun, hfew⟩ | ⟨done, rest', rfl, hrun, hmany⟩
      · rw [State.after_after] at hrun hfew
        refine .inl ⟨hrun, ?_⟩
        cases outcome with
        | none =>
          right
          rcases hfew with h0 | hfew
          · have hlt := not_le.mp fun hle => habort ⟨rfl, hle⟩
            simpa [State.after, h0] using hlt
          · exact hfew
        | some c => exact hfew.imp_left fun h0 => by simpa using h0
      · rw [State.after_after] at hrun hmany
        exact .inr ⟨outcome :: done, rest', rfl, hrun, hmany⟩

variable {config env} {orig : List (Chunk E)} {s s' : State E}

structure Inv (orig : List (Chunk E)) (s : State E) : Prop where
  chunks : s.chunks = orig ++ s.outcomes.reduceOption
  errors : s.errorCount = s.outcomes.countP Option.isNone

lemma Inv.after (h : Inv orig s) (outcomes : List (Option (Chunk E))) : Inv orig (s.after outcomes) := by
  constructor
  · simp only [State.after, h.chunks, reduceOption, filterMap_append, append_assoc]
  · simp only [State.after, h.errors, countP_append]

def size (layer : ℕ × ℕ) : ℕ := layer.2 - layer.1

structure Head (orig : List (Chunk E)) (s : State E) : Prop extends Inv orig s where
  start_le : s.start ≤ s.stop
  stop_eq : s.stop = s.chunks.length
  last : ∃ front, s.layers = front ++ [(s.start, s.stop)]
  smaller : (s.layers.map size).Pairwise (· > ·)
  noErrors : 1 < s.stop - s.start → s.errorCount = 0

lemma Head.init (chunks : List (Chunk E)) : Head chunks (State.init chunks) where
  chunks := (append_nil chunks).symm
  errors := rfl
  start_le := Nat.zero_le _
  stop_eq := rfl
  last := ⟨[], rfl⟩
  smaller := pairwise_singleton _ _
  noErrors := fun _ => rfl

lemma Head.nextLayer (h : Head orig s) {outcomes : List (Option (Chunk E))}
    (hsize : outcomes.reduceOption.length < s.stop - s.start)
    (hnone : 1 < outcomes.reduceOption.length → outcomes.countP isNone = 0) :
    Head orig (s.after outcomes).nextLayer ∧
      (s.after outcomes).nextLayer.stop - (s.after outcomes).nextLayer.start < s.stop - s.start := by
  have hstop := h.stop_eq
  have hlen : (s.after outcomes).chunks.length - s.stop = outcomes.reduceOption.length := by
    simp only [State.after, length_append]
    omega
  have hinv := h.toInv.after outcomes
  refine ⟨⟨⟨hinv.chunks, hinv.errors⟩, ?_, rfl, ⟨s.layers, rfl⟩, ?_, fun hlt => ?_⟩, ?_⟩
  · simp only [State.nextLayer, State.after, length_append]
    omega
  · obtain ⟨front, hfront⟩ := h.last
    have hold := h.smaller
    change ((s.layers ++ [(s.stop, (s.after outcomes).chunks.length)]).map size).Pairwise _
    rw [map_append, pairwise_append]
    refine ⟨hold, pairwise_singleton _ _, fun n hn m hm => ?_⟩
    rw [map_singleton, mem_singleton] at hm
    subst hm
    -- the last layer is the smallest one so far
    have hle : s.stop - s.start ≤ n := by
      rw [hfront, map_append, pairwise_append] at hold
      rw [hfront, map_append, mem_append] at hn
      rcases hn with hn | hn
      · exact (hold.2.2 n hn _ mem_cons_self).le
      · exact (mem_singleton.mp hn).ge
    change (s.after outcomes).chunks.length - s.stop < n
    omega
  · change 1 < (s.after outcomes).chunks.length - s.stop at hlt
    change s.errorCount + outcomes.countP isNone = 0
    rw [hnone (by omega), h.noErrors (by omega)]
  · change (s.after outcomes).chunks.length - s.stop < _
    omega

inductive Outcome (config : Config) (env : State E → Behaviour E) (orig : List (Chunk E))
    (s : State E) : Prop
  | next (s' : State E) : layerStep config env s = (s', none) → Head orig s' →
      s'.stop - s'.start < s.stop - s.start →
      (3 ≤ s.stop - s.start → Clear config env s) → Outcome config env orig s
  | aborted (s' : State E) (e : Failure) : layerStep config env s = (s', some e) →
      s'.layers = s.layers → config.maxErrors ≤ s'.outcomes.countP Option.isNone →
      (3 ≤ s.stop - s.start → Clear config env s) → Outcome config env orig s
  | failed (s' : State E) (e : Failure) : layerStep config env s = (s', some e) →
      s'.layers = s.layers → s'.outcomes.countP Option.isNone < config.maxErrors →
      3 ≤ s.stop - s.start → ¬Clear config env s → Outcome config env orig s

lemma Head.layerStep_two (h : Head orig s) (htwo : s.stop - s.start = 2) : Outcome config env orig s := by
  have hwide : 3 ≤ s.stop - s.start → Clear config env s := fun hle => by omega
  have heq : layerStep config env s = _ := if_pos htwo
  rw [summarize_eq] at heq
  have hlen : ([(env s).summary 0]).reduceOption.length ≤ 1 := reduceOption_length_le _
  by_cases habort : (env s).summary 0 = none ∧ config.maxErrors ≤ (s.after [(env s).summary 0]).errorCount
  · rw [if_pos habort] at heq
    refine .aborted _ _ heq rfl ?_ hwide
    rw [← (h.toInv.after _).errors]
    exact habort.2
  · rw [if_neg habort] at heq
    obtain ⟨hnext, hless⟩ : Head orig (s.after [(env s).summary 0]).nextLayer ∧ _ :=
      h.nextLayer (by omega) (fun hlt => by omega)
    exact .next _ heq hnext hless hwide

lemma Head.layerStep_wide (h : Head orig s) (hwide : 3 ≤ s.stop - s.start)
    (hlaw : (env s).Lawful config (s.stop - s.start)) (herrors : 1 ≤ config.maxErrors) :
    Outcome config env orig s := by
  have hargmin := hlaw.argmin_lt
  have hopt : getOptimalClusters config (s.stop - s.start) (env s).argmin = some ((env s).argmin + 1) := by
    unfold getOptimalClusters
    rw [List.getElem?_range' hargmin]
    congr 1
    omega
  have hzero : s.outcomes.countP isNone < config.maxErrors := by
    rw [← h.errors, h.noErrors (by omega)]
    exact herrors
  have hstep : layerStep config env s = _ := if_neg (by omega)
  rw [hopt] at hstep
  dsimp only at hstep
  cases hlbls : labels config ((env s).argmin + 1) (s.stop - s.start) (env s).probs with
  | none =>
    rw [hlbls] at hstep
    refine .failed _ _ hstep rfl hzero hwide fun hclear => ?_
    obtain ⟨lbls, hsome, -⟩ := hclear.labelled
    rw [hlbls] at hsome
    cases hsome
  | some lbls =>
    rw [hlbls] at hstep
    dsimp only at hstep
    by_cases hempty : ∃ c ∈ List.range ((env s).argmin + 1), c ∉ lbls
    · rw [if_pos hempty] at hstep
      refine .failed _ _ hstep rfl hzero hwide fun hclear => ?_
      obtain ⟨lbls', hsome, hall⟩ := hclear.labelled
      rw [hlbls] at hsome
      obtain rfl := some.inj hsome
      obtain ⟨c, hc, hnot⟩ := hempty
      exact hnot (hall c (mem_range.mp hc))
    rw [if_neg hempty] at hstep
    have hlabelled : ∃ lbls, labels config ((env s).argmin + 1) (s.stop - s.start)
        (env s).probs = some lbls ∧ ∀ c, c < (env s).argmin + 1 → c ∈ lbls := by
      refine ⟨lbls, hlbls, fun c hc => ?_⟩
      by_contra hnot
      exact hempty ⟨c, mem_range.mpr hc, hnot⟩
    have hlength : ((env s).completion.map (env s).summary).length = (env s).argmin + 1 := by
      rw [length_map, hlaw.completion.length_eq, length_range]
    rcases gather_cases config ((env s).completion.map (env s).summary) s with
      ⟨hrun, hfew⟩ | ⟨done, rest, hsplit, hrun, hmany⟩
    · rw [hrun] at hstep
      dsimp only at hstep
      have hsum := length_eq_reduceOption_length_add_filter_none
        (l := (env s).completion.map (env s).summary)
      rw [← countP_eq_length_filter] at hsum
      have hgrown : (s.after ((env s).completion.map (env s).summary)).chunks.length -
          (s.after ((env s).completion.map (env s).summary)).stop =
          ((env s).completion.map (env s).summary).reduceOption.length := by
        have hstop := h.stop_eq
        simp only [State.after, length_append]
        omega
      rcases Nat.eq_zero_or_pos (env s).failures with h0 | hpos
      · have h0' : ((env s).completion.map (env s).summary).countP isNone = 0 := h0
        rw [if_pos (by omega)] at hstep
        obtain ⟨hnext, hless⟩ : Head orig (s.after ((env s).completion.map (env s).summary)).nextLayer ∧ _ :=
          h.nextLayer (by omega) (fun _ => h0)
        exact .next _ hstep hnext hless fun _ => ⟨hlabelled, .inl h0⟩
      · have hpos' : 0 < ((env s).completion.map (env s).summary).countP isNone := hpos
        rw [if_neg (by omega)] at hstep
        have hless := hfew.resolve_left (by omega)
        refine .failed _ _ hstep rfl ?_ hwide fun hclear => ?_
        · rw [← (h.toInv.after _).errors]
          exact hless
        · have hzero' := h.noErrors (by omega)
          have hmany : config.maxErrors ≤ ((env s).completion.map (env s).summary).countP isNone :=
            hclear.failures.resolve_left hpos.ne'
          change s.errorCount + _ < _ at hless
          omega
    · rw [hrun] at hstep
      refine .aborted _ _ hstep rfl ?_ fun _ => ⟨hlabelled, .inr ?_⟩
      · rw [← (h.toInv.after _).errors]
        exact hmany
      · have hzero' := h.noErrors (by omega)
        change config.maxErrors ≤ s.errorCount + _ at hmany
        unfold Behaviour.failures
        rw [hsplit, countP_append]
        omega

/-! ## The whole call -/

lemma reaches_iff : Reaches config env s s' ↔ s = s' ∨ 1 < s.stop - s.start ∧
    ∃ t, layerStep config env s = (t, none) ∧ Reaches config env t s' := by
  unfold Reaches
  rw [Relation.ReflTransGen.cases_head_iff]
  constructor
  · rintro (rfl | ⟨t, ⟨hsize, hstep⟩, hrest⟩)
    · exact .inl rfl
    · exact .inr ⟨hsize, t, hstep, hrest⟩
  · rintro (rfl | ⟨hsize, t, hstep, hrest⟩)
    · exact .inl rfl
    · exact .inr ⟨t, ⟨hsize, hstep⟩, hrest⟩

/-- The condition at a state with a next layer is that of the state and of those after it. -/
lemma clear_reached_iff {P : Prop} (hsize : 1 < s.stop - s.start) (hP : ∀ t, layerStep config env s = (t, none) →
      (P ↔ ∀ s', Reaches config env t s' → 3 ≤ s'.stop - s'.start → Clear config env s')) :
    (∀ s', Reaches config env s s' → 3 ≤ s'.stop - s'.start → Clear config env s') ↔
      (3 ≤ s.stop - s.start → Clear config env s) ∧ ∀ t, layerStep config env s = (t, none) → P := by
  constructor
  · intro h
    refine ⟨h s (reaches_iff.mpr (.inl rfl)), fun t hstep => (hP t hstep).mpr fun s' hs' => ?_⟩
    exact h s' (reaches_iff.mpr (.inr ⟨hsize, t, hstep, hs'⟩))
  · rintro ⟨hclear, hnext⟩ s' hs'
    rcases reaches_iff.mp hs' with rfl | ⟨-, t, hstep, hrest⟩
    · exact hclear
    · exact (hP t hstep).mp (hnext t hstep) s' hrest

/-- Layers get smaller, and failures are tolerated exactly if the layers reached are clear. -/
lemma Head.layerLoop (h : Head orig s) (herrors : 1 ≤ config.maxErrors)
    (hlaw : ∀ s, 3 ≤ s.stop - s.start → (env s).Lawful config (s.stop - s.start)) :
    ∃ r, (∀ fuel, s.stop - s.start ≤ fuel → Raptor.layerLoop config env fuel s = some r) ∧
      (r.1.layers.map size).Pairwise (· > ·) ∧ (Tolerates config orig r ↔
        ∀ s', Reaches config env s s' → 3 ≤ s'.stop - s'.start → Clear config env s') := by
  induction hn : s.stop - s.start using Nat.strong_induction_on generalizing s with
  | _ n ih =>
  subst hn
  by_cases hsize : s.stop - s.start ≤ 1
  · refine ⟨(s, none), fun fuel _ => ?_, h.smaller, fun _ s' hs' hwide => ?_, fun _ _ =>
      ⟨rfl, h.chunks⟩⟩
    · unfold Raptor.layerLoop
      exact if_pos hsize
    · rcases reaches_iff.mp hs' with rfl | ⟨hlt, -⟩
      · omega
      · omega
  have hloop : ∀ fuel, s.stop - s.start ≤ fuel → ∃ fuel', fuel = fuel' + 1 ∧
      Raptor.layerLoop config env fuel s = match layerStep config env s with
        | (s, some failure) => some (s, some failure)
        | (s, none) => Raptor.layerLoop config env fuel' s := by
    intro fuel hfuel
    obtain ⟨fuel', rfl⟩ := Nat.exists_eq_add_of_le' (show 1 ≤ fuel by omega)
    refine ⟨fuel', rfl, ?_⟩
    conv_lhs => unfold Raptor.layerLoop
    exact if_neg hsize
  have hout : Outcome config env orig s := by
    rcases Nat.lt_or_ge (s.stop - s.start) 3 with htwo | hwide
    · exact h.layerStep_two (by omega)
    · exact h.layerStep_wide hwide (hlaw s hwide) herrors
  have hend : ∀ {s' e}, layerStep config env s = (s', some e) → s'.layers = s.layers →
      (Tolerates config orig (s', some e) ↔ (3 ≤ s.stop - s.start → Clear config env s)) →
      ∃ r, (∀ fuel, s.stop - s.start ≤ fuel → Raptor.layerLoop config env fuel s = some r) ∧
        (r.1.layers.map size).Pairwise (· > ·) ∧ (Tolerates config orig r ↔
          ∀ s', Reaches config env s s' → 3 ≤ s'.stop - s'.start → Clear config env s') := by
    intro s' e hstep hlayers hiff
    refine ⟨(s', some e), fun fuel hfuel => ?_, by rw [hlayers]; exact h.smaller, ?_⟩
    · obtain ⟨fuel', -, hrun⟩ := hloop fuel hfuel
      rw [hrun, hstep]
    · have hno : ∀ t, layerStep config env s ≠ (t, none) := fun t ht => by
        rw [hstep] at ht
        cases (Prod.mk.inj ht).2
      rw [clear_reached_iff (P := False) (by omega) fun t ht => absurd ht (hno t)]
      exact hiff.trans ⟨fun hc => ⟨hc, fun t ht => hno t ht⟩, And.left⟩
  cases hout with
  | next t hstep hhead hless hclear =>
    obtain ⟨r, hrun, hsmaller, hiff⟩ := ih _ hless hhead rfl
    have hsame : ∀ t', layerStep config env s = (t', none) → t' = t := fun t' ht' =>
      (Prod.mk.inj (ht'.symm.trans hstep)).1
    refine ⟨r, fun fuel hfuel => ?_, hsmaller, ?_⟩
    · obtain ⟨fuel', rfl, hloop⟩ := hloop fuel hfuel
      rw [hloop, hstep]
      exact hrun fuel' (by omega)
    · rw [clear_reached_iff (P := Tolerates config orig r) (by omega) fun t' ht' => by
        rw [hsame t' ht']
        exact hiff]
      exact ⟨fun ht => ⟨hclear, fun _ _ => ht⟩, fun hall => hall.2 t hstep⟩
  | aborted s' e hstep hlayers hmany hclear =>
    exact hend hstep hlayers ⟨fun _ => hclear, fun _ hfew => absurd hfew (not_lt.mpr hmany)⟩
  | failed s' e hstep hlayers hfew hwide hnot =>
    refine hend hstep hlayers ⟨fun ht => ?_, fun hclear => absurd (hclear hwide) hnot⟩
    cases (ht hfew).1

/-- The call ends with smaller and smaller layers, and tolerates failures exactly if the layers it
comes to are clear. -/
theorem call_tolerates_iff {chunks : List (Chunk E)} (hlength : 2 ≤ chunks.length)
    (husable : ∀ c ∈ chunks, c.usable = true) (herrors : 1 ≤ config.maxErrors)
    (hlaw : ∀ s, 3 ≤ s.stop - s.start → (env s).Lawful config (s.stop - s.start)) :
    ∃ r, (∀ fuel, chunks.length ≤ fuel → call config env fuel chunks = some r) ∧
      (r.1.layers.map size).Pairwise (· > ·) ∧
      (Tolerates config chunks r ↔ ∀ s, Reaches config env (State.init chunks) s →
        3 ≤ s.stop - s.start → Clear config env s) := by
  obtain ⟨r, hrun, hsmaller, hiff⟩ := (Head.init chunks).layerLoop herrors hlaw
  refine ⟨r, fun fuel hfuel => ?_, hsmaller, hiff⟩
  unfold call
  rw [if_neg (by omega), filter_eq_self.mpr husable]
  exact hrun fuel hfuel

/-- Three or more chunks have two clusters, and the summary of a layer of two fails. -/
def lastFails (s : State ℕ) : Behaviour ℕ :=
  ⟨1, [1, 0] :: replicate (s.stop - s.start - 1) [0, 1], [1, 0],
    fun _ => if s.stop - s.start = 2 then none else some ⟨"s", some [1]⟩⟩

def threeChunks : List (Chunk ℕ) := replicate 3 ⟨"a", some [1]⟩

lemma lastFails_lawful (s : State ℕ) (hwide : 3 ≤ s.stop - s.start) :
    (lastFails s).Lawful ⟨3, 1 / 10, 3⟩ (s.stop - s.start) where
  argmin_lt := by
    have : min 3 (s.stop - s.start) = 3 := by omega
    rw [this]
    exact Nat.one_lt_two
  length := by
    rw [lastFails, length_cons, length_replicate]
    omega
  row prob hprob := by
    rcases mem_cons.mp hprob with rfl | hprob
    · exact ⟨rfl, by decide, by simp⟩
    · obtain rfl := eq_of_mem_replicate hprob
      exact ⟨rfl, by decide, by simp⟩
  completion := Perm.swap 0 1 []

lemma labels_lastFails (s : State ℕ) : labels ⟨3, 1 / 10, 3⟩ 2 (s.stop - s.start) (lastFails s).probs =
      some (0 :: replicate (s.stop - s.start - 1) 1) := by
  have hfirst : [1, 0].findIdx? ((1 / 10 : ℚ) < ·) = some 0 := by decide +kernel
  have hsecond : [0, 1].findIdx? ((1 / 10 : ℚ) < ·) = some 1 := by decide +kernel
  have hrows : ∀ n, (replicate n [0, 1]).mapM
      (fun prob : List ℚ => prob.findIdx? ((1 / 10 : ℚ) < ·)) = some (replicate n 1) := by
    intro n
    induction n with
    | zero => rfl
    | succ n ih =>
      rw [replicate_succ, mapM_cons, ih, hsecond]
      rfl
  unfold labels lastFails
  rw [if_neg (by decide), mapM_cons, hrows, hfirst]
  rfl

/-- The two summaries of the first layer are kept when the one of the second layer fails. -/
theorem call_tolerates_iff_lastFails : ∃ r, call ⟨3, 1 / 10, 3⟩ lastFails 3 threeChunks = some r ∧
    r.1.outcomes.countP Option.isNone = 1 ∧ Tolerates ⟨3, 1 / 10, 3⟩ threeChunks r := by
  have htwo : 2 ≤ threeChunks.length := by decide
  obtain ⟨r, hrun, -, hiff⟩ := call_tolerates_iff htwo (by decide) (by decide) lastFails_lawful
  have hcall := hrun 3 le_rfl
  refine ⟨r, hcall, ?_, hiff.mpr fun s _ hwide => ⟨⟨0 :: replicate (s.stop - s.start - 1) 1, ?_, ?_⟩, .inl ?_⟩⟩
  · have hcount : (call ⟨3, 1 / 10, 3⟩ lastFails 3 threeChunks).map
      (fun r => r.1.outcomes.countP Option.isNone) = some 1 := by decide +kernel
    rw [hcall] at hcount
    exact Option.some.inj hcount
  · exact labels_lastFails s
  · intro c hc
    have hone : 1 ∈ replicate (s.stop - s.start - 1) 1 := mem_replicate.mpr ⟨by omega, rfl⟩
    have hc' : c = 0 ∨ c = 1 := by
      change c < 2 at hc
      omega
    rcases hc' with rfl | rfl
    · exact mem_cons_self
    · exact mem_cons_of_mem 0 hone
  · have hne : s.stop - s.start ≠ 2 := by omega
    simp [Behaviour.failures, lastFails, hne]

def failing (s : State ℕ) : Behaviour ℕ :=
  ⟨0, replicate (s.stop - s.start) [1], [0], fun _ => none⟩

lemma failing_lawful (s : State ℕ) (hwide : 3 ≤ s.stop - s.start) :
    (failing s).Lawful ⟨2, 1 / 10, 3⟩ (s.stop - s.start) where
  argmin_lt := by
    have : min 2 (s.stop - s.start) = 2 := by omega
    rw [this]
    exact Nat.one_pos
  length := length_replicate
  row prob hprob := by
    obtain rfl := eq_of_mem_replicate hprob
    exact ⟨rfl, by decide, sum_singleton⟩
  completion := Perm.refl _

/-- One summary of a layer of three chunks fails, of which `max_errors` permits three. -/
theorem one_failure_not_tolerated :
    ¬∀ (config : Config) (env : State ℕ → Behaviour ℕ) (chunks : List (Chunk ℕ)) (fuel : ℕ)
      (r : State ℕ × Option Failure), 2 ≤ chunks.length → (∀ c ∈ chunks, c.usable = true) →
      2 ≤ config.maxCluster → 1 ≤ config.maxErrors →
      (∀ s, 3 ≤ s.stop - s.start → (env s).Lawful config (s.stop - s.start)) →
      call config env fuel chunks = some r → Tolerates config chunks r := by
  intro h
  have hrun : call ⟨2, 1 / 10, 3⟩ failing 3 threeChunks =
      some (⟨threeChunks, 0, 3, [(0, 3)], 1, [none]⟩, some .assertion) := by
    rfl
  have := h _ failing threeChunks 3 _ (by decide) (by decide) (by decide) (by decide)
    failing_lawful hrun (by decide)
  cases this.1

end CustomAi.Ragflow.Raptor
