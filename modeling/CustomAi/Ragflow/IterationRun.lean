import CustomAi.Ragflow.IterationRounds
import Mathlib.Data.Fin.VecNotation

/-!
# Runs of an iteration

In a run whose rounds are all clean the body is invoked once for each item, the outputs are
collected in the order of the items, and what follows the iteration is entered once.
-/

namespace CustomAi.Ragflow.Canvas

open Relation List

variable {V K W Val : Type} [DecidableEq V] [DecidableEq K] [DecidableEq W]
  {dsl : Dsl V K W Val} {result : V → ℕ → W → Val} {s : Canvas V K W Val} {p t : V}

/-- From the invocation of the item in round `a` to its next one in round `b`. -/
structure Round (dsl : Dsl V K W Val) (p t : V) (R : ℕ → Canvas V K W Val) (j a b : ℕ) : Prop where
  lt : a < b
  idle : ∀ k, a < k → k < b → t ∉ (R k).batch dsl
  entered : ∀ k, a ≤ k → k ≤ b → p ∉ (R k).batch dsl
  item : ∀ k, a < k → k ≤ b → (R k).output t dsl.itemVar = (dsl.items p)[j]?
  once : ∀ c, InBody dsl p t c → ∃ k, a < k ∧ k < b ∧ ((R k).batch dsl).count c = 1 ∧
    ∀ m, a ≤ m → m ≤ b → c ∈ (R m).batch dsl → m = k

section Rounds

variable {R : ℕ → Canvas V K W Val} (h : IterationBody dsl p t)
  (hrun : CleanRun dsl result p t R) {j a σ : ℕ}
include h hrun

omit h in
lemma CleanRun.exists_round {N : ℕ} {c : V} (hstart : c ∉ sinceItem t (R σ).front)
    (hidle : ∀ k < N, t ∉ (R (σ + k)).pending) (hdone : c ∈ sinceItem t (R (σ + N)).front) :
    ∃ k < N, c ∈ (R (σ + k)).batch dsl := by
  induction N with
  | zero => exact absurd hdone hstart
  | succ N ih =>
    have ht : t ∉ (R (σ + N)).batch dsl := fun hb =>
      hidle N (by omega) (mem_pending_of_batch hb)
    rw [← Nat.add_assoc, (hrun.stepped (σ + N)).front, mem_sinceItem_append ht] at hdone
    rcases hdone with hold | hb
    · obtain ⟨k, hk, hb⟩ := ih (fun k hk => hidle k (by omega)) hold
      exact ⟨k, by omega, hb⟩
    · exact ⟨N, by omega, hb⟩

omit h in
lemma CleanRun.sinceItem_mono {N k m : ℕ} {c : V} (hidle : ∀ k < N, t ∉ (R (σ + k)).pending)
    (hkm : k ≤ m) (hm : m ≤ N) (hc : c ∈ sinceItem t (R (σ + k)).front) : c ∈ sinceItem t (R (σ + m)).front := by
  induction m with
  | zero => exact Nat.le_zero.mp hkm ▸ hc
  | succ m ih =>
    rcases Nat.eq_or_lt_of_le hkm with rfl | hlt
    · exact hc
    · have ht : t ∉ (R (σ + m)).batch dsl := fun hb =>
        hidle m (by omega) (mem_pending_of_batch hb)
      rw [← Nat.add_assoc, (hrun.stepped (σ + m)).front, mem_sinceItem_append ht]
      exact .inl (ih (by omega) (by omega))

lemma CleanRun.round [Finite V] (hs : AtItem dsl result p t j (R a)) (hj : j < (dsl.items p).length) :
    ∃ b, AtItem dsl result p t (j + 1) (R b) ∧ Round dsl p t R j a b := by
  classical
  obtain ⟨hstart, hfresh, hroots, -⟩ := hs.next h (hrun.clean a) (hrun.stepped a) hj
  have hex := hrun.item_pending h hstart hfresh hroots
  obtain ⟨N, hN, hmin⟩ : ∃ N, t ∈ (R (a + 1 + N)).pending ∧ ∀ k < N, t ∉ (R (a + 1 + k)).pending :=
    ⟨Nat.find hex, Nat.find_spec hex, fun k hk => Nat.find_min hex hk⟩
  have hround := hrun.inRound h hstart hmin
  have hwave := hrun.wavefront h hstart hfresh hroots hmin
  have hitem : t ∈ (R (a + 1 + N)).batch dsl := mem_batch_of_pending hN fun x hx => by
    rw [h.refs_item] at hx
    cases hx
  have hnone := ((hrun.clean (a + 1 + N)).2.1 hitem).2
  have hall : ∀ c, InBody dsl p t c → c ∈ sinceItem t (R (a + 1 + N)).front := fun c hc =>
    hwave.complete_of_no_waits h.edge_wf (fun v hv => hnone v.1 hv v.2) ⟨c, hc⟩
  have hlast := hround N le_rfl
  have hidle : ∀ k, a < k → k < a + 1 + N → t ∉ (R k).batch dsl := fun k hk hkb hb => by
    obtain ⟨i, rfl⟩ : ∃ i, k = a + 1 + i := ⟨k - (a + 1), by omega⟩
    exact hmin i (by omega) (mem_pending_of_batch hb)
  refine ⟨a + 1 + N, ⟨hN, ?_, fun c hc => ?_, fun _ c hc => hlast.output c hc (hall c hc),
    hlast.collected, fun c hc x hx hout => .inr (hlast.refs c hc x hx hout)⟩,
    ⟨by omega, hidle, fun k hk hkb => ?_, fun k hk hkb => ?_, fun c hc => ?_⟩⟩
  · rw [hlast.idx]
    rfl
  · rw [hlast.count c hc, if_pos (hall c hc)]
  · rcases Nat.eq_or_lt_of_le hk with rfl | hlt
    · exact hs.notMem_iteration (hrun.clean a).1
    · obtain ⟨i, rfl⟩ : ∃ i, k = a + 1 + i := ⟨k - (a + 1), by omega⟩
      exact (hround i (by omega)).notMem_iteration (hrun.clean _)
  · obtain ⟨i, rfl⟩ : ∃ i, k = a + 1 + i := ⟨k - (a + 1), by omega⟩
    exact (hround i (by omega)).item
  · obtain ⟨k, hk, hb⟩ := hrun.exists_round (hfresh c hc) hmin (hall c hc)
    have hcount : ∀ m < N, c ∈ (R (a + 1 + m)).batch dsl →
        ((R (a + 1 + m)).batch dsl).count c = 1 ∧ c ∉ sinceItem t (R (a + 1 + m)).front ∧
          c ∈ sinceItem t (R (a + 1 + (m + 1))).front := fun m hm hmb => by
      have ht := hidle (a + 1 + m) (by omega) (by omega)
      obtain ⟨hone, hnew⟩ := (hrun.clean (a + 1 + m)).2.2.count_eq_one ht hmb hc
      refine ⟨hone, hnew, ?_⟩
      rw [← Nat.add_assoc, (hrun.stepped (a + 1 + m)).front, mem_sinceItem_append ht]
      exact .inr hmb
    refine ⟨a + 1 + k, by omega, by omega, (hcount k hk hb).1, fun m hm hmb hcm => ?_⟩
    have hma : m ≠ a := fun e => hs.notMem_body h (hrun.clean a) hc (e ▸ hcm)
    have hmN : m ≠ a + 1 + N := fun e => hnone c (mem_pending_of_batch (e ▸ hcm)) hc
    obtain ⟨i, rfl⟩ : ∃ i, m = a + 1 + i := ⟨m - (a + 1), by omega⟩
    rcases Nat.lt_trichotomy i k with hik | hik | hik
    · exact absurd (hrun.sinceItem_mono hmin (by omega) (by omega) (hcount i (by omega) hcm).2.2)
        (hcount k hk hb).2.1
    · rw [hik]
    · exact absurd (hrun.sinceItem_mono hmin (by omega) (by omega) (hcount k hk hb).2.2)
        (hcount i (by omega) hcm).2.1

end Rounds

lemma exists_chain {A : ℕ → ℕ → Prop} {B : ℕ → ℕ → ℕ → Prop} {n a : ℕ} (hstart : A 0 a)
    (hnext : ∀ j < n, ∀ k, A j k → ∃ m, A (j + 1) m ∧ B j k m) :
    ∃ τ : ℕ → ℕ, τ 0 = a ∧ (∀ j ≤ n, A j (τ j)) ∧ ∀ j < n, B j (τ j) (τ (j + 1)) := by
  induction n with
  | zero => exact ⟨fun _ => a, rfl, fun j hj => Nat.le_zero.mp hj ▸ hstart, nofun⟩
  | succ n ih =>
    obtain ⟨τ, hzero, hA, hB⟩ := ih fun j hj => hnext j (by omega)
    obtain ⟨m, hm, hBm⟩ := hnext n (by omega) (τ n) (hA n le_rfl)
    obtain ⟨τ', hfirst, hlast⟩ : ∃ τ' : ℕ → ℕ, (∀ j ≤ n, τ' j = τ j) ∧ τ' (n + 1) = m :=
      ⟨fun j => if j ≤ n then τ j else m, fun j hj => if_pos hj, if_neg (by omega)⟩
    refine ⟨τ', (hfirst 0 (Nat.zero_le n)).trans hzero, fun j hj => ?_, fun j hj => ?_⟩
    · rcases Nat.eq_or_lt_of_le hj with rfl | hlt
      · rwa [hlast]
      · rw [hfirst j (by omega)]
        exact hA j (by omega)
    · rcases Nat.eq_or_lt_of_le (Nat.le_of_lt_succ hj) with rfl | hlt
      · rwa [hlast, hfirst j le_rfl]
      · rw [hfirst j hlt.le, hfirst (j + 1) hlt]
        exact hB j hlt

lemma exists_between {τ : ℕ → ℕ} {n k : ℕ} (hlo : τ 0 ≤ k) (hhi : k < τ n) : ∃ j < n, τ j ≤ k ∧ k < τ (j + 1) := by
  induction n with
  | zero => omega
  | succ n ih =>
    by_cases hk : k < τ n
    · obtain ⟨j, hj, hbounds⟩ := ih hk
      exact ⟨j, by omega, hbounds⟩
    · exact ⟨n, by omega, by omega, hhi⟩

/-- The item is invoked in the rounds `τ 0, ..., τ n`, and every component of the body once between
two of them. -/
structure Iterates (dsl : Dsl V K W Val) (result : V → ℕ → W → Val) (p t : V)
    (R : ℕ → Canvas V K W Val) (n : ℕ) (τ : ℕ → ℕ) : Prop where
  entered : ∀ k, p ∈ (R k).batch dsl ↔ k + 1 = τ 0
  increasing : ∀ j < n, τ j < τ (j + 1)
  item_invoked : ∀ k, t ∈ (R k).batch dsl ↔ ∃ j ≤ n, k = τ j
  item_set : ∀ j < n, ∀ k, τ j < k → k ≤ τ (j + 1) → (R k).output t dsl.itemVar = (dsl.items p)[j]?
  body_once : ∀ c, InBody dsl p t c → ∀ j < n, ∃ k, τ j < k ∧ k < τ (j + 1) ∧
    ((R k).batch dsl).count c = 1 ∧ ∀ m, τ j ≤ m → m ≤ τ (j + 1) → c ∈ (R m).batch dsl → m = k
  body_only : ∀ c, InBody dsl p t c → ∀ k, c ∈ (R k).batch dsl → ∃ j < n, τ j < k ∧ k < τ (j + 1)
  body_count : ∀ c, InBody dsl p t c → ∀ k, τ n < k → (R k).count c = n
  collected : ∀ k, τ n < k → Collected dsl result p t ((R k).collected p) n
  following : ∀ j ≤ n, following dsl (invokeAll dsl result (R (τ j))) t =
    if j = n then (dsl.component p).downstream else (dsl.component t).downstream
  exited : ∀ d ∈ (dsl.component p).downstream, d ∈ (R (τ n + 1)).path

section Whole

variable {R : ℕ → Canvas V K W Val} (h : IterationBody dsl p t)
  (hrun : CleanRun dsl result p t R)
include h hrun

lemma CleanRun.before (hstart : Before dsl p t (R 0)) {k : ℕ}
    (hnot : ∀ i < k, p ∉ (R i).batch dsl) : Before dsl p t (R k) := by
  induction k with
  | zero => exact hstart
  | succ k ih =>
    exact (ih fun i hi => hnot i (by omega)).step h (hrun.stepped k) (hnot k (by omega))

lemma CleanRun.after {b : ℕ} (hb : After dsl result p t (R b)) {k : ℕ} (hk : b ≤ k) :
    After dsl result p t (R k) := by
  induction k with
  | zero => exact Nat.le_zero.mp hk ▸ hb
  | succ k ih =>
    rcases Nat.eq_or_lt_of_le hk with rfl | hlt
    · exact hb
    · exact ((ih (by omega)).step h (hrun.stepped k) (hrun.clean k).1).2

lemma CleanRun.iterates [Finite V] (hstart : Before dsl p t (R 0)) (hreach : ∃ k, p ∈ (R k).batch dsl) :
    ∃ τ, Iterates dsl result p t R (dsl.items p).length τ := by
  classical
  obtain ⟨e, he, hmin⟩ : ∃ e, p ∈ (R e).batch dsl ∧ ∀ i < e, p ∉ (R i).batch dsl :=
    ⟨Nat.find hreach, Nat.find_spec hreach, fun i hi => Nat.find_min hreach hi⟩
  have hbefore : ∀ k ≤ e, Before dsl p t (R k) := fun k hk =>
    hrun.before h hstart fun i hi => hmin i (by omega)
  have hfirst := (hbefore e le_rfl).enter h (hrun.stepped e) he (hrun.clean e).1
  obtain ⟨τ, hzero, hitem, hround⟩ := exists_chain (A := fun j k => AtItem dsl result p t j (R k)) hfirst
      fun j hj k hk => hrun.round h hk hj
  have hlast := hitem _ le_rfl
  have hover : ∀ k, τ (dsl.items p).length < k → After dsl result p t (R k) := fun k hk =>
    hrun.after h (hlast.last h (hrun.clean _) (hrun.stepped _) rfl) hk
  -- every round lies before, between two items, at the last one or behind it
  have hcases : ∀ k, k ≤ e ∨ (∃ j < (dsl.items p).length, τ j ≤ k ∧ k < τ (j + 1)) ∨
      k = τ (dsl.items p).length ∨ τ (dsl.items p).length < k := fun k => by
    by_cases hke : k ≤ e
    · exact .inl hke
    · rcases Nat.lt_trichotomy k (τ (dsl.items p).length) with hlt | heq | hgt
      · exact .inr (.inl (exists_between (by omega) hlt))
      · exact .inr (.inr (.inl heq))
      · exact .inr (.inr (.inr hgt))
  refine ⟨τ, fun k => ⟨fun hp => ?_, fun hk => ?_⟩, fun j hj => (hround j hj).lt,
    fun k => ⟨fun ht => ?_, ?_⟩, fun j hj => (hround j hj).item,
    fun c hc j hj => (hround j hj).once c hc, fun c hc k hk => ?_,
    fun c hc k hk => (hover k hk).count c hc, fun k hk => (hover k hk).collected,
    fun j hj => (hitem j hj).following_item h (hrun.clean _) hj, fun d hd => ?_⟩
  · rcases hcases k with hke | ⟨j, hj, hlo, hhi⟩ | rfl | hk
    · have heq : k = e := by
        by_contra hne
        exact hmin k (by omega) hp
      rw [heq, hzero]
    · exact absurd hp ((hround j hj).entered k hlo hhi.le)
    · exact absurd hp (hlast.notMem_iteration (hrun.clean _).1)
    · exact absurd hp ((hover k hk).step h (hrun.stepped k) (hrun.clean k).1).1
  · obtain rfl : k = e := by omega
    exact he
  · rcases hcases k with hke | ⟨j, hj, hlo, hhi⟩ | rfl | hk
    · exact absurd rfl ((hbefore k hke).quiet t (mem_pending_of_batch ht)).2
    · rcases Nat.eq_or_lt_of_le hlo with heq | hlt
      · exact ⟨j, hj.le, heq.symm⟩
      · exact absurd ht ((hround j hj).idle k hlt hhi)
    · exact ⟨_, le_rfl, rfl⟩
    · exact absurd rfl ((hover k hk).quiet t (mem_pending_of_batch ht)).2
  · rintro ⟨j, hj, rfl⟩
    exact (hitem j hj).mem_batch h
  · rcases hcases k with hke | ⟨j, hj, hlo, hhi⟩ | rfl | hk'
    · exact absurd hc ((hbefore k hke).quiet c (mem_pending_of_batch hk)).1
    · rcases Nat.eq_or_lt_of_le hlo with rfl | hlt
      · exact absurd hk ((hitem j hj.le).notMem_body h (hrun.clean _) hc)
      · exact ⟨j, hj, hlt, hhi⟩
    · exact absurd hk (hlast.notMem_body h (hrun.clean _) hc)
    · exact absurd hc ((hover k hk').quiet c (mem_pending_of_batch hk)).1
  · have hfollow := hlast.following_item h (hrun.clean _) le_rfl
    rw [if_pos rfl] at hfollow
    have hnext := hrun.stepped (τ (dsl.items p).length)
    by_cases hdb : d ∈ (R (τ (dsl.items p).length)).batch dsl
    · have hfront : d ∈ (R (τ (dsl.items p).length + 1)).front := by
        rw [hnext.front]
        exact mem_append_right _ hdb
      exact mem_of_mem_take hfront
    · have hpending := hnext.mem_pending t (hlast.mem_batch h) d (hfollow ▸ hd) hdb
      exact mem_of_mem_drop hpending

end Whole

omit [DecidableEq K] [DecidableEq W] in
lemma IterationBody.before_start (h : IterationBody dsl p t) (s : Canvas V K W Val) :
    Before dsl p t (start dsl s) where
  quiet := fun c hc => by
    have hbegin : c = dsl.begin := by
      have hdrop : (start dsl s).pending = [dsl.begin] := drop_left
      rw [hdrop] at hc
      exact mem_singleton.mp hc
    rw [hbegin]
    refine ⟨fun hbody => ?_, fun e => ?_⟩
    · have hparent := hbody.1
      rw [h.begin] at hparent
      cases hparent
    · have hparent := h.item.2
      rw [← e, h.begin] at hparent
      cases hparent
  count := fun _ _ => rfl
  collected := fun _ => rfl

/-- If all rounds are clean, an iteration invokes its body once for each item and collects outputs
in order. -/
theorem run_iterates [Finite V] (h : IterationBody dsl p t) (s : Canvas V K W Val)
    (hok : ∀ k, (rounds dsl result (start dsl s) k).failed = false)
    (hclean : ∀ k, CleanRound dsl p t (rounds dsl result (start dsl s) k))
    (hreach : ∃ k, p ∈ (rounds dsl result (start dsl s) k).batch dsl) :
    ∃ τ, Iterates dsl result p t (rounds dsl result (start dsl s)) (dsl.items p).length τ :=
  CleanRun.iterates h ⟨fun k => rounds_succ k, hok, hclean⟩ (h.before_start s) hreach

omit [DecidableEq K] [DecidableEq W] in
lemma cleanRound_of_done (hdone : s.path.length ≤ s.idx) : CleanRound dsl p t s := by
  have hbatch : s.batch dsl = [] := by
    unfold batch
    rw [drop_eq_nil_of_le hdone]
    rfl
  unfold CleanRound CleanEntry CleanItem
  rw [hbatch]
  exact ⟨nofun, nofun, trivial⟩

/-- A canvas with `begin` 0, an iteration 1 over two items and its item 2. -/
def iterationDsl {n : ℕ} (downstream : Fin (n + 4) → List (Fin (n + 4)))
    (body : List (Fin (n + 4))) (ref : Fin (n + 4)) : Dsl (Fin (n + 4)) ℕ ℕ ℕ where
  component := fun c =>
    ⟨if c = 0 then .begin else if c = 1 then .iteration else if c = 2 then .iterationItem
      else .ordinary, downstream c, if c = 2 ∨ c ∈ body then some 1 else none, []⟩
  keys := finRange (n + 4)
  begin := 0
  items := fun _ => [10, 20]
  outputRefs := fun _ => [(0, ref, 0)]
  itemVar := 0
  indexVar := 1
  ofIndex := Int.toNat

lemma iterationDsl_acyclic {n : ℕ} {downstream : Fin (n + 4) → List (Fin (n + 4))}
    (body : List (Fin (n + 4))) (ref : Fin (n + 4)) (hlt : ∀ c, ∀ d ∈ downstream c, c < d) (c : Fin (n + 4)) :
    ¬ TransGen (fun a b => b ∈ ((iterationDsl downstream body ref).component a).downstream) c c := by
  intro hc
  have hmono : ∀ a b, TransGen
      (fun a b => b ∈ ((iterationDsl downstream body ref).component a).downstream) a b → a < b := by
    intro a b hab
    induction hab with
    | single hd => exact hlt _ _ hd
    | tail _ hd ih => exact ih.trans (hlt _ _ hd)
  exact lt_irrefl c (hmono c c hc)

def singleBody : Dsl (Fin 5) ℕ ℕ ℕ := @iterationDsl 1 ![[1], [4], [3], [], []] [3] 3

lemma iterationBody_singleBody : IterationBody singleBody 1 2 where
  kind := rfl
  get_start := by decide
  ordinary := by decide
  parent := by decide
  begin := rfl
  nonempty := by decide
  inside := by decide
  outside := by decide
  acyclic := fun c _ => iterationDsl_acyclic [3] 3 (by decide) c
  rooted := by
    have hbody : ∀ c, InBody singleBody 1 2 c → c = 3 := by decide
    intro c hc
    rw [hbody c hc]
    exact .single (by decide)
  refs_item := rfl
  refs := fun c _ a ha => absurd ha not_mem_nil
  keys := by decide
  mem_keys := by decide
  outputs := by decide
  vars := by decide

def sampleResult {n : ℕ} (c : Fin n) (i : ℕ) (_ : ℕ) : ℕ := 100 * c + i

theorem run_iterates_singleBody : ∃ τ, Iterates singleBody sampleResult 1 2 (rounds singleBody sampleResult
      (start singleBody new)) 2 τ := by
  have hdone : (rounds singleBody sampleResult (start singleBody new) 8).path.length ≤
      (rounds singleBody sampleResult (start singleBody new) 8).idx := by decide
  have hrest : ∀ k, 8 ≤ k → rounds singleBody sampleResult (start singleBody new) k =
      rounds singleBody sampleResult (start singleBody new) 8 := fun k hk => by
    obtain ⟨i, rfl⟩ : ∃ i, k = 8 + i := ⟨k - 8, by omega⟩
    exact rounds_add_of_finished (.inr hdone) i
  refine run_iterates iterationBody_singleBody new (fun k => ?_) (fun k => ?_) ⟨1, by decide⟩
  · have hfirst : ∀ k, k < 9 → (rounds singleBody sampleResult (start singleBody new) k).failed = false := by decide
    by_cases hk : k < 9
    · exact hfirst k hk
    · rw [hrest k (by omega)]
      exact hfirst 8 (by omega)
  · have hfirst : ∀ k, k < 9 → CleanRound singleBody 1 2
        (rounds singleBody sampleResult (start singleBody new) k) := by decide
    by_cases hk : k < 9
    · exact hfirst k hk
    · rw [hrest k (by omega)]
      exact cleanRound_of_done hdone

def unequalLeaves : Dsl (Fin 7) ℕ ℕ ℕ :=
  @iterationDsl 3 ![[1], [6], [3, 4], [], [5], [], []] [3, 4, 5] 5

lemma iterationBody_unequalLeaves : IterationBody unequalLeaves 1 2 where
  kind := rfl
  get_start := by decide
  ordinary := by decide
  parent := by decide
  begin := rfl
  nonempty := by decide
  inside := by decide
  outside := by decide
  acyclic := fun c _ => iterationDsl_acyclic [3, 4, 5] 5 (by decide) c
  rooted := by
    have hbody : ∀ c, InBody unequalLeaves 1 2 c → c = 3 ∨ c = 4 ∨ c = 5 := by decide
    intro c hc
    rcases hbody c hc with rfl | rfl | rfl
    · exact .single (by decide)
    · exact .single (by decide)
    · exact .tail (b := 4) (.single (by decide)) (by decide)
  refs_item := rfl
  refs := fun c _ a ha => absurd ha not_mem_nil
  keys := by decide
  mem_keys := by decide
  outputs := by decide
  vars := by decide

lemma not_iterates_unequalLeaves : ¬ ∃ τ, Iterates unequalLeaves sampleResult 1 2 (rounds unequalLeaves sampleResult
      (start unequalLeaves new)) 2 τ := by
  rintro ⟨τ, h⟩
  have hfirst : 2 = τ 0 := (h.entered 1).mp (by decide)
  obtain ⟨j, hj, hitem⟩ := (h.item_invoked 4).mp (by decide)
  have hsecond : τ 1 ≤ 4 := by
    have hinc := h.increasing 1 (by omega)
    obtain rfl | rfl | rfl : j = 0 ∨ j = 1 ∨ j = 2 := by omega
    · omega
    · omega
    · rw [hitem]
      exact hinc.le
  obtain ⟨k, hlo, hhi, hcount, -⟩ := h.body_once 5 (by decide) 0 (by omega)
  rw [Nat.zero_add] at hhi
  obtain rfl : k = 3 := by omega
  revert hcount
  decide

lemma not_iterates_again : ¬ ∃ τ, Iterates singleBody sampleResult 1 2 (rounds singleBody sampleResult
      (start singleBody (rounds singleBody sampleResult (start singleBody new) 8))) 2 τ := by
  rintro ⟨τ, h⟩
  have hdone : (rounds singleBody sampleResult (start singleBody (rounds singleBody sampleResult
      (start singleBody new) 8)) 10).finished := .inr (by decide)
  have hcount := h.body_count 3 (by decide) (10 + (τ 2 + 1)) (by omega)
  rw [rounds_add_of_finished hdone] at hcount
  revert hcount
  decide

/-- A body with leaves at unequal depths, and an iteration in a second run, without an error. -/
theorem iteration_out_of_step : (IterationBody unequalLeaves 1 2 ∧
      (rounds unequalLeaves sampleResult (start unequalLeaves new) 5).failed = false ∧
      ¬ ∃ τ, Iterates unequalLeaves sampleResult 1 2 (rounds unequalLeaves sampleResult
        (start unequalLeaves new)) 2 τ) ∧ IterationBody singleBody 1 2 ∧
      (rounds singleBody sampleResult (start singleBody (rounds singleBody sampleResult
        (start singleBody new) 8)) 10).failed = false ∧
      ¬ ∃ τ, Iterates singleBody sampleResult 1 2 (rounds singleBody sampleResult
        (start singleBody (rounds singleBody sampleResult (start singleBody new) 8))) 2 τ :=
  ⟨⟨iterationBody_unequalLeaves, by decide, not_iterates_unequalLeaves⟩,
    iterationBody_singleBody, by decide, not_iterates_again⟩

end CustomAi.Ragflow.Canvas
