import Mathlib.Data.Fintype.EquivFin
import CustomAi.Lib.Wavefront
import CustomAi.Ragflow.IterationBody

/-!
# The rounds of an iteration

Between two invocations of the item the main loop works the body off in waves.
-/

namespace CustomAi.Ragflow.Canvas

open List Relation

variable {V K W Val : Type} [DecidableEq V] [DecidableEq K] [DecidableEq W]
  {dsl : Dsl V K W Val} {result : V → ℕ → W → Val} {s s' : Canvas V K W Val} {p t : V}

structure Stepped (dsl : Dsl V K W Val) (result : V → ℕ → W → Val) (s s' : Canvas V K W Val) :
    Prop where
  front : s'.front = s.front ++ s.batch dsl
  count : s'.count = (invokeAll dsl result s).count
  output : s'.output = (invokeAll dsl result s).output
  itemIdx : s'.itemIdx = (invokeAll dsl result s).itemIdx
  collected : s'.collected = (invokeAll dsl result s).collected
  pending_of : ∀ d ∈ s'.pending, ∃ c ∈ s.batch dsl, d ∈ following dsl (invokeAll dsl result s) c
  mem_pending : ∀ c ∈ s.batch dsl, ∀ d ∈ following dsl (invokeAll dsl result s) c, d ∉ s.batch dsl → d ∈ s'.pending

variable {cs : List V} {c : V}

omit [DecidableEq K] [DecidableEq W] in
lemma mem_pending_of_batch (hc : c ∈ s.batch dsl) : c ∈ s.pending := mem_of_mem_ready hc

omit [DecidableEq K] [DecidableEq W] in
lemma mem_batch_of_pending (hc : c ∈ s.pending)
    (hrefs : ∀ a ∈ (dsl.component c).refs, a ∈ s.front) : c ∈ s.batch dsl := by
  by_contra hnot
  obtain ⟨a, ha, hmissing⟩ := exists_missing_of_popped hc hnot
  exact hmissing (hrefs a ha)

lemma mem_drop_extend_path (path : List V) (h : c ∈ (extend_path path cs).drop path.length) : c ∈ cs := by
  induction cs generalizing path with
  | nil => simp [extend_path] at h
  | cons d cs ih =>
    rw [extend_path_cons] at h
    unfold append_path at h
    split at h
    · exact mem_cons_of_mem _ (ih path h)
    · obtain ⟨l, hl⟩ := extend_path_eq (path ++ [d]) cs
      rw [hl, append_assoc, drop_left] at h
      rcases mem_append.mp h with hd | hrest
      · exact mem_cons.mpr (.inl (mem_singleton.mp hd))
      · refine mem_cons_of_mem _ (ih (path ++ [d]) ?_)
        rwa [hl, drop_left]

lemma mem_drop_extend_path_of_mem {old : List V} (kept : List V) (hc : c ∈ cs) (hkept : kept ≠ [])
    (hnot : c ∉ kept) : c ∈ (extend_path (old ++ kept) cs).drop (old ++ kept).length := by
  induction cs generalizing kept with
  | nil => cases hc
  | cons d cs ih =>
    rw [extend_path_cons]
    unfold append_path
    split
    · rename_i hlast
      rw [List.getLast?_append_of_ne_nil _ hkept] at hlast
      rcases mem_cons.mp hc with rfl | hrest
      · exact absurd (mem_of_getLast? hlast) hnot
      · exact ih kept hrest hkept hnot
    · obtain ⟨l, hl⟩ := extend_path_eq (old ++ kept ++ [d]) cs
      by_cases hcd : c = d
      · rw [hl, append_assoc, drop_left]
        exact mem_append_left _ (mem_singleton.mpr hcd)
      · have hrest := (mem_cons.mp hc).resolve_left hcd
        have hmem := ih (kept ++ [d]) hrest (by simp) (by simp [hnot, hcd])
        rw [← append_assoc] at hmem
        rw [hl] at hmem ⊢
        rw [drop_left] at hmem
        rw [append_assoc, drop_left]
        exact mem_append_right _ hmem

lemma stepped (hok : s.failed = false) (hok' : (step dsl result s).failed = false) :
    Stepped dsl result s (step dsl result s) := by
  by_cases hfin : s.finished
  · have hpending : s.path.drop s.idx = [] := by
      rcases hfin with hfailed | hle
      · rw [hok] at hfailed
        cases hfailed
      · exact drop_eq_nil_of_le hle
    have hbatch : s.batch dsl = [] := by
      unfold batch
      rw [hpending]
      rfl
    have hinvoke : invokeAll dsl result s = s := by
      unfold invokeAll
      rw [hbatch]
      rfl
    rw [step_of_finished hfin]
    refine ⟨by rw [hbatch, append_nil], by rw [hinvoke], by rw [hinvoke], by rw [hinvoke],
      by rw [hinvoke], fun d hd => ?_, fun c hc => ?_⟩
    · rw [pending, hpending] at hd
      cases hd
    · rw [hbatch] at hc
      cases hc
  · have hall : (invokeAll dsl result s).failed = false := by
      by_contra hne
      rw [Bool.not_eq_false] at hne
      have hstep : step dsl result s = { invokeAll dsl result s with
          path := s.front ++ s.batch dsl } := (if_neg hfin).trans (if_pos hne)
      rw [hstep] at hok'
      exact Bool.false_ne_true (hok'.symm.trans hne)
    have hfront := front_step result hfin hall
    have hstep := step_of_running hfin hall
    have hpending : (step dsl result s).pending = (extend_path (s.front ++ s.batch dsl)
          ((s.batch dsl).flatMap (following dsl (invokeAll dsl result s)))).drop
          (s.front ++ s.batch dsl).length := by
      rw [hstep, length_append]
      rfl
    refine ⟨hfront, by rw [hstep], by rw [hstep], by rw [hstep], by rw [hstep],
      fun d hd => ?_, fun c hc d hd hnot => ?_⟩
    · rw [hpending] at hd
      exact mem_flatMap.mp (mem_drop_extend_path _ hd)
    · rw [hpending]
      exact mem_drop_extend_path_of_mem _ (mem_flatMap.mpr ⟨c, hc, hd⟩) (ne_nil_of_mem hc) hnot

/-- The values of a referenced variable after each of `m` rounds. -/
def roundValues (result : V → ℕ → W → Val) (r : K × V × W) (m : ℕ) : List (Option Val) :=
  (List.range m).map fun i => some (result r.2.1 (i + 1) r.2.2)

def Collected (dsl : Dsl V K W Val) (result : V → ℕ → W → Val) (p t : V)
    (collected : K → List (Option Val)) (m : ℕ) : Prop :=
  ∀ r ∈ dsl.outputRefs p, InBody dsl p t r.2.1 → collected r.1 = roundValues result r m

structure Before (dsl : Dsl V K W Val) (p t : V) (s : Canvas V K W Val) : Prop where
  quiet : ∀ c ∈ s.pending, ¬ InBody dsl p t c ∧ c ≠ t
  count : ∀ c, InBody dsl p t c → s.count c = 0
  collected : ∀ k, s.collected p k = []

/-- The item is about to be invoked with the index `j`. -/
structure AtItem (dsl : Dsl V K W Val) (result : V → ℕ → W → Val) (p t : V) (j : ℕ)
    (s : Canvas V K W Val) : Prop where
  waiting : t ∈ s.pending
  idx : s.itemIdx t = j
  count : ∀ c, InBody dsl p t c → s.count c = j
  output : 0 < j → ∀ c, InBody dsl p t c → s.output c = fun w => some (result c j w)
  collected : Collected dsl result p t (s.collected p) (j - 1)
  refs : ∀ c, InBody dsl p t c → ∀ a ∈ (dsl.component c).refs, ¬ InBody dsl p t a → a = t ∨ a ∈ s.front

/-- The body is being invoked for the item `j`. -/
structure InRound (dsl : Dsl V K W Val) (result : V → ℕ → W → Val) (p t : V) (j : ℕ)
    (s : Canvas V K W Val) : Prop where
  idx : s.itemIdx t = j + 1
  item : s.output t dsl.itemVar = (dsl.items p)[j]?
  count : ∀ c, InBody dsl p t c → s.count c = if c ∈ sinceItem t s.front then j + 1 else j
  output : ∀ c, InBody dsl p t c → c ∈ sinceItem t s.front → s.output c = fun w => some (result c (j + 1) w)
  collected : Collected dsl result p t (s.collected p) j
  refs : ∀ c, InBody dsl p t c → ∀ a ∈ (dsl.component c).refs, ¬ InBody dsl p t a → a ∈ s.front
  read : ∀ c, InBody dsl p t c → c ∈ sinceItem t s.front → ∀ a ∈ (dsl.component c).refs, a ∈ s.front

structure After (dsl : Dsl V K W Val) (result : V → ℕ → W → Val) (p t : V)
    (s : Canvas V K W Val) : Prop where
  quiet : ∀ c ∈ s.pending, ¬ InBody dsl p t c ∧ c ≠ t
  idx : s.itemIdx t = -1
  count : ∀ c, InBody dsl p t c → s.count c = (dsl.items p).length
  collected : Collected dsl result p t (s.collected p) (dsl.items p).length

section Steps

variable (h : IterationBody dsl p t) (hstep : Stepped dsl result s s')
include hstep

lemma Stepped.of_notMem {c : V} (hc : c ∉ s.batch dsl) :
    s'.count c = s.count c ∧ s'.output c = s.output c ∧ s'.itemIdx c = s.itemIdx c := by
  rw [hstep.count, hstep.output, hstep.itemIdx]
  exact foldl_invoke_of_notMem dsl result s hc

include h

lemma Stepped.collected_of_notMem (ht : t ∉ s.batch dsl) : s'.collected p = s.collected p := by
  rw [hstep.collected]
  refine foldl_invoke_collected result s fun c hc hitem hparent => ?_
  have hbody : InBody dsl p t c := ⟨hparent, fun e => ht (e ▸ hc)⟩
  rw [h.ordinary c hbody] at hitem
  cases hitem

lemma Stepped.quiet (hquiet : ∀ c ∈ s.pending, ¬ InBody dsl p t c ∧ c ≠ t)
    (hp : p ∉ s.batch dsl) : ∀ c ∈ s'.pending, ¬ InBody dsl p t c ∧ c ≠ t := by
  intro d hd
  obtain ⟨c, hc, hdc⟩ := hstep.pending_of d hd
  obtain ⟨hbody, hct⟩ := hquiet c (mem_pending_of_batch hc)
  exact h.following_outside hbody hct (fun e => hp (e ▸ hc)) hdc

lemma Before.step (hs : Before dsl p t s) (hp : p ∉ s.batch dsl) : Before dsl p t s' where
  quiet := hstep.quiet h hs.quiet hp
  count := fun c hc => by
    rw [(hstep.of_notMem fun hb => (hs.quiet c (mem_pending_of_batch hb)).1 hc).1, hs.count c hc]
  collected := fun k => by
    rw [hstep.collected_of_notMem h fun hb => (hs.quiet t (mem_pending_of_batch hb)).2 rfl, hs.collected k]

lemma Before.enter (hs : Before dsl p t s) (hp : p ∈ s.batch dsl)
    (hclean : CleanEntry dsl p t s) : AtItem dsl result p t 0 s' := by
  obtain ⟨hidx, -, hrefs⟩ := hclean hp
  have ht : t ∉ s.batch dsl := fun hb => (hs.quiet t (mem_pending_of_batch hb)).2 rfl
  refine ⟨?_, ?_, fun c hc => ?_, fun hpos => absurd hpos (Nat.lt_irrefl 0), fun r _ _ => ?_,
    fun c hc a ha hout => ?_⟩
  · refine hstep.mem_pending p hp t ?_ ht
    rw [show following dsl _ p = [t] by simp [following, h.kind, h.get_start]]
    exact mem_singleton_self t
  · rw [(hstep.of_notMem ht).2.2, hidx]
    rfl
  · rw [(hstep.of_notMem fun hb => (hs.quiet c (mem_pending_of_batch hb)).1 hc).1, hs.count c hc]
  · rw [hstep.collected_of_notMem h ht, hs.collected]
    rfl
  · rw [hstep.front]
    exact hrefs c (h.mem_keys c hc) hc a ha hout

lemma After.step (hs : After dsl result p t s) (hclean : CleanEntry dsl p t s) :
    p ∉ s.batch dsl ∧ After dsl result p t s' := by
  have hp : p ∉ s.batch dsl := fun hp => by
    have hidx := (hclean hp).1
    rw [hs.idx] at hidx
    cases hidx
  have ht : t ∉ s.batch dsl := fun hb => (hs.quiet t (mem_pending_of_batch hb)).2 rfl
  refine ⟨hp, hstep.quiet h hs.quiet hp, ?_, fun c hc => ?_, ?_⟩
  · rw [(hstep.of_notMem ht).2.2, hs.idx]
  · rw [(hstep.of_notMem fun hb => (hs.quiet c (mem_pending_of_batch hb)).1 hc).1, hs.count c hc]
  · rw [hstep.collected_of_notMem h ht]
    exact hs.collected

end Steps

section Collation

lemma flatMap_of_forall_ne {α β : Type} {l : List α} {f : α → List β} {a : α} (hnodup : l.Nodup)
    (ha : a ∈ l) (hf : ∀ c ∈ l, c ≠ a → f c = []) : l.flatMap f = f a := by
  obtain ⟨pre, post, rfl⟩ := append_of_mem ha
  obtain ⟨-, hpost, hdisj⟩ := List.nodup_append.mp hnodup
  have hpre : pre.flatMap f = [] := flatMap_eq_nil_iff.mpr fun c hc =>
    hf c (mem_append_left _ hc) (hdisj c hc a mem_cons_self)
  have hpost' : post.flatMap f = [] := flatMap_eq_nil_iff.mpr fun c hc =>
    hf c (mem_append_right _ (mem_cons_of_mem a hc)) fun e =>
      (nodup_cons.mp hpost).1 (e ▸ hc)
  rw [flatMap_append, flatMap_cons, hpre, hpost', nil_append, append_nil]

omit [DecidableEq V] [DecidableEq W] in
lemma filter_key_eq {l : List (K × V × W)} {r : K × V × W} (hnodup : (l.map Prod.fst).Nodup)
    (hr : r ∈ l) : l.filter (fun o => decide (o.1 = r.1)) = [r] := by
  induction l with
  | nil => cases hr
  | cons o l ih =>
    obtain ⟨ho, hl⟩ := nodup_cons.mp hnodup
    by_cases hor : o.1 = r.1
    · have hrl : r ∉ l := fun hm => ho (hor ▸ mem_map_of_mem hm)
      have heq : r = o := (mem_cons.mp hr).resolve_right hrl
      have hnone : l.filter (fun o => decide (o.1 = r.1)) = [] := by
        refine filter_eq_nil_iff.mpr fun q hq hqr => ho ?_
        rw [hor, ← of_decide_eq_true hqr]
        exact mem_map_of_mem hq
      rw [filter_cons, if_pos (decide_eq_true hor), hnone, heq]
    · have hrl : r ∈ l := (mem_cons.mp hr).resolve_left fun e => hor (e ▸ rfl)
      rw [filter_cons, if_neg (by simpa using hor), ih hl hrl]

omit [DecidableEq W] in
lemma IterationBody.output_collation_ref (h : IterationBody dsl p t) {r : K × V × W}
    (hr : r ∈ dsl.outputRefs p) (hbody : InBody dsl p t r.2.1) : (output_collation dsl p s).collected p r.1 =
      s.collected p r.1 ++ [s.output r.2.1 r.2.2] := by
  unfold output_collation
  simp only [Function.update_self]
  refine congrArg _ ?_
  have hfilter : ∀ c, (dsl.outputRefs p).filter (fun o => decide (o.1 = r.1 ∧ o.2.1 = c)) =
      if r.2.1 = c then [r] else [] := fun c => by
    simp only [Bool.decide_and]
    rw [← filter_filter, filter_comm, filter_key_eq h.outputs hr]
    by_cases hc : r.2.1 = c <;> simp [hc]
  rw [flatMap_of_forall_ne h.keys (h.mem_keys _ hbody) fun c _ hc => ?_]
  · rw [if_pos hbody.1, hfilter, if_pos rfl]
    rfl
  · split
    · rw [hfilter, if_neg (Ne.symm hc)]
      rfl
    · rfl

omit [DecidableEq W] in
lemma AtItem.collate (h : IterationBody dsl p t) {j : ℕ} (hs : AtItem dsl result p t j s) :
    Collected dsl result p t ((collate dsl p j s).collected p) j := by
  intro r hr hbody
  unfold Canvas.collate
  split
  · rename_i hj
    obtain ⟨i, rfl⟩ : ∃ i, j = i + 1 := ⟨j - 1, by omega⟩
    rw [h.output_collation_ref hr hbody, hs.collected r hr hbody, hs.output (by omega) r.2.1 hbody]
    simp [roundValues, range_succ]
  · rename_i hj
    obtain rfl : j = 0 := by omega
    exact hs.collected r hr hbody

end Collation

section Item

variable {j : ℕ} (h : IterationBody dsl p t) (hs : AtItem dsl result p t j s)
  (hclean : CleanRound dsl p t s)
include h hs

omit [DecidableEq K] [DecidableEq W] in
lemma AtItem.mem_batch : t ∈ s.batch dsl := by
  refine mem_batch_of_pending hs.waiting fun a ha => ?_
  rw [h.refs_item] at ha
  cases ha

omit [DecidableEq K] [DecidableEq W] h in
lemma AtItem.notMem_iteration (hentry : CleanEntry dsl p t s) : p ∉ s.batch dsl := fun hp =>
  ((hentry hp).2.1 t hs.waiting).2 rfl

include hclean

omit [DecidableEq K] [DecidableEq W] in
lemma AtItem.notMem_body {c : V} (hc : InBody dsl p t c) : c ∉ s.batch dsl := fun hb =>
  (hclean.2.1 (hs.mem_batch h)).2 c (mem_pending_of_batch hb) hc

lemma AtItem.invoked : (invokeAll dsl result s).collected p = (Canvas.collate dsl p j s).collected p ∧
      (j < (dsl.items p).length → (invokeAll dsl result s).itemIdx t = j + 1 ∧
        (invokeAll dsl result s).output t dsl.itemVar = (dsl.items p)[j]?) ∧
      ((dsl.items p).length ≤ j → (invokeAll dsl result s).itemIdx t = -1) :=
  h.foldl_item hs.idx (hclean.2.1 (hs.mem_batch h)).1 fun _ hc hbody =>
    hs.notMem_body h hclean hbody hc

lemma AtItem.following_ne {c d : V} (hc : c ∈ s.batch dsl) (hct : c ≠ t)
    (hd : d ∈ following dsl (invokeAll dsl result s) c) : ¬ InBody dsl p t d ∧ d ≠ t :=
  h.following_outside (fun hbody => hs.notMem_body h hclean hbody hc) hct
    (fun e => hs.notMem_iteration hclean.1 (e ▸ hc)) hd

lemma AtItem.following_item (hj : j ≤ (dsl.items p).length) : following dsl (invokeAll dsl result s) t =
      if j = (dsl.items p).length then (dsl.component p).downstream else (dsl.component t).downstream := by
  obtain ⟨-, hnext, hlast⟩ := hs.invoked h hclean
  rw [h.following_item]
  by_cases hjn : j = (dsl.items p).length
  · have hended : ended (invokeAll dsl result s) t := hlast hjn.ge
    rw [if_pos hjn, if_pos hended]
  · have hended : ¬ ended (invokeAll dsl result s) t := by
      unfold ended
      omega
    rw [if_neg hjn, if_neg hended]

lemma AtItem.next (hstep : Stepped dsl result s s') (hj : j < (dsl.items p).length) :
    InRound dsl result p t j s' ∧ (∀ c, InBody dsl p t c → c ∉ sinceItem t s'.front) ∧
      (∀ d ∈ (dsl.component t).downstream, d ∈ s'.pending) ∧ t ∉ s'.pending := by
  obtain ⟨hcoll, hnext, -⟩ := hs.invoked h hclean
  have ht := hs.mem_batch h
  have hbody : ∀ c, InBody dsl p t c → c ∉ s.batch dsl := fun c hc => hs.notMem_body h hclean hc
  have hfollow := hs.following_item h hclean hj.le
  rw [if_neg hj.ne] at hfollow
  have hfresh : ∀ c, InBody dsl p t c → c ∉ sinceItem t s'.front := fun c hc hmem => by
    rw [hstep.front] at hmem
    exact hbody c hc (mem_of_mem_sinceItem ht hmem)
  refine ⟨⟨?_, ?_, fun c hc => ?_, fun c hc hmem => absurd hmem (hfresh c hc), ?_,
    fun c hc a ha hout => ?_, fun c hc hmem => absurd hmem (hfresh c hc)⟩, hfresh, fun d hd => ?_, fun hmem => ?_⟩
  · rw [hstep.itemIdx]
    exact (hnext hj).1
  · rw [hstep.output]
    exact (hnext hj).2
  · rw [if_neg (hfresh c hc), (hstep.of_notMem (hbody c hc)).1, hs.count c hc]
  · rw [hstep.collected, hcoll]
    exact hs.collate h
  · rw [hstep.front]
    rcases hs.refs c hc a ha hout with rfl | hfront
    · exact mem_append_right _ ht
    · exact mem_append_left _ hfront
  · exact hstep.mem_pending t ht d (hfollow ▸ hd) (hbody d (h.inside t (.inr rfl) d hd))
  · obtain ⟨c, hc, htc⟩ := hstep.pending_of t hmem
    by_cases hct : c = t
    · rw [hct, hfollow] at htc
      exact (h.inside t (.inr rfl) t htc).2 rfl
    · exact (hs.following_ne h hclean hc hct htc).2 rfl

lemma AtItem.last (hstep : Stepped dsl result s s') (hj : j = (dsl.items p).length) : After dsl result p t s' := by
  obtain ⟨hcoll, -, hlast⟩ := hs.invoked h hclean
  have hfollow := hs.following_item h hclean hj.le
  rw [if_pos hj] at hfollow
  refine ⟨fun d hd => ?_, ?_, fun c hc => ?_, ?_⟩
  · obtain ⟨c, hc, hdc⟩ := hstep.pending_of d hd
    by_cases hct : c = t
    · rw [hct, hfollow] at hdc
      exact h.outside p h.notMem_self.1 h.notMem_self.2 d hdc
    · exact hs.following_ne h hclean hc hct hdc
  · rw [hstep.itemIdx]
    exact hlast hj.ge
  · rw [(hstep.of_notMem (hs.notMem_body h hclean hc)).1, hs.count c hc, hj]
  · rw [hstep.collected, hcoll, ← hj]
    exact hs.collate h

end Item

end CustomAi.Ragflow.Canvas

/-!
## The waves of a round

From one invocation of the item to the next the batches are waves of the body; when nothing of the
body is pending all of it has been invoked.
-/

namespace CustomAi.Ragflow.Canvas

open List Relation

variable {V K W Val : Type} [DecidableEq V] [DecidableEq K] [DecidableEq W]
  {dsl : Dsl V K W Val} {result : V → ℕ → W → Val} {s s' : Canvas V K W Val} {p t : V}

omit [DecidableEq K] [DecidableEq W] in
lemma FreshBody.count_eq_one {front l : List V} {c : V} (h : FreshBody dsl p t front l)
    (ht : t ∉ l) (hc : c ∈ l) (hbody : InBody dsl p t c) : l.count c = 1 ∧ c ∉ sinceItem t front := by
  obtain ⟨pre, post, rfl⟩ := append_of_mem hc
  have hpre : t ∉ pre := fun hm => ht (mem_append_left _ hm)
  have hnot := h.notMem hbody
  rw [mem_sinceItem_append hpre, not_or] at hnot
  have hpost : c ∉ post := fun hm => by
    obtain ⟨mid, post, rfl⟩ := append_of_mem hm
    have hsplit : pre ++ c :: (mid ++ c :: post) = (pre ++ c :: mid) ++ c :: post := by simp
    rw [hsplit] at h ht
    have htmid : t ∉ pre ++ c :: mid := fun hmt => ht (mem_append_left _ hmt)
    have hnot' := h.notMem hbody
    rw [mem_sinceItem_append htmid, not_or] at hnot'
    exact hnot'.2 (mem_append_right _ mem_cons_self)
  refine ⟨?_, hnot.1⟩
  rw [count_append, count_cons_self, count_eq_zero.mpr hnot.2, count_eq_zero.mpr hpost]

section Round

variable {j : ℕ} (h : IterationBody dsl p t) (hs : InRound dsl result p t j s)
  (hclean : CleanRound dsl p t s)
include hs hclean

omit [DecidableEq K] [DecidableEq W] in
lemma InRound.notMem_iteration : p ∉ s.batch dsl := fun hp => by
  have hidx := (hclean.1 hp).1
  rw [hs.idx] at hidx
  omega

include h

lemma InRound.step (hstep : Stepped dsl result s s') (ht : t ∉ s.batch dsl) : InRound dsl result p t j s' := by
  have hdone : ∀ c, c ∈ sinceItem t s'.front ↔ c ∈ sinceItem t s.front ∨ c ∈ s.batch dsl :=
    fun c => by rw [hstep.front, mem_sinceItem_append ht]
  have hfront : ∀ a ∈ s.front, a ∈ s'.front := fun a ha => by
    rw [hstep.front]
    exact mem_append_left _ ha
  obtain ⟨-, houtput, hidx⟩ := hstep.of_notMem ht
  refine ⟨?_, ?_, fun c hc => ?_, fun c hc hmem => ?_, ?_,
    fun c hc a ha hout => hfront a (hs.refs c hc a ha hout), fun c hc hmem a ha => ?_⟩
  · rw [hidx, hs.idx]
  · rw [houtput, hs.item]
  · by_cases hb : c ∈ s.batch dsl
    · obtain ⟨hcount, hnew⟩ := hclean.2.2.count_eq_one ht hb hc
      have hinvoked := (foldl_invoke_once dsl result s hcount
        (h.ordinary c hc)).1
      rw [if_pos ((hdone c).mpr (.inr hb)), hstep.count]
      refine hinvoked.trans ?_
      rw [hs.count c hc, if_neg hnew]
    · rw [(hstep.of_notMem hb).1, hs.count c hc]
      simp only [hdone, hb, or_false]
  · by_cases hb : c ∈ s.batch dsl
    · obtain ⟨hcount, hnew⟩ := hclean.2.2.count_eq_one ht hb hc
      have hinvoked := (foldl_invoke_once dsl result s hcount
        (h.ordinary c hc)).2
      rw [hs.count c hc, if_neg hnew] at hinvoked
      rw [hstep.output]
      exact hinvoked
    · rw [(hstep.of_notMem hb).2.1]
      exact hs.output c hc (((hdone c).mp hmem).resolve_right hb)
  · rw [hstep.collected_of_notMem h ht]
    exact hs.collected
  · rcases (hdone c).mp hmem with hold | hb
    · exact hfront a (hs.read c hc hold a ha)
    · obtain ⟨pre, post, hbatch⟩ := append_of_mem hb
      rw [hstep.front, hbatch]
      have hkind : (dsl.component c).kind ≠ .begin := by
        rw [h.ordinary c hc]
        exact fun e => nomatch e
      have hread := (ready_refs hbatch).resolve_left hkind a ha
      rw [← append_assoc]
      exact mem_append_left _ hread

end Round

namespace IterationBody

variable (h : IterationBody dsl p t)
include h

omit [DecidableEq K] [DecidableEq W] in
lemma inBody_of_transGen {a c : V} (ha : InBody dsl p t a ∨ a = t)
    (hac : TransGen (fun a b => b ∈ (dsl.component a).downstream) a c) : InBody dsl p t c := by
  induction hac with
  | single hd => exact h.inside a ha _ hd
  | tail _ hd ih => exact h.inside _ (.inl ih) _ hd

def Edge (_ : IterationBody dsl p t) (x y : {c // InBody dsl p t c}) : Prop :=
  y.1 ∈ (dsl.component x.1).downstream

section

omit [DecidableEq K] [DecidableEq W]

lemma edge_of_transGen {a c : V} (ha : InBody dsl p t a)
    (hac : TransGen (fun a b => b ∈ (dsl.component a).downstream) a c) :
    TransGen h.Edge ⟨a, ha⟩ ⟨c, h.inBody_of_transGen (.inl ha) hac⟩ := by
  induction hac with
  | single hd => exact .single hd
  | tail _ hd ih => exact ih.tail hd

lemma transGen_of_edge {x y : {c // InBody dsl p t c}} (hxy : TransGen h.Edge x y) :
    TransGen (fun a b => b ∈ (dsl.component a).downstream) x.1 y.1 := by
  induction hxy with
  | single hd => exact .single hd
  | tail _ hd ih => exact ih.tail hd

lemma edge_root {v : {c // InBody dsl p t c}} (hv : ∀ u, ¬ h.Edge u v) : v.1 ∈ (dsl.component t).downstream := by
  obtain ⟨u, htu, huv⟩ := TransGen.tail'_iff.mp (h.rooted v.1 v.2)
  rcases reflTransGen_iff_eq_or_transGen.mp htu with rfl | htu
  · exact huv
  · exact absurd huv (hv ⟨u, h.inBody_of_transGen (.inr rfl) htu⟩)

end

section Finite

variable [Finite V]

omit [DecidableEq K] [DecidableEq W] in
lemma edge_wf : WellFounded h.Edge := by
  have htrans : IsTrans _ (TransGen h.Edge) := ⟨fun _ _ _ => TransGen.trans⟩
  have hirrefl : Std.Irrefl (TransGen h.Edge) := ⟨fun x hx => h.acyclic x.1 x.2 (h.transGen_of_edge hx)⟩
  exact WellFounded.mono (Finite.wellFounded_of_trans_of_irrefl _) fun _ _ => TransGen.single

omit [DecidableEq K] [DecidableEq W] in
lemma exists_leaf : ∃ c, InBody dsl p t c ∧ (dsl.component c).downstream = [] := by
  have htrans : IsTrans {c // InBody dsl p t c} (fun x y => TransGen h.Edge y x) :=
    ⟨fun _ _ _ hxy hyz => hyz.trans hxy⟩
  have hirrefl : Std.Irrefl (fun x y => TransGen h.Edge y x) := ⟨fun x hx => h.acyclic x.1 x.2 (h.transGen_of_edge hx)⟩
  obtain ⟨d, hd⟩ := exists_mem_of_ne_nil _ h.nonempty
  obtain ⟨c, -, hmax⟩ := (Finite.wellFounded_of_trans_of_irrefl
    (fun x y => TransGen h.Edge y x)).has_min Set.univ
    ⟨⟨d, h.inside t (.inr rfl) d hd⟩, Set.mem_univ _⟩
  refine ⟨c.1, c.2, eq_nil_iff_forall_not_mem.mpr fun e he => ?_⟩
  exact hmax ⟨e, h.inside c.1 (.inl c.2) e he⟩ (Set.mem_univ _) (.single he)

end Finite

end IterationBody

structure CleanRun (dsl : Dsl V K W Val) (result : V → ℕ → W → Val) (p t : V)
    (R : ℕ → Canvas V K W Val) : Prop where
  step : ∀ k, R (k + 1) = step dsl result (R k)
  ok : ∀ k, (R k).failed = false
  clean : ∀ k, CleanRound dsl p t (R k)

section Waves

variable {R : ℕ → Canvas V K W Val} (h : IterationBody dsl p t)
  (hrun : CleanRun dsl result p t R) {j σ : ℕ}
include hrun

lemma CleanRun.stepped (k : ℕ) : Stepped dsl result (R k) (R (k + 1)) := by
  have hok := hrun.ok (k + 1)
  rw [hrun.step k] at hok ⊢
  exact Canvas.stepped (hrun.ok k) hok

include h

section

variable (hstart : InRound dsl result p t j (R σ))
include hstart

lemma CleanRun.inRound {N : ℕ}
    (hidle : ∀ k < N, t ∉ (R (σ + k)).pending) : ∀ k ≤ N, InRound dsl result p t j (R (σ + k)) := by
  intro k hk
  induction k with
  | zero => exact hstart
  | succ k ih =>
    have hs := ih (by omega)
    exact hs.step h (hrun.clean _) (hrun.stepped _) fun hb =>
      hidle k (by omega) (mem_pending_of_batch hb)

section

variable (hfresh : ∀ c, InBody dsl p t c → c ∉ sinceItem t (R σ).front)
include hfresh

lemma CleanRun.wavefront  (hroots : ∀ d ∈ (dsl.component t).downstream, d ∈ (R σ).pending) {N : ℕ}
    (hidle : ∀ k < N, t ∉ (R (σ + k)).pending) :
    Wavefront h.Edge (fun k => {c | c.1 ∈ sinceItem t (R (σ + k)).front})
      (fun k => {c | c.1 ∈ (R (σ + k)).pending}) N where
  start := by
    ext c
    simp [hfresh c.1 c.2]
  roots := fun v hv => hroots v.1 (h.edge_root hv)
  mono := fun k hk c hc => by
    have ht : t ∉ (R (σ + k)).batch dsl := fun hb => hidle k hk (mem_pending_of_batch hb)
    rw [Set.mem_ofPred_eq, ← Nat.add_assoc, (hrun.stepped (σ + k)).front, mem_sinceItem_append ht]
    exact .inl hc
  pushes := fun k hk x y hxy hx hx' => by
    have ht : t ∉ (R (σ + k)).batch dsl := fun hb => hidle k hk (mem_pending_of_batch hb)
    have hs := hrun.inRound h hstart hidle k hk.le
    have hnext := hrun.stepped (σ + k)
    simp only [Set.mem_ofPred_eq] at hx hx' ⊢
    rw [← Nat.add_assoc] at hx' ⊢
    rw [hnext.front, mem_sinceItem_append ht] at hx' ⊢
    have hxb := hx'.resolve_left hx
    have hfollow : y.1 ∈ following dsl (invokeAll dsl result (R (σ + k))) x.1 := by
      rw [h.following_body x.2, if_neg (ne_nil_of_mem hxy)]
      exact hxy
    by_cases hyb : y.1 ∈ (R (σ + k)).batch dsl
    · exact ⟨((hrun.clean _).2.2.count_eq_one ht hyb y.2).2, .inr (.inr hyb)⟩
    · have hpending := hnext.mem_pending x.1 hxb y.1 hfollow hyb
      refine ⟨fun hy => ?_, .inl hpending⟩
      -- a component that is appended again is not popped
      have hkept : y.1 ∈ (R (σ + k + 1)).batch dsl := mem_batch_of_pending hpending fun a ha => by
        rw [hnext.front]
        exact mem_append_left _ (hs.read y.1 y.2 hy a ha)
      have hitem : t ∉ (R (σ + k + 1)).batch dsl := fun hb =>
        ((hrun.clean _).2.1 hb).2 y.1 hpending y.2
      refine ((hrun.clean (σ + k + 1)).2.2.count_eq_one hitem hkept y.2).2 ?_
      rw [hnext.front, mem_sinceItem_append ht]
      exact .inl hy
  blocked := fun k hk v hv hv' => by
    have ht : t ∉ (R (σ + k)).batch dsl := fun hb => hidle k hk (mem_pending_of_batch hb)
    have hs := hrun.inRound h hstart hidle k hk.le
    simp only [Set.mem_ofPred_eq] at hv hv' ⊢
    rw [← Nat.add_assoc, (hrun.stepped (σ + k)).front, mem_sinceItem_append ht, not_or] at hv'
    obtain ⟨a, ha, hmissing⟩ := exists_missing_of_popped hv hv'.2
    have hbody : InBody dsl p t a := by
      by_contra hout
      exact hmissing (hs.refs v.1 v.2 a ha hout)
    exact ⟨⟨a, hbody⟩, h.edge_of_transGen hbody (h.refs v.1 v.2 a ha hbody), fun hdone =>
      hmissing (mem_reverse.mp ((takeWhile_sublist _).subset hdone))⟩

lemma CleanRun.item_pending [Finite V]
    (hroots : ∀ d ∈ (dsl.component t).downstream, d ∈ (R σ).pending) : ∃ N, t ∈ (R (σ + N)).pending := by
  by_contra hnever
  push Not at hnever
  have : Fintype {c // InBody dsl p t c} := Fintype.ofFinite _
  obtain ⟨c, hc, hleaf⟩ := h.exists_leaf
  have hwave := hrun.wavefront h hstart hfresh hroots
    (N := Fintype.card {c // InBody dsl p t c}) fun k _ => hnever k
  have hdone : c ∈ sinceItem t (R (σ + Fintype.card {c // InBody dsl p t c})).front :=
    hwave.complete h.edge_wf le_rfl ⟨c, hc⟩
  -- the wave in which the leaf is invoked appends the item
  generalize Fintype.card {c // InBody dsl p t c} = N at hdone
  induction N with
  | zero => exact hfresh c hc hdone
  | succ k ih =>
    have ht : t ∉ (R (σ + k)).batch dsl := fun hb => hnever k (mem_pending_of_batch hb)
    rw [← Nat.add_assoc, (hrun.stepped (σ + k)).front, mem_sinceItem_append ht] at hdone
    rcases hdone with hold | hb
    · exact ih hold
    · refine hnever (k + 1) ((hrun.stepped (σ + k)).mem_pending c hb t ?_ ht)
      rw [h.following_body hc, if_pos hleaf]
      exact mem_singleton_self t

end

end

end Waves

end CustomAi.Ragflow.Canvas
