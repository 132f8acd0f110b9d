import CustomAi.Vllm.InputBatchCalls

/-!
# Condensing, swapping and refreshing the batch

`condense` fills the holes from the end of the batch, and leaves a batch without holes.
-/

namespace CustomAi.Vllm

open Slots Option

variable {G F : Type} [Zero F] {f32 : Float32 F}

namespace InputBatch

/-- The moves of `condense`: pairs of the index that is moved and the free index it is moved to. -/
def condenseMoves : ℕ → ℕ → List ℕ → List (ℕ × ℕ)
  | 0, _, _ => []
  | rounds + 1, lastReqIndex, removed =>
    match removed.getLast? with
    | none => []
    | some emptyIndex =>
      let lastReqIndex := skipRemoved removed lastReqIndex
      if lastReqIndex ≤ emptyIndex then []
      else (lastReqIndex, emptyIndex) :: condenseMoves rounds (lastReqIndex - 1) removed.dropLast

/-- No left-over entry gets in the way of a request that `condense` moves. -/
def CondenseClean (b : InputBatch G F) : Prop :=
  ∀ v ∈ condenseMoves b.batchUpdateBuilder.removed.length (b.numReqs + b.batchUpdateBuilder.removed.length - 1)
      b.batchUpdateBuilder.ensureRemovedSorted.removed, b.MoveClean v.1 v.2

lemma skipRemoved_spec (removed : List ℕ) (last : ℕ) : skipRemoved removed last ≤ last ∧
    (∀ i, skipRemoved removed last < i → i ≤ last → i ∈ removed) ∧
    (skipRemoved removed last ∈ removed → skipRemoved removed last = 0) := by
  induction last with
  | zero => exact ⟨le_rfl, fun i hlt hle => by omega, fun _ => rfl⟩
  | succ last ih =>
    unfold skipRemoved
    split
    · next hmem =>
      obtain ⟨hle, hskip, hzero⟩ := ih
      refine ⟨by omega, fun i hlt hi => ?_, hzero⟩
      by_cases hil : i = last + 1
      · exact hil ▸ hmem
      · exact hskip i hlt (by omega)
    · next hmem => exact ⟨le_rfl, fun i hlt hi => by omega, fun hin => absurd hin hmem⟩

variable {last rounds : ℕ} {v : ℕ × ℕ}

lemma condenseMoves_bounds {removed : List ℕ} (hv : v ∈ condenseMoves rounds last removed) :
    v.1 ≤ last ∧ v.2 ∈ removed ∧ v.2 < v.1 := by
  induction rounds generalizing last removed with
  | zero =>
    cases hv
  | succ rounds ih =>
    unfold condenseMoves at hv
    cases hpeek : removed.getLast? with
    | none =>
      rw [hpeek] at hv
      cases hv
    | some empty =>
      rw [hpeek] at hv
      dsimp only at hv
      have hle := (skipRemoved_spec removed last).1
      split at hv
      · cases hv
      · next hlt =>
        rcases List.mem_cons.mp hv with rfl | hv
        · exact ⟨hle, List.mem_of_getLast? hpeek, Nat.lt_of_not_le hlt⟩
        · obtain ⟨h1, h2, h3⟩ := ih hv
          exact ⟨by omega, List.dropLast_subset _ h2, h3⟩

variable {b b' : InputBatch G F} {slots start : ℕ → Option (CachedRequestState G F)}

omit [Zero F] in
lemma MoveClean.frame {empty : ℕ} (hmove : b.moveDown last empty = .ok b')
    (h : b.MoveClean v.1 v.2) (h1 : v.1 ≠ last ∧ v.1 ≠ empty) (h2 : v.2 ≠ last ∧ v.2 ≠ empty) :
    b'.MoveClean v.1 v.2 := by
  have hcolumns : b'.reqPromptEmbeds = moveDictValue b.reqPromptEmbeds last empty ∧
      b'.logitsProcessingNeedsTokenIds = b.logitsProcessingNeedsTokenIds := by
    unfold InputBatch.moveDown at hmove
    split at hmove
    · cases hmove
      unfold moveColumns
      dsimp only
      split
      · exact ⟨rfl, rfl⟩
      · exact ⟨rfl, rfl⟩
    · cases hmove
    · cases hmove
  refine ⟨?_, ?_⟩
  · rw [hcolumns.1, moveDictValue_of_ne _ h1.1 h1.2, moveDictValue_of_ne _ h2.1 h2.2]
    exact h.embeds
  · rw [hcolumns.2]
    exact h.needs

/-- The requests up to `last` have all holes of the batch among them, and these are removed. -/
structure Condensing (b : InputBatch G F) (slots : ℕ → Option (CachedRequestState G F))
    (last : ℕ) : Prop where
  sorted : b.batchUpdateBuilder.isRemovedSorted = true
  above : ∀ i, last < i → slots i = none
  holes : ∀ i ≤ last, slots i = none → i ∈ b.batchUpdateBuilder.removed
  occupied : ∃ i, slots i ≠ none

section Condensing

omit [Zero F]

variable {empty last top : ℕ}

section

variable (hc : b.Condensing slots last)
include hc

lemma Condensing.full (hnil : b.batchUpdateBuilder.removed = []) (i : ℕ) : slots i ≠ none ↔ i < last + 1 := by
  constructor
  · intro hi
    by_contra hlt
    exact hi (hc.above i (by omega))
  · intro hi hfree
    have hmem := hc.holes i (by omega) hfree
    rw [hnil] at hmem
    cases hmem

lemma Condensing.done (hfreed : b.Freed slots) (hpeek : b.batchUpdateBuilder.removed.getLast? = some empty)
    (hle : skipRemoved b.batchUpdateBuilder.removed last ≤ empty) (i : ℕ) :
    slots i ≠ none ↔ i < skipRemoved b.batchUpdateBuilder.removed last + 1 := by
  obtain ⟨hlast, hskip, hzero⟩ := skipRemoved_spec b.batchUpdateBuilder.removed last
  set top := skipRemoved b.batchUpdateBuilder.removed last
  have hnone : ∀ j, top < j → slots j = none := by
    intro j hj
    by_cases hjl : j ≤ last
    · exact (hfreed.free j (hskip j hj hjl)).2
    · exact hc.above j (Nat.lt_of_not_le hjl)
  have hnot : top ∉ b.batchUpdateBuilder.removed := by
    intro hmem
    obtain ⟨j, hj⟩ := hc.occupied
    by_cases hjt : top < j
    · exact hj (hnone j hjt)
    · have hjt' : j = top := by
        have := hzero hmem
        omega
      exact hj (hjt' ▸ (hfreed.free top hmem).2)
  have hmin : ∀ j ∈ b.batchUpdateBuilder.removed, empty ≤ j := by
    intro j hj
    have hpair := hfreed.sorted hc.sorted
    obtain ⟨rest, hrest⟩ := List.getLast?_eq_some_iff.mp hpeek
    rw [hrest] at hpair hj
    rcases List.mem_append.mp hj with hj | hj
    · exact (List.pairwise_append.mp hpair).2.2 j hj empty (List.mem_singleton.mpr rfl)
    · exact (List.mem_singleton.mp hj).ge
  constructor
  · intro hi
    by_contra hlt
    exact hi (hnone i (by omega))
  · intro hi hfree
    have hmem := hc.holes i (by omega) hfree
    have hge := hmin i hmem
    have hit : i = top := by omega
    exact hnot (hit ▸ hmem)

lemma Condensing.next {rest : List ℕ} (hfreed : b.Freed slots)
    (htop : top = skipRemoved b.batchUpdateBuilder.removed last) (hlt : empty < top)
    (hremoved : b.batchUpdateBuilder.removed = rest ++ [empty]) (hoccupied : slots top ≠ none)
    (hsorted : b'.batchUpdateBuilder.isRemovedSorted = true) (hrest : b'.batchUpdateBuilder.removed = rest) :
    b'.Condensing (move top empty slots) (top - 1) := by
  obtain ⟨hlast, hskip, -⟩ := skipRemoved_spec b.batchUpdateBuilder.removed last
  refine ⟨hsorted, fun i hi => ?_, fun i hi hfree => ?_, empty, ?_⟩
  · rw [move_apply, if_neg (by omega)]
    split
    · rfl
    · by_cases hil : i ≤ last
      · exact (hfreed.free i (hskip i (by omega) hil)).2
      · exact hc.above i (Nat.lt_of_not_le hil)
  · rw [move_apply] at hfree
    by_cases hie : i = empty
    · rw [if_pos hie] at hfree
      exact absurd hfree hoccupied
    · rw [if_neg hie, if_neg (by omega)] at hfree
      have hmem := hc.holes i (by omega) hfree
      rw [hremoved] at hmem
      rw [hrest]
      exact (List.mem_append.mp hmem).resolve_right fun h => hie (List.mem_singleton.mp h)
  · rw [move_apply, if_pos rfl]
    exact hoccupied

end

lemma exists_move_iff (hfree : slots empty = none) (r : CachedRequestState G F) :
    (∃ i, move top empty slots i = some r) ↔ ∃ i, slots i = some r := by
  constructor
  · rintro ⟨i, hi⟩
    rw [move_apply] at hi
    split at hi
    · exact ⟨top, hi⟩
    · split at hi
      · cases hi
      · exact ⟨i, hi⟩
  · rintro ⟨i, hi⟩
    by_cases hit : i = top
    · refine ⟨empty, ?_⟩
      rw [move_apply, if_pos rfl, ← hit, hi]
    · refine ⟨i, ?_⟩
      have hie : i ≠ empty := by
        rintro rfl
        rw [hfree] at hi
        cases hi
      rw [move_apply, if_neg hie, if_neg hit, hi]

end Condensing

lemma Inv.condenseLoop (h : Inv f32 b slots start) (hc : b.Condensing slots last)
    (hrounds : b.batchUpdateBuilder.removed.length ≤ rounds)
    (hclean : ∀ v ∈ condenseMoves rounds last b.batchUpdateBuilder.removed, b.MoveClean v.1 v.2) :
    ∃ b' slots' m, condenseLoop rounds last b = .ok b' ∧ Inv f32 b' slots' start ∧
      b'.reqIds.length = b.reqIds.length ∧ b'.maxNumReqs = b.maxNumReqs ∧
      b'.numReqs = b.numReqs ∧ (∀ i, slots' i ≠ none ↔ i < m) ∧
      ∀ r, (∃ i, slots' i = some r) ↔ ∃ i, slots i = some r := by
  induction rounds generalizing b slots last with
  | zero =>
    have hnil := List.length_eq_zero_iff.mp (Nat.le_zero.mp hrounds)
    exact ⟨b, slots, last + 1, rfl, h, rfl, rfl, rfl, hc.full hnil, fun _ => Iff.rfl⟩
  | succ rounds ih =>
    unfold InputBatch.condenseLoop
    by_cases hnil : b.batchUpdateBuilder.removed = []
    · have hpeek : b.batchUpdateBuilder.peekRemoved.1 = none := by
        unfold BatchUpdateBuilder.peekRemoved
        rw [if_pos hnil]
      rw [hpeek]
      exact ⟨b, slots, last + 1, rfl, h, rfl, rfl, rfl, hc.full hnil, fun _ => Iff.rfl⟩
    · obtain ⟨rest, empty, hremoved⟩ := List.eq_nil_or_concat' _ |>.resolve_left hnil
      have hlastEmpty : b.batchUpdateBuilder.removed.getLast? = some empty := by
        rw [hremoved, List.getLast?_concat]
      have hpeek : b.batchUpdateBuilder.peekRemoved.1 = some empty := by
        have hensure : b.batchUpdateBuilder.ensureRemovedSorted = b.batchUpdateBuilder := if_pos hc.sorted
        unfold BatchUpdateBuilder.peekRemoved
        rw [if_neg hnil, hensure]
        exact hlastEmpty
      rw [hpeek]
      dsimp only
      unfold condenseMoves at hclean
      rw [hlastEmpty] at hclean
      dsimp only at hclean
      split
      · next hle =>
        exact ⟨b, slots, _, rfl, h, rfl, rfl, rfl, hc.done h.freed hlastEmpty hle, fun _ => Iff.rfl⟩
      · next hlt =>
        have hlt' := Nat.lt_of_not_le hlt
        rw [if_neg hlt] at hclean
        obtain ⟨hlast, hskip, hzero⟩ := skipRemoved_spec b.batchUpdateBuilder.removed last
        set top := skipRemoved b.batchUpdateBuilder.removed last with htop
        have hoccupied : slots top ≠ none := by
          intro hfree
          have := hzero (hc.holes top hlast hfree)
          omega
        obtain ⟨r, hr⟩ := ne_none_iff_exists'.mp hoccupied
        have hmemEmpty : empty ∈ b.batchUpdateBuilder.removed := by
          rw [hremoved]
          exact List.mem_append_right _ (List.mem_singleton.mpr rfl)
        have hfree := (h.freed.free empty hmemEmpty).2
        obtain ⟨b1, hmove, hinv, hrest, hflag, hlength, hmax⟩ :=
          h.moveDown hc.sorted hremoved hr hlt' (hclean _ List.mem_cons_self)
        have hnum : b1.numReqs = b.numReqs := by
          have hfilled := filled_move slots (n := b.maxNumReqs) (a := top) (b := empty)
            (Nat.lt_of_lt_of_le (h.indexed.lt hoccupied) h.indexed.bound)
            (h.freed.free empty hmemEmpty).1 (Nat.ne_of_gt hlt')
          rw [hfree] at hfilled
          rw [h.indexed.numReqs_eq, hinv.indexed.numReqs_eq, hmax]
          simpa using hfilled
        have hc' := hc.next h.freed htop hlt' hremoved hoccupied hflag hrest
        have hclean' : ∀ v ∈ condenseMoves rounds (top - 1) b1.batchUpdateBuilder.removed,
            b1.MoveClean v.1 v.2 := by
          intro v hv
          obtain ⟨h1, h2, h3⟩ := condenseMoves_bounds hv
          rw [hrest] at hv h2
          have hempty : empty < v.2 := by
            have hpair := h.freed.sorted hc.sorted
            have hnodup := h.freed.nodup
            rw [hremoved] at hpair hnodup
            have hge := (List.pairwise_append.mp hpair).2.2 v.2 h2 empty
              (List.mem_singleton.mpr rfl)
            have hne := (List.nodup_append.mp hnodup).2.2 v.2 h2 empty
              (List.mem_singleton.mpr rfl)
            omega
          refine (hclean v (List.mem_cons_of_mem _ ?_)).frame hmove (by omega) (by omega)
          rwa [hremoved, List.dropLast_concat]
        have hrounds' : b1.batchUpdateBuilder.removed.length ≤ rounds := by
          rw [hrest]
          rw [hremoved, List.length_append, List.length_singleton] at hrounds
          omega
        obtain ⟨b2, slots2, m, hloop, hinv2, hlength2, hmax2, hnum2, hdense, hvalues⟩ :=
          ih hinv hc' hrounds' hclean'
        refine ⟨b2, slots2, m, ?_, hinv2, hlength2.trans hlength, hmax2.trans hmax,
          hnum2.trans hnum, hdense, fun r => ?_⟩
        · rw [hmove]
          exact hloop
        · exact (hvalues r).trans (exists_move_iff hfree r)

lemma Inv.ensureRemovedSorted (h : Inv f32 b slots start) :
    Inv f32 { b with batchUpdateBuilder := b.batchUpdateBuilder.ensureRemovedSorted } slots
      start ∧ b.batchUpdateBuilder.ensureRemovedSorted.isRemovedSorted = true ∧
    b.batchUpdateBuilder.ensureRemovedSorted.removed.Perm b.batchUpdateBuilder.removed := by
  obtain ⟨removed, heq, hperm, hpair⟩ := b.batchUpdateBuilder.ensureRemovedSorted_spec h.freed.sorted
  rw [heq]
  have hfreed : Freed { b with batchUpdateBuilder :=
      { b.batchUpdateBuilder with removed, isRemovedSorted := true } } slots :=
    ⟨hperm.nodup_iff.mpr h.freed.nodup, fun _ => hpair, fun i hi => h.freed.free i (hperm.mem_iff.mp hi)⟩
  have hrecorded : Recorded f32 { b with batchUpdateBuilder :=
      { b.batchUpdateBuilder with removed, isRemovedSorted := true } } slots start := by
    refine ⟨fun hpool i hi => ?_, fun v hv => ?_, h.recorded.added, h.recorded.pooling⟩
    · exact h.recorded.tracks hpool i fun hmem => hi (hperm.mem_iff.mpr hmem)
    · obtain ⟨ha, hb, hrest⟩ := h.recorded.moved v hv
      exact ⟨fun hmem => ha (hperm.mem_iff.mp hmem), fun hmem => hb (hperm.mem_iff.mp hmem), hrest⟩
  exact ⟨⟨h.columns.withIndex _ _ _, ⟨h.kinds.sampling, h.kinds.mask, h.kinds.needs⟩,
    ⟨h.indexed.occupied, h.indexed.inverse, h.indexed.outputLength, h.indexed.bound⟩, hfreed,
    hrecorded⟩, rfl, hperm⟩

lemma Inv.take (h : Inv f32 b slots start) {m : ℕ} (hm : ∀ i, slots i ≠ none → i < m) :
    Inv f32 { b with
      reqIds := b.reqIds.take m
      reqOutputTokenIds := b.reqOutputTokenIds.take m
      specTokenIds := b.specTokenIds.take m } slots start := by
  have hkeep : ∀ {α : Type} (l : List α) {i : ℕ}, slots i ≠ none → (l.take m)[i]? = l[i]? :=
    fun l i hi => List.getElem?_take_of_lt (hm i hi)
  have howner : ∀ i, (((b.reqIds.take m)[i]?).join) = b.owner i := by
    intro i
    by_cases hi : slots i = none
    · rw [h.indexed.owner_eq_none hi, List.getElem?_take]
      split
      · exact h.indexed.owner_eq_none hi
      · rfl
    · rw [hkeep _ hi]
      rfl
  have hcolumns : Columns f32 { b with
      reqIds := b.reqIds.take m
      reqOutputTokenIds := b.reqOutputTokenIds.take m
      specTokenIds := b.specTokenIds.take m } slots :=
    { h.columns with
      output := fun i r hr => by
        have hne : slots i ≠ none := by
          rw [hr]
          exact some_ne_none r
        exact (hkeep b.reqOutputTokenIds hne).trans (h.columns.output i r hr)
      spec := fun l hl => h.columns.spec l (List.mem_of_mem_take hl)
      mask := h.columns.mask }
  refine ⟨hcolumns, ⟨h.kinds.sampling, h.kinds.mask, h.kinds.needs⟩, ⟨fun i => ?_, ?_, ?_, ?_⟩,
    ⟨h.freed.nodup, h.freed.sorted, h.freed.free⟩,
    ⟨h.recorded.tracks, h.recorded.moved, h.recorded.added, h.recorded.pooling⟩⟩
  · exact (howner i).trans (h.indexed.occupied i)
  · intro k i
    rw [h.indexed.inverse k i]
    exact (howner i).symm ▸ Iff.rfl
  · rw [List.length_take, List.length_take, h.indexed.outputLength]
  · rw [List.length_take]
    exact (Nat.min_le_right _ _).trans h.indexed.bound

lemma Inv.condense (h : Inv f32 b slots start) (hopen : b.Open slots) (hclean : b.CondenseClean) :
    ∃ b' slots', b.condense = .ok b' ∧ Inv f32 b' slots' start ∧ b'.Dense slots' ∧
      b'.maxNumReqs = b.maxNumReqs ∧ ∀ r, (∃ i, slots' i = some r) ↔ ∃ i, slots i = some r := by
  obtain ⟨hsortedInv, hflag, hperm⟩ := h.ensureRemovedSorted
  have hlength := hperm.length_eq
  have hnum := h.indexed.numReqs_eq
  have hcount := filled_add_length (d := slots) h.indexed.bound h.freed.nodup hopen
    fun i hi => h.indexed.lt hi
  unfold InputBatch.condense
  dsimp only
  split
  · next hzero =>
    have hnil := List.length_eq_zero_iff.mp (hlength.symm.trans hzero)
    refine ⟨_, slots, rfl, hsortedInv, fun i => ?_, rfl, fun _ => Iff.rfl⟩
    constructor
    · exact h.indexed.lt
    · intro hi hfree
      have hmem := (hopen i).mpr ⟨hi, hfree⟩
      rw [hnil] at hmem
      cases hmem
  · next hsome =>
    split
    · next hempty =>
      have hnone : ∀ i, slots i = none := by
        intro i
        by_contra hi
        refine hi (eq_none_of_filled_eq_zero (hnum ▸ hempty) ?_)
        exact Nat.lt_of_lt_of_le (h.indexed.lt hi) h.indexed.bound
      have htake := hsortedInv.take (m := 0) fun i hi => absurd (hnone i) hi
      refine ⟨_, slots, rfl, htake, fun i => ?_, rfl, fun _ => Iff.rfl⟩
      rw [hnone i]
      simp
    · next hne =>
      have hc : Condensing { b with
          batchUpdateBuilder := b.batchUpdateBuilder.ensureRemovedSorted } slots
          (b.numReqs + b.batchUpdateBuilder.ensureRemovedSorted.removed.length - 1) := by
        refine ⟨hflag, fun i hi => ?_, fun i hi hfree => ?_, ?_⟩
        · by_contra hi'
          have hlt := h.indexed.lt hi'
          omega
        · exact hperm.mem_iff.mpr ((hopen i).mpr ⟨by omega, hfree⟩)
        · by_contra hnot
          refine hne (hnum.trans (filled_eq_of_iff (Nat.zero_le _) fun i => ?_))
          constructor
          · exact fun hi => absurd ⟨i, hi⟩ hnot
          · exact fun hi => absurd hi (Nat.not_lt_zero i)
      unfold CondenseClean at hclean
      rw [← hlength] at hclean
      obtain ⟨b1, slots1, m, hloop, hinv, -, hmax, hnum1, hdense, hvalues⟩ :=
        hsortedInv.condenseLoop hc le_rfl fun v hv => ⟨(hclean v hv).embeds, (hclean v hv).needs⟩
      have hm : m = b.numReqs := by
        have hle : m ≤ b1.maxNumReqs := by
          by_contra hlt
          have hi := hinv.indexed.lt ((hdense b1.maxNumReqs).mpr (by omega))
          have := hinv.indexed.bound
          omega
        have hfilled := filled_eq_of_iff hle hdense
        rw [← hinv.indexed.numReqs_eq] at hfilled
        exact hfilled.symm.trans hnum1
      have htake := hinv.take (m := b.numReqs) fun i hi => hm ▸ (hdense i).mp hi
      refine ⟨_, slots1, ?_, htake, fun i => ?_, hmax, hvalues⟩
      · rw [hloop]
        rfl
      · rw [hdense, hm, List.length_take]
        have hle : b.numReqs ≤ b1.reqIds.length := by
          by_contra hlt
          have hi := hinv.indexed.lt ((hdense b1.reqIds.length).mpr (by omega))
          exact absurd hi (Nat.lt_irrefl _)
        rw [Nat.min_eq_left hle]

omit [Zero F] in
lemma swapColumns_same (b : InputBatch G F) (i1 i2 : ℕ) : b.SameSettings (b.swapColumns i1 i2) ∧
    (b.swapColumns i1 i2).reqOutputTokenIds.length = b.reqOutputTokenIds.length := by
  have hlength : ((b.reqOutputTokenIds.set i1 (b.reqOutputTokenIds.getD i2 none)).set i2
      (b.reqOutputTokenIds.getD i1 none)).length = b.reqOutputTokenIds.length := by
    rw [List.length_set, List.length_set]
  unfold swapColumns
  dsimp only
  split
  · exact ⟨⟨rfl, rfl, fun _ hnone => hnone, fun _ => rfl⟩, hlength⟩
  · refine ⟨⟨rfl, rfl, fun _ hnone => ?_, fun _ => rfl⟩, hlength⟩
    dsimp only
    rw [hnone, map_none]

omit [Zero F] in
lemma exists_swap_iff (i1 i2 : ℕ) (r : CachedRequestState G F) :
    (∃ i, swap i1 i2 slots i = some r) ↔ ∃ i, slots i = some r := by
  constructor
  · rintro ⟨i, hi⟩
    exact ⟨_, hi⟩
  · rintro ⟨i, hi⟩
    refine ⟨Equiv.swap i1 i2 i, ?_⟩
    unfold swap
    rw [Equiv.swap_apply_self, hi]

lemma Inv.swapStates (h : Inv f32 b slots start) (hdense : b.Dense slots) {i1 i2 : ℕ}
    (hi1 : i1 < b.reqIds.length) (hi2 : i2 < b.reqIds.length) (hclean : b.SwapClean i1 i2) :
    ∃ b', b.swapStates i1 i2 = .ok b' ∧ Inv f32 b' (swap i1 i2 slots) start ∧
      b'.Dense (swap i1 i2 slots) ∧ b'.maxNumReqs = b.maxNumReqs := by
  obtain ⟨r1, hr1⟩ := ne_none_iff_exists'.mp ((hdense i1).mpr hi1)
  obtain ⟨r2, hr2⟩ := ne_none_iff_exists'.mp ((hdense i2).mpr hi2)
  have howner1 := h.indexed.owner_eq hr1
  have howner2 := h.indexed.owner_eq hr2
  have hfreed : ∀ {i r}, slots i = some r → i ∉ b.batchUpdateBuilder.removed := by
    intro i r hr hmem
    rw [(h.freed.free i hmem).2] at hr
    cases hr
  obtain ⟨hsame, hout⟩ := b.swapColumns_same i1 i2
  set builder : BatchUpdateBuilder F :=
    if b.isPoolingModel then b.batchUpdateBuilder
    else { b.batchUpdateBuilder with
      moved := b.batchUpdateBuilder.moved ++ [⟨i1, i2, .swap⟩] } with hbuilder
  have hkept : builder.removed = b.batchUpdateBuilder.removed ∧
      builder.isRemovedSorted = b.batchUpdateBuilder.isRemovedSorted ∧
      builder.added = b.batchUpdateBuilder.added := by
    rw [hbuilder]
    split
    · exact ⟨rfl, rfl, rfl⟩
    · exact ⟨rfl, rfl, rfl⟩
  obtain ⟨hremoved, hflag, hadded⟩ := hkept
  set t : InputBatch G F := { b.swapColumns i1 i2 with
    reqIds := (b.reqIds.set i1 (some r2.reqId)).set i2 (some r1.reqId)
    reqIdToIndex := (b.reqIdToIndex.set r1.reqId i2).set r2.reqId i1
    batchUpdateBuilder := builder }
  have hresult : b.swapStates i1 i2 = .ok t := by
    unfold InputBatch.swapStates
    simp only [h.indexed.reqIds_eq hr1, h.indexed.reqIds_eq hr2,
      (h.indexed.inverse _ _).mpr howner1, (h.indexed.inverse _ _).mpr howner2]
    rfl
  have hlength : t.reqIds.length = b.reqIds.length := by
    rw [List.length_set, List.length_set]
  have howner : t.owner = swap i1 i2 b.owner := by
    funext j
    unfold owner
    rw [getElem?_swap (h.indexed.reqIds_eq hr1) (h.indexed.reqIds_eq hr2)]
    rfl
  have hsame' : b.SameSettings t := ⟨hsame.isPoolingModel, hsame.maxNumReqs, hsame.mask, hsame.needs⟩
  have hkinds : t.Kinds (swap i1 i2 slots) := h.kinds.of_slots hsame' fun j r hj => h.kinds.sampling _ r hj
  have hindexed : t.Indexed (swap i1 i2 slots) := by
    refine ⟨fun j => ?_, ?_, ?_, ?_⟩
    · rw [howner]
      exact h.indexed.occupied _
    · rw [howner]
      exact h.indexed.inverse.swap howner1 howner2
    · rw [hlength]
      exact hout.trans h.indexed.outputLength
    · rw [hlength]
      exact h.indexed.bound.trans_eq hsame.maxNumReqs.symm
  have hnotFree : ∀ j ∈ b.batchUpdateBuilder.removed, swap i1 i2 slots j = none := by
    intro j hj
    have hj1 : j ≠ i1 := fun he => hfreed hr1 (he ▸ hj)
    have hj2 : j ≠ i2 := fun he => hfreed hr2 (he ▸ hj)
    rw [swap_apply, if_neg hj2, if_neg hj1]
    exact (h.freed.free j hj).2
  have hfreed' : t.Freed (swap i1 i2 slots) := by
    refine ⟨?_, ?_, fun j hj => ?_⟩
    · rw [hremoved]
      exact h.freed.nodup
    · rw [hremoved, hflag]
      exact h.freed.sorted
    · rw [hremoved] at hj
      exact ⟨(h.freed.free j hj).1.trans_eq hsame.maxNumReqs.symm, hnotFree j hj⟩
  have hrecorded : Recorded f32 t (swap i1 i2 slots) start := by
    refine ⟨fun hpool => ?_, fun v hv => ?_, fun a ha => ?_,
      fun hpool => h.recorded.pooling (hsame.isPoolingModel.symm.trans hpool)⟩
    · have hnot : b.isPoolingModel = false := hsame.isPoolingModel.symm.trans hpool
      change Tracks (applyMoves builder.moved (applyAdds _ builder.added _)) _ _ builder.removed
      rw [hbuilder, hnot, if_neg (by decide), applyMoves_append]
      exact (h.recorded.tracks hnot).swap (hfreed hr1) (hfreed hr2) fun _ => rfl
    · change v ∈ builder.moved at hv
      rw [hremoved, hsame.maxNumReqs]
      rw [hbuilder] at hv
      split at hv
      · exact h.recorded.moved v hv
      · rcases List.mem_append.mp hv with hv | hv
        · exact h.recorded.moved v hv
        · rw [List.mem_singleton.mp hv]
          exact ⟨hfreed hr1, hfreed hr2, Nat.lt_of_lt_of_le hi1 h.indexed.bound,
            Nat.lt_of_lt_of_le hi2 h.indexed.bound, (by rintro ⟨⟩)⟩
    · rw [hadded] at ha
      rw [hsame.maxNumReqs]
      exact h.recorded.added a ha
  have hcolumns := h.columns.swap h.kinds hr1 hr2 hclean
  refine ⟨t, hresult, ⟨hcolumns.withIndex _ _ _, hkinds, hindexed, hfreed', hrecorded⟩,
    fun j => ?_, hsame.maxNumReqs⟩
  rw [hlength, swap_apply]
  split
  · next hj => exact iff_of_true ((hdense i1).mpr hi1) (hj ▸ hi2)
  · split
    · next hj => exact iff_of_true ((hdense i2).mpr hi2) (hj ▸ hi1)
    · exact hdense j

lemma Inv.content_eq_none (h : Inv f32 b slots start) (hpool : b.isPoolingModel = true) (i : ℕ) :
    (slots i).bind CachedRequestState.content = none := by
  cases hr : slots i with
  | none => rfl
  | some r =>
    rw [bind_some]
    unfold CachedRequestState.content
    rw [(h.kinds.sampling i r hr).mp hpool, map_none]

omit [Zero F] in
lemma refreshMetadata_spec (b : InputBatch G F) : ∃ builder : BatchUpdateBuilder F,
      b.refreshMetadata.2 = { b with batchUpdateBuilder := builder } ∧
      builder.isRemovedSorted = false ∧ builder.removed = [] ∧ builder.added = [] ∧ builder.moved = [] ∧
      (b.isPoolingModel = true → b.refreshMetadata.1 = none) ∧ (b.isPoolingModel = false →
        b.refreshMetadata.1 = some ⟨b.numReqs, b.batchUpdateBuilder.removed,
          b.batchUpdateBuilder.added, b.batchUpdateBuilder.moved⟩ ∨
        (b.refreshMetadata.1 = none ∧ b.batchUpdateBuilder.removed = [] ∧
          b.batchUpdateBuilder.added = [] ∧ b.batchUpdateBuilder.moved = [])) := by
  unfold refreshMetadata BatchUpdateBuilder.getAndReset
  dsimp only
  by_cases hpool : b.isPoolingModel = true
  · rw [if_pos hpool]
    refine ⟨{}, rfl, rfl, rfl, rfl, rfl, fun _ => rfl, fun hnot => ?_⟩
    rw [hpool] at hnot
    cases hnot
  · rw [if_neg hpool]
    split
    · next hnil =>
      obtain ⟨hremoved, hmoved, hadded⟩ := hnil
      exact ⟨_, rfl, rfl, hremoved, hadded, hmoved, fun hp => absurd hp hpool,
        fun _ => .inr ⟨rfl, hremoved, hadded, hmoved⟩⟩
    · exact ⟨{}, rfl, rfl, rfl, rfl, rfl, fun hp => absurd hp hpool, fun _ => .inl rfl⟩

lemma Inv.restart (h : Inv f32 b slots start) (hdense : b.Dense slots)
    {builder : BatchUpdateBuilder F} (hremoved : builder.removed = [])
    (hadded : builder.added = []) (hmoved : builder.moved = []) :
    Inv f32 { b with batchUpdateBuilder := builder } slots slots ∧
      Open { b with batchUpdateBuilder := builder } slots := by
  have hnot : ∀ i, i ∉ builder.removed := by
    intro i hi
    rw [hremoved] at hi
    cases hi
  have hfreed : Freed { b with batchUpdateBuilder := builder } slots := by
    refine ⟨?_, fun _ => ?_, fun i hi => absurd hi (hnot i)⟩
    · rw [hremoved]
      exact List.nodup_nil
    · rw [hremoved]
      exact List.Pairwise.nil
  have hrecorded : Recorded f32 { b with batchUpdateBuilder := builder } slots slots := by
    refine ⟨fun _ i _ => ?_, fun v hv => ?_, fun a ha => ?_, h.content_eq_none⟩
    · rw [hadded, hmoved]
      rfl
    · rw [hmoved] at hv
      cases hv
    · rw [hadded] at ha
      cases ha
  refine ⟨⟨h.columns.withIndex _ _ _, ⟨h.kinds.sampling, h.kinds.mask, h.kinds.needs⟩,
    ⟨h.indexed.occupied, h.indexed.inverse, h.indexed.outputLength, h.indexed.bound⟩, hfreed,
    hrecorded⟩, fun i => ?_⟩
  constructor
  · exact fun hi => absurd hi (hnot i)
  · rintro ⟨hi, hfree⟩
    exact absurd hfree ((hdense i).mpr hi)

end InputBatch

end CustomAi.Vllm
