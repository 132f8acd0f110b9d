import CustomAi.Vllm.IncrementalHash

/-!
# Keys of disjoint features

If placeholders do not overlap, a scan from the first block on names exactly the features that
overlap a block, and a resumed scan does so where only the last feature can reach.
-/

namespace CustomAi.Vllm

open List

/-- Features are not empty, in order and disjoint. -/
structure DisjointFeatures (fs : List MultiModalFeatureSpec) : Prop where
  pos : ∀ f ∈ fs, f.offset < f.stop
  disjoint : fs.Pairwise (fun f g => f.stop ≤ g.offset)

/-- The features that overlap the tokens from `s` to `e`. -/
def overlappingItems (fs : List MultiModalFeatureSpec) (s e : ℕ) : List MultiModalFeatureSpec :=
  fs.filter (fun f => f.offset < e ∧ s < f.stop)

/-- No feature but the last reaches behind `s`, and the last one does not end right there. -/
def ResumeClean (fs : List MultiModalFeatureSpec) (s : ℕ) : Prop :=
  (∀ f ∈ fs.dropLast, f.stop ≤ s) ∧ ∀ last ∈ fs.getLast?, last.stop ≠ s

/-- Hashing up to `n` tokens when the first `k` blocks are hashed gives all blocks their keys. -/
def HashClean (blockSize : ℕ) (fs : List MultiModalFeatureSpec) (k n : ℕ) : Prop :=
  k = 0 ∨ n < (k + 1) * blockSize ∨ ResumeClean fs (k * blockSize)

variable {fs : List MultiModalFeatureSpec} {s e : ℕ}

variable {f : MultiModalFeatureSpec}

lemma DisjointFeatures.tail (h : DisjointFeatures (f :: fs)) : DisjointFeatures fs :=
  ⟨fun g hg => h.pos g (mem_cons_of_mem f hg), (pairwise_cons.mp h.disjoint).2⟩

section

variable (h : DisjointFeatures fs)
include h

lemma DisjointFeatures.passed_iff (hf : f ∈ fs) : f.passed s = true ↔ f.stop ≤ s := by
  have hpos := h.pos f hf
  simp only [MultiModalFeatureSpec.passed, decide_eq_true_eq]
  omega

lemma DisjointFeatures.dropWhile_passed : fs.dropWhile (·.passed s) = fs.filter (fun f => s < f.stop) := by
  induction fs with
  | nil => rfl
  | cons f rest ih =>
    have hf := h.passed_iff (s := s) mem_cons_self
    by_cases hp : f.passed s = true
    · have hs : ¬s < f.stop := not_lt.mpr (hf.mp hp)
      rw [dropWhile_cons_of_pos hp, ih h.tail, filter_cons_of_neg (by simpa using hs)]
    · have hs : s < f.stop := not_le.mp (fun hle => hp (hf.mpr hle))
      rw [dropWhile_cons_of_neg hp, filter_cons_of_pos (by simpa using hs)]
      congr 1
      symm
      rw [filter_eq_self]
      intro g hg
      have hfg := (pairwise_cons.mp h.disjoint).1 g hg
      have hg' := h.pos g (mem_cons_of_mem f hg)
      simp only [decide_eq_true_eq]
      omega

lemma DisjointFeatures.scanItems_eq (hs : ∀ f ∈ fs, s < f.stop) :
    scanItems s e fs = fs.filter (fun f => f.offset < e) := by
  induction fs with
  | nil => rfl
  | cons f rest ih =>
    have hf := hs f mem_cons_self
    have hrest := ih h.tail (fun g hg => hs g (mem_cons_of_mem f hg))
    have hafter : e ≤ f.stop → rest.filter (fun g => decide (g.offset < e)) = [] := by
      intro hle
      rw [filter_eq_nil_iff]
      intro g hg
      have hfg := (pairwise_cons.mp h.disjoint).1 g hg
      simp only [decide_eq_true_eq]
      omega
    by_cases h1 : f.offset < e
    · by_cases h2 : f.stop ≤ e
      · simp [scanItems, h1, h2, hf.le.not_gt, hrest]
      · simp [scanItems, h1, h2, hf.le.not_gt, hafter (not_le.mp h2).le]
    · have hpos := h.pos f mem_cons_self
      simp [scanItems, h1, hafter (by omega)]

lemma DisjointFeatures.filter (p : MultiModalFeatureSpec → Bool) : DisjointFeatures (fs.filter p) :=
  ⟨fun f hf => h.pos f (mem_of_mem_filter hf), h.disjoint.filter _⟩

lemma DisjointFeatures.stop_le_last {last : MultiModalFeatureSpec}
    (hl : fs.getLast? = some last) (hf : f ∈ fs) : f.stop ≤ last.stop := by
  obtain ⟨init, rfl⟩ : ∃ init, fs = init ++ [last] := ⟨fs.dropLast, (dropLast_append_getLast? last hl).symm⟩
  rcases mem_append.mp hf with hi | hi
  · have hd := (pairwise_append.mp h.disjoint).2.2 f hi last mem_cons_self
    have hp := h.pos last (by simp)
    omega
  · rw [mem_singleton.mp hi]

lemma DisjointFeatures.freshMmItems_eq : freshMmItems fs s e = overlappingItems fs s e := by
  unfold freshMmItems overlappingItems
  by_cases hp : pastFeatures fs s
  · rw [if_pos hp]
    symm
    rw [filter_eq_nil_iff]
    intro f hf
    obtain ⟨last, hl⟩ := Option.isSome_iff_exists.mp (List.getLast?_isSome.mpr (ne_nil_of_mem hf))
    have hle := h.stop_le_last hl hf
    have hlt := hp last hl
    simp only [decide_eq_true_eq]
    omega
  · rw [if_neg hp, h.dropWhile_passed, (h.filter _).scanItems_eq (by simp), filter_filter]
    congr 1
    funext f
    rw [← Bool.decide_and]

lemma DisjointFeatures.resumedMmItems_eq {s0 : ℕ} (hc : ResumeClean fs s0) (hs : s0 ≤ s) :
    resumedMmItems fs s0 s e = overlappingItems fs s e := by
  rcases eq_nil_or_concat fs with rfl | ⟨init, last, rfl⟩
  · simp [resumedMmItems, overlappingItems, scanItems]
  · obtain ⟨hinit, hlast⟩ := hc
    simp only [concat_eq_append, dropLast_concat, List.getLast?_concat,
      Option.mem_some_iff, forall_eq'] at hinit hlast
    simp only [concat_eq_append] at h ⊢
    have hnone : init.filter (fun f => decide (f.offset < e ∧ s < f.stop)) = [] := by
      rw [filter_eq_nil_iff]
      intro f hf
      have := hinit f hf
      simp only [decide_eq_true_eq]
      omega
    have hdrop : (init ++ [last]).drop ((init ++ [last]).length - 1) = [last] := by simp
    have hpast : pastFeatures (init ++ [last]) s ↔ last.stop < s := by
      simp [pastFeatures]
    have hpass : last.passed s = true ↔ last.stop ≤ s := h.passed_iff (by simp)
    unfold resumedMmItems overlappingItems
    rw [filter_append, hnone, hdrop]
    simp only [hpast]
    by_cases hlt : last.stop < s
    · have hno : ¬s < last.stop := by omega
      simp [hlt, hno]
    · rw [if_neg hlt]
      by_cases hss : s = s0
      · have hgt : s < last.stop := by omega
        by_cases ho : last.offset < e
        · simp [hss ▸ hgt, scanItems, ho, hss]
          omega
        · simp [scanItems, ho, hss]
      · rw [if_neg hss]
        by_cases hle : last.stop ≤ s
        · have hno : ¬s < last.stop := by omega
          simp [hpass.mpr hle, scanItems, hno]
        · have hp : last.passed s = false := by
            rw [← Bool.not_eq_true, hpass]
            exact hle
          have hgt : s < last.stop := by omega
          by_cases ho : last.offset < e
          · simp [hp, scanItems, ho, hgt, hlt]
          · simp [hp, scanItems, ho]

end

end CustomAi.Vllm
