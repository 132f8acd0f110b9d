import CustomAi.Vllm.BlockPoolCoherence
import CustomAi.Vllm.KVCacheCoordinator

/-!
# How a coordinator is built

The managers of a new coordinator are those of the specs of the groups, and the attention groups
of a hybrid one partition the groups by their specs, full attention first.
-/

namespace CustomAi.Vllm

open List Except

namespace KVCacheCoordinator

def NoSink (spec : KVCacheSpec) : Prop :=
  ∀ attn headSizeV window chunk sinkLen, spec ≠ .sinkFullAttention attn headSizeV window chunk sinkLen

structure ManagersOf (specs : List KVCacheSpec) (enableCaching : Bool)
    (dcpWorldSize pcpWorldSize : ℕ) (ms : List SingleTypeKVCacheManager) : Prop where
  length_eq : ms.length = specs.length
  get_eq : ∀ (i : ℕ) m, ms[i]? = some m → ∃ spec, specs[i]? = some spec ∧
    m = SingleTypeKVCacheManager.new spec enableCaching i dcpWorldSize pcpWorldSize

variable {enableCaching : Bool} {dcpWorldSize pcpWorldSize : ℕ} {specs : List KVCacheSpec}
  {p p' : BlockPool} {ms : List SingleTypeKVCacheManager}

lemma getManagerForKvCacheSpec_spec {spec : KVCacheSpec} {i : ℕ} {m : SingleTypeKVCacheManager}
    (hok : getManagerForKvCacheSpec spec p enableCaching i dcpWorldSize pcpWorldSize = .ok (m, p')) :
    m = .new spec enableCaching i dcpWorldSize pcpWorldSize ∧ (NoSink spec → p' = p) := by
  unfold getManagerForKvCacheSpec at hok
  cases spec with
  | encoderOnlyAttention => cases hok
  | sinkFullAttention attn headSizeV window chunk sinkLen =>
    refine ⟨?_, fun h => absurd rfl (h attn headSizeV window chunk sinkLen)⟩
    cases sinkLen with
    | none => cases hok
    | some sinkLen =>
      simp only [bind_eq_ok, pure_eq_ok, ok.injEq, Prod.mk.injEq, Prod.exists] at hok
      obtain ⟨_, _, _, queue, _, rfl, _⟩ := hok
      rfl
  | _ =>
    obtain ⟨rfl, rfl⟩ := ok_pair_inj hok
    exact ⟨rfl, fun _ => rfl⟩

lemma newManagers_spec {i : ℕ}
    (hok : newManagers enableCaching dcpWorldSize pcpWorldSize i specs p = .ok (ms, p')) :
    ms.length = specs.length ∧ (∀ (j : ℕ) m, ms[j]? = some m → ∃ spec, specs[j]? = some spec ∧
        m = .new spec enableCaching (i + j) dcpWorldSize pcpWorldSize) ∧
      ((∀ spec ∈ specs, NoSink spec) → p' = p) := by
  induction specs generalizing i p ms with
  | nil =>
    obtain ⟨rfl, rfl⟩ := ok_pair_inj hok
    exact ⟨rfl, by simp, fun _ => rfl⟩
  | cons spec specs ih =>
    simp only [newManagers, bind_eq_ok, pure_eq_ok, ok.injEq, Prod.mk.injEq, Prod.exists] at hok
    obtain ⟨m, p1, hm, ms', p2, hms, rfl, rfl⟩ := hok
    obtain ⟨hlen, hget, hpool⟩ := ih hms
    obtain ⟨rfl, hp1⟩ := getManagerForKvCacheSpec_spec hm
    refine ⟨by simp [hlen], fun j m' hj => ?_, fun hs => ?_⟩
    · cases j with
      | zero =>
        simp only [List.getElem?_cons_zero, Option.some.injEq] at hj
        exact ⟨spec, rfl, hj.symm⟩
      | succ j =>
        obtain ⟨spec', hspec', hm'⟩ := hget j m' (by simpa using hj)
        exact ⟨spec', by simpa using hspec', by rw [hm', Nat.add_right_comm, Nat.add_assoc]⟩
    · rw [hpool fun s hmem => hs s (mem_cons_of_mem spec hmem), hp1 (hs spec mem_cons_self)]

/-- The groups up to the `i`-th are put together by their specs. -/
structure SplitUpTo (specs : List KVCacheSpec) (i : ℕ) (groups : List AttentionGroup) : Prop where
  spec_eq : ∀ g ∈ groups, ∀ j ∈ g.groupIds, j < i ∧ specs[j]? = some g.spec
  covers : ∀ j < i, ∃ g ∈ groups, j ∈ g.groupIds
  ids_ne_nil : ∀ g ∈ groups, g.groupIds ≠ []
  ids_nodup : ∀ g ∈ groups, g.groupIds.Nodup
  spec_nodup : (groups.map (·.spec)).Nodup

variable {groups : List AttentionGroup} {spec : KVCacheSpec} {i : ℕ}

lemma SplitUpTo.perm {groups' : List AttentionGroup} (h : SplitUpTo specs i groups)
    (hp : groups.Perm groups') : SplitUpTo specs i groups' := by
  refine ⟨fun g hg => h.spec_eq g (hp.mem_iff.mpr hg), fun j hj => ?_,
    fun g hg => h.ids_ne_nil g (hp.mem_iff.mpr hg), fun g hg => h.ids_nodup g (hp.mem_iff.mpr hg),
    (hp.map _).nodup_iff.mp h.spec_nodup⟩
  obtain ⟨g, hg, hj⟩ := h.covers j hj
  exact ⟨g, hp.mem_iff.mp hg, hj⟩

lemma mem_insertAttentionGroup {g : AttentionGroup} (h : g ∈ insertAttentionGroup spec i groups) :
    g ∈ groups ∨ g.spec = spec ∧ (g.groupIds = [i] ∨
      ∃ g0 ∈ groups, g0.spec = spec ∧ g.groupIds = g0.groupIds ++ [i]) := by
  induction groups with
  | nil =>
    obtain rfl := mem_singleton.mp h
    exact .inr ⟨rfl, .inl rfl⟩
  | cons g0 rest ih =>
    unfold insertAttentionGroup at h
    split at h
    · rename_i hspec
      rcases mem_cons.mp h with rfl | h
      · exact .inr ⟨hspec, .inr ⟨g0, mem_cons_self, hspec, rfl⟩⟩
      · exact .inl (mem_cons_of_mem g0 h)
    · rcases mem_cons.mp h with rfl | h
      · exact .inl mem_cons_self
      · rcases ih h with h | ⟨hs, h | ⟨g1, hg1, h⟩⟩
        · exact .inl (mem_cons_of_mem g0 h)
        · exact .inr ⟨hs, .inl h⟩
        · exact .inr ⟨hs, .inr ⟨g1, mem_cons_of_mem g0 hg1, h⟩⟩

lemma insertAttentionGroup_covers (spec : KVCacheSpec) (i : ℕ) (groups : List AttentionGroup) :
    (∀ g ∈ groups, ∃ g' ∈ insertAttentionGroup spec i groups, g.groupIds ⊆ g'.groupIds) ∧
      ∃ g' ∈ insertAttentionGroup spec i groups, i ∈ g'.groupIds := by
  induction groups with
  | nil => exact ⟨by simp, ⟨spec, [i]⟩, mem_singleton_self _, mem_singleton_self _⟩
  | cons g0 rest ih =>
    unfold insertAttentionGroup
    split
    · refine ⟨fun g hg => ?_, ⟨g0.spec, g0.groupIds ++ [i]⟩, mem_cons_self, by simp⟩
      rcases mem_cons.mp hg with rfl | hg
      · exact ⟨_, mem_cons_self, subset_append_left _ _⟩
      · exact ⟨g, mem_cons_of_mem _ hg, Subset.refl _⟩
    · obtain ⟨g', hg', hi⟩ := ih.2
      refine ⟨fun g hg => ?_, g', mem_cons_of_mem _ hg', hi⟩
      rcases mem_cons.mp hg with rfl | hg
      · exact ⟨g, mem_cons_self, Subset.refl _⟩
      · obtain ⟨g1, hg1, hsub⟩ := ih.1 g hg
        exact ⟨g1, mem_cons_of_mem _ hg1, hsub⟩

lemma map_spec_insertAttentionGroup (spec : KVCacheSpec) (i : ℕ) (groups : List AttentionGroup) :
    (insertAttentionGroup spec i groups).map (·.spec) = if spec ∈ groups.map (·.spec) then groups.map (·.spec)
      else groups.map (·.spec) ++ [spec] := by
  induction groups with
  | nil => rfl
  | cons g0 rest ih =>
    unfold insertAttentionGroup
    by_cases hspec : g0.spec = spec
    · simp [hspec]
    · rw [if_neg hspec, map_cons, ih, map_cons]
      by_cases hmem : spec ∈ rest.map (·.spec)
      · rw [if_pos hmem, if_pos (mem_cons_of_mem _ hmem)]
      · rw [if_neg hmem, if_neg, cons_append]
        rintro (_ | ⟨_, h⟩)
        · exact hspec rfl
        · exact hmem h

lemma SplitUpTo.insert (h : SplitUpTo specs i groups) (hspec : specs[i]? = some spec) :
    SplitUpTo specs (i + 1) (insertAttentionGroup spec i groups) := by
  refine ⟨fun g hg j hj => ?_, fun j hj => ?_, fun g hg => ?_, fun g hg => ?_, ?_⟩
  · rcases mem_insertAttentionGroup hg with hg | ⟨rfl, hids | ⟨g0, hg0, hs0, hids⟩⟩
    · obtain ⟨hlt, hget⟩ := h.spec_eq g hg j hj
      exact ⟨by omega, hget⟩
    · rw [hids, mem_singleton] at hj
      subst hj
      exact ⟨by omega, hspec⟩
    · rw [hids, mem_append, mem_singleton] at hj
      rcases hj with hj | rfl
      · obtain ⟨hlt, hget⟩ := h.spec_eq g0 hg0 j hj
        exact ⟨by omega, hs0 ▸ hget⟩
      · exact ⟨by omega, hspec⟩
  · obtain ⟨hkeep, g', hg', hi⟩ := insertAttentionGroup_covers spec i groups
    rcases Nat.lt_succ_iff_lt_or_eq.mp hj with hlt | rfl
    · obtain ⟨g, hg, hjg⟩ := h.covers j hlt
      obtain ⟨g1, hg1, hsub⟩ := hkeep g hg
      exact ⟨g1, hg1, hsub hjg⟩
    · exact ⟨g', hg', hi⟩
  · rcases mem_insertAttentionGroup hg with hg | ⟨-, hids | ⟨g0, -, -, hids⟩⟩
    · exact h.ids_ne_nil g hg
    · simp [hids]
    · simp [hids]
  · rcases mem_insertAttentionGroup hg with hg | ⟨-, hids | ⟨g0, hg0, -, hids⟩⟩
    · exact h.ids_nodup g hg
    · simp [hids]
    · rw [hids, List.nodup_append]
      refine ⟨h.ids_nodup g0 hg0, nodup_singleton i, fun a ha b hb => ?_⟩
      have hlt := (h.spec_eq g0 hg0 a ha).1
      rw [mem_singleton.mp hb]
      omega
  · rw [map_spec_insertAttentionGroup]
    split
    · exact h.spec_nodup
    · rename_i hmem
      rw [List.nodup_append]
      refine ⟨h.spec_nodup, nodup_singleton spec, fun a ha b hb => ?_⟩
      rw [mem_singleton.mp hb]
      rintro rfl
      exact hmem ha

lemma splitKvCacheGroups_spec {rest : List KVCacheSpec} (h : SplitUpTo specs i groups)
    (hrest : specs.drop i = rest) : SplitUpTo specs specs.length (splitKvCacheGroups i rest groups) := by
  induction rest generalizing i groups with
  | nil =>
    have hlen := drop_eq_nil_iff.mp hrest
    refine ⟨fun g hg j hj => ?_, fun j hj => h.covers j (hj.trans_le hlen), h.ids_ne_nil, h.ids_nodup, h.spec_nodup⟩
    have hget := (h.spec_eq g hg j hj).2
    exact ⟨(List.getElem?_eq_some_iff.mp hget).1, hget⟩
  | cons spec rest ih =>
    have hget : specs[i]? = some spec := by
      rw [← List.head?_drop, hrest]
      rfl
    refine ih (h.insert hget) ?_
    rw [← drop_drop, hrest]
    rfl

lemma foldl_lcm_dvd {l : List ℕ} {k : ℕ} : k ∣ l.foldl Nat.lcm k := by
  induction l generalizing k with
  | nil => exact Nat.dvd_refl k
  | cons x rest ih => exact (Nat.dvd_lcm_left k x).trans ih

lemma dvd_foldl_lcm {l : List ℕ} {k x : ℕ} (hx : x ∈ l) : x ∣ l.foldl Nat.lcm k := by
  induction l generalizing k with
  | nil => cases hx
  | cons y rest ih =>
    rcases mem_cons.mp hx with rfl | hx
    · exact (Nat.dvd_lcm_right k x).trans foldl_lcm_dvd
    · exact ih hx

structure HybridSplit (specs : List KVCacheSpec) (groups : List AttentionGroup)
    (lcmBlockSize : ℕ) : Prop where
  split : SplitUpTo specs specs.length groups
  two_le : 2 ≤ groups.length
  fullFirst : groups.Pairwise (fun g g' =>
    g'.spec.isFullAttention = true → g.spec.isFullAttention = true)
  dvd_lcm : ∀ g ∈ groups, g.spec.blockSize ∣ lcmBlockSize

lemma verifyAndSplitKvCacheGroups_spec {lcmBlockSize : ℕ}
    (hok : verifyAndSplitKvCacheGroups specs = .ok (groups, lcmBlockSize)) :
    HybridSplit specs groups lcmBlockSize := by
  simp only [verifyAndSplitKvCacheGroups, bind_eq_ok, ensure_eq_ok, pure_eq_ok, ok.injEq, Prod.mk.injEq] at hok
  obtain ⟨_, htwo, rfl, rfl⟩ := hok
  have hsplit : SplitUpTo specs specs.length (splitKvCacheGroups 0 specs []) :=
    splitKvCacheGroups_spec ⟨by simp, by simp, by simp, by simp, nodup_nil⟩ rfl
  set all := splitKvCacheGroups 0 specs []
  have hperm : all.Perm (all.filter (fun g => g.spec.isFullAttention) ++
      all.filter (fun g => !g.spec.isFullAttention)) :=
    (filter_append_perm _ all).symm
  have hfull : ∀ g ∈ all.filter (fun g => g.spec.isFullAttention),
      g.spec.isFullAttention = true := fun g hg => (mem_filter.mp hg).2
  have hother : ∀ g ∈ all.filter (fun g => !g.spec.isFullAttention),
      g.spec.isFullAttention = false := fun g hg => by simpa using (mem_filter.mp hg).2
  refine ⟨hsplit.perm hperm, ?_, pairwise_append.mpr ⟨?_, ?_, ?_⟩, fun g hg => ?_⟩
  · rw [← hperm.length_eq]
    exact htwo
  · exact pairwise_of_forall_mem_list fun g hg _ _ _ => hfull g hg
  · refine pairwise_of_forall_mem_list fun _ _ g hg hf => ?_
    rw [hother g hg] at hf
    cases hf
  · exact fun g hg _ _ _ => hfull g hg
  · exact dvd_foldl_lcm (mem_map.mpr ⟨g, hperm.mem_iff.mpr hg, rfl⟩)

def KindFits (c : KVCacheCoordinator) (specs : List KVCacheSpec) (hashBlockSize dcpWorldSize
    pcpWorldSize : ℕ) : Prop :=
  match c.kind with
  | .noPrefixCache => True
  | .unitary spec blockSize dcp pcp => specs = [spec] ∧ blockSize = hashBlockSize ∧
      dcp = dcpWorldSize ∧ pcp = pcpWorldSize ∧
      blockSize = spec.blockSize * (if dcpWorldSize > 1 then dcpWorldSize else 1) *
        (if pcpWorldSize > 1 then pcpWorldSize else 1)
  | .hybrid groups lcmBlockSize hbs => hbs = hashBlockSize ∧ dcpWorldSize = 1 ∧ pcpWorldSize = 1 ∧
      (∀ spec ∈ specs, spec.blockSize % hashBlockSize = 0) ∧ HybridSplit specs groups lcmBlockSize

structure BuiltFrom (c : KVCacheCoordinator) (config : KVCacheConfig) (useEagle enableCaching events
    useInt : Bool) (dcpWorldSize pcpWorldSize hashBlockSize : ℕ) : Prop where
  managers : ManagersOf config.kvCacheGroups enableCaching dcpWorldSize pcpWorldSize c.singleTypeManagers
  useEagle_eq : c.useEagle = useEagle
  kindFits : KindFits c config.kvCacheGroups hashBlockSize dcpWorldSize pcpWorldSize
  noPrefixCache_iff : c.kind = .noPrefixCache ↔ enableCaching = false
  pool : ∃ pool, BlockPool.new config.numBlocks enableCaching hashBlockSize events useInt =
    .ok pool ∧ ((∀ spec ∈ config.kvCacheGroups, NoSink spec) → c.blockPool = pool)

theorem getKvCacheCoordinator_spec {config : KVCacheConfig} {useEagle events useInt : Bool}
    {hashBlockSize : ℕ} {c : KVCacheCoordinator}
    (hok : getKvCacheCoordinator config useEagle enableCaching events useInt dcpWorldSize
      pcpWorldSize hashBlockSize = .ok c) :
    BuiltFrom c config useEagle enableCaching events useInt dcpWorldSize pcpWorldSize hashBlockSize := by
  simp only [getKvCacheCoordinator, bind_eq_ok, Prod.exists] at hok
  obtain ⟨pool, hpool, ms, p, hms, hok⟩ := hok
  obtain ⟨hlen, hget, hp⟩ := newManagers_spec hms
  have hmgr : ManagersOf config.kvCacheGroups enableCaching dcpWorldSize pcpWorldSize ms := by
    refine ⟨hlen, fun i m hi => ?_⟩
    obtain ⟨spec, hspec, hm⟩ := hget i m hi
    rw [Nat.zero_add] at hm
    exact ⟨spec, hspec, hm⟩
  by_cases hc : enableCaching = false
  · rw [if_pos hc] at hok
    obtain rfl := ok.inj hok
    exact ⟨hmgr, rfl, trivial, iff_of_true rfl hc, pool, hpool, hp⟩
  · rw [if_neg hc] at hok
    split at hok
    · rename_i spec heq
      simp only [bind_eq_ok, ensure_eq_ok, pure_eq_ok, ok.injEq] at hok
      obtain ⟨_, hbs, rfl⟩ := hok
      exact ⟨hmgr, rfl, ⟨heq, hbs.symm, rfl, rfl, rfl⟩, iff_of_false nofun hc, pool, hpool, hp⟩
    · simp only [bind_eq_ok, ensure_eq_ok, pure_eq_ok, ok.injEq, Prod.exists] at hok
      obtain ⟨_, hdvd, _, rfl, _, rfl, groups, lcm, hsplit, rfl⟩ := hok
      exact ⟨hmgr, rfl, ⟨rfl, rfl, rfl, hdvd, verifyAndSplitKvCacheGroups_spec hsplit⟩,
        iff_of_false nofun hc, pool, hpool, hp⟩

end KVCacheCoordinator

end CustomAi.Vllm
