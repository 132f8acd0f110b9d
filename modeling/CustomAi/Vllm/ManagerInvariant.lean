import CustomAi.Vllm.KVCacheAccounting

/-!
# Relations and invariants of the managers

A relation that every operation of a manager satisfies, whatever the pool it is given, relates the
managers of any two states with a run of the KV cache manager between them.
-/

namespace CustomAi.Vllm

open Option Except

/-- `R` holds across every operation of a manager about a request in `touched`. -/
structure ManagerRelation (touched : RequestId → Prop)
    (R : SingleTypeKVCacheManager → SingleTypeKVCacheManager → Prop) : Prop where
  refl : ∀ m, R m m
  trans : ∀ {m m' m''}, R m m' → R m' m'' → R m m''
  removeSkippedBlocks : ∀ {m p r n m' p'}, touched r → m.removeSkippedBlocks p r n = .ok (m', p') → R m m'
  allocateNewComputedBlocks : ∀ {m p r hits numLocal numExternal m' p'}, touched r →
    m.allocateNewComputedBlocks p r hits numLocal numExternal = .ok (m', p') → R m m'
  allocateNewBlocks : ∀ {m p r numTokens numTokensMainModel new m' p'}, touched r →
    m.allocateNewBlocks p r numTokens numTokensMainModel = .ok (new, m', p') → R m m'
  cacheBlocks : ∀ {m p request n m' p'}, touched request.requestId →
    m.cacheBlocks p request n = .ok (m', p') → R m m'
  free : ∀ m p {r}, touched r → R m (m.free p r).1

/-- `Inv` is kept by every operation of a manager. -/
structure ManagerInvariant (Inv : SingleTypeKVCacheManager → Prop) : Prop where
  removeSkippedBlocks : ∀ m p r n m' p', Inv m → m.removeSkippedBlocks p r n = .ok (m', p') → Inv m'
  allocateNewComputedBlocks : ∀ m p r hits numLocal numExternal m' p', Inv m →
    m.allocateNewComputedBlocks p r hits numLocal numExternal = .ok (m', p') → Inv m'
  allocateNewBlocks : ∀ m p r numTokens numTokensMainModel new m' p', Inv m →
    m.allocateNewBlocks p r numTokens numTokensMainModel = .ok (new, m', p') → Inv m'
  cacheBlocks : ∀ m p request numTokens m' p', Inv m → m.cacheBlocks p request numTokens = .ok (m', p') → Inv m'
  free : ∀ m p r, Inv m → Inv (m.free p r).1

lemma ManagerInvariant.relation {Inv : SingleTypeKVCacheManager → Prop} (h : ManagerInvariant Inv) :
    ManagerRelation (fun _ => True) fun m m' => Inv m → Inv m' where
  refl _ hm := hm
  trans h₁ h₂ hm := h₂ (h₁ hm)
  removeSkippedBlocks _ hok hm := h.removeSkippedBlocks _ _ _ _ _ _ hm hok
  allocateNewComputedBlocks _ hok hm := h.allocateNewComputedBlocks _ _ _ _ _ _ _ _ hm hok
  allocateNewBlocks _ hok hm := h.allocateNewBlocks _ _ _ _ _ _ _ _ hm hok
  cacheBlocks _ hok hm := h.cacheBlocks _ _ _ _ _ _ hm hok
  free _ _ _ _ hm := h.free _ _ _ hm

variable {touched : RequestId → Prop} {R : SingleTypeKVCacheManager → SingleTypeKVCacheManager → Prop}

namespace KVCacheCoordinator

structure Related (R : SingleTypeKVCacheManager → SingleTypeKVCacheManager → Prop)
    (c c' : KVCacheCoordinator) : Prop where
  kind : c'.kind = c.kind
  length_eq : c'.singleTypeManagers.length = c.singleTypeManagers.length
  manager : ∀ (i : ℕ) m m', c.singleTypeManagers[i]? = some m →
    c'.singleTypeManagers[i]? = some m' → R m m'

variable {c c' c'' : KVCacheCoordinator} {r : RequestId} (hR : ManagerRelation touched R)

lemma forManagers_related {β : Type} {f : ℕ → SingleTypeKVCacheManager → BlockPool →
      Except PyError (β × SingleTypeKVCacheManager × BlockPool)} {bs : List β}
    (hf : ∀ i m p b m' p', f i m p = .ok (b, m', p') → R m m')
    (hok : c.forManagers f = .ok (bs, c')) : Related R c c' := by
  simp only [forManagers, bind_eq_ok, pure_eq_ok, ok.injEq, Prod.mk.injEq, Prod.exists] at hok
  obtain ⟨bs', ms, p, hloop, -, rfl⟩ := hok
  obtain ⟨⟨hlen, hpost⟩, -⟩ := forEnum_frame (fun _ (_ : ℕ) => True) (fun _ => 0)
    (fun _ _ => True) (fun _ m m' => R m m')
    (fun i m p b m' p' F _ _ h => ⟨hf i m p b m' p' h, trivial⟩) (F := 0)
    (fun _ _ _ => trivial) trivial hloop
  exact ⟨rfl, hlen, hpost⟩

include hR

lemma Related.refl (c : KVCacheCoordinator) : Related R c c := by
  refine ⟨rfl, rfl, fun i m m' hi hi' => ?_⟩
  obtain rfl := some.inj (hi.symm.trans hi')
  exact hR.refl m

lemma Related.trans (h : Related R c c') (h' : Related R c' c'') : Related R c c'' := by
  refine ⟨h'.kind.trans h.kind, h'.length_eq.trans h.length_eq, fun i m m'' hi hi'' => ?_⟩
  have hlt : i < c'.singleTypeManagers.length := h'.length_eq ▸ (List.getElem?_eq_some_iff.mp hi'').1
  have hi' := List.getElem?_eq_getElem hlt
  exact hR.trans (h.manager i m _ hi hi') (h'.manager i _ m'' hi' hi'')

lemma cacheBlocks_related {request : Request} (hr : touched request.requestId) {n : ℕ}
    (hok : c.cacheBlocks request n = .ok c') : Related R c c' := by
  obtain ⟨g, bs, hloop, hstep⟩ := forManagers_steps hok
  exact forManagers_related (fun _ _ _ _ _ _ hok => hR.cacheBlocks hr (hstep hok)) hloop

variable (hr : touched r)
include hr

lemma removeSkippedBlocks_related {n : ℕ} (hok : c.removeSkippedBlocks r n = .ok c') : Related R c c' := by
  obtain ⟨g, bs, hloop, hstep⟩ := forManagers_steps hok
  exact forManagers_related (fun _ _ _ _ _ _ hok => hR.removeSkippedBlocks hr (hstep hok)) hloop

lemma allocateNewComputedBlocks_related {hits : List (List BlockId)} {numLocal numExternal : ℕ}
    (hok : c.allocateNewComputedBlocks r hits numLocal numExternal = .ok c') : Related R c c' := by
  obtain ⟨g, bs, hloop, hstep⟩ := forManagers_steps hok
  exact forManagers_related (fun _ _ _ _ _ _ hok => hR.allocateNewComputedBlocks hr (hstep hok)) hloop

lemma allocateNewBlocks_related {numTokens numTokensMainModel numEncoderTokens : ℕ}
    {new : List (List BlockId)} (hok : c.allocateNewBlocks r numTokens numTokensMainModel numEncoderTokens =
      .ok (new, c')) : Related R c c' :=
  forManagers_related (fun _ _ _ _ _ _ hok => hR.allocateNewBlocks hr hok) hok

lemma free_related (hok : c.free r = .ok c') : Related R c c' := by
  simp only [free, bind_eq_ok, pure_eq_ok, ok.injEq, Prod.exists] at hok
  obtain ⟨bs, c1, hloop, rfl⟩ := hok
  refine forManagers_related (fun i m p b m' p' hok => ?_) hloop
  obtain ⟨-, hmp⟩ := ok_pair_inj hok
  have hfree := hR.free m p hr
  rwa [hmp] at hfree

end KVCacheCoordinator

namespace KVCacheManager

open KVCacheCoordinator

def Op.requestId : Op → Option RequestId
  | .allocateSlots request .. | .free request | .cacheBlocks request _ => some request.requestId
  | .removeSkippedBlocks requestId _ => some requestId
  | .evictBlocks _ | .resetPrefixCache => none

/-- An operation about a request in `touched`, or about none. -/
def Touches (touched : RequestId → Prop) (_ : KVCacheManager) (op : Op) : Prop :=
  ∀ r, op.requestId = some r → touched r

structure Related (R : SingleTypeKVCacheManager → SingleTypeKVCacheManager → Prop)
    (k k' : KVCacheManager) : Prop where
  maxModelLen : k'.maxModelLen = k.maxModelLen
  enableCaching : k'.enableCaching = k.enableCaching
  coordinator : k.coordinator.Related R k'.coordinator

variable {k k' k₀ : KVCacheManager} (hR : ManagerRelation touched R)
include hR

lemma allocateSlots_related {request : Request} (hr : touched request.requestId)
    {hits : List (List BlockId)} {n : ℕ} {args : AllocateSlotsArgs} {new : Option (List (List BlockId))}
    (hok : k.allocateSlots request hits n args = .ok (new, k')) : Related R k k' := by
  simp only [allocateSlots, bind_eq_ok] at hok
  obtain ⟨_, -, c, hremove, need, -, hok⟩ := hok
  have hc := removeSkippedBlocks_related hR hr hremove
  split at hok
  · obtain ⟨-, rfl⟩ := ok_pair_inj hok
    exact ⟨rfl, rfl, hc⟩
  · simp only [bind_eq_ok, Prod.exists] at hok
    obtain ⟨c1, hcomputed, new', c2, hnew, hok⟩ := hok
    have hc1 : c.Related R c1 := by
      split at hcomputed
      · exact allocateNewComputedBlocks_related hR hr hcomputed
      · obtain rfl := ok.inj hcomputed
        exact .refl hR c
    have hc2 := (hc.trans hR hc1).trans hR (allocateNewBlocks_related hR hr hnew)
    split at hok
    · obtain ⟨-, rfl⟩ := ok_pair_inj hok
      exact ⟨rfl, rfl, hc2⟩
    · simp only [bind_eq_ok, pure_eq_ok, ok.injEq, Prod.mk.injEq] at hok
      obtain ⟨c3, hcache, -, rfl⟩ := hok
      exact ⟨rfl, rfl, hc2.trans hR (cacheBlocks_related hR hr hcache)⟩

lemma step_related {op : Op} (hop : Touches touched k op) (hok : k.step op = .ok k') : Related R k k' := by
  cases op with
  | allocateSlots request hits n args =>
    simp only [step, bind_eq_ok, pure_eq_ok, ok.injEq, Prod.exists] at hok
    obtain ⟨new, k1, hok, rfl⟩ := hok
    exact allocateSlots_related hR (hop _ rfl) hok
  | free request =>
    simp only [step, free, bind_eq_ok, pure_eq_ok, ok.injEq] at hok
    obtain ⟨c, hc, rfl⟩ := hok
    exact ⟨rfl, rfl, free_related hR (hop _ rfl) hc⟩
  | removeSkippedBlocks requestId total =>
    simp only [step, removeSkippedBlocks, bind_eq_ok, pure_eq_ok, ok.injEq] at hok
    obtain ⟨c, hc, rfl⟩ := hok
    exact ⟨rfl, rfl, removeSkippedBlocks_related hR (hop _ rfl) hc⟩
  | cacheBlocks request n =>
    simp only [step, cacheBlocks] at hok
    split at hok
    · simp only [bind_eq_ok, pure_eq_ok, ok.injEq] at hok
      obtain ⟨c, hc, rfl⟩ := hok
      exact ⟨rfl, rfl, cacheBlocks_related hR (hop _ rfl) hc⟩
    · obtain rfl := ok.inj hok
      exact ⟨rfl, rfl, .refl hR _⟩
  | evictBlocks blockIds =>
    simp only [step, evictBlocks, bind_eq_ok, pure_eq_ok, ok.injEq] at hok
    obtain ⟨p, -, rfl⟩ := hok
    exact ⟨rfl, rfl, rfl, rfl, (Related.refl hR k.coordinator).manager⟩
  | resetPrefixCache =>
    obtain rfl := ok.inj hok
    exact ⟨rfl, rfl, rfl, rfl, (Related.refl hR k.coordinator).manager⟩

lemma reaches_related (hrun : Reaches step (Touches touched) k k') : Related R k k' := by
  refine hrun.invariant ⟨rfl, rfl, .refl hR _⟩ fun k1 op k2 h hop hok => ?_
  have h' := step_related hR hop hok
  exact ⟨h'.maxModelLen.trans h.maxModelLen, h'.enableCaching.trans h.enableCaching,
    h.coordinator.trans hR h'.coordinator⟩

omit hR

theorem reaches_managers {Inv : SingleTypeKVCacheManager → Prop} (h : ManagerInvariant Inv)
    {allowed : KVCacheManager → Op → Prop} (hrun : Reaches step allowed k₀ k)
    (h0 : ∀ m ∈ k₀.singleTypeManagers, Inv m) : ∀ m ∈ k.singleTypeManagers, Inv m := by
  have hrel := (reaches_related h.relation (hrun.mono fun _ _ _ _ _ => trivial)).coordinator
  intro m hm
  obtain ⟨i, hi⟩ := List.mem_iff_getElem?.mp hm
  have hlt : i < k₀.singleTypeManagers.length := hrel.length_eq ▸ (List.getElem?_eq_some_iff.mp hi).1
  exact hrel.manager i _ m (List.getElem?_eq_getElem hlt) hi (h0 _ (List.getElem_mem hlt))

lemma new_managers {config : KVCacheConfig} {maxModelLen hashBlockSize dcpWorldSize
    pcpWorldSize : ℕ} {enableCaching useEagle events useInt : Bool}
    (hnew : new config maxModelLen hashBlockSize enableCaching useEagle events useInt dcpWorldSize
      pcpWorldSize = .ok k) {m : SingleTypeKVCacheManager} (hm : m ∈ k.singleTypeManagers) :
    ∃ spec ∈ config.kvCacheGroups, ∃ i,
      m = SingleTypeKVCacheManager.new spec enableCaching i dcpWorldSize pcpWorldSize := by
  simp only [new, bind_eq_ok, pure_eq_ok, ok.injEq] at hnew
  obtain ⟨c, hc, rfl⟩ := hnew
  obtain ⟨i, hi⟩ := List.mem_iff_getElem?.mp hm
  obtain ⟨spec, hspec, rfl⟩ := (getKvCacheCoordinator_spec hc).managers.get_eq i m hi
  exact ⟨spec, List.mem_of_getElem? hspec, i, rfl⟩

end KVCacheManager

end CustomAi.Vllm
