import CustomAi.Vllm.GroupCapacity
import CustomAi.Vllm.ManagerInvariant

/-!
# What the operations of the KV cache manager leave alone

An operation about one request leaves the blocks of the other requests alone, and no operation
changes the settings of a manager or the kind of the coordinator.
-/

namespace CustomAi.Vllm

open Option Except SingleTypeKVCacheManager KVCacheCoordinator

namespace SingleTypeKVCacheManager

/-- From `m` to `m'` only requests in `touched` got other blocks. -/
structure Framed (touched : RequestId → Prop) (m m' : SingleTypeKVCacheManager) : Prop where
  settings : m.SameSettings m'
  reqBlocks : ∀ x, ¬ touched x → m'.reqBlocks x = m.reqBlocks x
  numCachedBlock : ∀ x, ¬ touched x → m'.numCachedBlock.get? x = m.numCachedBlock.get? x

variable {touched : RequestId → Prop} {m m' m'' : SingleTypeKVCacheManager} {p p' : BlockPool}
  {r : RequestId}

lemma Framed.refl (m : SingleTypeKVCacheManager) : Framed touched m m :=
  ⟨.refl m, fun _ _ => rfl, fun _ _ => rfl⟩

lemma Framed.trans (h : Framed touched m m') (h' : Framed touched m' m'') : Framed touched m m'' :=
  ⟨h.settings.trans h'.settings, fun x hx => (h'.reqBlocks x hx).trans (h.reqBlocks x hx),
    fun x hx => (h'.numCachedBlock x hx).trans (h.numCachedBlock x hx)⟩

lemma framed_of_set (hr : touched r) (hset : m.SameSettings m')
    (hblocks : ∀ x, x ≠ r → m'.reqBlocks x = m.reqBlocks x)
    (hcached : ∀ x, x ≠ r → m'.numCachedBlock.get? x = m.numCachedBlock.get? x) : Framed touched m m' :=
  ⟨hset, fun x hx => hblocks x fun h => hx (h ▸ hr), fun x hx => hcached x fun h => hx (h ▸ hr)⟩

lemma reqBlocks_setReqBlocks_of_ne {l : List BlockId} {x : RequestId} (hx : x ≠ r) :
    (m.setReqBlocks r l).reqBlocks x = m.reqBlocks x := by
  rw [reqBlocks_setReqBlocks, if_neg hx]

lemma setReqBlocks_framed (hr : touched r) (l : List BlockId) : Framed touched m (m.setReqBlocks r l) :=
  framed_of_set hr ⟨rfl, rfl, rfl, rfl⟩ (fun _ hx => reqBlocks_setReqBlocks_of_ne hx)
    fun _ _ => rfl

variable {new : List BlockId} {n : ℕ}

section

variable (hr : touched r)
include hr

lemma Trimmed.framed (h : Trimmed r m p m' p') : Framed touched m m' := by
  cases h with
  | same => exact .refl m
  | freed => exact setReqBlocks_framed hr _

lemma allocateNewComputedBlocks_framed {hits : List BlockId} {numLocal numExternal : ℕ}
    (hok : m.allocateNewComputedBlocks p r hits numLocal numExternal = .ok (m', p')) : Framed touched m m' := by
  rcases allocateNewComputedBlocks_cases hok with ⟨rfl, -⟩ | ⟨hc, hok⟩
  · exact .refl m'
  · obtain ⟨-, _, _, -, -, hreq, hset, -, hcached⟩ := baseAllocateNewComputedBlocks_cases hc hok
    refine framed_of_set hr hset (fun x hx => ?_) fun x hx => ?_
    · rw [reqBlocks_of_set hreq, if_neg hx]
    · rw [hcached, Dict.get?_set_of_ne _ _ hx]

lemma baseAllocateNewBlocks_framed
    (hok : m.baseAllocateNewBlocks p r n = .ok (new, m', p')) : Framed touched m m' := by
  rcases baseAllocateNewBlocks_cases hok with ⟨rfl, -, -⟩ | ⟨-, -, rfl⟩
  · exact .refl m'
  · exact setReqBlocks_framed hr _

lemma alignAllocateNewBlocks_framed {k : ℕ}
    (hok : m.alignAllocateNewBlocks p r n k = .ok (new, m', p')) : Framed touched m m' := by
  unfold alignAllocateNewBlocks at hok
  dsimp only at hok
  split at hok
  · obtain ⟨-, hmp⟩ := ok_pair_inj hok
    obtain ⟨rfl, -⟩ := Prod.mk.inj hmp
    exact .refl m
  · simp only [bind_eq_ok, pure_eq_ok, ok.injEq, Prod.mk.injEq, Prod.exists] at hok
    obtain ⟨_, -, blocks, -, _, -, newBlocks, _, -, -, rfl, -⟩ := hok
    exact framed_of_set hr ⟨rfl, rfl, rfl, rfl⟩
      (fun x hx => reqBlocks_setReqBlocks_of_ne hx) fun _ _ => rfl

lemma allocateNewBlocks_framed {numTokens numTokensMainModel : ℕ}
    (hok : m.allocateNewBlocks p r numTokens numTokensMainModel = .ok (new, m', p')) : Framed touched m m' := by
  unfold allocateNewBlocks at hok
  split at hok
  · exact alignAllocateNewBlocks_framed hr hok
  · exact baseAllocateNewBlocks_framed hr hok
  · exact baseAllocateNewBlocks_framed hr hok

end

lemma cacheBlocks_framed {request : Request} (hr : touched request.requestId)
    (hok : m.cacheBlocks p request n = .ok (m', p')) : Framed touched m m' := by
  rcases cacheBlocks_cases hok with ⟨rfl, -⟩ | ⟨-, -, rfl⟩
  · exact .refl m'
  · exact framed_of_set hr ⟨rfl, rfl, rfl, rfl⟩ (fun _ _ => rfl) fun x hx => Dict.get?_set_of_ne _ _ hx

lemma free_framed (hr : touched r) : Framed touched m (m.free p r).1 := by
  have hbase : ∀ m' : SingleTypeKVCacheManager, m.SameSettings m' →
      m'.reqToBlocks = m.reqToBlocks.erase r → m'.numCachedBlock = m.numCachedBlock.erase r →
      Framed touched m m' := by
    intro m' hset hblocks hcached
    refine framed_of_set hr hset (fun x hx => ?_) fun x hx => ?_
    · unfold reqBlocks
      rw [hblocks, Dict.get?_erase_of_ne _ hx]
    · rw [hcached, Dict.get?_erase_of_ne _ hx]
  unfold free
  dsimp only
  split
  · exact hbase _ ⟨rfl, rfl, rfl, rfl⟩ rfl rfl
  · exact hbase _ ⟨rfl, rfl, rfl, rfl⟩ rfl rfl

lemma framed_relation (touched : RequestId → Prop) : ManagerRelation touched (Framed touched) where
  refl := .refl
  trans := .trans
  removeSkippedBlocks hr hok := by
    obtain ⟨_, _, hbase, hlast⟩ := removeSkippedBlocks_trimmed hok
    exact (hbase.framed hr).trans (hlast.framed hr)
  allocateNewComputedBlocks hr hok := allocateNewComputedBlocks_framed hr hok
  allocateNewBlocks hr hok := allocateNewBlocks_framed hr hok
  cacheBlocks hr hok := cacheBlocks_framed hr hok
  free _ _ _ hr := free_framed hr

end SingleTypeKVCacheManager

namespace KVCacheManager

abbrev Framed (touched : RequestId → Prop) : KVCacheManager → KVCacheManager → Prop :=
  Related (SingleTypeKVCacheManager.Framed touched)

variable {touched : RequestId → Prop} {k k' : KVCacheManager}

lemma allocateSlots_framed {request : Request} (hr : touched request.requestId)
    {hits : List (List BlockId)} {n : ℕ} {args : AllocateSlotsArgs} {new : Option (List (List BlockId))}
    (hok : k.allocateSlots request hits n args = .ok (new, k')) : Framed touched k k' :=
  allocateSlots_related (framed_relation touched) hr hok

theorem reaches_framed (hrun : Reaches step (Touches touched) k k') : Framed touched k k' :=
  reaches_related (framed_relation touched) hrun

end KVCacheManager

end CustomAi.Vllm
