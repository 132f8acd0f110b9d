import CustomAi.Vllm.KVCacheFrame
import CustomAi.Vllm.KVCacheReset

/-!
# What requests leave behind

Calls on behalf of some requests that start and end without blocks of theirs give every block back.
-/

namespace CustomAi.Vllm.KVCacheManager

open List Except

variable {config : KVCacheConfig} {hashBlockSize dcpWorldSize pcpWorldSize maxModelLen : ℕ}
  {touched : RequestId → Prop} {k₀ k k' : KVCacheManager}

def NoneHeld (touched : RequestId → Prop) (k : KVCacheManager) : Prop :=
  ∀ m ∈ k.singleTypeManagers, ∀ r, touched r → ∀ b ∈ m.reqBlocks r, b = nullBlock

lemma mem_held_of_same (hlen : k'.singleTypeManagers.length = k.singleTypeManagers.length)
    (hsame : ∀ (i : ℕ) m m', k.singleTypeManagers[i]? = some m → k'.singleTypeManagers[i]? = some m' →
      ∀ r, ¬ touched r → m'.reqBlocks r = m.reqBlocks r)
    (hidle : NoneHeld touched k) {b : BlockId} (hb : b ∈ k.coordinator.held) : b ∈ k'.coordinator.held := by
  obtain ⟨m, hm, r, hb, hne⟩ := (mem_held_iff k b).mp hb
  have hr : ¬ touched r := fun hr => hne (hidle m hm r hr b hb)
  obtain ⟨i, hi, rfl⟩ := getElem_of_mem hm
  have hm' := List.getElem?_eq_getElem (hlen ▸ hi)
  refine (mem_held_iff k' b).mpr ⟨_, mem_of_getElem? hm', r, ?_, hne⟩
  rwa [hsame i _ _ (List.getElem?_eq_getElem hi) hm' r hr]

/-- Requests that are served give all their blocks back. -/
theorem reaches_gives_back {enableCaching useEagle events useInt : Bool}
    (hgroups : ∀ spec ∈ config.kvCacheGroups, ValidGroup spec) (hdcp : 0 < dcpWorldSize) (hpcp : 0 < pcpWorldSize)
    (hnew : new config maxModelLen hashBlockSize enableCaching useEagle events useInt dcpWorldSize
      pcpWorldSize = .ok k₀) (hreach : Reaches step CleanCall k₀ k)
    (hrun : Reaches step (fun k op => k.CleanCall op ∧ Touches touched k op) k k')
    (hidle : NoneHeld touched k) (hidle' : NoneHeld touched k') :
    k'.blockPool.getNumFreeBlocks = k.blockPool.getNumFreeBlocks ∧ Framed touched k k' := by
  have hframed : Framed touched k k' := reaches_framed (hrun.mono fun _ _ h => h.2)
  have hinv : AccountingInv config hashBlockSize dcpWorldSize pcpWorldSize k :=
    hreach.invariant (new_inv hgroups hnew) fun s op s' hs hclean hok =>
      hs.step hgroups hdcp hpcp hclean hok
  have hinv' : AccountingInv config hashBlockSize dcpWorldSize pcpWorldSize k' :=
    hrun.invariant hinv fun s op s' hs hclean hok => hs.step hgroups hdcp hpcp hclean.1 hok
  refine ⟨?_, hframed⟩
  have hlen : k'.singleTypeManagers.length = k.singleTypeManagers.length := hframed.coordinator.length_eq
  have hsame := fun i m m' hm hm' => (hframed.coordinator.manager i m m' hm hm').reqBlocks
  have hheld : k'.coordinator.held.toFinset = k.coordinator.held.toFinset := by
    ext b
    simp only [Multiset.mem_toFinset]
    exact ⟨mem_held_of_same hlen.symm (fun i m m' hm hm' r hr => (hsame i m' m hm' hm r hr).symm) hidle',
      mem_held_of_same hlen hsame hidle⟩
  obtain ⟨hnum, hpos⟩ := hinv.numGpuBlocks_eq hgroups
  obtain ⟨hnum', hpos'⟩ := hinv'.numGpuBlocks_eq hgroups
  have hfree := getNumFreeBlocks_add_card hinv.accounts hpos
  have hfree' := getNumFreeBlocks_add_card hinv'.accounts hpos'
  rw [hheld] at hfree'
  omega

instance [DecidablePred touched] (k : KVCacheManager) (op : Op) : Decidable (Touches touched k op) :=
  inferInstanceAs (Decidable (∀ r ∈ op.requestId, touched r))

/-- A request gets a block and gives it back. -/
theorem reaches_gives_back_freed : ∃ k₀ k, new onePlainGroup 16 1 true false false false 1 1 = .ok k₀ ∧
    Reaches step (fun k op => k.CleanCall op ∧ Touches (· = "a") k op) k₀ k ∧
    k.blockPool.getNumFreeBlocks = k₀.blockPool.getNumFreeBlocks := by
  have hrun : ((new onePlainGroup 16 1 true false false false 1 1).toOption.bind fun k =>
      (runAllowed step (fun k op => k.CleanCall op ∧ Touches (· = "a") k op) (id k)
        [.allocateSlots oneToken [[]] 0 { numNewTokens := 1 }, .free oneToken])).map (fun k =>
          decide (∀ m ∈ k.singleTypeManagers, ∀ b ∈ m.reqBlocks "a", b = nullBlock)) = some true := by
    decide +kernel
  obtain ⟨k₀, k, h0, hk, hnone⟩ := exists_reaches hrun
  refine ⟨k₀, k, h0, hk, (reaches_gives_back (fun spec hspec => ?_) Nat.one_pos Nat.one_pos h0 .start
    hk (fun m hm r _ b hb => ?_) fun m hm r hr => hr ▸ of_decide_eq_true hnone m hm).1⟩
  · obtain rfl := mem_singleton.mp hspec
    exact ⟨fun _ _ _ _ _ h => (by cases h), Nat.one_pos, fun _ _ h => (by cases h)⟩
  · by_contra hne
    exact not_someHeld_new h0 ⟨m, hm, r, b, hb, hne⟩

end CustomAi.Vllm.KVCacheManager
