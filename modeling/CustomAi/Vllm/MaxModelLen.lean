import CustomAi.Lib.CeilDiv
import CustomAi.Lib.Except
import CustomAi.Vllm.SingleTypeKVCacheManager

/-!
# The largest context length that fits into the memory

Two functions look for the largest `max_model_len` whose KV cache fits into the available memory,
one from the groups of the KV cache and one from the specs of its layers.
-/

namespace CustomAi.Vllm

structure VllmConfig where
  maxModelLen : ℕ
  decodeContextParallelSize : ℕ := 1
  prefillContextParallelSize : ℕ := 1
  maxNumBatchedTokens : ℕ
  maxNumEncoderInputTokens : ℕ
  mambaCacheMode : MambaCacheMode
  batched_pos : 0 < maxNumBatchedTokens

namespace VllmConfig

/-- `vllm_config.model_config.max_model_len = model_len` -/
def withLen (config : VllmConfig) (modelLen : ℕ) : VllmConfig :=
  { config with maxModelLen := modelLen }

end VllmConfig

namespace KVCacheSpec

def realPageSizeBytes : KVCacheSpec → ℕ
  | fullAttention attn headSizeV .. | sinkFullAttention attn headSizeV .. =>
    attn.blockSize * attn.numKvHeads * (attn.headSize + headSizeV) * attn.dtype.size
  | mlaAttention attn _ _ _ cacheDtypeStr =>
    if cacheDtypeStr = some "fp8_ds_mla" then attn.blockSize * 656
    else attn.blockSize * attn.numKvHeads * attn.headSize * attn.dtype.size
  | chunkedLocalAttention attn _ | slidingWindow attn _ | encoderOnlyAttention attn
  | crossAttention attn =>
    2 * attn.blockSize * attn.numKvHeads * attn.headSize * attn.dtype.size
  | mamba _ shapes dtypes .. => (List.zipWith (fun shape dtype => shape.prod * dtype.size)
      shapes dtypes).sum

def pageSizePadded : KVCacheSpec → Option ℕ
  | fullAttention attn .. | mlaAttention attn .. | sinkFullAttention attn ..
  | chunkedLocalAttention attn _ | slidingWindow attn _ | encoderOnlyAttention attn
  | crossAttention attn => attn.pageSizePadded
  | mamba _ _ _ pageSizePadded .. => pageSizePadded

def pageSizeBytes (spec : KVCacheSpec) : Except PyError ℕ :=
  match spec.pageSizePadded with
  | some padded => do
    ensure (spec.realPageSizeBytes ≤ padded) (.assertionError "")
    return padded
  | none => .ok spec.realPageSizeBytes

def maxMemoryUsageBytes (spec : KVCacheSpec) (config : VllmConfig) : Except PyError ℕ := do
  let maxModelLen := config.maxModelLen
  match spec with
  | fullAttention attn .. | mlaAttention attn .. | sinkFullAttention attn .. =>
    let worldSize := config.decodeContextParallelSize * config.prefillContextParallelSize
    let maxModelLen := if 1 < worldSize then cdiv maxModelLen worldSize else maxModelLen
    return cdiv maxModelLen attn.blockSize * (← spec.pageSizeBytes)
  | chunkedLocalAttention attn attentionChunkSize =>
    let numTokens := min (attentionChunkSize + config.maxNumBatchedTokens) maxModelLen
    return cdiv numTokens attn.blockSize * (← spec.pageSizeBytes)
  | slidingWindow attn window =>
    ensure (config.decodeContextParallelSize = 1)
      (.assertionError "DCP not support sliding window.")
    let numTokens := min (window + config.maxNumBatchedTokens - 1) maxModelLen
    return (cdiv numTokens attn.blockSize + 1) * (← spec.pageSizeBytes)
  | mamba blockSize _ _ _ _ _ numSpeculativeBlocks =>
    match config.mambaCacheMode with
    | .all => return cdiv maxModelLen blockSize * (← spec.pageSizeBytes)
    | .align => return (← spec.pageSizeBytes) * (2 + numSpeculativeBlocks)
    | .none => return (← spec.pageSizeBytes) * (1 + numSpeculativeBlocks)
  | encoderOnlyAttention _ => return 0
  | crossAttention attn =>
    return cdiv config.maxNumEncoderInputTokens attn.blockSize * (← spec.pageSizeBytes)

end KVCacheSpec

/-- `max_memory_usage_bytes` -/
def maxMemoryUsageBytes (config : VllmConfig) : List KVCacheSpec → Except PyError ℕ
  | [] => .ok 0
  | spec :: rest => do
    return (← spec.maxMemoryUsageBytes config) + (← maxMemoryUsageBytes config rest)

inductive GroupSpec
  | one (spec : KVCacheSpec)
  | uniformType (kvCacheSpecs : List (String × KVCacheSpec))

structure KVCacheGroupSpec where
  layerNames : List String
  kvCacheSpec : GroupSpec

namespace GroupSpec

/-- `sum(spec.page_size_bytes for spec in ...)` -/
def sumPages : List (String × KVCacheSpec) → Except PyError ℕ
  | [] => .ok 0
  | (_, spec) :: rest => do return (← spec.pageSizeBytes) + (← sumPages rest)

def pageSizeBytes : GroupSpec → Except PyError ℕ
  | one spec => spec.pageSizeBytes
  | uniformType kvCacheSpecs => sumPages kvCacheSpecs

def pages (config : VllmConfig) (spec : KVCacheSpec) : Except PyError ℕ := do
  return cdiv (← spec.maxMemoryUsageBytes config) (← spec.pageSizeBytes)

def maxPages (config : VllmConfig) : List (String × KVCacheSpec) → Except PyError ℕ
  | [] => .error (.valueError "max() iterable argument is empty")
  | [(_, spec)] => pages config spec
  | (_, spec) :: rest => do return max (← pages config spec) (← maxPages config rest)

def maxMemoryUsageBytes (config : VllmConfig) : GroupSpec → Except PyError ℕ
  | one spec => spec.maxMemoryUsageBytes config
  | uniformType kvCacheSpecs => do
    return (← maxPages config kvCacheSpecs) * (← sumPages kvCacheSpecs)

end GroupSpec

/-- `get_uniform_page_size` -/
def getUniformPageSize (kvCacheSpecs : List GroupSpec) : Except PyError ℕ := do
  match (← kvCacheSpecs.mapM GroupSpec.pageSizeBytes).dedup with
  | [pageSize] => return pageSize
  | _ => throw (.assertionError "")

/-- `_max_memory_usage_bytes_from_groups` -/
def maxMemoryUsageBytesFromGroups (kvCacheGroups : List KVCacheGroupSpec) (config : VllmConfig) :
    Except PyError ℕ :=
  match kvCacheGroups with
  | [] => .ok 0
  | [⟨_, .uniformType kvCacheSpecs⟩] => maxMemoryUsageBytes config (kvCacheSpecs.map (·.2))
  | group :: rest => do
    let groupSize := ((group :: rest).map (·.layerNames.length)).foldr max 0
    let pageSize ← getUniformPageSize ((group :: rest).map (·.kvCacheSpec))
    let blocksNeeded := cdiv (← group.kvCacheSpec.maxMemoryUsageBytes config) pageSize
    return groupSize * pageSize * blocksNeeded

/-! ## The search -/

/-- The `while` loop with `fits`; `none` if it has not ended after `fuel` turns. -/
def searchLoop (usage : VllmConfig → Except PyError ℕ) (availableMemory : ℤ) :
    ℕ → ℕ → ℕ → ℕ → VllmConfig → Option (Except PyError ℕ × VllmConfig)
  | fuel, left, right, result, config =>
    if left ≤ right then
      match fuel with
      | 0 => none
      | fuel + 1 =>
        let mid := (left + right) / 2
        let config := config.withLen mid
        match usage config with
        | .error e => some (.error e, config)
        | .ok needed =>
          if needed ≤ availableMemory then
            searchLoop usage availableMemory fuel (mid + 1) right mid config
          else searchLoop usage availableMemory fuel left (mid - 1) result config
    else some (.ok result, config)

def estimate (usage : VllmConfig → Except PyError ℕ) (fuel : ℕ) (availableMemory : ℤ)
    (config : VllmConfig) : Option (Except PyError ℕ × VllmConfig) :=
  let originalMaxModelLen := config.maxModelLen
  let config := config.withLen 1
  let searched : Option (Except PyError ℕ × VllmConfig) := match usage config with
    | .error e => some (.error e, config)
    | .ok needed =>
      if needed ≤ availableMemory then
        searchLoop usage availableMemory fuel 1 originalMaxModelLen 1 config
      else some (.ok 0, config)
  searched.map fun (result, config) => (result, config.withLen originalMaxModelLen)

/-- `_estimate_max_model_len_from_groups` -/
def estimateMaxModelLenFromGroups (kvCacheGroups : List KVCacheGroupSpec) :
    ℕ → ℤ → VllmConfig → Option (Except PyError ℕ × VllmConfig) :=
  estimate (maxMemoryUsageBytesFromGroups kvCacheGroups)

/-- `estimate_max_model_len` -/
def estimateMaxModelLen (kvCacheSpec : List (String × KVCacheSpec)) :
    ℕ → ℤ → VllmConfig → Option (Except PyError ℕ × VllmConfig) :=
  estimate fun config => maxMemoryUsageBytes config (kvCacheSpec.map (·.2))

/-! ## The usage grows with the length -/

def Steady (u : ℕ → Except PyError ℕ) : Prop :=
  (∃ e, ∀ modelLen, u modelLen = .error e) ∨ ∃ f : ℕ → ℕ, Monotone f ∧ ∀ modelLen, u modelLen = .ok (f modelLen)

namespace Steady

variable {u v : ℕ → Except PyError ℕ}

variable {g : ℕ → ℕ → ℕ} (x : Except PyError ℕ)

lemma const : Steady fun _ => x := by
  cases x with
  | error e => exact .inl ⟨e, fun _ => rfl⟩
  | ok n => exact .inr ⟨fun _ => n, monotone_const, fun _ => rfl⟩

lemma bind₂ (hu : Steady u) (hv : Steady v) (hg : ∀ {a a' b b'}, a ≤ a' → b ≤ b' → g a b ≤ g a' b') :
    Steady fun modelLen => do return g (← u modelLen) (← v modelLen) := by
  rcases hu with ⟨e, he⟩ | ⟨f, hf, hfu⟩
  · obtain rfl := funext he
    exact .inl ⟨e, fun _ => rfl⟩
  obtain rfl := funext hfu
  rcases hv with ⟨e, he⟩ | ⟨f', hf', hfv⟩
  · obtain rfl := funext he
    exact .inl ⟨e, fun _ => rfl⟩
  · obtain rfl := funext hfv
    exact .inr ⟨fun modelLen => g (f modelLen) (f' modelLen), fun _ _ hle => hg (hf hle) (hf' hle), fun _ => rfl⟩

lemma bind (hu : Steady u) (x : Except PyError ℕ) (hg : ∀ n, Monotone (g · n)) :
    Steady fun modelLen => do return g (← u modelLen) (← x) := by
  rcases hu with ⟨e, he⟩ | ⟨f, hf, hfu⟩
  · obtain rfl := funext he
    exact .inl ⟨e, fun _ => rfl⟩
  obtain rfl := funext hfu
  cases x with
  | error e => exact .inl ⟨e, fun _ => rfl⟩
  | ok n => exact .inr ⟨fun modelLen => g (f modelLen) n, (hg n).comp hf, fun _ => rfl⟩

/-- A number of pages that grows with the length, of a size that does not depend on it. -/
lemma pages {g : ℕ → ℕ} (hg : Monotone g) : Steady fun modelLen => do return g modelLen * (← x) :=
  bind (.inr ⟨g, hg, fun _ => rfl⟩) x fun n _ _ hle => Nat.mul_le_mul_right n hle

end Steady

lemma cdiv_le_cdiv {a a' : ℕ} (b : ℕ) (h : a ≤ a') : cdiv a b ≤ cdiv a' b :=
  Nat.div_le_div_right (by omega)

variable (config : VllmConfig)

lemma KVCacheSpec.steady (spec : KVCacheSpec) :
    Steady fun modelLen => spec.maxMemoryUsageBytes (config.withLen modelLen) := by
  have hfull : ∀ blockSize, Steady fun modelLen => do
      let worldSize := config.decodeContextParallelSize * config.prefillContextParallelSize
      let maxModelLen := if 1 < worldSize then cdiv modelLen worldSize else modelLen
      return cdiv maxModelLen blockSize * (← spec.pageSizeBytes) := by
    refine fun blockSize => Steady.pages _ fun a b hle => cdiv_le_cdiv _ ?_
    split
    · exact cdiv_le_cdiv _ hle
    · exact hle
  cases spec with
  | fullAttention attn => exact hfull attn.blockSize
  | mlaAttention attn => exact hfull attn.blockSize
  | sinkFullAttention attn => exact hfull attn.blockSize
  | chunkedLocalAttention attn attentionChunkSize =>
    exact Steady.pages _ fun a b hle => cdiv_le_cdiv _ (min_le_min_left _ hle)
  | slidingWindow attn window =>
    unfold maxMemoryUsageBytes
    by_cases hdcp : config.decodeContextParallelSize = 1
    · simp only [VllmConfig.withLen, hdcp, ensure, if_true, ok_bind]
      exact Steady.pages _ fun a b hle =>
        Nat.succ_le_succ (cdiv_le_cdiv _ (min_le_min_left _ hle))
    · simp only [VllmConfig.withLen, hdcp, ensure, if_false, error_bind]
      exact Steady.const _
  | mamba blockSize shapes dtypes padded mambaType mode numSpeculativeBlocks =>
    unfold maxMemoryUsageBytes
    simp only [VllmConfig.withLen]
    cases config.mambaCacheMode with
    | all => exact Steady.pages _ fun a b hle => cdiv_le_cdiv _ hle
    | align => exact Steady.const _
    | none => exact Steady.const _
  | encoderOnlyAttention => exact Steady.const _
  | crossAttention => exact Steady.pages _ fun _ _ _ => le_rfl

lemma maxMemoryUsageBytes_steady (specs : List KVCacheSpec) :
    Steady fun modelLen => maxMemoryUsageBytes (config.withLen modelLen) specs := by
  induction specs with
  | nil => exact Steady.const _
  | cons spec rest ih => exact (spec.steady config).bind₂ ih fun h h' => Nat.add_le_add h h'

namespace GroupSpec

lemma maxPages_steady (specs : List (String × KVCacheSpec)) :
    Steady fun modelLen => maxPages (config.withLen modelLen) specs := by
  have hpages : ∀ spec, Steady fun modelLen => pages (config.withLen modelLen) spec :=
    fun spec => (spec.steady config).bind spec.pageSizeBytes fun n _ _ hle => cdiv_le_cdiv n hle
  induction specs with
  | nil => exact Steady.const _
  | cons x rest ih =>
    cases rest with
    | nil => exact hpages x.2
    | cons y rest => exact (hpages x.2).bind₂ ih fun h h' => max_le_max h h'

lemma steady (spec : GroupSpec) : Steady fun modelLen => spec.maxMemoryUsageBytes (config.withLen modelLen) := by
  cases spec with
  | one spec => exact spec.steady config
  | uniformType specs =>
    exact (maxPages_steady config specs).bind (sumPages specs) fun n _ _ hle =>
      Nat.mul_le_mul_right n hle

end GroupSpec

lemma maxMemoryUsageBytesFromGroups_steady (groups : List KVCacheGroupSpec) :
    Steady fun modelLen => maxMemoryUsageBytesFromGroups groups (config.withLen modelLen) := by
  have hgeneral : ∀ (group : KVCacheGroupSpec) (groupSize : ℕ) (page : Except PyError ℕ), Steady fun modelLen => do
        let pageSize ← page
        let blocksNeeded := cdiv (← group.kvCacheSpec.maxMemoryUsageBytes (config.withLen modelLen)) pageSize
        return groupSize * pageSize * blocksNeeded := by
    intro group groupSize page
    cases page with
    | error e => exact Steady.const _
    | ok pageSize =>
      exact (group.kvCacheSpec.steady config).bind (.ok pageSize) fun n _ _ hle =>
        Nat.mul_le_mul_left (groupSize * n) (cdiv_le_cdiv n hle)
  match groups with
  | [] => exact Steady.const _
  | [⟨_, .uniformType specs⟩] => exact maxMemoryUsageBytes_steady config _
  | [⟨names, .one spec⟩] => exact hgeneral ⟨names, .one spec⟩ _ _
  | ⟨names, .one spec⟩ :: next :: rest => exact hgeneral ⟨names, .one spec⟩ _ _
  | ⟨names, .uniformType specs⟩ :: next :: rest => exact hgeneral ⟨names, .uniformType specs⟩ _ _

/-! ## What the search finds -/

/-- No token fits, or this is the largest of the lengths up to the configured one that fit. -/
def LargestFit (usage : VllmConfig → Except PyError ℕ) (availableMemory : ℤ)
    (config : VllmConfig) (n : ℕ) : Prop :=
  let Fits modelLen := ∃ needed, usage (config.withLen modelLen) = .ok needed ∧ (needed : ℤ) ≤ availableMemory
  n = 0 ∧ ¬Fits 1 ∨ 1 ≤ n ∧ n ≤ config.maxModelLen ∧ Fits n ∧
      ∀ modelLen, modelLen ≤ config.maxModelLen → Fits modelLen → modelLen ≤ n

/-- The configuration is as it was, and the largest length that fits is returned, unless the usage
raises. -/
def Estimates (usage : VllmConfig → Except PyError ℕ)
    (estimate : ℕ → ℤ → VllmConfig → Option (Except PyError ℕ × VllmConfig)) : Prop :=
  ∀ (availableMemory : ℤ) (config : VllmConfig), 1 ≤ config.maxModelLen →
    (∃ e, (∀ modelLen, usage (config.withLen modelLen) = .error e) ∧ ∀ fuel, config.maxModelLen ≤ fuel →
        estimate fuel availableMemory config = some (.error e, config)) ∨
    (∃ f : ℕ → ℕ, Monotone f ∧ ∀ modelLen, usage (config.withLen modelLen) = .ok (f modelLen)) ∧
      ∃ n, LargestFit usage availableMemory config n ∧ ∀ fuel, config.maxModelLen ≤ fuel →
          estimate fuel availableMemory config = some (.ok n, config)

variable {config} {usage : VllmConfig → Except PyError ℕ} {f : ℕ → ℕ} {availableMemory : ℤ}

/-- Whatever fits is at most `right`, and `result` is the largest length found to fit. -/
lemma searchLoop_spec (hf : Monotone f) (husage : ∀ modelLen, usage (config.withLen modelLen) = .ok (f modelLen))
    {fuel left right result len : ℕ} (hfuel : right + 1 - left ≤ fuel) (hpos : 1 ≤ left)
    (hleft : left ≤ result + 1) (hle' : result ≤ left) (hresult : 1 ≤ result)
    (hfits : (f result : ℤ) ≤ availableMemory)
    (hle : result ≤ config.maxModelLen) (hright : right ≤ config.maxModelLen)
    (hmax : ∀ modelLen, modelLen ≤ config.maxModelLen → (f modelLen : ℤ) ≤ availableMemory →
      modelLen ≤ max right result) :
    ∃ n len', searchLoop usage availableMemory fuel left right result (config.withLen len) =
        some (.ok n, config.withLen len') ∧ 1 ≤ n ∧ n ≤ config.maxModelLen ∧ (f n : ℤ) ≤ availableMemory ∧
      ∀ modelLen, modelLen ≤ config.maxModelLen → (f modelLen : ℤ) ≤ availableMemory → modelLen ≤ n := by
  induction fuel generalizing left right result len with
  | zero =>
    refine ⟨result, len, ?_, hresult, hle, hfits, fun modelLen hlen hfit => ?_⟩
    · unfold searchLoop
      rw [if_neg (by omega)]
    · have := hmax modelLen hlen hfit
      omega
  | succ fuel ih =>
    by_cases hmore : left ≤ right
    · have hmid : (left + right) / 2 ≤ right := by omega
      have hmid' : left ≤ (left + right) / 2 := by omega
      unfold searchLoop
      rw [if_pos hmore]
      dsimp only
      rw [show (config.withLen len).withLen ((left + right) / 2) =
        config.withLen ((left + right) / 2) from rfl, husage]
      dsimp only
      by_cases hfit : (f ((left + right) / 2) : ℤ) ≤ availableMemory
      · rw [if_pos hfit]
        refine ih (by omega) (by omega) le_rfl (by omega) (by omega) hfit (by omega) hright
          fun modelLen hlen hfit' => ?_
        have := hmax modelLen hlen hfit'
        omega
      · rw [if_neg hfit]
        refine ih (by omega) hpos hleft hle' hresult hfits hle (by omega)
          fun modelLen hlen hfit' => ?_
        -- a longer context than one that does not fit does not fit either
        by_contra hgt
        have hmono := hf (show (left + right) / 2 ≤ modelLen by omega)
        exact hfit (le_trans (by exact_mod_cast hmono) hfit')
    · refine ⟨result, len, ?_, hresult, hle, hfits, fun modelLen hlen hfit => ?_⟩
      · unfold searchLoop
        rw [if_neg hmore]
      · have := hmax modelLen hlen hfit
        omega

lemma estimates_of_steady (h : ∀ config : VllmConfig, Steady fun modelLen => usage (config.withLen modelLen)) :
    Estimates usage (estimate usage) := by
  intro availableMemory config hlen
  rcases h config with ⟨e, he⟩ | ⟨f, hf, husage⟩
  · refine .inl ⟨e, he, fun fuel _ => ?_⟩
    have hone : usage (config.withLen 1) = .error e := he 1
    unfold estimate
    dsimp only
    rw [hone]
    rfl
  · refine .inr ⟨⟨f, hf, husage⟩, ?_⟩
    have hone : usage (config.withLen 1) = .ok (f 1) := husage 1
    by_cases hfit : (f 1 : ℤ) ≤ availableMemory
    · have hsearch : ∀ fuel, config.maxModelLen ≤ fuel → ∃ n len',
          searchLoop usage availableMemory fuel 1 config.maxModelLen 1 (config.withLen 1) =
            some (.ok n, config.withLen len') ∧ 1 ≤ n ∧ n ≤ config.maxModelLen ∧ (f n : ℤ) ≤ availableMemory ∧
          ∀ modelLen, modelLen ≤ config.maxModelLen → (f modelLen : ℤ) ≤ availableMemory → modelLen ≤ n :=
        fun fuel hfuel => searchLoop_spec hf husage (by omega) le_rfl (by omega) le_rfl le_rfl
          hfit hlen le_rfl fun modelLen hle _ => le_max_of_le_left hle
      obtain ⟨n, -, -, hpos, hle, hfits, hmax⟩ := hsearch _ le_rfl
      refine ⟨n, .inr ⟨hpos, hle, ⟨f n, husage n, hfits⟩, fun modelLen hlen' hfit' => ?_⟩, fun fuel hfuel => ?_⟩
      · obtain ⟨needed, hneeded, hle'⟩ := hfit'
        obtain rfl := Except.ok.inj ((husage modelLen).symm.trans hneeded)
        exact hmax modelLen hlen' hle'
      · obtain ⟨n', len', hrun, -, hle', hfits', hmax'⟩ := hsearch fuel hfuel
        obtain rfl : n' = n := le_antisymm (hmax n' hle' hfits') (hmax' n hle hfits)
        unfold estimate
        dsimp only
        rw [hone]
        dsimp only
        rw [if_pos hfit, hrun]
        rfl
    · refine ⟨0, .inl ⟨rfl, ?_⟩, fun fuel _ => ?_⟩
      · rintro ⟨needed, hneeded, hle⟩
        obtain rfl := Except.ok.inj (hone.symm.trans hneeded)
        exact hfit hle
      · unfold estimate
        dsimp only
        rw [hone]
        dsimp only
        rw [if_neg hfit]
        rfl

/-- Both searches leave the configuration as it was and return the largest length that fits, or 0. -/
theorem estimates_maxModelLen : (∀ groups, Estimates (maxMemoryUsageBytesFromGroups groups)
      (estimateMaxModelLenFromGroups groups)) ∧ ∀ specs : List (String × KVCacheSpec),
      Estimates (fun config => maxMemoryUsageBytes config (specs.map (·.2))) (estimateMaxModelLen specs) :=
  ⟨fun groups => estimates_of_steady fun config =>
      maxMemoryUsageBytesFromGroups_steady config groups,
    fun _ => estimates_of_steady fun config => maxMemoryUsageBytes_steady config _⟩

/-- Pages of 64 bytes for 16 tokens each, of which a single one fits. -/
theorem estimates_maxModelLen_onePage :
    ∃ n, LargestFit (maxMemoryUsageBytesFromGroups
        [⟨["a"], .one (.fullAttention ⟨16, 1, 1, ⟨"float16", 2⟩, none⟩ 1 none none)⟩])
        100 ⟨40, 1, 1, 8, 0, .none, by decide⟩ n ∧
      ∀ fuel, 40 ≤ fuel → estimateMaxModelLenFromGroups
        [⟨["a"], .one (.fullAttention ⟨16, 1, 1, ⟨"float16", 2⟩, none⟩ 1 none none)⟩] fuel
        100 ⟨40, 1, 1, 8, 0, .none, by decide⟩ =
          some (.ok n, ⟨40, 1, 1, 8, 0, .none, by decide⟩) := by
  rcases estimates_maxModelLen.1 [⟨["a"], .one (.fullAttention ⟨16, 1, 1, ⟨"float16", 2⟩, none⟩ 1
      none none)⟩] 100 ⟨40, 1, 1, 8, 0, .none, by decide⟩ (by decide) with ⟨e, he, -⟩ | ⟨-, h⟩
  · cases he 1
  · exact h

/-- A full attention group with pages of 64 bytes next to a chunked one with pages of 128. -/
def unequalPages : List KVCacheGroupSpec :=
  [⟨["a"], .one (.fullAttention ⟨16, 1, 1, ⟨"float16", 2⟩, none⟩ 1 none none)⟩,
    ⟨["b"], .one (.chunkedLocalAttention ⟨32, 1, 1, ⟨"float16", 2⟩, none⟩ 8)⟩]

/-- Groups of different page sizes have no usage, and the search raises an exception. -/
theorem no_length_for_unequal_pages :
    ¬∀ (groups : List KVCacheGroupSpec) (availableMemory : ℤ) (config : VllmConfig),
      1 ≤ config.maxModelLen → ∃ fuel n, estimateMaxModelLenFromGroups groups fuel availableMemory config =
          some (.ok n, config) ∧ LargestFit (maxMemoryUsageBytesFromGroups groups) availableMemory config n := by
  intro h
  obtain ⟨fuel, n, hrun, -⟩ := h unequalPages 1000 ⟨4, 1, 1, 8, 0, .none, by decide⟩ (by decide)
  have herror : ∀ config : VllmConfig, maxMemoryUsageBytesFromGroups unequalPages config =
      .error (.assertionError "") := fun _ => rfl
  unfold estimateMaxModelLenFromGroups estimate at hrun
  dsimp only at hrun
  rw [herror] at hrun
  cases (Prod.mk.inj (Option.some.inj hrun)).1

end CustomAi.Vllm
