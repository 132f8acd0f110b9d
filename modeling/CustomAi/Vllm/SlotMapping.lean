import CustomAi.Vllm.BlockTable
import Mathlib.Tactic.Linarith

/-!
# Slots of tokens

The table holds the kernel blocks of the rows that were written, so that the slots of the ranks
are the places of the positions in the memory of their manager blocks, dealt out to the ranks.
-/

namespace CustomAi.Vllm

open List Function BlockTable

variable {config : BlockTableConfig}

def BlockTableConfig.blocksPerKvBlock (config : BlockTableConfig) : ℕ :=
  config.blockSize / config.kernelBlockSize

structure Addressable (config : BlockTableConfig) (id : ℕ) : Prop where
  start_lt : (id + 1) * config.blockSize < 2 ^ 31 + config.kernelBlockSize

lemma int32_of_lt {n : ℕ} (h : n < 2 ^ 31) : int32 n = n := by
  exact Int.bmod_eq_of_le (by omega) (by omega)

section Pieces

variable {b : ℕ} (ids : List ℕ)

lemma getElem?_mapToKernelBlocks (hb : 0 < b) (q : ℕ) :
    (mapToKernelBlocks ids b)[q]? = ids[q / b]?.map fun id => id * b + q % b := by
  unfold mapToKernelBlocks
  split
  next hone =>
    subst hone
    simp [Nat.mod_one]
  next => exact getElem?_flatMap_pieces hb (fun id i => id * b + i) ids q

lemma mapToKernelBlocks_append (ids' : List ℕ) :
    mapToKernelBlocks (ids ++ ids') b = mapToKernelBlocks ids b ++ mapToKernelBlocks ids' b := by
  unfold mapToKernelBlocks
  split
  · rfl
  · exact flatMap_append

lemma exists_of_mem_mapToKernelBlocks {v : ℕ} (h : v ∈ mapToKernelBlocks ids b) :
    ∃ id ∈ ids, ∃ i < b, v = id * b + i := by
  unfold mapToKernelBlocks at h
  split at h
  next hone => exact ⟨v, h, 0, by omega, by rw [hone]; omega⟩
  next =>
    obtain ⟨id, hid, hv⟩ := mem_flatMap.mp h
    obtain ⟨i, hi, rfl⟩ := mem_map.mp hv
    exact ⟨id, hid, i, mem_range.mp hi, rfl⟩

lemma length_mapToKernelBlocks : (mapToKernelBlocks ids b).length = ids.length * b := by
  unfold mapToKernelBlocks
  split
  next hone => rw [hone, Nat.mul_one]
  next =>
    induction ids with
    | nil => simp
    | cons id ids ih =>
      rw [flatMap_cons, length_append, ih, length_cons, length_map, length_range]
      ring

end Pieces

/-- The table holds the kernel blocks of `rows`. -/
structure Holds (t : BlockTable config) (rank : CpRank config) (rows : ℕ → List ℕ) : Prop where
  rank_eq : t.rank = rank
  blockSize_eq : t.blockSize = config.kernelBlockSize
  blocks_eq : t.blocksPerKvBlock = config.blocksPerKvBlock
  hybrid_eq : t.useHybridBlocks = false → config.blocksPerKvBlock = 1
  width_eq : t.maxNumBlocksPerReq = config.maxNumBlocksPerReq * config.blocksPerKvBlock
  slots_eq : t.slotMapping.length = config.maxNumBatchedTokens
  num_eq : ∀ r, t.numBlocksPerRow r = (rows r).length * config.blocksPerKvBlock
  entry_eq : ∀ r q (v : ℕ), (mapToKernelBlocks (rows r) config.blocksPerKvBlock)[q]? = some v → t.blockTable r q = v

/-- The rows stay within the table, with ids of int32. -/
def RowOp.Fits (config : BlockTableConfig) (rows : ℕ → List ℕ) : RowOp → Prop
  | .append blockIds rowIdx => rowIdx < config.maxNumReqs ∧
      (rows rowIdx ++ blockIds).length ≤ config.maxNumBlocksPerReq ∧ ∀ id ∈ blockIds, Addressable config id
  | .add blockIds rowIdx => rowIdx < config.maxNumReqs ∧
      blockIds.length ≤ config.maxNumBlocksPerReq ∧ ∀ id ∈ blockIds, Addressable config id
  | .move src tgt => src < config.maxNumReqs ∧ tgt < config.maxNumReqs
  | .swap src tgt => src < config.maxNumReqs ∧ tgt < config.maxNumReqs

section Table

variable {rank : CpRank config} {t : BlockTable config} {rows : ℕ → List ℕ}

lemma holds_empty (rank : CpRank config) {useHybridBlocks : Bool}
    (hhybrid : useHybridBlocks = false → config.blocksPerKvBlock = 1) :
    Holds (.empty rank config.kernelBlockSize config.blocksPerKvBlock useHybridBlocks) rank fun _ => [] where
  rank_eq := rfl
  blockSize_eq := rfl
  blocks_eq := rfl
  hybrid_eq := hhybrid
  width_eq := rfl
  slots_eq := length_replicate
  num_eq r := (Nat.zero_mul _).symm
  entry_eq r q v h := by
    have hlen := (List.getElem?_eq_some_iff.mp h).1
    rw [length_mapToKernelBlocks] at hlen
    simp at hlen

section

variable (hdvd : config.kernelBlockSize ∣ config.blockSize)
include hdvd

lemma holds_new (rank : CpRank config) : ∃ t, new config rank = .ok t ∧ Holds t rank fun _ => [] := by
  by_cases hsame : config.kernelBlockSize = config.blockSize
  · have hone : config.blocksPerKvBlock = 1 := by
      unfold BlockTableConfig.blocksPerKvBlock
      rw [← hsame, Nat.div_self config.kernelBlockSize_pos]
    have hempty := holds_empty rank fun _ : false = false => hone
    rw [hone, hsame] at hempty
    exact ⟨_, if_pos hsame, hempty⟩
  · have hmod : ¬config.blockSize % config.kernelBlockSize ≠ 0 := not_not_intro (Nat.mod_eq_zero_of_dvd hdvd)
    exact ⟨_, (if_neg hsame).trans (if_neg hmod), holds_empty rank fun h => nomatch h⟩

lemma kernelBlock_start_lt {id i : ℕ} (hid : Addressable config id) (hi : i < config.blocksPerKvBlock) :
    (id * config.blocksPerKvBlock + i) * config.kernelBlockSize < 2 ^ 31 := by
  have hblock : config.blocksPerKvBlock * config.kernelBlockSize = config.blockSize := Nat.div_mul_cancel hdvd
  have hstart := hid.start_lt
  have hlast : (id * config.blocksPerKvBlock + (i + 1)) * config.kernelBlockSize ≤ (id + 1) * config.blockSize := by
    rw [← hblock, ← Nat.mul_assoc, Nat.add_mul id 1, Nat.one_mul]
    exact Nat.mul_le_mul_right _ (Nat.add_le_add_left hi _)
  rw [← Nat.add_assoc, Nat.add_mul _ 1] at hlast
  omega

lemma rowValues_spec (h : Holds t rank rows) {ids : List ℕ} (hids : ∀ id ∈ ids, Addressable config id) :
    t.rowValues ids = .ok ((mapToKernelBlocks ids config.blocksPerKvBlock).map fun v : ℕ => (v : ℤ)) := by
  have hlt (v : ℕ) (hv : v ∈ mapToKernelBlocks ids config.blocksPerKvBlock) : v < 2 ^ 31 := by
    obtain ⟨id, hid, i, hi, rfl⟩ := exists_of_mem_mapToKernelBlocks ids hv
    exact lt_of_le_of_lt (Nat.le_mul_of_pos_right _ config.kernelBlockSize_pos)
      (kernelBlock_start_lt hdvd (hids id hid) hi)
  unfold rowValues
  cases hhybrid : t.useHybridBlocks with
  | false =>
    have hone := h.hybrid_eq hhybrid
    have hsame : mapToKernelBlocks ids config.blocksPerKvBlock = ids := if_pos hone
    rw [hsame] at hlt ⊢
    rw [ensure_of hlt]
    rfl
  | true =>
    rw [h.blocks_eq]
    exact congrArg Except.ok (map_congr_left fun v hv => int32_of_lt (hlt v hv))

end

lemma sliceWrites_of_le {size start count : ℕ} (h : start + count ≤ size) :
    sliceWrites size start count = .ok true := by
  unfold sliceWrites
  rw [if_pos (by omega)]

variable {ids : List ℕ} {r : ℕ} {src tgt : ℕ}

lemma appendRow_spec (hdvd : config.kernelBlockSize ∣ config.blockSize) (h : Holds t rank rows)
    (hr : r < config.maxNumReqs)
    (hlen : (rows r ++ ids).length ≤ config.maxNumBlocksPerReq) (hids : ∀ id ∈ ids, Addressable config id) :
    ∃ t', t.appendRow ids r = .ok t' ∧ Holds t' rank (update rows r (rows r ++ ids)) := by
  unfold appendRow
  by_cases hempty : ids = []
  · refine ⟨t, if_pos hempty, ?_⟩
    rwa [hempty, append_nil, update_eq_self]
  have hwidth : (rows r).length * config.blocksPerKvBlock +
      ids.length * config.blocksPerKvBlock ≤ t.maxNumBlocksPerReq := by
    rw [h.width_eq, ← Nat.add_mul, ← length_append]
    exact Nat.mul_le_mul_right _ hlen
  rw [if_neg hempty, rowValues_spec hdvd h hids]
  simp only [ok_bind, ensure_of hr, length_map, length_mapToKernelBlocks, h.num_eq, sliceWrites_of_le hwidth]
  refine ⟨_, rfl, h.rank_eq, h.blockSize_eq, h.blocks_eq, h.hybrid_eq, h.width_eq, h.slots_eq,
    fun r' => ?_, fun r' q v hv => ?_⟩
  · by_cases hrow : r' = r
    · subst hrow
      simp only [update_self, length_append]
      ring
    · simp only [update_of_ne hrow]
      exact h.num_eq r'
  · by_cases hrow : r' = r
    · subst hrow
      simp only [update_self] at hv ⊢
      rw [mapToKernelBlocks_append] at hv
      by_cases hq : (rows r').length * config.blocksPerKvBlock ≤ q
      · rw [getElem?_append_right (by rwa [length_mapToKernelBlocks]), length_mapToKernelBlocks] at hv
        rw [if_pos ⟨trivial, hq⟩, getElem?_map, hv]
        rfl
      · rw [getElem?_append_left (by rw [length_mapToKernelBlocks]; omega)] at hv
        rw [if_neg fun hcond => hq hcond.2]
        exact h.entry_eq r' q v hv
    · simp only [update_of_ne hrow] at hv ⊢
      exact h.entry_eq r' q v hv

lemma addRow_spec (hdvd : config.kernelBlockSize ∣ config.blockSize) (h : Holds t rank rows)
    (hr : r < config.maxNumReqs)
    (hlen : ids.length ≤ config.maxNumBlocksPerReq) (hids : ∀ id ∈ ids, Addressable config id) :
    ∃ t', t.addRow ids r = .ok t' ∧ Holds t' rank (update rows r ids) := by
  unfold addRow
  rw [ensure_of hr]
  have hcleared : Holds { t with numBlocksPerRow := update t.numBlocksPerRow r 0 } rank
      (update rows r []) := by
    refine ⟨h.rank_eq, h.blockSize_eq, h.blocks_eq, h.hybrid_eq, h.width_eq, h.slots_eq,
      fun r' => ?_, fun r' q v hv => ?_⟩
    · by_cases hrow : r' = r
      · subst hrow
        simp
      · simp only [update_of_ne hrow]
        exact h.num_eq r'
    · by_cases hrow : r' = r
      · subst hrow
        have hlt := (List.getElem?_eq_some_iff.mp hv).1
        rw [length_mapToKernelBlocks] at hlt
        simp at hlt
      · rw [update_of_ne hrow] at hv
        exact h.entry_eq r' q v hv
  have happend := appendRow_spec hdvd hcleared hr (by rwa [update_self]) hids
  rwa [update_self, update_idem] at happend

lemma moveRow_spec (h : Holds t rank rows) (hrows : src < config.maxNumReqs ∧ tgt < config.maxNumReqs) :
    ∃ t', t.moveRow src tgt = .ok t' ∧ Holds t' rank (update rows tgt (rows src)) := by
  unfold moveRow
  rw [ensure_of hrows]
  refine ⟨_, rfl, h.rank_eq, h.blockSize_eq, h.blocks_eq, h.hybrid_eq, h.width_eq, h.slots_eq,
    fun r => ?_, fun r q v hv => ?_⟩
  · by_cases hrow : r = tgt
    · subst hrow
      simp only [update_self]
      exact h.num_eq src
    · simp only [update_of_ne hrow]
      exact h.num_eq r
  · by_cases hrow : r = tgt
    · subst hrow
      simp only [update_self] at hv ⊢
      have hq := (List.getElem?_eq_some_iff.mp hv).1
      rw [length_mapToKernelBlocks] at hq
      rw [h.num_eq, if_pos hq]
      exact h.entry_eq src q v hv
    · simp only [update_of_ne hrow] at hv ⊢
      exact h.entry_eq r q v hv

lemma swapRow_spec (h : Holds t rank rows) (hrows : src < config.maxNumReqs ∧ tgt < config.maxNumReqs) :
    ∃ t', t.swapRow src tgt = .ok t' ∧ Holds t' rank (rows ∘ Equiv.swap src tgt) := by
  unfold swapRow
  rw [ensure_of hrows]
  exact ⟨_, rfl, h.rank_eq, h.blockSize_eq, h.blocks_eq, h.hybrid_eq, h.width_eq, h.slots_eq,
    fun r => h.num_eq _, fun r q v hv => h.entry_eq _ q v hv⟩

lemma call_spec (hdvd : config.kernelBlockSize ∣ config.blockSize) (h : Holds t rank rows)
    {op : RowOp} (hop : op.Fits config rows) : ∃ t', t.call op = .ok t' ∧ Holds t' rank (op.rows rows) := by
  cases op with
  | append ids r => exact appendRow_spec hdvd h hop.1 hop.2.1 hop.2.2
  | add ids r => exact addRow_spec hdvd h hop.1 hop.2.1 hop.2.2
  | move src tgt => exact moveRow_spec h hop
  | swap src tgt => exact swapRow_spec h hop

end Table

def RowsFit (config : BlockTableConfig) (rows : ℕ → List ℕ) : List RowOp → Prop
  | [] => True
  | op :: ops => op.Fits config rows ∧ RowsFit config (op.rows rows) ops

def rowsAfter (rows : ℕ → List ℕ) (ops : List RowOp) : ℕ → List ℕ := ops.foldl RowOp.rows rows

variable {rows : ℕ → List ℕ} {t : BlockTable config} {rank : CpRank config}

lemma calls_spec (hdvd : config.kernelBlockSize ∣ config.blockSize) (ops : List RowOp) (h : Holds t rank rows)
    (hops : RowsFit config rows ops) :
    ∃ t', runSteps call t ops = .ok t' ∧ Holds t' rank (rowsAfter rows ops) := by
  induction ops generalizing t rows with
  | nil => exact ⟨t, rfl, h⟩
  | cons op ops ih =>
    obtain ⟨t', hcall, h'⟩ := call_spec hdvd h hops.1
    obtain ⟨t'', hrun, h''⟩ := ih h' hops.2
    refine ⟨t'', ?_, h''⟩
    rw [runSteps, hcall, ok_bind, hrun]

structure RowsOk (config : BlockTableConfig) (rows : ℕ → List ℕ) : Prop where
  row_lt : ∀ r, rows r ≠ [] → r < config.maxNumReqs
  length_le : ∀ r, (rows r).length ≤ config.maxNumBlocksPerReq
  addressable : ∀ r, ∀ id ∈ rows r, Addressable config id

lemma rowsOk_update {r : ℕ} {ids : List ℕ} (h : RowsOk config rows)
    (hr : ids ≠ [] → r < config.maxNumReqs) (hlen : ids.length ≤ config.maxNumBlocksPerReq)
    (hids : ∀ id ∈ ids, Addressable config id) : RowsOk config (update rows r ids) := by
  refine ⟨fun r' hne => ?_, fun r' => ?_, fun r' => ?_⟩
  all_goals by_cases hrow : r' = r
  · subst hrow
    rw [update_self] at hne
    exact hr hne
  · rw [update_of_ne hrow] at hne
    exact h.row_lt r' hne
  · subst hrow
    rwa [update_self]
  · rw [update_of_ne hrow]
    exact h.length_le r'
  · subst hrow
    rwa [update_self]
  · rw [update_of_ne hrow]
    exact h.addressable r'

lemma rowsOk_call {op : RowOp} (h : RowsOk config rows)
    (hop : op.Fits config rows) : RowsOk config (op.rows rows) := by
  cases op with
  | append ids r =>
    refine rowsOk_update h (fun _ => hop.1) hop.2.1 fun id hid => ?_
    rcases mem_append.mp hid with hold | hnew
    · exact h.addressable r id hold
    · exact hop.2.2 id hnew
  | add ids r => exact rowsOk_update h (fun _ => hop.1) hop.2.1 hop.2.2
  | move src tgt =>
    exact rowsOk_update h (fun _ => hop.2) (h.length_le src) (h.addressable src)
  | swap src tgt =>
    refine ⟨fun r hne => ?_, fun r => h.length_le _, fun r => h.addressable _⟩
    by_cases hsrc : r = src
    · exact hsrc ▸ hop.1
    by_cases htgt : r = tgt
    · exact htgt ▸ hop.2
    · have hsame := h.row_lt _ hne
      rwa [Equiv.swap_apply_of_ne_of_ne hsrc htgt] at hsame

lemma rowsOk_calls (ops : List RowOp) (h : RowsOk config rows)
    (hops : RowsFit config rows ops) : RowsOk config (rowsAfter rows ops) := by
  induction ops generalizing rows with
  | nil => exact h
  | cons op ops ih => exact ih (rowsOk_call h hops.1) hops.2

lemma rowsOk_empty : RowsOk config fun _ => [] :=
  ⟨fun _ h => absurd rfl h, fun _ => Nat.zero_le _, fun _ _ h => nomatch h⟩

open BlockTable (totalCpWorldSize)

def CpRank.total (rank : CpRank config) : ℕ :=
  rank.pcpRank * config.dcpWorldSize + rank.dcpRank

lemma CpRank.total_lt (rank : CpRank config) : rank.total < totalCpWorldSize config := by
  have hpcp : rank.pcpRank.val + 1 ≤ config.pcpWorldSize := rank.pcpRank.isLt
  have hrows := Nat.mul_le_mul_right config.dcpWorldSize hpcp
  rw [Nat.add_mul] at hrows
  unfold CpRank.total totalCpWorldSize
  omega

lemma CpRank.total_inj {rank rank' : CpRank config} (h : rank.total = rank'.total) : rank = rank' := by
  obtain ⟨hpcp, hdcp⟩ := mul_add_inj rank.dcpRank.isLt rank'.dcpRank.isLt h
  rw [CpRank.mk.injEq]
  exact ⟨Fin.ext hpcp, Fin.ext hdcp⟩

lemma CpRank.exists_total {n : ℕ} (h : n < totalCpWorldSize config) : ∃ rank : CpRank config, rank.total = n := by
  have hdcp : 0 < config.dcpWorldSize := by
    rcases Nat.eq_zero_or_pos config.dcpWorldSize with hzero | hpos
    · simp [totalCpWorldSize, hzero] at h
    · exact hpos
  refine ⟨⟨⟨n / config.dcpWorldSize, Nat.div_lt_of_lt_mul ?_⟩, ⟨n % config.dcpWorldSize, Nat.mod_lt _ hdcp⟩⟩, ?_⟩
  · rw [Nat.mul_comm]
    exact h
  · exact Nat.div_add_mod' n _

def virtualOffset (config : BlockTableConfig) (position : ℕ) : ℕ :=
  position % (config.kernelBlockSize * totalCpWorldSize config)

def kernelBlockOf (config : BlockTableConfig) (rows : ℕ → List ℕ) (x : ℕ × ℕ) : ℕ :=
  ((mapToKernelBlocks (rows x.1) config.blocksPerKvBlock)[
    x.2 / (config.kernelBlockSize * totalCpWorldSize config)]?).getD 0

def slotOn (rows : ℕ → List ℕ) (rank : CpRank config) (x : ℕ × ℕ) : ℤ :=
  if ownerOf config.cpKvCacheInterleaveSize (totalCpWorldSize config)
      (virtualOffset config x.2) = rank.total then
    (kernelBlockOf config rows x * config.kernelBlockSize +
      placeOf config.cpKvCacheInterleaveSize (totalCpWorldSize config) (virtualOffset config x.2) : ℕ)
  else -1

lemma slot_eq
    (h : Holds t rank rows) {v position : ℕ} (hv : v * config.kernelBlockSize < 2 ^ 31) : t.slot position v =
      if ownerOf config.cpKvCacheInterleaveSize (totalCpWorldSize config)
          (virtualOffset config position) = rank.total then
        ((v * config.kernelBlockSize + placeOf config.cpKvCacheInterleaveSize
          (totalCpWorldSize config) (virtualOffset config position) : ℕ) : ℤ) else -1 := by
  have hstart : int32 (v * t.blockSize) = (v * config.kernelBlockSize : ℕ) := by
    rw [h.blockSize_eq, ← int32_of_lt hv]
    rfl
  have hrank : t.totalCpRank = rank.total := by
    rw [← h.rank_eq]
    rfl
  have htotal := rank.total_lt
  unfold slot
  simp only [hstart, hrank]
  by_cases hone : 1 < totalCpWorldSize config
  · rw [h.blockSize_eq]
    unfold ownerOf placeOf virtualOffset
    split
    · push_cast
      ring
    · rfl
  · have hworld : totalCpWorldSize config = 1 := by omega
    have hzero : rank.total = 0 := by omega
    rw [hzero, hworld, ownerOf_one, placeOf_one, h.blockSize_eq]
    unfold virtualOffset
    rw [hworld]
    push_cast
    ring_nf

lemma ravel_eq (t : BlockTable config) {r q : ℕ} (hr : r < config.maxNumReqs)
    (hq : q < t.maxNumBlocksPerReq) : t.ravel (r * t.maxNumBlocksPerReq + q) = .ok (t.blockTable r q) := by
  have hpos : 0 < t.maxNumBlocksPerReq := Nat.zero_lt_of_lt hq
  have hbound : r * t.maxNumBlocksPerReq + q < config.maxNumReqs * t.maxNumBlocksPerReq := by
    calc r * t.maxNumBlocksPerReq + q < r * t.maxNumBlocksPerReq + t.maxNumBlocksPerReq :=
          Nat.add_lt_add_left hq _
      _ = (r + 1) * t.maxNumBlocksPerReq := (Nat.succ_mul r _).symm
      _ ≤ config.maxNumReqs * t.maxNumBlocksPerReq := Nat.mul_le_mul_right _ hr
  unfold ravel
  rw [ensure_of hbound, Nat.mul_comm r, Nat.mul_add_div hpos,
    Nat.div_eq_of_lt hq, Nat.mul_add_mod, Nat.mod_eq_of_lt hq]
  rfl

section Tokens

variable {rows : ℕ → List ℕ} {x y : ℕ × ℕ}

lemma kernelBlockOf_spec (hdvd : config.kernelBlockSize ∣ config.blockSize)
    (hx : x.2 < (rows x.1).length * (totalCpWorldSize config * config.blockSize)) : 0 < config.blocksPerKvBlock ∧
      ∃ id, (rows x.1)[x.2 / (totalCpWorldSize config * config.blockSize)]? = some id ∧
        (mapToKernelBlocks (rows x.1) config.blocksPerKvBlock)[
          x.2 / (config.kernelBlockSize * totalCpWorldSize config)]? = some (kernelBlockOf config rows x) ∧
        kernelBlockOf config rows x = id * config.blocksPerKvBlock +
          x.2 / (config.kernelBlockSize * totalCpWorldSize config) % config.blocksPerKvBlock := by
  have hblock : config.blocksPerKvBlock * config.kernelBlockSize = config.blockSize := Nat.div_mul_cancel hdvd
  have hpos : 0 < config.blocksPerKvBlock := by
    rcases Nat.eq_zero_or_pos config.blocksPerKvBlock with hzero | hpos
    · rw [← hblock, hzero] at hx
      simp at hx
    · exact hpos
  have hindex : x.2 / (config.kernelBlockSize * totalCpWorldSize config) /
      config.blocksPerKvBlock = x.2 / (totalCpWorldSize config * config.blockSize) := by
    rw [Nat.div_div_eq_div_mul, ← hblock]
    ring_nf
  obtain ⟨id, hid⟩ : ∃ id, (rows x.1)[x.2 / (totalCpWorldSize config * config.blockSize)]? =
      some id := ⟨_, getElem?_eq_getElem (Nat.div_lt_of_lt_mul (by rwa [Nat.mul_comm]))⟩
  have hkernel : (mapToKernelBlocks (rows x.1) config.blocksPerKvBlock)[
      x.2 / (config.kernelBlockSize * totalCpWorldSize config)]? = some (id * config.blocksPerKvBlock +
          x.2 / (config.kernelBlockSize * totalCpWorldSize config) % config.blocksPerKvBlock) := by
    rw [getElem?_mapToKernelBlocks _ hpos, hindex, hid]
    rfl
  have hvalue : kernelBlockOf config rows x = id * config.blocksPerKvBlock +
      x.2 / (config.kernelBlockSize * totalCpWorldSize config) % config.blocksPerKvBlock := by
    unfold kernelBlockOf
    rw [hkernel]
    rfl
  exact ⟨hpos, id, hid, hvalue ▸ hkernel, hvalue⟩

lemma kernelBlockOf_start_lt (hdvd : config.kernelBlockSize ∣ config.blockSize) (hrows : RowsOk config rows)
    (hx : x.2 < (rows x.1).length * (totalCpWorldSize config * config.blockSize)) :
    kernelBlockOf config rows x * config.kernelBlockSize < 2 ^ 31 := by
  obtain ⟨hpos, id, hid, -, hvalue⟩ := kernelBlockOf_spec hdvd hx
  rw [hvalue]
  exact kernelBlock_start_lt hdvd (hrows.addressable x.1 id (mem_of_getElem? hid)) (Nat.mod_lt _ hpos)

lemma place_lt (hinterleave : config.cpKvCacheInterleaveSize ∣ config.kernelBlockSize)
    (hworld : 0 < totalCpWorldSize config) (position : ℕ) :
    placeOf config.cpKvCacheInterleaveSize (totalCpWorldSize config)
      (virtualOffset config position) < config.kernelBlockSize :=
  placeOf_lt hinterleave (Nat.mod_lt _ (Nat.mul_pos config.kernelBlockSize_pos hworld))

lemma world_pos (hx : x.2 < (rows x.1).length * (totalCpWorldSize config * config.blockSize)) :
    0 < totalCpWorldSize config := by
  rcases Nat.eq_zero_or_pos (totalCpWorldSize config) with hzero | hpos
  · rw [hzero] at hx
    simp at hx
  · exact hpos

variable {rank : CpRank config}

lemma slotOn_ne_iff : slotOn rows rank x ≠ -1 ↔
    ownerOf config.cpKvCacheInterleaveSize (totalCpWorldSize config) (virtualOffset config x.2) = rank.total := by
  unfold slotOn
  split
  next howner =>
    omega
  next howner => exact ⟨fun h => absurd rfl h, fun h => absurd h howner⟩

lemma slotOn_owner (h : slotOn rows rank x ≠ -1) :
    slotOn rows rank x = (kernelBlockOf config rows x * config.kernelBlockSize +
      placeOf config.cpKvCacheInterleaveSize (totalCpWorldSize config) (virtualOffset config x.2) : ℕ) :=
  if_pos (slotOn_ne_iff.mp h)

lemma slotOn_existsUnique (hx : x.2 < (rows x.1).length * (totalCpWorldSize config * config.blockSize)) :
    ∃! rank : CpRank config, slotOn rows rank x ≠ -1 := by
  have howner : ownerOf config.cpKvCacheInterleaveSize (totalCpWorldSize config)
      (virtualOffset config x.2) < totalCpWorldSize config := Nat.mod_lt _ (world_pos hx)
  obtain ⟨rank, hrank⟩ := CpRank.exists_total howner
  refine ⟨rank, slotOn_ne_iff.mpr hrank.symm, fun rank' hrank' => CpRank.total_inj ?_⟩
  exact (slotOn_ne_iff.mp hrank').symm.trans hrank.symm

lemma slotOn_mem (hdvd : config.kernelBlockSize ∣ config.blockSize)
    (hinterleave : config.cpKvCacheInterleaveSize ∣ config.kernelBlockSize)
    (hx : x.2 < (rows x.1).length * (totalCpWorldSize config * config.blockSize))
    (h : slotOn rows rank x ≠ -1) :
    ∃ id, (rows x.1)[x.2 / (totalCpWorldSize config * config.blockSize)]? = some id ∧
      ((id * config.blockSize : ℕ) : ℤ) ≤ slotOn rows rank x ∧
      slotOn rows rank x < ((id + 1) * config.blockSize : ℕ) := by
  obtain ⟨hpos, id, hid, -, hvalue⟩ := kernelBlockOf_spec hdvd hx
  have hplace := place_lt hinterleave (world_pos hx) x.2
  have hblock : config.blocksPerKvBlock * config.kernelBlockSize = config.blockSize := Nat.div_mul_cancel hdvd
  have hmod := Nat.mod_lt (x.2 / (config.kernelBlockSize * totalCpWorldSize config)) hpos
  rw [slotOn_owner h, hvalue]
  refine ⟨id, hid, Int.ofNat_le.mpr ?_, Int.ofNat_lt.mpr ?_⟩
  · rw [← hblock, ← Nat.mul_assoc, Nat.add_mul]
    omega
  · have hlast := Nat.mul_le_mul_right config.kernelBlockSize
      (Nat.add_le_add_left hmod (id * config.blocksPerKvBlock))
    rw [← hblock, ← Nat.mul_assoc, Nat.add_mul id 1, Nat.one_mul]
    refine lt_of_lt_of_le ?_ hlast
    rw [Nat.succ_eq_add_one, ← Nat.add_assoc, Nat.add_mul _ 1, Nat.one_mul]
    exact Nat.add_lt_add_left hplace _

/-- Two positions share a slot on a rank only when one manager block covers both at different
indices. -/
lemma slotOn_inj (hdvd : config.kernelBlockSize ∣ config.blockSize)
    (hinterleave : config.cpKvCacheInterleaveSize ∣ config.kernelBlockSize)
    (hx : x.2 < (rows x.1).length * (totalCpWorldSize config * config.blockSize))
    (hy : y.2 < (rows y.1).length * (totalCpWorldSize config * config.blockSize))
    (hdistinct : (rows x.1)[x.2 / (totalCpWorldSize config * config.blockSize)]? =
      (rows y.1)[y.2 / (totalCpWorldSize config * config.blockSize)]? →
      x.1 = y.1 ∧ x.2 / (totalCpWorldSize config * config.blockSize) =
        y.2 / (totalCpWorldSize config * config.blockSize)) (h : slotOn rows rank x ≠ -1)
    (hsame : slotOn rows rank x = slotOn rows rank y) : x = y := by
  obtain ⟨hpos, id, hid, -, hvalue⟩ := kernelBlockOf_spec hdvd hx
  obtain ⟨-, id', hid', -, hvalue'⟩ := kernelBlockOf_spec hdvd hy
  have hworld := world_pos hx
  have h' : slotOn rows rank y ≠ -1 := hsame ▸ h
  have howner := (slotOn_ne_iff.mp h).trans (slotOn_ne_iff.mp h').symm
  rw [slotOn_owner h, slotOn_owner h', Nat.cast_inj] at hsame
  obtain ⟨hkernel, hplace⟩ := mul_add_inj (place_lt hinterleave hworld x.2)
    (place_lt hinterleave hworld y.2) hsame
  rw [hvalue, hvalue'] at hkernel
  obtain ⟨hids, hmod⟩ := mul_add_inj (Nat.mod_lt _ hpos) (Nat.mod_lt _ hpos) hkernel
  obtain ⟨hreq, hindex⟩ := hdistinct (by rw [hid, hid', hids])
  have hoffset : virtualOffset config x.2 = virtualOffset config y.2 :=
    position_inj (Nat.pos_of_dvd_of_pos hinterleave config.kernelBlockSize_pos) howner hplace
  have hsplit (position : ℕ) : position / (totalCpWorldSize config * config.blockSize) =
      position / (config.kernelBlockSize * totalCpWorldSize config) / config.blocksPerKvBlock := by
    rw [Nat.div_div_eq_div_mul, ← Nat.div_mul_cancel hdvd]
    unfold BlockTableConfig.blocksPerKvBlock
    ring_nf
  rw [hsplit, hsplit] at hindex
  have hquot : x.2 / (config.kernelBlockSize * totalCpWorldSize config) =
      y.2 / (config.kernelBlockSize * totalCpWorldSize config) := by
    rw [← Nat.div_add_mod (x.2 / _) config.blocksPerKvBlock, hindex, hmod, Nat.div_add_mod]
  refine Prod.ext hreq ?_
  rw [← Nat.div_add_mod x.2 (config.kernelBlockSize * totalCpWorldSize config), hquot]
  unfold virtualOffset at hoffset
  rw [hoffset, Nat.div_add_mod]

end Tokens

lemma computeSlotMapping_spec {rank : CpRank config} {t : BlockTable config}
    {rows : ℕ → List ℕ} (hdvd : config.kernelBlockSize ∣ config.blockSize)
    (hsize : config.kernelBlockSize < 2 ^ 31) (h : Holds t rank rows) (hrows : RowsOk config rows)
    {tokens : List (ℕ × ℕ)} (hlen : tokens.length ≤ config.maxNumBatchedTokens) (htokens : ∀ x ∈ tokens,
      x.2 < (rows x.1).length * (totalCpWorldSize config * config.blockSize)) :
    ∃ t', t.computeSlotMapping tokens = .ok t' ∧
      t'.slotMapping.take tokens.length = tokens.map (slotOn rows rank) := by
  have hnumbers : (tokens.mapM fun x => t.ravel (t.blockTableIndex x.1 x.2)) =
      .ok (tokens.map fun x => (kernelBlockOf config rows x : ℤ)) := by
    refine mapM_eq_ok fun x hx => ?_
    obtain ⟨-, id, hid, hkernel, -⟩ := kernelBlockOf_spec hdvd (htokens x hx)
    have hindex : t.blockTableIndex x.1 x.2 = x.1 * t.maxNumBlocksPerReq +
        x.2 / (config.kernelBlockSize * totalCpWorldSize config) := by
      unfold blockTableIndex
      have hworld := world_pos (htokens x hx)
      split
      next => rw [h.blockSize_eq]
      next hle =>
        have hone : totalCpWorldSize config = 1 := by omega
        rw [hone, h.blockSize_eq, Nat.mul_one]
    have hlt := (List.getElem?_eq_some_iff.mp hkernel).1
    rw [length_mapToKernelBlocks] at hlt
    have hwidth : x.2 / (config.kernelBlockSize * totalCpWorldSize config) < t.maxNumBlocksPerReq := by
      rw [h.width_eq]
      exact lt_of_lt_of_le hlt (Nat.mul_le_mul_right _ (hrows.length_le x.1))
    have hreq : x.1 < config.maxNumReqs := hrows.row_lt x.1 fun hempty => by rw [hempty] at hid; simp at hid
    rw [hindex, ravel_eq t hreq hwidth, h.entry_eq _ _ _ hkernel]
  have hslots : zipWith (fun x => t.slot x.2) tokens
      (tokens.map fun x => (kernelBlockOf config rows x : ℤ)) = tokens.map (slotOn rows rank) := by
    rw [zipWith_map_right, zipWith_self]
    exact map_congr_left fun x hx =>
      slot_eq h (kernelBlockOf_start_lt hdvd hrows (htokens x hx))
  unfold computeSlotMapping
  rw [hnumbers, ok_bind, h.blockSize_eq, ensure_of hsize]
  simp only [hslots, length_map]
  rw [sliceWrites_of_le (by omega)]
  refine ⟨_, rfl, ?_⟩
  exact take_left' (length_map _)

/-- Every position has a slot on exactly one rank, and no two positions share a slot of a rank. -/
theorem slotMapping_bijective (hdvd : config.kernelBlockSize ∣ config.blockSize)
    (hinterleave : config.cpKvCacheInterleaveSize ∣ config.kernelBlockSize)
    (hsize : config.kernelBlockSize < 2 ^ 31) {ops : List RowOp}
    (hops : RowsFit config (fun _ => []) ops) {tokens : List (ℕ × ℕ)}
    (hlen : tokens.length ≤ config.maxNumBatchedTokens) {rows : ℕ → List ℕ}
    (hrows : rows = rowsAfter (fun _ => []) ops) (htokens : ∀ x ∈ tokens,
      x.2 < (rows x.1).length * (totalCpWorldSize config * config.blockSize))
    (hdistinct : ∀ x ∈ tokens, ∀ y ∈ tokens, (rows x.1)[x.2 / (totalCpWorldSize config * config.blockSize)]? =
        (rows y.1)[y.2 / (totalCpWorldSize config * config.blockSize)]? →
      x.1 = y.1 ∧ x.2 / (totalCpWorldSize config * config.blockSize) =
        y.2 / (totalCpWorldSize config * config.blockSize)) : ∃ slot : CpRank config → ℕ × ℕ → ℤ,
      (∀ rank, ∃ t t', (BlockTable.new config rank >>= fun t => runSteps BlockTable.call t ops) =
        .ok t ∧ t.computeSlotMapping tokens = .ok t' ∧ t'.slotMapping.take tokens.length = tokens.map (slot rank)) ∧
      (∀ x ∈ tokens, ∃! rank, slot rank x ≠ -1) ∧
      (∀ rank, ∀ x ∈ tokens, ∀ y ∈ tokens, slot rank x ≠ -1 → slot rank x = slot rank y → x = y) ∧
      ∀ rank, ∀ x ∈ tokens, slot rank x ≠ -1 →
        ∃ id, (rows x.1)[x.2 / (totalCpWorldSize config * config.blockSize)]? = some id ∧
          ((id * config.blockSize : ℕ) : ℤ) ≤ slot rank x ∧ slot rank x < ((id + 1) * config.blockSize : ℕ) := by
  have hok : RowsOk config rows := hrows ▸ rowsOk_calls ops rowsOk_empty hops
  refine ⟨slotOn rows, fun rank => ?_, fun x hx => slotOn_existsUnique (htokens x hx),
    fun rank x hx y hy hne hsame => ?_, fun rank x hx hne => ?_⟩
  · obtain ⟨t0, hnew, hstart⟩ := holds_new hdvd rank
    obtain ⟨t, hrun, hholds⟩ := calls_spec hdvd ops hstart hops
    rw [← hrows] at hholds
    obtain ⟨t', hcompute, hslots⟩ := computeSlotMapping_spec hdvd hsize hholds hok hlen htokens
    exact ⟨t, t', by rw [hnew, ok_bind, hrun], hcompute, hslots⟩
  · exact slotOn_inj hdvd hinterleave (htokens x hx) (htokens y hy) (hdistinct x hx y hy) hne hsame
  · exact slotOn_mem hdvd hinterleave (htokens x hx) hne

private def twoRanks : BlockTableConfig where
  blockSize := 4
  maxNumReqs := 2
  maxNumBlocksPerReq := 3
  maxNumBatchedTokens := 8
  kernelBlockSize := 2
  cpKvCacheInterleaveSize := 1
  pcpWorldSize := 2
  dcpWorldSize := 1
  kernelBlockSize_pos := Nat.two_pos

private def twoRanksTokens : List (ℕ × ℕ) := [(0, 0), (0, 9), (1, 3)]

theorem slot_mapping_two_ranks : ∃ slot : CpRank twoRanks → ℕ × ℕ → ℤ,
      (∀ rank, ∃ t t', (BlockTable.new twoRanks rank >>= fun t =>
          runSteps BlockTable.call t [.add [3] 0, .append [5] 0, .add [1] 1]) = .ok t ∧
        t.computeSlotMapping twoRanksTokens = .ok t' ∧ t'.slotMapping.take 3 = twoRanksTokens.map (slot rank)) ∧
      (∀ x ∈ twoRanksTokens, ∃! rank, slot rank x ≠ -1) ∧
      ∀ rank, ∀ x ∈ twoRanksTokens, ∀ y ∈ twoRanksTokens,
        slot rank x ≠ -1 → slot rank x = slot rank y → x = y := by
  have haddressable (id : ℕ) (hid : id < 8) : Addressable twoRanks id := ⟨by
    change (id + 1) * 4 < 2 ^ 31 + 2
    omega⟩
  have hops : RowsFit twoRanks (fun _ => []) [.add [3] 0, .append [5] 0, .add [1] 1] := by
    refine ⟨⟨by decide, by decide, fun id hid => haddressable id ?_⟩,
      ⟨by decide, by decide, fun id hid => haddressable id ?_⟩,
      ⟨by decide, by decide, fun id hid => haddressable id ?_⟩, trivial⟩
    all_goals
      rw [mem_singleton.mp hid]
      decide
  have hdvd : twoRanks.kernelBlockSize ∣ twoRanks.blockSize := by decide
  have hlen : twoRanksTokens.length ≤ twoRanks.maxNumBatchedTokens := by decide
  obtain ⟨slot, hrun, hunique, hinj, -⟩ := slotMapping_bijective hdvd (by decide) (by decide) hops
    hlen rfl (by decide) (by decide)
  exact ⟨slot, hrun, hunique, hinj⟩

private def oneRank : BlockTableConfig where
  blockSize := 2
  maxNumReqs := 1
  maxNumBlocksPerReq := 2
  maxNumBatchedTokens := 2
  kernelBlockSize := 2
  cpKvCacheInterleaveSize := 1
  pcpWorldSize := 1
  dcpWorldSize := 1
  kernelBlockSize_pos := Nat.two_pos

private def oneRankSlots (blockIds : List ℕ) (tokens : List (ℕ × ℕ)) : Except PyError (List ℤ) := do
  let t ← BlockTable.new oneRank ⟨⟨0, Nat.one_pos⟩, ⟨0, Nat.one_pos⟩⟩
  let t ← t.addRow blockIds 0
  let t ← t.computeSlotMapping tokens
  return t.slotMapping

/-- A block past 32 bits gets a negative slot, and one named twice the same slot twice. -/
theorem slot_mapping_wide_or_repeated : oneRankSlots [2 ^ 30] [(0, 0)] = .ok [-2 ^ 31, 0] ∧
      oneRankSlots [7, 7] [(0, 0), (0, 2)] = .ok [14, 14] :=
  ⟨rfl, rfl⟩

end CustomAi.Vllm
