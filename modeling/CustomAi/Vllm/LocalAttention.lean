import CustomAi.Lib.NumpyArray
import CustomAi.Vllm.BlockPool

/-!
# Virtual batches of chunked local attention

`make_local_attention_virtual_batches` of `vllm/v1/attention/backends/utils.py`, and the causal
attention that is run on its result.
-/

namespace CustomAi.Vllm

open List

/-- `CommonAttentionMetadata`. The rows of the block table have one length. -/
structure CommonAttentionMetadata where
  queryStartLoc : List ℤ
  seqLens : List ℤ
  numReqs : ℤ
  numActualTokens : ℤ
  maxQueryLen : ℤ
  maxSeqLen : ℤ
  blockTable : List (List BlockId)
  slotMapping : List ℤ
  causal : Bool
  numComputedTokens : List ℤ

namespace CommonAttentionMetadata

/-- `naive_query_lens` -/
def queryLens (m : CommonAttentionMetadata) : List ℤ :=
  zipWith (· - ·) m.queryStartLoc.tail m.queryStartLoc.dropLast

end CommonAttentionMetadata

/-- `cdiv(a, b)`, that is `-(a // -b)` -/
def cdivInt (a b : ℤ) : ℤ := -(a.fdiv (-b))

/-- `block_table[batch_index, block_index]` -/
def blockTableEntry (blockTable : List (List BlockId)) (batchIndex blockIndex : ℤ) :
    Except PyError BlockId :=
  match (pyGet? blockTable batchIndex).bind (pyGet? · blockIndex) with
  | some block => .ok block
  | none => .error .indexError

def makeLocalAttentionVirtualBatches (attnChunkSize : ℤ) (m : CommonAttentionMetadata)
    (blockSize : ℤ) : Except PyError CommonAttentionMetadata := do
  let qSeqlens := m.queryLens
  let qTokensInFirstBlock := zipWith (fun seqLen q =>
    min (attnChunkSize - (seqLen - q).fmod attnChunkSize) q) m.seqLens qSeqlens
  let tokensInLastBlock := m.seqLens.map fun seqLen =>
    attnChunkSize + seqLen.fmod (-attnChunkSize)
  let localBlocks := zipWith (fun q first => 1 + cdivInt (q - first) attnChunkSize) qSeqlens
    qTokensInFirstBlock
  let cuNumBlocks := npCumsum localBlocks
  let virtualBatches ← match cuNumBlocks.getLast? with
    | some virtualBatches => .ok virtualBatches
    | none => .error .indexError
  let blockOffsets := npRepeat (zipWith (· - ·) cuNumBlocks localBlocks) localBlocks
  let arange := zipWith (· - ·) (npArange virtualBatches) blockOffsets
  let rarange := zipWith (fun n a => n - a - 1) (npRepeat localBlocks localBlocks) arange
  let seqlensQLocal := npRepeat (zipWith (· - ·) qSeqlens qTokensInFirstBlock) localBlocks
  -- the first block may be a partial one
  let seqlensQLocal := setMask (arange.map fun a => decide (a = 0)) seqlensQLocal
    qTokensInFirstBlock
  let remaining := zipWith (fun q a => min (q - attnChunkSize * (a - 1)) attnChunkSize)
    seqlensQLocal arange
  let seqlensQLocal := setMask (arange.map fun a => decide (0 < a)) seqlensQLocal
    (getMask (arange.map fun a => decide (0 < a)) remaining)
  let cuSeqlensQLocal := 0 :: npCumsum seqlensQLocal
  let seqlensKLocal := setIndices (replicate virtualBatches.toNat attnChunkSize)
    (cuNumBlocks.map (· - 1)) tokensInLastBlock
  let numComputedTokensLocal := zipWith (· - ·) seqlensKLocal seqlensQLocal
  let kSeqstartsAbsolute := zipWith (· - ·) (npRepeat m.seqLens localBlocks)
    (zipWith (fun r last => r * attnChunkSize + last) rarange
      (npRepeat tokensInLastBlock localBlocks))
  let blockStarts := kSeqstartsAbsolute.map (·.fdiv blockSize)
  ensure (attnChunkSize.fmod blockSize = 0) (.assertionError (
    "attn_chunk_size " ++ toString attnChunkSize ++ " is not divisible by block_size " ++
    toString blockSize))
  let pagesPerLocalBatch := attnChunkSize.fdiv blockSize
  let width : ℤ := (m.blockTable.headD []).length
  let blockIndices := blockStarts.flatMap fun start =>
    (npArange pagesPerLocalBatch).map fun page => min (start + page) (width - 1)
  let batchIndices := npRepeat (npArange m.seqLens.length)
    (localBlocks.map (· * pagesPerLocalBatch))
  let entries ← (batchIndices.zip blockIndices).mapM fun x =>
    blockTableEntry m.blockTable x.1 x.2
  return {
    queryStartLoc := cuSeqlensQLocal
    seqLens := seqlensKLocal
    numReqs := seqlensKLocal.length
    numActualTokens := m.numActualTokens
    maxQueryLen := (seqlensQLocal.max?).getD 0
    maxSeqLen := (seqlensKLocal.max?).getD 0
    blockTable := viewRows pagesPerLocalBatch.toNat virtualBatches.toNat entries
    slotMapping := m.slotMapping
    causal := true
    numComputedTokens := numComputedTokensLocal }

/-- The slot of the cache that holds position `i` of a request: its block and the offset in it. -/
def cacheSlot (blockSize : ℤ) (row : List BlockId) (i : ℤ) : Option BlockId × ℤ :=
  (pyGet? row (i / blockSize), i % blockSize)

/-- The slots each query token attends to; the last one attends to all of them. -/
def causalSlots (blockSize queryLen seqLen : ℤ) (row : List BlockId) :
    List (List (Option BlockId × ℤ)) :=
  (npArange queryLen).map fun j =>
    (npArange (seqLen - queryLen + j + 1)).map (cacheSlot blockSize row)

/-- The slots of the positions from the start of the chunk of `p` to `p`. -/
def chunkSlots (attnChunkSize blockSize : ℤ) (row : List BlockId) (p : ℤ) :
    List (Option BlockId × ℤ) :=
  let start := p / attnChunkSize * attnChunkSize
  (npArange (p - start + 1)).map fun i => cacheSlot blockSize row (start + i)

def CommonAttentionMetadata.attended (m : CommonAttentionMetadata) (blockSize : ℤ) :
    List (List (Option BlockId × ℤ)) :=
  (zipWith (fun x row => causalSlots blockSize x.1 x.2 row) (m.queryLens.zip m.seqLens)
    m.blockTable).flatten

structure AttentionRequest where
  queryLen : ℤ
  seqLen : ℤ
  blocks : List BlockId

/-- The metadata of the requests `rs`. -/
structure CommonAttentionMetadata.Of (m : CommonAttentionMetadata) (rs : List AttentionRequest) :
    Prop where
  queryStartLoc : m.queryStartLoc = 0 :: npCumsum (rs.map (·.queryLen))
  seqLens : m.seqLens = rs.map (·.seqLen)
  blockTable : m.blockTable = rs.map (·.blocks)

end CustomAi.Vllm

/-!
## What the virtual batches attend to

First the cutting of one request at the multiples of the chunk size, then the arrays of the code as
groups of pieces, one group for each request.
-/

namespace CustomAi.Vllm

open List

section Request

variable (c q s : ℤ)

/-- The entry of `q_tokens_in_first_block`. -/
def firstTokens : ℤ := min (c - (s - q).fmod c) q

/-- The entry of `tokens_in_last_block`. -/
def lastTokens : ℤ := c + s.fmod (-c)

/-- The entry of `local_blocks`. -/
def localBlocks : ℤ := 1 + cdivInt (q - firstTokens c q s) c

/-- The query length of piece `a`. -/
def localQueryLen (a : ℤ) : ℤ :=
  if 0 < a then min (q - firstTokens c q s - c * (a - 1)) c else firstTokens c q s

/-- The number of keys of piece `a`. -/
def localSeqLen (a : ℤ) : ℤ := if a = localBlocks c q s - 1 then lastTokens c s else c

/-- The entry of `k_seqstarts_absolute`. -/
def localStart (a : ℤ) : ℤ := s - ((localBlocks c q s - a - 1) * c + lastTokens c s)

/-- The number of query tokens in the pieces before `a`. -/
def queryOffset (a : ℤ) : ℤ :=
  if a ≤ 0 then 0 else if a = localBlocks c q s then q else firstTokens c q s + c * (a - 1)

variable {c q s}

lemma cdivInt_bounds (hc : 0 < c) (t : ℤ) : t ≤ c * cdivInt t c ∧ c * cdivInt t c < t + c := by
  unfold cdivInt
  have hneg : t.fdiv (-c) = (-t).fdiv c := by
    rw [← Int.neg_fdiv_neg, neg_neg]
  have hdiv := Int.mul_fdiv_add_fmod (-t) c
  have hlo := Int.fmod_nonneg_of_pos (-t) hc
  have hhi := Int.fmod_lt_of_pos (-t) hc
  rw [hneg, mul_neg]
  constructor
  · omega
  · omega

lemma fmod_neg_bounds (hc : 0 < c) (s : ℤ) : 0 < lastTokens c s ∧ lastTokens c s ≤ c ∧ c ∣ s - lastTokens c s := by
  unfold lastTokens
  have hneg : s.fmod (-c) = -((-s).fmod c) := by
    rw [← Int.neg_fmod_neg, neg_neg]
  have hdiv := Int.mul_fdiv_add_fmod (-s) c
  have hlo := Int.fmod_nonneg_of_pos (-s) hc
  have hhi := Int.fmod_lt_of_pos (-s) hc
  refine ⟨by omega, by omega, -(-s).fdiv c - 1, ?_⟩
  rw [mul_sub, mul_neg]
  omega

/-- The last piece, the first piece and the start of the chunk that the first piece is in. -/
structure CutFacts (c q s k start : ℤ) : Prop where
  blocks : localBlocks c q s = k + 1
  nonneg : 0 ≤ k
  dvd : c ∣ start
  start_le : start ≤ s - q
  one : k = 0 → firstTokens c q s = q
  many : 0 < k → firstTokens c q s = c - (s - q - start)
  first_pos : 0 < firstTokens c q s
  rest_le : q - firstTokens c q s ≤ c * k
  lt_rest : c * k < q - firstTokens c q s + c
  last : start + c * k = s - lastTokens c s
  last_pos : 0 < lastTokens c s
  last_le : lastTokens c s ≤ c

lemma cutFacts (hc : 0 < c) (hq : 0 < q) : ∃ k start, CutFacts c q s k start := by
  obtain ⟨hlast, hlastLe, e, he⟩ := fmod_neg_bounds hc s
  obtain ⟨hle, hlt⟩ := cdivInt_bounds hc (q - firstTokens c q s)
  have hdiv := Int.mul_fdiv_add_fmod (s - q) c
  have hlo := Int.fmod_nonneg_of_pos (s - q) hc
  have hhi := Int.fmod_lt_of_pos (s - q) hc
  set r := (s - q).fmod c
  set d := (s - q).fdiv c
  set k := cdivInt (q - firstTokens c q s) c with hk
  have hfirst : firstTokens c q s = min (c - r) q := rfl
  have hnonneg : 0 ≤ k := by
    by_contra hneg
    have hmul : c * k ≤ c * (-1) := Int.mul_le_mul_of_nonneg_left (by omega) hc.le
    omega
  have hkpos : 0 < k → firstTokens c q s ≠ q := by
    intro hpos hq'
    have hmul : c * 1 ≤ c * k := Int.mul_le_mul_of_nonneg_left (by omega) hc.le
    omega
  have hmany : 0 < k → firstTokens c q s = c - r := by
    omega
  have hone : k = 0 → firstTokens c q s = q := by
    intro hzero
    rw [hzero] at hle
    omega
  -- the last piece starts at the chunk of the last token
  have hsame : d + k = e := by
    have hexpand : c * (d + k) = c * d + c * k := by ring
    have hbounds : s - c ≤ c * (d + k) ∧ c * (d + k) < s := by
      rcases hnonneg.eq_or_lt with hzero | hpos
      · have hzero' : c * k = 0 := by rw [← hzero, mul_zero]
        omega
      · omega
    by_contra hne
    rcases lt_or_gt_of_ne hne with hless | hmore
    · have hmul : c * (d + k + 1) ≤ c * e := Int.mul_le_mul_of_nonneg_left (by omega) hc.le
      rw [mul_add] at hmul
      omega
    · have hmul : c * (e + 1) ≤ c * (d + k) := Int.mul_le_mul_of_nonneg_left (by omega) hc.le
      rw [mul_add] at hmul
      omega
  refine ⟨k, c * d, ?_, hnonneg, Dvd.intro _ rfl, by omega, hone, fun hpos => ?_, by omega, hle,
    hlt, ?_, hlast, hlastLe⟩
  · unfold localBlocks
    ring
  · omega
  · rw [he, ← hsame]
    ring

variable {k start a j : ℤ}

section

variable (h : CutFacts c q s k start)
include h

lemma CutFacts.localStart_eq (a : ℤ) : localStart c q s a = start + c * a := by
  have hlast := h.last
  unfold localStart
  rw [h.blocks]
  have hexpand : (k + 1 - a - 1) * c = c * k - c * a := by ring
  omega

lemma CutFacts.start_nonneg (hc : 0 < c) (hq : 0 < q) (hle : q ≤ s) : 0 ≤ start := by
  obtain ⟨-, hnonneg, ⟨d, rfl⟩, -, -, hmany, hpos, -, -, hlast, -, hlastLe⟩ := h
  have hgt : -c < c * d := by
    rcases hnonneg.eq_or_lt with hzero | hk
    · rw [← hzero] at hlast
      omega
    · omega
  by_contra hneg
  have hd : d ≤ -1 := by
    by_contra hd
    exact hneg (Int.mul_nonneg hc.le (by omega))
  have hmul : c * d ≤ c * (-1) := Int.mul_le_mul_of_nonneg_left hd hc.le
  omega

lemma CutFacts.queryOffset_succ (hc : 0 < c) (ha : 0 ≤ a) (hlt : a < localBlocks c q s) :
    0 ≤ queryOffset c q s a ∧ 0 < localQueryLen c q s a ∧
      queryOffset c q s (a + 1) = queryOffset c q s a + localQueryLen c q s a := by
  obtain ⟨hblocks, hnonneg, -, -, hone, hmany, hpos, hle, hltk, -, -, -⟩ := h
  unfold queryOffset localQueryLen
  rw [hblocks] at hlt ⊢
  have hsucc : c * (a + 1 - 1) = c * (a - 1) + c := by ring
  rcases ha.eq_or_lt with hzero | ha
  · rw [← hzero, if_neg (lt_irrefl _)]
    split
    · omega
    · omega
  · have hmul : 0 ≤ c * (a - 1) := Int.mul_nonneg hc.le (by omega)
    have hk1 : c * (k - 1) = c * k - c := by ring
    rw [if_neg (by omega), if_pos ha, if_neg (by omega : ¬a = k + 1), if_neg (by omega)]
    split
    · next hlast =>
      have hak : a = k := by omega
      rw [hak] at hmul ⊢
      omega
    · next hnot =>
      have hless : c * a ≤ c * (k - 1) := Int.mul_le_mul_of_nonneg_left (by omega) hc.le
      have ha1 : c * (a - 1) = c * a - c := by ring
      omega

lemma CutFacts.queryOffset_last : queryOffset c q s (localBlocks c q s) = q := by
  have hnonneg := h.nonneg
  unfold queryOffset
  rw [h.blocks, if_neg (by omega), if_pos rfl]

lemma CutFacts.local_eq (hc : 0 < c) (ha : 0 ≤ a)
    (hlt : a < localBlocks c q s) (hj : 0 ≤ j) (hjlt : j < localQueryLen c q s a) :
    let p := s - q + (queryOffset c q s a + j)
    localStart c q s a = p / c * c ∧ localSeqLen c q s a - localQueryLen c q s a + j = p - localStart c q s a ∧
      p < s ∧ localSeqLen c q s a ≤ c := by
  have hstart := h.localStart_eq a
  obtain ⟨hblocks, hnonneg, hdvd, hstartLe, hone, hmany, hpos, hle, hltk, hlast, hlastPos, hlastLe⟩ := h
  have ha1 : c * (a - 1) = c * a - c := by ring
  have hfacts : localSeqLen c q s a - localQueryLen c q s a + j =
      s - q + (queryOffset c q s a + j) - (start + c * a) ∧ start + c * a ≤ s - q + (queryOffset c q s a + j) ∧
      s - q + (queryOffset c q s a + j) < start + c * a + c ∧
      s - q + (queryOffset c q s a + j) < s ∧ localSeqLen c q s a ≤ c := by
    unfold localQueryLen at hjlt ⊢
    unfold localSeqLen queryOffset
    rcases ha.eq_or_lt with hzero | ha
    · have hzero' : c * a = 0 := by rw [← hzero, mul_zero]
      rw [if_neg hzero.not_lt] at hjlt ⊢
      rw [if_pos hzero.ge]
      by_cases hk : k = 0
      · have hq := hone hk
        have hk' : c * k = 0 := by rw [hk, mul_zero]
        omega
      · have hmul : c * 1 ≤ c * k := Int.mul_le_mul_of_nonneg_left (by omega) hc.le
        omega
    · have hnot : ¬a ≤ 0 := by omega
      rw [if_neg hnot]
      by_cases hk : a = k
      · have hka : c * a = c * k := by rw [hk]
        omega
      · have hless : c * a ≤ c * (k - 1) := Int.mul_le_mul_of_nonneg_left (by omega) hc.le
        have hk1 : c * (k - 1) = c * k - c := by ring
        omega
  obtain ⟨hkeys, hge, hless, hps, hlen⟩ := hfacts
  rw [hstart]
  refine ⟨?_, hkeys, hps, hlen⟩
  obtain ⟨d, rfl⟩ := hdvd
  have hdiv : (s - q + (queryOffset c q s a + j)) / c = d + a := by
    have hexpand : c * (d + a) = c * d + c * a := by ring
    refine (Int.ediv_eq_iff_of_pos hc).mpr ⟨?_, ?_⟩
    · rw [mul_comm, hexpand]
      exact hge
    · rw [mul_comm, hexpand]
      exact hless
  rw [hdiv]
  ring

end

end Request

variable {c bs width : ℤ} {m : CommonAttentionMetadata} {rs : List AttentionRequest}

/-- Requests with query tokens and with blocks for all their tokens. -/
structure AttentionRequest.Fits (bs width : ℤ) (r : AttentionRequest) : Prop where
  queryLen_pos : 0 < r.queryLen
  seqLen_le : r.seqLen ≤ width * bs
  length_eq : (r.blocks.length : ℤ) = width

lemma CommonAttentionMetadata.Of.queryLens_eq (h : m.Of rs) : m.queryLens = rs.map (·.queryLen) := by
  unfold queryLens
  rw [h.queryStartLoc]
  exact zipWith_sub_cumsumFrom 0 _

def localPage (c bs width : ℤ) (r : AttentionRequest) (a page : ℤ) : ℤ :=
  min ((localStart c r.queryLen r.seqLen a).fdiv bs + page) (width - 1)

def localPiece (c bs width : ℤ) (r : AttentionRequest) (a : ℤ) : AttentionRequest where
  queryLen := localQueryLen c r.queryLen r.seqLen a
  seqLen := localSeqLen c r.queryLen r.seqLen a
  blocks := (npArange (c.fdiv bs)).map fun page =>
    (pyGet? r.blocks (localPage c bs width r a page)).getD nullBlock

lemma pyGet?_eq_some {l : List BlockId} {i : ℤ} (hi : 0 ≤ i) (hlt : i < l.length) :
    pyGet? l i = some ((pyGet? l i).getD nullBlock) := by
  obtain ⟨k, rfl⟩ := Int.eq_ofNat_of_zero_le hi
  rw [pyGet?_natCast]
  have hk : k < l.length := by omega
  rw [List.getElem?_eq_getElem hk, Option.getD_some]

lemma blockTableEntry_eq {x : AttentionRequest × ℕ} (hx : x ∈ rs.zipIdx) {i : ℤ} (hi : 0 ≤ i)
    (hlt : i < x.1.blocks.length) : blockTableEntry (rs.map (·.blocks)) x.2 i =
      .ok ((pyGet? x.1.blocks i).getD nullBlock) := by
  have hget : rs[x.2]? = some x.1 := mk_mem_zipIdx_iff_getElem?.mp hx
  unfold blockTableEntry
  rw [pyGet?_natCast, List.getElem?_map, hget, Option.map_some, Option.bind_some, pyGet?_eq_some hi hlt]
  rfl

def AttentionRequest.numLocal (c : ℤ) (r : AttentionRequest) : ℤ :=
  localBlocks c r.queryLen r.seqLen

def localRequests (c bs width : ℤ) (rs : List AttentionRequest) : List AttentionRequest :=
  grouped rs (·.numLocal c) (localPiece c bs width)

lemma numLocal_pos (hc : 0 < c) (hq : ∀ r ∈ rs, 0 < r.queryLen) : ∀ r ∈ rs, 0 < r.numLocal c := by
  intro r hr
  obtain ⟨k, start, hcut⟩ := cutFacts (s := r.seqLen) hc (hq r hr)
  unfold AttentionRequest.numLocal
  rw [hcut.blocks]
  have hk := hcut.nonneg
  omega

lemma batchIndices_eq {pages : ℤ} (hpages : 0 ≤ pages) (n : AttentionRequest → ℤ) (hn : ∀ r ∈ rs, 0 ≤ n r) :
    npRepeat (npArange rs.length) ((rs.map n).map (· * pages)) =
      grouped (pairs rs.zipIdx fun x => n x.1) (fun _ => pages) fun y _ => (y.1.2 : ℤ) := by
  have hcounts : (rs.map n).map (· * pages) = rs.zipIdx.map fun x => n x.1 * pages := by
    conv_lhs => rw [← zipIdx_map_fst 0 rs, map_map, map_map]
    rfl
  rw [npArange_length_eq, hcounts, npRepeat_map]
  unfold grouped pairs grouped
  rw [flatMap_assoc]
  refine flatMap_congr fun x hx => ?_
  rw [flatMap_map]
  have hx' : 0 ≤ n x.1 := hn x.1 (fst_mem_of_mem_zipIdx hx)
  have hranges := flatMap_npArange (fun _ => (x.2 : ℤ)) (fun a => a * pages) (fun _ => pages) hx'
    (zero_mul _) fun a ha _ => ⟨Int.mul_nonneg ha hpages, hpages, by ring⟩
  exact hranges.symm

lemma blockTable_eq (hrs : ∀ r ∈ rs, r.Fits bs width) (hpages : 0 ≤ c.fdiv bs)
    (hn : ∀ r ∈ rs, 0 < r.numLocal c) (hstart : ∀ r ∈ rs, ∀ a, 0 ≤ a → a < r.numLocal c →
      0 ≤ (localStart c r.queryLen r.seqLen a).fdiv bs) (hwidth : 0 < width) :
    ((npRepeat (npArange rs.length) ((rs.map (·.numLocal c)).map (· * c.fdiv bs))).zip
      (((grouped rs (·.numLocal c) fun r a => localStart c r.queryLen r.seqLen a).map
        (·.fdiv bs)).flatMap fun start => (npArange (c.fdiv bs)).map fun page =>
          min (start + page) (width - 1))).mapM (fun x => blockTableEntry (rs.map (·.blocks)) x.1 x.2) =
    .ok ((localRequests c bs width rs).map (·.blocks)).flatten := by
  set P := pairs rs.zipIdx fun x : AttentionRequest × ℕ => x.1.numLocal c
  have hindices : ((grouped rs (·.numLocal c) fun r a => localStart c r.queryLen r.seqLen a).map
        (·.fdiv bs)).flatMap (fun start => (npArange (c.fdiv bs)).map fun page =>
          min (start + page) (width - 1)) =
      grouped P (fun _ => c.fdiv bs) fun y page => localPage c bs width y.1.1 y.2 page := by
    rw [map_grouped, grouped_zipIdx, grouped_eq_map, flatMap_map]
    rfl
  rw [batchIndices_eq hpages _ fun r hr => (hn r hr).le, hindices, List.zip, zipWith_grouped,
    grouped_eq_map, mapM_map, mapM_eq_ok (g := fun z => (pyGet? z.1.1.1.blocks
      (localPage c bs width z.1.1.1 z.1.2 z.2)).getD nullBlock)]
  · unfold localRequests
    rw [map_grouped, grouped_zipIdx, grouped_eq_map]
    unfold pairs
    rw [map_grouped]
    rfl
  · intro z hz
    obtain ⟨hy, hpage, -⟩ := mem_pairs.mp hz
    obtain ⟨hx, ha, halt⟩ := mem_pairs.mp hy
    have hr := fst_mem_of_mem_zipIdx hx
    have hfits := hrs _ hr
    refine blockTableEntry_eq hx ?_ ?_
    · have hpos := hstart _ hr _ ha halt
      dsimp only [localPage]
      omega
    · rw [hfits.length_eq]
      dsimp only [localPage]
      omega

lemma queryLens_set (hn : ∀ r ∈ rs, 0 < r.numLocal c) :
    setMask (grouped rs (·.numLocal c) fun _ a => decide (0 < a))
      (setMask (grouped rs (·.numLocal c) fun _ a => decide (a = 0))
        (grouped rs (·.numLocal c) fun r _ => r.queryLen - firstTokens c r.queryLen r.seqLen)
        (rs.map fun r => firstTokens c r.queryLen r.seqLen))
      (getMask (grouped rs (·.numLocal c) fun _ a => decide (0 < a)) (zipWith (fun q a => min (q - c * (a - 1)) c)
          (setMask (grouped rs (·.numLocal c) fun _ a => decide (a = 0))
            (grouped rs (·.numLocal c) fun r _ => r.queryLen - firstTokens c r.queryLen r.seqLen)
            (rs.map fun r => firstTokens c r.queryLen r.seqLen)) (grouped rs (·.numLocal c) fun _ a => a))) =
    grouped rs (·.numLocal c) fun r a => localQueryLen c r.queryLen r.seqLen a := by
  have hset := setMask_first hn (g := fun r _ => r.queryLen - firstTokens c r.queryLen r.seqLen)
    fun r => firstTokens c r.queryLen r.seqLen
  rw [map_grouped] at hset
  rw [hset, zipWith_grouped]
  have hrest := setMask_getMask rs (AttentionRequest.numLocal c)
    (fun r a => if a = 0 then firstTokens c r.queryLen r.seqLen
      else r.queryLen - firstTokens c r.queryLen r.seqLen)
    (fun r a => min ((if a = 0 then firstTokens c r.queryLen r.seqLen
      else r.queryLen - firstTokens c r.queryLen r.seqLen) - c * (a - 1)) c)
    (fun a => decide (0 < a)) fun _ a => a
  rw [map_grouped] at hrest
  rw [hrest]
  refine grouped_congr fun r _ a ha _ => ?_
  unfold localQueryLen
  by_cases hpos : 0 < a
  · rw [decide_eq_true hpos, if_pos rfl, if_neg hpos.ne', if_pos hpos]
  · rw [decide_eq_false hpos, if_neg Bool.false_ne_true, if_pos (by omega), if_neg hpos]

lemma seqLens_set (hn : ∀ r ∈ rs, 0 < r.numLocal c) :
    setIndices (replicate (rs.map (AttentionRequest.numLocal c)).sum.toNat c)
      ((npCumsum (rs.map (·.numLocal c))).map (· - 1)) (rs.map fun r => lastTokens c r.seqLen) =
    grouped rs (·.numLocal c) fun r a => localSeqLen c r.queryLen r.seqLen a := by
  have hfull : replicate (rs.map (AttentionRequest.numLocal c)).sum.toNat c =
      grouped rs (AttentionRequest.numLocal c) fun _ _ => c := by
    rw [← length_grouped (g := fun (_ : AttentionRequest) _ => c) fun r hr => (hn r hr).le,
      eq_comm, eq_replicate_iff]
    refine ⟨rfl, fun x hx => ?_⟩
    rw [grouped_eq_map] at hx
    obtain ⟨y, -, hy⟩ := mem_map.mp hx
    exact hy.symm
  rw [hfull]
  exact setIndices_last hn fun r => lastTokens c r.seqLen

lemma length_localPiece_blocks {row : List BlockId}
    (hrow : row ∈ (localRequests c bs width rs).map (·.blocks)) : row.length = (c.fdiv bs).toNat := by
  unfold localRequests at hrow
  rw [map_grouped, grouped_eq_map] at hrow
  obtain ⟨y, -, rfl⟩ := mem_map.mp hrow
  dsimp only [localPiece]
  rw [length_map, length_npArange]

lemma localStart_nonneg (hc : 0 < c) {r : AttentionRequest} (hq : 0 < r.queryLen)
    (hle : r.queryLen ≤ r.seqLen) {a : ℤ} (ha : 0 ≤ a) : 0 ≤ localStart c r.queryLen r.seqLen a := by
  obtain ⟨k, start, hcut⟩ := cutFacts (s := r.seqLen) hc hq
  have hge := hcut.start_nonneg hc hq hle
  have hmul := Int.mul_nonneg hc.le ha
  rw [hcut.localStart_eq]
  omega

lemma makeLocalAttentionVirtualBatches_of (hm : m.Of rs) (hne : rs ≠ []) (hc : 0 < c)
    (hbs : 0 < bs) (hdvd : bs ∣ c) (hrs : ∀ r ∈ rs, r.Fits bs width) (hwidth : 0 < width)
    (hle : ∀ r ∈ rs, r.queryLen ≤ r.seqLen) : ∃ m', makeLocalAttentionVirtualBatches c m bs = .ok m' ∧
      m'.Of (localRequests c bs width rs) := by
  have hq : ∀ r ∈ rs, 0 < r.queryLen := fun r hr => (hrs r hr).queryLen_pos
  have hn := numLocal_pos hc hq
  have hn0 : ∀ r ∈ rs, 0 ≤ r.numLocal c := fun r hr => (hn r hr).le
  have hpages : 0 ≤ c.fdiv bs := Int.fdiv_nonneg hc.le hbs.le
  have hfirst : zipWith (fun seqLen q => min (c - (seqLen - q).fmod c) q)
      (rs.map (·.seqLen)) (rs.map (·.queryLen)) =
      rs.map fun r => firstTokens c r.queryLen r.seqLen := zipWith_map_map _ _ _ _
  have hlast : (rs.map (·.seqLen)).map (fun seqLen => c + seqLen.fmod (-c)) =
      rs.map fun r => lastTokens c r.seqLen := map_map
  have hblocks : zipWith (fun q first => 1 + cdivInt (q - first) c) (rs.map (·.queryLen))
      (rs.map fun r => firstTokens c r.queryLen r.seqLen) = rs.map (·.numLocal c) :=
    zipWith_map_map _ _ _ _
  have htotal : (npCumsum (rs.map (·.numLocal c))).getLast? = some (rs.map (·.numLocal c)).sum := by
    refine getLast?_npCumsum fun hnil => hne ?_
    exact map_eq_nil_iff.mp hnil
  have hstart : ∀ r ∈ rs, ∀ a, 0 ≤ a → a < r.numLocal c →
      0 ≤ (localStart c r.queryLen r.seqLen a).fdiv bs := fun r hr a ha _ =>
    Int.fdiv_nonneg (localStart_nonneg hc (hq r hr) (hle r hr) ha) hbs.le
  have hhead : (((rs.map (·.blocks)).headD []).length : ℤ) = width := by
    obtain ⟨r, rest, rfl⟩ := exists_cons_of_ne_nil hne
    exact (hrs r mem_cons_self).length_eq
  have htable := blockTable_eq hrs hpages hn hstart hwidth
  rw [map_grouped] at htable
  have hrows : viewRows (c.fdiv bs).toNat (rs.map (AttentionRequest.numLocal c)).sum.toNat
      ((localRequests c bs width rs).map (·.blocks)).flatten = (localRequests c bs width rs).map (·.blocks) := by
    have hlen : (rs.map (AttentionRequest.numLocal c)).sum.toNat =
        ((localRequests c bs width rs).map (·.blocks)).length := by
      rw [length_map, ← length_grouped (g := localPiece c bs width) hn0]
      rfl
    rw [hlen]
    exact viewRows_flatten fun row hrow => length_localPiece_blocks hrow
  unfold makeLocalAttentionVirtualBatches
  simp only [hm.queryLens_eq, hm.seqLens, hm.blockTable, hfirst, hlast, hblocks, htotal,
    ok_bind, arange_grouped hn0, npRepeat_map, zipWith_grouped, zipWith_map_map, map_grouped]
  rw [ensure_of (Int.fmod_eq_zero_of_dvd hdvd), length_map, hhead]
  erw [htable]
  refine ⟨_, rfl, ⟨?_, ?_, ?_⟩⟩
  · dsimp only
    unfold localRequests
    rw [map_grouped, queryLens_set hn]
    rfl
  · dsimp only
    unfold localRequests
    rw [map_grouped, seqLens_set hn]
    rfl
  · exact hrows

end CustomAi.Vllm
