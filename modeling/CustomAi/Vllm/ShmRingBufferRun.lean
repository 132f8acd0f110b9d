import CustomAi.Lib.RingLayout
import CustomAi.Lib.Run
import CustomAi.Vllm.ShmRingBuffer
import Mathlib.Data.Nat.ModEq

/-!
# The chunks of the ring buffer

Which chunks are in the buffer after any calls of `allocate_buf` and `free_buf`, and where.
-/

namespace CustomAi.Vllm

open List ByteMemory RingLayout Except

namespace SingleWriterShmRingBuffer

/-- A chunk as the caller of `allocate_buf` knows it; the size counts the metadata. -/
structure Chunk where
  id : ℕ
  address : ℤ
  size : ℤ

/-- `n` ids from `i` on, modulo `ID_MAX`. -/
def idsFrom (i n : ℕ) : List ℕ := (List.range n).map fun k => (i + k) % idMax

def Headed (B : ℤ) (m : Memory) (c : Chunk) : Prop :=
  read m (c.address % B) idNbytes = intBytes idNbytes c.id ∧
    read m (c.address % B + idNbytes) sizeNbytes = intBytes sizeNbytes c.size

/-- The chunks lie as pieces between the two ends, and the counters and the metadata are theirs. -/
structure Live (s : SingleWriterShmRingBuffer) (chunks : List Chunk) (pieces : List Piece) :
    Prop where
  laid : Laid s.dataBufferSize s.dataBufferStart pieces s.dataBufferEnd
  window : s.dataBufferEnd ≤ s.dataBufferStart + s.dataBufferSize
  places : Forall₂ (fun c p => c.address % s.dataBufferSize = p.position % s.dataBufferSize ∧
    c.size = p.size) chunks pieces
  oldest : ∀ p ∈ pieces.head?, p.position = s.dataBufferStart
  empty : pieces = [] → s.dataBufferStart = 0 ∧ s.dataBufferEnd = 0
  ids : chunks.map Chunk.id = idsFrom s.monotonicIdStart chunks.length
  idEnd : s.monotonicIdEnd = (s.monotonicIdStart + chunks.length) % idMax
  idStart_lt : s.monotonicIdStart < idMax
  length_lt : chunks.length < idMax
  metadata : ∀ id address, s.metadata.get? id = some address ↔ ∃ c ∈ chunks, c.id = id ∧ c.address = address
  sizes : ∀ c ∈ chunks, mdSize < c.size ∧ c.size < 2 ^ 31
  headers : ∀ c ∈ chunks, Headed s.dataBufferSize s.sharedMemory c

lemma idMax_pos : 0 < idMax := by unfold idMax; positivity

variable {m : Memory} {p : Piece} {bufferEnd x : ℤ} (isFreeFn : ℕ → List UInt8 → Bool) (i n : ℕ)

lemma idsFrom_mod : idsFrom (i % idMax) n = idsFrom i n :=
  map_congr_left fun k _ => Nat.mod_add_mod i idMax k

lemma idsFrom_succ : idsFrom i (n + 1) = i % idMax :: idsFrom (i + 1) n := by
  unfold idsFrom
  rw [range_succ_eq_map, map_cons, map_map]
  refine congrArg (cons _) (map_congr_left fun k _ => ?_)
  rw [Function.comp_apply, Nat.succ_eq_add_one, Nat.add_comm k 1, Nat.add_assoc]

lemma idsFrom_concat : idsFrom i (n + 1) = idsFrom i n ++ [(i + n) % idMax] := by
  unfold idsFrom
  rw [range_succ, map_append]
  rfl

lemma idsFrom_take {k n : ℕ} (hk : k ≤ n) : (idsFrom i n).take k = idsFrom i k := by
  unfold idsFrom
  rw [← map_take, take_range, Nat.min_eq_left hk]

lemma nodup_idsFrom {n : ℕ} (hn : n ≤ idMax) : (idsFrom i n).Nodup := by
  refine nodup_range.map_on fun k hk j hj h => ?_
  have hk : k < n := mem_range.mp hk
  have hj : j < n := mem_range.mp hj
  have hmod : Nat.ModEq idMax k j := Nat.ModEq.add_left_cancel' i h
  exact Nat.ModEq.eq_of_lt_of_lt hmod (by omega) (by omega)

lemma idsFrom_add (a b : ℕ) : idsFrom i (a + b) = idsFrom i a ++ idsFrom (i + a) b := by
  induction b with
  | zero => exact (append_nil _).symm
  | succ b ih =>
    rw [← Nat.add_assoc, idsFrom_concat, idsFrom_concat, ih, append_assoc, Nat.add_assoc]

lemma idsFrom_eq_range' {i n : ℕ} (h : i + n ≤ idMax) : idsFrom i n = range' i n := by
  rw [range'_eq_map_range]
  refine map_congr_left fun k hk => ?_
  have hk : k < n := mem_range.mp hk
  exact Nat.mod_eq_of_lt (by omega)

lemma idRange_eq {i k : ℕ} (hi : i < idMax) (hk : k < idMax) : idRange i ((i + k) % idMax) = idsFrom i k := by
  unfold idRange
  rcases Nat.lt_or_ge (i + k) idMax with hlt | hge
  · rw [Nat.mod_eq_of_lt hlt, if_pos (Nat.le_add_right i k), Nat.add_sub_cancel_left, idsFrom_eq_range' hlt.le]
  · have hmod : (i + k) % idMax = i + k - idMax := by
      rw [Nat.mod_eq_sub_mod hge, Nat.mod_eq_of_lt (by omega)]
    have hsplit : k = (idMax - i) + (i + k - idMax) := by omega
    have hwrapped : idsFrom (i + (idMax - i)) (i + k - idMax) = range (i + k - idMax) := by
      rw [Nat.add_sub_cancel' hi.le, ← idsFrom_mod, Nat.mod_self, idsFrom_eq_range' (by omega), range_eq_range']
    rw [hmod, if_neg (by omega), ← idsFrom_eq_range' (by omega), ← hwrapped, ← idsFrom_add, ← hsplit]

variable {s : SingleWriterShmRingBuffer} {chunks : List Chunk} {pieces : List Piece} {c : Chunk}

variable {q : Piece} {bytes : List UInt8}

lemma Headed.write {B : ℤ} (h : Headed B m c) (hplace : c.address % B = p.position % B)
    (hsize : mdSize ≤ p.size) (hapart : Apart B p q) {i : ℤ} (hlow : q.position % B ≤ i)
    (hhigh : i + bytes.length ≤ q.position % B + q.size) : Headed B (ByteMemory.write m i bytes) c := by
  have hmd : mdSize = (idNbytes : ℤ) + sizeNbytes := rfl
  unfold Headed at h ⊢
  rcases hapart with hafter | hbefore
  · rw [read_write_of_disjoint m (.inl (by omega)), read_write_of_disjoint m (.inl (by omega))]
    exact h
  · rw [read_write_of_disjoint m (.inr (by omega)), read_write_of_disjoint m (.inr (by omega))]
    exact h

/-- The piece lies behind the others, whole, with room. -/
structure Fits (s : SingleWriterShmRingBuffer) (q : Piece) : Prop where
  size : mdSize < q.size
  after : s.dataBufferEnd ≤ q.position
  whole : q.position % s.dataBufferSize + q.size ≤ s.dataBufferSize
  room : q.position + q.size ≤ s.dataBufferStart + s.dataBufferSize

lemma mdSize_eq : mdSize = 8 := rfl

section

variable (h : Live s chunks pieces)
include h

lemma Live.apart (hq : Fits s q) (hp : p ∈ pieces) : Apart s.dataBufferSize p q := by
  obtain ⟨hlow, hsize, hhigh, -⟩ := h.laid.mem hp
  have hqsize := hq.size
  have hroom := hq.room
  have hafter := hq.after
  rw [mdSize_eq] at hqsize
  exact apart_of_le s.size_pos (by omega) (by omega) (by omega) hsize

lemma Live.exists_piece (hc : c ∈ chunks) : ∃ p ∈ pieces,
    c.address % s.dataBufferSize = p.position % s.dataBufferSize ∧ c.size = p.size := by
  obtain ⟨i, hi, rfl⟩ := getElem_of_mem hc
  have hlength := h.places.length_eq
  exact ⟨pieces[i], getElem_mem _, Forall₂.get h.places hi (by omega)⟩

lemma Live.headers_write (hq : Fits s q) (hm : ∀ c ∈ chunks, Headed s.dataBufferSize m c) {i : ℤ}
    (hlow : q.position % s.dataBufferSize ≤ i) (hhigh : i + bytes.length ≤ q.position % s.dataBufferSize + q.size) :
    ∀ c ∈ chunks, Headed s.dataBufferSize (ByteMemory.write m i bytes) c := by
  intro c hc
  obtain ⟨p, hp, hplace, hsize⟩ := h.exists_piece hc
  have hmd := (h.sizes c hc).1
  exact (hm c hc).write hplace (by omega) (h.apart hq hp) hlow hhigh

lemma Live.reserve (hq : Fits s q) (hempty : pieces = [] → q.position = 0) {i : ℤ}
    (hlow : q.position % s.dataBufferSize ≤ i) (hhigh : i + bytes.length ≤ q.position % s.dataBufferSize + q.size) :
    Live { s with
      dataBufferEnd := q.position
      sharedMemory := ByteMemory.write s.sharedMemory i bytes } chunks pieces := by
  have hroom := hq.room
  exact { h with
    laid := h.laid.mono hq.after
    window := by
      dsimp only
      omega
    empty := fun hnil => ⟨(h.empty hnil).1, hempty hnil⟩
    headers := h.headers_write hq h.headers hlow hhigh }

lemma Live.append (hq : Fits s q)
    (hempty : pieces = [] → q.position = 0) (hlength : chunks.length + 1 < idMax) (hfits : q.size < 2 ^ 31) :
    Live { s with
      dataBufferEnd := q.position + q.size
      monotonicIdEnd := (s.monotonicIdEnd + 1) % idMax
      metadata := s.metadata.set (s.monotonicIdEnd % idMax) q.position
      sharedMemory := ByteMemory.write (ByteMemory.write s.sharedMemory
        (q.position % s.dataBufferSize) (intBytes idNbytes s.monotonicIdEnd))
        (q.position % s.dataBufferSize + idNbytes) (intBytes sizeNbytes q.size) }
      (chunks ++ [⟨s.monotonicIdEnd, q.position, q.size⟩]) (pieces ++ [q]) := by
  have hsize := hq.size
  have hmd : mdSize = (idNbytes : ℤ) + sizeNbytes := rfl
  have hid : s.monotonicIdEnd % idMax = s.monotonicIdEnd := by
    rw [h.idEnd, Nat.mod_mod]
  have hnew : ∀ c ∈ chunks, c.id ≠ s.monotonicIdEnd := by
    intro c hc heq
    have hnodup := nodup_idsFrom s.monotonicIdStart hlength.le
    rw [idsFrom_concat, ← h.ids, ← h.idEnd, nodup_append] at hnodup
    exact hnodup.2.2 c.id (mem_map_of_mem hc) _ mem_cons_self heq
  refine ⟨?_, ?_, ?_, ?_, ?_, ?_, ?_, h.idStart_lt, ?_, ?_, ?_, ?_⟩
  · exact h.laid.append hq.after (by omega) hq.whole le_rfl
  · exact hq.room
  · exact rel_append h.places (.cons ⟨rfl, rfl⟩ .nil)
  · intro p hp
    cases pieces with
    | nil =>
      obtain rfl : q = p := Option.some.inj hp
      rw [hempty rfl, (h.empty rfl).1]
    | cons p0 rest => exact h.oldest p hp
  · intro hnil
    exact absurd hnil (append_ne_nil_of_right_ne_nil _ (cons_ne_nil _ _))
  · rw [map_append, length_append, length_singleton, idsFrom_concat, h.ids]
    exact congrArg _ (congrArg (fun i => [i]) h.idEnd)
  · rw [length_append, length_singleton, h.idEnd]
    change ((s.monotonicIdStart + chunks.length) % idMax + 1) % idMax = _
    rw [Nat.mod_add_mod, Nat.add_assoc]
  · rw [length_append]
    exact hlength
  · intro id address
    rw [hid, Dict.get?_set]
    split
    · rename_i hlast
      rw [Option.some.injEq]
      refine ⟨fun hpos => ⟨_, mem_append_right _ mem_cons_self, hlast.symm, hpos⟩, ?_⟩
      rintro ⟨c, hc, hcid, hcaddr⟩
      rcases mem_append.mp hc with hc | hc
      · exact absurd (hcid.trans hlast) (hnew c hc)
      · obtain rfl := mem_singleton.mp hc
        exact hcaddr
    · rename_i hlast
      rw [h.metadata]
      refine ⟨fun ⟨c, hc, hcid⟩ => ⟨c, mem_append_left _ hc, hcid⟩, ?_⟩
      rintro ⟨c, hc, hcid, hcaddr⟩
      rcases mem_append.mp hc with hc | hc
      · exact ⟨c, hc, hcid, hcaddr⟩
      · obtain rfl := mem_singleton.mp hc
        exact absurd hcid.symm hlast
  · intro c hc
    rcases mem_append.mp hc with hc | hc
    · exact h.sizes c hc
    · obtain rfl := mem_singleton.mp hc
      exact ⟨hsize, hfits⟩
  · intro c hc
    rcases mem_append.mp hc with hc | hc
    · exact h.headers_write hq (h.headers_write hq h.headers le_rfl (by
        rw [length_intBytes]
        omega)) (by omega) (by
        rw [length_intBytes]
        omega) c hc
    · obtain rfl := mem_singleton.mp hc
      refine ⟨?_, read_write _ _ _ (length_intBytes _ _)⟩
      rw [read_write_of_disjoint _ (.inl le_rfl)]
      exact read_write _ _ _ (length_intBytes _ _)

end

variable {size : ℤ}

lemma fits_bufferEndReset (hle : s.dataBufferStart ≤ s.dataBufferEnd) (hsize : mdSize < size)
    (hroom : s.bufferEndReset size + size - s.dataBufferStart ≤ s.dataBufferSize) :
    Fits s ⟨s.bufferEndReset size, size⟩ := by
  have hpos := s.size_pos
  have hlt := Int.emod_lt_of_pos s.dataBufferEnd hpos
  have hdiv := Int.mul_ediv_add_emod s.dataBufferEnd s.dataBufferSize
  refine ⟨hsize, ?_, ?_, by dsimp only; omega⟩
  · unfold bufferEndReset
    split
    · rw [Int.add_mul, Int.mul_comm]
      dsimp only
      omega
    · exact le_rfl
  · dsimp only
    unfold bufferEndReset at hroom ⊢
    split at hroom
    · rename_i hwrap
      rw [if_pos hwrap, Int.mul_emod_left]
      rw [Int.add_mul, Int.mul_comm] at hroom
      omega
    · rename_i hwhole
      rw [if_neg hwhole]
      exact Int.not_lt.mp hwhole

lemma bufferEndReset_of_empty (hstart : s.dataBufferStart = 0) (hend : s.dataBufferEnd = 0) (hsize : 0 < size)
    (hroom : s.bufferEndReset size + size - s.dataBufferStart ≤ s.dataBufferSize) : s.bufferEndReset size = 0 := by
  unfold bufferEndReset at hroom ⊢
  rw [hend, Int.zero_ediv] at hroom ⊢
  split
  · omega
  · rfl

lemma int2byte_of_lt (hx : 0 ≤ x) (hlt : x < 2 ^ 31) : int2byte x = .ok (intBytes idNbytes x) :=
  if_neg (not_or.mpr ⟨not_lt.mpr (le_trans (by norm_num) hx), not_le.mpr hlt⟩)

lemma int2byte_id {id : ℕ} (hid : id < idMax) : int2byte id = .ok (intBytes idNbytes id) :=
  int2byte_of_lt (Int.natCast_nonneg id) (by exact_mod_cast hid)

lemma writeChunk_of_lt (hid : s.monotonicIdEnd < idMax) (hpos : 0 ≤ size) (hlt : size < 2 ^ 31) :
    s.writeChunk bufferEnd size = (.ok (bufferEnd, s.monotonicIdEnd), { s with
      sharedMemory := ByteMemory.write (ByteMemory.write s.sharedMemory
        (bufferEnd % s.dataBufferSize) (intBytes idNbytes s.monotonicIdEnd))
        (bufferEnd % s.dataBufferSize + idNbytes) (intBytes sizeNbytes size)
      metadata := s.metadata.set (s.monotonicIdEnd % idMax) bufferEnd
      dataBufferEnd := bufferEnd + size
      monotonicIdEnd := (s.monotonicIdEnd + 1) % idMax }) := by
  rw [writeChunk, int2byte_id hid, int2byte_of_lt hpos hlt]
  rfl

lemma writeChunk_of_le (hid : s.monotonicIdEnd < idMax) (hle : 2 ^ 31 ≤ size) :
    s.writeChunk bufferEnd size = (.error .overflowError, { s with
      dataBufferEnd := bufferEnd
      sharedMemory := ByteMemory.write s.sharedMemory (bufferEnd % s.dataBufferSize)
        (intBytes idNbytes s.monotonicIdEnd) }) := by
  rw [writeChunk, int2byte_id hid, int2byte, if_pos (.inr hle)]

lemma eq_overflowError {e : RingBufferError} (h : int2byte x = .error e) : e = .overflowError := by
  unfold int2byte at h
  split at h
  · exact (Except.error.inj h).symm
  · cases h

lemma allocateBuf_memoryError {message : String} {s' : SingleWriterShmRingBuffer}
    (h : s.allocateBuf size = (.error (.memoryError message), s')) : s' = s := by
  unfold allocateBuf at h
  split at h
  · exact (Prod.mk.inj h).2.symm
  · split at h
    · exact (Prod.mk.inj h).2.symm
    · unfold writeChunk at h
      split at h
      · rename_i herr
        cases (eq_overflowError herr).symm.trans (Except.error.inj (Prod.mk.inj h).1)
      · split at h
        · rename_i herr
          cases (eq_overflowError herr).symm.trans (Except.error.inj (Prod.mk.inj h).1)
        · cases (Prod.mk.inj h).1

lemma allocateBuf_dataBufferSize (s : SingleWriterShmRingBuffer) (size : ℤ) :
    (s.allocateBuf size).2.dataBufferSize = s.dataBufferSize := by
  unfold allocateBuf
  split
  · rfl
  · split
    · rfl
    · unfold writeChunk
      split
      · rfl
      · split <;> rfl

lemma allocateBuf_empty (hstart : s.dataBufferStart = 0) (hend : s.dataBufferEnd = 0)
    (hsize : 0 < size) (hfits : size + mdSize ≤ s.dataBufferSize) :
    s.allocateBuf size = s.writeChunk 0 (size + mdSize) := by
  have hreset : s.bufferEndReset (size + mdSize) = 0 := by
    unfold bufferEndReset
    rw [hend, Int.zero_emod, if_neg (by omega)]
  unfold allocateBuf
  rw [if_neg (by omega), hreset, if_neg (by omega)]

lemma Live.idEnd_lt (h : Live s chunks pieces) : s.monotonicIdEnd < idMax := by
  rw [h.idEnd]
  exact Nat.mod_lt _ idMax_pos

lemma Live.allocateBuf_of_empty (h : Live s [] pieces) (hsize : 0 < size)
    (hfits : size + mdSize ≤ s.dataBufferSize) (hlt : size + mdSize < 2 ^ 31) :
    ∃ address id s', s.allocateBuf size = (.ok (address, id), s') := by
  have hnil : pieces = [] := by
    cases h.places
    rfl
  obtain ⟨hstart, hend⟩ := h.empty hnil
  exact ⟨_, _, _, (allocateBuf_empty hstart hend hsize hfits).trans
    (writeChunk_of_lt h.idEnd_lt (by rw [mdSize_eq]; omega) hlt)⟩

/-- `allocate_buf` refuses, or the size has more than four bytes, or the chunk is at the end. -/
theorem Live.allocateBuf (h : Live s chunks pieces)
    (hlength : ∀ p s', s.allocateBuf size = (.ok p, s') → chunks.length + 1 < idMax) :
    (∃ e, e ≠ .overflowError ∧ s.allocateBuf size = (.error e, s)) ∨
    (∃ s', s.allocateBuf size = (.error .overflowError, s') ∧ Live s' chunks pieces) ∨
    ∃ s' q, s.allocateBuf size = (.ok (q.position, s.monotonicIdEnd), s') ∧ q.size = size + mdSize ∧
      Live s' (chunks ++ [⟨s.monotonicIdEnd, q.position, q.size⟩]) (pieces ++ [q]) := by
  unfold SingleWriterShmRingBuffer.allocateBuf at hlength ⊢
  split
  · exact .inl ⟨_, by simp, rfl⟩
  rename_i hsize
  rw [if_neg hsize] at hlength
  split
  · exact .inl ⟨_, by simp, rfl⟩
  rename_i hroom
  rw [if_neg hroom] at hlength
  have hq := fits_bufferEndReset h.laid.le (by omega) (not_lt.mp hroom)
  have hempty : pieces = [] → s.bufferEndReset (size + mdSize) = 0 := fun hnil =>
    bufferEndReset_of_empty (h.empty hnil).1 (h.empty hnil).2 (by rw [mdSize_eq]; omega)
      (not_lt.mp hroom)
  have hid := h.idEnd_lt
  have hsizes : 0 ≤ size + mdSize := by
    rw [mdSize_eq]
    omega
  rcases lt_or_ge (size + mdSize) (2 ^ 31) with hfits | hlarge
  · rw [writeChunk_of_lt hid hsizes hfits] at hlength ⊢
    exact .inr (.inr ⟨_, ⟨_, _⟩, rfl, rfl, h.append hq hempty (hlength _ _ rfl) hfits⟩)
  · rw [writeChunk_of_le hid hlarge]
    refine .inr (.inl ⟨_, rfl, h.reserve hq hempty le_rfl ?_⟩)
    have hmd := hq.size
    rw [length_intBytes]
    dsimp only at hmd ⊢
    unfold idNbytes
    omega

lemma Live.head_id (h : Live s (c :: chunks) pieces) : c.id = s.monotonicIdStart := by
  have hids := h.ids
  rw [length_cons, idsFrom_succ, Nat.mod_eq_of_lt h.idStart_lt] at hids
  exact (cons.inj hids).1

lemma Live.nodup_ids (h : Live s chunks pieces) : (chunks.map Chunk.id).Nodup :=
  h.ids ▸ nodup_idsFrom _ h.length_lt.le

lemma Live.get?_start (h : Live s chunks pieces) :
    s.metadata.get? s.monotonicIdStart = chunks.head?.map Chunk.address := by
  cases chunks with
  | nil =>
    rw [head?_nil, Option.map_none, Option.eq_none_iff_forall_ne_some]
    intro address haddress
    obtain ⟨c, hc, -⟩ := (h.metadata _ _).mp haddress
    cases hc
  | cons c rest => exact (h.metadata _ _).mpr ⟨c, mem_cons_self, h.head_id, rfl⟩

lemma Live.contains_iff (h : Live s chunks pieces) (id : ℕ) :
    s.metadata.contains id = true ↔ id ∈ chunks.map Chunk.id := by
  rw [Dict.contains, Option.isSome_iff_exists, mem_map]
  constructor
  · rintro ⟨address, haddress⟩
    obtain ⟨c, hc, hid, -⟩ := (h.metadata id address).mp haddress
    exact ⟨c, hc, hid⟩
  · rintro ⟨c, hc, hid⟩
    exact ⟨c.address, (h.metadata id c.address).mpr ⟨c, hc, hid, rfl⟩⟩

lemma removeOldest_of_none
    (h : (s.metadata.erase s.monotonicIdStart).get? ((s.monotonicIdStart + 1) % idMax) = none) :
    s.removeOldest = { s with
      metadata := s.metadata.erase s.monotonicIdStart
      monotonicIdStart := (s.monotonicIdStart + 1) % idMax
      dataBufferStart := 0
      dataBufferEnd := 0 } := by
  rw [removeOldest, h]

lemma removeOldest_of_some {next : ℤ}
    (h : (s.metadata.erase s.monotonicIdStart).get? ((s.monotonicIdStart + 1) % idMax) =
      some next) : s.removeOldest = { s with
      metadata := s.metadata.erase s.monotonicIdStart
      monotonicIdStart := (s.monotonicIdStart + 1) % idMax
      dataBufferStart := s.dataBufferStart + (next - s.dataBufferStart) % s.dataBufferSize } := by
  rw [removeOldest, h]

lemma removeOldest_monotonicIdStart (s : SingleWriterShmRingBuffer) :
    s.removeOldest.monotonicIdStart = (s.monotonicIdStart + 1) % idMax := by
  rw [removeOldest]
  split <;> rfl

lemma removeOldest_dataBufferSize (s : SingleWriterShmRingBuffer) :
    s.removeOldest.dataBufferSize = s.dataBufferSize := by
  rw [removeOldest]
  split <;> rfl

lemma Live.removeOldest (h : Live s (c :: chunks) (p :: pieces)) : Live s.removeOldest chunks pieces := by
  have hpos := s.size_pos
  obtain ⟨⟨-, -⟩, hplaces⟩ := forall₂_cons.mp h.places
  have hid := h.head_id
  have hnodup := h.nodup_ids
  rw [map_cons, nodup_cons] at hnodup
  obtain ⟨hlo, hsize, -, hlaid⟩ := h.laid
  have hids : chunks.map Chunk.id = idsFrom ((s.monotonicIdStart + 1) % idMax) chunks.length := by
    have hall := h.ids
    rw [length_cons, idsFrom_succ] at hall
    rw [(cons.inj hall).2, idsFrom_mod]
  have hend : s.monotonicIdEnd = ((s.monotonicIdStart + 1) % idMax + chunks.length) % idMax := by
    rw [h.idEnd, length_cons, Nat.mod_add_mod, Nat.add_assoc, Nat.add_comm 1]
  have hlength : chunks.length < idMax := by
    have := h.length_lt
    rw [length_cons] at this
    omega
  have hmetadata : ∀ id address, (s.metadata.erase s.monotonicIdStart).get? id = some address ↔
      ∃ c ∈ chunks, c.id = id ∧ c.address = address := by
    intro id address
    rw [Dict.get?_erase]
    split
    · rename_i hfirst
      refine ⟨nofun, ?_⟩
      rintro ⟨d, hd, rfl, -⟩
      exact absurd (mem_map.mpr ⟨d, hd, hfirst.trans hid.symm⟩) hnodup.1
    · rename_i hfirst
      rw [h.metadata]
      refine ⟨?_, fun ⟨d, hd, hdid⟩ => ⟨d, mem_cons_of_mem c hd, hdid⟩⟩
      rintro ⟨d, hd, hdid, haddress⟩
      rcases mem_cons.mp hd with rfl | hd
      · exact absurd (hdid.symm.trans hid) hfirst
      · exact ⟨d, hd, hdid, haddress⟩
  have hsizes : ∀ d ∈ chunks, mdSize < d.size ∧ d.size < 2 ^ 31 := fun d hd =>
    h.sizes d (mem_cons_of_mem c hd)
  have hheaders : ∀ d ∈ chunks, Headed s.dataBufferSize s.sharedMemory d := fun d hd =>
    h.headers d (mem_cons_of_mem c hd)
  have hlt : (s.monotonicIdStart + 1) % idMax < idMax := Nat.mod_lt _ idMax_pos
  cases hplaces with
  | nil =>
    rw [removeOldest_of_none (Option.eq_none_iff_forall_ne_some.mpr fun address haddress => by
      obtain ⟨d, hd, -⟩ := (hmetadata _ _).mp haddress
      cases hd)]
    refine ⟨le_rfl, ?_, .nil, nofun, fun _ => ⟨rfl, rfl⟩, hids, hend, hlt, hlength, hmetadata, hsizes, hheaders⟩
    dsimp only
    omega
  | @cons d q rest pieces' hplace hrest =>
    have hnext : (s.metadata.erase s.monotonicIdStart).get? ((s.monotonicIdStart + 1) % idMax) =
        some d.address := by
      refine (hmetadata _ _).mpr ⟨d, mem_cons_self, ?_, rfl⟩
      rw [length_cons, idsFrom_succ, Nat.mod_mod] at hids
      exact (cons.inj hids).1
    obtain ⟨hqlo, hqsize, hqfit, hqlaid⟩ := hlaid
    have hqend := hqlaid.le
    have hwindow := h.window
    -- the oldest chunk that is left lies less than one buffer behind the old start
    have hstart : s.dataBufferStart + (d.address - s.dataBufferStart) % s.dataBufferSize = q.position := by
      rw [Int.sub_emod, hplace.1, ← Int.sub_emod, Int.emod_eq_of_lt (by omega) (by omega)]
      omega
    rw [removeOldest_of_some hnext, hstart]
    refine ⟨⟨le_rfl, hqsize, hqfit, hqlaid⟩, ?_, .cons hplace hrest, ?_, ?_, hids, hend, hlt,
      hlength, hmetadata, hsizes, hheaders⟩
    · dsimp only
      omega
    · intro q' hq'
      rw [← Option.some.inj hq']
    · intro hnil
      cases hnil

lemma freeLoop_succ (s : SingleWriterShmRingBuffer) (isFreeFn : ℕ → List UInt8 → Bool)
    (nbytes : ℤ) (fuel : ℕ) (freedBytes : ℤ) : freeLoop isFreeFn nbytes (fuel + 1) freedBytes s = s ∨
      ∃ address, s.metadata.get? s.monotonicIdStart = some address ∧
        freeLoop isFreeFn nbytes (fuel + 1) freedBytes s =
          freeLoop isFreeFn nbytes fuel (freedBytes + (s.accessBuf address).2.2) s.removeOldest := by
  rw [freeLoop]
  cases hget : s.metadata.get? s.monotonicIdStart with
  | none => exact .inl rfl
  | some address =>
    dsimp only
    split
    · split
      · exact .inr ⟨address, rfl, rfl⟩
      · exact .inl rfl
    · exact .inl rfl

lemma removeOldest_length {address : ℤ} (h : s.metadata.get? s.monotonicIdStart = some address) :
    s.removeOldest.metadata.entries.length < s.metadata.entries.length := by
  have hentries : s.removeOldest.metadata = s.metadata.erase s.monotonicIdStart := by
    rw [removeOldest]
    split <;> rfl
  rw [hentries]
  refine length_filter_lt_length_iff_exists.mpr ⟨_, (Dict.mem_entries_iff _ _ _).mpr h, by simp⟩

theorem freeLoop_fuel (nbytes : ℤ) {fuel : ℕ} (freedBytes : ℤ)
    (h : s.metadata.entries.length ≤ fuel) : freeLoop isFreeFn nbytes (fuel + 1) freedBytes s =
      freeLoop isFreeFn nbytes fuel freedBytes s := by
  induction fuel generalizing s freedBytes with
  | zero =>
    rcases freeLoop_succ s isFreeFn nbytes 0 freedBytes with hstop | ⟨address, hget, -⟩
    · exact hstop
    · have := removeOldest_length hget
      omega
  | succ fuel ih =>
    rw [freeLoop, freeLoop]
    cases hget : s.metadata.get? s.monotonicIdStart with
    | none => rfl
    | some address =>
      have hless := removeOldest_length hget
      dsimp only
      rw [ih _ (by omega)]

lemma Live.freeLoop (h : Live s chunks pieces) (isFreeFn : ℕ → List UInt8 → Bool) (nbytes : ℤ)
    (fuel : ℕ) (freedBytes : ℤ) : ∃ s' k,
      SingleWriterShmRingBuffer.freeLoop isFreeFn nbytes fuel freedBytes s = s' ∧
      k ≤ chunks.length ∧ Live s' (chunks.drop k) (pieces.drop k) ∧
      s'.monotonicIdStart = (s.monotonicIdStart + k) % idMax ∧ s'.dataBufferSize = s.dataBufferSize := by
  induction fuel generalizing s chunks pieces freedBytes with
  | zero =>
    exact ⟨s, 0, rfl, Nat.zero_le _, h, (Nat.mod_eq_of_lt h.idStart_lt).symm, rfl⟩
  | succ fuel ih =>
    rcases freeLoop_succ s isFreeFn nbytes fuel freedBytes with hstop | ⟨address, hget, hgo⟩
    · exact ⟨s, 0, hstop, Nat.zero_le _, h, (Nat.mod_eq_of_lt h.idStart_lt).symm, rfl⟩
    · have hfirst := h.get?_start
      rw [hget] at hfirst
      have hplaces := h.places
      cases chunks with
      | nil => cases hfirst
      | cons c rest =>
        cases pieces with
        | nil => cases hplaces
        | cons p pieces' =>
          obtain ⟨s', k, hs', hk, hlive, hid, hsize⟩ := ih h.removeOldest
            (freedBytes + (s.accessBuf address).2.2)
          refine ⟨s', k + 1, hgo.trans hs', Nat.succ_le_succ hk, hlive, ?_, hsize.trans ?_⟩
          · rw [hid, removeOldest_monotonicIdStart, Nat.mod_add_mod, Nat.add_assoc, Nat.add_comm 1 k]
          · exact removeOldest_dataBufferSize s

lemma Live.shift (h : Live s chunks pieces) (hwrap : s.dataBufferStart ≥ s.dataBufferSize) :
    Live { s with
      dataBufferStart := s.dataBufferStart - s.dataBufferSize
      dataBufferEnd := s.dataBufferEnd - s.dataBufferSize } chunks
      (pieces.map fun p => { p with position := p.position - s.dataBufferSize }) := by
  have hpos := s.size_pos
  have hwindow := h.window
  exact { h with
    laid := h.laid.shift
    window := by
      dsimp only
      omega
    places := forall₂_map_right_iff.mpr (h.places.imp fun c p hp => by
      rw [Int.sub_emod_right]
      exact hp)
    oldest := by
      intro p hp
      rw [head?_map] at hp
      obtain ⟨q, hq, rfl⟩ := Option.map_eq_some_iff.mp hp
      have := h.oldest q hq
      dsimp only
      omega
    empty := by
      intro hnil
      have hstart := (h.empty (map_eq_nil_iff.mp hnil)).1
      omega }

lemma freeLoop_dataBufferSize (nbytes : ℤ) (fuel : ℕ) (freedBytes : ℤ) (s : SingleWriterShmRingBuffer) :
    (freeLoop isFreeFn nbytes fuel freedBytes s).dataBufferSize = s.dataBufferSize := by
  induction fuel generalizing s freedBytes with
  | zero => rfl
  | succ fuel ih =>
    rcases freeLoop_succ s isFreeFn nbytes fuel freedBytes with hstop | ⟨address, -, hgo⟩
    · rw [hstop]
    · rw [hgo, ih, removeOldest_dataBufferSize]

lemma freeBuf_dataBufferSize (s : SingleWriterShmRingBuffer)
    (isFreeFn : ℕ → List UInt8 → Bool) (nbytes : Option ℤ) :
    (s.freeBuf isFreeFn nbytes).2.dataBufferSize = s.dataBufferSize := by
  unfold freeBuf
  dsimp only
  split <;> exact freeLoop_dataBufferSize isFreeFn _ _ _ s

lemma Live.freeBuf (h : Live s chunks pieces) (isFreeFn : ℕ → List UInt8 → Bool)
    (nbytes : Option ℤ) : ∃ s' k pieces', s.freeBuf isFreeFn nbytes =
      ((chunks.take k).map Chunk.id, s') ∧ Live s' (chunks.drop k) pieces' := by
  obtain ⟨s', k, hs', hk, hlive, hid, -⟩ := h.freeLoop isFreeFn
    (nbytes.getD s.dataBufferSize) s.metadata.entries.length 0
  have hids : idRange s.monotonicIdStart s'.monotonicIdStart = (chunks.take k).map Chunk.id := by
    have hlength := h.length_lt
    rw [hid, idRange_eq h.idStart_lt (by omega), map_take, h.ids, idsFrom_take _ hk]
  unfold SingleWriterShmRingBuffer.freeBuf
  dsimp only
  rw [hs']
  split
  · rename_i hwrap
    exact ⟨_, k, _, congrArg (fun ids => (ids, _)) hids, hlive.shift hwrap⟩
  · exact ⟨_, k, _, congrArg (fun ids => (ids, _)) hids, hlive⟩

end SingleWriterShmRingBuffer

open SingleWriterShmRingBuffer

inductive RingOp
  | allocate (size : ℤ)
  | free (isFreeFn : ℕ → List UInt8 → Bool) (nbytes : Option ℤ)

structure RingRun where
  buffer : SingleWriterShmRingBuffer
  chunks : List Chunk

namespace RingRun

def start (dataBufferSize : ℤ) (hpos : 0 < dataBufferSize) : RingRun where
  buffer := { dataBufferSize := dataBufferSize, size_pos := hpos }
  chunks := []

def call (r : RingRun) : RingOp → Except RingBufferError RingRun
  | .allocate size =>
    match r.buffer.allocateBuf size with
    | (.ok (address, id), buffer) => .ok ⟨buffer, r.chunks ++ [⟨id, address, size + mdSize⟩]⟩
    | (.error _, buffer) => .ok ⟨buffer, r.chunks⟩
  | .free isFreeFn nbytes =>
    let (ids, buffer) := r.buffer.freeBuf isFreeFn nbytes
    .ok ⟨buffer, r.chunks.filter fun c => c.id ∉ ids⟩

/-- There is an id for the chunk. -/
def HasId (r : RingRun) : RingOp → Prop
  | .allocate size => ∀ p buffer, r.buffer.allocateBuf size = (.ok p, buffer) → r.chunks.length + 1 < idMax
  | .free _ _ => True

def Disjoint (B : ℤ) (c d : Chunk) : Prop :=
  c.address % B + c.size ≤ d.address % B ∨ d.address % B + d.size ≤ c.address % B

/-- The metadata list the chunks under consecutive ids; the chunks lie in the buffer, whole and
apart. -/
structure Sound (r : RingRun) : Prop where
  metadata : ∀ id address, r.buffer.metadata.get? id = some address ↔
    ∃ c ∈ r.chunks, c.id = id ∧ c.address = address
  ids : r.chunks.map Chunk.id = idsFrom r.buffer.monotonicIdStart r.chunks.length
  idEnd : r.buffer.monotonicIdEnd = (r.buffer.monotonicIdStart + r.chunks.length) % idMax
  inside : ∀ c ∈ r.chunks, mdSize < c.size ∧ 0 ≤ c.address % r.buffer.dataBufferSize ∧
    c.address % r.buffer.dataBufferSize + c.size ≤ r.buffer.dataBufferSize
  disjoint : r.chunks.Pairwise (Disjoint r.buffer.dataBufferSize)
  headers : ∀ c ∈ r.chunks, (r.buffer.accessBuf c.address).2 = ((c.id : ℤ), c.size)
  oldest : ∀ c ∈ r.chunks.head?, r.buffer.dataBufferStart % r.buffer.dataBufferSize =
    c.address % r.buffer.dataBufferSize
  window : r.buffer.dataBufferEnd - r.buffer.dataBufferStart ≤ r.buffer.dataBufferSize

def Kept (dataBufferSize : ℤ) (r : RingRun) : Prop :=
  r.buffer.dataBufferSize = dataBufferSize ∧ ∃ pieces, Live r.buffer r.chunks pieces

lemma kept_start (dataBufferSize : ℤ) (hpos : 0 < dataBufferSize) :
    Kept dataBufferSize (start dataBufferSize hpos) := by
  refine ⟨rfl, [], ⟨le_rfl, ?_, .nil, nofun, fun _ => ⟨rfl, rfl⟩, rfl, rfl, idMax_pos, idMax_pos, ?_, nofun, nofun⟩⟩
  · exact hpos.le.trans (zero_add _).ge
  · intro id address
    exact ⟨nofun, nofun⟩

lemma filter_not_freed {chunks : List Chunk} (h : (chunks.map Chunk.id).Nodup) (k : ℕ) :
    (chunks.filter fun c => c.id ∉ (chunks.take k).map Chunk.id) = chunks.drop k := by
  have hnodup : ((chunks.take k).map Chunk.id ++ (chunks.drop k).map Chunk.id).Nodup := by
    rw [← map_append, take_append_drop]
    exact h
  have hfreed : ((chunks.take k).filter fun c => c.id ∉ (chunks.take k).map Chunk.id) = [] :=
    filter_eq_nil_iff.mpr fun c hc hnot =>
      of_decide_eq_true hnot (mem_map_of_mem hc)
  have hleft : ((chunks.drop k).filter fun c => c.id ∉ (chunks.take k).map Chunk.id) =
      chunks.drop k := filter_eq_self.mpr fun c hc => decide_eq_true fun hmem =>
    (nodup_append.mp hnodup).2.2 c.id hmem c.id (mem_map_of_mem hc) rfl
  have hsplit : ∀ f : Chunk → Bool, chunks.filter f =
      (chunks.take k).filter f ++ (chunks.drop k).filter f := fun f => by
    rw [← filter_append, take_append_drop]
  rw [hsplit, hfreed, hleft, nil_append]

variable {r : RingRun}

variable {op : RingOp} {r' : RingRun} {n : ℕ} {B : ℤ}

lemma call_dataBufferSize (hr : r.call op = .ok r') : r'.buffer.dataBufferSize = r.buffer.dataBufferSize := by
  cases op with
  | allocate size =>
    have hsize := allocateBuf_dataBufferSize r.buffer size
    unfold RingRun.call at hr
    dsimp only at hr
    split at hr
    · rename_i hcall
      obtain rfl := ok.inj hr
      rw [hcall] at hsize
      exact hsize
    · rename_i hcall
      obtain rfl := ok.inj hr
      rw [hcall] at hsize
      exact hsize
  | free isFreeFn nbytes =>
    obtain rfl := ok.inj hr
    exact freeBuf_dataBufferSize r.buffer isFreeFn nbytes

lemma call_allocate {size address : ℤ} {id : ℕ} {buffer : SingleWriterShmRingBuffer}
    (h : r.buffer.allocateBuf size = (.ok (address, id), buffer)) :
    r.call (.allocate size) = .ok ⟨buffer, r.chunks ++ [⟨id, address, size + mdSize⟩]⟩ := by
  unfold RingRun.call
  dsimp only
  rw [h]

lemma Kept.call (h : Kept B r) (hop : r.HasId op) (hr : r.call op = .ok r') : Kept B r' := by
  refine ⟨(call_dataBufferSize hr).trans h.1, ?_⟩
  obtain ⟨-, pieces, h⟩ := h
  cases op with
  | allocate size =>
    unfold RingRun.call at hr
    dsimp only at hr
    rcases h.allocateBuf hop with ⟨e, -, he⟩ | ⟨s', he, hlive⟩ | ⟨s', q, hok, hq, hlive⟩
    · rw [he] at hr
      obtain rfl := ok.inj hr
      exact ⟨pieces, h⟩
    · rw [he] at hr
      obtain rfl := ok.inj hr
      exact ⟨pieces, hlive⟩
    · obtain rfl := ok.inj ((call_allocate hok).symm.trans hr)
      rw [hq] at hlive
      exact ⟨_, hlive⟩
  | free isFreeFn nbytes =>
    obtain ⟨s', k, pieces', hfree, hlive⟩ := h.freeBuf isFreeFn nbytes
    unfold RingRun.call at hr
    dsimp only at hr
    rw [hfree] at hr
    obtain rfl := ok.inj hr
    exact ⟨pieces', (filter_not_freed h.nodup_ids k).symm ▸ hlive⟩

lemma Kept.sound (h : Kept B r) : r.Sound := by
  obtain ⟨s, chunks⟩ := r
  obtain ⟨-, pieces, h⟩ := h
  have hpos := s.size_pos
  refine ⟨h.metadata, h.ids, h.idEnd, fun c hc => ?_, ?_, fun c hc => ?_, fun c hc => ?_, ?_⟩
  · obtain ⟨p, hp, hplace, hsize⟩ := h.exists_piece hc
    obtain ⟨-, -, -, hfit⟩ := h.laid.mem hp
    rw [hplace, hsize]
    exact ⟨hsize ▸ (h.sizes c hc).1, Int.emod_nonneg _ hpos.ne', hfit⟩
  · refine pairwise_iff_getElem.mpr fun i j hi hj hij => ?_
    have hlength := h.places.length_eq
    have hapart := pairwise_iff_getElem.mp (h.laid.pairwise hpos h.window) i j (by omega)
      (by omega) hij
    have hi' := Forall₂.get h.places hi (by omega)
    have hj' := Forall₂.get h.places hj (by omega)
    simp only [get_eq_getElem] at hi' hj'
    unfold Disjoint
    rw [hi'.1, hi'.2, hj'.1, hj'.2]
    exact hapart
  · obtain ⟨hid, hsize⟩ := h.headers c hc
    have hmem : c.id ∈ idsFrom s.monotonicIdStart chunks.length := h.ids ▸ mem_map_of_mem hc
    obtain ⟨k, -, hk⟩ := mem_map.mp hmem
    have hlt : c.id < 2 ^ 31 := hk ▸ Nat.mod_lt _ idMax_pos
    have hsizes := h.sizes c hc
    rw [mdSize_eq] at hsizes
    unfold accessBuf byte2int
    dsimp only
    rw [hid, hsize, idNbytes, sizeNbytes, intOfBytes_intBytes (by omega) (by omega),
      intOfBytes_intBytes (by omega) (by omega)]
  · obtain ⟨rest, rfl⟩ : ∃ rest, chunks = c :: rest := by
      cases chunks with
      | nil => cases hc
      | cons d rest => exact ⟨rest, congrArg (· :: rest) (Option.some.inj hc)⟩
    have hplaces := h.places
    cases pieces with
    | nil => cases hplaces
    | cons p pieces =>
      obtain ⟨⟨hplace, -⟩, -⟩ := forall₂_cons.mp hplaces
      have hold := h.oldest p rfl
      rw [hplace, hold]
  · have hwindow : s.dataBufferEnd ≤ s.dataBufferStart + s.dataBufferSize := h.window
    change s.dataBufferEnd - s.dataBufferStart ≤ s.dataBufferSize
    omega

/-- While there is an id for a new chunk: chunks are where they should be, and one that fits into
the empty buffer is put there. -/
theorem ring_sound {dataBufferSize : ℤ} {hpos : 0 < dataBufferSize} {r : RingRun}
    (h : Reaches RingRun.call HasId (start dataBufferSize hpos) r) : r.Sound ∧
    (∀ size message s', r.buffer.allocateBuf size = (.error (.memoryError message), s') → s' = r.buffer) ∧
    (∀ isFreeFn nbytes id, id ∈ (r.buffer.freeBuf isFreeFn nbytes).1 ↔ r.buffer.metadata.contains id = true ∧
        (r.buffer.freeBuf isFreeFn nbytes).2.metadata.contains id = false) ∧
    ∀ size, r.chunks = [] → 0 < size → size + mdSize ≤ dataBufferSize → size + mdSize < 2 ^ 31 →
      ∃ address id s', r.buffer.allocateBuf size = (.ok (address, id), s') := by
  have hkept : Kept dataBufferSize r :=
    h.invariant (kept_start dataBufferSize hpos) fun _ _ _ hr hop hcall => hr.call hop hcall
  refine ⟨hkept.sound, fun size message s' => allocateBuf_memoryError, ?_, ?_⟩
  · intro isFreeFn nbytes id
    obtain ⟨-, pieces, hlive⟩ := hkept
    obtain ⟨s', k, pieces', hfree, hlive'⟩ := hlive.freeBuf isFreeFn nbytes
    have hnodup := hlive.nodup_ids
    rw [← take_append_drop k r.chunks, map_append, nodup_append] at hnodup
    rw [hfree, Bool.eq_false_iff, ne_eq, hlive.contains_iff, hlive'.contains_iff]
    refine ⟨fun hmem => ⟨Sublist.subset (Sublist.map _ (take_sublist k _)) hmem,
      fun hleft => hnodup.2.2 id hmem id hleft rfl⟩, fun ⟨hmem, hleft⟩ => ?_⟩
    rw [← take_append_drop k r.chunks, map_append, mem_append] at hmem
    exact hmem.resolve_right hleft
  · intro size hnil
    obtain ⟨rfl, pieces, hlive⟩ := hkept
    rw [hnil] at hlive
    exact hlive.allocateBuf_of_empty

/-- Two chunks, then the first one is freed. -/
theorem ring_sound_of_two : ∃ r, Reaches RingRun.call HasId (start 100 (by decide)) r ∧
    r.chunks.map Chunk.id = [1] ∧ r.Sound := by
  have hone : Reaches RingRun.call HasId (start 100 (by decide)) _ :=
    .step (RingOp.allocate 20) .start (fun _ _ _ => (by decide : 0 + 1 < idMax)) rfl
  have htwo : Reaches RingRun.call HasId (start 100 (by decide)) _ :=
    .step (RingOp.allocate 30) hone (fun _ _ _ => (by decide : 1 + 1 < idMax)) rfl
  have hfreed : Reaches RingRun.call HasId (start 100 (by decide)) _ :=
    .step (RingOp.free (fun _ _ => true) (some 1)) htwo trivial rfl
  exact ⟨_, hfreed, rfl, (ring_sound hfreed).1⟩

private def manySize : ℤ := 9 * (idMax + 1)

private lemma manySize_pos : 0 < manySize := by
  unfold manySize idMax
  norm_num

private structure Filled (n : ℕ) (r : RingRun) : Prop where
  size : r.buffer.dataBufferSize = manySize
  bufferStart : r.buffer.dataBufferStart = 0
  bufferEnd : r.buffer.dataBufferEnd = 9 * n
  idEnd : r.buffer.monotonicIdEnd = n % idMax
  first : 0 < n → (⟨0, 0, 9⟩ : Chunk) ∈ r.chunks

private lemma Filled.allocate (hn : n ≤ idMax) (h : Filled n r) :
    ∃ r', r.call (.allocate 1) = .ok r' ∧ Filled (n + 1) r' ∧
      r'.buffer.metadata.get? (n % idMax) = some (9 * (n : ℤ)) := by
  have hmany : manySize = 9 * ((idMax : ℕ) : ℤ) + 9 := by
    unfold manySize
    omega
  have hreset : r.buffer.bufferEndReset (1 + mdSize) = 9 * n := by
    unfold bufferEndReset
    rw [h.size, h.bufferEnd, Int.emod_eq_of_lt (by omega) (by omega), mdSize_eq, if_neg (by omega)]
  have hid : r.buffer.monotonicIdEnd < idMax := by
    rw [h.idEnd]
    exact Nat.mod_lt _ idMax_pos
  have hcall : r.buffer.allocateBuf 1 = r.buffer.writeChunk (9 * n) (1 + mdSize) := by
    unfold allocateBuf
    rw [if_neg (by omega), hreset, h.bufferStart, h.size, mdSize_eq, if_neg (by omega)]
  have hwritten : r.buffer.writeChunk (9 * (n : ℤ)) (1 + mdSize) = _ :=
    writeChunk_of_lt hid (by rw [mdSize_eq]; omega) (by rw [mdSize_eq]; norm_num)
  refine ⟨_, call_allocate (hcall.trans hwritten), ⟨h.size, h.bufferStart, ?_, ?_, ?_⟩, ?_⟩
  · rw [mdSize_eq]
    push_cast
    ring
  · rw [h.idEnd, Nat.mod_add_mod]
  · intro _
    rcases Nat.eq_zero_or_pos n with rfl | hpos
    · refine mem_append_right _ (mem_singleton.mpr ?_)
      rw [h.idEnd]
      rfl
    · exact mem_append_left _ (h.first hpos)
  · rw [h.idEnd, Nat.mod_mod]
    exact Dict.get?_set_self _ _ _

private lemma exists_filled (hn : n ≤ idMax) :
    ∃ r, Reaches RingRun.call (fun _ _ => True) (start manySize manySize_pos) r ∧ Filled n r := by
  induction n with
  | zero => exact ⟨_, .start, ⟨rfl, rfl, rfl, rfl, fun h => absurd h (lt_irrefl 0)⟩⟩
  | succ n ih =>
    obtain ⟨r, hreach, hfilled⟩ := ih (by omega)
    obtain ⟨r', hcall, hfilled', -⟩ := hfilled.allocate (by omega)
    exact ⟨r', .step _ hreach trivial hcall, hfilled'⟩

/-- A size of more than four bytes is not put, and a chunk is lost when the ids run out. -/
theorem ring_limits : (∃ hpos, ¬∀ size, (start (2 ^ 31 + 8) hpos).chunks = [] → 0 < size →
      size + mdSize ≤ 2 ^ 31 + 8 → ∃ address id s',
        (start (2 ^ 31 + 8) hpos).buffer.allocateBuf size = (.ok (address, id), s')) ∧
    ∃ r, Reaches RingRun.call (fun _ _ => True) (start manySize manySize_pos) r ∧ ¬r.Sound := by
  constructor
  · have hpos : (0 : ℤ) < 2 ^ 31 + 8 := by norm_num
    refine ⟨hpos, fun hall => ?_⟩
    obtain ⟨address, id, s', hok⟩ := hall (2 ^ 31) rfl (by norm_num) le_rfl
    have hcall := allocateBuf_empty (s := (start (2 ^ 31 + 8) hpos).buffer) rfl rfl
      (show (0 : ℤ) < 2 ^ 31 by norm_num) le_rfl
    rw [hok] at hcall
    cases (Prod.mk.inj hcall).1
  · obtain ⟨r, hreach, hfilled⟩ := exists_filled le_rfl
    obtain ⟨r', hcall, hfilled', hlast⟩ := hfilled.allocate le_rfl
    refine ⟨r', .step _ hreach trivial hcall, fun hsound => ?_⟩
    have hfirst := (hsound.metadata 0 0).mpr ⟨_, hfilled'.first (Nat.succ_pos _), rfl, rfl⟩
    rw [Nat.mod_self, hfirst] at hlast
    have hzero : (0 : ℤ) = 9 * (idMax : ℕ) := Option.some.inj hlast
    have := idMax_pos
    omega

end RingRun

end CustomAi.Vllm
