import Mathlib.Data.List.Count
import Mathlib.Data.List.Induction
import Mathlib.Order.Nat

/-!
# Streaming in safe chunks

`stream_chunks_handler` passes the lines of a stream on and replaces lines that are too long.
-/

namespace CustomAi.OpenWebUI.StreamChunks

open List

abbrev Bytes := List UInt8

/-- `b"\n"` -/
def newline : UInt8 := 10

/-- `b"data: {}"` -/
def data_empty : Bytes := [100, 97, 116, 97, 58, 32, 123, 125]

/-- `(line + data).split(b"\n")` for a `line` without newlines, as its complete lines and the last
fragment. -/
def split (line : Bytes) : Bytes → List Bytes × Bytes
  | [] => ([], line)
  | b :: rest =>
    if b = newline then (line :: (split [] rest).1, (split [] rest).2) else split (line ++ [b]) rest

structure Handler where
  buffer : Bytes := []
  skip_mode : Bool := false

variable (max_buffer_size : ℕ)

/-- The loop over the complete lines, with the mode it ends in and what it yields. -/
def handle_lines : Bool → List Bytes → Bool × Bytes
  | skip_mode, [] => (skip_mode, [])
  | true, line :: rest =>
    if line.length ≤ max_buffer_size then
      ((handle_lines false rest).1, line ++ (handle_lines false rest).2)
    else ((handle_lines true rest).1, data_empty ++ newline :: (handle_lines true rest).2)
  | false, line :: rest =>
    if max_buffer_size < line.length then
      ((handle_lines true rest).1, data_empty ++ newline :: (handle_lines true rest).2)
    else ((handle_lines false rest).1, line ++ newline :: (handle_lines false rest).2)

def handle_chunk (self : Handler) (data : Bytes) : Handler × Bytes :=
  if data = [] then (self, []) else
  let buffer := if self.skip_mode ∧ max_buffer_size < self.buffer.length then [] else self.buffer
  let lines := split [] (buffer ++ data)
  let (skip_mode, out) := handle_lines max_buffer_size self.skip_mode lines.1
  if !skip_mode ∧ max_buffer_size < lines.2.length then ({ buffer := [], skip_mode := true }, out)
  else ({ buffer := lines.2, skip_mode }, out)

def finish (self : Handler) : Bytes :=
  if self.buffer ≠ [] ∧ !self.skip_mode then self.buffer ++ [newline] else []

/-- The concatenation of what is yielded for the chunks that are left. -/
def yielded (self : Handler) : List Bytes → Bytes
  | [] => finish self
  | data :: rest =>
    (handle_chunk max_buffer_size self data).2 ++ yielded (handle_chunk max_buffer_size self data).1 rest

def after (chunks : List Bytes) : Handler :=
  chunks.foldl (fun self data => (handle_chunk max_buffer_size self data).1) {}

/-- The lines of a stream. An empty fragment at its end is none. -/
def linesOf (parts : List Bytes × Bytes) : List Bytes :=
  parts.1 ++ if parts.2 = [] then [] else [parts.2]

def safe (line : Bytes) : Bytes :=
  (if line.length ≤ max_buffer_size then line else data_empty) ++ [newline]

/-- However the stream is cut, its lines are passed on and the buffer stays small. -/
def StreamsSafely (stream : Bytes) : Prop :=
  ∀ chunks : List Bytes, (∀ data ∈ chunks, data ≠ []) → chunks.flatten = stream →
    yielded max_buffer_size {} chunks = (linesOf (split [] stream)).flatMap (safe max_buffer_size) ∧
      ∀ before data, before ++ [data] <+: chunks →
        (after max_buffer_size (before ++ [data])).buffer.length ≤ max_buffer_size + data.length

variable {max_buffer_size} {line data rest : Bytes} {self : Handler}

lemma split_append (line p d : Bytes) : split line (p ++ d) =
      ((split line p).1 ++ (split (split line p).2 d).1, (split (split line p).2 d).2) := by
  induction p generalizing line with
  | nil => rfl
  | cons b rest ih =>
    rw [cons_append, split, split]
    by_cases hb : b = newline
    · simp [hb, ih]
    · rw [if_neg hb, if_neg hb, ih]

lemma split_of_notMem (h : newline ∉ line) (l data : Bytes) : split l (line ++ data) = split (l ++ line) data := by
  induction line generalizing l with
  | nil => rw [nil_append, append_nil]
  | cons b rest ih =>
    rw [mem_cons, not_or] at h
    rw [cons_append, split, if_neg (Ne.symm h.1), ih h.2, append_assoc]
    rfl

lemma notMem_split (h : newline ∉ line) (data : Bytes) :
    (∀ l ∈ (split line data).1, newline ∉ l) ∧ newline ∉ (split line data).2 := by
  induction data generalizing line with
  | nil => exact ⟨by simp [split], h⟩
  | cons b rest ih =>
    rw [split]
    by_cases hb : b = newline
    · rw [if_pos hb]
      exact ⟨forall_mem_cons.mpr ⟨h, (ih (by simp)).1⟩, (ih (by simp)).2⟩
    · rw [if_neg hb]
      exact ih (by simp [h, Ne.symm hb])

/-- The fragment that data is added to begins one of the parts. -/
lemma le_length_split (line data : Bytes) : (∃ l ∈ (split line data).1, line.length ≤ l.length) ∨
      line.length ≤ (split line data).2.length := by
  induction data generalizing line with
  | nil => exact .inr le_rfl
  | cons b rest ih =>
    rw [split]
    by_cases hb : b = newline
    · rw [if_pos hb]
      exact .inl ⟨line, by simp, le_rfl⟩
    · rw [if_neg hb]
      refine (ih (line ++ [b])).imp (fun ⟨l, hl, hle⟩ => ⟨l, hl, ?_⟩) fun hle => ?_
      all_goals
        rw [length_append] at hle
        omega

lemma length_split_le (line data : Bytes) : (split line data).2.length ≤ line.length + data.length := by
  induction data generalizing line with
  | nil => simp [split]
  | cons b rest ih =>
    rw [split, length_cons]
    by_cases hb : b = newline
    · have hle := ih []
      rw [if_pos hb]
      dsimp at hle ⊢
      omega
    · have hle := ih (line ++ [b])
      rw [if_neg hb]
      rw [length_append, length_singleton] at hle
      omega

variable {lines : List Bytes} {buffer : Bytes}

lemma handle_lines_short (h : ∀ l ∈ lines, l.length ≤ max_buffer_size) :
    handle_lines max_buffer_size false lines = (false, lines.flatMap (safe max_buffer_size)) := by
  induction lines with
  | nil => rfl
  | cons l rest ih =>
    rw [forall_mem_cons] at h
    rw [handle_lines, if_neg (not_lt.mpr h.1), ih h.2, flatMap_cons, safe, if_pos h.1]
    simp

lemma handle_chunk_eq {skip_mode : Bool} (hdata : data ≠ [])
    (hfree : newline ∉ buffer) (hskip : skip_mode = false ∨ buffer.length ≤ max_buffer_size) :
    handle_chunk max_buffer_size ⟨buffer, skip_mode⟩ data =
      if !(handle_lines max_buffer_size skip_mode (split buffer data).1).1 ∧
          max_buffer_size < (split buffer data).2.length then
        (⟨[], true⟩, (handle_lines max_buffer_size skip_mode (split buffer data).1).2)
      else (⟨(split buffer data).2, (handle_lines max_buffer_size skip_mode (split buffer data).1).1⟩,
        (handle_lines max_buffer_size skip_mode (split buffer data).1).2) := by
  have hkept : ¬ (skip_mode = true ∧ max_buffer_size < buffer.length) := by
    rintro ⟨rfl, hlt⟩
    exact absurd hlt (not_lt.mpr (hskip.resolve_left (by simp)))
  unfold handle_chunk
  rw [if_neg hdata]
  dsimp only
  rw [if_neg hkept, split_of_notMem hfree, nil_append]

/-- A stream of short lines is passed on in normal mode. -/
lemma yielded_short {chunks : List Bytes} (hchunks : ∀ data ∈ chunks, data ≠ []) (hfree : newline ∉ line)
    (hlines : ∀ l ∈ (split line chunks.flatten).1, l.length ≤ max_buffer_size)
    (hlast : (split line chunks.flatten).2.length ≤ max_buffer_size) :
    yielded max_buffer_size ⟨line, false⟩ chunks =
      (linesOf (split line chunks.flatten)).flatMap (safe max_buffer_size) := by
  induction chunks generalizing line with
  | nil =>
    rw [yielded, finish, linesOf, flatten_nil, split]
    by_cases hline : line = []
    · simp [hline]
    · rw [flatten_nil, split] at hlast
      simp [hline, safe, hlast]
  | cons data rest ih =>
    rw [forall_mem_cons] at hchunks
    rw [flatten_cons, split_append] at hlines hlast ⊢
    rw [forall_mem_append] at hlines
    have hfrag : (split line data).2.length ≤ max_buffer_size := by
      rcases le_length_split (split line data).2 rest.flatten with ⟨l, hl, hle⟩ | hle
      · exact hle.trans (hlines.2 l hl)
      · exact hle.trans hlast
    rw [yielded, handle_chunk_eq hchunks.1 hfree (.inl rfl), handle_lines_short hlines.1,
      if_neg fun h => absurd h.2 (not_lt.mpr hfrag), ih hchunks.2 (notMem_split hfree data).2 hlines.2 hlast]
    simp [linesOf]

/-- The buffer is small unless lines are skipped. -/
lemma buffer_bound (self : Handler) (data : Bytes)
    (h : self.skip_mode = true ∨ self.buffer.length ≤ max_buffer_size) :
    ((handle_chunk max_buffer_size self data).1.skip_mode = true ∨
      (handle_chunk max_buffer_size self data).1.buffer.length ≤ max_buffer_size) ∧
    (data ≠ [] → (handle_chunk max_buffer_size self data).1.buffer.length ≤ max_buffer_size + data.length) := by
  unfold handle_chunk
  by_cases hdata : data = []
  · rw [if_pos hdata]
    exact ⟨h, fun hne => absurd hdata hne⟩
  set buffer := if self.skip_mode ∧ max_buffer_size < self.buffer.length then [] else self.buffer
    with hbuffer
  have hle : buffer.length ≤ max_buffer_size := by
    rw [hbuffer]
    split_ifs with hclear
    · exact Nat.zero_le _
    · rcases h with h | h
      · exact not_lt.mp fun hlt => hclear ⟨h, hlt⟩
      · exact h
  have hfrag := length_split_le [] (buffer ++ data)
  rw [length_append, length_nil] at hfrag
  dsimp only
  split_ifs with hover
  · exact ⟨.inl rfl, fun _ => Nat.zero_le _⟩
  · refine ⟨?_, fun _ => ?_⟩
    · by_cases hskip : (handle_lines max_buffer_size self.skip_mode (split [] (buffer ++ data)).1).1 = true
      · exact .inl hskip
      · rw [Bool.not_eq_true] at hskip
        exact .inr (not_lt.mp fun hlt => hover ⟨by rw [hskip]; rfl, hlt⟩)
    · dsimp only
      omega

lemma after_bound (chunks : List Bytes) : (after max_buffer_size chunks).skip_mode = true ∨
      (after max_buffer_size chunks).buffer.length ≤ max_buffer_size := by
  induction chunks using reverseRecOn with
  | nil => exact .inr (Nat.zero_le _)
  | append_singleton l data ih =>
    rw [after, foldl_append]
    exact (buffer_bound _ data ih).1

lemma count_handle_lines_le (max_buffer_size : ℕ) (skip_mode : Bool) (h : ∀ l ∈ lines, newline ∉ l) :
    (handle_lines max_buffer_size skip_mode lines).2.count newline ≤ lines.length := by
  have hdata : data_empty.count newline = 0 := by decide
  induction lines generalizing skip_mode with
  | nil => exact Nat.zero_le _
  | cons l rest ih =>
    rw [forall_mem_cons] at h
    have hl := count_eq_zero.mpr h.1
    have htrue := ih true h.2
    have hfalse := ih false h.2
    cases skip_mode <;> rw [handle_lines] <;> split_ifs <;>
      simp only [count_append, count_cons_self, length_cons] <;> omega

lemma count_safe (h : newline ∉ line) : (safe max_buffer_size line).count newline = 1 := by
  have hl := count_eq_zero.mpr h
  have hdata : data_empty.count newline = 0 := by decide
  rw [safe, count_append, count_singleton_self]
  split_ifs <;> omega

lemma count_flatMap_safe (h : ∀ l ∈ lines, newline ∉ l) :
    (lines.flatMap (safe max_buffer_size)).count newline = lines.length := by
  induction lines with
  | nil => rfl
  | cons l rest ih =>
    rw [forall_mem_cons] at h
    rw [flatMap_cons, count_append, count_safe h.1, ih h.2, length_cons, Nat.add_comm]

lemma notMem_linesOf (h : newline ∉ line) (data : Bytes) : ∀ l ∈ linesOf (split line data), newline ∉ l := by
  have hsplit := notMem_split h data
  intro l hl
  rw [linesOf, mem_append] at hl
  rcases hl with hl | hl
  · exact hsplit.1 l hl
  · split_ifs at hl
    · cases hl
    · rw [mem_singleton.mp hl]
      exact hsplit.2

/-- The end of a complete line. -/
lemma exists_cut (line data : Bytes) {l : Bytes} (h : l ∈ (split line data).1) :
    ∃ p r, data = p ++ newline :: r ∧ (split line p).2 = l := by
  induction data generalizing line with
  | nil => cases h
  | cons b rest ih =>
    rw [split] at h
    by_cases hb : b = newline
    · rw [if_pos hb, mem_cons] at h
      rcases h with rfl | h
      · exact ⟨[], rest, by rw [hb]; rfl, rfl⟩
      · obtain ⟨p, r, rfl, hp⟩ := ih [] h
        exact ⟨b :: p, r, rfl, by rwa [split, if_pos hb]⟩
    · rw [if_neg hb] at h
      obtain ⟨p, r, rfl, hp⟩ := ih (line ++ [b]) h
      exact ⟨b :: p, r, rfl, by rwa [split, if_neg hb]⟩

/-- A chunk that ends within a line that is too long turns to skipping. -/
lemma handle_chunk_long (hlong : max_buffer_size < (split [] data).2.length) :
    ∃ buffer out, handle_chunk max_buffer_size {} data = (⟨buffer, true⟩, out) ∧
      (buffer = [] ∨ max_buffer_size < buffer.length) ∧ out.count newline ≤ (split [] data).1.length := by
  have hdata : data ≠ [] := by
    rintro rfl
    exact absurd hlong (Nat.not_lt_zero _)
  have hcount := count_handle_lines_le max_buffer_size false
    (notMem_split not_mem_nil data).1
  rw [handle_chunk_eq hdata (by simp) (.inl rfl)]
  split_ifs with hover
  · exact ⟨[], _, rfl, .inl rfl, hcount⟩
  · have hskip : (handle_lines max_buffer_size false (split [] data).1).1 = true := by
      by_contra hno
      rw [Bool.not_eq_true] at hno
      exact hover ⟨by rw [hno]; rfl, hlong⟩
    rw [hskip]
    exact ⟨_, _, rfl, .inr hlong, hcount⟩

lemma count_finish_le (h : newline ∉ line) (hbuffer : self.buffer = [] ∨ self.buffer = line) :
    (finish self).count newline ≤ (if line = [] then [] else [line]).length := by
  have hcount := count_eq_zero.mpr h
  unfold finish
  rcases hbuffer with hbuffer | hbuffer
  · simp [hbuffer]
  · rw [hbuffer]
    by_cases hline : line = []
    · simp [hline]
    · split_ifs <;> simp [hcount]

/-- The end of that line costs it its newline. -/
lemma count_yielded_lt (hbuffer : buffer = [] ∨ max_buffer_size < buffer.length)
    (r : Bytes) : (yielded max_buffer_size ⟨buffer, true⟩ [newline :: r]).count newline ≤
      (linesOf (split [] r)).length := by
  have hfree := notMem_split not_mem_nil r
  have hcount := count_handle_lines_le max_buffer_size false
    hfree.1
  have hchunk : handle_chunk max_buffer_size ⟨buffer, true⟩ (newline :: r) =
      handle_chunk max_buffer_size ⟨[], true⟩ (newline :: r) := by
    rcases hbuffer with rfl | hlt
    · rfl
    · unfold handle_chunk
      simp [hlt]
  rw [yielded, hchunk, handle_chunk_eq (by simp) (by simp) (.inr (Nat.zero_le _)),
    count_append, linesOf, length_append]
  refine Nat.add_le_add ?_ ?_
  · split_ifs <;> exact hcount
  · refine count_finish_le hfree.2 ?_
    split_ifs
    · exact .inl rfl
    · exact .inr rfl

/-- A stream is passed on safely for all its chunks exactly if none of its lines is longer than
the buffer may get. -/
theorem streamsSafely_iff (max_buffer_size : ℕ) (stream : Bytes) : StreamsSafely max_buffer_size stream ↔
      ∀ line ∈ linesOf (split [] stream), line.length ≤ max_buffer_size := by
  have hlong : ∀ p : Bytes, max_buffer_size < (split [] p).2.length → p ≠ [] := by
    rintro p hlt rfl
    exact absurd hlt (Nat.not_lt_zero _)
  constructor
  · intro hsafe line hline
    by_contra hlt
    rw [not_le] at hlt
    -- The stream is cut at the end of the line, before its newline if it has one.
    rw [linesOf, mem_append] at hline
    rcases hline with hline | hline
    · obtain ⟨p, r, rfl, rfl⟩ := exists_cut [] stream hline
      obtain ⟨buffer, out, hchunk, hbuffer, hout⟩ := handle_chunk_long hlt
      have hyield := (hsafe [p, newline :: r] (by simp [hlong p hlt]) (by simp)).1
      have hcount := congrArg (List.count newline) hyield
      rw [count_flatMap_safe (notMem_linesOf (by simp) _), yielded, hchunk, count_append] at hcount
      have hle := count_yielded_lt hbuffer r
      have hlines : (linesOf (split [] (p ++ newline :: r))).length =
          (split [] p).1.length + 1 + (linesOf (split [] r)).length := by
        rw [split_append, split]
        simp [linesOf]
        omega
      dsimp only at hcount
      omega
    · have hlast : line = (split [] stream).2 ∧ (split [] stream).2 ≠ [] := by
        split_ifs at hline with hempty
        · cases hline
        · exact ⟨mem_singleton.mp hline, hempty⟩
      rw [hlast.1] at hlt
      obtain ⟨buffer, out, hchunk, -, hout⟩ := handle_chunk_long hlt
      have hyield := (hsafe [stream] (by simp [hlong stream hlt]) (by simp)).1
      have hcount := congrArg (List.count newline) hyield
      rw [count_flatMap_safe (notMem_linesOf (by simp) _), yielded, hchunk, yielded, finish,
        linesOf, if_neg hlast.2, if_neg (by simp), append_nil, length_append, length_singleton] at hcount
      dsimp only at hcount
      omega
  · intro hshort chunks hchunks hflat
    subst hflat
    refine ⟨yielded_short hchunks (by simp) (fun l hl => hshort l ?_) ?_, fun before data hpre => ?_⟩
    · exact mem_append_left _ hl
    · by_cases hempty : (split [] chunks.flatten).2 = []
      · rw [hempty]
        exact Nat.zero_le _
      · exact hshort _ (by simp [linesOf, hempty])
    · rw [after, foldl_append]
      exact (buffer_bound _ data (after_bound before)).2 (hchunks data (hpre.subset (by simp)))

theorem not_streamsSafely : ¬ StreamsSafely 2 [97, 97, 97, newline, 98] := by
  intro h
  have hyield := (h [[97, 97, 97], [newline, 98]] (by decide) rfl).1
  revert hyield
  decide

end CustomAi.OpenWebUI.StreamChunks
