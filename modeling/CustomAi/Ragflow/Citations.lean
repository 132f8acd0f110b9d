import Mathlib.Data.List.Infix
import Mathlib.Algebra.Order.Ring.Rat
import Mathlib.Tactic.IntervalCases

/-!
# Citations in an answer

`Dealer.insert_citations` cuts an answer into sentences and fenced blocks, and puts a marker for
each chunk behind the first piece that it supports.
-/

namespace CustomAi.Ragflow.Citations

open List

abbrev Text := List Char

def fence : Text := ['`', '`', '`']

/-- The split at the fences, with the piece so far and the backticks that were read last. -/
def splitFences (piece : Text) (ticks : ℕ) : Text → List Text
  | [] => [piece ++ replicate ticks '`']
  | c :: rest =>
    if c ≠ '`' then splitFences (piece ++ replicate ticks '`' ++ [c]) 0 rest
    else if ticks = 2 then piece :: fence :: splitFences [] 0 rest
    else splitFences piece (ticks + 1) rest

/-- The length of the match of `([^\|][；。？!！\n]|[a-z][.?;!][ \n])` at the start of a text. -/
def delimiterAt : Text → ℕ
  | a :: b :: rest =>
    if a ≠ '|' ∧ b ∈ "；。？!！\n".toList then 2
    else if a.isLower ∧ b ∈ ".?;!".toList ∧ (rest.head?.any fun c => c ∈ [' ', '\n']) then 3
    else 0
  | _ => 0

/-- The split at the ends of sentences, with the piece so far. -/
def splitSentences (piece text : Text) : List Text :=
  match text with
  | [] => [piece]
  | c :: rest =>
    match delimiterAt (c :: rest) with
    | 0 => splitSentences (piece ++ [c]) rest
    | n + 1 => piece :: (c :: rest.take n) :: splitSentences [] (rest.drop n)
termination_by text.length

/-- The scan over the pieces and fences, with the block that is open. -/
def groupFences : Option Text → List Text → List Text
  | none, [] => []
  | some block, [] => [block ++ ['\n']]
  | none, piece :: rest =>
    if piece = fence then groupFences (some piece) rest
    else splitSentences [] piece ++ groupFences none rest
  | some block, piece :: rest =>
    if piece = fence then (block ++ piece ++ ['\n']) :: groupFences none rest
    else groupFences (some (block ++ piece)) rest

/-- The first character of a delimiter goes to the piece before it. -/
def moveHeads (piece : Text) : List Text → List Text
  | [] => [piece]
  | next :: rest =>
    if delimiterAt next ≠ 0 then (piece ++ next.take 1) :: moveHeads (next.drop 1) rest
    else piece :: moveHeads next rest

def piecesOf (answer : Text) : List Text :=
  let pieces := splitFences [] 0 answer
  let pieces := if 3 ≤ pieces.length then groupFences none pieces else splitSentences [] answer
  match pieces with
  | [] => []
  | piece :: rest => moveHeads piece rest

/-- The values of `thr` above 0.3. -/
def thresholds : List ℚ := (range 4).map fun k => 63 / 100 * (8 / 10) ^ k

variable (order : (l : List ℕ) → {l' : List ℕ // l'.Perm l})

/-- `cites` at a threshold; a set of chunks is listed in any order. -/
def citesAt (similarity : ℕ → ℕ → ℚ) (n : ℕ) (long : List (Text × ℕ)) (thr : ℚ) :
    List (ℕ × List ℕ) :=
  long.zipIdx.filterMap fun ((_, i), j) =>
    let mx := (range n).foldl (fun m c => max m (similarity j c)) (similarity j 0) * (99 / 100)
    if mx < thr then none
    else some (i, (order ((range n).filter fun c => mx < similarity j c)).1.take 4)

/-- `cites` at the highest threshold at which there are some. -/
def citesOf (similarity : ℕ → ℕ → ℚ) (n : ℕ) (long : List (Text × ℕ)) : List (ℕ × List ℕ) :=
  ((thresholds.map (citesAt order similarity n long)).find? (· ≠ [])).getD []

/-- The chunks that have no marker yet. -/
def newIds (seted : List ℕ) : List ℕ → List ℕ
  | [] => []
  | c :: rest => if c ∈ seted then newIds seted rest else c :: newIds (seted ++ [c]) rest

/-- The pieces with the chunks that get a marker after them. -/
def mark (cites : List (ℕ × List ℕ)) (i : ℕ) (seted : List ℕ) : List Text → List (Text × List ℕ)
  | [] => []
  | piece :: rest =>
    let ids := newIds seted ((cites.lookup i).getD [])
    (piece, ids) :: mark cites (i + 1) (seted ++ ids) rest

def marker (c : ℕ) : Text := s!" [ID:{c}]".toList

def render (parts : List (Text × List ℕ)) : Text :=
  parts.flatMap fun part => part.1 ++ part.2.flatMap marker

/-- The similarity is that of a piece among all that are not short and of a chunk. -/
def insertCitations (similarity : List Text → List Text → ℕ → ℕ → ℚ) (answer : Text)
    (chunks : List Text) : Text × List ℕ :=
  if chunks = [] then (answer, []) else
  let pieces := piecesOf answer
  let long := pieces.zipIdx.filter fun piece => 5 ≤ piece.1.length
  if long = [] then (answer, []) else
  let cites := citesOf order (similarity (long.map Prod.fst) chunks) chunks.length long
  let parts := mark cites 0 [] pieces
  (render parts, parts.flatMap Prod.snd)

/-- Whether a block is open, and the backticks that were read last. -/
def scan (s : Bool × ℕ) (text : Text) : Bool × ℕ :=
  text.foldl (fun s c =>
    if c ≠ '`' then (s.1, 0) else if s.2 = 2 then (!s.1, 0) else (s.1, s.2 + 1)) s

/-- The text with a newline after each fenced block. -/
def closeBlocks (s : Bool × ℕ) : Text → Text
  | [] => if s.1 then ['\n'] else []
  | c :: rest =>
    c :: (if s.1 && !(scan s [c]).1 then ['\n'] else []) ++ closeBlocks (scan s [c]) rest

/-- The result is the text with markers of the set of chunks, none of them within a block. -/
def Cites (text : Text) (chunks : List Text) (result : Text × List ℕ) : Prop :=
  ∃ parts : List (Text × List ℕ), (parts.map Prod.fst).flatten = text ∧ result.1 = render parts ∧
    result.2 = parts.flatMap Prod.snd ∧ result.2.Nodup ∧ (∀ c ∈ result.2, c < chunks.length) ∧
    ∀ before part after, parts = before ++ part :: after → part.2 ≠ [] →
      (scan (false, 0) ((before ++ [part]).map Prod.fst).flatten).1 = false ∨ after = []

variable {order} {s : Bool × ℕ} {block piece text : Text} {pieces rest : List Text}

lemma scan_append (p q : Text) : scan s (p ++ q) = scan (scan s p) q := foldl_append

/-- Every piece that a head can be taken from is text, and no piece ends within a block. -/
def Movable : Bool × ℕ → List Text → Prop
  | _, [] => True
  | s, p :: rest => ((∀ q, q <+: p → (scan s q).1 = false) ∨
      delimiterAt p = 0 ∧ ((scan s p).1 = false ∨ rest = [])) ∧ Movable (scan s p) rest

def Closed : Bool × ℕ → List Text → Prop
  | _, [] => True
  | s, p :: rest => ((scan s p).1 = false ∨ rest = []) ∧ Closed (scan s p) rest

lemma Movable.append (h : ∀ q, q <+: pieces.flatten → (scan s q).1 = false)
    (hrest : Movable (scan s pieces.flatten) rest) : Movable s (pieces ++ rest) := by
  induction pieces generalizing s with
  | nil => exact hrest
  | cons p pieces ih =>
    rw [flatten_cons, scan_append] at hrest
    refine ⟨.inl fun q hq => h q (hq.trans (prefix_append _ _)), ih (fun q hq => ?_) hrest⟩
    rw [← scan_append]
    exact h _ ((prefix_append_right_inj _).mpr hq)

lemma Movable.moveHeads (h : Movable s (piece :: rest)) : Closed s (moveHeads piece rest) := by
  induction rest generalizing s piece with
  | nil => exact ⟨.inr rfl, trivial⟩
  | cons next rest ih =>
    obtain ⟨hpiece, hnext, hrest⟩ := h
    rw [Citations.moveHeads]
    split_ifs with hmatch
    · have htext := hnext.resolve_right fun h => hmatch h.1
      have hsplit : scan (scan s piece) next = scan (scan s (piece ++ next.take 1)) (next.drop 1) := by
        rw [scan_append, ← scan_append (next.take 1), take_append_drop]
      refine ⟨.inl ?_, ih ⟨.inl fun q hq => ?_, hsplit ▸ hrest⟩⟩
      · rw [scan_append]
        exact htext _ ( take_prefix _ _)
      · rw [scan_append, ← scan_append (next.take 1)]
        refine htext _ ?_
        conv_rhs => rw [← take_append_drop 1 next]
        exact (prefix_append_right_inj _).mpr hq
    · refine ⟨?_, ih ⟨hnext, hrest⟩⟩
      rcases hpiece with hall | ⟨-, hclosed | hnil⟩
      · exact .inl (hall piece (prefix_refl _))
      · exact .inl hclosed
      · cases hnil

lemma flatten_moveHeads (piece : Text) (rest : List Text) :
    (moveHeads piece rest).flatten = piece ++ rest.flatten := by
  induction rest generalizing piece with
  | nil => rfl
  | cons next rest ih =>
    rw [moveHeads]
    split_ifs
    · rw [flatten_cons, ih, append_assoc, ← append_assoc (next.take 1), take_append_drop, flatten_cons]
    · rw [flatten_cons, ih, flatten_cons]

lemma flatten_splitSentences (piece text : Text) : (splitSentences piece text).flatten = piece ++ text := by
  fun_induction splitSentences piece text with
  | case1 piece => simp
  | case2 piece c rest hno ih => simp [ih]
  | case3 piece c rest n hn ih => simp [ih]

lemma quiet_append {o : Bool} {p r : Text} (hp : ∀ q, q <+: p → (scan s q).1 = o)
    (hr : ∀ q, q <+: r → (scan (scan s p) q).1 = o) {q : Text} (hq : q <+: p ++ r) : (scan s q).1 = o := by
  rcases prefix_or_prefix_of_prefix hq (prefix_append p r) with h | ⟨t, rfl⟩
  · exact hp q h
  · rw [scan_append]
    exact hr t ((prefix_append_right_inj p).mp hq)

lemma scan_ticks (o : Bool) {ticks : ℕ} (h : ticks ≤ 2) : scan (o, 0) (replicate ticks '`') = (o, ticks) := by
  interval_cases ticks <;> rfl

/-- The block that is open was opened by a fence. -/
def Opens (block : Option Text) : Prop :=
  ∀ b, block = some b → scan (false, 0) b = (true, 0) ∧ ∀ t, delimiterAt (b ++ t) = 0

/-- Texts and blocks take turns, as the scan has it. -/
lemma groupFences_spec (text : Text) : ∀ (block : Option Text) (piece : Text) (ticks : ℕ),
    ticks ≤ 2 → Opens block → scan (block.isSome, 0) piece = (block.isSome, 0) →
    (∀ q, q <+: piece → (scan (block.isSome, 0) q).1 = block.isSome) →
    (groupFences block (splitFences piece ticks text)).flatten = block.getD [] ++ piece ++
      replicate ticks '`' ++ closeBlocks (block.isSome, ticks) text ∧
    Movable (false, 0) (groupFences block (splitFences piece ticks text)) := by
  induction text with
  | nil =>
    intro block piece ticks hticks hopens hpiece hquiet
    have hscan : scan (block.isSome, 0) (piece ++ replicate ticks '`') = (block.isSome, ticks) := by
      rw [scan_append, hpiece, scan_ticks _ hticks]
    have hne : piece ++ replicate ticks '`' ≠ fence := by
      intro heq
      rw [heq] at hscan
      cases block <;> cases hscan
    have hlast : ∀ q, q <+: piece ++ replicate ticks '`' →
        (scan (block.isSome, 0) q).1 = block.isSome := fun q hq =>
      quiet_append hquiet (fun q hq => by
        rw [prefix_replicate_iff] at hq
        rw [hpiece, hq.2, scan_ticks _ (hq.1.trans hticks)]) hq
    rw [splitFences]
    cases block with
    | none =>
      rw [groupFences, if_neg hne, groupFences]
      refine ⟨by simp [flatten_splitSentences, closeBlocks], Movable.append ?_ trivial⟩
      rw [flatten_splitSentences]
      exact hlast
    | some b =>
      rw [groupFences, if_neg hne, groupFences]
      refine ⟨by simp [closeBlocks], .inr ⟨?_, .inr rfl⟩, trivial⟩
      rw [append_assoc]
      exact (hopens b rfl).2 _
  | cons c rest ih =>
    intro block piece ticks hticks hopens hpiece hquiet
    by_cases hc : c = '`'
    · subst hc
      by_cases htwo : ticks = 2
      · subst htwo
        have hne : piece ≠ fence := by
          rintro rfl
          cases block <;> cases hpiece
        rw [splitFences, if_neg (by simp), if_pos rfl]
        cases block with
        | none =>
          obtain ⟨hflat, hmov⟩ := ih (some fence) [] 0 (by omega) (fun b hb => by
            obtain rfl := Option.some.inj hb
            exact ⟨rfl, fun t => rfl⟩) rfl (by simp [scan])
          rw [groupFences, if_neg hne, groupFences, if_pos rfl]
          refine ⟨?_, Movable.append ?_ ?_⟩
          · rw [flatten_append, flatten_splitSentences, hflat]
            simp [closeBlocks, scan, fence, replicate]
          · rw [flatten_splitSentences]
            exact hquiet
          · rw [flatten_splitSentences]
            rwa [nil_append, show scan (false, 0) piece = _ from hpiece]
        | some b =>
          obtain ⟨hflat, hmov⟩ := ih none [] 0 (by omega) (by simp [Opens]) rfl (by simp [scan])
          have hscan : scan (false, 0) (b ++ piece ++ fence ++ ['\n']) = (false, 0) := by
            rw [scan_append, scan_append, scan_append, (hopens b rfl).1, show scan (true, 0) piece = _ from hpiece]
            rfl
          rw [groupFences, if_neg hne, groupFences, if_pos rfl]
          refine ⟨?_, .inr ⟨?_, .inl ?_⟩, ?_⟩
          · rw [flatten_cons, hflat]
            simp [closeBlocks, scan, fence, replicate]
          · rw [append_assoc, append_assoc]
            exact (hopens b rfl).2 _
          · rw [hscan]
          · rwa [hscan]
      · have hnext : scan (block.isSome, ticks) ['`'] = (block.isSome, ticks + 1) := by
          simp [scan, htwo]
        obtain ⟨hflat, hmov⟩ := ih block piece (ticks + 1) (by omega) hopens hpiece hquiet
        rw [splitFences, if_neg (by simp), if_neg htwo]
        refine ⟨?_, hmov⟩
        rw [hflat, closeBlocks, hnext, replicate_succ', Bool.and_not_self]
        simp
    · have hnext : scan (block.isSome, ticks) [c] = (block.isSome, 0) := by simp [scan, hc]
      have hscan : scan (block.isSome, 0) (piece ++ replicate ticks '`') = (block.isSome, ticks) := by
        rw [scan_append, hpiece, scan_ticks _ hticks]
      obtain ⟨hflat, hmov⟩ := ih block (piece ++ replicate ticks '`' ++ [c]) 0 (by omega) hopens
        (by rw [scan_append, hscan, hnext]) fun q hq => by
          refine quiet_append (fun q hq => quiet_append hquiet (fun q hq => ?_) hq)
            (fun q hq => ?_) hq
          · rw [prefix_replicate_iff] at hq
            rw [hpiece, hq.2, scan_ticks _ (hq.1.trans hticks)]
          · rw [hscan]
            rcases prefix_cons_iff.mp hq with rfl | ⟨t, rfl, ht⟩
            · rfl
            · rw [prefix_nil.mp ht, hnext]
      rw [splitFences, if_pos hc]
      refine ⟨?_, hmov⟩
      rw [hflat, closeBlocks, hnext, Bool.and_not_self]
      simp

lemma splitFences_short (text : Text) : ∀ (piece : Text) (ticks : ℕ),
    splitFences piece ticks text = [piece ++ replicate ticks '`' ++ text] ∨
      3 ≤ (splitFences piece ticks text).length := by
  induction text with
  | nil => exact fun piece ticks => .inl (by simp [splitFences])
  | cons c rest ih =>
    intro piece ticks
    rw [splitFences]
    split_ifs with hc htwo
    · refine (ih (piece ++ replicate ticks '`' ++ [c]) 0).imp (fun h => ?_) id
      rw [h]
      simp
    · rcases ih [] 0 with h | h
      · simp [h]
      · rw [length_cons, length_cons]
        omega
    · rw [not_not] at hc
      refine (ih piece (ticks + 1)).imp (fun h => ?_) id
      rw [h, hc, replicate_succ']
      simp

lemma piecesOf_spec (answer : Text) : (piecesOf answer).flatten = closeBlocks (false, 0) answer ∧
    Closed (false, 0) (piecesOf answer) := by
  have hpieces : (if 3 ≤ (splitFences [] 0 answer).length then
      groupFences none (splitFences [] 0 answer) else splitSentences [] answer) =
      groupFences none (splitFences [] 0 answer) := by
    split_ifs with hlen
    · rfl
    · have hone := (splitFences_short answer [] 0).resolve_right hlen
      have hne : answer ≠ fence := by
        rintro rfl
        exact hlen (by decide)
      rw [hone]
      simp [groupFences, hne]
  obtain ⟨hflat, hmov⟩ := groupFences_spec answer none [] 0 (by omega) (by simp [Opens]) rfl
    (by simp [scan])
  unfold piecesOf
  dsimp only
  rw [hpieces]
  cases hgroup : groupFences none (splitFences [] 0 answer) with
  | nil =>
    rw [hgroup] at hflat
    exact ⟨hflat, trivial⟩
  | cons piece rest =>
    rw [hgroup] at hflat hmov
    exact ⟨by rw [flatten_moveHeads]; exact hflat, hmov.moveHeads⟩

lemma Closed.cut {before after : List Text} (h : Closed s (before ++ piece :: after)) :
    (scan s (before ++ [piece]).flatten).1 = false ∨ after = [] := by
  induction before generalizing s with
  | nil =>
    rw [nil_append, flatten_singleton]
    exact h.1
  | cons p before ih =>
    rw [cons_append, flatten_cons, scan_append]
    exact ih h.2

lemma newIds_spec (seted ids : List ℕ) (h : seted.Nodup) :
    (seted ++ newIds seted ids).Nodup ∧ ∀ c ∈ newIds seted ids, c ∈ ids := by
  induction ids generalizing seted with
  | nil => simpa [newIds] using h
  | cons c rest ih =>
    rw [newIds]
    split_ifs with hc
    · exact ⟨(ih seted h).1, fun x hx => mem_cons_of_mem c ((ih seted h).2 x hx)⟩
    · obtain ⟨hnd, hmem⟩ := ih (seted ++ [c]) (nodup_append.mpr
        ⟨h, pairwise_singleton _ _, by simpa using fun x hx => ne_of_mem_of_not_mem hx hc⟩)
      rw [append_assoc] at hnd
      exact ⟨hnd, fun x hx => (mem_cons.mp hx).elim (fun h => h ▸ mem_cons_self)
        fun hx => mem_cons_of_mem c (hmem x hx)⟩

lemma mark_spec {cites : List (ℕ × List ℕ)} {n : ℕ}
    (hcites : ∀ entry ∈ cites, ∀ c ∈ entry.2, c < n) (pieces : List Text) :
    ∀ (i : ℕ) (seted : List ℕ), seted.Nodup → (mark cites i seted pieces).map Prod.fst = pieces ∧
      (seted ++ (mark cites i seted pieces).flatMap Prod.snd).Nodup ∧
      ∀ c ∈ (mark cites i seted pieces).flatMap Prod.snd, c < n := by
  induction pieces with
  | nil => exact fun i seted h => ⟨rfl, by simpa [mark] using h, by simp [mark]⟩
  | cons piece rest ih =>
    intro i seted h
    obtain ⟨hnd, hmem⟩ := newIds_spec seted ((cites.lookup i).getD []) h
    obtain ⟨hmap, hrest, hlt⟩ := ih (i + 1) _ hnd
    rw [mark, map_cons, flatMap_cons, hmap]
    refine ⟨rfl, by rwa [← append_assoc], forall_mem_append.mpr ⟨fun c hc => ?_, hlt⟩⟩
    have hc := hmem c hc
    cases hlookup : cites.lookup i with
    | none =>
      rw [hlookup] at hc
      cases hc
    | some ids =>
      rw [hlookup] at hc
      obtain ⟨l1, l2, hl, -⟩ := lookup_eq_some_iff.mp hlookup
      exact hcites (i, ids) (by simp [hl]) c hc

lemma citesOf_lt {similarity : ℕ → ℕ → ℚ} {n : ℕ} {long : List (Text × ℕ)} :
    ∀ entry ∈ citesOf order similarity n long, ∀ c ∈ entry.2, c < n := by
  intro entry hentry c hc
  unfold citesOf at hentry
  cases hfind : (thresholds.map (citesAt order similarity n long)).find? (· ≠ []) with
  | none =>
    rw [hfind] at hentry
    cases hentry
  | some cites =>
    rw [hfind] at hentry
    obtain ⟨thr, -, rfl⟩ := mem_map.mp (mem_of_find?_eq_some hfind)
    obtain ⟨⟨⟨_, i⟩, j⟩, -, h⟩ := mem_filterMap.mp hentry
    dsimp only at h
    split_ifs at h
    obtain rfl := Option.some.inj h
    exact mem_range.mp (mem_filter.mp ((order _).2.mem_iff.mp (mem_of_mem_take hc))).1

/-- No chunks, or no piece that is long enough for a marker. -/
def NothingToCite (answer : Text) (chunks : List Text) : Prop :=
  chunks = [] ∨ ∀ piece ∈ piecesOf answer, piece.length < 5

/-- The result is the answer where there is nothing to cite, and else cites outside its fenced
blocks. -/
theorem insertCitations_cites (order : (l : List ℕ) → {l' : List ℕ // l'.Perm l})
    (similarity : List Text → List Text → ℕ → ℕ → ℚ) (answer : Text) (chunks : List Text) :
    NothingToCite answer chunks ∧ insertCitations order similarity answer chunks = (answer, []) ∨
      ¬NothingToCite answer chunks ∧
        Cites (closeBlocks (false, 0) answer) chunks (insertCitations order similarity answer chunks) := by
  have hlong : ((piecesOf answer).zipIdx.filter fun piece => 5 ≤ piece.1.length) = [] ↔
      ∀ piece ∈ piecesOf answer, piece.length < 5 := by
    simp only [filter_eq_nil_iff, decide_eq_true_eq, not_le]
    refine ⟨fun h piece hp => ?_, fun h piece hp => h _ (fst_mem_of_mem_zipIdx hp)⟩
    obtain ⟨i, hi⟩ := mem_iff_getElem?.mp hp
    exact h (piece, i) (mk_mem_zipIdx_iff_getElem?.mpr hi)
  unfold insertCitations NothingToCite
  rw [← hlong]
  dsimp only
  split_ifs with hchunks hpieces
  · exact .inl ⟨.inl hchunks, rfl⟩
  · exact .inl ⟨.inr hpieces, rfl⟩
  refine .inr ⟨not_or.mpr ⟨hchunks, hpieces⟩, ?_⟩
  obtain ⟨hflat, hclosed⟩ := piecesOf_spec answer
  obtain ⟨hmap, hnd, hlt⟩ := mark_spec (@citesOf_lt order _ _ _) (piecesOf answer) 0 [] nodup_nil
  refine ⟨_, by rw [hmap, hflat], rfl, rfl, hnd, hlt, fun before part after hparts _ => ?_⟩
  rw [← hmap, hparts, map_append] at hclosed
  rw [map_append]
  exact hclosed.cut.imp id map_eq_nil_iff.mp

/-- A block that is not closed gets a newline as well. -/
theorem newline_added : ¬ Cites "```abcde".toList [[]]
    (insertCitations (fun l => ⟨l, .refl l⟩) (fun _ _ _ _ => 0) "```abcde".toList [[]]) := by
  have hresult : insertCitations (fun l => ⟨l, .refl l⟩) (fun _ _ _ _ => 0) "```abcde".toList
      [[]] = ("```abcde\n".toList, []) := by
    decide +kernel
  rintro ⟨parts, hflat, hres, hids, -⟩
  rw [hresult] at hres hids
  have hrender : render parts = (parts.map Prod.fst).flatten := by
    rw [render]
    refine flatMap_congr fun part hpart => ?_
    rw [flatMap_eq_nil_iff.mp hids.symm part hpart, flatMap_nil, append_nil]
  rw [hrender, hflat] at hres
  exact absurd hres (by decide)

end CustomAi.Ragflow.Citations
