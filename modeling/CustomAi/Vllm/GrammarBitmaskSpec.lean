import CustomAi.Vllm.GrammarBitmask

/-!
# The rows of a grammar bitmask

The serial and the parallel branch write the same rows, one segment for each request, and leave
every grammar as it was.
-/

namespace CustomAi.Vllm

open List Segments Option StructuredOutputGrammar

variable {G : Type}

namespace StructuredOutputGrammar

variable (ops : StructuredOutputGrammar G)

/-- `n` accepted tokens lead from one state to the other. -/
inductive Advances : G → ℕ → G → Prop
  | refl (g : G) : Advances g 0 g
  | step {g g' : G} {n : ℕ} (reqId : RequestId) (token : TokenId) (h : Advances g n g')
      (ha : (ops.acceptTokens g' reqId [token]).1 = true) :
      Advances g (n + 1) (ops.acceptTokens g' reqId [token]).2

variable {ops} in
lemma Advances.eq_of_zero {g g' : G} (h : ops.Advances g 0 g') : g' = g := by
  generalize hn : 0 = n at h
  cases h with
  | refl => rfl
  | step => exact absurd hn (Nat.succ_ne_zero _).symm

/-- A deterministic automaton with exact rollback, whose masks allow the tokens it accepts. -/
structure Automaton (width : ℕ) : Prop where
  rollback_exact : ∀ g n g', ops.Advances g n g' → ops.rollback g' n = g
  length_fill : ∀ g, (ops.fillBitmask g).length = width
  fill_allows : ∀ g reqId (token : ℕ), ops.isTerminated g = false → token < 32 * width →
    (ops.fillBitmask g).allows token = (ops.acceptTokens g reqId [(token : ℤ)]).1

def stateAfter (reqId : RequestId) (g : G) (tokens : List TokenId) : G :=
  tokens.foldl (fun g token => if ops.isTerminated g then g
    else (ops.acceptTokens g reqId [token]).2) g

/-- The grammar accepts each draft before padding or its end. -/
def ValidDrafts (reqId : RequestId) (g : G) (drafts : List TokenId) : Prop :=
  ∀ before token rest, drafts = before ++ token :: rest → -1 ∉ before → token ≠ -1 →
    ops.isTerminated (ops.stateAfter reqId g before) = false →
    (ops.acceptTokens (ops.stateAfter reqId g before) reqId [token]).1 = true

/-- A position is constrained if the drafts before it are no padding and do not terminate the
grammar. -/
def constrains (reqId : RequestId) (g : G) (applyBitmask : Bool) (before : List TokenId) : Bool :=
  applyBitmask && decide (-1 ∉ before) && !ops.isTerminated (ops.stateAfter reqId g before)

def positionRow (width : ℕ) (reqId : RequestId) (g : G) (applyBitmask : Bool)
    (before : List TokenId) : MaskRow :=
  if ops.constrains reqId g applyBitmask before then
    ops.fillBitmask (ops.stateAfter reqId g before)
  else replicate width (-1)

def positionRows (width : ℕ) (reqId : RequestId) (drafts : List TokenId) (v : G × Bool) :
    List MaskRow :=
  (List.range (1 + drafts.length)).map fun i =>
    ops.positionRow width reqId v.1 v.2 (drafts.take i)

variable {ops} {width : ℕ} {reqId : RequestId} {g : G} {applyBitmask : Bool}
  {before : List TokenId}

lemma stateAfter_append_singleton (token : TokenId) : ops.stateAfter reqId g (before ++ [token]) =
      if ops.isTerminated (ops.stateAfter reqId g before) then ops.stateAfter reqId g before
      else (ops.acceptTokens (ops.stateAfter reqId g before) reqId [token]).2 := by
  unfold stateAfter
  rw [foldl_append, foldl_cons, foldl_nil]

lemma Automaton.length_positionRow (h : ops.Automaton width) :
    (ops.positionRow width reqId g applyBitmask before).length = width := by
  unfold positionRow
  split
  · exact h.length_fill _
  · exact length_replicate

lemma length_positionRows (width : ℕ) (reqId : RequestId) (drafts : List TokenId) (v : G × Bool) :
    (ops.positionRows width reqId drafts v).length = 1 + drafts.length := by
  unfold positionRows
  rw [length_map, length_range]

end StructuredOutputGrammar

variable {ops : StructuredOutputGrammar G} {width : ℕ} {bitmask rows : List MaskRow} {i : ℕ}

lemma mem_writeAt {row : MaskRow} (h : row ∈ writeAt bitmask i rows) : row ∈ bitmask ∨ row ∈ rows := by
  unfold writeAt at h
  rw [mem_append, mem_append] at h
  rcases h with (h | h) | h
  · exact .inl (mem_of_mem_take h)
  · exact .inr h
  · exact .inl (mem_of_mem_drop h)

/-- All rows have `width` words. -/
def HasWidth (width : ℕ) (bitmask : List MaskRow) : Prop := ∀ row ∈ bitmask, row.length = width

lemma HasWidth.writeAt (h : HasWidth width bitmask) (hrows : HasWidth width rows) (i : ℕ) :
    HasWidth width (writeAt bitmask i rows) := by
  intro row hrow
  rcases mem_writeAt hrow with hrow | hrow
  · exact h row hrow
  · exact hrows row hrow

lemma StructuredOutputGrammar.Automaton.hasWidth_positionRows (h : ops.Automaton width)
    (reqId : RequestId) (drafts : List TokenId) (v : G × Bool) :
    HasWidth width (ops.positionRows width reqId drafts v) := by
  intro row hrow
  obtain ⟨i, -, rfl⟩ := mem_map.mp hrow
  exact h.length_positionRow

lemma fillFull_eq {row : MaskRow} (h : row.length = width) : row.fillFull = replicate width (-1) := by
  unfold MaskRow.fillFull
  rw [map_const', h]

namespace StructuredOutputManager

lemma fillRow_eq {x : G × ℕ × Bool} (hw : HasWidth width bitmask) (hx : x.2.1 < bitmask.length) :
    fillRow ops bitmask x = .ok (bitmask.set x.2.1 (if x.2.2 && !ops.isTerminated x.1 then ops.fillBitmask x.1
        else replicate width (-1))) := by
  unfold fillRow
  rw [getElem?_eq_getElem hx]
  dsimp only
  rw [fillFull_eq (hw _ (getElem_mem hx))]

/-- The loop over the tokens of a request after the tokens `before`. -/
structure PositionInv (ops : StructuredOutputGrammar G) (width : ℕ) (reqId : RequestId)
    (bitmask : List MaskRow) (start : ℕ) (v : G × Bool) (before : List TokenId)
    (s : PositionState G) : Prop where
  advances : ops.Advances v.1 s.stateAdvancements s.grammar
  grammar : s.applyBitmask = true → s.grammar = ops.stateAfter reqId v.1 before
  applyBitmask : s.applyBitmask = (v.2 && decide (-1 ∉ before))
  cumulativeIndex : s.cumulativeIndex = start + before.length
  bitmask : s.bitmask = writeAt bitmask start ((List.range before.length).map fun i =>
    ops.positionRow width reqId v.1 v.2 (before.take i))

variable {reqId : RequestId} {start : ℕ} {v : G × Bool} {before drafts : List TokenId}
  {s : PositionState G}

lemma PositionInv.row_eq (h : PositionInv ops width reqId bitmask start v before s) :
    (if s.applyBitmask && !ops.isTerminated s.grammar then ops.fillBitmask s.grammar
      else replicate width (-1)) = ops.positionRow width reqId v.1 v.2 before := by
  unfold positionRow constrains
  rw [← h.applyBitmask]
  cases happly : s.applyBitmask with
  | false => rfl
  | true => rw [h.grammar happly]

lemma PositionInv.step (h : PositionInv ops width reqId bitmask start v before s)
    (hauto : ops.Automaton width) (hw : HasWidth width bitmask) {token : TokenId}
    (hlen : start + before.length < bitmask.length) (hvalid : v.2 = true → -1 ∉ before → token ≠ -1 →
      ops.isTerminated (ops.stateAfter reqId v.1 before) = false →
      (ops.acceptTokens (ops.stateAfter reqId v.1 before) reqId [token]).1 = true) :
    ∃ s', fillPosition ops reqId s token = .ok s' ∧
      PositionInv ops width reqId bitmask start v (before ++ [token]) s' := by
  obtain ⟨hadv, hgrammar, happly, hindex, hbitmask⟩ := h
  have hrowsLen : ((range before.length).map fun i =>
      ops.positionRow width reqId v.1 v.2 (before.take i)).length = before.length := by
    rw [length_map, length_range]
  have hrowsWidth : HasWidth width ((range before.length).map fun i =>
      ops.positionRow width reqId v.1 v.2 (before.take i)) := by
    intro row hrow
    obtain ⟨i, -, rfl⟩ := mem_map.mp hrow
    exact hauto.length_positionRow
  have hw' : HasWidth width s.bitmask := hbitmask ▸ hw.writeAt hrowsWidth start
  have hlen' : s.cumulativeIndex < s.bitmask.length := by
    rw [hbitmask, length_writeAt (by omega), hindex]
    exact hlen
  have hrows : (range (before ++ [token]).length).map (fun i =>
      ops.positionRow width reqId v.1 v.2 ((before ++ [token]).take i)) = (range before.length).map (fun i =>
        ops.positionRow width reqId v.1 v.2 (before.take i)) ++ [ops.positionRow width reqId v.1 v.2 before] := by
    rw [length_append, length_singleton, range_succ, map_append, map_singleton, take_left]
    congr 1
    refine map_congr_left fun i hi => ?_
    rw [take_append_of_le_length (mem_range.mp hi).le]
  have hfill : fillBitmasks ops [(s.grammar, s.cumulativeIndex, s.applyBitmask)] s.bitmask =
      .ok (writeAt bitmask start ((range (before ++ [token]).length).map fun i =>
        ops.positionRow width reqId v.1 v.2 ((before ++ [token]).take i))) := by
    unfold fillBitmasks
    rw [foldlM_cons, fillRow_eq hw' hlen',
      PositionInv.row_eq ⟨hadv, hgrammar, happly, hindex, hbitmask⟩, hindex, hbitmask, hrows]
    have hset := set_writeAt (ops.positionRow width reqId v.1 v.2 before)
      (hrowsLen.symm ▸ hlen : start + ((range before.length).map fun i =>
        ops.positionRow width reqId v.1 v.2 (before.take i)).length < bitmask.length)
    rw [hrowsLen] at hset
    rw [hset]
    rfl
  have hindex' : s.cumulativeIndex + 1 = start + (before ++ [token]).length := by
    rw [hindex, length_append, length_singleton, Nat.add_assoc]
  have happly' : (if token = -1 then false else s.applyBitmask) = (v.2 && decide (-1 ∉ before ++ [token])) := by
    rw [happly]
    by_cases htoken : token = -1
    · rw [if_pos htoken, htoken, decide_eq_false (by simp), Bool.and_false]
    · rw [if_neg htoken]
      congr 1
      refine decide_eq_decide.mpr ?_
      rw [mem_append, mem_singleton]
      tauto
  unfold fillPosition
  rw [hfill, ok_bind]
  dsimp only
  by_cases hadvance : (if token = -1 then false else s.applyBitmask) &&
      !ops.isTerminated s.grammar
  · obtain ⟨hon, hterm⟩ := Bool.and_eq_true_iff.mp hadvance
    have htoken : token ≠ -1 := by
      rintro rfl
      exact absurd hon (by simp)
    rw [if_neg htoken] at hon
    have hstate := hgrammar hon
    rw [happly, Bool.and_eq_true_iff, decide_eq_true_iff] at hon
    rw [hstate, Bool.not_eq_true'] at hterm
    have haccept := hvalid hon.1 hon.2 htoken hterm
    rw [if_pos hadvance, hstate, ensure_of haccept, ok_bind]
    refine ⟨_, rfl, ?_, fun _ => ?_, happly', hindex', rfl⟩
    · exact (hstate ▸ hadv).step reqId token haccept
    · have hnot : ¬ops.isTerminated (ops.stateAfter reqId v.1 before) = true := by
        rw [hterm]
        exact Bool.false_ne_true
      rw [stateAfter_append_singleton, if_neg hnot]
  · rw [if_neg hadvance]
    refine ⟨_, rfl, hadv, fun hon => ?_, happly', hindex', rfl⟩
    have hterm : ops.isTerminated s.grammar = true := by
      dsimp only at hon
      rw [hon] at hadvance
      simpa using hadvance
    have hon' : s.applyBitmask = true := by
      dsimp only at hon
      split at hon
      · exact absurd hon (by decide)
      · exact hon
    have hstate := hgrammar hon'
    rw [stateAfter_append_singleton, ← hstate, if_pos hterm]

lemma PositionInv.loop (hauto : ops.Automaton width) (hw : HasWidth width bitmask)
    (hvalid : v.2 = true → ops.ValidDrafts reqId v.1 drafts)
    (hlen : start + (1 + drafts.length) ≤ bitmask.length) {rest : List TokenId}
    (htokens : drafts ++ [-1] = before ++ rest) (h : PositionInv ops width reqId bitmask start v before s) :
    ∃ s', rest.foldlM (fillPosition ops reqId) s = .ok s' ∧
      PositionInv ops width reqId bitmask start v (drafts ++ [-1]) s' := by
  induction rest generalizing before s with
  | nil =>
    rw [append_nil] at htokens
    exact ⟨s, rfl, htokens ▸ h⟩
  | cons token rest ih =>
    have hcount := congrArg length htokens
    rw [length_append, length_append, length_singleton, length_cons] at hcount
    obtain ⟨s', hs', h'⟩ := h.step hauto hw (by omega : start + before.length < bitmask.length) (by
      intro hv hbefore htoken hterm
      refine hvalid hv before token rest.dropLast ?_ hbefore htoken hterm
      have hdrop := congrArg dropLast htokens
      rw [dropLast_concat, dropLast_append_of_ne_nil (cons_ne_nil _ _)] at hdrop
      cases rest with
      | nil =>
        have hlast := congrArg getLast? htokens
        rw [getLast?_concat, getLast?_concat] at hlast
        exact absurd (some.inj hlast).symm htoken
      | cons token' rest => exact hdrop)
    rw [foldlM_cons, hs']
    refine ih ?_ h'
    rw [htokens, append_assoc, singleton_append]

lemma positions_eq (hauto : ops.Automaton width) (hw : HasWidth width bitmask)
    (hvalid : v.2 = true → ops.ValidDrafts reqId v.1 drafts) (hlen : start + (1 + drafts.length) ≤ bitmask.length) :
    ∃ s, (drafts ++ [-1]).foldlM (fillPosition ops reqId) ⟨v.1, bitmask, start, v.2, 0⟩ = .ok s ∧
      s.bitmask = writeAt bitmask start (ops.positionRows width reqId drafts v) ∧
      s.cumulativeIndex = start + (1 + drafts.length) ∧
      (if s.stateAdvancements > 0 then ops.rollback s.grammar s.stateAdvancements else s.grammar) = v.1 := by
  have hinit : PositionInv ops width reqId bitmask start v [] ⟨v.1, bitmask, start, v.2, 0⟩ :=
    ⟨.refl _, fun _ => rfl, (Bool.and_true v.2).symm, rfl, (writeAt_nil bitmask start).symm⟩
  obtain ⟨s, hs, h⟩ := hinit.loop hauto hw hvalid hlen (nil_append _).symm
  refine ⟨s, hs, ?_, ?_, ?_⟩
  · rw [h.bitmask]
    rw [length_append, length_singleton, Nat.add_comm drafts.length 1]
    congr 1
    refine map_congr_left fun i hi => ?_
    have hi' := mem_range.mp hi
    rw [take_append_of_le_length (by omega)]
  · rw [h.cumulativeIndex, length_append, length_singleton, Nat.add_comm drafts.length 1]
  · have hback := hauto.rollback_exact _ _ _ h.advances
    split
    · exact hback
    · next hzero =>
      have hnone : s.stateAdvancements = 0 := by omega
      have hadv := h.advances
      rw [hnone] at hadv
      exact hadv.eq_of_zero

variable {self : StructuredOutputManager} {requests : Dict RequestId (GrammarRequest G)}
  {scheduled : Dict RequestId (List TokenId)} {ids : List RequestId}

def view (self : StructuredOutputManager) (request : Option (GrammarRequest G)) :
    Option (G × Bool) :=
  request.bind fun request => request.structuredOutputRequest.map fun x =>
    (x.grammar, (self.shouldFillBitmask request.promptTokenIds x).1)

def draftsOf (scheduled : Dict RequestId (List TokenId)) (reqId : RequestId) : List TokenId :=
  (scheduled.get? reqId).getD []

def numRows (scheduled : Dict RequestId (List TokenId)) (reqId : RequestId) : ℕ :=
  1 + (draftsOf scheduled reqId).length

/-- The rows of a request of the batch. A request without structured output has full rows. -/
def maskRows (self : StructuredOutputManager) (ops : StructuredOutputGrammar G) (width : ℕ)
    (requests : Dict RequestId (GrammarRequest G)) (scheduled : Dict RequestId (List TokenId))
    (reqId : RequestId) : List MaskRow :=
  match self.view (requests.get? reqId) with
  | some v => ops.positionRows width reqId (draftsOf scheduled reqId) v
  | none => replicate (numRows scheduled reqId) (replicate width (-1))

def grammarOf (requests : Dict RequestId (GrammarRequest G)) (reqId : RequestId) : Option G :=
  ((requests.get? reqId).bind GrammarRequest.structuredOutputRequest).map StructuredOutputRequest.grammar

lemma length_maskRows (reqId : RequestId) :
    (self.maskRows ops width requests scheduled reqId).length = numRows scheduled reqId := by
  unfold maskRows
  split
  · exact length_positionRows ..
  · exact length_replicate

lemma hasWidth_maskRows (hauto : ops.Automaton width) (reqId : RequestId) :
    HasWidth width (self.maskRows ops width requests scheduled reqId) := by
  unfold maskRows
  split
  · exact hauto.hasWidth_positionRows _ _ _
  · intro row hrow
    rw [eq_of_mem_replicate hrow]
    exact length_replicate

lemma shouldFillBitmask_grammar (promptTokenIds : Option (List TokenId)) (x : StructuredOutputRequest G) :
    (self.shouldFillBitmask promptTokenIds x).2.grammar = x.grammar := by
  unfold shouldFillBitmask
  split
  · rfl
  · split
    · rfl
    · split <;> rfl

lemma structuredRequest_of_view (hview : self.view (requests.get? reqId) = some v) :
    ∃ request x, structuredRequest requests reqId = .ok (request, x) ∧
      requests.get? reqId = some request ∧ request.structuredOutputRequest = some x ∧
      v = (x.grammar, (self.shouldFillBitmask request.promptTokenIds x).1) := by
  obtain ⟨request, hget, hview⟩ := bind_eq_some_iff.mp hview
  obtain ⟨x, hx, hv⟩ := map_eq_some_iff.mp hview
  refine ⟨request, x, ?_, hget, hx, hv.symm⟩
  unfold structuredRequest
  rw [hget]
  dsimp only
  rw [hx]

lemma grammarOf_set {request : GrammarRequest G} {x x' : StructuredOutputRequest G}
    (hget : requests.get? reqId = some request) (hx : request.structuredOutputRequest = some x)
    (hgrammar : x'.grammar = x.grammar) (id : RequestId) :
    grammarOf (requests.set reqId { request with structuredOutputRequest := some x' }) id =
      grammarOf requests id := by
  unfold grammarOf
  by_cases hid : id = reqId
  · rw [hid, Dict.get?_set_self, hget, bind_some, bind_some, hx, map_some, map_some, hgrammar]
  · rw [Dict.get?_set_of_ne _ _ hid]

/-- What a loop over the requests `ids` leaves. -/
structure Filled (manager : StructuredOutputManager) (ops : StructuredOutputGrammar G)
    (width : ℕ) (scheduled : Dict RequestId (List TokenId)) (ids : List RequestId)
    (s s' : FillState G) : Prop where
  bitmask : s'.bitmask = writeAt s.bitmask s.cumulativeIndex
    (ids.flatMap (manager.maskRows ops width s.requests scheduled))
  cumulativeIndex : s'.cumulativeIndex = s.cumulativeIndex + total (numRows scheduled) ids
  grammarOf : ∀ id, grammarOf s'.requests id = grammarOf s.requests id

lemma serialRequest_eq (hauto : ops.Automaton width) {s : FillState G}
    (hw : HasWidth width s.bitmask) (hview : self.view (s.requests.get? reqId) = some v)
    (hvalid : v.2 = true → ops.ValidDrafts reqId v.1 (draftsOf scheduled reqId))
    (hlen : s.cumulativeIndex + numRows scheduled reqId ≤ s.bitmask.length) :
    ∃ s', self.serialRequest ops scheduled s reqId = .ok s' ∧ self.Filled ops width scheduled [reqId] s s' ∧
      ∀ id, id ≠ reqId → s'.requests.get? id = s.requests.get? id := by
  obtain ⟨request, x, hrequest, hget, hx, hv⟩ := structuredRequest_of_view hview
  obtain ⟨t, ht, hbitmask, hindex, hback⟩ := positions_eq hauto hw hvalid hlen
  rw [hv] at ht
  unfold serialRequest
  rw [hrequest, ok_bind]
  dsimp only
  rw [shouldFillBitmask_grammar]
  unfold draftsOf at ht
  rw [ht, ok_bind, hback]
  refine ⟨_, rfl, ⟨?_, ?_, ?_⟩, fun id hid => Dict.get?_set_of_ne _ _ hid⟩
  · rw [flatMap_singleton]
    unfold maskRows
    rw [hview]
    exact hbitmask
  · exact hindex
  · exact grammarOf_set hget hx (by rw [hv])

lemma serialFill_loop (hauto : ops.Automaton width) {s : FillState G} (hnd : ids.Nodup)
    (hw : HasWidth width s.bitmask) (hview : ∀ id ∈ ids, ∃ v, self.view (s.requests.get? id) = some v ∧
      (v.2 = true → ops.ValidDrafts id v.1 (draftsOf scheduled id)))
    (hlen : s.cumulativeIndex + total (numRows scheduled) ids ≤ s.bitmask.length) :
    ∃ s', ids.foldlM (self.serialRequest ops scheduled) s = .ok s' ∧ self.Filled ops width scheduled ids s s' := by
  induction ids generalizing s with
  | nil => exact ⟨s, rfl, (writeAt_nil _ _).symm, rfl, fun _ => rfl⟩
  | cons id ids ih =>
    obtain ⟨hid, hnd⟩ := nodup_cons.mp hnd
    rw [total_cons] at hlen
    obtain ⟨v, hv, hvalid⟩ := hview id mem_cons_self
    obtain ⟨s1, hs1, h1, hrest⟩ := serialRequest_eq hauto hw hv hvalid (by omega)
    have hne : ∀ id' ∈ ids, id' ≠ id := fun id' hid' h => hid (h ▸ hid')
    have hrows : ids.flatMap (self.maskRows ops width s1.requests scheduled) =
        ids.flatMap (self.maskRows ops width s.requests scheduled) := by
      refine flatMap_congr fun id' hid' => ?_
      unfold maskRows
      rw [hrest id' (hne id' hid')]
    have hbitmask1 := h1.bitmask
    rw [flatMap_singleton] at hbitmask1
    have hlength : (self.maskRows ops width s.requests scheduled id).length =
        numRows scheduled id := length_maskRows id
    have hlen1 : s1.bitmask.length = s.bitmask.length := by
      rw [hbitmask1, length_writeAt (by omega)]
    have hindex1 : s1.cumulativeIndex = s.cumulativeIndex + numRows scheduled id := by
      rw [h1.cumulativeIndex]
      rfl
    obtain ⟨s2, hs2, h2⟩ := ih hnd (hbitmask1 ▸ hw.writeAt (hasWidth_maskRows hauto id) _)
      (fun id' hid' => by
        rw [hrest id' (hne id' hid')]
        exact hview id' (mem_cons_of_mem id hid')) (by omega)
    refine ⟨s2, ?_, ?_, ?_, fun id' => (h2.grammarOf id').trans (h1.grammarOf id')⟩
    · rw [foldlM_cons, hs1, ok_bind, hs2]
    · rw [h2.bitmask, hrows, hbitmask1, hindex1, ← hlength, writeAt_append (by omega), flatMap_cons]
    · rw [h2.cumulativeIndex, hindex1, total_cons, Nat.add_assoc]

lemma serialFill_eq (hauto : ops.Automaton width) (hnd : ids.Nodup) (hw : HasWidth width bitmask)
    (hview : ∀ id ∈ ids, ∃ v, self.view (requests.get? id) = some v ∧
      (v.2 = true → ops.ValidDrafts id v.1 (draftsOf scheduled id)))
    (hlen : total (numRows scheduled) ids ≤ bitmask.length) :
    ∃ s, self.serialFill ops requests ids scheduled bitmask = .ok s ∧
      self.Filled ops width scheduled ids ⟨requests, bitmask, 0⟩ s :=
  serialFill_loop hauto hnd hw hview ((Nat.zero_add _).trans_le hlen)

def fillsFrom (self : StructuredOutputManager) (requests : Dict RequestId (GrammarRequest G)) :
    ℕ → List RequestId → List (G × ℕ × Bool)
  | _, [] => []
  | i, id :: ids =>
    ((self.view (requests.get? id)).map fun v => (v.1, i, v.2)).toList ++ self.fillsFrom requests (i + 1) ids

lemma fillsFrom_cons {id : RequestId} (hview : self.view (requests.get? id) = some v) :
    self.fillsFrom requests i (id :: ids) = (v.1, i, v.2) :: self.fillsFrom requests (i + 1) ids := by
  rw [fillsFrom, hview]
  rfl

lemma fillsFrom_congr {requests' : Dict RequestId (GrammarRequest G)}
    (h : ∀ id ∈ ids, requests'.get? id = requests.get? id) (i : ℕ) :
    self.fillsFrom requests' i ids = self.fillsFrom requests i ids := by
  induction ids generalizing i with
  | nil => rfl
  | cons id ids ih =>
    unfold fillsFrom
    rw [h id mem_cons_self, ih fun id' hid' => h id' (mem_cons_of_mem id hid')]

lemma mem_fillsFrom {x : G × ℕ × Bool} (hx : x ∈ self.fillsFrom requests i ids) :
    i ≤ x.2.1 ∧ x.2.1 < i + ids.length := by
  induction ids generalizing i with
  | nil => exact absurd hx not_mem_nil
  | cons id ids ih =>
    rw [length_cons]
    rcases mem_append.mp hx with hx | hx
    · obtain ⟨v, -, rfl⟩ := map_eq_some_iff.mp (mem_toList.mp hx)
      dsimp only
      omega
    · have hrest := ih hx
      omega

lemma nodup_fillsFrom : ((self.fillsFrom requests i ids).map fun x => x.2.1).Nodup := by
  induction ids generalizing i with
  | nil => exact nodup_nil
  | cons id ids ih =>
    unfold fillsFrom
    rw [map_append, nodup_append]
    refine ⟨?_, ih, ?_⟩
    · cases self.view (requests.get? id) with
      | none => exact nodup_nil
      | some v => exact nodup_singleton _
    · intro a ha b hb
      obtain ⟨x, hx, rfl⟩ := mem_map.mp ha
      obtain ⟨y, hy, rfl⟩ := mem_map.mp hb
      obtain ⟨v, -, rfl⟩ := map_eq_some_iff.mp (mem_toList.mp hx)
      have hlt := (mem_fillsFrom hy).1
      dsimp only
      omega

section

variable (hauto : ops.Automaton width) (hw : HasWidth width bitmask)
include hauto hw

lemma fillBitmasks_eq {batch : List (G × ℕ × Bool)} (hlen : ∀ x ∈ batch, x.2.1 < bitmask.length) :
    fillBitmasks ops batch bitmask = .ok (batch.foldl (fun m x => m.set x.2.1
      (if x.2.2 && !ops.isTerminated x.1 then ops.fillBitmask x.1 else replicate width (-1))) bitmask) := by
  unfold fillBitmasks
  induction batch generalizing bitmask with
  | nil => rfl
  | cons x batch ih =>
    rw [foldlM_cons, fillRow_eq hw (hlen x mem_cons_self), ok_bind]
    refine ih ?_ fun y hy => ?_
    · intro row hrow
      rcases mem_or_eq_of_mem_set hrow with hrow | rfl
      · exact hw row hrow
      · split
        · exact hauto.length_fill _
        · exact length_replicate
    · rw [length_set]
      exact hlen y (mem_cons_of_mem x hy)

lemma fillBitmasks_perm {batch batch' : List (G × ℕ × Bool)} (hlen : ∀ x ∈ batch, x.2.1 < bitmask.length)
    (hnd : (batch.map fun x => x.2.1).Nodup) (hperm : batch'.Perm batch) :
    fillBitmasks ops batch' bitmask = fillBitmasks ops batch bitmask := by
  rw [fillBitmasks_eq hauto hw hlen, fillBitmasks_eq hauto hw fun x hx => hlen x (hperm.mem_iff.mp hx)]
  congr 1
  refine (hperm.symm.foldl_eq' (fun x hx y hy m => ?_) bitmask).symm
  by_cases hxy : x.2.1 = y.2.1
  · rw [inj_on_of_nodup_map hnd hx hy hxy]
  · exact set_comm _ _ hxy

lemma fillBitmasks_fillsFrom (hview : ∀ id ∈ ids, ∃ v, self.view (requests.get? id) = some v)
    (hdrafts : ∀ id ∈ ids, draftsOf scheduled id = []) (hlen : i + ids.length ≤ bitmask.length) :
    fillBitmasks ops (self.fillsFrom requests i ids) bitmask =
      .ok (writeAt bitmask i (ids.flatMap (self.maskRows ops width requests scheduled))) := by
  induction ids generalizing i bitmask with
  | nil =>
    rw [flatMap_nil, writeAt_nil]
    rfl
  | cons id ids ih =>
    rw [length_cons] at hlen
    obtain ⟨v, hv⟩ := hview id mem_cons_self
    have hrow : self.maskRows ops width requests scheduled id =
        [if v.2 && !ops.isTerminated v.1 then ops.fillBitmask v.1
          else replicate width (-1)] := by
      unfold maskRows
      rw [hv, hdrafts id mem_cons_self]
      dsimp only [positionRows, length_nil, Nat.add_zero]
      rw [range_one, map_singleton]
      unfold positionRow constrains
      rw [take_nil, decide_eq_true not_mem_nil, Bool.and_true]
      rfl
    have hempty : i + ([] : List MaskRow).length < bitmask.length := by
      rw [length_nil]
      omega
    have hset := set_writeAt (if v.2 && !ops.isTerminated v.1 then ops.fillBitmask v.1
      else replicate width (-1)) hempty
    rw [writeAt_nil, length_nil, Nat.add_zero, nil_append, ← hrow] at hset
    have hlength : (self.maskRows ops width requests scheduled id).length = 1 := by
      rw [hrow, length_singleton]
    have hfit : i + (self.maskRows ops width requests scheduled id).length ≤ bitmask.length := by
      rw [hlength]
      omega
    have hwrite := ih (hw.writeAt (hasWidth_maskRows hauto id) i)
      (fun id' hid' => hview id' (mem_cons_of_mem id hid'))
      (fun id' hid' => hdrafts id' (mem_cons_of_mem id hid')) (i := i + 1)
      (by rw [length_writeAt hfit]; omega)
    unfold fillBitmasks at hwrite ⊢
    rw [fillsFrom_cons hv, foldlM_cons, fillRow_eq hw (by omega), ok_bind]
    rw [hset, hwrite, ← hlength, writeAt_append hfit, flatMap_cons]

end

lemma parallelRequest_eq {s : PromiseState G} (hview : self.view (s.requests.get? reqId) = some v) :
    ∃ s', self.parallelRequest s reqId = .ok s' ∧ s'.promises.flatten ++ s'.batch =
        s.promises.flatten ++ s.batch ++ [(v.1, s.cumulativeIndex, v.2)] ∧
      s'.cumulativeIndex = s.cumulativeIndex + 1 ∧ (∀ id, grammarOf s'.requests id = grammarOf s.requests id) ∧
      ∀ id, id ≠ reqId → s'.requests.get? id = s.requests.get? id := by
  obtain ⟨request, x, hrequest, hget, hx, rfl⟩ := structuredRequest_of_view hview
  unfold parallelRequest
  rw [hrequest, ok_bind]
  dsimp only
  rw [shouldFillBitmask_grammar]
  have hsame : (self.shouldFillBitmask request.promptTokenIds x).2.grammar = x.grammar :=
    shouldFillBitmask_grammar request.promptTokenIds x
  have hgrammar := fun id => grammarOf_set hget hx hsame id
  have hrest := fun id (hid : id ≠ reqId) => Dict.get?_set_of_ne s.requests
    ⟨request.promptTokenIds, some (self.shouldFillBitmask request.promptTokenIds x).2⟩ hid
  split
  · refine ⟨_, rfl, ?_, rfl, hgrammar, hrest⟩
    rw [flatten_append, flatten_singleton, append_nil, append_assoc]
  · refine ⟨_, rfl, ?_, rfl, hgrammar, hrest⟩
    rw [append_assoc]

lemma parallelFill_loop {s : PromiseState G} (hnd : ids.Nodup)
    (hview : ∀ id ∈ ids, ∃ v, self.view (s.requests.get? id) = some v) :
    ∃ s', ids.foldlM self.parallelRequest s = .ok s' ∧ s'.promises.flatten ++ s'.batch =
        s.promises.flatten ++ s.batch ++ self.fillsFrom s.requests s.cumulativeIndex ids ∧
      s'.cumulativeIndex = s.cumulativeIndex + ids.length ∧
      ∀ id, grammarOf s'.requests id = grammarOf s.requests id := by
  induction ids generalizing s with
  | nil => exact ⟨s, rfl, (append_nil _).symm, rfl, fun _ => rfl⟩
  | cons id ids ih =>
    obtain ⟨hid, hnd⟩ := nodup_cons.mp hnd
    obtain ⟨v, hv⟩ := hview id mem_cons_self
    obtain ⟨s1, hs1, hfills1, hindex1, hgrammar1, hrest⟩ := parallelRequest_eq hv
    have hsame : ∀ id' ∈ ids, s1.requests.get? id' = s.requests.get? id' := fun id' hid' =>
      hrest id' fun h => hid (h ▸ hid')
    obtain ⟨s2, hs2, hfills2, hindex2, hgrammar2⟩ := ih hnd (s := s1) fun id' hid' => by
      rw [hsame id' hid']
      exact hview id' (mem_cons_of_mem id hid')
    refine ⟨s2, ?_, ?_, ?_, fun id' => (hgrammar2 id').trans (hgrammar1 id')⟩
    · rw [foldlM_cons, hs1, ok_bind, hs2]
    · rw [hfills2, hfills1, hindex1, fillsFrom_congr hsame, fillsFrom_cons hv, append_assoc, singleton_append]
    · rw [length_cons]
      omega

lemma parallelFill_eq (hauto : ops.Automaton width) (hnd : ids.Nodup) (hw : HasWidth width bitmask)
    {interleave : List (List (G × ℕ × Bool)) → List (G × ℕ × Bool)}
    (hinterleave : ∀ batches, (interleave batches).Perm batches.flatten)
    (hview : ∀ id ∈ ids, ∃ v, self.view (requests.get? id) = some v)
    (hdrafts : ∀ id ∈ ids, draftsOf scheduled id = []) (hlen : total (numRows scheduled) ids ≤ bitmask.length) :
    ∃ s, self.parallelFill ops interleave requests ids bitmask = .ok s ∧
      self.Filled ops width scheduled ids ⟨requests, bitmask, 0⟩ s := by
  have htotal : total (numRows scheduled) ids = ids.length := by
    unfold total
    have hone : ids.map (numRows scheduled) = ids.map fun _ => 1 := by
      refine map_congr_left fun id hid => ?_
      unfold numRows
      rw [hdrafts id hid]
      rfl
    rw [hone, map_const', sum_replicate, smul_eq_mul, Nat.mul_one]
  obtain ⟨s, hs, hfills, hindex, hgrammar⟩ := parallelFill_loop (s := { requests }) hnd hview
  have hpromises : (if s.batch = [] then s.promises else s.promises ++ [s.batch]).flatten =
      self.fillsFrom requests 0 ids := by
    refine Eq.trans ?_ hfills
    split
    · next hnil => rw [hnil, append_nil]
    · rw [flatten_append, flatten_singleton]
  have hperm := hpromises ▸ hinterleave (if s.batch = [] then s.promises
    else s.promises ++ [s.batch])
  have hbitmask := (fillBitmasks_perm hauto hw
    (fun x hx => (mem_fillsFrom hx).2.trans_le (by omega)) nodup_fillsFrom hperm).trans
    (fillBitmasks_fillsFrom hauto hw hview hdrafts (by omega))
  unfold parallelFill
  rw [hs, ok_bind]
  dsimp only
  rw [hbitmask, ok_bind]
  refine ⟨_, rfl, rfl, ?_, hgrammar⟩
  rw [htotal]
  exact hindex

end StructuredOutputManager

end CustomAi.Vllm
