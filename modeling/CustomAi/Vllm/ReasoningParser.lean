import Mathlib.Data.List.Induction
import CustomAi.Lib.Substring
import CustomAi.Vllm.Request

/-!
# Reasoning parsers

`BaseThinkingReasoningParser` of `vllm/reasoning/basic_parsers.py`. Texts are lists of characters.
-/

namespace CustomAi.Vllm

open List Option

structure BaseThinkingReasoningParser where
  startToken : List Char
  endToken : List Char
  startTokenId : TokenId
  endTokenId : TokenId
  startToken_ne_nil : startToken ≠ []
  endToken_ne_nil : endToken ≠ []

/-- `DeltaMessage`, as far as the reasoning parsers fill it. -/
structure DeltaMessage where
  reasoning : Option (List Char) := none
  content : Option (List Char) := none
  deriving DecidableEq, Repr

/-- `x if x else None` -/
def noneIfEmpty (x : List Char) : Option (List Char) := if x = [] then none else some x

namespace BaseThinkingReasoningParser

/-- `extract_reasoning_streaming`. The texts of the previous and the current output are not read. -/
def extractReasoningStreaming (self : BaseThinkingReasoningParser) (deltaText : List Char)
    (previousTokenIds deltaTokenIds : List TokenId) : Option DeltaMessage :=
  if deltaTokenIds = [self.startTokenId] ∨ deltaTokenIds = [self.endTokenId] then none
  else if self.startTokenId ∈ previousTokenIds then
    if self.endTokenId ∈ deltaTokenIds then
      let endIndex := pyFind deltaText self.endToken
      let reasoning := pyTake deltaText endIndex
      let content := pySlice deltaText (endIndex + self.endToken.length) deltaText.length
      some { reasoning := some reasoning, content := noneIfEmpty content }
    else if self.endTokenId ∈ previousTokenIds then some { content := some deltaText }
    else some { reasoning := some deltaText }
  else if self.startTokenId ∈ deltaTokenIds then
    if self.endTokenId ∈ deltaTokenIds then
      let startIndex := pyFind deltaText self.startToken
      let endIndex := pyFind deltaText self.endToken
      let reasoning := pySlice deltaText (startIndex + self.startToken.length) endIndex
      let content := pySlice deltaText (endIndex + self.endToken.length) deltaText.length
      some { reasoning := some reasoning, content := noneIfEmpty content }
    else some { reasoning := some deltaText }
  else some { content := some deltaText }

def extractReasoning (self : BaseThinkingReasoningParser) (modelOutput : List Char) :
    Option (List Char) × Option (List Char) :=
  let modelOutputParts := pyPartition modelOutput self.startToken
  let modelOutput := if modelOutputParts.2.1 = [] then modelOutputParts.1
    else modelOutputParts.2.2
  if hasSub self.endToken modelOutput then
    let (reasoning, _, content) := pyPartition modelOutput self.endToken
    (some reasoning, noneIfEmpty content)
  else (some modelOutput, none)

end BaseThinkingReasoningParser

end CustomAi.Vllm

/-!
## Streams of reasoning

What a reasoning parser sends for a stream of deltas, compared with what it extracts from the whole
text. Each delta should add to the two fields what its tokens add to the reasoning and the content;
where it does not, the fields differ from then on.
-/

namespace CustomAi.Vllm

open List Option

namespace BaseThinkingReasoningParser

variable (p : BaseThinkingReasoningParser) (text : TokenId → List Char)

def feed (previous : List TokenId) : List (List TokenId) → List (Option DeltaMessage)
  | [] => []
  | delta :: rest =>
    p.extractReasoningStreaming (delta.flatMap text) previous delta :: feed (previous ++ delta) rest

def reasoningField (m : Option DeltaMessage) : List Char := (m.bind (·.reasoning)).getD []

def contentField (m : Option DeltaMessage) : List Char := (m.bind (·.content)).getD []

/-- The deltas add up to the fields of the whole text. -/
def Agrees (deltas : List (List TokenId)) : Prop :=
  (p.feed text [] deltas).flatMap reasoningField = (p.extractReasoning (deltas.flatten.flatMap text)).1.getD [] ∧
  (p.feed text [] deltas).flatMap contentField = (p.extractReasoning (deltas.flatten.flatMap text)).2.getD []

/-- A delta that is taken apart at the right places: start and end tokens come alone or in order,
and the first end token closes the reasoning. -/
def Handled (previous delta : List TokenId) : Prop :=
  if p.startTokenId ∈ previous then
    let since := afterFirst p.startTokenId previous
    if delta = [p.startTokenId] ∨ delta = [p.endTokenId] then
      delta = [p.endTokenId] ∧ p.endTokenId ∉ since
    else if p.endTokenId ∈ delta then p.endTokenId ∉ since
    else p.endTokenId ∈ previous → p.endTokenId ∈ since ∨ delta.flatMap text = []
  else if p.startTokenId ∈ delta then
    delta = [p.startTokenId] ∨
    if p.startTokenId = p.endTokenId then (afterFirst p.startTokenId delta).flatMap text = []
    else p.endTokenId ∉ beforeFirst p.startTokenId delta ∧ p.endTokenId ∈ afterFirst p.startTokenId delta
  else delta = [p.endTokenId] ∨ delta.flatMap text = []

def AllHandled (deltas : List (List TokenId)) : Prop :=
  ∀ before delta after, deltas = before ++ delta :: after → p.Handled text before.flatten delta

def reasoningTokens (t : List TokenId) : List TokenId :=
  let rest := afterFirst p.startTokenId t
  if p.endTokenId ∈ rest then beforeFirst p.endTokenId rest else rest

def contentTokens (t : List TokenId) : List TokenId :=
  let rest := afterFirst p.startTokenId t
  if p.endTokenId ∈ rest then afterFirst p.endTokenId rest else []

/-- The texts of the two tokens are the strings, which occur nowhere else in the output. -/
structure Delimits (t : List TokenId) : Prop where
  start_text : text p.startTokenId = p.startToken
  end_text : text p.endTokenId = p.endToken
  start_only : OnlyAs text p.startToken p.startTokenId t
  end_only : OnlyAs text p.endToken p.endTokenId t

variable {p text} {t previous delta : List TokenId} {deltas : List (List TokenId)}

variable {a b : List TokenId}

lemma Delimits.middle {m : List TokenId} (h : p.Delimits text (a ++ m ++ b)) : p.Delimits text m :=
  ⟨h.start_text, h.end_text, h.start_only.middle h.start_text p.startToken_ne_nil,
    h.end_only.middle h.end_text p.endToken_ne_nil⟩

lemma Delimits.left (h : p.Delimits text (a ++ b)) : p.Delimits text a := by
  rw [← nil_append a] at h
  exact h.middle

lemma Delimits.right (h : p.Delimits text (a ++ b)) : p.Delimits text b := by
  rw [← append_nil (a ++ b)] at h
  exact h.middle

lemma Delimits.afterFirst (h : p.Delimits text t) (hmem : p.startTokenId ∈ t) :
    p.Delimits text (afterFirst p.startTokenId t) := by
  rw [eq_beforeFirst_append hmem, ← singleton_append] at h
  exact h.right.right

lemma getD_noneIfEmpty (x : List Char) : (noneIfEmpty x).getD [] = x := by
  unfold noneIfEmpty
  split
  · next h => exact h.symm
  · rfl

lemma Delimits.extractReasoning_eq (h : p.Delimits text t) (hmem : p.startTokenId ∈ t) :
    p.extractReasoning (t.flatMap text) = (some ((p.reasoningTokens t).flatMap text),
      noneIfEmpty ((p.contentTokens t).flatMap text)) := by
  have hrest := h.afterFirst hmem
  unfold extractReasoning reasoningTokens contentTokens
  rw [h.start_only.pyPartition_of_mem h.start_text hmem]
  dsimp only
  rw [if_neg p.startToken_ne_nil]
  by_cases hend : p.endTokenId ∈ CustomAi.afterFirst p.startTokenId t
  · rw [if_pos ((hrest.end_only.hasSub_iff hrest.end_text).mpr hend), if_pos hend, if_pos hend,
      hrest.end_only.pyPartition_of_mem hrest.end_text hend]
  · rw [if_neg (fun hsub => hend ((hrest.end_only.hasSub_iff hrest.end_text).mp hsub)), if_neg hend, if_neg hend]
    rfl

def emitted (p : BaseThinkingReasoningParser) (text : TokenId → List Char)
    (previous delta : List TokenId) : List Char × List Char :=
  let m := p.extractReasoningStreaming (delta.flatMap text) previous delta
  (reasoningField m, contentField m)

def added (p : BaseThinkingReasoningParser) (text : TokenId → List Char)
    (previous delta : List TokenId) : List Char × List Char :=
  if p.endTokenId ∈ afterFirst p.startTokenId previous then ([], delta.flatMap text)
  else if p.endTokenId ∈ delta then
    ((beforeFirst p.endTokenId delta).flatMap text, (afterFirst p.endTokenId delta).flatMap text)
  else (delta.flatMap text, [])

variable (text delta) in
lemma tokens_append (hmem : p.startTokenId ∈ previous) : (p.reasoningTokens (previous ++ delta)).flatMap text =
      (p.reasoningTokens previous).flatMap text ++ (added p text previous delta).1 ∧
    (p.contentTokens (previous ++ delta)).flatMap text =
      (p.contentTokens previous).flatMap text ++ (added p text previous delta).2 := by
  unfold reasoningTokens contentTokens added
  dsimp only
  rw [afterFirst_append_of_mem hmem]
  by_cases hsince : p.endTokenId ∈ afterFirst p.startTokenId previous
  · have happend : p.endTokenId ∈ afterFirst p.startTokenId previous ++ delta := mem_append_left _ hsince
    rw [if_pos happend, if_pos happend, if_pos hsince, if_pos hsince, if_pos hsince,
      beforeFirst_append_of_mem hsince, afterFirst_append_of_mem hsince, flatMap_append]
    exact ⟨(append_nil _).symm, rfl⟩
  · rw [if_neg hsince, if_neg hsince, if_neg hsince]
    by_cases hdelta : p.endTokenId ∈ delta
    · have happend : p.endTokenId ∈ afterFirst p.startTokenId previous ++ delta := mem_append_right _ hdelta
      rw [if_pos happend, if_pos happend, if_pos hdelta, beforeFirst_append_of_not_mem hsince,
        afterFirst_append_of_not_mem hsince, flatMap_append]
      exact ⟨rfl, rfl⟩
    · have happend : p.endTokenId ∉ afterFirst p.startTokenId previous ++ delta := by
        rw [mem_append, not_or]
        exact ⟨hsince, hdelta⟩
      rw [if_neg happend, if_neg happend, if_neg hdelta, flatMap_append]
      exact ⟨rfl, rfl⟩

lemma Delimits.slices (h : p.Delimits text delta) (hend : p.endTokenId ∈ delta) :
    pyTake (delta.flatMap text) (pyFind (delta.flatMap text) p.endToken) =
      (beforeFirst p.endTokenId delta).flatMap text ∧
    pySlice (delta.flatMap text) (pyFind (delta.flatMap text) p.endToken + p.endToken.length)
      (delta.flatMap text).length = (CustomAi.afterFirst p.endTokenId delta).flatMap text := by
  have hsplit := flatMap_of_mem h.end_text hend
  rw [h.end_only.pyFind_of_mem h.end_text hend]
  constructor
  · rw [pyTake_natCast, hsplit, append_assoc, take_left]
  · unfold pySlice
    rw [pyTake_natCast, take_length, ← Int.natCast_add, ← length_append]
    conv_lhs => rw [hsplit]
    exact drop_left

/-- After the start token a message adds to its fields what the delta adds exactly if the delta is
handled. -/
lemma Delimits.emitted_eq_added_iff (h : p.Delimits text delta) (hmem : p.startTokenId ∈ previous) :
    emitted p text previous delta = added p text previous delta ↔ p.Handled text previous delta := by
  have hendPos : 0 < p.endToken.length := length_pos_iff.mpr p.endToken_ne_nil
  have hprev : p.endTokenId ∈ CustomAi.afterFirst p.startTokenId previous → p.endTokenId ∈ previous := by
    intro hsince
    rw [eq_beforeFirst_append hmem]
    exact mem_append_right _ (mem_cons_of_mem _ hsince)
  unfold emitted extractReasoningStreaming Handled added
  simp only [if_pos hmem]
  by_cases hspecial : delta = [p.startTokenId] ∨ delta = [p.endTokenId]
  · -- a lone special token adds its own text unless it closes the reasoning
    rw [if_pos hspecial, if_pos hspecial]
    by_cases hsince : p.endTokenId ∈ CustomAi.afterFirst p.startTokenId previous
    · rw [if_pos hsince]
      refine iff_of_false (fun heq => ?_) fun hand => hand.2 hsince
      have htext : delta.flatMap text = [] := (congrArg Prod.snd heq).symm
      rcases hspecial with rfl | rfl
      · rw [flatMap_singleton, h.start_text] at htext
        exact p.startToken_ne_nil htext
      · rw [flatMap_singleton, h.end_text] at htext
        exact p.endToken_ne_nil htext
    · rw [if_neg hsince]
      by_cases hdelta : delta = [p.endTokenId]
      · refine iff_of_true ?_ ⟨hdelta, hsince⟩
        rw [hdelta]
        simp [beforeFirst, CustomAi.afterFirst, reasoningField, contentField]
      · refine iff_of_false (fun heq => ?_) fun hand => hdelta hand.1
        have hstart := hspecial.resolve_right hdelta
        have hend : p.endTokenId ∉ delta := by
          rw [hstart, mem_singleton]
          intro he
          rw [hstart, he] at hdelta
          exact hdelta rfl
        rw [if_neg hend] at heq
        have htext : delta.flatMap text = [] := (congrArg Prod.fst heq).symm
        rw [hstart, flatMap_singleton, h.start_text] at htext
        exact p.startToken_ne_nil htext
  · rw [if_neg hspecial, if_neg hspecial]
    by_cases hdelta : p.endTokenId ∈ delta
    · obtain ⟨htake, hslice⟩ := h.slices hdelta
      rw [if_pos hdelta, if_pos hdelta, if_pos hdelta, htake, hslice]
      by_cases hsince : p.endTokenId ∈ CustomAi.afterFirst p.startTokenId previous
      · -- the text of the repeated end token is lost
        rw [if_pos hsince]
        refine iff_of_false (fun heq => ?_) fun hnot => hnot hsince
        have hcontent := congrArg (fun x => x.2.length) heq
        dsimp only [contentField, bind_some] at hcontent
        rw [getD_noneIfEmpty, flatMap_of_mem h.end_text hdelta, length_append, length_append] at hcontent
        omega
      · rw [if_neg hsince]
        refine iff_of_true ?_ hsince
        dsimp only [reasoningField, contentField, bind_some]
        rw [getD_noneIfEmpty]
        rfl
    · rw [if_neg hdelta, if_neg hdelta, if_neg hdelta]
      by_cases hbefore : p.endTokenId ∈ previous
      · rw [if_pos hbefore]
        by_cases hsince : p.endTokenId ∈ CustomAi.afterFirst p.startTokenId previous
        · rw [if_pos hsince]
          exact iff_of_true rfl fun _ => .inl hsince
        · rw [if_neg hsince]
          constructor
          · intro heq _
            exact .inr (congrArg Prod.snd heq)
          · intro hand
            rw [(hand hbefore).resolve_left hsince]
            rfl
      · rw [if_neg hbefore, if_neg fun hsince => hbefore (hprev hsince)]
        exact iff_of_true rfl fun hin => absurd hin hbefore

variable (p text) in
lemma emitted_before (hprev : p.startTokenId ∉ previous) (hdelta : p.startTokenId ∉ delta) :
    (emitted p text previous delta).1 = [] ∧
    ((emitted p text previous delta).2 = [] ↔ p.Handled text previous delta) := by
  have hne : delta ≠ [p.startTokenId] := by
    rintro rfl
    exact hdelta (mem_singleton.mpr rfl)
  unfold emitted extractReasoningStreaming Handled
  simp only [if_neg hprev, if_neg hdelta]
  by_cases hend : delta = [p.endTokenId]
  · rw [if_pos (.inr hend)]
    exact ⟨rfl, iff_of_true rfl (.inl hend)⟩
  · rw [if_neg (not_or.mpr ⟨hne, hend⟩)]
    exact ⟨rfl, (or_iff_right hend).symm⟩

lemma beforeFirst_of_not_mem_before {x y : TokenId} (hx : x ∈ t) (hy : y ∉ beforeFirst x t) (hxy : x ≠ y) :
    beforeFirst y t = beforeFirst x t ++ x :: beforeFirst y (CustomAi.afterFirst x t) ∧
    CustomAi.afterFirst y t = CustomAi.afterFirst y (CustomAi.afterFirst x t) := by
  have hy' : y ∉ beforeFirst x t ++ [x] := by
    rw [mem_append, mem_singleton, not_or]
    exact ⟨hy, hxy.symm⟩
  have ht : t = (beforeFirst x t ++ [x]) ++ CustomAi.afterFirst x t := by
    rw [append_assoc]
    exact eq_beforeFirst_append hx
  constructor
  · conv_lhs => rw [ht, beforeFirst_append_of_not_mem hy']
    rw [append_assoc, singleton_append]
  · conv_lhs => rw [ht, afterFirst_append_of_not_mem hy']

variable (p text) in
lemma length_contentTokens_le (t : List TokenId) : ((p.contentTokens t).flatMap text).length ≤
    ((CustomAi.afterFirst p.startTokenId t).flatMap text).length := by
  unfold contentTokens
  dsimp only
  split
  · next hend =>
    conv_rhs => rw [eq_beforeFirst_append hend]
    rw [flatMap_append, flatMap_cons, length_append, length_append]
    omega
  · exact Nat.zero_le _

lemma not_mem_afterFirst {x y : TokenId} (hx : x ∈ t) (hy : y ∉ t) : y ∉ CustomAi.afterFirst x t := by
  intro h
  rw [eq_beforeFirst_append hx] at hy
  exact hy (mem_append_right _ (mem_cons_of_mem _ h))

lemma Delimits.slice_between (h : p.Delimits text delta) (hstart : p.startTokenId ∈ delta)
    (hend : p.endTokenId ∈ delta) :
    pySlice (delta.flatMap text) (pyFind (delta.flatMap text) p.startToken + p.startToken.length)
      (pyFind (delta.flatMap text) p.endToken) = ((beforeFirst p.endTokenId delta).flatMap text).drop
      (((beforeFirst p.startTokenId delta).flatMap text).length + p.startToken.length) := by
  unfold pySlice
  rw [(h.slices hend).1, h.start_only.pyFind_of_mem h.start_text hstart, if_pos (by omega),
    ← Int.natCast_add, Int.toNat_natCast]

lemma Delimits.emitted_same (h : p.Delimits text delta) (hsame : p.startTokenId = p.endTokenId) (b : List Char) :
    (([] : List Char) = (p.reasoningTokens delta).flatMap text ∧
      b ++ (CustomAi.afterFirst p.endTokenId delta).flatMap text = (p.contentTokens delta).flatMap text) ↔
    b = [] ∧ (CustomAi.afterFirst p.startTokenId delta).flatMap text = [] := by
  unfold reasoningTokens contentTokens
  rw [← hsame]
  by_cases hagain : p.startTokenId ∈ CustomAi.afterFirst p.startTokenId delta
  · rw [if_pos hagain, if_pos hagain]
    have hsplit := flatMap_of_mem h.start_text hagain
    have hpos : 0 < p.startToken.length := length_pos_iff.mpr p.startToken_ne_nil
    refine iff_of_false (fun heq => ?_) fun heq => ?_
    · have hlen := congrArg List.length heq.2
      rw [hsplit] at hlen
      simp only [length_append] at hlen
      omega
    · have hlen := congrArg List.length heq.2
      rw [hsplit] at hlen
      simp only [length_append, length_nil] at hlen
      omega
  · rw [if_neg hagain, if_neg hagain]
    constructor
    · rintro ⟨hr, hc⟩
      exact ⟨(append_eq_nil_iff.mp hc).1, hr.symm⟩
    · rintro ⟨rfl, hr⟩
      rw [hr]
      exact ⟨rfl, rfl⟩

/-- The fields are right at the first start token exactly if nothing was sent before and the delta
is handled. -/
lemma Delimits.emitted_first_iff (h : p.Delimits text delta) (hprev : p.startTokenId ∉ previous)
    (hstart : p.startTokenId ∈ delta) (b : List Char) :
    ((emitted p text previous delta).1 = (p.reasoningTokens delta).flatMap text ∧
      b ++ (emitted p text previous delta).2 = (p.contentTokens delta).flatMap text) ↔
    b = [] ∧ p.Handled text previous delta := by
  have hstartPos : 0 < p.startToken.length := length_pos_iff.mpr p.startToken_ne_nil
  unfold emitted extractReasoningStreaming Handled
  simp only [if_neg hprev, if_pos hstart]
  by_cases hspecial : delta = [p.startTokenId] ∨ delta = [p.endTokenId]
  · have hlone : delta = [p.startTokenId] := by
      rcases hspecial with hd | hd
      · exact hd
      · rw [hd, mem_singleton] at hstart
        rw [hd, hstart]
    rw [hlone]
    simp [reasoningTokens, contentTokens, CustomAi.afterFirst, reasoningField, contentField]
  · have hlone : delta ≠ [p.startTokenId] := fun hd => hspecial (.inl hd)
    rw [if_neg hspecial, or_iff_right hlone]
    by_cases hend : p.endTokenId ∈ delta
    · rw [if_pos hend, (h.slices hend).2, h.slice_between hstart hend]
      dsimp only [reasoningField, contentField, bind_some]
      rw [getD_noneIfEmpty, getD_some]
      by_cases hsame : p.startTokenId = p.endTokenId
      · have hslice : ((beforeFirst p.endTokenId delta).flatMap text).drop
            (((beforeFirst p.startTokenId delta).flatMap text).length + p.startToken.length) = [] := by
          rw [hsame]
          exact drop_eq_nil_of_le (Nat.le_add_right _ _)
        rw [if_pos hsame, hslice]
        exact h.emitted_same hsame b
      · rw [if_neg hsame]
        by_cases hbefore : p.endTokenId ∈ beforeFirst p.startTokenId delta
        · -- the start token and all that follows it are taken for content
          refine iff_of_false (fun heq => ?_) fun heq => heq.2.1 hbefore
          have hafter : CustomAi.afterFirst p.endTokenId delta =
              CustomAi.afterFirst p.endTokenId (beforeFirst p.startTokenId delta) ++
                p.startTokenId :: CustomAi.afterFirst p.startTokenId delta := by
            conv_lhs => rw [eq_beforeFirst_append hstart, afterFirst_append_of_mem hbefore]
          have hlen := congrArg List.length heq.2
          have hle := length_contentTokens_le p text delta
          rw [hafter, flatMap_append, flatMap_cons, h.start_text] at hlen
          simp only [length_append] at hlen
          omega
        · obtain ⟨hbeforeEnd, hafterEnd⟩ := beforeFirst_of_not_mem_before hstart hbefore hsame
          have hrest : p.endTokenId ∈ CustomAi.afterFirst p.startTokenId delta := by
            rw [eq_beforeFirst_append hstart] at hend
            rcases mem_append.mp hend with hin | hin
            · exact absurd hin hbefore
            · exact (mem_cons.mp hin).resolve_left (Ne.symm hsame)
          unfold reasoningTokens contentTokens
          rw [if_pos hrest, if_pos hrest, hafterEnd, hbeforeEnd, flatMap_append,
            flatMap_cons, h.start_text, ← append_assoc, ← length_append, drop_left]
          constructor
          · rintro ⟨-, hb⟩
            exact ⟨append_left_eq_self.mp hb, hbefore, hrest⟩
          · rintro ⟨rfl, -⟩
            exact ⟨rfl, rfl⟩
    · -- the start token and all that precedes it are taken for reasoning
      have hsame : p.startTokenId ≠ p.endTokenId := by
        intro he
        exact hend (he ▸ hstart)
      have hrest := not_mem_afterFirst hstart hend
      rw [if_neg hend, if_neg hsame]
      refine iff_of_false (fun heq => ?_) fun heq => hrest heq.2.2
      have hr := congrArg List.length heq.1
      unfold reasoningTokens at hr
      dsimp only [reasoningField, bind_some] at hr
      rw [if_neg hrest, getD_some, flatMap_of_mem h.start_text hstart] at hr
      simp only [length_append] at hr
      omega

lemma feed_append (previous : List TokenId) (deltas : List (List TokenId)) (delta : List TokenId) :
    p.feed text previous (deltas ++ [delta]) = p.feed text previous deltas ++
      [p.extractReasoningStreaming (delta.flatMap text) (previous ++ deltas.flatten) delta] := by
  induction deltas generalizing previous with
  | nil => simp [feed]
  | cons d rest ih =>
    rw [cons_append, feed, feed, ih, cons_append, flatten_cons, append_assoc]

variable (p text) in
lemma fields_append (deltas : List (List TokenId)) (delta : List TokenId) :
    (p.feed text [] (deltas ++ [delta])).flatMap reasoningField =
      (p.feed text [] deltas).flatMap reasoningField ++ (emitted p text deltas.flatten delta).1 ∧
    (p.feed text [] (deltas ++ [delta])).flatMap contentField =
      (p.feed text [] deltas).flatMap contentField ++ (emitted p text deltas.flatten delta).2 := by
  rw [feed_append, flatMap_append, flatMap_append, flatMap_singleton, flatMap_singleton, nil_append]
  exact ⟨rfl, rfl⟩

lemma allHandled_append (deltas : List (List TokenId)) (delta : List TokenId) :
    p.AllHandled text (deltas ++ [delta]) ↔ p.AllHandled text deltas ∧ p.Handled text deltas.flatten delta := by
  constructor
  · intro h
    refine ⟨fun before d after hd => ?_, h deltas delta [] rfl⟩
    refine h before d (after ++ [delta]) ?_
    rw [hd, append_assoc, cons_append]
  · rintro ⟨hall, hlast⟩ before d after hd
    rcases eq_nil_or_concat after with rfl | ⟨after, x, rfl⟩
    · obtain ⟨rfl, hx⟩ := append_inj' hd rfl
      obtain ⟨rfl, -⟩ := List.cons.inj hx
      exact hlast
    · rw [concat_eq_append, ← cons_append, ← append_assoc] at hd
      exact hall before d after (append_inj' hd rfl).1

variable (text) in
lemma fields_before (h : p.startTokenId ∉ deltas.flatten) : (p.feed text [] deltas).flatMap reasoningField = [] ∧
    ((p.feed text [] deltas).flatMap contentField = [] ↔ p.AllHandled text deltas) := by
  induction deltas using reverseRecOn with
  | nil =>
    refine ⟨rfl, iff_of_true rfl fun before delta after hd => ?_⟩
    exact absurd hd.symm (append_ne_nil_of_right_ne_nil _ (cons_ne_nil _ _))
  | append_singleton deltas delta ih =>
    rw [flatten_append, flatten_singleton, mem_append, not_or] at h
    obtain ⟨hreasoning, hcontent⟩ := ih h.1
    obtain ⟨hempty, hhandled⟩ := emitted_before p text h.1 h.2
    obtain ⟨hr, hc⟩ := fields_append p text deltas delta
    rw [hr, hc, hreasoning, hempty, allHandled_append, ← hcontent, ← hhandled]
    exact ⟨rfl, append_eq_nil_iff⟩

lemma Delimits.agrees_iff (h : p.Delimits text deltas.flatten)
    (hmem : p.startTokenId ∈ deltas.flatten) : p.Agrees text deltas ↔
      (p.feed text [] deltas).flatMap reasoningField = (p.reasoningTokens deltas.flatten).flatMap text ∧
      (p.feed text [] deltas).flatMap contentField = (p.contentTokens deltas.flatten).flatMap text := by
  unfold Agrees
  rw [h.extractReasoning_eq hmem, getD_noneIfEmpty]
  exact Iff.rfl

lemma Delimits.agrees_append_iff {delta : List TokenId} (h : p.Delimits text (deltas ++ [delta]).flatten)
    (hmem : p.startTokenId ∈ (deltas ++ [delta]).flatten) (hagrees : p.startTokenId ∈ deltas.flatten →
      p.Agrees text deltas ∧ p.AllHandled text deltas) :
    p.Agrees text (deltas ++ [delta]) ↔ p.AllHandled text (deltas ++ [delta]) := by
  rw [h.agrees_iff hmem, allHandled_append]
  obtain ⟨hr, hc⟩ := fields_append p text deltas delta
  rw [hr, hc]
  rw [flatten_append, flatten_singleton] at h hmem ⊢
  by_cases hbefore : p.startTokenId ∈ deltas.flatten
  · obtain ⟨hold, hall⟩ := hagrees hbefore
    rw [h.left.agrees_iff hbefore] at hold
    obtain ⟨hreasoning, hcontent⟩ := tokens_append text delta hbefore
    rw [hold.1, hold.2, hreasoning, hcontent, append_cancel_left_eq,
      append_cancel_left_eq, ← Prod.ext_iff, h.right.emitted_eq_added_iff hbefore]
    exact (and_iff_right hall).symm
  · have hdelta : p.startTokenId ∈ delta := (mem_append.mp hmem).resolve_left hbefore
    obtain ⟨hreasoning, hcontent⟩ := fields_before text hbefore
    have htokens : p.reasoningTokens (deltas.flatten ++ delta) = p.reasoningTokens delta ∧
        p.contentTokens (deltas.flatten ++ delta) = p.contentTokens delta := by
      unfold reasoningTokens contentTokens
      rw [afterFirst_append_of_not_mem hbefore]
      exact ⟨rfl, rfl⟩
    rw [hreasoning, nil_append, htokens.1, htokens.2, h.right.emitted_first_iff hbefore hdelta, hcontent]

/-- The fields agree with the whole text throughout exactly if every delta is handled, once the
start token has come. -/
theorem streaming_agrees_iff (h : p.Delimits text deltas.flatten) :
    (∀ sent, sent <+: deltas → p.startTokenId ∈ sent.flatten → p.Agrees text sent) ↔
      (p.startTokenId ∈ deltas.flatten → p.AllHandled text deltas) := by
  induction deltas using reverseRecOn with
  | nil =>
    refine iff_of_true (fun sent hsent hmem => ?_) fun hmem => by cases hmem
    rw [prefix_nil.mp hsent] at hmem
    cases hmem
  | append_singleton deltas delta ih =>
    have hleft : p.Delimits text deltas.flatten := by
      rw [flatten_append] at h
      exact h.left
    have hbefore : p.startTokenId ∈ deltas.flatten → p.startTokenId ∈ (deltas ++ [delta]).flatten := by
      intro hmem
      rw [flatten_append]
      exact mem_append_left _ hmem
    constructor
    · intro hall hmem
      have hold : ∀ sent, sent <+: deltas → p.startTokenId ∈ sent.flatten → p.Agrees text sent :=
        fun sent hsent => hall sent (hsent.trans (prefix_append _ _))
      refine (h.agrees_append_iff hmem fun hin => ?_).mp (hall _ (prefix_refl _) hmem)
      exact ⟨hold deltas (prefix_refl _) hin, (ih hleft).mp hold hin⟩
    · intro hhandled sent hsent hmem
      have hdeltas : p.startTokenId ∈ deltas.flatten → p.AllHandled text deltas := fun hin =>
        ((allHandled_append deltas delta).mp (hhandled (hbefore hin))).1
      have hold := (ih hleft).mpr hdeltas
      rcases prefix_concat_iff.mp hsent with rfl | hsent
      · refine (h.agrees_append_iff hmem fun hin => ?_).mpr (hhandled hmem)
        exact ⟨hold deltas (prefix_refl _) hin, hdeltas hin⟩
      · exact hold sent hsent hmem

instance (p : BaseThinkingReasoningParser) (text : TokenId → List Char)
    (previous delta : List TokenId) : Decidable (p.Handled text previous delta) := by
  unfold Handled
  infer_instance

instance (p : BaseThinkingReasoningParser) (text : TokenId → List Char)
    (deltas : List (List TokenId)) : Decidable (p.Agrees text deltas) :=
  inferInstanceAs (Decidable (_ ∧ _))

def thinkParser : BaseThinkingReasoningParser where
  startToken := "<t>".toList
  endToken := "</t>".toList
  startTokenId := 1
  endTokenId := 2
  startToken_ne_nil := by decide
  endToken_ne_nil := by decide

def thinkText : TokenId → List Char
  | 1 => "<t>".toList
  | 2 => "</t>".toList
  | 3 => "a".toList
  | _ => "b".toList

lemma thinkParser_delimits {t : List TokenId} (hstart : Marked thinkText thinkParser.startToken 1 t = true)
    (hend : Marked thinkText thinkParser.endToken 2 t = true) : thinkParser.Delimits thinkText t :=
  ⟨rfl, rfl, onlyAs_of_marked hstart, onlyAs_of_marked hend⟩

theorem streaming_agrees_small : thinkParser.Agrees thinkText [[1], [3], [3, 2, 4], [4]] := by
  have hdelimits : thinkParser.Delimits thinkText [[1], [3], [3, 2, 4], [4]].flatten :=
    thinkParser_delimits (by decide) (by decide)
  refine (streaming_agrees_iff hdelimits).mpr (fun _ => ?_) _ (prefix_refl _) (by decide)
  have hnil : thinkParser.AllHandled thinkText [] := by
    intro before delta after hd
    exact absurd hd.symm (append_ne_nil_of_right_ne_nil _ (cons_ne_nil _ _))
  have hone := (allHandled_append [] [1]).mpr ⟨hnil, by decide⟩
  have htwo := (allHandled_append _ [3]).mpr ⟨hone, by decide⟩
  have hthree := (allHandled_append _ [3, 2, 4]).mpr ⟨htwo, by decide⟩
  exact (allHandled_append _ [4]).mpr ⟨hthree, by decide⟩

/-- The start token is sent as reasoning when it comes with the next token. -/
theorem start_token_streamed :
    thinkParser.Delimits thinkText [[1, 3]].flatten ∧
    (thinkParser.feed thinkText [] [[1, 3]]).flatMap reasoningField = "<t>a".toList ∧
    thinkParser.extractReasoning ([[1, 3]].flatten.flatMap thinkText) =
      (some "a".toList, none) ∧
    ¬thinkParser.Agrees thinkText [[1, 3]] :=
  ⟨thinkParser_delimits (by decide) (by decide), by decide, by decide, by decide⟩

end BaseThinkingReasoningParser

end CustomAi.Vllm
