import CustomAi.Vllm.BatchReplay
import CustomAi.Vllm.InputBatch

/-!
# The columns of the persistent batch

What the columns of the batch must say about the requests in its slots, and what each call does to
them.
-/

namespace CustomAi.Vllm

open List Slots Function Option Dict

variable {G F : Type}

namespace CachedRequestState

/-- The length that `__post_init__` stores. -/
def numPromptTokens (r : CachedRequestState G F) : ℕ :=
  match r.promptTokenIds, r.promptEmbeds with
  | some tokens, _ => tokens.length
  | none, embeds => (embeds.getD []).length

def numTokens (r : CachedRequestState G F) : ℕ := r.numPromptTokens + r.outputTokenIds.length

def row (r : CachedRequestState G F) : IndexRow :=
  ⟨r.numTokens, r.numPromptTokens, r.numComputedTokens, r.blockIds, r.loraIntId.getD 0⟩

def TokensFit (row : ℕ → TokenId) (r : CachedRequestState G F) : Prop :=
  (∀ j token, (r.promptTokenIds.getD [])[j]? = some token → row j = token) ∧
  ∀ j token, r.outputTokenIds[j]? = some token → row (r.numPromptTokens + j) = token

def FlagsFit (row : ℕ → Bool) (r : CachedRequestState G F) : Prop :=
  ∀ j < r.numTokens, row j = (r.promptTokenIds.isSome || decide (r.numPromptTokens ≤ j))

def needsTokenIds (r : CachedRequestState G F) : Bool :=
  r.samplingParams.isNone && r.poolingParams.any (·.requiresTokenIds)

def ownGenerator (r : CachedRequestState G F) : Option G :=
  r.samplingParams.bind fun _ => r.generator

def badWords (r : CachedRequestState G F) : Option (List (List TokenId)) :=
  r.samplingParams.bind fun params =>
    if params.badWordsTokenIds = [] then none else some params.badWordsTokenIds

def tokenMask (r : CachedRequestState G F) : TokenId → Bool :=
  r.samplingParams.elim (fun _ => false) BatchSamplingParams.tokenMask

/-- What `BatchUpdate.added` says of the request. -/
def content (r : CachedRequestState G F) :
    Option (BatchSamplingParams F × Option (List TokenId) × List TokenId) :=
  r.samplingParams.map fun params => (params, r.promptTokenIds, r.outputTokenIds)

/-- There is a prompt, and its embeds are as long as its tokens. -/
def WellFormed (r : CachedRequestState G F) : Prop :=
  (r.promptTokenIds ≠ none ∨ r.promptEmbeds ≠ none) ∧
  ∀ tokens embeds, r.promptTokenIds = some tokens → r.promptEmbeds = some embeds → embeds.length = tokens.length

lemma WellFormed.length_eq {r : CachedRequestState G F} (h : r.WellFormed) :
    lengthFromPromptTokenIdsOrEmbeds r.promptTokenIds r.promptEmbeds = .ok r.numPromptTokens := by
  obtain ⟨hsome, hlen⟩ := h
  unfold lengthFromPromptTokenIdsOrEmbeds numPromptTokens
  cases ht : r.promptTokenIds with
  | none =>
    cases he : r.promptEmbeds with
    | none =>
      rw [ht, he] at hsome
      simp at hsome
    | some embeds => rfl
  | some tokens =>
    cases he : r.promptEmbeds with
    | none => rfl
    | some embeds => simp [hlen tokens embeds ht he]

end CachedRequestState

variable {α : Type} {target : ℕ} (obj : Dict ℕ α)

lemma writeRow_apply (row : ℕ → α) (start : ℕ) (l : List α) (j : ℕ) (x : α) (hx : l[j]? = some x) :
    writeRow row start l (start + j) = x := by
  unfold writeRow
  rw [if_pos (Nat.le_add_right start j), Nat.add_sub_cancel_left, hx, getD_some]

open CachedRequestState

lemma tokensFit_written (r : CachedRequestState G F) (row : ℕ → TokenId) :
    TokensFit (writeRow (writeRow row 0 (r.promptTokenIds.getD [])) r.numPromptTokens r.outputTokenIds) r := by
  constructor
  · intro j token hj
    have hlt : j < r.numPromptTokens := by
      have hbound := (List.getElem?_eq_some_iff.mp hj).1
      unfold numPromptTokens
      cases hp : r.promptTokenIds with
      | none =>
        rw [hp] at hbound
        exact absurd hbound (Nat.not_lt_zero j)
      | some tokens =>
        rw [hp] at hbound
        exact hbound
    rw [writeRow, if_neg (Nat.not_le.mpr hlt)]
    have hwrite := writeRow_apply row 0 _ j token hj
    rwa [Nat.zero_add] at hwrite
  · intro j token hj
    exact writeRow_apply _ _ _ j token hj

lemma flagsFit_written (r : CachedRequestState G F) (row : ℕ → Bool) :
    FlagsFit (fillRow (fillRow row 0 r.numPromptTokens r.promptTokenIds.isSome)
      r.numPromptTokens (r.numPromptTokens + r.outputTokenIds.length) true) r := by
  intro j hj
  unfold fillRow
  by_cases hle : r.numPromptTokens ≤ j
  · rw [if_pos ⟨hle, hj⟩]
    simp [hle]
  · rw [if_neg (fun h => hle h.1)]
    simp [hle]

variable {r : CachedRequestState G F} {source : ℕ}

lemma tokensFit_copied {source : ℕ → TokenId} (h : TokensFit source r)
    (row : ℕ → TokenId) : TokensFit (copyRow row r.numTokens source) r := by
  have hcopy : ∀ j, j < r.numTokens → copyRow row r.numTokens source j = source j :=
    fun j hj => if_pos hj
  constructor
  · intro j token hj
    have hlt : j < r.numTokens := by
      have hbound := (List.getElem?_eq_some_iff.mp hj).1
      unfold numTokens numPromptTokens
      cases hp : r.promptTokenIds with
      | none =>
        rw [hp] at hbound
        exact absurd hbound (Nat.not_lt_zero j)
      | some tokens =>
        rw [hp] at hbound
        exact Nat.lt_of_lt_of_le hbound (Nat.le_add_right _ _)
    rw [hcopy j hlt]
    exact h.1 j token hj
  · intro j token hj
    have hbound := (List.getElem?_eq_some_iff.mp hj).1
    rw [hcopy _ (Nat.add_lt_add_left hbound _)]
    exact h.2 j token hj

lemma flagsFit_copied {source : ℕ → Bool}
    (h : FlagsFit source r) (row : ℕ → Bool) : FlagsFit (copyRow row r.numTokens source) r := by
  intro j hj
  unfold copyRow
  rw [if_pos hj]
  exact h j hj

lemma moveDictValue_of_ne {source j : ℕ} (hs : j ≠ source) (ht : j ≠ target) :
    (moveDictValue obj source target).get? j = obj.get? j := by
  unfold moveDictValue
  cases obj.get? source with
  | none => rfl
  | some value =>
    rw [get?_set_of_ne _ _ ht, get?_erase_of_ne _ hs]

lemma moveDictValue_get? {obj : Dict ℕ α} (ht : obj.get? target = none) (j : ℕ) :
    (moveDictValue obj source target).get? j = move source target obj.get? j := by
  unfold moveDictValue
  rw [move_apply]
  cases hs : obj.get? source with
  | none =>
    dsimp only
    split
    · next hj => rw [hj, ht]
    · split
      · next hj => rw [hj, hs]
      · rfl
  | some value =>
    rw [get?_set, get?_erase]

lemma moveDictValue_target {obj : Dict ℕ α} (h : obj.get? source ≠ none ∨ obj.get? target = none) :
    (moveDictValue obj source target).get? target = obj.get? source := by
  unfold moveDictValue
  cases hs : obj.get? source with
  | none => exact h.resolve_left fun hne => hne hs
  | some value => exact get?_set_self _ _ _

lemma swapDictValues_get? (key1 key2 j : ℕ) :
    (swapDictValues obj key1 key2).get? j = swap key1 key2 obj.get? j := by
  have hput : ∀ (d : Dict ℕ α) (k : ℕ) (v : Option α) (i : ℕ),
      (v.elim (d.erase k) (d.set k)).get? i = if i = k then v else d.get? i := by
    intro d k v i
    cases v with
    | none => exact get?_erase d k i
    | some x => exact get?_set d k i x
  unfold swapDictValues
  rw [swap_apply, hput, hput]
  by_cases h1 : j = key1
  · rw [if_pos h1]
    by_cases h2 : j = key2
    · rw [if_pos h2, ← h1, h2]
    · rw [if_neg h2, if_pos h1]
  · rw [if_neg h1, if_neg h1]

namespace InputBatch

variable [Zero F] {f32 : Float32 F}

def maskRow (b : InputBatch G F) : ℕ → TokenId → Bool :=
  b.allowedTokenIdsMask.getD fun _ _ => false

structure Columns (f32 : Float32 F) (b : InputBatch G F)
    (slots : ℕ → Option (CachedRequestState G F)) : Prop where
  output : Follows (fun i => b.reqOutputTokenIds[i]?) slots fun x r => x = some (some r.outputTokenIds)
  spec : ∀ l ∈ b.specTokenIds, l = []
  rows : Follows b.rows slots fun x r => x = r.row
  tokens : Follows b.tokenIdsCpu slots TokensFit
  isToken : Follows b.isTokenIds slots FlagsFit
  embeds : Follows b.reqPromptEmbeds.get? slots fun x r => x = r.promptEmbeds
  needs : Follows b.logitsProcessingNeedsTokenIds slots fun x r => x = r.needsTokenIds
  accepted : ∀ i, b.numAcceptedTokensCpu i = 1
  sampling : Follows b.samplingRows slots fun x r =>
    ∀ params, r.samplingParams = some params → x = params.row f32 b.vocabSize
  generators : Tracks b.generators.get? slots ownGenerator []
  badWords : Tracks b.badWordsTokenIds.get? slots CachedRequestState.badWords []
  mask : Follows b.maskRow slots fun x r => x = r.tokenMask

structure Kinds (b : InputBatch G F) (slots : ℕ → Option (CachedRequestState G F)) : Prop where
  sampling : ∀ i r, slots i = some r → (b.isPoolingModel = true ↔ r.samplingParams = none)
  mask : b.isPoolingModel = true → b.allowedTokenIdsMask = none
  needs : b.isPoolingModel = false → ∀ i, b.logitsProcessingNeedsTokenIds i = false

variable {b : InputBatch G F} {slots : ℕ → Option (CachedRequestState G F)} {i : ℕ}
  {r : CachedRequestState G F}

section

variable (h : Columns f32 b slots)
include h

lemma Columns.allSpec_set (i : ℕ) : ∀ l ∈ b.specTokenIds.set i [], l = [] := by
  intro l hl
  rcases mem_or_eq_of_mem_set hl with hl | hl
  · exact h.spec l hl
  · exact hl

lemma Columns.spec_getD (i : ℕ) : b.specTokenIds.getD i [] = [] := by
  rw [getD_eq_getElem?_getD]
  cases hi : b.specTokenIds[i]? with
  | none => rfl
  | some l => exact h.spec l (mem_of_getElem? hi)

lemma Columns.withIndex (reqIds : List (Option RequestId))
    (reqIdToIndex : Dict RequestId ℕ) (batchUpdateBuilder : BatchUpdateBuilder F) :
    Columns f32 { b with reqIds, reqIdToIndex, batchUpdateBuilder } slots :=
  ⟨h.output, h.spec, h.rows, h.tokens, h.isToken, h.embeds, h.needs, h.accepted, h.sampling,
    h.generators, h.badWords, h.mask⟩

lemma Columns.sparse_eq_none (hnone : ∀ r, slots i = some r →
    r.samplingParams = none) : b.generators.get? i = none ∧ b.badWordsTokenIds.get? i = none := by
  have hgen := h.generators i not_mem_nil
  have hbad := h.badWords i not_mem_nil
  rw [hgen, hbad]
  cases hr : slots i with
  | none => exact ⟨rfl, rfl⟩
  | some r =>
    have hr' := hnone r hr
    unfold ownGenerator CachedRequestState.badWords
    rw [bind_some, bind_some, hr']
    exact ⟨rfl, rfl⟩

lemma Columns.clear (hkinds : b.Kinds slots) (i : ℕ) :
    Columns f32 (b.clearColumns i) (update slots i none) := by
  have houtput : Follows (fun j => (b.reqOutputTokenIds.set i none)[j]?)
      (update slots i none) fun x r => x = some (some r.outputTokenIds) :=
    h.output.empty fun j hj => getElem?_set_ne (Ne.symm hj)
  have hrows : Follows (update b.rows i { b.rows i with loraId := 0 })
      (update slots i none) fun x r => x = r.row :=
    h.rows.empty fun j hj => update_of_ne hj _ _
  have hsame : ∀ {α : Type} {c : ℕ → α} {fits : α → CachedRequestState G F → Prop},
      Follows c slots fits → Follows c (update slots i none) fits :=
    fun hc => hc.empty fun _ _ => rfl
  unfold clearColumns
  dsimp only
  split
  · next hpool =>
    obtain ⟨hgen, hbad⟩ := h.sparse_eq_none fun r hr => (hkinds.sampling i r hr).mp hpool
    exact ⟨houtput, h.allSpec_set i, hrows, hsame h.tokens, hsame h.isToken, hsame h.embeds,
      hsame h.needs, h.accepted, hsame h.sampling, h.generators.empty (fun _ _ => rfl) (fun _ hj => hj) (.inr hgen),
      h.badWords.empty (fun _ _ => rfl) (fun _ hj => hj) (.inr hbad), hsame h.mask⟩
  · refine ⟨houtput, h.allSpec_set i, hrows, hsame h.tokens, hsame h.isToken, hsame h.embeds,
      hsame h.needs, h.accepted, hsame h.sampling,
      h.generators.empty (fun j hj => get?_erase_of_ne _ hj) (fun _ hj => hj)
        (.inr (get?_erase_self _ _)),
      h.badWords.empty (fun j hj => get?_erase_of_ne _ hj) (fun _ hj => hj)
        (.inr (get?_erase_self _ _)), h.mask.empty fun j hj => ?_⟩
    unfold maskRow
    cases hmask : b.allowedTokenIdsMask with
    | none => rfl
    | some mask => exact update_of_ne hj _ _

end

structure MoveClean (b : InputBatch G F) (last empty : ℕ) : Prop where
  embeds : b.reqPromptEmbeds.get? last ≠ none ∨ b.reqPromptEmbeds.get? empty = none
  needs : b.logitsProcessingNeedsTokenIds last = b.logitsProcessingNeedsTokenIds empty

omit [Zero F] in
lemma Kinds.maskRow_eq (hkinds : b.Kinds slots) (hpool : b.isPoolingModel = true) :
    b.maskRow = fun _ _ => false := by
  unfold maskRow
  rw [hkinds.mask hpool]
  rfl

lemma Columns.move (h : Columns f32 b slots) (hkinds : b.Kinds slots) {last empty : ℕ}
    (hlast : slots last = some r) (hempty : slots empty = none)
    (hlength : empty < b.reqOutputTokenIds.length) (hclean : b.MoveClean last empty) :
    Columns f32 (b.moveColumns last empty) (Slots.move last empty slots) := by
  have hne : empty ≠ last := by
    rintro rfl
    rw [hlast] at hempty
    cases hempty
  have hnum : (b.rows last).numTokensNoSpec + (b.specTokenIds.getD last []).length = r.numTokens := by
    rw [h.rows last r hlast, h.spec_getD last]
    rfl
  have hupdate : ∀ {α : Type} (c : ℕ → α) (y : α) (j : ℕ), j ≠ last → j ≠ empty →
      update c empty y j = c j := fun c y j _ hj => update_of_ne hj _ _
  have houtput : Follows (fun j => ((b.reqOutputTokenIds.set empty
      (b.reqOutputTokenIds.getD last none)).set last none)[j]?) (Slots.move last empty slots)
      fun x r => x = some (some r.outputTokenIds) := by
    refine h.output.move (fun j hj hj' => ?_) fun x hx => ?_
    · rw [getElem?_set_ne (Ne.symm hj), getElem?_set_ne (Ne.symm hj')]
    · have hx' : b.reqOutputTokenIds[last]? = some (some x.outputTokenIds) := h.output last x hx
      rw [getElem?_set_ne (Ne.symm hne), getElem?_set_self hlength, getD_eq_getElem?_getD, hx', getD_some]
  have hspec : ∀ l ∈ (b.specTokenIds.set empty (b.specTokenIds.getD last [])).set last [], l = [] := by
    intro l hl
    rcases mem_or_eq_of_mem_set hl with hl | hl
    · rcases mem_or_eq_of_mem_set hl with hl | hl
      · exact h.spec l hl
      · exact hl.trans (h.spec_getD last)
    · exact hl
  have hrows : Follows (update b.rows empty (b.rows last)) (Slots.move last empty slots)
      fun x r => x = r.row := by
    refine h.rows.move (hupdate _ _) fun x hx => ?_
    rw [update_self]
    exact h.rows last x hx
  have htokens : Follows (update b.tokenIdsCpu empty
      (copyRow (b.tokenIdsCpu empty) r.numTokens (b.tokenIdsCpu last)))
      (Slots.move last empty slots) TokensFit := by
    refine h.tokens.move (hupdate _ _) fun x hx => ?_
    rw [update_self]
    have hxr : r = x := some.inj (hlast.symm.trans hx)
    rw [hxr]
    exact tokensFit_copied (h.tokens last x hx) _
  have hflags : Follows (update b.isTokenIds empty
      (copyRow (b.isTokenIds empty) r.numTokens (b.isTokenIds last)))
      (Slots.move last empty slots) FlagsFit := by
    refine h.isToken.move (hupdate _ _) fun x hx => ?_
    rw [update_self]
    have hxr : r = x := some.inj (hlast.symm.trans hx)
    rw [hxr]
    exact flagsFit_copied (h.isToken last x hx) _
  have hembeds : Follows (moveDictValue b.reqPromptEmbeds last empty).get?
      (Slots.move last empty slots) fun x r => x = r.promptEmbeds := by
    refine h.embeds.move (fun j hj hj' => moveDictValue_of_ne _ hj hj') fun x hx => ?_
    rw [moveDictValue_target hclean.embeds]
    exact h.embeds last x hx
  have hneeds : Follows b.logitsProcessingNeedsTokenIds (Slots.move last empty slots)
      fun x r => x = r.needsTokenIds := by
    refine h.needs.move (fun _ _ _ => rfl) fun x hx => ?_
    rw [← hclean.needs]
    exact h.needs last x hx
  have hsampling : Follows (update b.samplingRows empty (b.samplingRows last))
      (Slots.move last empty slots) fun x r =>
        ∀ params, r.samplingParams = some params → x = params.row f32 b.vocabSize := by
    refine h.sampling.move (hupdate _ _) fun x hx => ?_
    rw [update_self]
    exact h.sampling last x hx
  have hgen : b.generators.get? empty = none := by
    have hi := h.generators empty not_mem_nil
    rwa [hempty] at hi
  have hbad : b.badWordsTokenIds.get? empty = none := by
    have hi := h.badWords empty not_mem_nil
    rwa [hempty] at hi
  have hstale : ∀ j ∈ ([] : List ℕ), j = empty ∨ j ∈ ([] : List ℕ) := fun j hj => .inr hj
  unfold moveColumns
  dsimp only
  rw [hnum]
  split
  · next hpool =>
    have hnone := (hkinds.sampling last r hlast).mp hpool
    obtain ⟨hgenLast, hbadLast⟩ := h.sparse_eq_none fun r' hr' =>
      (hkinds.sampling last r' hr').mp hpool
    have hkeep : ∀ {α : Type} {d : ℕ → Option α}, d last = none → d empty = none →
        ∀ j, d j = Slots.move last empty d j := by
      intro α d hl he j
      rw [move_apply]
      split
      · next hj => rw [hj, he, hl]
      · split
        · next hj => rw [hj, hl]
        · rfl
    refine ⟨houtput, hspec, hrows, htokens, hflags, hembeds, hneeds, h.accepted,
      h.sampling.move (fun _ _ _ => rfl) fun x hx params hparams => ?_,
      h.generators.move not_mem_nil (hkeep hgenLast hgen) hstale,
      h.badWords.move not_mem_nil (hkeep hbadLast hbad) hstale, h.mask.move (fun _ _ _ => rfl) fun x hx => ?_⟩
    · rw [← some.inj (hlast.symm.trans hx), hnone] at hparams
      cases hparams
    · have hrow := congrFun (hkinds.maskRow_eq hpool)
      change b.maskRow empty = _
      rw [hrow empty, ← hrow last]
      exact h.mask last x hx
  · refine ⟨houtput, hspec, hrows, htokens, hflags, hembeds, hneeds, fun j => ?_, hsampling,
      h.generators.move not_mem_nil (moveDictValue_get? hgen) hstale,
      h.badWords.move not_mem_nil (moveDictValue_get? hbad) hstale, h.mask.move (fun j hj hj' => ?_) fun x hx => ?_⟩
    · change update b.numAcceptedTokensCpu empty (b.numAcceptedTokensCpu last) j = 1
      rw [update_apply, h.accepted, h.accepted, ite_self]
    · unfold maskRow
      cases b.allowedTokenIdsMask with
      | none => rfl
      | some mask => exact update_of_ne hj' _ _
    · have hmask := h.mask last x hx
      unfold maskRow at hmask ⊢
      revert hmask
      cases b.allowedTokenIdsMask with
      | none => exact id
      | some mask =>
        intro hmask
        exact (update_self empty (mask last) mask).trans hmask

structure SwapClean (b : InputBatch G F) (i1 i2 : ℕ) : Prop where
  mask : b.maskRow i1 = b.maskRow i2
  needs : b.logitsProcessingNeedsTokenIds i1 = b.logitsProcessingNeedsTokenIds i2

variable {α : Type} {l : List α} {i1 i2 : ℕ}

lemma getElem?_swap {x1 x2 : α} (h1 : l[i1]? = some x1) (h2 : l[i2]? = some x2) (j : ℕ) :
    ((l.set i1 x2).set i2 x1)[j]? = swap i1 i2 (fun i => l[i]?) j := by
  have hlt1 := (List.getElem?_eq_some_iff.mp h1).1
  have hlt2 := (List.getElem?_eq_some_iff.mp h2).1
  rw [swap_apply, List.getElem?_set, List.getElem?_set, length_set]
  by_cases hj2 : j = i2
  · rw [if_pos hj2.symm, if_pos hlt2, if_pos hj2, h1]
  · rw [if_neg (Ne.symm hj2), if_neg hj2]
    by_cases hj1 : j = i1
    · rw [if_pos hj1.symm, if_pos hlt1, if_pos hj1, h2]
    · rw [if_neg (Ne.symm hj1), if_neg hj1]

lemma Columns.swap (h : Columns f32 b slots) (hkinds : b.Kinds slots)
    {r1 r2 : CachedRequestState G F} (h1 : slots i1 = some r1) (h2 : slots i2 = some r2)
    (hclean : b.SwapClean i1 i2) : Columns f32 (b.swapColumns i1 i2) (Slots.swap i1 i2 slots) := by
  have ho1 : b.reqOutputTokenIds[i1]? = some (some r1.outputTokenIds) := h.output i1 r1 h1
  have ho2 : b.reqOutputTokenIds[i2]? = some (some r2.outputTokenIds) := h.output i2 r2 h2
  have houtput : Follows (fun j => ((b.reqOutputTokenIds.set i1
      (b.reqOutputTokenIds.getD i2 none)).set i2 (b.reqOutputTokenIds.getD i1 none))[j]?)
      (Slots.swap i1 i2 slots) fun x r => x = some (some r.outputTokenIds) := by
    refine h.output.swap fun j => ?_
    rw [getD_eq_getElem?_getD, getD_eq_getElem?_getD, ho1, ho2]
    exact getElem?_swap ho1 ho2 j
  have hspec : ∀ l ∈ (b.specTokenIds.set i1 (b.specTokenIds.getD i2 [])).set i2
      (b.specTokenIds.getD i1 []), l = [] := by
    intro l hl
    rcases mem_or_eq_of_mem_set hl with hl | hl
    · rcases mem_or_eq_of_mem_set hl with hl | hl
      · exact h.spec l hl
      · exact hl.trans (h.spec_getD i2)
    · exact hl.trans (h.spec_getD i1)
  have hrows := h.rows.swap (a := i1) (b := i2) fun _ => rfl
  have htokens := h.tokens.swap (a := i1) (b := i2) fun _ => rfl
  have hflags := h.isToken.swap (a := i1) (b := i2) fun _ => rfl
  have hembeds : Follows (swapDictValues b.reqPromptEmbeds i1 i2).get? (Slots.swap i1 i2 slots)
      fun x r => x = r.promptEmbeds := h.embeds.swap (swapDictValues_get? _ i1 i2)
  have hneeds : Follows b.logitsProcessingNeedsTokenIds (Slots.swap i1 i2 slots)
      fun x r => x = r.needsTokenIds :=
    h.needs.swap fun j => (congrFun (swap_eq_self hclean.needs) j).symm
  unfold swapColumns
  dsimp only
  split
  · next hpool =>
    have hnone : ∀ {i r}, slots i = some r → r.samplingParams = none := fun hi =>
      (hkinds.sampling _ _ hi).mp hpool
    obtain ⟨hg1, hb1⟩ := h.sparse_eq_none fun r hr => hnone (i := i1) hr
    obtain ⟨hg2, hb2⟩ := h.sparse_eq_none fun r hr => hnone (i := i2) hr
    refine ⟨houtput, hspec, hrows, htokens, hflags, hembeds, hneeds, h.accepted,
      fun j x hx params hparams => ?_, h.generators.swap not_mem_nil not_mem_nil fun j =>
        (congrFun (swap_eq_self (hg1.trans hg2.symm)) j).symm, h.badWords.swap not_mem_nil not_mem_nil fun j =>
        (congrFun (swap_eq_self (hb1.trans hb2.symm)) j).symm,
      h.mask.swap fun j => (congrFun (swap_eq_self hclean.mask) j).symm⟩
    rw [hnone hx] at hparams
    cases hparams
  · refine ⟨houtput, hspec, hrows, htokens, hflags, hembeds, hneeds, fun j => h.accepted _,
      h.sampling.swap fun _ => rfl, h.generators.swap not_mem_nil not_mem_nil (swapDictValues_get? _ i1 i2),
      h.badWords.swap not_mem_nil not_mem_nil (swapDictValues_get? _ i1 i2), h.mask.swap fun j => ?_⟩
    have hmask := hclean.mask
    have hsame := congrFun (swap_eq_self hclean.mask) j
    rw [hsame]
    unfold maskRow at hmask ⊢
    revert hmask
    cases b.allowedTokenIdsMask with
    | none => exact fun _ => rfl
    | some mask =>
      intro hmask
      change update (update mask i1 (mask i2)) i2
        (update mask i1 (mask i2) i1) j = mask j
      have hmask' : mask i1 = mask i2 := hmask
      rw [← hmask', update_eq_self, hmask', update_eq_self]

structure AddClean (b : InputBatch G F) (i : ℕ) (r : CachedRequestState G F) : Prop where
  embeds : r.promptEmbeds ≠ none ∨ b.reqPromptEmbeds.get? i = none
  mask : r.samplingParams.any (fun params => params.allowedTokenIds ≠ []) = true ∨ b.maskRow i = fun _ => false

lemma getElem?_stored {n : ℕ} (hn : l.length = n) (hi : i ≤ n) (x : α) (j : ℕ) :
    (if i = n then l ++ [x] else l.set i x)[j]? = if j = i then some x else l[j]? := by
  split
  · next hin =>
    rw [getElem?_append]
    by_cases hj : j = i
    · have hlt : ¬j < l.length := by omega
      rw [if_neg hlt, if_pos hj, hj, hin, hn, Nat.sub_self, getElem?_cons_zero]
    · split
      · rfl
      · next hge =>
        rw [getElem?_eq_none (by simp; omega), getElem?_eq_none (by omega)]
  · next hin =>
    rw [getElem?_set]
    by_cases hj : j = i
    · have hlt : i < l.length := by omega
      rw [if_pos hj.symm, if_pos hlt, if_pos hj]
    · rw [if_neg (Ne.symm hj), if_neg hj]

variable (f32) in
lemma maskRow_addSampling (b : InputBatch G F) (i : ℕ) (r : CachedRequestState G F)
    {params : BatchSamplingParams F} (hclean : params.allowedTokenIds ≠ [] ∨ b.maskRow i = fun _ => false) :
    (b.addSampling f32 i r params).maskRow = update b.maskRow i params.tokenMask := by
  unfold InputBatch.addSampling maskRow
  dsimp only
  by_cases hempty : params.allowedTokenIds = []
  · have hfalse : params.tokenMask = fun _ => false := by
      funext token
      exact if_pos hempty
    have hrow := hclean.resolve_left fun hne => hne hempty
    have hself := update_eq_self i b.maskRow
    rw [hrow] at hself
    rw [if_pos hempty, hfalse]
    exact hself.symm
  · rw [if_neg hempty]
    rfl

lemma get?_elim_set (obj : Dict ℕ α) (i j : ℕ) (x : Option α) (h : x ≠ none ∨ obj.get? i = none) :
    (x.elim obj (obj.set i)).get? j = if j = i then x else obj.get? j := by
  cases x with
  | none =>
    split
    · next hj => rw [hj, elim_none, h.resolve_left fun hne => hne rfl]
    · rfl
  | some y => exact get?_set obj i j y

/-- The columns of an added request that do not depend on its parameters. -/
structure Placed (b : InputBatch G F) (slots : ℕ → Option (CachedRequestState G F)) (i : ℕ)
    (r : CachedRequestState G F) : Prop where
  output : Follows (fun j => (if i = b.reqIds.length then
      b.reqOutputTokenIds ++ [some r.outputTokenIds]
      else b.reqOutputTokenIds.set i (some r.outputTokenIds))[j]?)
      (update slots i (some r)) fun x r => x = some (some r.outputTokenIds)
  spec : ∀ l ∈ (if i = b.reqIds.length then b.specTokenIds ++ [[]] else b.specTokenIds.set i []), l = []
  rows : Follows (update b.rows i ⟨r.numPromptTokens + r.outputTokenIds.length,
      r.numPromptTokens, r.numComputedTokens, r.blockIds, r.loraIntId.getD 0⟩)
      (update slots i (some r)) fun x r => x = r.row
  tokens : Follows (update b.tokenIdsCpu i
      (writeRow (writeRow (b.tokenIdsCpu i) 0 (r.promptTokenIds.getD [])) r.numPromptTokens
        r.outputTokenIds)) (update slots i (some r)) TokensFit
  flags : Follows (update b.isTokenIds i
      (fillRow (fillRow (b.isTokenIds i) 0 r.numPromptTokens r.promptTokenIds.isSome)
        r.numPromptTokens (r.numPromptTokens + r.outputTokenIds.length) true))
      (update slots i (some r)) FlagsFit
  embeds : Follows (r.promptEmbeds.elim b.reqPromptEmbeds (b.reqPromptEmbeds.set i)).get?
      (update slots i (some r)) fun x r => x = r.promptEmbeds
  accepted : ∀ j, update b.numAcceptedTokensCpu i 1 j = 1

lemma Columns.placed (h : Columns f32 b slots) (hlength : b.reqOutputTokenIds.length = b.reqIds.length)
    (hi : i ≤ b.reqIds.length) (hclean : b.AddClean i r) : Placed b slots i r where
  output := by
    refine h.output.fill (fun j hj => ?_) ?_
    · rw [getElem?_stored hlength hi, if_neg hj]
    · rw [getElem?_stored hlength hi, if_pos rfl]
  spec l hl := by
    split at hl
    · rcases mem_append.mp hl with hl | hl
      · exact h.spec l hl
      · exact mem_singleton.mp hl
    · exact h.allSpec_set i l hl
  rows := h.rows.fill (fun j hj => update_of_ne hj _ _) (update_self _ _ _)
  tokens := by
    refine h.tokens.fill (fun j hj => update_of_ne hj _ _) ?_
    rw [update_self]
    exact tokensFit_written r _
  flags := by
    refine h.isToken.fill (fun j hj => update_of_ne hj _ _) ?_
    rw [update_self]
    exact flagsFit_written r _
  embeds := by
    refine h.embeds.fill (fun j hj => ?_) ?_
    · rw [get?_elim_set _ _ _ _ hclean.embeds, if_neg hj]
    · rw [get?_elim_set _ _ _ _ hclean.embeds, if_pos rfl]
  accepted j := by
    rw [update_apply, h.accepted, ite_self]

section Add

variable (h : Columns f32 b slots) (hkinds : b.Kinds slots) (hfree : slots i = none) (hwf : r.WellFormed)
  (hkind : b.isPoolingModel = true ↔ r.samplingParams = none) (hp : Placed b slots i r)
include h hkinds hfree hwf hkind hp

lemma Columns.add_pooling (hparams : r.samplingParams = none) (hsome : r.poolingParams ≠ none) :
    ∃ b', b.addColumns f32 i r = .ok b' ∧ Columns f32 b' (update slots i (some r)) := by
  obtain ⟨params, hpooling⟩ := ne_none_iff_exists'.mp hsome
  have hneeds : Follows (update b.logitsProcessingNeedsTokenIds i
      params.requiresTokenIds) (update slots i (some r))
      fun x r => x = r.needsTokenIds := by
    refine h.needs.fill (fun j hj => update_of_ne hj _ _) ?_
    rw [update_self]
    unfold needsTokenIds
    rw [hparams, hpooling]
    rfl
  have hmask : b.maskRow i = r.tokenMask := by
    rw [hkinds.maskRow_eq (hkind.mpr hparams)]
    unfold tokenMask
    rw [hparams]
    rfl
  have hsampling : Follows b.samplingRows (update slots i (some r)) fun x r =>
      ∀ params, r.samplingParams = some params → x = params.row f32 b.vocabSize := by
    refine h.sampling.fill (fun _ _ => rfl) fun params' hparams' => ?_
    rw [hparams] at hparams'
    cases hparams'
  have hgenTracks : Tracks b.generators.get? (update slots i (some r)) ownGenerator [] := by
    refine h.generators.fill (fun _ _ => rfl) ?_ fun j hj => .inr hj
    unfold ownGenerator
    rw [h.generators.eq_none hfree not_mem_nil, hparams, bind_none]
  have hbadTracks : Tracks b.badWordsTokenIds.get? (update slots i (some r))
      CachedRequestState.badWords [] := by
    refine h.badWords.fill (fun _ _ => rfl) ?_ fun j hj => .inr hj
    unfold CachedRequestState.badWords
    rw [h.badWords.eq_none hfree not_mem_nil, hparams, bind_none]
  unfold InputBatch.addColumns
  simp only [hparams, hwf.length_eq, hpooling, ok_bind, pure_eq_ok]
  exact ⟨_, rfl, hp.output, hp.spec, hp.rows, hp.tokens, hp.flags, hp.embeds, hneeds, hp.accepted,
    hsampling, hgenTracks, hbadTracks, h.mask.fill (fun _ _ => rfl) hmask⟩

lemma Columns.add_sampling {params : BatchSamplingParams F} (hparams : r.samplingParams = some params)
    (hclean : params.allowedTokenIds ≠ [] ∨ b.maskRow i = fun _ => false) :
    ∃ b', b.addColumns f32 i r = .ok b' ∧ Columns f32 b' (update slots i (some r)) := by
  have hnotPool : b.isPoolingModel = false := by
    cases hb : b.isPoolingModel with
    | false => rfl
    | true =>
      rw [hkind.mp hb] at hparams
      cases hparams
  have hneeds : Follows b.logitsProcessingNeedsTokenIds (update slots i (some r))
      fun x r => x = r.needsTokenIds := by
    refine h.needs.fill (fun _ _ => rfl) ?_
    rw [hkinds.needs hnotPool]
    unfold needsTokenIds
    rw [hparams]
    rfl
  have hsampling : Follows (update b.samplingRows i (params.row f32 b.vocabSize))
      (update slots i (some r)) fun x r =>
      ∀ params, r.samplingParams = some params → x = params.row f32 b.vocabSize := by
    refine h.sampling.fill (fun j hj => update_of_ne hj _ _) fun params' hparams' => ?_
    rw [update_self, some.inj (hparams.symm.trans hparams')]
  have hgenTracks : Tracks (r.generator.elim b.generators (b.generators.set i)).get?
      (update slots i (some r)) ownGenerator [] := by
    have hgen := h.generators.eq_none hfree not_mem_nil
    refine h.generators.fill (fun j hj => ?_) ?_ fun j hj => .inr hj
    · rw [get?_elim_set _ _ _ _ (.inr hgen), if_neg hj]
    · rw [get?_elim_set _ _ _ _ (.inr hgen), if_pos rfl]
      unfold ownGenerator
      rw [hparams, bind_some]
  have hbadTracks : Tracks (if params.badWordsTokenIds = [] then b.badWordsTokenIds
      else b.badWordsTokenIds.set i params.badWordsTokenIds).get?
      (update slots i (some r)) CachedRequestState.badWords [] := by
    refine h.badWords.fill (fun j hj => ?_) ?_ fun j hj => .inr hj
    · split
      · rfl
      · exact get?_set_of_ne _ _ hj
    · unfold CachedRequestState.badWords
      rw [hparams, bind_some]
      split
      · exact h.badWords.eq_none hfree not_mem_nil
      · exact get?_set_self _ _ _
  have hmask : Follows (update b.maskRow i params.tokenMask)
      (update slots i (some r)) fun x r => x = r.tokenMask := by
    refine h.mask.fill (fun j hj => update_of_ne hj _ _) ?_
    unfold tokenMask
    rw [update_self, hparams, elim_some]
  rw [← maskRow_addSampling f32 b i r hclean] at hmask
  unfold InputBatch.addColumns
  simp only [hparams, hwf.length_eq, ok_bind, pure_eq_ok]
  exact ⟨_, rfl, hp.output, hp.spec, hp.rows, hp.tokens, hp.flags, hp.embeds, hneeds, hp.accepted,
    hsampling, hgenTracks, hbadTracks, hmask⟩

end Add

lemma Columns.add (h : Columns f32 b slots) (hkinds : b.Kinds slots) (hfree : slots i = none)
    (hwf : r.WellFormed) (hkind : b.isPoolingModel = true ↔ r.samplingParams = none)
    (hsome : r.samplingParams = none → r.poolingParams ≠ none)
    (hlength : b.reqOutputTokenIds.length = b.reqIds.length) (hi : i ≤ b.reqIds.length) (hclean : b.AddClean i r) :
    ∃ b', b.addColumns f32 i r = .ok b' ∧ Columns f32 b' (update slots i (some r)) := by
  have hp := h.placed hlength hi hclean
  cases hparams : r.samplingParams with
  | none => exact h.add_pooling hkinds hfree hwf hkind hp hparams (hsome hparams)
  | some params =>
    refine h.add_sampling hkinds hfree hwf hkind hp hparams ?_
    have hmask := hclean.mask
    rw [hparams] at hmask
    simpa using hmask

end InputBatch

end CustomAi.Vllm
