import CustomAi.Vllm.InputBatchSpec

/-!
# Swapping two rows of the persistent batch

What a swap of two occupied rows must do, and what becomes of the token masks, whose rows are views
of one array.
-/

namespace CustomAi.Vllm.InputBatch

open Slots Option

variable {G F : Type} {b b' b'' : InputBatch G F} {i1 i2 : ℕ}

/-- The index maps every id to its slot, and the parallel lists reach as far as the ids. -/
structure Parallel (b : InputBatch G F) : Prop where
  index : Inverse b.reqIdToIndex fun i => (b.reqIds[i]?).join
  output : b.reqOutputTokenIds.length = b.reqIds.length
  spec : b.reqIds.length ≤ b.specTokenIds.length

def Occupied (b : InputBatch G F) (i : ℕ) : Prop := ∃ id, b.reqIds[i]? = some (some id)

/-- All but the mask rows changed places, which the builder has recorded, and nothing else. -/
structure Exchanged (b b' : InputBatch G F) (i1 i2 : ℕ) : Prop where
  reqIds : ∀ j, b'.reqIds[j]? = swap i1 i2 (fun i => b.reqIds[i]?) j
  index : ∀ id, b'.reqIdToIndex.get? id = (b.reqIdToIndex.get? id).map (Equiv.swap i1 i2)
  output : ∀ j, b'.reqOutputTokenIds[j]? = swap i1 i2 (fun i => b.reqOutputTokenIds[i]?) j
  spec : ∀ j, b'.specTokenIds[j]? = swap i1 i2 (fun i => b.specTokenIds[i]?) j
  tokens : b'.tokenIdsCpu = swap i1 i2 b.tokenIdsCpu
  isToken : b'.isTokenIds = swap i1 i2 b.isTokenIds
  embeds : ∀ j, b'.reqPromptEmbeds.get? j = swap i1 i2 b.reqPromptEmbeds.get? j
  rows : b'.rows = swap i1 i2 b.rows
  sampling : b'.samplingRows = swap i1 i2 b.samplingRows
  accepted : b'.numAcceptedTokensCpu = swap i1 i2 b.numAcceptedTokensCpu
  generators : ∀ j, b'.generators.get? j = swap i1 i2 b.generators.get? j
  badWords : ∀ j, b'.badWordsTokenIds.get? j = swap i1 i2 b.badWordsTokenIds.get? j
  recorded : b'.batchUpdateBuilder = { b.batchUpdateBuilder with
    moved := b.batchUpdateBuilder.moved ++ [⟨i1, i2, .swap⟩] }
  settings : (b'.isPoolingModel, b'.maxNumReqs, b'.vocabSize, b'.logitsProcessingNeedsTokenIds) =
    (b.isPoolingModel, b.maxNumReqs, b.vocabSize, b.logitsProcessingNeedsTokenIds)

structure Swapped (b b' : InputBatch G F) (i1 i2 : ℕ) : Prop extends Exchanged b b' i1 i2 where
  mask : b'.allowedTokenIdsMask = b.allowedTokenIdsMask.map (swap i1 i2)

structure Same (b b' : InputBatch G F) : Prop where
  reqIds : b'.reqIds = b.reqIds
  index : ∀ id, b'.reqIdToIndex.get? id = b.reqIdToIndex.get? id
  output : b'.reqOutputTokenIds = b.reqOutputTokenIds
  spec : b'.specTokenIds = b.specTokenIds
  tokens : b'.tokenIdsCpu = b.tokenIdsCpu
  isToken : b'.isTokenIds = b.isTokenIds
  embeds : ∀ j, b'.reqPromptEmbeds.get? j = b.reqPromptEmbeds.get? j
  rows : b'.rows = b.rows
  sampling : b'.samplingRows = b.samplingRows
  accepted : b'.numAcceptedTokensCpu = b.numAcceptedTokensCpu
  generators : ∀ j, b'.generators.get? j = b.generators.get? j
  badWords : ∀ j, b'.badWordsTokenIds.get? j = b.badWordsTokenIds.get? j
  mask : b'.allowedTokenIdsMask = b.allowedTokenIdsMask
  settings : (b'.isPoolingModel, b'.maxNumReqs, b'.vocabSize, b'.logitsProcessingNeedsTokenIds) =
    (b.isPoolingModel, b.maxNumReqs, b.vocabSize, b.logitsProcessingNeedsTokenIds)

/-- A swap exchanges everything, and a second one undoes it. -/
def SwapsAll (b : InputBatch G F) (i1 i2 : ℕ) : Prop :=
  ∃ b' b'', b.swapStates i1 i2 = .ok b' ∧ Swapped b b' i1 i2 ∧ b'.swapStates i1 i2 = .ok b'' ∧ Same b b''

lemma swap_swap {α : Type} (c : ℕ → α) : swap i1 i2 (swap i1 i2 c) = c := by
  funext j
  exact congrArg c (Equiv.swap_apply_self i1 i2 j)

lemma Swapped.twice (h : Swapped b b' i1 i2) (h' : Swapped b' b'' i1 i2) : Same b b'' := by
  have hback : ∀ {α : Type} {c c' c'' : ℕ → α}, (∀ j, c' j = swap i1 i2 c j) →
      (∀ j, c'' j = swap i1 i2 c' j) → c'' = c := by
    intro α c c' c'' hc hc'
    rw [funext hc', funext hc]
    exact swap_swap c
  refine ⟨List.ext_getElem? (congrFun (hback h.reqIds h'.reqIds)), fun id => ?_,
    List.ext_getElem? (congrFun (hback h.output h'.output)),
    List.ext_getElem? (congrFun (hback h.spec h'.spec)), hback (congrFun h.tokens) (congrFun h'.tokens),
    hback (congrFun h.isToken) (congrFun h'.isToken), congrFun (hback h.embeds h'.embeds),
    hback (congrFun h.rows) (congrFun h'.rows), hback (congrFun h.sampling) (congrFun h'.sampling),
    hback (congrFun h.accepted) (congrFun h'.accepted),
    congrFun (hback h.generators h'.generators), congrFun (hback h.badWords h'.badWords), ?_,
    h'.settings.trans h.settings⟩
  · rw [h'.index, h.index]
    cases b.reqIdToIndex.get? id with
    | none => rfl
    | some i => exact congrArg some (Equiv.swap_apply_self i1 i2 i)
  · rw [h'.mask, h.mask]
    cases b.allowedTokenIdsMask with
    | none => rfl
    | some mask => exact congrArg some (swap_swap mask)

/-- What one swap does. The row of the second request is written over that of the first one. -/
lemma Parallel.swapStates (h : b.Parallel) (hmodel : b.isPoolingModel = false)
    (h1 : b.Occupied i1) (h2 : b.Occupied i2) : ∃ b', b.swapStates i1 i2 = .ok b' ∧ Exchanged b b' i1 i2 ∧
      (b'.Parallel ∧ b'.Occupied i1 ∧ b'.Occupied i2) ∧ b'.allowedTokenIdsMask =
        b.allowedTokenIdsMask.map fun mask => Function.update mask i1 (mask i2) := by
  obtain ⟨id1, hid1⟩ := h1
  obtain ⟨id2, hid2⟩ := h2
  have hlt1 := (List.getElem?_eq_some_iff.mp hid1).1
  have hlt2 := (List.getElem?_eq_some_iff.mp hid2).1
  have ho1 : b.reqIdToIndex.get? id1 = some i1 := (h.index id1 i1).mpr (congrArg join hid1)
  have ho2 : b.reqIdToIndex.get? id2 = some i2 := (h.index id2 i2).mpr (congrArg join hid2)
  have hids := getElem?_swap hid1 hid2
  have hlists : ∀ {α : Type} {l : List α} (d : α), b.reqIds.length ≤ l.length → ∀ j,
      ((l.set i1 (l.getD i2 d)).set i2 (l.getD i1 d))[j]? = swap i1 i2 (fun i => l[i]?) j := by
    intro α l d hlen j
    have hl1 := List.getElem?_eq_getElem (show i1 < l.length by omega)
    have hl2 := List.getElem?_eq_getElem (show i2 < l.length by omega)
    rw [List.getD_eq_getElem?_getD, List.getD_eq_getElem?_getD, hl1, hl2]
    exact getElem?_swap hl1 hl2 j
  have hinverse : Inverse ((b.reqIdToIndex.set id1 i2).set id2 i1)
      (swap i1 i2 fun i => (b.reqIds[i]?).join) :=
    h.index.swap (congrArg join hid1) (congrArg join hid2)
  refine ⟨{ b.swapColumns i1 i2 with
    reqIds := (b.reqIds.set i1 (some id2)).set i2 (some id1)
    reqIdToIndex := (b.reqIdToIndex.set id1 i2).set id2 i1
    batchUpdateBuilder := { b.batchUpdateBuilder with
      moved := b.batchUpdateBuilder.moved ++ [⟨i1, i2, .swap⟩] } }, ?_, ?_, ⟨⟨?_, ?_, ?_⟩, ?_, ?_⟩, ?_⟩
  · unfold InputBatch.swapStates
    rw [hid1, hid2]
    dsimp only
    rw [ho1, ho2]
    dsimp only
    rw [if_neg (by rw [hmodel]; exact Bool.false_ne_true)]
  · unfold swapColumns
    dsimp only
    rw [if_neg (by rw [hmodel]; exact Bool.false_ne_true)]
    refine ⟨hids, fun id => ext fun i => ?_, hlists none h.output.ge, hlists [] h.spec, rfl,
      rfl, swapDictValues_get? _ i1 i2, rfl, rfl, rfl, swapDictValues_get? _ i1 i2,
      swapDictValues_get? _ i1 i2, rfl, rfl⟩
    rw [hinverse id i, map_eq_some_iff]
    constructor
    · intro hi
      exact ⟨_, (h.index id _).mpr hi, Equiv.swap_apply_self i1 i2 i⟩
    · rintro ⟨k, hk, rfl⟩
      exact (congrArg (fun i => (b.reqIds[i]?).join) (Equiv.swap_apply_self i1 i2 k)).trans
        ((h.index id k).mp hk)
  · convert hinverse using 1
    funext j
    exact congrArg join (hids j)
  · simp only [swapColumns, hmodel, Bool.false_eq_true, if_false, List.length_set]
    exact h.output
  · simp only [swapColumns, hmodel, Bool.false_eq_true, if_false, List.length_set]
    exact h.spec
  · refine ⟨id2, (hids i1).trans ?_⟩
    rw [swap, Equiv.swap_apply_left, hid2]
  · refine ⟨id1, (hids i2).trans ?_⟩
    rw [swap, Equiv.swap_apply_right, hid1]
  · simp only [swapColumns, hmodel, Bool.false_eq_true, if_false, Function.update_self]
    refine congrArg (fun f => b.allowedTokenIdsMask.map f) (funext fun mask => ?_)
    by_cases hij : i2 = i1
    · rw [hij, Function.update_eq_self, Function.update_eq_self]
    · have hkeep := Function.update_of_ne hij (mask i2) mask
      exact (congrArg (Function.update _ i2) hkeep.symm).trans (Function.update_eq_self i2 _)

/-- A row is written over the other one exactly if this is not the swap of the two. -/
lemma update_eq_swap_iff {α : Type} (mask : ℕ → α) :
    Function.update mask i1 (mask i2) = swap i1 i2 mask ↔ mask i1 = mask i2 := by
  constructor
  · intro h
    have h2 := congrFun h i2
    rw [swap, Equiv.swap_apply_right, Function.update_apply] at h2
    split at h2
    · next hij => rw [hij]
    · exact h2.symm
  · intro h
    rw [swap_eq_self h, ← h, Function.update_eq_self]

lemma SwapsAll.mask_eq (hswaps : b.SwapsAll i1 i2) (h : b.Parallel)
    (hmodel : b.isPoolingModel = false) (h1 : b.Occupied i1) (h2 : b.Occupied i2)
    {mask : ℕ → TokenId → Bool} (hmask : b.allowedTokenIdsMask = some mask) : mask i1 = mask i2 := by
  obtain ⟨c, hc, -, -, hwritten⟩ := h.swapStates hmodel h1 h2
  obtain ⟨b', b'', hb', hswapped, -⟩ := hswaps
  obtain rfl := Except.ok.inj (hc.symm.trans hb')
  have heq := hwritten.symm.trans hswapped.mask
  rw [hmask, map_some, map_some, some.injEq] at heq
  exact (update_eq_swap_iff mask).mp heq

/-- The swap moves everything of the two requests, and is its own inverse, exactly if their rows of
a token mask are equal. -/
theorem swapsAll_iff (h : b.Parallel) (hmodel : b.isPoolingModel = false) (h1 : b.Occupied i1)
    (h2 : b.Occupied i2) : b.SwapsAll i1 i2 ↔ ∀ mask, b.allowedTokenIdsMask = some mask → mask i1 = mask i2 := by
  refine ⟨fun hswaps mask hmask => hswaps.mask_eq h hmodel h1 h2 hmask, fun halike => ?_⟩
  obtain ⟨c, hc, hexchanged, ⟨hpar, hc1, hc2⟩, hmask⟩ := h.swapStates hmodel h1 h2
  have hwritten : ∀ mask, b.allowedTokenIdsMask = some mask →
      Function.update mask i1 (mask i2) = mask ∧ swap i1 i2 mask = mask := by
    intro mask hsome
    rw [(update_eq_swap_iff mask).mpr (halike mask hsome)]
    exact ⟨swap_eq_self (halike mask hsome), swap_eq_self (halike mask hsome)⟩
  have hmodel' : c.isPoolingModel = false := by
    rw [(Prod.mk.inj hexchanged.settings).1, hmodel]
  obtain ⟨d, hd, hexchanged', -, hmask'⟩ := hpar.swapStates hmodel' hc1 hc2
  have hkeep : c.allowedTokenIdsMask = b.allowedTokenIdsMask := by
    rw [hmask]
    cases hb : b.allowedTokenIdsMask with
    | none => rfl
    | some mask => exact congrArg some (hwritten mask hb).1
  have hsame : b.allowedTokenIdsMask.map (swap i1 i2) = b.allowedTokenIdsMask := by
    cases hb : b.allowedTokenIdsMask with
    | none => rfl
    | some mask => exact congrArg some (hwritten mask hb).2
  have hkeep' : d.allowedTokenIdsMask = b.allowedTokenIdsMask := by
    rw [hmask', hkeep, ← hmask, hkeep]
  have hswapped : Swapped b c i1 i2 := ⟨hexchanged, hkeep.trans hsame.symm⟩
  exact ⟨c, d, hc, hswapped, hd, hswapped.twice ⟨hexchanged', by rw [hkeep', hkeep, hsame]⟩⟩

def onlyToken (reqId : RequestId) (token : TokenId) : CachedRequestState Unit ℕ where
  reqId
  promptTokenIds := some [7]
  samplingParams := some ⟨false, 1, 1, 0, 0, 0, 1, 0, [token], []⟩
  blockIds := [[1]]
  numComputedTokens := 0
  outputTokenIds := []

def maskedPair (token : TokenId) : Except PyError (InputBatch Unit ℕ) := do
  let (_, b) ← (new false 4 100 : InputBatch Unit ℕ).addRequest ⟨id, rfl⟩ (onlyToken "a" 1)
  let (_, b) ← b.addRequest ⟨id, rfl⟩ (onlyToken "b" token)
  return b

lemma maskedPair_eq_ok : ∀ token ∈ [1, 2], ∃ b, maskedPair token = .ok b ∧ b.Parallel ∧
    b.isPoolingModel = false ∧ b.Occupied 0 ∧ b.Occupied 1 ∧
    ∃ mask, b.allowedTokenIdsMask = some mask ∧ (mask 0 = mask 1 ↔ token = 1) := by
  have hparallel : ∀ (k : RequestId) (i : ℕ), ((Dict.empty.set "a" 0).set "b" 1).get? k = some i ↔
      ([some "a", some "b"][i]?).join = some k := by
    intro k i
    rw [Dict.get?_set, Dict.get?_set, Dict.get?_empty]
    rcases i with _ | _ | i
    · grind
    · grind
    · grind
  intro token htoken
  rw [List.mem_pair] at htoken
  rcases htoken with rfl | rfl
  · exact ⟨_, rfl, ⟨hparallel, rfl, by decide⟩, rfl, ⟨"a", rfl⟩, ⟨"b", rfl⟩, _, rfl, fun _ => rfl, fun _ => rfl⟩
  · refine ⟨_, rfl, ⟨hparallel, rfl, by decide⟩, rfl, ⟨"a", rfl⟩, ⟨"b", rfl⟩, _, rfl, fun h => ?_, fun h => by cases h⟩
    cases congrFun h 1

/-- Both requests allow the same token. -/
theorem swapsAll_iff_maskedPair : ∃ b, maskedPair 1 = .ok b ∧ b.SwapsAll 0 1 := by
  obtain ⟨b, hb, hpar, hmodel, h0, h1, mask, hmask, halike⟩ := maskedPair_eq_ok 1 (by decide)
  refine ⟨b, hb, (swapsAll_iff hpar hmodel h0 h1).mpr fun mask' hmask' => ?_⟩
  obtain rfl := Option.some.inj (hmask.symm.trans hmask')
  exact halike.mpr rfl

/-- After the swap both requests have the mask of the second one. -/
theorem masks_not_swapped : ∃ b, maskedPair 2 = .ok b ∧ b.Parallel ∧ b.isPoolingModel = false ∧
    b.Occupied 0 ∧ b.Occupied 1 ∧ ¬b.SwapsAll 0 1 := by
  obtain ⟨b, hb, hpar, hmodel, h0, h1, mask, hmask, halike⟩ := maskedPair_eq_ok 2 (by decide)
  refine ⟨b, hb, hpar, hmodel, h0, h1, fun hswaps => ?_⟩
  exact absurd (halike.mp (hswaps.mask_eq hpar hmodel h0 h1 hmask)) (by decide)

end CustomAi.Vllm.InputBatch
