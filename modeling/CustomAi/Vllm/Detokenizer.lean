import CustomAi.Vllm.Request
import Mathlib.Data.List.MinMax

/-!
# Incremental detokenization

`vllm/v1/engine/detokenizer.py`: tokens are decoded one by one, the text is searched for stop
strings, and what streaming may show holds back the characters a stop string could still take.
-/

namespace CustomAi.Vllm

open List

/-- Python's `text.find(sub, start)` for a start counted from the front. -/
def strFind (text sub : List Char) (start : ℕ) : Option ℕ :=
  ((List.range (text.length + 1)).drop start).find? fun i => sub.isPrefixOf (text.drop i)

def pyStart (length : ℕ) (start : ℤ) : ℕ :=
  if 0 ≤ start then start.toNat else (length + start).toNat

/-- The first stop string found with the length the text must be cut to, `-1` for no cut. -/
def checkStopStrings (outputText : List Char) (newCharCount : ℕ) (stop : List (List Char))
    (includeInOutput : Bool) : Option (List Char × ℤ) :=
  if newCharCount = 0 then none
  else
    stop.findSome? fun stopStr =>
      -- only text that has not been searched before
      let start := pyStart outputText.length (1 - newCharCount - stopStr.length)
      (strFind outputText stopStr start).map fun stopIndex =>
        if includeInOutput then
          let stopIndex := stopIndex + stopStr.length
          if outputText.length ≤ stopIndex then (stopStr, -1) else (stopStr, stopIndex)
        else (stopStr, stopIndex)

structure StopParams where
  stop : List (List Char) := []
  stop_ne_nil : ∀ s ∈ stop, s ≠ [] := by decide
  minTokens : ℕ := 0
  includeStopStrInOutput : Bool := false

def StopParams.stopBufferLength (self : StopParams) : ℕ :=
  if self.stop ≠ [] ∧ ¬self.includeStopStrInOutput then
    (self.stop.map List.length).foldr max 0 - 1
  else 0

/-- `BaseIncrementalDetokenizer` with a decoder state of type `D`; `tokenIds` are the output
tokens. -/
structure BaseIncrementalDetokenizer (D : Type) where
  params : StopParams
  decoder : D
  tokenIds : List TokenId := []
  outputText : List Char := []
  lastOutputTextOffset : ℕ := 0

variable {D : Type}

namespace BaseIncrementalDetokenizer

/-- The decoding loop of `update`, with the offset the stop search starts from. -/
def decodeLoop (decodeNext : D → List TokenId → List Char × D) :
    List TokenId → BaseIncrementalDetokenizer D → ℕ → BaseIncrementalDetokenizer D × ℕ
  | [], self, stopCheckOffset => (self, stopCheckOffset)
  | newTokenId :: rest, self, stopCheckOffset =>
    let tokenIds := self.tokenIds ++ [newTokenId]
    let (text, decoder) := decodeNext self.decoder tokenIds
    let self := { self with tokenIds, decoder, outputText := self.outputText ++ text }
    let stopCheckOffset :=
      if self.params.minTokens ≠ 0 ∧ self.tokenIds.length ≤ self.params.minTokens then
        self.outputText.length
      else stopCheckOffset
    decodeLoop decodeNext rest self stopCheckOffset

/-- The search for stop strings at the end of `update`. -/
def stopCheck (self : BaseIncrementalDetokenizer D) (stopCheckOffset : ℕ) :
    Option (List Char) × BaseIncrementalDetokenizer D :=
  if self.params.stop ≠ [] ∧ self.params.minTokens < self.tokenIds.length then
    match checkStopStrings self.outputText (self.outputText.length - stopCheckOffset)
        self.params.stop self.params.includeStopStrInOutput with
    | none => (none, self)
    | some (stopString, truncateTo) =>
      if truncateTo ≠ -1 then
        (some stopString, { self with outputText := self.outputText.take truncateTo.toNat })
      else (some stopString, self)
  else (none, self)

def update (decodeNext : D → List TokenId → List Char × D) (self : BaseIncrementalDetokenizer D)
    (newTokenIds : List TokenId) (stopTerminated : Bool) :
    Option (List Char) × BaseIncrementalDetokenizer D :=
  if newTokenIds = [] then (none, self)
  else
    let skip := stopTerminated && !self.params.includeStopStrInOutput
    let decoded := if skip then newTokenIds.dropLast else newTokenIds
    let (detokenizer, stopCheckOffset) := decodeLoop decodeNext decoded self self.outputText.length
    let detokenizer :=
      if skip then
        { detokenizer with
          tokenIds := detokenizer.tokenIds ++ newTokenIds.drop (newTokenIds.length - 1) }
      else detokenizer
    detokenizer.stopCheck stopCheckOffset

def getNextOutputText (self : BaseIncrementalDetokenizer D) (finished delta : Bool) :
    List Char × BaseIncrementalDetokenizer D :=
  let bufferLength := if finished then 0 else self.params.stopBufferLength
  let length := self.outputText.length - bufferLength
  if ¬delta then (self.outputText.take length, self)
  else if self.lastOutputTextOffset < length then
    ((self.outputText.take length).drop self.lastOutputTextOffset, { self with lastOutputTextOffset := length })
  else ([], self)

end BaseIncrementalDetokenizer

inductive IncrementalDetokenizer (D : Type)
  | tokensOnly (tokenIds : List TokenId)
  | base (self : BaseIncrementalDetokenizer D)

namespace IncrementalDetokenizer

def outputTokenIds : IncrementalDetokenizer D → List TokenId
  | .tokensOnly tokenIds => tokenIds
  | .base self => self.tokenIds

def outputText : IncrementalDetokenizer D → List Char
  | .tokensOnly _ => []
  | .base self => self.outputText

def update (decodeNext : D → List TokenId → List Char × D) (newTokenIds : List TokenId)
    (stopTerminated : Bool) :
    IncrementalDetokenizer D → Option (List Char) × IncrementalDetokenizer D
  | .tokensOnly tokenIds => (none, .tokensOnly (tokenIds ++ newTokenIds))
  | .base self =>
    let (stopString, self) := self.update decodeNext newTokenIds stopTerminated
    (stopString, .base self)

def getNextOutputText (finished delta : Bool) :
    IncrementalDetokenizer D → List Char × IncrementalDetokenizer D
  | .tokensOnly tokenIds => ([], .tokensOnly tokenIds)
  | .base self =>
    let (text, self) := self.getNextOutputText finished delta
    (text, .base self)

end IncrementalDetokenizer

lemma strFind_spec {text sub : List Char} {start i : ℕ} (h : strFind text sub start = some i) :
    start ≤ i ∧ i ≤ text.length ∧ sub <+: text.drop i := by
  have hmem := mem_of_find?_eq_some h
  obtain ⟨k, hk, hi⟩ := mem_iff_getElem.mp hmem
  rw [length_drop, length_range] at hk
  rw [getElem_drop, getElem_range] at hi
  have hprefix := List.find?_some h
  exact ⟨by omega, by omega, isPrefixOf_iff_prefix.mp hprefix⟩

lemma StopParams.length_le_buffer (p : StopParams) {s : List Char} (hs : s ∈ p.stop)
    (hinc : p.includeStopStrInOutput = false) : s.length ≤ p.stopBufferLength + 1 := by
  have hmax : s.length ≤ (p.stop.map List.length).foldr max 0 := le_max_of_le (mem_map_of_mem hs) le_rfl
  have hne : p.stop ≠ [] := ne_nil_of_mem hs
  have hbuffer : p.stopBufferLength = (p.stop.map List.length).foldr max 0 - 1 := by
    unfold stopBufferLength
    rw [if_pos ⟨hne, by simp [hinc]⟩]
  omega

/-- A stop string reaches into the new text, so the cut keeps what is older than the longest one. -/
lemma checkStopStrings_spec {p : StopParams} {text stopString : List Char} {offset : ℕ} {cut : ℤ}
    (hoff : offset ≤ text.length) (h : checkStopStrings text (text.length - offset) p.stop
      p.includeStopStrInOutput = some (stopString, cut)) :
    cut ≠ -1 → 0 ≤ cut ∧ offset ≤ cut.toNat + p.stopBufferLength ∧ cut.toNat ≤ text.length := by
  unfold checkStopStrings at h
  split at h
  · cases h
  · obtain ⟨s, hs, hfind⟩ := exists_of_findSome?_eq_some h
    simp only [Option.map_eq_some_iff] at hfind
    obtain ⟨i, hi, hres⟩ := hfind
    obtain ⟨hstart, hle, hprefix⟩ := strFind_spec hi
    have hpos := length_pos_of_ne_nil (p.stop_ne_nil s hs)
    have hneg : ¬(0 : ℤ) ≤ 1 - ((text.length - offset : ℕ) : ℤ) - s.length := by omega
    unfold pyStart at hstart
    rw [if_neg hneg] at hstart
    cases hinc : p.includeStopStrInOutput with
    | true =>
      simp only [hinc, ite_true] at hres
      split at hres
      · cases hres
        exact fun hne => absurd rfl hne
      · cases hres
        exact fun _ => ⟨by omega, by omega, by omega⟩
    | false =>
      simp only [hinc, Bool.false_eq_true, ite_false] at hres
      cases hres
      have hbuffer := p.length_le_buffer hs hinc
      exact fun _ => ⟨by omega, by omega, by omega⟩

namespace BaseIncrementalDetokenizer

variable {decodeNext : D → List TokenId → List Char × D} {self self' : BaseIncrementalDetokenizer D}
  {newTokenIds : List TokenId} {offset offset' : ℕ} {stopString : Option (List Char)}

lemma decodeLoop_spec (hoff : offset ≤ self.outputText.length)
    (h : decodeLoop decodeNext newTokenIds self offset = (self', offset')) :
    self'.params = self.params ∧ self'.lastOutputTextOffset = self.lastOutputTextOffset ∧
      self'.tokenIds = self.tokenIds ++ newTokenIds ∧ self.outputText <+: self'.outputText ∧
      offset ≤ offset' ∧ offset' ≤ self'.outputText.length := by
  induction newTokenIds generalizing self offset with
  | nil =>
    rw [decodeLoop] at h
    obtain ⟨rfl, rfl⟩ := h
    exact ⟨rfl, rfl, (append_nil _).symm, prefix_rfl, le_rfl, hoff⟩
  | cons t rest ih =>
    cases hd : decodeNext self.decoder (self.tokenIds ++ [t]) with
    | mk text decoder =>
      have hgrow : offset ≤ (self.outputText ++ text).length := by
        rw [length_append]
        omega
      simp only [decodeLoop, hd] at h
      -- the stop search may start at the new text
      split at h
      · obtain ⟨hp, hl, ht, hx, ho, ho'⟩ := ih le_rfl h
        refine ⟨hp, hl, ?_, (prefix_append _ _).trans hx, hgrow.trans ho, ho'⟩
        rw [ht, append_assoc, singleton_append]
      · obtain ⟨hp, hl, ht, hx, ho, ho'⟩ := ih hgrow h
        refine ⟨hp, hl, ?_, (prefix_append _ _).trans hx, ho, ho'⟩
        rw [ht, append_assoc, singleton_append]

lemma stopCheck_spec (hoff : offset ≤ self.outputText.length) (h : self.stopCheck offset = (stopString, self')) :
    ∃ outputText, self' = { self with outputText } ∧ outputText <+: self.outputText ∧
      offset ≤ outputText.length + self.params.stopBufferLength ∧
      (stopString = none → outputText = self.outputText) := by
  have hsame : ∃ outputText, self = { self with outputText } ∧ outputText <+: self.outputText ∧
      offset ≤ outputText.length + self.params.stopBufferLength ∧ outputText = self.outputText :=
    ⟨self.outputText, rfl, prefix_rfl, by omega, rfl⟩
  unfold stopCheck at h
  split at h
  · split at h
    · cases h
      obtain ⟨text, hself, hpre, hle, heq⟩ := hsame
      exact ⟨text, hself, hpre, hle, fun _ => heq⟩
    · next s cut hcheck =>
      have hcut := checkStopStrings_spec hoff hcheck
      split at h
      · next hne =>
        cases h
        refine ⟨_, rfl, take_prefix _ _, ?_, nofun⟩
        rw [length_take]
        omega
      · cases h
        obtain ⟨text, hself, hpre, hle, -⟩ := hsame
        exact ⟨text, hself, hpre, hle, nofun⟩
  · cases h
    obtain ⟨text, hself, hpre, hle, heq⟩ := hsame
    exact ⟨text, hself, hpre, hle, fun _ => heq⟩

/-- What has been shown of the text can no longer change. -/
def HeldBack (self : BaseIncrementalDetokenizer D) : Prop :=
  self.lastOutputTextOffset = 0 ∨ self.lastOutputTextOffset + self.params.stopBufferLength ≤ self.outputText.length

lemma update_spec (hheld : self.HeldBack) {stopTerminated : Bool}
    (h : self.update decodeNext newTokenIds stopTerminated = (stopString, self')) :
    self'.params = self.params ∧ self'.lastOutputTextOffset = self.lastOutputTextOffset ∧
      self'.tokenIds = self.tokenIds ++ newTokenIds ∧
      self.outputText.take self.lastOutputTextOffset <+: self'.outputText ∧
      (stopString = none → self'.HeldBack) ∧ self'.lastOutputTextOffset ≤ self'.outputText.length := by
  have hshown : self.lastOutputTextOffset ≤ self.outputText.length := by
    rcases hheld with h0 | hle <;> omega
  unfold update at h
  split at h
  · next hnil =>
    cases h
    exact ⟨rfl, rfl, by rw [hnil, append_nil], take_prefix _ _, fun _ => hheld, hshown⟩
  · cases hloop : decodeLoop decodeNext (if (stopTerminated && !self.params.includeStopStrInOutput)
        = true then newTokenIds.dropLast else newTokenIds) self self.outputText.length with
    | mk detok offset =>
      obtain ⟨hp, hl, ht, hx, ho, ho'⟩ := decodeLoop_spec le_rfl hloop
      simp only [hloop] at h
      -- the token that ended the request is not decoded
      set tokenIds := if (stopTerminated && !self.params.includeStopStrInOutput) = true then
        detok.tokenIds ++ newTokenIds.drop (newTokenIds.length - 1) else detok.tokenIds with htok
      have hdetok : (if (stopTerminated && !self.params.includeStopStrInOutput) = true then
          { detok with
            tokenIds := detok.tokenIds ++ newTokenIds.drop (newTokenIds.length - 1) }
          else detok) = { detok with tokenIds } := by
        rw [htok]
        split <;> rfl
      rw [hdetok] at h
      obtain ⟨text, rfl, hpre, hoff, hsame⟩ := stopCheck_spec (by exact ho') h
      have htokens : tokenIds = self.tokenIds ++ newTokenIds := by
        rw [htok, ht]
        split
        · rw [append_assoc, dropLast_eq_take, take_append_drop]
        · rfl
      have hlen : self.lastOutputTextOffset ≤ text.length := by
        rw [hp] at hoff
        rcases hheld with h0 | hle <;> omega
      refine ⟨hp, hl, htokens, ?_, fun hnone => ?_, hl.trans_le hlen⟩
      · have htake : self.outputText.take self.lastOutputTextOffset <+: detok.outputText :=
          ( take_prefix _ _).trans hx
        refine prefix_of_prefix_length_le htake hpre ?_
        rw [length_take]
        exact (Nat.min_le_left _ _).trans hlen
      · have heq : text = detok.outputText := hsame hnone
        have hxlen := hx.length_le
        rw [hl, hp, heq]
        exact hheld.imp_right fun hle => hle.trans hxlen

lemma getNextOutputText_spec (hshown : self.lastOutputTextOffset ≤ self.outputText.length)
    {finished : Bool} {text : List Char} (h : self.getNextOutputText finished true = (text, self')) :
    ∃ lastOutputTextOffset, self' = { self with lastOutputTextOffset } ∧
      lastOutputTextOffset ≤ self.outputText.length ∧ self.outputText.take self.lastOutputTextOffset ++ text =
        self.outputText.take lastOutputTextOffset ∧
      (finished = true → lastOutputTextOffset = self.outputText.length) ∧
      (finished = false → self.HeldBack → self'.HeldBack) := by
  unfold getNextOutputText at h
  simp only [not_true_eq_false, ite_false] at h
  generalize hbuffer : (if finished = true then 0 else self.params.stopBufferLength) = buffer at h
  split at h
  · next hlt =>
    cases h
    refine ⟨_, rfl, Nat.sub_le _ _, ?_, fun hf => ?_, fun hf _ => .inr ?_⟩
    · have hsplit := take_append_drop self.lastOutputTextOffset
        (self.outputText.take (self.outputText.length - buffer))
      rw [take_take, min_eq_left hlt.le] at hsplit
      exact hsplit
    · rw [if_pos hf] at hbuffer
      omega
    · simp only [hf, Bool.false_eq_true, ite_false] at hbuffer
      change self.outputText.length - buffer + self.params.stopBufferLength ≤ self.outputText.length
      omega
  · next hlt =>
    cases h
    refine ⟨_, rfl, hshown, append_nil _, fun hf => ?_, fun _ hheld => hheld⟩
    rw [if_pos hf] at hbuffer
    omega

end BaseIncrementalDetokenizer

namespace IncrementalDetokenizer

variable {decodeNext : D → List TokenId → List Char × D} {self self' : IncrementalDetokenizer D}
  {newTokenIds : List TokenId}

def shown : IncrementalDetokenizer D → List Char
  | .tokensOnly _ => []
  | .base self => self.outputText.take self.lastOutputTextOffset

def HeldBack : IncrementalDetokenizer D → Prop
  | .tokensOnly _ => True
  | .base self => self.HeldBack

def OffsetOk : IncrementalDetokenizer D → Prop
  | .tokensOnly _ => True
  | .base self => self.lastOutputTextOffset ≤ self.outputText.length

lemma shown_prefix (self : IncrementalDetokenizer D) : self.shown <+: self.outputText := by
  cases self with
  | tokensOnly tokenIds => exact prefix_rfl
  | base self => exact take_prefix _ _

lemma update_spec (hheld : self.HeldBack) {stopTerminated : Bool} {stopString : Option (List Char)}
    (h : self.update decodeNext newTokenIds stopTerminated = (stopString, self')) :
    self'.outputTokenIds = self.outputTokenIds ++ newTokenIds ∧ self'.shown = self.shown ∧
      (stopString = none → self'.HeldBack) ∧ self'.OffsetOk := by
  cases self with
  | tokensOnly tokenIds =>
    cases h
    exact ⟨rfl, rfl, fun _ => trivial, trivial⟩
  | base self =>
    cases hu : self.update decodeNext newTokenIds stopTerminated with
    | mk r d =>
      obtain ⟨-, hl, ht, hx, hnone, hle⟩ := BaseIncrementalDetokenizer.update_spec hheld hu
      simp only [update, hu] at h
      cases h
      refine ⟨ht, ?_, hnone, hle⟩
      have hold : self.lastOutputTextOffset ≤ self.outputText.length := by
        rcases hheld with h0 | hle' <;> omega
      have htake := prefix_iff_eq_take.mp hx
      rw [length_take, min_eq_left hold, ← hl] at htake
      change d.outputText.take d.lastOutputTextOffset = self.outputText.take self.lastOutputTextOffset
      rw [← htake, hl]

lemma getNextOutputText_spec (hok : self.OffsetOk) {finished : Bool} {text : List Char}
    (h : self.getNextOutputText finished true = (text, self')) :
    self'.outputTokenIds = self.outputTokenIds ∧ self'.outputText = self.outputText ∧
      self'.shown = self.shown ++ text ∧ self'.OffsetOk ∧ (finished = true → self'.shown = self'.outputText) ∧
      (finished = false → self.HeldBack → self'.HeldBack) := by
  cases self with
  | tokensOnly tokenIds =>
    cases h
    exact ⟨rfl, rfl, rfl, trivial, fun _ => rfl, fun _ _ => trivial⟩
  | base self =>
    cases hn : self.getNextOutputText finished true with
    | mk t d =>
      obtain ⟨offset, rfl, hle, htext, hfin, hheld⟩ := BaseIncrementalDetokenizer.getNextOutputText_spec hok hn
      simp only [getNextOutputText, hn] at h
      cases h
      refine ⟨rfl, rfl, htext.symm, hle, fun hf => ?_, hheld⟩
      change self.outputText.take offset = self.outputText
      rw [hfin hf, take_length]

end IncrementalDetokenizer

end CustomAi.Vllm
