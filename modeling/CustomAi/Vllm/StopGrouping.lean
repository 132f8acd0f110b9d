import CustomAi.Lib.StreamSearch
import CustomAi.Vllm.Detokenizer

/-!
# Stop strings and the grouping of tokens

The tokens of a request come in calls of `update`, one or several at a time.
-/

namespace CustomAi.Vllm

open List Option

namespace BaseIncrementalDetokenizer

variable {D : Type}

def updateAll (decodeNext : D → List TokenId → List Char × D) (stopTerminated : Bool) :
    BaseIncrementalDetokenizer D → List (List TokenId) → Option (List Char) × BaseIncrementalDetokenizer D
  | self, [] => (none, self)
  | self, newTokenIds :: rest =>
    match self.update decodeNext newTokenIds (stopTerminated && decide (rest.flatten = [])) with
    | (some stopString, self) => (some stopString, self)
    | (none, self) => updateAll decodeNext stopTerminated self rest

def stopAndText (r : Option (List Char) × BaseIncrementalDetokenizer D) :
    Option (List Char) × List Char := (r.1, r.2.outputText)

def decodeAll (decodeNext : D → List TokenId → List Char × D)
    (self : BaseIncrementalDetokenizer D) (tokens : List TokenId) : BaseIncrementalDetokenizer D :=
  (decodeLoop decodeNext tokens self 0).1

def textAfter (decodeNext : D → List TokenId → List Char × D)
    (self : BaseIncrementalDetokenizer D) (tokens : List TokenId) (n : ℕ) : List Char :=
  (decodeAll decodeNext self (tokens.take n)).outputText

/-- Where the text is cut for a stop string that ends at `e`. -/
def cutAt (p : StopParams) (stopString : List Char) (e : ℕ) : ℕ :=
  if p.includeStopStrInOutput then e else e - stopString.length

def applied (self : BaseIncrementalDetokenizer D) :
    Option (List Char × ℕ) → Option (List Char) × BaseIncrementalDetokenizer D
  | none => (none, self)
  | some (stopString, e) =>
    (some stopString, { self with outputText := self.outputText.take (cutAt self.params stopString e) })

variable {decodeNext : D → List TokenId → List Char × D} {self : BaseIncrementalDetokenizer D}
  {tokens tokens' : List TokenId}

variable {text : List Char}

variable {d : BaseIncrementalDetokenizer D} {sub : List Char} {e i j : ℕ} (n offset : ℕ)

lemma prefix_drop_iff (hne : sub ≠ []) : sub <+: text.drop i ↔
      i + sub.length ≤ text.length ∧ sub <:+ text.take (i + sub.length) := by
  have hpos := length_pos_of_ne_nil hne
  constructor
  · intro h
    have hle := h.length_le
    rw [length_drop] at hle
    obtain ⟨t, ht⟩ := h
    have htext : text = text.take i ++ sub ++ t := by
      rw [append_assoc, ht, take_append_drop]
    have hlen : (text.take i ++ sub).length = i + sub.length := by
      rw [length_append, length_take, min_eq_left (by omega)]
    refine ⟨by omega, text.take i, ?_⟩
    conv_rhs => rw [htext]
    rw [← hlen, take_left]
  · rintro ⟨hle, u, hu⟩
    have hlen : u.length = i := by
      have h := congrArg List.length hu
      rw [length_append, length_take] at h
      omega
    subst hlen
    refine ⟨text.drop (u.length + sub.length), ?_⟩
    have htext : text = u ++ (sub ++ text.drop (u.length + sub.length)) := by
      rw [← append_assoc, hu, take_append_drop]
    conv_rhs => rw [htext, drop_left]

lemma strFind_eq_some_iff {start : ℕ} : strFind text sub start = some i ↔
    (start ≤ i ∧ i ≤ text.length ∧ sub <+: text.drop i) ∧ ∀ j, start ≤ j → j < i → ¬ sub <+: text.drop j := by
  unfold strFind
  rw [range_eq_range', drop_range', List.find?_range'_eq_some]
  simp only [ isPrefixOf_iff_prefix, mem_range'_1, Bool.not_eq_true', Bool.eq_false_iff, ne_eq]
  constructor
  · rintro ⟨hw, ⟨hs, hi⟩, hfirst⟩
    exact ⟨⟨by omega, by omega, hw⟩, fun j hj hji => hfirst j (by omega) hji⟩
  · rintro ⟨⟨hs, hi, hw⟩, hfirst⟩
    exact ⟨hw, ⟨by omega, by omega⟩, fun j hj hji => hfirst j (by omega) hji⟩

lemma strFind_eq_findEnd {stopStr : List Char} (hne : stopStr ≠ []) (offset : ℕ) :
    (strFind text stopStr (offset + 1 - stopStr.length)).map (· + stopStr.length) =
      findEnd stopStr offset text := by
  have hlong : ∀ e, stopStr <:+ text.take e → stopStr.length ≤ e := fun e h =>
    h.length_le.trans (length_take_le e text)
  ext e
  rw [findEnd_eq_some_iff, map_eq_some_iff]
  constructor
  · rintro ⟨i, hi, rfl⟩
    obtain ⟨⟨hs, -, hw⟩, hfirst⟩ := strFind_eq_some_iff.mp hi
    obtain ⟨hle, hend⟩ := (prefix_drop_iff hne).mp hw
    refine ⟨⟨by omega, hle, hend⟩, fun e' hn' he' hw' => ?_⟩
    have hlen := hlong e' hw'
    refine hfirst (e' - stopStr.length) (by omega) (by omega) ((prefix_drop_iff hne).mpr ?_)
    rw [Nat.sub_add_cancel hlen]
    exact ⟨by omega, hw'⟩
  · rintro ⟨⟨hn, he, hw⟩, hfirst⟩
    have hlen := hlong e hw
    refine ⟨e - stopStr.length, strFind_eq_some_iff.mpr ⟨⟨by omega, by omega, ?_⟩, ?_⟩, Nat.sub_add_cancel hlen⟩
    · refine (prefix_drop_iff hne).mpr ?_
      rw [Nat.sub_add_cancel hlen]
      exact ⟨he, hw⟩
    · intro j hj hje hwj
      obtain ⟨-, hend⟩ := (prefix_drop_iff hne).mp hwj
      exact hfirst (j + stopStr.length) (by omega) (by omega) hend

def truncateTo (p : StopParams) (text : List Char) (found : List Char × ℕ) : ℤ :=
  if p.includeStopStrInOutput then (if text.length ≤ found.2 then -1 else (found.2 : ℤ))
  else ((found.2 - found.1.length : ℕ) : ℤ)

lemma checkStopStrings_eq {p : StopParams} {offset : ℕ} (hoff : offset ≤ text.length) :
    checkStopStrings text (text.length - offset) p.stop p.includeStopStrInOutput =
      (report p.stop offset text).map fun found => (found.1, truncateTo p text found) := by
  unfold checkStopStrings
  split
  · next hzero =>
    have hnone : report p.stop offset text = none := by
      refine report_eq_none_iff.mpr fun s _ => findEnd_eq_none_iff.mpr fun e hn he => ?_
      omega
    rw [hnone]
    rfl
  · next hnew =>
    have hstop : ∀ s ∈ p.stop, s ≠ [] := p.stop_ne_nil
    generalize p.stop = stop at hstop ⊢
    induction stop with
    | nil => rfl
    | cons s stop ih =>
      have hne := hstop s mem_cons_self
      have hstart : pyStart text.length (1 - ((text.length - offset : ℕ) : ℤ) - s.length) =
          offset + 1 - s.length := by
        have hpos := length_pos_of_ne_nil hne
        unfold pyStart
        rw [if_neg (by omega)]
        omega
      rw [List.findSome?_cons, report_cons, ← strFind_eq_findEnd hne offset, hstart,
        ih fun s' hs' => hstop s' (mem_cons_of_mem s hs')]
      dsimp only
      cases strFind text s (offset + 1 - s.length) with
      | none => rfl
      | some i =>
        dsimp only [map_some, some_or, truncateTo]
        rw [Nat.add_sub_cancel]
        cases p.includeStopStrInOutput with
        | true =>
          simp only [↓reduceIte]
          split <;> rfl
        | false => rfl

lemma decodeLoop_fst : (decodeLoop decodeNext tokens self offset).1 = decodeAll decodeNext self tokens := by
  unfold decodeAll
  generalize 0 = offset'
  induction tokens generalizing self offset offset' with
  | nil => rfl
  | cons t rest ih =>
    exact ih _ _

lemma decodeAll_cons (t : TokenId) : decodeAll decodeNext self (t :: tokens) =
    decodeAll decodeNext (decodeAll decodeNext self [t]) tokens := by
  unfold decodeAll
  rw [decodeLoop]
  exact decodeLoop_fst _

lemma decodeAll_append : decodeAll decodeNext self (tokens ++ tokens') =
    decodeAll decodeNext (decodeAll decodeNext self tokens) tokens' := by
  induction tokens generalizing self with
  | nil => rfl
  | cons t rest ih => rw [cons_append, decodeAll_cons, ih, ← decodeAll_cons]

lemma decodeAll_fields : (decodeAll decodeNext self tokens).params = self.params ∧
    (decodeAll decodeNext self tokens).tokenIds = self.tokenIds ++ tokens ∧
    self.outputText <+: (decodeAll decodeNext self tokens).outputText := by
  have hloop : decodeLoop decodeNext tokens self 0 = (decodeAll decodeNext self tokens, _) := rfl
  obtain ⟨hp, -, ht, hx, -, -⟩ := decodeLoop_spec (Nat.zero_le self.outputText.length) hloop
  exact ⟨hp, ht, hx⟩

lemma decodeLoop_snd : (decodeLoop decodeNext tokens self offset).2 =
    if tokens.take (self.params.minTokens - self.tokenIds.length) = [] then offset
    else (textAfter decodeNext self tokens (self.params.minTokens - self.tokenIds.length)).length := by
  induction tokens generalizing self offset with
  | nil =>
    rw [take_nil]
    rfl
  | cons t rest ih =>
    unfold decodeLoop
    rw [ih]
    rw [length_append, length_singleton]
    by_cases hmin : self.tokenIds.length < self.params.minTokens
    · obtain ⟨k, hk⟩ := Nat.exists_eq_add_of_lt hmin
      have hsub : self.params.minTokens - self.tokenIds.length = k + 1 := by omega
      have hsub' : self.params.minTokens - (self.tokenIds.length + 1) = k := by omega
      have hcond : self.params.minTokens ≠ 0 ∧ self.tokenIds.length + 1 ≤ self.params.minTokens := by omega
      rw [hsub, hsub', take_succ_cons, if_neg (cons_ne_nil _ _)]
      unfold textAfter
      rw [take_succ_cons]
      split
      · next hnil =>
        rw [hnil]
        rfl
      · rw [decodeAll_cons t]
        rfl
    · have hsub : self.params.minTokens - self.tokenIds.length = 0 := by omega
      have hsub' : self.params.minTokens - (self.tokenIds.length + 1) = 0 := by omega
      have hcond : ¬(self.params.minTokens ≠ 0 ∧ self.tokenIds.length + 1 ≤ self.params.minTokens) := by omega
      rw [hsub, hsub', take_zero, take_zero, if_pos rfl, if_pos rfl, if_neg hcond]

lemma textAfter_steps (i : ℕ) :
    textAfter decodeNext self tokens i <+: textAfter decodeNext self tokens (i + 1) := by
  unfold textAfter
  rw [take_add_one, decodeAll_append]
  exact decodeAll_fields.2.2

lemma textAfter_le : textAfter decodeNext self tokens n <+: (decodeAll decodeNext self tokens).outputText := by
  conv_rhs => rw [← take_append_drop n tokens, decodeAll_append]
  exact decodeAll_fields.2.2

lemma stopCheck_eq {offset : ℕ} (hoff : offset ≤ self.outputText.length)
    (hmin : self.params.minTokens < self.tokenIds.length) :
    self.stopCheck offset = self.applied (report self.params.stop offset self.outputText) := by
  unfold stopCheck
  by_cases hstop : self.params.stop = []
  · rw [hstop]
    rfl
  · rw [if_pos ⟨hstop, hmin⟩, checkStopStrings_eq hoff]
    cases hreport : report self.params.stop offset self.outputText with
    | none => rfl
    | some found =>
      obtain ⟨s, e⟩ := found
      dsimp only [map_some, truncateTo, applied, cutAt]
      cases self.params.includeStopStrInOutput with
      | false =>
        simp only [Bool.false_eq_true, ↓reduceIte]
        rw [if_pos (by omega), Int.toNat_natCast]
      | true =>
        simp only [↓reduceIte]
        by_cases hend : self.outputText.length ≤ e
        · rw [if_pos hend, if_neg (by simp), take_of_length_le hend]
        · rw [if_neg hend, if_pos (by omega), Int.toNat_natCast]

lemma report_required {n : ℕ} (hn : tokens.length ≤ n) : report self.params.stop
    (textAfter decodeNext self tokens n).length (decodeAll decodeNext self tokens).outputText = none := by
  refine report_eq_none_iff.mpr fun s _ => findEnd_eq_none_iff.mpr fun e hlt hle => ?_
  unfold textAfter at hlt
  rw [take_of_length_le hn] at hlt
  omega

lemma decodeLoop_eq : decodeLoop decodeNext tokens self self.outputText.length =
    (decodeAll decodeNext self tokens, (textAfter decodeNext self tokens
      (self.params.minTokens - self.tokenIds.length)).length) := by
  refine Prod.ext (decodeLoop_fst _) ?_
  rw [decodeLoop_snd]
  split
  · next htake =>
    unfold textAfter
    rw [htake]
    rfl
  · rfl

lemma update_eq : self.update decodeNext tokens false =
    (decodeAll decodeNext self tokens).applied (report self.params.stop
      (textAfter decodeNext self tokens (self.params.minTokens - self.tokenIds.length)).length
      (decodeAll decodeNext self tokens).outputText) := by
  have hfields : (decodeAll decodeNext self tokens).params = self.params ∧ _ := decodeAll_fields
  obtain ⟨hparams, htokens, -⟩ := hfields
  by_cases hnil : tokens = []
  · rw [report_required (by simp [hnil]), hnil]
    rfl
  · have hupdate : self.update decodeNext tokens false =
        (decodeAll decodeNext self tokens).stopCheck (textAfter decodeNext self tokens
          (self.params.minTokens - self.tokenIds.length)).length := by
      unfold update
      rw [if_neg hnil]
      simp only [Bool.false_and, Bool.false_eq_true, ↓reduceIte, decodeLoop_eq]
    rw [hupdate]
    by_cases hmin : self.params.minTokens < self.tokenIds.length + tokens.length
    · rw [stopCheck_eq, hparams]
      · exact (textAfter_le _).length_le
      · rw [hparams, htokens, length_append]
        exact hmin
    · rw [report_required (by omega)]
      unfold stopCheck
      rw [hparams, htokens, length_append, if_neg fun h => hmin h.2]
      rfl

def CompletesAt (decodeNext : D → List TokenId → List Char × D)
    (self : BaseIncrementalDetokenizer D) (tokens : List TokenId) (stopString : List Char)
    (i : ℕ) : Prop :=
  self.params.minTokens ≤ self.tokenIds.length + i ∧ ∃ e, (textAfter decodeNext self tokens i).length < e ∧
      e ≤ (textAfter decodeNext self tokens (i + 1)).length ∧
      stopString <:+ (textAfter decodeNext self tokens (i + 1)).take e

/-- No later token of the reporting call completes a stop string that is listed earlier. -/
def StopsInOrder (decodeNext : D → List TokenId → List Char × D)
    (self : BaseIncrementalDetokenizer D) (calls : List (List TokenId)) : Prop :=
  ∀ before call after, calls = before ++ call :: after → ∀ j k, before.flatten.length ≤ j → j < k →
    k < before.flatten.length + call.length →
    (∀ i < j, ∀ s ∈ self.params.stop, ¬ CompletesAt decodeNext self calls.flatten s i) →
    ∀ l s r, self.params.stop = l ++ s :: r → CompletesAt decodeNext self calls.flatten s j →
      (∀ s' ∈ l, ¬ CompletesAt decodeNext self calls.flatten s' j) →
      ∀ s' ∈ l, ¬ CompletesAt decodeNext self calls.flatten s' k

variable {s : List Char}

lemma completesAt_iff : CompletesAt decodeNext self tokens s i ↔
    self.params.minTokens ≤ self.tokenIds.length + i ∧ findEnd s (textAfter decodeNext self tokens i).length
        (textAfter decodeNext self tokens (i + 1)) ≠ none := by
  rw [Ne, findEnd_eq_none_iff]
  push Not
  rfl

lemma report_of_not_completes (hmin : self.params.minTokens ≤ self.tokenIds.length + i) :
    (∀ s ∈ self.params.stop, ¬ CompletesAt decodeNext self tokens s i) ↔
      report self.params.stop (textAfter decodeNext self tokens i).length
        (textAfter decodeNext self tokens (i + 1)) = none := by
  rw [report_eq_none_iff]
  refine forall₂_congr fun s _ => ?_
  rw [completesAt_iff]
  simp [hmin]

lemma textAfter_append {n : ℕ} (hn : n ≤ tokens.length) :
    textAfter decodeNext self (tokens ++ tokens') n = textAfter decodeNext self tokens n := by
  unfold textAfter
  rw [take_append_of_le_length hn]

lemma textAfter_add : textAfter decodeNext self (tokens ++ tokens') (tokens.length + n) =
    textAfter decodeNext (decodeAll decodeNext self tokens) tokens' n := by
  unfold textAfter
  rw [take_length_add_append, decodeAll_append]

lemma completesAt_add (i : ℕ) : CompletesAt decodeNext self (tokens ++ tokens') s (tokens.length + i) ↔
      CompletesAt decodeNext (decodeAll decodeNext self tokens) tokens' s i := by
  have hfields : (decodeAll decodeNext self tokens).params = self.params ∧ _ := decodeAll_fields
  unfold CompletesAt
  rw [hfields.1, hfields.2.1, length_append, Nat.add_assoc, ← textAfter_add, Nat.add_assoc, ← textAfter_add]

lemma update_in_stream (tokens' : List TokenId) : self.update decodeNext tokens false =
    (decodeAll decodeNext self tokens).applied (report self.params.stop
      (textAfter decodeNext self (tokens ++ tokens')
        (min (self.params.minTokens - self.tokenIds.length) tokens.length)).length
      (textAfter decodeNext self (tokens ++ tokens') tokens.length)) := by
  have hall : textAfter decodeNext self (tokens ++ tokens') tokens.length =
      (decodeAll decodeNext self tokens).outputText := by
    unfold textAfter
    rw [take_left]
  have hmin : textAfter decodeNext self (tokens ++ tokens')
      (min (self.params.minTokens - self.tokenIds.length) tokens.length) =
      textAfter decodeNext self tokens (self.params.minTokens - self.tokenIds.length) := by
    rw [textAfter_append (Nat.min_le_right _ _)]
    unfold textAfter
    rw [← take_eq_take_min]
  rw [update_eq, hall, hmin]

variable {before : List (List TokenId)}

lemma updateAll_skip {rest : List (List TokenId)} (h : ∀ i < before.flatten.length, ∀ s ∈ self.params.stop,
      ¬ CompletesAt decodeNext self (before ++ rest).flatten s i) :
    updateAll decodeNext false self (before ++ rest) =
      updateAll decodeNext false (decodeAll decodeNext self before.flatten) rest := by
  induction before generalizing self with
  | nil => rfl
  | cons call before ih =>
    have hfields : (decodeAll decodeNext self call).params = self.params ∧ _ := decodeAll_fields
    rw [flatten_cons, length_append] at h
    rw [cons_append] at h
    have hnone : report self.params.stop
        (textAfter decodeNext self (call ++ (before ++ rest).flatten)
          (min (self.params.minTokens - self.tokenIds.length) call.length)).length
        (textAfter decodeNext self (call ++ (before ++ rest).flatten) call.length) = none := by
      refine (report_steps_eq_none_iff textAfter_steps (Nat.min_le_right _ _)).mpr ?_
      intro i hi hlt
      exact (report_of_not_completes (by omega)).mp (h i (by omega))
    rw [cons_append, updateAll, Bool.false_and,
      update_in_stream (before ++ rest).flatten, hnone, flatten_cons, decodeAll_append]
    refine ih fun i hi s hs hcompletes => ?_
    rw [hfields.1] at hs
    exact h (call.length + i) (by omega) s hs ((completesAt_add i).mpr hcompletes)

variable {call : List TokenId} {after : List (List TokenId)}

lemma updateAll_of_reported {o : Option (List Char × ℕ)} {found : List Char × ℕ}
    (h : self.update decodeNext call false = d.applied (o.or (some found))) :
    updateAll decodeNext false self (call :: after) = d.applied (o.or (some found)) := by
  rw [updateAll, Bool.false_and, h]
  cases o <;> rfl

variable {l r : List (List Char)}

lemma updateAll_found_head (hlt : j < call.length) (hfirst : ∀ i < j, ∀ s ∈ self.params.stop,
      ¬ CompletesAt decodeNext self (call ++ tokens') s i) (hstop : self.params.stop = l ++ s :: r)
    (hmin : self.params.minTokens ≤ self.tokenIds.length + j)
    (hl : ∀ s' ∈ l, ¬ CompletesAt decodeNext self (call ++ tokens') s' j)
    (he : findEnd s (textAfter decodeNext self (call ++ tokens') j).length
      (textAfter decodeNext self (call ++ tokens') (j + 1)) = some e) :
    updateAll decodeNext false self (call :: after) = (decodeAll decodeNext self call).applied
        ((report l (textAfter decodeNext self (call ++ tokens') (j + 1)).length
          (textAfter decodeNext self (call ++ tokens') call.length)).or (some (s, e))) := by
  refine updateAll_of_reported ?_
  rw [update_in_stream tokens', hstop]
  congr 1
  refine report_steps_eq_some textAfter_steps (by omega) hlt (fun i hi hij => ?_) ?_ he
  · rw [← hstop]
    exact (report_of_not_completes (by omega)).mp (hfirst i hij)
  · refine report_eq_none_iff.mpr fun s' hs' => ?_
    by_contra hne
    exact hl s' hs' (completesAt_iff.mpr ⟨hmin, hne⟩)

/-- The call with the first completing token reports its stop string, unless an earlier one is
completed later in it. -/
lemma updateAll_found (hj : before.flatten.length ≤ j) (hlt : j < before.flatten.length + call.length)
    (hfirst : ∀ i < j, ∀ s ∈ self.params.stop, ¬ CompletesAt decodeNext self (before ++ call :: after).flatten s i)
    (hstop : self.params.stop = l ++ s :: r) (hmin : self.params.minTokens ≤ self.tokenIds.length + j)
    (hl : ∀ s' ∈ l, ¬ CompletesAt decodeNext self (before ++ call :: after).flatten s' j)
    (he : findEnd s (textAfter decodeNext self (before ++ call :: after).flatten j).length
      (textAfter decodeNext self (before ++ call :: after).flatten (j + 1)) = some e) :
    updateAll decodeNext false self (before ++ call :: after) =
      (decodeAll decodeNext self (before.flatten ++ call)).applied
        ((report l (textAfter decodeNext self (before ++ call :: after).flatten (j + 1)).length
          (textAfter decodeNext self (before ++ call :: after).flatten
            (before.flatten.length + call.length))).or (some (s, e))) := by
  rw [updateAll_skip fun i hi => hfirst i (by omega)]
  have hfields : (decodeAll decodeNext self before.flatten).params = self.params ∧ _ := decodeAll_fields
  obtain ⟨hparams, htokens, -⟩ := hfields
  have hflat : (before ++ call :: after).flatten = before.flatten ++ (call ++ after.flatten) := by
    rw [flatten_append, flatten_cons]
  obtain ⟨i, rfl⟩ := Nat.exists_eq_add_of_le hj
  rw [hflat] at hfirst hl he ⊢
  rw [Nat.add_assoc] at he ⊢
  rw [textAfter_add] at he ⊢
  rw [textAfter_add] at he ⊢
  rw [decodeAll_append]
  rw [← hparams] at hstop
  refine updateAll_found_head (by omega) (fun k hk s' hs' hcompletes => ?_) hstop ?_
    (fun s' hs' hcompletes => ?_) he
  · rw [hparams] at hs'
    exact hfirst (before.flatten.length + k) (by omega) s' hs' ((completesAt_add k).mpr hcompletes)
  · rw [hparams, htokens, length_append]
    omega
  · exact hl s' hs' ((completesAt_add i).mpr hcompletes)

variable {calls : List (List TokenId)}

lemma exists_call (h : j < calls.flatten.length) :
    ∃ before call after, calls = before ++ call :: after ∧ before.flatten.length ≤ j ∧
      j < before.flatten.length + call.length := by
  induction calls generalizing j with
  | nil => exact absurd h (Nat.not_lt_zero j)
  | cons call calls ih =>
    rw [flatten_cons, length_append] at h
    by_cases hj : j < call.length
    · exact ⟨[], call, calls, rfl, Nat.zero_le _, by simpa using hj⟩
    · obtain ⟨before, call', after, rfl, hle, hlt⟩ := ih (j := j - call.length) (by omega)
      refine ⟨call :: before, call', after, rfl, ?_, ?_⟩
      · rw [flatten_cons, length_append]
        omega
      · rw [flatten_cons, length_append]
        omega

def singly (tokens : List TokenId) : List (List TokenId) := tokens.map fun t => [t]

lemma flatten_singly (tokens : List TokenId) : (singly tokens).flatten = tokens := by
  induction tokens with
  | nil => rfl
  | cons t rest ih =>
    unfold singly at ih ⊢
    rw [map_cons, flatten_cons, ih]
    rfl

lemma singly_split (h : singly tokens = before ++ call :: after) : call.length = 1 := by
  have hmem : call ∈ singly tokens := by
    rw [h]
    exact mem_append_right before mem_cons_self
  obtain ⟨t, -, rfl⟩ := mem_map.mp hmem
  rfl

lemma stopAndText_applied {d' : BaseIncrementalDetokenizer D} (hparams : d.params = d'.params)
    (htext : d.outputText <+: d'.outputText) (he : e ≤ d.outputText.length) :
    stopAndText (d.applied (some (s, e))) = stopAndText (d'.applied (some (s, e))) := by
  have hcut : cutAt d'.params s e ≤ d.outputText.length := by
    unfold cutAt
    split <;> omega
  unfold stopAndText applied
  dsimp only
  rw [hparams, take_prefix_eq htext hcut]

lemma textAfter_calls (decodeNext : D → List TokenId → List Char × D)
    (self : BaseIncrementalDetokenizer D) (before after : List (List TokenId)) (call : List TokenId) :
    textAfter decodeNext self (before ++ call :: after).flatten (before.flatten.length + call.length) =
      (decodeAll decodeNext self (before.flatten ++ call)).outputText := by
  unfold textAfter
  rw [flatten_append, flatten_cons, ← append_assoc, ← length_append, take_left]

lemma grouping_at (hcalls : calls = before ++ call :: after) (hj : before.flatten.length ≤ j)
    (hlt : j < before.flatten.length + call.length)
    (hfirst : ∀ i < j, ∀ s ∈ self.params.stop, ¬ CompletesAt decodeNext self calls.flatten s i)
    (hstop : self.params.stop = l ++ s :: r) (hs : CompletesAt decodeNext self calls.flatten s j)
    (hl : ∀ s' ∈ l, ¬ CompletesAt decodeNext self calls.flatten s' j) :
    stopAndText (updateAll decodeNext false self calls) =
        stopAndText (updateAll decodeNext false self (singly calls.flatten)) ↔
      ∀ k, j < k → k < before.flatten.length + call.length →
        ∀ s' ∈ l, ¬ CompletesAt decodeNext self calls.flatten s' k := by
  obtain ⟨hmin, hend⟩ := completesAt_iff.mp hs
  obtain ⟨e, he⟩ := ne_none_iff_exists'.mp hend
  obtain ⟨⟨-, hle, -⟩, -⟩ := findEnd_eq_some_iff.mp he
  have hlen : before.flatten.length + call.length ≤ calls.flatten.length := by
    rw [hcalls, flatten_append, flatten_cons, length_append, length_append]
    omega
  -- one token per call
  have hj' : j < (singly calls.flatten).flatten.length := by
    rw [flatten_singly]
    omega
  obtain ⟨before1, call1, after1, hcalls1, hle1, hlt1⟩ := exists_call hj'
  have hone := singly_split hcalls1
  have hat : before1.flatten.length + call1.length = j + 1 := by omega
  have hflat1 : (before1 ++ call1 :: after1).flatten = calls.flatten := by
    rw [← hcalls1, flatten_singly]
  have hsingly : updateAll decodeNext false self (before1 ++ call1 :: after1) = _ :=
    updateAll_found hle1 hlt1 (by rwa [hflat1]) hstop hmin (by rwa [hflat1])
      (by rw [hflat1]; exact he)
  have hempty : report l (textAfter decodeNext self calls.flatten (j + 1)).length
      (textAfter decodeNext self calls.flatten (j + 1)) = none :=
    report_eq_none_iff.mpr fun w _ => findEnd_eq_none_iff.mpr fun e hn he => by omega
  have htext1 := textAfter_calls decodeNext self before1 after1 call1
  rw [hflat1, hat] at hsingly htext1
  rw [hempty] at hsingly
  rw [hcalls1, hsingly]
  -- the calls as they are
  have hgroup : updateAll decodeNext false self (before ++ call :: after) = _ :=
    updateAll_found hj hlt (by rwa [← hcalls]) hstop hmin (by rwa [← hcalls])
      (by rw [← hcalls]; exact he)
  have htext := textAfter_calls decodeNext self before after call
  rw [← hcalls] at hgroup htext
  rw [hgroup]
  have hlater : (∀ k, j < k → k < before.flatten.length + call.length →
      ∀ s' ∈ l, ¬ CompletesAt decodeNext self calls.flatten s' k) ↔
      report l (textAfter decodeNext self calls.flatten (j + 1)).length
        (textAfter decodeNext self calls.flatten (before.flatten.length + call.length)) = none := by
    rw [report_steps_eq_none_iff textAfter_steps hlt]
    refine forall₃_congr fun k hjk _ => ?_
    rw [report_eq_none_iff]
    refine forall₂_congr fun s' _ => ?_
    have hmin' : self.params.minTokens ≤ self.tokenIds.length + k := by omega
    rw [completesAt_iff]
    simp [hmin']
  rw [hlater]
  cases hreport : report l (textAfter decodeNext self calls.flatten (j + 1)).length
      (textAfter decodeNext self calls.flatten (before.flatten.length + call.length)) with
  | none =>
    refine iff_of_true ?_ rfl
    refine (stopAndText_applied ?_ ?_ ?_).symm
    · exact decodeAll_fields.1.trans decodeAll_fields.1.symm
    · rw [← htext, ← htext1]
      exact prefix_steps textAfter_steps hlt
    · rw [← htext1]
      exact hle
  | some found =>
    obtain ⟨s', e'⟩ := found
    obtain ⟨l', r', rfl, -, -⟩ := report_eq_some hreport
    refine iff_of_false (fun heq => ?_) (by rintro ⟨⟩)
    have hsame : s' = s := by
      have hfst := congrArg Prod.fst heq
      exact some.inj hfst
    subst hsame
    exact hl s' (mem_append_right l' mem_cons_self) hs

lemma updateAll_none (h : ∀ i < calls.flatten.length, ∀ s ∈ self.params.stop,
      ¬ CompletesAt decodeNext self calls.flatten s i) :
    updateAll decodeNext false self calls = (none, decodeAll decodeNext self calls.flatten) := by
  have hskip : updateAll decodeNext false self (calls ++ []) = _ := updateAll_skip fun i hi => by
    rw [append_nil]
    exact h i hi
  rw [append_nil] at hskip
  rw [hskip]
  rfl

theorem grouping_iff (calls : List (List TokenId)) : stopAndText (updateAll decodeNext false self calls) =
        stopAndText (updateAll decodeNext false self (singly calls.flatten)) ↔
      StopsInOrder decodeNext self calls := by
  constructor
  · intro heq before call after hcalls j k hj hjk hk hfirst l s r hstop hs hl s' hs'
    exact (grouping_at hcalls hj (by omega) hfirst hstop hs hl).mp heq k hjk hk s' hs'
  · intro horder
    by_cases hex : ∃ i, i < calls.flatten.length ∧ ∃ s ∈ self.params.stop,
        CompletesAt decodeNext self calls.flatten s i
    · classical
      obtain ⟨hlt, s0, hs0, hcompletes⟩ := Nat.find_spec hex
      have hfirst : ∀ i < Nat.find hex, ∀ s ∈ self.params.stop,
          ¬ CompletesAt decodeNext self calls.flatten s i := by
        intro i hi s hs hcompletes
        exact Nat.find_min hex hi ⟨hi.trans hlt, s, hs, hcompletes⟩
      generalize Nat.find hex = j at *
      have hmin := (completesAt_iff.mp hcompletes).1
      have hsome : report self.params.stop (textAfter decodeNext self calls.flatten j).length
          (textAfter decodeNext self calls.flatten (j + 1)) ≠ none := fun hnone =>
        (report_of_not_completes hmin).mpr hnone s0 hs0 hcompletes
      obtain ⟨⟨s, e⟩, hreport⟩ := ne_none_iff_exists'.mp hsome
      obtain ⟨l, r, hstop, hnone, he⟩ := report_eq_some hreport
      have hs : CompletesAt decodeNext self calls.flatten s j :=
        completesAt_iff.mpr ⟨hmin, by rw [he]; exact some_ne_none e⟩
      have hl : ∀ s' ∈ l, ¬ CompletesAt decodeNext self calls.flatten s' j := fun s' hs' hc =>
        (completesAt_iff.mp hc).2 (report_eq_none_iff.mp hnone s' hs')
      obtain ⟨before, call, after, hcalls, hj, hlt'⟩ := exists_call hlt
      refine (grouping_at hcalls hj hlt' hfirst hstop hs hl).mpr fun k hjk hk => ?_
      exact horder before call after hcalls j k hj hjk hk hfirst l s r hstop hs hl
    · have hnone : ∀ i < calls.flatten.length, ∀ s ∈ self.params.stop,
          ¬ CompletesAt decodeNext self calls.flatten s i := fun i hi s hs hc =>
        hex ⟨i, hi, s, hs, hc⟩
      rw [updateAll_none hnone, updateAll_none, flatten_singly]
      rwa [flatten_singly]

def dropLastToken : List (List TokenId) → List (List TokenId)
  | [] => []
  | call :: rest => if rest.flatten = [] then [call.dropLast] else call :: dropLastToken rest

def decodedCalls (p : StopParams) (stopTerminated : Bool) (calls : List (List TokenId)) :
    List (List TokenId) :=
  if stopTerminated && !p.includeStopStrInOutput then dropLastToken calls else calls

lemma flatten_dropLastToken (calls : List (List TokenId)) :
    (dropLastToken calls).flatten = calls.flatten.dropLast := by
  induction calls with
  | nil => rfl
  | cons call rest ih =>
    unfold dropLastToken
    rw [flatten_cons]
    split
    · next hrest => rw [hrest, append_nil, flatten_singleton]
    · next hrest => rw [flatten_cons, ih, dropLast_append_of_ne_nil hrest]

lemma updateAll_empty {stopTerminated : Bool}
    (h : calls.flatten = []) : updateAll decodeNext stopTerminated self calls = (none, self) := by
  induction calls with
  | nil => rfl
  | cons call rest ih =>
    rw [flatten_cons, append_eq_nil_iff] at h
    rw [h.1]
    exact ih h.2

lemma update_terminated (hinc : self.params.includeStopStrInOutput = false)
    (call : List TokenId) : stopAndText (self.update decodeNext call true) =
      stopAndText (self.update decodeNext call.dropLast false) := by
  by_cases hnil : call = []
  · rw [hnil]
    rfl
  · have hfields : (decodeAll decodeNext self call.dropLast).params = self.params ∧ _ := decodeAll_fields
    obtain ⟨hparams, htokens, -⟩ := hfields
    have hupdate : self.update decodeNext call true =
        { decodeAll decodeNext self call.dropLast with
          tokenIds := (decodeAll decodeNext self call.dropLast).tokenIds ++
            call.drop (call.length - 1) }.stopCheck
          (textAfter decodeNext self call.dropLast (self.params.minTokens - self.tokenIds.length)).length := by
      unfold update
      rw [if_neg hnil, hinc]
      simp only [Bool.not_false, Bool.and_true, ↓reduceIte, decodeLoop_eq]
    rw [update_eq, hupdate]
    by_cases hmin : self.params.minTokens < self.tokenIds.length + call.length
    · have hle : (textAfter decodeNext self call.dropLast
          (self.params.minTokens - self.tokenIds.length)).length ≤
          (decodeAll decodeNext self call.dropLast).outputText.length := (textAfter_le _).length_le
      have hstop : (decodeAll decodeNext self call.dropLast).params.stop = self.params.stop := by
        rw [hparams]
      rw [stopCheck_eq]
      · rw [hstop]
        generalize report self.params.stop _ _ = found
        cases found <;> rfl
      · exact hle
      · rw [hparams, htokens, length_append, length_append, length_dropLast, length_drop]
        omega
    · rw [report_required (by rw [length_dropLast]; omega)]
      unfold stopCheck
      rw [hparams, htokens, length_append, length_append, length_dropLast,
        length_drop, if_neg fun h => hmin (by omega)]
      rfl

lemma update_none (h : self.update decodeNext tokens false = (none, d)) : d.params = self.params := by
  rw [update_eq] at h
  have hfields : (decodeAll decodeNext self tokens).params = self.params ∧ _ := decodeAll_fields
  rw [← hfields.1]
  generalize report self.params.stop _ _ = found at h
  cases found with
  | none =>
    cases h
    rfl
  | some found => cases h

lemma updateAll_included (hinc : self.params.includeStopStrInOutput = true) (calls : List (List TokenId)) :
    updateAll decodeNext true self calls = updateAll decodeNext false self calls := by
  induction calls generalizing self with
  | nil => rfl
  | cons call rest ih =>
    have hflag : ∀ terminated, self.update decodeNext call terminated = self.update decodeNext call false := by
      unfold update
      rw [hinc]
      simp
    rw [updateAll, updateAll, hflag, hflag (false && _)]
    cases hupdate : self.update decodeNext call false with
    | mk stopString d =>
      cases stopString with
      | some s => rfl
      | none => exact ih (by rw [update_none hupdate, hinc])

lemma updateAll_terminated (hinc : self.params.includeStopStrInOutput = false)
    (calls : List (List TokenId)) : stopAndText (updateAll decodeNext true self calls) =
      stopAndText (updateAll decodeNext false self (dropLastToken calls)) := by
  have hlast : ∀ {rest : List (List TokenId)} {b : Bool}
      (r : Option (List Char) × BaseIncrementalDetokenizer D), rest.flatten = [] → stopAndText (match r with
        | (some stopString, self) => (some stopString, self)
        | (none, self) => updateAll decodeNext b self rest) = stopAndText r := by
    intro rest b r hrest
    obtain ⟨stopString, d⟩ := r
    cases stopString with
    | some s => rfl
    | none =>
      dsimp only
      rw [updateAll_empty hrest]
  induction calls generalizing self with
  | nil => rfl
  | cons call rest ih =>
    unfold dropLastToken
    split
    · next hrest =>
      rw [updateAll, hrest]
      exact (hlast _ hrest).trans ((update_terminated hinc call).trans (hlast _ rfl).symm)
    · next hrest =>
      rw [updateAll, updateAll, decide_eq_false hrest, Bool.and_false, Bool.false_and]
      cases hupdate : self.update decodeNext call false with
      | mk stopString d =>
        cases stopString with
        | some s => rfl
        | none => exact ih (by rw [update_none hupdate, hinc])

lemma stopsInOrder_of_short (h : ∀ call ∈ calls, call.length ≤ 1) : StopsInOrder decodeNext self calls := by
  intro before call after hcalls j k hj hjk hk
  have hcall := h call (by
    rw [hcalls]
    exact mem_append_right before mem_cons_self)
  omega

lemma length_dropLastToken (h : ∀ call ∈ calls, call.length ≤ 1) :
    ∀ call ∈ dropLastToken calls, call.length ≤ 1 := by
  induction calls with
  | nil => nofun
  | cons call rest ih =>
    have hcall := h call mem_cons_self
    intro c hc
    unfold dropLastToken at hc
    split at hc
    · rw [mem_singleton.mp hc, length_dropLast]
      omega
    · rcases mem_cons.mp hc with rfl | hc
      · exact hcall
      · exact ih (fun c hc => h c (mem_cons_of_mem call hc)) c hc

/-- The stop string and the text do not depend on the grouping just when no later token of the call
completes one listed before. -/
theorem grouping_agrees_iff (decodeNext : D → List TokenId → List Char × D)
    (self : BaseIncrementalDetokenizer D) (stopTerminated : Bool) (calls : List (List TokenId)) :
    stopAndText (updateAll decodeNext stopTerminated self calls) =
        stopAndText (updateAll decodeNext stopTerminated self (singly calls.flatten)) ↔
      StopsInOrder decodeNext self (decodedCalls self.params stopTerminated calls) := by
  have hshort : ∀ call ∈ singly calls.flatten, call.length ≤ 1 := by
    intro call hcall
    obtain ⟨t, -, rfl⟩ := mem_map.mp hcall
    exact le_rfl
  unfold decodedCalls
  cases stopTerminated with
  | false => exact grouping_iff calls
  | true =>
    cases hinc : self.params.includeStopStrInOutput with
    | true =>
      rw [updateAll_included hinc, updateAll_included hinc]
      exact grouping_iff calls
    | false =>
      have hsingly : stopAndText (updateAll decodeNext false self _) = _ :=
        (grouping_iff _).mpr (stopsInOrder_of_short (length_dropLastToken hshort))
      rw [flatten_dropLastToken, flatten_singly, ← flatten_dropLastToken] at hsingly
      rw [updateAll_terminated hinc, updateAll_terminated hinc, hsingly]
      exact grouping_iff (dropLastToken calls)

/-- Token 0 is decoded to `a`, and every other token to `b`. -/
def letters : Unit → List TokenId → List Char × Unit :=
  fun _ tokenIds => (if tokenIds.getLast? = some 0 then ['a'] else ['b'], ())

/-- The stop strings `b` and `a`, in this order. -/
def stopAtLetters : BaseIncrementalDetokenizer Unit :=
  { params := { stop := [['b'], ['a']] }, decoder := () }

/-- With both tokens in one call `b` is reported, and the text keeps the stop string `a`. -/
theorem grouping_changes_stop : ¬ ∀ calls : List (List TokenId),
    stopAndText (updateAll letters false stopAtLetters calls) =
      stopAndText (updateAll letters false stopAtLetters (singly calls.flatten)) := by
  intro hall
  have hgroup := hall [[0, 1]]
  revert hgroup
  decide

end BaseIncrementalDetokenizer

end CustomAi.Vllm
