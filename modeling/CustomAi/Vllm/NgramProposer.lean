import Mathlib.Algebra.Order.Ring.Int
import Mathlib.Data.List.Basic
import CustomAi.Lib.Border

/-!
# Drafts from an earlier occurrence of the last tokens

The n-gram proposer looks for the longest n-gram at the end of the context that ends at an earlier
position too, and drafts the tokens after its first occurrence.
-/

namespace CustomAi.Vllm.NgramProposer

open List Option

variable {T : Type} [DecidableEq T]

structure Search where
  lps : List ℕ
  longestNgram : ℕ := 0
  position : ℕ := 0
  prevLps : ℕ := 0
  i : ℕ := 1

def searchStep (tokens : List T) (maxNgram : ℕ) (s : Search) : Search :=
  if tokens[s.prevLps]? = tokens[s.i]? then
    let prevLps := s.prevLps + 1
    let lps := if s.i < maxNgram then s.lps.set s.i prevLps else s.lps
    { lps := lps
      longestNgram := if s.longestNgram ≤ prevLps then prevLps else s.longestNgram
      position := if s.longestNgram ≤ prevLps then s.i else s.position
      prevLps := if prevLps = maxNgram then lps.getD (maxNgram - 1) 0 else prevLps
      i := s.i + 1 }
  else if s.prevLps ≠ 0 then
    { s with prevLps := s.lps.getD (s.prevLps - 1) 0 }
  else { s with i := s.i + 1 }

/-- The `while` loop; `none` if it has not ended after `fuel` turns. -/
def searchLoop (tokens : List T) (maxNgram : ℕ) : ℕ → Search → Option Search
  | fuel, s =>
    if s.i < tokens.length then
      match fuel with
      | 0 => none
      | fuel + 1 => searchLoop tokens maxNgram fuel (searchStep tokens maxNgram s)
    else some s

/-- `_find_longest_matched_ngram_and_propose_tokens`, with the turns its loop may take. -/
def findLongestMatchedNgramAndProposeTokens (fuel : ℕ) (originTokens : List T)
    (minNgram maxNgram : ℕ) (maxModelLen k : ℤ) : Option (List T) :=
  let totalToken := originTokens.length
  if totalToken < minNgram then some []
  else
    let k := min k (maxModelLen - totalToken)
    if k ≤ 0 then some []
    else
      (searchLoop originTokens.reverse maxNgram fuel
          { lps := replicate maxNgram 0 }).map fun s =>
        if s.longestNgram < minNgram then []
        else
          let startPosition := totalToken - 1 - s.position + s.longestNgram
          let k := min k ((totalToken : ℤ) - startPosition)
          (originTokens.drop startPosition).take k.toNat

/-- The last `n` tokens also stand at `p`, and end there before the end of the context. -/
def OccursAt (tokens : List T) (n p : ℕ) : Prop :=
  p + n < tokens.length ∧ (tokens.drop p).take n = tokens.drop (tokens.length - n)

instance (tokens : List T) (n p : ℕ) : Decidable (OccursAt tokens n p) :=
  inferInstanceAs (Decidable (_ ∧ _))

/-! ## The loop -/

variable {tokens : List T} {maxNgram : ℕ} {s : Search}

/-- The loop invariant: borders of the prefix scanned so far. -/
structure Search.Sound (tokens : List T) (maxNgram : ℕ) (s : Search) : Prop where
  pos : 0 < s.i
  le : s.i ≤ tokens.length
  border : Border (tokens[·]?) s.prevLps s.i
  capped : s.prevLps < maxNgram
  /-- No candidate longer than `prevLps` can be extended by the next token. -/
  extends_le : ∀ u, Border (tokens[·]?) (u + 1) (s.i + 1) → u < maxNgram → u ≤ s.prevLps
  length_lps : s.lps.length = maxNgram
  lps : ∀ j, j < s.i → j < maxNgram → LongestBorder (tokens[·]?) (s.lps.getD j 0) (j + 1)
  lps_zero : ∀ j, s.i ≤ j → s.lps.getD j 0 = 0
  longest_le : s.longestNgram ≤ maxNgram
  found : s.longestNgram = 0 ∨ s.position < s.i ∧ Border (tokens[·]?) s.longestNgram (s.position + 1)
  maximal : ∀ u j, j < s.i → 0 < u → u ≤ maxNgram → Border (tokens[·]?) u (j + 1) →
    u ≤ s.longestNgram ∧ (u = s.longestNgram → j ≤ s.position)

omit [DecidableEq T] in
lemma Search.Sound.start (hlen : 0 < tokens.length) (hmax : 0 < maxNgram) :
    Search.Sound tokens maxNgram { lps := replicate maxNgram 0 } := by
  have hzero : ∀ j, (replicate maxNgram 0).getD j 0 = 0 := by
    intro j
    rw [getD_eq_getElem?_getD, getElem?_replicate]
    split <;> rfl
  refine ⟨Nat.one_pos, hlen, Border.zero Nat.one_pos, hmax, fun u hu hlt => ?_,
    length_replicate, fun j hj _ => ?_, fun j _ => hzero j, Nat.zero_le _, Or.inl rfl, fun u j hj hpos hle hu => ?_⟩
  · have := hu.lt
    dsimp only at *
    omega
  · dsimp only at *
    rw [hzero]
    exact ⟨Border.zero (by omega), fun u hu => by have := hu.lt; omega⟩
  · have := hu.lt
    dsimp only at *
    omega

section

variable (h : s.Sound tokens maxNgram)
include h

omit [DecidableEq T] in
lemma Search.Sound.border_le {u : ℕ}
    (hu : Border (tokens[·]?) u (s.i + 1)) (hle : u ≤ maxNgram) : u ≤ s.prevLps + 1 := by
  cases u with
  | zero => exact Nat.zero_le _
  | succ u => exact Nat.succ_le_succ (h.extends_le u hu hle)

section

variable (hi : s.i < tokens.length)
include hi

lemma Search.Sound.step_match (heq : tokens[s.prevLps]? = tokens[s.i]?) :
    (searchStep tokens maxNgram s).Sound tokens maxNgram := by
  have hnew : Border (tokens[·]?) (s.prevLps + 1) (s.i + 1) := h.border.succ heq
  have hlt := h.border.lt
  have hcap := h.capped
  have hlen := h.length_lps
  have hlps : ∀ j, (if s.i < maxNgram then s.lps.set s.i (s.prevLps + 1) else s.lps).getD j 0 =
      if j = s.i ∧ j < maxNgram then s.prevLps + 1 else s.lps.getD j 0 := by
    intro j
    simp only [getD_eq_getElem?_getD]
    by_cases hi : s.i < maxNgram
    · rw [if_pos hi, getElem?_set, hlen]
      by_cases hj : s.i = j
      · subst hj
        simp [hi]
      · rw [if_neg hj, if_neg (fun h => hj h.1.symm)]
    · rw [if_neg hi, if_neg (by omega)]
  have hlongest : ∀ j, j < s.i + 1 → j < maxNgram → LongestBorder (tokens[·]?)
      (if j = s.i ∧ j < maxNgram then s.prevLps + 1 else s.lps.getD j 0) (j + 1) := by
    intro j hj hm
    by_cases hi : j = s.i
    · subst hi
      rw [if_pos ⟨rfl, hm⟩]
      exact ⟨hnew, fun u hu => h.border_le hu (by have := hu.lt; omega)⟩
    · rw [if_neg (fun h => hi h.1)]
      exact h.lps j (by omega) hm
  unfold searchStep
  rw [if_pos heq]
  refine ⟨Nat.succ_pos _, hi, ?_, ?_, fun u hu hum => ?_, ?_, fun j hj hm => ?_, fun j hj => ?_, ?_,
    ?_, fun u j hj hpos hle hu => ?_⟩
  · dsimp only
    split
    · next hfull =>
      rw [if_neg (by omega)]
      have hb := h.lps (maxNgram - 1) (by omega) (by omega)
      rw [show maxNgram - 1 + 1 = s.prevLps + 1 by omega] at hb
      exact hb.toBorder.trans hnew
    · exact hnew
  · dsimp only
    split
    · next hfull =>
      rw [if_neg (by omega)]
      have hb := (h.lps (maxNgram - 1) (by omega) (by omega)).lt
      omega
    · omega
  · dsimp only at hu ⊢
    have hu' := hu.of_succ
    split
    · -- the candidates of a full n-gram are the borders of its first `maxNgram` tokens
      next hfull =>
      rw [if_neg (by omega)]
      have hb := h.lps (maxNgram - 1) (by omega) (by omega)
      rw [show maxNgram - 1 + 1 = s.prevLps + 1 by omega] at hb
      exact hb.le_of_border hu' hnew (by omega)
    · exact h.border_le hu' (by omega)
  · split
    · rw [length_set, hlen]
    · exact hlen
  · rw [hlps]
    exact hlongest j hj hm
  · dsimp only at hj ⊢
    rw [hlps, if_neg (by omega)]
    exact h.lps_zero j (by omega)
  · dsimp only
    split
    · omega
    · exact h.longest_le
  · dsimp only
    split
    · exact Or.inr ⟨by omega, hnew⟩
    · rcases h.found with h0 | ⟨hp, hb⟩
      · omega
      · exact Or.inr ⟨by omega, hb⟩
  · dsimp only at hj ⊢
    rcases Nat.lt_succ_iff_lt_or_eq.mp hj with hj | rfl
    · obtain ⟨h1, h2⟩ := h.maximal u j hj hpos hle hu
      split
      · exact ⟨by omega, fun _ => by omega⟩
      · exact ⟨h1, h2⟩
    · have := h.border_le hu hle
      split
      · exact ⟨by omega, fun _ => le_refl _⟩
      · exact ⟨by omega, fun _ => by omega⟩

lemma Search.Sound.step_mismatch (hne : tokens[s.prevLps]? ≠ tokens[s.i]?) :
    (searchStep tokens maxNgram s).Sound tokens maxNgram := by
  have hlt := h.border.lt
  have hcap := h.capped
  have hshort : ∀ u, Border (tokens[·]?) (u + 1) (s.i + 1) → u < maxNgram → u < s.prevLps := by
    intro u hu hum
    refine lt_of_le_of_ne (h.extends_le u hu hum) ?_
    rintro rfl
    exact hne hu.next_eq
  unfold searchStep
  rw [if_neg hne]
  by_cases h0 : s.prevLps = 0
  · rw [if_neg (fun hn => hn h0)]
    -- no border of the tokens up to `i` but the empty one
    have hnone : ∀ u, Border (tokens[·]?) u (s.i + 1) → u ≤ maxNgram → u = 0 := by
      intro u hu hle
      cases u with
      | zero => rfl
      | succ u =>
        have := hshort u hu hle
        omega
    refine ⟨Nat.succ_pos _, hi, ?_, hcap, fun u hu hum => ?_, h.length_lps, fun j hj hm => ?_,
      fun j hj => h.lps_zero j (Nat.le_of_succ_le hj), h.longest_le, ?_, fun u j hj hpos hle hu => ?_⟩
    · rw [h0]
      exact Border.zero (Nat.succ_pos _)
    · rw [hnone u hu.of_succ hum.le]
      exact Nat.zero_le _
    · rcases Nat.lt_succ_iff_lt_or_eq.mp hj with hj | rfl
      · exact h.lps j hj hm
      · rw [h.lps_zero s.i le_rfl]
        exact ⟨Border.zero (Nat.succ_pos _), fun u hu => (hnone u hu (by have := hu.lt; omega)).le⟩
    · rcases h.found with hz | ⟨hp, hb⟩
      · exact Or.inl hz
      · exact Or.inr ⟨Nat.lt_succ_of_lt hp, hb⟩
    · rcases Nat.lt_succ_iff_lt_or_eq.mp hj with hj | rfl
      · exact h.maximal u j hj hpos hle hu
      · have := hnone u hu hle
        omega
  · rw [if_pos h0]
    have hb := h.lps (s.prevLps - 1) (by omega) (by omega)
    rw [show s.prevLps - 1 + 1 = s.prevLps by omega] at hb
    have hblt := hb.lt
    exact ⟨h.pos, h.le, hb.toBorder.trans h.border, hblt.trans hcap,
      fun u hu hum => hb.le_of_border hu.of_succ h.border (hshort u hu hum),
      h.length_lps, h.lps, h.lps_zero, h.longest_le, h.found, h.maximal⟩

lemma Search.Sound.step : (searchStep tokens maxNgram s).Sound tokens maxNgram := by
  by_cases heq : tokens[s.prevLps]? = tokens[s.i]?
  · exact h.step_match hi heq
  · exact h.step_mismatch hi heq

lemma Search.Sound.measure :
    2 * (tokens.length - (searchStep tokens maxNgram s).i) + (searchStep tokens maxNgram s).prevLps <
      2 * (tokens.length - s.i) + s.prevLps := by
  have hlt := h.border.lt
  have hcap := h.capped
  by_cases heq : tokens[s.prevLps]? = tokens[s.i]?
  · have hnext := (h.step_match hi heq).capped
    unfold searchStep at hnext ⊢
    rw [if_pos heq] at hnext ⊢
    dsimp only at hnext ⊢
    split at hnext
    · next hfull =>
      rw [if_pos hfull]
      omega
    · next hfull =>
      rw [if_neg hfull]
      omega
  · unfold searchStep
    rw [if_neg heq]
    split
    · next h0 =>
      have hb := (h.lps (s.prevLps - 1) (by omega) (by omega)).lt
      dsimp only
      omega
    · dsimp only
      omega

end

end

lemma searchLoop_of_le {fuel fuel' : ℕ} {r : Search} (hle : fuel ≤ fuel')
    (hr : searchLoop tokens maxNgram fuel s = some r) : searchLoop tokens maxNgram fuel' s = some r := by
  induction fuel generalizing fuel' s with
  | zero =>
    unfold searchLoop at hr ⊢
    split at hr
    · cases hr
    · next hi => rw [if_neg hi]; exact hr
  | succ fuel ih =>
    obtain ⟨fuel', rfl⟩ := Nat.exists_eq_add_of_lt hle
    unfold searchLoop at hr ⊢
    split at hr
    · next hi =>
      rw [if_pos hi]
      exact ih (by omega) hr
    · next hi => rw [if_neg hi]; exact hr

lemma Search.Sound.searchLoop (h : s.Sound tokens maxNgram) (fuel : ℕ)
    (hfuel : 2 * (tokens.length - s.i) + s.prevLps ≤ fuel) :
    ∃ r, NgramProposer.searchLoop tokens maxNgram fuel s = some r ∧
      r.Sound tokens maxNgram ∧ r.i = tokens.length := by
  induction fuel generalizing s with
  | zero =>
    have hi : ¬s.i < tokens.length := by omega
    exact ⟨s, by unfold NgramProposer.searchLoop; rw [if_neg hi], h, le_antisymm h.le (not_lt.mp hi)⟩
  | succ fuel ih =>
    by_cases hi : s.i < tokens.length
    · have hless := h.measure hi
      obtain ⟨r, hr, hsound, hend⟩ := ih (h.step hi) (by omega)
      refine ⟨r, ?_, hsound, hend⟩
      unfold NgramProposer.searchLoop
      rw [if_pos hi]
      exact hr
    · exact ⟨s, by unfold NgramProposer.searchLoop; rw [if_neg hi], h, le_antisymm h.le (not_lt.mp hi)⟩

/-! ## The proposal -/

omit [DecidableEq T] in
lemma occursAt_iff {n p : ℕ} : OccursAt tokens n p ↔ p + n < tokens.length ∧
    ∀ q, q < n → tokens[p + q]? = tokens[tokens.length - n + q]? := by
  refine and_congr_right fun hlt => ⟨fun h q hq => ?_, fun h => ?_⟩
  · have hget := congrArg (·[q]?) h
    simpa [getElem?_take, hq] using hget
  · refine ext_getElem? fun q => ?_
    rw [getElem?_take, getElem?_drop]
    split
    · next hq => rw [getElem?_drop, h q hq]
    · rw [getElem?_eq_none]
      simp only [length_drop]
      omega

omit [DecidableEq T] in
lemma border_reverse_iff {n p : ℕ} : Border (tokens.reverse[·]?) n (tokens.length - p) ↔ OccursAt tokens n p := by
  have hget : ∀ q, q < tokens.length → tokens.reverse[q]? = tokens[tokens.length - 1 - q]? :=
    fun q hq => getElem?_reverse hq
  rw [occursAt_iff]
  constructor
  · intro h
    have hlt := h.lt
    refine ⟨by omega, fun q hq => ?_⟩
    have heq := h.eq (n - 1 - q) (by omega)
    rw [hget _ (by omega), hget _ (by omega)] at heq
    rw [show tokens.length - 1 - (n - 1 - q) = tokens.length - n + q by omega,
      show tokens.length - 1 - (tokens.length - p - n + (n - 1 - q)) = p + q by omega] at heq
    exact heq.symm
  · rintro ⟨hlt, h⟩
    refine ⟨by omega, fun q hq => ?_⟩
    have heq := h (n - 1 - q) (by omega)
    rw [hget _ (by omega), hget _ (by omega)]
    rw [show tokens.length - 1 - q = tokens.length - n + (n - 1 - q) by omega,
      show tokens.length - 1 - (tokens.length - p - n + q) = p + (n - 1 - q) by omega]
    exact heq.symm

/-- The longest n-gram of a permitted length at the end that ends earlier too, and its first
occurrence. -/
structure LongestFirst (tokens : List T) (minNgram maxNgram n p : ℕ) : Prop where
  min_le : minNgram ≤ n
  le_max : n ≤ maxNgram
  occurs : OccursAt tokens n p
  longest : ∀ n' p', n' ≤ maxNgram → OccursAt tokens n' p' → n' ≤ n
  first : ∀ p', OccursAt tokens n p' → p ≤ p'

omit [DecidableEq T] in
lemma Search.Sound.longestFirst {minNgram : ℕ} (h : s.Sound tokens.reverse maxNgram)
    (hend : s.i = tokens.length) (hpos : 0 < s.longestNgram) (hmin : minNgram ≤ s.longestNgram) :
    s.position < tokens.length ∧
      LongestFirst tokens minNgram maxNgram s.longestNgram (tokens.length - 1 - s.position) := by
  rcases h.found with h0 | ⟨hlt, hb⟩
  · omega
  · have hat : tokens.length - (tokens.length - 1 - s.position) = s.position + 1 := by omega
    refine ⟨by omega, hmin, h.longest_le, ?_, fun n p hn hocc => ?_, fun p hocc => ?_⟩
    · rw [← border_reverse_iff, hat]
      exact hb
    · have hp := hocc.1
      rcases Nat.eq_zero_or_pos n with rfl | hn0
      · exact Nat.zero_le _
      · refine (h.maximal n (tokens.length - p - 1) (by omega) hn0 hn ?_).1
        rw [show tokens.length - p - 1 + 1 = tokens.length - p by omega]
        exact border_reverse_iff.mpr hocc
    · have hp := hocc.1
      have := (h.maximal s.longestNgram (tokens.length - p - 1) (by omega) hpos h.longest_le
        (by
          rw [show tokens.length - p - 1 + 1 = tokens.length - p by omega]
          exact border_reverse_iff.mpr hocc)).2 rfl
      omega

omit [DecidableEq T] in
lemma Search.Sound.not_occursAt (h : s.Sound tokens.reverse maxNgram)
    (hend : s.i = tokens.length) {n p : ℕ} (hn : s.longestNgram < n) (hle : n ≤ maxNgram) :
    ¬OccursAt tokens n p := by
  intro hocc
  have hp := hocc.1
  have := (h.maximal n (tokens.length - p - 1) (by omega) (by omega) hle (by
    rw [show tokens.length - p - 1 + 1 = tokens.length - p by omega]
    exact border_reverse_iff.mpr hocc)).1
  omega

/-- What follows the first occurrence of the longest repeated n-gram is drafted, or nothing. -/
theorem findLongestMatchedNgramAndProposeTokens_eq (tokens : List T) {minNgram maxNgram : ℕ}
    (maxModelLen k : ℤ) (hmin : 1 ≤ minNgram) (hmax : minNgram ≤ maxNgram) :
    ∃ drafts, (∀ fuel, 2 * tokens.length ≤ fuel →
        findLongestMatchedNgramAndProposeTokens fuel tokens minNgram maxNgram maxModelLen k = some drafts) ∧
      ((∀ n p, minNgram ≤ n → n ≤ maxNgram → ¬OccursAt tokens n p) ∨
          maxModelLen ≤ tokens.length ∨ k ≤ 0 → drafts = []) ∧
      ((∃ n p, minNgram ≤ n ∧ n ≤ maxNgram ∧ OccursAt tokens n p) → tokens.length < maxModelLen → 0 < k →
        ∃ n p, LongestFirst tokens minNgram maxNgram n p ∧ drafts = (tokens.drop (p + n)).take
            (min (min k (maxModelLen - tokens.length)) ((tokens.length : ℤ) - p - n)).toNat ∧ drafts ≠ []) := by
  by_cases hshort : tokens.length < minNgram
  · refine ⟨[], fun fuel _ => ?_, fun _ => rfl, fun ⟨n, p, hn, _, hocc⟩ => ?_⟩
    · unfold findLongestMatchedNgramAndProposeTokens
      rw [if_pos hshort]
    · have := hocc.1
      omega
  by_cases hroom : min k (maxModelLen - tokens.length) ≤ 0
  · refine ⟨[], fun fuel _ => ?_, fun _ => rfl, fun _ hlen hk => ?_⟩
    · unfold findLongestMatchedNgramAndProposeTokens
      rw [if_neg hshort]
      exact if_pos hroom
    · omega
  have hstart : Search.Sound tokens.reverse maxNgram { lps := replicate maxNgram 0 } :=
    Search.Sound.start (by rw [length_reverse]; omega) (by omega)
  obtain ⟨s, hs, hsound, hend⟩ := hstart.searchLoop (2 * tokens.length)
    (by rw [length_reverse]; dsimp only; omega)
  rw [length_reverse] at hend
  by_cases hlong : s.longestNgram < minNgram
  · refine ⟨[], fun fuel hfuel => ?_, fun _ => rfl, fun ⟨n, p, hn, hle, hocc⟩ => ?_⟩
    · unfold findLongestMatchedNgramAndProposeTokens
      rw [if_neg hshort]
      refine (if_neg hroom).trans ?_
      rw [searchLoop_of_le hfuel hs, map_some, if_pos hlong]
    · exact absurd hocc (hsound.not_occursAt hend (by omega) hle)
  · obtain ⟨hpos, hfirst⟩ := hsound.longestFirst hend (by omega) (not_lt.mp hlong)
    have hin := hfirst.occurs.1
    refine ⟨_, fun fuel hfuel => ?_, fun hidle => ?_, fun _ hlen hk =>
      ⟨s.longestNgram, tokens.length - 1 - s.position, hfirst, rfl, ?_⟩⟩
    · unfold findLongestMatchedNgramAndProposeTokens
      rw [if_neg hshort]
      refine (if_neg hroom).trans ?_
      rw [searchLoop_of_le hfuel hs, map_some, if_neg hlong]
      dsimp only
      rw [Nat.cast_add, Int.sub_sub]
    · rcases hidle with hnone | hlen | hk
      · exact absurd hfirst.occurs (hnone _ _ hfirst.min_le hfirst.le_max)
      · omega
      · omega
    · refine ne_nil_of_length_pos ?_
      rw [length_take, length_drop]
      omega

theorem findLongestMatchedNgramAndProposeTokens_eq_five : ∃ drafts, (∀ fuel, 2 * [1, 2, 3, 1, 2].length ≤ fuel →
        findLongestMatchedNgramAndProposeTokens fuel [1, 2, 3, 1, 2] 1 4 100 3 = some drafts) ∧
      ((∀ n p, 1 ≤ n → n ≤ 4 → ¬OccursAt [1, 2, 3, 1, 2] n p) ∨
          (100 : ℤ) ≤ [1, 2, 3, 1, 2].length ∨ (3 : ℤ) ≤ 0 → drafts = []) ∧
      ((∃ n p, 1 ≤ n ∧ n ≤ 4 ∧ OccursAt [1, 2, 3, 1, 2] n p) →
          ([1, 2, 3, 1, 2].length : ℤ) < 100 → (0 : ℤ) < 3 → ∃ n p, LongestFirst [1, 2, 3, 1, 2] 1 4 n p ∧
          drafts = ([1, 2, 3, 1, 2].drop (p + n)).take (min (min 3 (100 - ([1, 2, 3, 1, 2].length : ℤ)))
              (([1, 2, 3, 1, 2].length : ℤ) - p - n)).toNat ∧ drafts ≠ []) :=
  findLongestMatchedNgramAndProposeTokens_eq [1, 2, 3, 1, 2] 100 3 (by decide) (by decide)

theorem no_drafts_without_k : ¬∀ (tokens : List ℕ) (minNgram maxNgram : ℕ) (maxModelLen k : ℤ), 1 ≤ minNgram →
      minNgram ≤ maxNgram → ∃ drafts fuel,
        findLongestMatchedNgramAndProposeTokens fuel tokens minNgram maxNgram maxModelLen k = some drafts ∧
        ((∃ n p, minNgram ≤ n ∧ n ≤ maxNgram ∧ OccursAt tokens n p) →
          tokens.length < maxModelLen → drafts ≠ []) := by
  intro h
  obtain ⟨drafts, fuel, hdrafts, hne⟩ := h [5, 5] 1 1 10 0 le_rfl le_rfl
  have hidle : findLongestMatchedNgramAndProposeTokens fuel [5, 5] 1 1 10 0 = some ([] : List ℕ) := by
    unfold findLongestMatchedNgramAndProposeTokens
    exact (if_neg (by decide)).trans (if_pos (by decide))
  refine hne ⟨1, 0, le_rfl, le_rfl, by decide⟩ (by decide) ?_
  exact some.inj (hdrafts.symm.trans hidle)

end CustomAi.Vllm.NgramProposer
