import CustomAi.Lib.HashChain
import CustomAi.Lib.SelfDelimiting
import CustomAi.Vllm.BlockHasher
import Mathlib.Tactic.Ring

/-!
# Block hashes as a hash chain

The hasher computes a chain over the tokens and extra keys of the blocks.
-/

namespace CustomAi.Vllm

open List

def blockStep (H : CachingHashFn) (parent : BlockHash)
    (input : List TokenId × Option (List ExtraKey)) : BlockHash :=
  hashBlockTokens H (some parent) input.1 input.2

lemma hashBlockTokens_eq (H : CachingHashFn) (parent : Option BlockHash) (tokens : List TokenId)
    (keys : Option (List ExtraKey)) :
    hashBlockTokens H parent tokens keys = blockStep H (parent.getD []) (tokens, keys) := by
  cases parent <;> rfl

/-- No collisions, and no digest is the empty seed. -/
structure CachingHashFn.Injective (H : CachingHashFn) : Prop where
  injective : Function.Injective H.hash
  hash_ne_nil : ∀ x, H.hash x ≠ []

/-- Moreover `NONE_HASH` is no digest. -/
structure CachingHashFn.CollisionFree (H : CachingHashFn) : Prop extends H.Injective where
  hash_ne_noneHash : ∀ x, H.hash x ≠ H.noneHash

section Binding

variable {H : CachingHashFn}

lemma blockStep_of_ne_nil {parent : BlockHash} (h : parent ≠ []) (input : List TokenId × Option (List ExtraKey)) :
    blockStep H parent input = H.hash (parent, input.1, input.2) := by
  cases parent with
  | nil => exact absurd rfl h
  | cons b rest => rfl

lemma CachingHashFn.Injective.binding (h : H.Injective) : Binding (blockStep H) [] := by
  constructor
  · intro d b
    exact h.hash_ne_nil _
  · intro d d' b b' hseed heq
    by_cases hd : d = []
    · have hd' := hseed.mp hd
      subst hd hd'
      have hinj := h.injective heq
      simp only [Prod.mk.injEq] at hinj
      exact ⟨rfl, Prod.ext hinj.2.1 hinj.2.2⟩
    · have hd' : d' ≠ [] := fun hn => hd (hseed.mpr hn)
      rw [blockStep_of_ne_nil hd] at heq
      have hinj := h.injective heq
      simp only [Prod.mk.injEq] at hinj
      exact ⟨hinj.1, Prod.ext hinj.2.1 hinj.2.2⟩

end Binding

def ExtraKey.code : Code ExtraKey :=
  (Code.sum .string Code.byte.list).comap
    (fun k => match k with | .str s => .inl s | .bytes b => .inr b) (by
      intro x y h
      cases x <;> cases y <;> simp_all)

def BlockHashInput.code : Code BlockHashInput :=
  .prod Code.byte.list (.prod Code.int.list ExtraKey.code.list.option)

def serializingHashFn : CachingHashFn where
  hash x := 1 :: BlockHashInput.code.write x
  noneHash := [0]

lemma serializingHashFn_collisionFree : serializingHashFn.CollisionFree := by
  refine ⟨⟨fun x y h => ?_, fun x => ?_⟩, fun x h => ?_⟩
  · exact BlockHashInput.code.write_injective (List.cons.inj h).2
  · exact cons_ne_nil _ _
  · exact absurd (List.cons.inj h).1 (by decide)

namespace MultiModalFeatureSpec

def offset (f : MultiModalFeatureSpec) : ℕ := f.mmPosition.offset

def stop (f : MultiModalFeatureSpec) : ℕ := f.mmPosition.stop

/-- The feature lies before `e` altogether. -/
def passed (e : ℕ) (f : MultiModalFeatureSpec) : Bool := f.offset < e ∧ f.stop ≤ e

end MultiModalFeatureSpec

/-- The features whose identifiers a block from `s` to `e` gets, of those not passed yet. -/
def scanItems (s e : ℕ) : List MultiModalFeatureSpec → List MultiModalFeatureSpec
  | [] => []
  | f :: rest =>
    if f.offset < e then
      if f.stop < s then scanItems s e rest
      else if f.stop ≤ e then f :: scanItems s e rest
      else [f]
    else []

def mmKeys (items : List MultiModalFeatureSpec) : List ExtraKey := items.map (.str ·.identifier)

variable {s e : ℕ}

lemma mmExtraHashKeysLoop_eq (hse : s ≤ e) (fs : List MultiModalFeatureSpec) (c : ℕ) :
    mmExtraHashKeysLoop s e fs c = (mmKeys (scanItems s e fs), c + (fs.takeWhile (·.passed e)).length) := by
  induction fs generalizing c with
  | nil => rfl
  | cons f rest ih =>
    have hpos : f.mmPosition.offset + f.mmPosition.length = f.stop := rfl
    have hoff : f.mmPosition.offset = f.offset := rfl
    simp only [mmExtraHashKeysLoop, hpos]
    rw [hoff]
    by_cases h1 : f.offset < e
    · by_cases h2 : f.stop < s
      · have hp : f.passed e = true := by
          simp only [MultiModalFeatureSpec.passed, decide_eq_true_eq]
          omega
        simp only [gt_iff_lt, h1, h2, ite_true, ih, scanItems, takeWhile_cons, hp,
          length_cons, Prod.mk.injEq, true_and]
        omega
      · by_cases h3 : f.stop ≤ e
        · have hp : f.passed e = true := by
            simp only [MultiModalFeatureSpec.passed, decide_eq_true_eq]
            omega
          simp only [gt_iff_lt, h1, h2, h3, ite_true, ite_false, ih, scanItems,
            takeWhile_cons, hp, length_cons, mmKeys, map_cons, Prod.mk.injEq, true_and]
          omega
        · have hp : f.passed e = false := by
            simp only [MultiModalFeatureSpec.passed, decide_eq_false_iff_not]
            omega
          simp [h1, h2, h3, scanItems, hp, mmKeys]
    · have hp : f.passed e = false := by
        simp only [MultiModalFeatureSpec.passed, decide_eq_false_iff_not]
        omega
      simp [h1, scanItems, hp, mmKeys]

/-- The last feature ends before `s`, so that no feature is looked at. -/
def pastFeatures (fs : List MultiModalFeatureSpec) (s : ℕ) : Prop :=
  ∀ last ∈ fs.getLast?, last.stop < s

instance (fs : List MultiModalFeatureSpec) (s : ℕ) : Decidable (pastFeatures fs s) :=
  inferInstanceAs (Decidable (∀ last ∈ fs.getLast?, last.stop < s))

lemma pastFeatures.mono {fs : List MultiModalFeatureSpec} {t : ℕ} (h : pastFeatures fs s)
    (hst : s ≤ t) : pastFeatures fs t := fun last hl => (h last hl).trans_le hst

variable {r : Request} {c : ℤ}

lemma genMmExtraHashKeys_of_past (h : pastFeatures r.mmFeatures s) (e : ℕ)
    (c : ℤ) : genMmExtraHashKeys r s e c = ([], c) := by
  unfold genMmExtraHashKeys
  cases hl : r.mmFeatures.getLast? with
  | none => rfl
  | some last =>
    have hlt : last.mmPosition.offset + last.mmPosition.length < s := h last hl
    simp only [hlt, ite_true]

lemma genMmExtraHashKeys_of_not_past (hse : s ≤ e) (h : ¬pastFeatures r.mmFeatures s) (c : ℤ) :
    genMmExtraHashKeys r s e c = (mmKeys (scanItems s e (r.mmFeatures.drop
        (if c < 0 then r.mmFeatures.length + c else c).toNat)),
        (((if c < 0 then r.mmFeatures.length + c else c).toNat + ((r.mmFeatures.drop
          (if c < 0 then r.mmFeatures.length + c else c).toNat).takeWhile (·.passed e)).length : ℕ) : ℤ)) := by
  unfold genMmExtraHashKeys
  cases hl : r.mmFeatures.getLast? with
  | none => exact absurd (fun last hlast => by rw [hl] at hlast; cases hlast) h
  | some last =>
    have hlt : ¬last.mmPosition.offset + last.mmPosition.length < s := by
      intro hlt
      apply h
      intro last' hl'
      rw [hl, Option.mem_some_iff] at hl'
      exact hl' ▸ hlt
    simp only [hlt, ite_false, mmExtraHashKeysLoop_eq hse]

def freshMmItems (fs : List MultiModalFeatureSpec) (s e : ℕ) : List MultiModalFeatureSpec :=
  if pastFeatures fs s then [] else scanItems s e (fs.dropWhile (·.passed s))

/-- The features named in a block by a scan resumed at `s₀`, which starts from the last one. -/
def resumedMmItems (fs : List MultiModalFeatureSpec) (s₀ s e : ℕ) : List MultiModalFeatureSpec :=
  if pastFeatures fs s then []
  else scanItems s e (if s = s₀ then fs.drop (fs.length - 1)
    else (fs.drop (fs.length - 1)).dropWhile (·.passed s))

variable {α : Type} {j k n : ℕ} (p : α → Bool) (items : ℕ → List MultiModalFeatureSpec)

lemma length_takeWhile_add (q : α → Bool) (h : ∀ x, p x = true → q x = true) (l : List α) :
    (l.takeWhile p).length + ((l.dropWhile p).takeWhile q).length = (l.takeWhile q).length := by
  induction l with
  | nil => rfl
  | cons x rest ih =>
    by_cases hp : p x = true
    · simp only [takeWhile_cons, dropWhile_cons, hp, h x hp, ite_true, length_cons]
      omega
    · simp [hp]

lemma drop_length_takeWhile (l : List α) : l.drop (l.takeWhile p).length = l.dropWhile p := by
  induction l with
  | nil => rfl
  | cons x rest ih =>
    by_cases hp : p x = true
    · simpa [hp] using ih
    · simp [hp]

lemma passed_mono (hse : s ≤ e) (f : MultiModalFeatureSpec) (h : f.passed s = true) : f.passed e = true := by
  simp only [MultiModalFeatureSpec.passed, decide_eq_true_eq] at h ⊢
  omega

/-- The index a scan from the first block on has reached at `s`. -/
def FreshIdx (fs : List MultiModalFeatureSpec) (s : ℕ) (c : ℤ) : Prop :=
  pastFeatures fs s ∨ c = (fs.takeWhile (·.passed s)).length

/-- The index a scan resumed at `s₀` has reached at `s`. -/
def ResumedIdx (fs : List MultiModalFeatureSpec) (s₀ s : ℕ) (c : ℤ) : Prop :=
  pastFeatures fs s ∨ (s = s₀ ∧ c = -1) ∨ (s ≠ s₀ ∧ c = ((fs.length - 1 +
    ((fs.drop (fs.length - 1)).takeWhile (·.passed s)).length : ℕ) : ℤ))

lemma freshIdx_zero (fs : List MultiModalFeatureSpec) : FreshIdx fs 0 0 := by
  right
  cases fs with
  | nil => rfl
  | cons f rest => simp [MultiModalFeatureSpec.passed]

lemma genMmExtraHashKeys_fresh (hse : s ≤ e) (hc : FreshIdx r.mmFeatures s c) :
    (genMmExtraHashKeys r s e c).1 = mmKeys (freshMmItems r.mmFeatures s e) ∧
      FreshIdx r.mmFeatures e (genMmExtraHashKeys r s e c).2 := by
  by_cases hp : pastFeatures r.mmFeatures s
  · rw [genMmExtraHashKeys_of_past hp]
    exact ⟨by simp [freshMmItems, hp, mmKeys], .inl (hp.mono hse)⟩
  · obtain rfl := hc.resolve_left hp
    rw [genMmExtraHashKeys_of_not_past hse hp]
    have hneg : ¬(((r.mmFeatures.takeWhile (·.passed s)).length : ℤ) < 0) := by omega
    simp only [hneg, ite_false, Int.toNat_natCast, drop_length_takeWhile, freshMmItems, hp]
    refine ⟨trivial, .inr ?_⟩
    rw [length_takeWhile_add _ _ (fun f => passed_mono hse f)]

lemma genMmExtraHashKeys_resumed {s₀ : ℕ} (hse : s < e) (hs0 : s₀ ≤ s) (hc : ResumedIdx r.mmFeatures s₀ s c) :
    (genMmExtraHashKeys r s e c).1 = mmKeys (resumedMmItems r.mmFeatures s₀ s e) ∧
      ResumedIdx r.mmFeatures s₀ e (genMmExtraHashKeys r s e c).2 := by
  by_cases hp : pastFeatures r.mmFeatures s
  · rw [genMmExtraHashKeys_of_past hp]
    exact ⟨by simp [resumedMmItems, hp, mmKeys], .inl (hp.mono hse.le)⟩
  · have hes : e ≠ s₀ := by omega
    rw [genMmExtraHashKeys_of_not_past hse.le hp]
    rcases hc.resolve_left hp with ⟨rfl, rfl⟩ | ⟨hss, rfl⟩
    · have hidx : ((r.mmFeatures.length : ℤ) + -1).toNat = r.mmFeatures.length - 1 := by omega
      simp only [show ((-1 : ℤ) < 0) from by decide, ite_true, hidx, resumedMmItems, hp, ite_false]
      exact ⟨trivial, .inr (.inr ⟨hes, rfl⟩)⟩
    · set c := r.mmFeatures.length - 1 +
        ((r.mmFeatures.drop (r.mmFeatures.length - 1)).takeWhile (·.passed s)).length
      have hneg : ¬((c : ℤ) < 0) := by omega
      have hdrop : r.mmFeatures.drop c = (r.mmFeatures.drop (r.mmFeatures.length - 1)).dropWhile (·.passed s) := by
        rw [← drop_length_takeWhile, drop_drop]
      simp only [hneg, ite_false, Int.toNat_natCast, hdrop, resumedMmItems, hp, hss]
      refine ⟨trivial, .inr (.inr ⟨hes, ?_⟩)⟩
      have hadd := length_takeWhile_add (·.passed s) (·.passed e) (passed_mono hse.le)
        (r.mmFeatures.drop (r.mmFeatures.length - 1))
      omega

/-- The tokens of the `j`-th block. -/
def blockTokens (blockSize : ℕ) (tokens : List TokenId) (j : ℕ) : List TokenId :=
  (tokens.take (j * blockSize + blockSize)).drop (j * blockSize)

def flatKeys (r : Request) (s e : ℕ) (mm : List ExtraKey) : List ExtraKey :=
  genLoraExtraHashKeys r ++ mm ++ genCacheSaltKeys r s ++ genPromptEmbedsExtraHashKeys r s e

/-- `tuple(extra_keys)`, or `None` if there are none. -/
def extraKeysTuple (keys : List ExtraKey) : Option (List ExtraKey) :=
  if keys = [] then none else some keys

lemma extraKeysTuple_inj {keys keys' : List ExtraKey} :
    extraKeysTuple keys = extraKeysTuple keys' ↔ keys = keys' := by
  unfold extraKeysTuple
  constructor
  · intro h
    split at h <;> split at h <;> simp_all
  · rintro rfl
    rfl

/-- What is hashed for the `j`-th block when `items` are the features it names. -/
def blockInput (blockSize : ℕ) (r : Request) (items : ℕ → List MultiModalFeatureSpec) (j : ℕ) :
    List TokenId × Option (List ExtraKey) :=
  (blockTokens blockSize r.allTokenIds j, extraKeysTuple (flatKeys r (j * blockSize)
    (j * blockSize + blockSize) (mmKeys (items j))))

def blockInputs (blockSize : ℕ) (r : Request) (items : ℕ → List MultiModalFeatureSpec) :
    List (List TokenId × Option (List ExtraKey)) :=
  (List.range (r.numTokens / blockSize)).map (blockInput blockSize r items)

lemma add_le_iff_lt_div {bs : ℕ} (hbs : 0 < bs) : j * bs + bs ≤ n ↔ j < n / bs := by
  rw [Nat.lt_iff_add_one_le, Nat.le_div_iff_mul_le hbs, Nat.add_mul, Nat.one_mul]

variable {H : CachingHashFn} {blockSize : ℕ} {r : Request}

section

variable (hbs : 0 < blockSize)
include hbs

lemma requestBlockHasherLoop_eq (Inv : ℕ → ℤ → Prop)
    (items : ℕ → List MultiModalFeatureSpec) (hinv : ∀ j c, Inv j c →
      (genMmExtraHashKeys r (j * blockSize) (j * blockSize + blockSize) c).1 = mmKeys (items j) ∧
      Inv (j + 1) (genMmExtraHashKeys r (j * blockSize) (j * blockSize + blockSize) c).2)
    (fuel j : ℕ) (c : ℤ) (prev : Option BlockHash) (hc : Inv j c) (hfuel : r.numTokens / blockSize ≤ j + fuel) :
    requestBlockHasherLoop blockSize H r fuel (j * blockSize) c prev =
      chain (blockStep H) (prev.getD []) ((blockInputs blockSize r items).drop j) := by
  induction fuel generalizing j c prev with
  | zero =>
    have hdrop : (blockInputs blockSize r items).drop j = [] := by
      apply drop_eq_nil_of_le
      simp only [blockInputs, length_map, length_range]
      omega
    simp [requestBlockHasherLoop, hdrop, chain]
  | succ fuel ih =>
    by_cases hj : j < r.numTokens / blockSize
    · have hle : ¬j * blockSize + blockSize > r.numTokens := by
        have := (add_le_iff_lt_div hbs).mpr hj
        omega
      obtain ⟨hkeys, hnext⟩ := hinv j c hc
      have hsucc : j * blockSize + blockSize = (j + 1) * blockSize := by ring_nf
      have hcons : (blockInputs blockSize r items).drop j =
          blockInput blockSize r items j :: (blockInputs blockSize r items).drop (j + 1) := by
        unfold blockInputs
        rw [← map_drop, drop_eq_getElem_cons (by simpa using hj), getElem_range, map_cons, map_drop]
      have hgen : generateBlockHashExtraKeys r (j * blockSize) (j * blockSize + blockSize) c =
          ((blockInput blockSize r items j).2,
            (genMmExtraHashKeys r (j * blockSize) (j * blockSize + blockSize) c).2) := by
        simp only [generateBlockHashExtraKeys, hkeys, blockInput, extraKeysTuple, flatKeys]
        rfl
      simp only [requestBlockHasherLoop, hle, ite_false, hgen]
      rw [hcons, hashBlockTokens_eq]
      have hrest := ih (j + 1) _ (some (blockStep H (prev.getD []) (blockInput blockSize r items j)))
        hnext (by omega)
      rw [← hsucc] at hrest
      exact congrArg _ hrest
    · have hgt : j * blockSize + blockSize > r.numTokens := by
        by_contra hle
        exact hj ((add_le_iff_lt_div hbs).mp (by omega))
      have hdrop : (blockInputs blockSize r items).drop j = [] := by
        apply drop_eq_nil_of_le
        simp only [blockInputs, length_map, length_range]
        omega
      simp [requestBlockHasherLoop, hgt, hdrop, chain]

lemma getRequestBlockHasher_eq_loop :
    getRequestBlockHasher blockSize H r = requestBlockHasherLoop blockSize H r (r.numTokens + 1)
      (r.blockHashes.length * blockSize) (if r.blockHashes.length = 0 then 0 else -1) r.blockHashes.getLast? := by
  unfold getRequestBlockHasher
  have hzero : r.blockHashes.length * blockSize > 0 ↔ ¬r.blockHashes.length = 0 := by
    rw [gt_iff_lt, Nat.mul_pos_iff_of_pos_right hbs, Nat.pos_iff_ne_zero]
  by_cases hgt : r.blockHashes.length * blockSize + blockSize > r.numTokens
  · simp [hgt, requestBlockHasherLoop]
  · by_cases h0 : r.blockHashes.length = 0
    · have hnot : ¬r.blockHashes.length * blockSize > 0 := fun h => hzero.mp h h0
      rw [if_neg hgt, if_neg hnot, if_pos h0]
    · simp only [hgt, ite_false, hzero.mpr h0, h0, ite_true]

lemma getRequestBlockHasher_fresh (hnil : r.blockHashes = []) :
    getRequestBlockHasher blockSize H r = chain (blockStep H) [] (blockInputs blockSize r
      (fun j => freshMmItems r.mmFeatures (j * blockSize) (j * blockSize + blockSize))) := by
  rw [getRequestBlockHasher_eq_loop hbs, hnil]
  have hloop := requestBlockHasherLoop_eq (H := H) hbs
    (fun j c => FreshIdx r.mmFeatures (j * blockSize) c)
    (fun j => freshMmItems r.mmFeatures (j * blockSize) (j * blockSize + blockSize))
    (fun j c hc => by
      have h := genMmExtraHashKeys_fresh (Nat.le_add_right (j * blockSize) blockSize) hc
      rwa [show (j + 1) * blockSize = j * blockSize + blockSize by ring_nf])
    (r.numTokens + 1) 0 0 none (by simpa using freshIdx_zero r.mmFeatures)
    (by have := Nat.div_le_self r.numTokens blockSize; omega)
  simpa using hloop

lemma getRequestBlockHasher_resumed (hne : r.blockHashes ≠ []) :
    getRequestBlockHasher blockSize H r = chain (blockStep H) (r.blockHashes.getLast?.getD [])
      ((blockInputs blockSize r (fun j => resumedMmItems r.mmFeatures
        (r.blockHashes.length * blockSize) (j * blockSize) (j * blockSize + blockSize))).drop
          r.blockHashes.length) := by
  have hlen : ¬r.blockHashes.length = 0 := by simpa using hne
  rw [getRequestBlockHasher_eq_loop hbs, if_neg hlen]
  exact requestBlockHasherLoop_eq (H := H) hbs
    (fun j c => r.blockHashes.length ≤ j ∧
      ResumedIdx r.mmFeatures (r.blockHashes.length * blockSize) (j * blockSize) c)
    (fun j => resumedMmItems r.mmFeatures (r.blockHashes.length * blockSize) (j * blockSize)
      (j * blockSize + blockSize))
    (fun j c hc => by
      have h := genMmExtraHashKeys_resumed (e := j * blockSize + blockSize) (by omega)
        (Nat.mul_le_mul_right blockSize hc.1) hc.2
      rw [show (j + 1) * blockSize = j * blockSize + blockSize by ring_nf]
      exact ⟨h.1, by omega, h.2⟩)
    (r.numTokens + 1) r.blockHashes.length (-1) r.blockHashes.getLast?
    ⟨le_rfl, .inr (.inl ⟨rfl, rfl⟩)⟩
    (by have := Nat.div_le_self r.numTokens blockSize; omega)

end

/-- The features a scan names in the `j`-th block if the first `k` blocks have hashes already. -/
def scannedMmItems (blockSize : ℕ) (fs : List MultiModalFeatureSpec) (k j : ℕ) :
    List MultiModalFeatureSpec :=
  if k = 0 then freshMmItems fs (j * blockSize) (j * blockSize + blockSize)
  else resumedMmItems fs (k * blockSize) (j * blockSize) (j * blockSize + blockSize)

lemma length_blockInputs : (blockInputs blockSize r items).length = r.numTokens / blockSize := by
  simp [blockInputs]

lemma take_blockInputs_congr (r' : Request) (items' : ℕ → List MultiModalFeatureSpec)
    {items : ℕ → List MultiModalFeatureSpec} (hk : k ≤ r.numTokens / blockSize) (hk' : k ≤ r'.numTokens / blockSize)
    (h : ∀ j < k, blockInput blockSize r items j = blockInput blockSize r' items' j) :
    (blockInputs blockSize r items).take k = (blockInputs blockSize r' items').take k := by
  unfold blockInputs
  rw [← map_take, ← map_take, take_range, take_range, min_eq_left hk, min_eq_left hk']
  apply map_congr_left
  intro j hj
  exact h j (mem_range.mp hj)

lemma drop_blockInputs_congr {items items' : ℕ → List MultiModalFeatureSpec}
    (h : ∀ j, k ≤ j → j < r.numTokens / blockSize → items j = items' j) :
    (blockInputs blockSize r items).drop k = (blockInputs blockSize r items').drop k := by
  apply ext_getElem?
  intro i
  simp only [blockInputs, List.getElem?_drop, List.getElem?_map]
  cases hget : (List.range (r.numTokens / blockSize))[k + i]? with
  | none => rfl
  | some j =>
    obtain ⟨hlt, hval⟩ := List.getElem?_eq_some_iff.mp hget
    rw [getElem_range] at hval
    rw [length_range] at hlt
    subst hval
    simp only [Option.map_some, blockInput, h (k + i) (Nat.le_add_right k i) hlt]

lemma hashes_extend (H : CachingHashFn) (r : Request)
    (items : ℕ → List MultiModalFeatureSpec) (hbs : 0 < blockSize) (h : r.blockHashes = chain (blockStep H) []
      ((blockInputs blockSize r items).take r.blockHashes.length))
    (hnew : ∀ j, r.blockHashes.length ≤ j → j < r.numTokens / blockSize →
      items j = scannedMmItems blockSize r.mmFeatures r.blockHashes.length j) :
    r.blockHashes ++ getRequestBlockHasher blockSize H r =
      chain (blockStep H) [] (blockInputs blockSize r items) := by
  have hscan : getRequestBlockHasher blockSize H r = chain (blockStep H)
      (r.blockHashes.getLast?.getD [])
      ((blockInputs blockSize r items).drop r.blockHashes.length) := by
    rw [drop_blockInputs_congr hnew]
    by_cases hnil : r.blockHashes = []
    · rw [getRequestBlockHasher_fresh hbs hnil, hnil]
      rfl
    · have hlen : ¬r.blockHashes.length = 0 := by simpa using hnil
      have hitems : scannedMmItems blockSize r.mmFeatures r.blockHashes.length =
          fun j => resumedMmItems r.mmFeatures (r.blockHashes.length * blockSize) (j * blockSize)
            (j * blockSize + blockSize) := by
        funext j
        simp only [scannedMmItems, hlen, ite_false]
      rw [getRequestBlockHasher_resumed hbs hnil, hitems]
  conv_rhs => rw [← take_append_drop r.blockHashes.length (blockInputs blockSize r items), chain_append, ← h]
  rw [hscan]

end CustomAi.Vllm
