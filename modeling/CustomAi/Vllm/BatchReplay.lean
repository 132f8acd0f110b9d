import CustomAi.Lib.Slots
import CustomAi.Vllm.BatchUpdate

/-!
# Replaying a batch update

A processor replays an update in the order added, removed, moved.
-/

namespace CustomAi.Vllm

open List Function Option Slots MinPLogitsProcessor Dict

variable {F T : Type} {α : Type}

def BatchMove.apply (moved : BatchMove) (d : ℕ → Option α) : ℕ → Option α :=
  match moved.direct with
  | .unidirectional => Slots.move moved.aIndex moved.bIndex d
  | .swap => Slots.swap moved.aIndex moved.bIndex d

def applyMoves (moved : List BatchMove) (d : ℕ → Option α) : ℕ → Option α :=
  moved.foldl (fun d m => m.apply d) d

def applyAdds (value : BatchAdd F → Option α) (added : List (BatchAdd F)) (d : ℕ → Option α) :
    ℕ → Option α :=
  added.foldl (fun d a => Function.update d a.index (value a)) d

def replay (value : BatchAdd F → Option α) (removed : List ℕ) (added : List (BatchAdd F))
    (moved : List BatchMove) (d : ℕ → Option α) : ℕ → Option α :=
  applyMoves moved (Slots.clear removed (applyAdds value added d))

variable {removed : List ℕ}

lemma BatchMove.apply_clear (moved : BatchMove) (d : ℕ → Option α)
    (ha : moved.aIndex ∉ removed) (hb : moved.bIndex ∉ removed) :
    moved.apply (clear removed d) = clear removed (moved.apply d) := by
  funext i
  unfold BatchMove.apply
  cases moved.direct with
  | unidirectional =>
    unfold clear
    simp only [move_apply]
    by_cases hib : i = moved.bIndex
    · simp [hib, ha, hb]
    · rw [if_neg hib, if_neg hib]
      by_cases hia : i = moved.aIndex
      · simp [hia]
      · simp [hia]
  | swap =>
    unfold clear
    simp only [swap_apply]
    by_cases hib : i = moved.bIndex
    · simp [hib, ha, hb]
    · by_cases hia : i = moved.aIndex
      · simp [hia, ha, hb]
      · simp [hib, hia]

variable {moved : List BatchMove} {β : Type}

lemma applyMoves_clear (h : ∀ m ∈ moved, m.aIndex ∉ removed ∧ m.bIndex ∉ removed) (d : ℕ → Option α) :
    applyMoves moved (clear removed d) = clear removed (applyMoves moved d) := by
  unfold applyMoves
  induction moved generalizing d with
  | nil => rfl
  | cons m rest ih =>
    obtain ⟨ha, hb⟩ := h m mem_cons_self
    rw [foldl_cons, m.apply_clear d ha hb]
    exact ih (fun m' hm' => h m' (mem_cons_of_mem m hm')) _

lemma applyMoves_none (moved : List BatchMove) : applyMoves moved (fun _ => (none : Option α)) = fun _ => none := by
  unfold applyMoves
  induction moved with
  | nil => rfl
  | cons m rest ih =>
    have hnone : m.apply (fun _ => (none : Option α)) = fun _ => none := by
      funext i
      unfold BatchMove.apply
      cases m.direct with
      | unidirectional =>
        dsimp only
        rw [move_apply]
        split
        · rfl
        · exact ite_self _
      | swap => rfl
    rw [foldl_cons, hnone, ih]

lemma applyMoves_append (moved : List BatchMove) (m : BatchMove) (d : ℕ → Option α) :
    applyMoves (moved ++ [m]) d = m.apply (applyMoves moved d) := foldl_concat _ _ _ _

lemma applyAdds_append (value : BatchAdd F → Option α) (added : List (BatchAdd F))
    (a : BatchAdd F) (d : ℕ → Option α) : applyAdds value (added ++ [a]) d =
      update (applyAdds value added d) a.index (value a) := foldl_concat _ _ _ _

lemma BatchMove.apply_bind (moved : BatchMove) (d : ℕ → Option α) (f : α → Option β) :
    moved.apply (fun i => (d i).bind f) = fun i => (moved.apply d i).bind f := by
  funext i
  unfold BatchMove.apply
  cases moved.direct with
  | unidirectional =>
    dsimp only
    rw [move_apply, move_apply]
    split
    · rfl
    · split
      · rfl
      · rfl
  | swap => rfl

lemma applyMoves_bind (moved : List BatchMove) (d : ℕ → Option α) (f : α → Option β) :
    applyMoves moved (fun i => (d i).bind f) = fun i => (applyMoves moved d i).bind f := by
  unfold applyMoves
  induction moved generalizing d with
  | nil => rfl
  | cons m rest ih =>
    rw [foldl_cons, m.apply_bind d f]
    exact ih _

lemma applyAdds_bind (value : BatchAdd F → Option α) (added : List (BatchAdd F))
    (d : ℕ → Option α) (f : α → Option β) : applyAdds (fun a => (value a).bind f) added (fun i => (d i).bind f) =
      fun i => (applyAdds value added d i).bind f := by
  unfold applyAdds
  induction added generalizing d with
  | nil => rfl
  | cons a rest ih =>
    have hone : update (fun i => (d i).bind f) a.index ((value a).bind f) =
        fun i => (update d a.index (value a) i).bind f := by
      funext i
      rw [update_apply, update_apply]
      split
      · rfl
      · rfl
    rw [foldl_cons, hone]
    exact ih _

lemma replay_nil (value : BatchAdd F → Option α) (d : ℕ → Option α) : replay value [] [] [] d = d := by
  funext i
  change (if i ∈ [] then none else d i) = d i
  exact if_neg not_mem_nil

/-- If the events lead to what is in the slots, a replay gives the right values. -/
lemma replay_eq {σ β : Type} {slots : ℕ → Option σ} {content : σ → Option α}
    {value : BatchAdd F → Option α} {added : List (BatchAdd F)} {d : ℕ → Option α}
    (htracks : Slots.Tracks (applyMoves moved (applyAdds value added d)) slots content removed)
    (hempty : ∀ i ∈ removed, slots i = none)
    (hmoved : ∀ m ∈ moved, m.aIndex ∉ removed ∧ m.bIndex ∉ removed) (f : α → Option β) :
    replay (fun a => (value a).bind f) removed added moved (fun i => (d i).bind f) =
      fun i => ((slots i).bind content).bind f := by
  unfold replay
  rw [applyMoves_clear hmoved, applyAdds_bind, applyMoves_bind]
  funext i
  unfold clear
  split
  · next hi => rw [hempty i hi, bind_none, bind_none]
  · next hi =>
    dsimp only
    rw [htracks i hi]

variable {newState : BatchSamplingParams F → Option (List TokenId) → List TokenId → Option T}
  {truthy : T → Bool}

def BatchAdd.state
    (newState : BatchSamplingParams F → Option (List TokenId) → List TokenId → Option T)
    (added : BatchAdd F) : Option T :=
  newState added.params added.promptTokIds added.outputTokIds

variable (newState) in
lemma addEntry_get? (entries : Dict ℕ T) (added : BatchAdd F) : (addEntry newState entries added).1.get? =
      update entries.get? added.index (added.state newState) := by
  funext i
  unfold addEntry BatchAdd.state
  rw [update_apply]
  cases newState added.params added.promptTokIds added.outputTokIds with
  | none => exact get?_erase _ _ _
  | some state => exact get?_set _ _ _ _

variable (newState) in
lemma addEntries_get? (added : List (BatchAdd F)) (entries : Dict ℕ T) :
    (addEntries newState added entries).1.get? = applyAdds (BatchAdd.state newState) added entries.get? := by
  unfold applyAdds
  induction added generalizing entries with
  | nil => rfl
  | cons a rest ih =>
    rw [foldl_cons, ← addEntry_get? newState]
    exact ih _

lemma removeEntries_get? (removed : List ℕ) (entries : Dict ℕ T) :
    (removeEntries truthy removed entries).1.get? = clear removed entries.get? := by
  induction removed generalizing entries with
  | nil =>
    funext i
    simp [removeEntries, clear]
  | cons index rest ih =>
    funext i
    have hrest := congrFun (ih (entries.erase index)) i
    unfold clear at hrest ⊢
    change (removeEntries truthy rest (entries.erase index)).1.get? i = _
    rw [hrest, get?_erase]
    by_cases hi : i = index
    · simp [hi]
    · simp [hi]

lemma moveEntry_get? (entries : Dict ℕ T) (moved : BatchMove) :
    (moveEntry entries moved).1.get? = moved.apply entries.get? := by
  funext i
  unfold moveEntry BatchMove.apply
  cases hdirect : moved.direct with
  | unidirectional =>
    dsimp only
    rw [move_apply, if_neg (by decide)]
    cases ha : entries.get? moved.aIndex with
    | none =>
      rw [elim_none, get?_erase, get?_erase]
    | some entry =>
      rw [elim_some, get?_set, get?_erase, get?_erase]
      by_cases hb : i = moved.bIndex
      · rw [if_pos hb, if_pos hb]
      · rw [if_neg hb, if_neg hb, if_neg hb]
  | swap =>
    dsimp only
    rw [swap_apply, if_pos rfl, get?_erase]
    by_cases hab : moved.bIndex = moved.aIndex
    · rw [if_pos hab, elim_none, hab]
      cases ha : entries.get? moved.aIndex with
      | none =>
        rw [elim_none, get?_erase, get?_erase]
      | some entry =>
        rw [elim_some, get?_set, get?_erase, get?_erase]
        by_cases hi : i = moved.aIndex
        · rw [if_pos hi, if_pos hi]
        · rw [if_neg hi, if_neg hi, if_neg hi, if_neg hi, if_neg hi]
    · rw [if_neg hab]
      cases ha : entries.get? moved.aIndex with
      | none =>
        rw [elim_none]
        cases hb : entries.get? moved.bIndex with
        | none =>
          rw [elim_none, get?_erase, get?_erase]
        | some entry =>
          rw [elim_some, get?_set, get?_erase, get?_erase]
          by_cases hi : i = moved.aIndex
          · have hib : i ≠ moved.bIndex := fun h => hab (h ▸ hi)
            rw [if_pos hi, if_neg hib, if_pos hi]
          · rw [if_neg hi, if_neg hi, if_neg hi]
      | some entry =>
        rw [elim_some]
        cases hb : entries.get? moved.bIndex with
        | none =>
          rw [elim_none, get?_set, get?_erase, get?_erase]
          by_cases hi : i = moved.bIndex
          · rw [if_pos hi, if_pos hi]
          · rw [if_neg hi, if_neg hi, if_neg hi]
        | some entry' =>
          rw [elim_some, get?_set, get?_set, get?_erase, get?_erase]
          by_cases hi : i = moved.aIndex
          · have hib : i ≠ moved.bIndex := fun h => hab (h ▸ hi)
            rw [if_pos hi, if_neg hib, if_pos hi]
          · rw [if_neg hi]
            by_cases hib : i = moved.bIndex
            · rw [if_pos hib, if_pos hib]
            · rw [if_neg hib, if_neg hib, if_neg hib, if_neg hi, if_neg hi]

lemma moveEntries_get? (moved : List BatchMove) (entries : Dict ℕ T) :
    (moveEntries moved entries).1.get? = applyMoves moved entries.get? := by
  unfold applyMoves
  induction moved generalizing entries with
  | nil => rfl
  | cons m rest ih =>
    rw [foldl_cons, ← moveEntry_get?]
    exact ih _

lemma get?_eq_none_of_size_eq_zero {entries : Dict ℕ T} (h : entries.size = 0) : entries.get? = fun _ => none := by
  unfold get?
  rw [length_eq_zero_iff.mp h]
  rfl

lemma processDictUpdates_get? (entries : Dict ℕ T) (batchUpdate : BatchUpdate F) :
    (processDictUpdates newState truthy entries (some batchUpdate)).1.get? =
      replay (BatchAdd.state newState) batchUpdate.removed batchUpdate.added batchUpdate.moved entries.get? := by
  unfold processDictUpdates replay
  dsimp only
  have hadded := addEntries_get? newState batchUpdate.added entries
  split
  · next hzero =>
    -- nothing is left to remove or move
    have hnone := get?_eq_none_of_size_eq_zero hzero
    rw [← hadded, hnone]
    rw [clear_none, applyMoves_none]
  · rw [moveEntries_get?, removeEntries_get?, hadded]

namespace MinPLogitsProcessor

variable [Zero F] [DecidableEq F] {f32 : Float32 F} {n : ℕ} {m : MinPLogitsProcessor F}

def entry (minP : F) : Option F := if minP = 0 then none else some minP

lemma entry_isSome (minP : F) : (entry minP).isSome = true ↔ minP ≠ 0 := by
  unfold entry
  split
  · next h => simp [h]
  · next h => simp [h]

lemma entry_inj {x y : F} (h : entry x = entry y) : x = y := by
  unfold entry at h
  by_cases hx : x = 0
  · by_cases hy : y = 0
    · rw [hx, hy]
    · rw [if_pos hx, if_neg hy] at h
      cases h
  · by_cases hy : y = 0
    · rw [if_neg hx, if_pos hy] at h
      cases h
    · rw [if_neg hx, if_neg hy] at h
      exact some.inj h

def sparse (m : MinPLogitsProcessor F) : ℕ → Option F := fun i => entry (m.minPCpu i)

variable {i : ℕ} {a b : ℕ}

lemma sparse_eq_none_iff : m.sparse i = none ↔ m.minPCpu i = 0 := by
  unfold sparse entry
  split
  · next h => exact iff_of_true rfl h
  · next h => exact iff_of_false (some_ne_none _) h

/-- The entries are all below `n`, and the count is right. -/
structure Counted (n : ℕ) (m : MinPLogitsProcessor F) : Prop where
  zero : ∀ i, n ≤ i → m.minPCpu i = 0
  count : m.minPCount = Slots.filled n m.sparse

lemma sparse_update (minPCpu : ℕ → F) (i : ℕ) (x : F) (minPCount : ℤ) :
    sparse ⟨update minPCpu i x, minPCount⟩ = update (fun j => entry (minPCpu j)) i (entry x) := by
  funext j
  unfold sparse
  dsimp only
  rw [update_apply, update_apply]
  split <;> rfl

lemma Counted.write (h : Counted n m) (hi : i < n) (x : F) {minPCount : ℤ}
    (hcount : minPCount = m.minPCount + (if x ≠ 0 then 1 else 0) - (if m.minPCpu i ≠ 0 then 1 else 0)) :
    Counted n ⟨update m.minPCpu i x, minPCount⟩ := by
  refine ⟨fun j hj => ?_, ?_⟩
  · have hji : j ≠ i := by omega
    exact (update_of_ne hji _ _).trans (h.zero j hj)
  · rw [sparse_update, filled_update _ hi]
    rw [hcount, h.count]
    simp only [entry_isSome]
    rfl

lemma Counted.add (h : Counted n m) {added : BatchAdd F} (hi : added.index < n)
    (hround : f32.round added.params.minP = 0 → added.params.minP = 0) :
    Counted n (m.add f32 added) ∧ (m.add f32 added).sparse =
      update m.sparse added.index (entry (f32.round added.params.minP)) := by
  have hzero : added.params.minP = 0 ↔ f32.round added.params.minP = 0 := by
    constructor
    · intro h0
      rw [h0]
      exact f32.round_zero
    · exact hround
  unfold MinPLogitsProcessor.add
  dsimp only
  split
  · refine ⟨h.write hi _ ?_, sparse_update _ _ _ _⟩
    simp only [ne_eq, hzero]
    by_cases hnew : f32.round added.params.minP = 0
    · by_cases hold : m.minPCpu added.index = 0
      · simp [hnew, hold]
      · simp [hnew, hold]
    · by_cases hold : m.minPCpu added.index = 0
      · simp [hnew, hold]
      · simp [hnew, hold]
  · next heq =>
    refine ⟨h, ?_⟩
    rw [← not_ne_iff.mp heq]
    exact (update_eq_self added.index m.sparse).symm

lemma Counted.remove (h : Counted n m) (hi : i < n) :
    Counted n (m.remove i) ∧ (m.remove i).sparse = update m.sparse i none := by
  have hentry : entry (0 : F) = none := if_pos rfl
  unfold MinPLogitsProcessor.remove
  split
  · next hne =>
    refine ⟨h.write hi 0 ?_, ?_⟩
    · simp [hne]
    · rw [sparse_update, hentry]
      rfl
  · next heq =>
    refine ⟨h, ?_⟩
    have hnone : m.sparse i = none := by
      unfold sparse
      rw [not_ne_iff.mp heq, hentry]
    rw [← hnone, update_eq_self]

lemma Counted.of_sparse (h : Counted n m) {m' : MinPLogitsProcessor F}
    (hzero : ∀ i, n ≤ i → m'.minPCpu i = 0) (hcount : m'.minPCount =
      m.minPCount + filled n m'.sparse - filled n m.sparse) : Counted n m' := by
  refine ⟨hzero, ?_⟩
  rw [hcount, h.count]
  omega

lemma sparse_comp_swap (minPCpu : ℕ → F) (a b : ℕ) (minPCount : ℤ) :
    sparse ⟨swap a b minPCpu, minPCount⟩ = swap a b fun i => entry (minPCpu i) := rfl

lemma Counted.swap (h : Counted n m) (ha : a < n) (hb : b < n) : Counted n (m.move ⟨a, b, .swap⟩) ∧
      (m.move ⟨a, b, .swap⟩).sparse = Slots.swap a b m.sparse := by
  have hcpu : m.move ⟨a, b, .swap⟩ = ⟨Slots.swap a b m.minPCpu, m.minPCount⟩ := by
    unfold move
    dsimp only
    rw [if_neg (by decide)]
    split
    · rw [if_pos rfl]
      congr 1
      rw [← Slots.update_update_eq_swap]
      by_cases hab : a = b
      · rw [hab]
      · exact update_comm (Ne.symm hab) _ _ _
    · next heq =>
      have hsame : Slots.swap a b m.minPCpu = m.minPCpu := by
        funext i
        rw [Slots.swap_apply]
        split
        · next hi => rw [hi, not_ne_iff.mp heq]
        · split
          · next hi => rw [hi, not_ne_iff.mp heq]
          · rfl
      rw [hsame]
  rw [hcpu]
  refine ⟨h.of_sparse (fun i hi => ?_) ?_, rfl⟩
  · change Slots.swap a b m.minPCpu i = 0
    rw [Slots.swap_apply, if_neg (by omega), if_neg (by omega)]
    exact h.zero i hi
  · rw [sparse_comp_swap, Slots.filled_swap _ ha hb]
    change m.minPCount = m.minPCount + (Slots.filled n m.sparse : ℤ) - _
    omega

lemma move_unidirectional (m : MinPLogitsProcessor F) (hab : a ≠ b) :
    m.move ⟨a, b, .unidirectional⟩ = ⟨update (update m.minPCpu b (m.minPCpu a)) a 0,
        if m.minPCpu b ≠ 0 then m.minPCount - 1 else m.minPCount⟩ := by
  have hwrite : (if m.minPCpu a ≠ m.minPCpu b then
      ({ m with minPCpu := update m.minPCpu b (m.minPCpu a) } : MinPLogitsProcessor F)
      else m) = { m with minPCpu := update m.minPCpu b (m.minPCpu a) } := by
    split
    · rfl
    · next heq =>
      rw [not_ne_iff.mp heq, update_eq_self]
  unfold move
  simp only [reduceCtorEq, ite_false, ite_true, hwrite]
  split
  · rfl
  · next hzero =>
    have hself := update_eq_self a (update m.minPCpu b (m.minPCpu a))
    rw [update_of_ne hab, not_ne_iff.mp hzero] at hself
    rw [not_ne_iff.mp hzero, hself]

lemma Counted.moveDown (h : Counted n m) (ha : a < n) (hb : b < n) (hab : a ≠ b) :
    Counted n (m.move ⟨a, b, .unidirectional⟩) ∧
      (m.move ⟨a, b, .unidirectional⟩).sparse = Slots.move a b m.sparse := by
  have hsparse : (m.move ⟨a, b, .unidirectional⟩).sparse = Slots.move a b m.sparse := by
    rw [m.move_unidirectional hab, sparse_update]
    funext i
    rw [Slots.move_apply, update_apply, update_apply]
    by_cases hib : i = b
    · rw [if_pos hib, if_neg (fun hia => hab (hia.symm.trans hib)), if_pos hib]
      rfl
    · rw [if_neg hib]
      split
      · exact if_pos rfl
      · rfl
  refine ⟨h.of_sparse (fun i hi => ?_) ?_, hsparse⟩
  · rw [m.move_unidirectional hab]
    have hia : i ≠ a := by omega
    have hib : i ≠ b := by omega
    exact (update_of_ne hia _ _).trans ((update_of_ne hib _ _).trans (h.zero i hi))
  · rw [hsparse, Slots.filled_move _ ha hb hab, m.move_unidirectional hab]
    have hentry : (m.sparse b).isSome = true ↔ m.minPCpu b ≠ 0 := entry_isSome _
    simp only [hentry]
    split
    · omega
    · omega

/-- The indices of an update are below `n`, and no added request loses its min-p by rounding. -/
structure Fits (n : ℕ) (f32 : Float32 F) (batchUpdate : BatchUpdate F) : Prop where
  added : ∀ a ∈ batchUpdate.added, a.index < n ∧ (f32.round a.params.minP = 0 → a.params.minP = 0)
  removed : ∀ i ∈ batchUpdate.removed, i < n
  moved : ∀ v ∈ batchUpdate.moved, v.aIndex < n ∧ v.bIndex < n ∧ (v.direct = .unidirectional → v.aIndex ≠ v.bIndex)

def value (f32 : Float32 F) (added : BatchAdd F) : Option F := entry (f32.round added.params.minP)

lemma Counted.addAll (h : Counted n m) {added : List (BatchAdd F)}
    (hadded : ∀ a ∈ added, a.index < n ∧ (f32.round a.params.minP = 0 → a.params.minP = 0)) :
    Counted n (added.foldl (MinPLogitsProcessor.add f32) m) ∧
      (added.foldl (MinPLogitsProcessor.add f32) m).sparse = applyAdds (value f32) added m.sparse := by
  induction added generalizing m with
  | nil => exact ⟨h, rfl⟩
  | cons a rest ih =>
    obtain ⟨hi, hround⟩ := hadded a mem_cons_self
    obtain ⟨hcounted, hsparse⟩ := h.add hi hround
    obtain ⟨hrest, hall⟩ := ih hcounted fun a' ha' => hadded a' (mem_cons_of_mem a ha')
    rw [hsparse] at hall
    exact ⟨hrest, hall⟩

lemma Counted.removeAll (h : Counted n m) {removed : List ℕ} (hremoved : ∀ i ∈ removed, i < n) :
    Counted n (removed.foldl MinPLogitsProcessor.remove m) ∧
      (removed.foldl MinPLogitsProcessor.remove m).sparse = clear removed m.sparse := by
  induction removed generalizing m with
  | nil =>
    refine ⟨h, ?_⟩
    funext i
    exact (if_neg not_mem_nil).symm
  | cons index rest ih =>
    obtain ⟨hcounted, hsparse⟩ := h.remove (hremoved index mem_cons_self)
    obtain ⟨hrest, hall⟩ := ih hcounted fun i hi => hremoved i (mem_cons_of_mem index hi)
    refine ⟨hrest, hall.trans ?_⟩
    rw [hsparse]
    funext i
    unfold clear
    by_cases hi : i = index
    · simp [hi]
    · simp [hi]

lemma Counted.moveAll (h : Counted n m) {moved : List BatchMove}
    (hmoved : ∀ v ∈ moved, v.aIndex < n ∧ v.bIndex < n ∧ (v.direct = .unidirectional → v.aIndex ≠ v.bIndex)) :
    Counted n (moved.foldl move m) ∧
      (moved.foldl move m).sparse = applyMoves moved m.sparse := by
  induction moved generalizing m with
  | nil => exact ⟨h, rfl⟩
  | cons v rest ih =>
    obtain ⟨ha, hb, hab⟩ := hmoved v mem_cons_self
    have hone : Counted n (m.move v) ∧ (m.move v).sparse = v.apply m.sparse := by
      obtain ⟨a, b, direct⟩ := v
      cases direct with
      | unidirectional => exact h.moveDown ha hb (hab rfl)
      | swap => exact h.swap ha hb
    obtain ⟨hrest, hall⟩ := ih hone.1 fun v' hv' => hmoved v' (mem_cons_of_mem v hv')
    rw [hone.2] at hall
    exact ⟨hrest, hall⟩

lemma Counted.updateState (h : Counted n m) {batchUpdate : BatchUpdate F} (hfits : Fits n f32 batchUpdate) :
    Counted n (m.updateState f32 (some batchUpdate)) ∧ (m.updateState f32 (some batchUpdate)).sparse =
        replay (value f32) batchUpdate.removed batchUpdate.added batchUpdate.moved m.sparse := by
  obtain ⟨hadded, hsparse⟩ := h.addAll hfits.added
  unfold MinPLogitsProcessor.updateState replay
  dsimp only
  rw [← hsparse]
  split
  · obtain ⟨hremoved, hremovedSparse⟩ := hadded.removeAll hfits.removed
    obtain ⟨hmoved, hmovedSparse⟩ := hremoved.moveAll hfits.moved
    rw [hremovedSparse] at hmovedSparse
    exact ⟨hmoved, hmovedSparse⟩
  · next hzero =>
    -- nothing is left to remove or move
    have hfilled : filled n (batchUpdate.added.foldl (MinPLogitsProcessor.add f32) m).sparse
        = 0 := by
      have hcount := hadded.count
      rw [not_ne_iff.mp hzero] at hcount
      exact_mod_cast hcount.symm
    have hnone : (batchUpdate.added.foldl (MinPLogitsProcessor.add f32) m).sparse = fun _ => none := by
      funext i
      by_cases hi : i < n
      · exact eq_none_of_filled_eq_zero hfilled hi
      · unfold sparse
        rw [hadded.zero i (Nat.le_of_not_lt hi)]
        exact if_pos rfl
    refine ⟨hadded, ?_⟩
    rw [hnone, clear_none, applyMoves_none]

end MinPLogitsProcessor

end CustomAi.Vllm
