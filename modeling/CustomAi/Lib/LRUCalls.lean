import CustomAi.Lib.LRUCache

/-!
# Accesses that raise

What a call leaves in the cache when it raises. A key that was touched, and whose value was never
inserted, stays in the order, and the eviction that meets it does not end.
-/

namespace CustomAi

open List

def leaves {σ α : Type} : EStateM.Result CacheFailure σ α → Except CacheFailure σ
  | .ok _ s => .ok s
  | .error (.raised _) s => .ok s
  | .error .neverEnds _ => .error .neverEnds

def outcome {σ α : Type} : EStateM.Result CacheFailure σ α → Except CacheFailure (σ × α)
  | .ok a s => .ok (s, a)
  | .error e _ => .error e

section

variable {σ α β : Type} {x : EStateM CacheFailure σ α} {s s' : σ}

def bare {ε : Type} : EStateM.Result ε σ α → EStateM.Result ε σ Unit
  | .ok _ s => .ok () s
  | .error e s => .error e s

lemma leaves_bare (r : EStateM.Result CacheFailure σ α) : leaves (bare r) = leaves r := by
  cases r with
  | ok a t => rfl
  | error e t => cases e <;> rfl

lemma bare_bind_congr {α' β' : Type} {x' : EStateM CacheFailure σ α'}
    {f : α → EStateM CacheFailure σ β} {f' : α' → EStateM CacheFailure σ β'}
    (h : bare (x s) = bare (x' s)) (hf : ∀ a a' t, bare (f a t) = bare (f' a' t)) :
    bare ((x >>= f) s) = bare ((x' >>= f') s) := by
  cases hx : x s with
  | ok a t =>
    rw [hx] at h
    cases hx' : x' s with
    | ok a' t' =>
      rw [hx'] at h
      cases h
      rw [eStateM_bind_ok hx, eStateM_bind_ok hx', hf a a' t]
    | error e t' =>
      rw [hx'] at h
      cases h
  | error e t =>
    rw [hx] at h
    cases hx' : x' s with
    | ok a' t' =>
      rw [hx'] at h
      cases h
    | error e' t' =>
      rw [hx'] at h
      cases h
      rw [eStateM_bind_error hx, eStateM_bind_error hx']
      rfl

lemma bare_bind_pure (x : EStateM CacheFailure σ α) (g : α → β) (s : σ) :
    bare ((x >>= fun a => pure (g a)) s) = bare (x s) := by
  cases h : x s with
  | ok a t =>
    rw [eStateM_bind_ok h]
    rfl
  | error e t =>
    rw [eStateM_bind_error h]
    rfl

lemma leaves_bind_of_ok {a : α} (h : x s = .ok a s') (f : α → EStateM CacheFailure σ β) :
    leaves ((x >>= f) s) = leaves (f a s') := by
  rw [eStateM_bind_ok h]

lemma leaves_bind_pure (x : EStateM CacheFailure σ α) (g : α → β) (s : σ) :
    leaves ((x >>= fun a => pure (g a)) s) = leaves (x s) := by
  rw [← leaves_bare, bare_bind_pure, leaves_bare]

lemma leaves_bind_throw (x : EStateM CacheFailure σ α) (e : PyError) (complete : Bool) (s : σ) :
    leaves ((x >>= fun _ => if complete then pure () else throw (.raised e)) s) = leaves (x s) := by
  cases h : x s with
  | ok a t =>
    rw [eStateM_bind_ok h]
    cases complete <;> rfl
  | error f t =>
    rw [eStateM_bind_error h]
    cases f <;> rfl

end

variable {κ υ : Type} [DecidableEq κ]

namespace LRUCache

variable {size : υ → ℕ} {s : κ → ℕ} {capacity need : ℕ} {c c' : LRUCache κ υ}
  {rest order l keys : List κ} {data : Dict κ υ} {k : κ} {v : υ} {ops : List (κ × Option υ)}

variable (e : κ → PyError)

lemma bare_getOrSetAll_append (ops ops' : List (κ × Option υ)) (c : LRUCache κ υ) :
    bare (getOrSetAll size capacity e (ops ++ ops') c) = bare ((getOrSetAll size capacity e ops >>= fun _ =>
        getOrSetAll size capacity e ops') c) := by
  induction ops generalizing c with
  | nil =>
    rw [nil_append, getOrSetAll, pure_bind]
  | cons op ops ih =>
    rw [cons_append, getOrSetAll, getOrSetAll, bind_assoc]
    refine bare_bind_congr rfl fun out out' t => ?_
    rw [bare_bind_pure, ih, bind_assoc]
    refine bare_bind_congr rfl fun outs outs' t => ?_
    rw [pure_bind]

/-- The order lists the cached keys, which fit. -/
structure Sound (size : υ → ℕ) (capacity : ℕ) (c : LRUCache κ υ) : Prop where
  nodup : c.order.Nodup
  fits : currsize size c.data ≤ capacity
  cached : ∀ k, k ∈ c.order ↔ c.data.contains k = true

def keySize (size : υ → ℕ) (data : Dict κ υ) (ops : List (κ × Option υ)) (k : κ) : ℕ :=
  (valueOf data ops k).elim 0 size

/-- The accesses give a value for each key, and together the keys fit. -/
structure Fits (size : υ → ℕ) (capacity : ℕ) (keys : List κ) (ops : List (κ × Option υ))
    (c : LRUCache κ υ) : Prop where
  given : ∀ k ∈ keys, (valueOf c.data ops k).isSome
  room : (keys.dedup.map (keySize size c.data ops)).sum ≤ capacity

lemma sound_empty : Sound size capacity (.empty : LRUCache κ υ) :=
  ⟨nodup_nil, Nat.zero_le _, fun _ => ⟨nofun, nofun⟩⟩

lemma get?_of_not_contains (h : data.contains k = false) : data.get? k = none := by
  refine Option.not_isSome_iff_eq_none.mp ?_
  unfold Dict.contains at h
  rw [h]
  exact Bool.false_ne_true

lemma keySize_of_some (h : data.get? k = some v) (ops : List (κ × Option υ)) :
    keySize size data ops k = size v := by
  unfold keySize
  rw [valueOf_of_some h]
  rfl

lemma Sound.full (h : Sound size capacity c) (hs : ∀ k v, c.data.get? k = some v → size v = s k) :
    Full s size capacity c := by
  have hsized : Sized s size c := ⟨h.nodup, fun k hk => (h.cached k).mpr hk, hs⟩
  refine ⟨hsized, fun k hk => (h.cached k).mp hk, ?_⟩
  rw [← stored_of_contains fun k hk => (h.cached k).mp hk, ← hsized.currsize_eq]
  exact h.fits

lemma Sized.sound {T : List κ} (h : Sized s size ⟨trim s capacity (stored s data T) rest ++ l, data⟩)
    (hl : l.Perm T) (hrest : ∀ k ∈ trim s capacity (stored s data T) rest, data.contains k = true)
    (hT : ∀ k ∈ T, data.contains k = true) (hfit : (T.map s).sum ≤ capacity) :
    Sound size capacity ⟨trim s capacity (stored s data T) rest ++ l, data⟩ := by
  have hall : ∀ k ∈ trim s capacity (stored s data T) rest ++ l, data.contains k = true := by
    intro k hk
    exact (mem_append.mp hk).elim (hrest k) fun hk => hT k (hl.mem_iff.mp hk)
  refine ⟨h.nodup, ?_, fun k => ⟨hall k, h.listed k⟩⟩
  rw [h.currsize_eq]
  rw [stored_append, stored_of_contains hrest, stored_perm hl]
  refine trim_fits ?_ rest
  rw [stored_of_contains hT]
  exact hfit

lemma Fits.supplied (h : Fits size capacity keys ops c) (hops : ∀ op ∈ ops, op.1 ∈ keys) :
    Supplied (keySize size c.data ops) size c.data.contains ops := by
  refine supplied_of_split fun l op l' heq hnot hl => ?_
  have hnone := get?_of_not_contains hnot
  have hfind : (ops.find? fun x => x.1 = op.1) = some op := by
    rw [heq, List.find?_append, List.find?_eq_none.mpr, Option.none_or]
    · simp
    · intro x hx
      simpa using fun hx1 : x.1 = op.1 => hl (hx1 ▸ mem_map_of_mem hx)
  have hvalue : valueOf c.data ops op.1 = op.2 := by
    rw [valueOf_eq_find? hnone, hfind]
    rfl
  have hmem : op ∈ ops := by
    rw [heq]
    exact mem_append_right l mem_cons_self
  obtain ⟨v, hv⟩ := Option.isSome_iff_exists.mp (h.given op.1 (hops op hmem))
  refine ⟨v, hvalue.symm.trans hv, ?_⟩
  unfold keySize
  rw [hv]
  rfl

lemma Sound.access (h : Sound size capacity c) (e : κ → PyError)
    (hfits : Fits size capacity keys ops c) (hops : ∀ op ∈ ops, op.1 ∈ keys) :
    ∃ c' outs, getOrSetAll size capacity e ops (keys.foldl touch c) = .ok outs c' ∧ Sound size capacity c' := by
  have hfull : Full (keySize size c.data ops) size capacity c := h.full fun k v hk => (keySize_of_some hk ops).symm
  obtain ⟨hsized, hrest, hroom⟩ := hfull.touched keys
  obtain ⟨data', outs, hrun, hdone, hrest', hT', -, -⟩ := getOrSetAll_spec e hsized hrest hroom
    hfits.room (fun op hop => mem_dedup.mpr (hops op hop)) (hfits.supplied hops)
  rw [← foldl_touch] at hrun
  refine ⟨_, outs, hrun, ?_⟩
  refine hdone.sound ?_ (fun k hk => ?_) (fun k hk => ?_) hfits.room
  · refine (perm_ext_iff_of_nodup (nodup_foldl_toEnd keys.nodup_dedup _)
      keys.nodup_dedup).mpr fun k => ?_
    rw [foldl_toEnd, mem_append, mem_filter, mem_dedup, mem_dedup]
    refine ⟨fun hk => hk.elim And.left fun hk => ?_, fun hk => ?_⟩
    · obtain ⟨op, hop, rfl⟩ := mem_map.mp hk
      exact hops op hop
    · by_cases hin : k ∈ ops.map Prod.fst
      · exact .inr hin
      · exact .inl ⟨hk, decide_eq_true hin⟩
  · unfold Dict.contains
    rw [hrest' k hk]
    exact hrest k ((trim_suffix _ capacity _ _).subset hk)
  · unfold Dict.contains
    rw [hT' k hk]
    exact hfits.given k (mem_dedup.mp hk)

lemma evict_neverEnds (hsized : Sized s size ⟨rest ++ k :: l, data⟩)
    (hrest : ∀ x ∈ rest, data.contains x = true) (hk : data.contains k = false)
    (hover : capacity < stored s data (k :: l) + need) :
    leaves (evict size capacity need (rest ++ k :: l) data) = .error .neverEnds := by
  induction rest generalizing data with
  | nil =>
    have hcurr := hsized.currsize_eq
    dsimp only [nil_append] at hcurr ⊢
    unfold evict
    rw [if_neg (by omega), hk]
    rfl
  | cons x rest ih =>
    have hcurr := hsized.currsize_eq
    dsimp only at hcurr
    rw [stored_append] at hcurr
    obtain ⟨hsized', hx, hcontains⟩ := hsized.tail
    rw [cons_append]
    unfold evict
    rw [if_neg (by omega), if_pos (hrest x mem_cons_self)]
    refine ih hsized' (fun y hy => ?_) ?_ ?_
    · rw [hcontains y fun heq => hx (heq ▸ mem_append_left _ hy)]
      exact hrest y (mem_cons_of_mem x hy)
    · rw [hcontains k fun heq => hx (heq ▸ mem_append_right rest mem_cons_self)]
      exact hk
    · rw [stored_erase fun hmem => hx (mem_append_right rest hmem)]
      exact hover

lemma getOrSet_raises (e : PyError) {item : Option υ} (h : c.data.get? k = none)
    (hitem : ∀ v, item = some v → capacity < size v) :
    ∃ e', getOrSet size capacity e k item c = .error (.raised e') c := by
  unfold getOrSet get
  rw [h]
  cases item with
  | none => exact ⟨e, rfl⟩
  | some v =>
    refine ⟨.valueError "value too large", ?_⟩
    refine eStateM_bind_error ?_ _
    unfold set
    rw [if_pos (hitem v rfl)]

lemma getOrSet_neverEnds (e : PyError) (hsized : Sized s size ⟨rest ++ k :: l, data⟩)
    (hrest : ∀ x ∈ rest, data.contains x = true) (hnone : data.get? k = none)
    (hv : ¬ capacity < size v) (hover : capacity < stored s data (k :: l) + size v) :
    ∃ t, getOrSet size capacity e k (some v) ⟨rest ++ k :: l, data⟩ = .error .neverEnds t := by
  have hk : data.contains k = false := by
    unfold Dict.contains
    rw [hnone]
    rfl
  have hleaves := evict_neverEnds hsized hrest hk hover
  cases hevict : evict size capacity (size v) (rest ++ k :: l) data with
  | ok a t =>
    rw [hevict] at hleaves
    cases hleaves
  | error f t =>
    rw [hevict] at hleaves
    cases f with
    | raised e' => cases hleaves
    | neverEnds =>
      refine ⟨t, ?_⟩
      unfold getOrSet get
      rw [hnone]
      refine eStateM_bind_error ?_ _
      unfold set
      rw [if_neg hv]
      dsimp only
      rw [hnone]
      rw [if_pos rfl, hevict]

lemma fits_of_cached {rest X : List κ} {data : Dict κ υ}
    (hsized : Sized s size ⟨rest ++ (ops.map Prod.fst ++ X), data⟩) (hrest : ∀ k ∈ rest, data.contains k = true)
    (hcurr : (rest.map s).sum + stored s data (ops.map Prod.fst ++ X) ≤ capacity)
    (hsize : ∀ op ∈ ops, data.contains op.1 = false → ∀ v, op.2 = some v → size v = s op.1)
    (hrun : leaves (getOrSetAll size capacity e ops ⟨rest ++ (ops.map Prod.fst ++ X), data⟩) =
      .ok c') (hall : ∀ k ∈ c'.order, c'.data.contains k = true) :
    (∀ k ∈ ops.map Prod.fst ++ X, (valueOf data ops k).isSome) ∧
      ((ops.map Prod.fst ++ X).map s).sum ≤ capacity := by
  induction ops generalizing rest X data with
  | nil =>
    cases hrun
    have hX : ∀ k ∈ X, data.contains k = true := fun k hk => hall k (mem_append_right rest hk)
    refine ⟨hX, ?_⟩
    rw [map_nil, nil_append, stored_of_contains hX] at hcurr
    exact (Nat.le_add_left _ _).trans hcurr
  | cons op ops ih =>
    obtain ⟨k, item⟩ := op
    rw [map_cons, cons_append] at *
    dsimp only at *
    have hnd := List.nodup_append.mp hsized.nodup
    have hkrest : k ∉ rest := fun h => hnd.2.2 k h k mem_cons_self rfl
    have hkT := (nodup_cons.mp hnd.2.1).1
    have hend : toEnd (k :: (ops.map Prod.fst ++ X)) k = ops.map Prod.fst ++ (X ++ [k]) := by
      unfold toEnd
      rw [filter_cons_of_neg (by simp), filter_eq_self.mpr, append_assoc]
      exact fun x hx => decide_eq_true fun heq => hkT (heq ▸ hx)
    have hperm : (ops.map Prod.fst ++ (X ++ [k])).Perm (k :: (ops.map Prod.fst ++ X)) := by
      rw [← hend]
      exact toEnd_perm mem_cons_self hnd.2.1
    unfold getOrSetAll at hrun
    cases hget : data.get? k with
    | some v =>
      have htouch : touch (⟨rest ++ k :: (ops.map Prod.fst ++ X), data⟩ : LRUCache κ υ) k =
          ⟨rest ++ (ops.map Prod.fst ++ (X ++ [k])), data⟩ := by
        unfold touch
        rw [toEnd_append_of_mem hkrest, hend]
      rw [leaves_bind_of_ok (getOrSet_of_some hget), leaves_bind_pure, htouch] at hrun
      have hsized' : Sized s size ⟨rest ++ (ops.map Prod.fst ++ (X ++ [k])), data⟩ := by
        refine ⟨?_, fun x hx => ?_, hsized.sized⟩
        · exact ((hperm.append_left rest).nodup_iff).mpr hsized.nodup
        · exact ((hperm.append_left rest).mem_iff).mpr (hsized.listed x hx)
      obtain ⟨hvalues, hsum⟩ := ih hsized' hrest (by rwa [stored_perm hperm])
        (fun op hop => hsize op (mem_cons_of_mem _ hop)) hrun
      refine ⟨fun x hx => ?_, ?_⟩
      · rw [valueOf_cons_of_some hget]
        exact hvalues x (hperm.mem_iff.mpr hx)
      · rwa [(hperm.map s).sum_eq] at hsum
    | none =>
      have hnot : data.contains k = false := by
        unfold Dict.contains
        rw [hget]
        rfl
      by_cases hraises : ∀ v, item = some v → capacity < size v
      · obtain ⟨e', hstep⟩ := getOrSet_raises (e k)
          (c := ⟨rest ++ k :: (ops.map Prod.fst ++ X), data⟩) hget hraises
        rw [eStateM_bind_error hstep] at hrun
        cases hrun
        have hyes := hall k (mem_append_right rest mem_cons_self)
        rw [hnot] at hyes
        cases hyes
      · push Not at hraises
        obtain ⟨v, rfl, hv⟩ := hraises
        have hvs : size v = s k := hsize _ mem_cons_self hnot v rfl
        by_cases hfit : stored s data (k :: (ops.map Prod.fst ++ X)) + s k ≤ capacity
        · obtain ⟨data', hstep, hsized', htrim, hT⟩ :=
            getOrSet_of_none (e := e k) hsized hrest hfit mem_cons_self hget hvs
          rw [hend] at hstep hsized'
          rw [leaves_bind_of_ok hstep, leaves_bind_pure] at hrun
          have hcontains : ∀ x ∈ k :: (ops.map Prod.fst ++ X),
              data'.contains x = (data.contains x || decide (x = k)) := by
            intro x hx
            unfold Dict.contains
            rw [hT x hx, data.get?_set]
            by_cases hxk : x = k
            · simp [hxk]
            · simp [hxk]
          have hstored : stored s data' (ops.map Prod.fst ++ (X ++ [k])) =
              stored s data (k :: (ops.map Prod.fst ++ X)) + s k := by
            rw [stored_perm hperm]
            exact stored_insert hnd.2.1 mem_cons_self hnot hcontains
          obtain ⟨hvalues, hsum⟩ := ih hsized' (fun x hx => by
              unfold Dict.contains
              rw [htrim x hx]
              exact hrest x ((trim_suffix s capacity _ rest).subset hx))
            (by rw [hstored]; exact trim_fits hfit rest)
            (fun op hop hno => by
              have hmem : op.1 ∈ ops.map Prod.fst ++ X := mem_append_left X (mem_map_of_mem hop)
              rw [hcontains op.1 (mem_cons_of_mem k hmem), Bool.or_eq_false_iff] at hno
              exact hsize op (mem_cons_of_mem _ hop) hno.1) hrun
          refine ⟨fun x hx => ?_, ?_⟩
          · rw [valueOf_cons_of_none hget ops (hT x hx)]
            exact hvalues x (hperm.mem_iff.mpr hx)
          · rwa [(hperm.map s).sum_eq] at hsum
        · obtain ⟨t, hstep⟩ := getOrSet_neverEnds (e k) hsized hrest hget (Nat.not_lt.mpr hv) (by omega)
          rw [eStateM_bind_error hstep] at hrun
          cases hrun

lemma find?_key {op : κ × Option υ} (hnd : (ops.map Prod.fst).Nodup)
    (hop : op ∈ ops) : (ops.find? fun x => x.1 = op.1) = some op := by
  induction ops with
  | nil => cases hop
  | cons x ops ih =>
    rw [map_cons, nodup_cons] at hnd
    rcases mem_cons.mp hop with rfl | hmem
    · exact List.find?_cons_of_pos (decide_eq_true rfl)
    · have hne : ¬ x.1 = op.1 := fun heq => hnd.1 (heq ▸ mem_map_of_mem hmem)
      rw [List.find?_cons_of_neg (by simpa using hne)]
      exact ih hnd.2 hmem

lemma Sound.fits_of_access (h : Sound size capacity c) (e : κ → PyError) (hnd : keys.Nodup)
    (hops : ops.map Prod.fst <+: keys)
    (hrun : leaves (getOrSetAll size capacity e ops (keys.foldl touch c)) = .ok c')
    (hc' : Sound size capacity c') : Fits size capacity keys ops c := by
  have hfull : Full (keySize size c.data ops) size capacity c := h.full fun k v hk => (keySize_of_some hk ops).symm
  obtain ⟨hsized, hrest, hroom⟩ := hfull.touched keys
  rw [foldl_touch] at hrun
  obtain ⟨X, hX⟩ := hops
  rw [hnd.dedup, ← hX] at hsized hroom hrun
  have hops : (ops.map Prod.fst).Nodup := (List.nodup_append.mp (hX ▸ hnd)).1
  have hsize : ∀ op ∈ ops, c.data.contains op.1 = false → ∀ v, op.2 = some v →
      size v = keySize size c.data ops op.1 := by
    intro op hop hnot v hv
    unfold keySize
    rw [valueOf_eq_find? (get?_of_not_contains hnot), find?_key hops hop, Option.bind_some, hv]
    rfl
  rw [← hX] at hrest
  obtain ⟨hvalues, hsum⟩ := fits_of_cached e hsized hrest hroom hsize hrun fun k hk => (hc'.cached k).mp hk
  rw [hX] at hvalues hsum
  exact ⟨hvalues, by rwa [hnd.dedup]⟩

end LRUCache

end CustomAi
