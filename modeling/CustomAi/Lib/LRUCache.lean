import CustomAi.Lib.Dict
import CustomAi.Lib.Except
import Mathlib.Algebra.GroupWithZero.Nat

/-!
# Caches of bounded size

`cachetools.LRUCache`, with a `touch` that moves any key to the end of the order, whether or not it
has a value. What a series of accesses leaves depends on the order of the last access of each key,
and not on the order in which values are inserted.
-/

namespace CustomAi

open List

universe u v

inductive CacheFailure
  | raised (e : PyError)
  | neverEnds
  deriving DecidableEq

section

variable {σ α β : Type} {x : EStateM CacheFailure σ α} {s s' : σ} {f : α → EStateM CacheFailure σ β}

lemma eStateM_bind_ok {a : α} (h : x s = .ok a s') (f : α → EStateM CacheFailure σ β) : (x >>= f) s = f a s' := by
  change EStateM.bind x f s = _
  unfold EStateM.bind
  rw [h]

lemma eStateM_bind_error {e : CacheFailure} (h : x s = .error e s')
    (f : α → EStateM CacheFailure σ β) : (x >>= f) s = .error e s' := by
  change EStateM.bind x f s = _
  unfold EStateM.bind
  rw [h]

lemma eStateM_bind_eq_ok {b : β} :
    (x >>= f) s = .ok b s' ↔ ∃ a t, x s = .ok a t ∧ f a t = .ok b s' := by
  cases h : x s with
  | ok a t =>
    rw [eStateM_bind_ok h]
    simp
  | error e t =>
    rw [eStateM_bind_error h]
    simp

end

structure LRUCache (κ : Type) (υ : Type) where
  order : List κ
  data : Dict κ υ

section

variable {κ : Type} {l : List κ} {s : κ → ℕ}

/-- The shortest part that is left of `l` when elements are dropped from the front until the rest
fits beside `d`. -/
def trim (s : κ → ℕ) (capacity d : ℕ) : List κ → List κ
  | [] => []
  | k :: l => if ((k :: l).map s).sum + d ≤ capacity then k :: l else trim s capacity d l

lemma trim_suffix (s : κ → ℕ) (capacity d : ℕ) (l : List κ) : trim s capacity d l <:+ l := by
  induction l with
  | nil => exact suffix_rfl
  | cons k l ih =>
    unfold trim
    split
    · exact suffix_rfl
    · exact ih.trans (suffix_cons k l)

lemma trim_of_fits {capacity d : ℕ} (h : (l.map s).sum + d ≤ capacity) : trim s capacity d l = l := by
  cases l with
  | nil => rfl
  | cons k l => exact if_pos h

lemma trim_trim {capacity d d' : ℕ} (h : d ≤ d') (l : List κ) :
    trim s capacity d' (trim s capacity d l) = trim s capacity d' l := by
  induction l with
  | nil => rfl
  | cons k l ih =>
    by_cases hfits : ((k :: l).map s).sum + d ≤ capacity
    · rw [trim_of_fits hfits]
    · have hmore : ¬((k :: l).map s).sum + d' ≤ capacity := by omega
      have hd : trim s capacity d (k :: l) = trim s capacity d l := if_neg hfits
      have hd' : trim s capacity d' (k :: l) = trim s capacity d' l := if_neg hmore
      rw [hd, hd', ih]

lemma trim_fits {capacity d : ℕ} (h : d ≤ capacity) (l : List κ) :
    ((trim s capacity d l).map s).sum + d ≤ capacity := by
  induction l with
  | nil => simpa [trim] using h
  | cons k l ih =>
    unfold trim
    split
    · next hfits => exact hfits
    · exact ih

end

variable {κ υ : Type} [DecidableEq κ]

/-- `order.move_to_end(key)`, or the insertion of a new key. -/
def toEnd (order : List κ) (key : κ) : List κ := (order.filter fun k => k ≠ key) ++ [key]

namespace LRUCache

def empty : LRUCache κ υ := ⟨[], .empty⟩

def currsize (size : υ → ℕ) (data : Dict κ υ) : ℕ := data.sum fun _ v => size v

def touch (c : LRUCache κ υ) (key : κ) : LRUCache κ υ := { c with order := toEnd c.order key }

def get (c : LRUCache κ υ) (key : κ) : Option (υ × LRUCache κ υ) :=
  (c.data.get? key).map fun v => (v, c.touch key)

/-- `popitem` until `need` more fits. A key without a value is never removed. -/
def evict (size : υ → ℕ) (capacity need : ℕ) :
    List κ → Dict κ υ → EStateM.Result CacheFailure (LRUCache κ υ) Unit
  | [], data =>
    if currsize size data + need ≤ capacity then .ok () ⟨[], data⟩
    else .error (.raised
      (.runtimeError "All items are pinned, cannot remove oldest from the cache.")) ⟨[], data⟩
  | key :: order, data =>
    if currsize size data + need ≤ capacity then .ok () ⟨key :: order, data⟩
    else if data.contains key then evict size capacity need order (data.erase key)
    else .error .neverEnds ⟨key :: order, data⟩

/-- `cache[key] = value` -/
def set (size : υ → ℕ) (capacity : ℕ) (key : κ) (value : υ) :
    EStateM CacheFailure (LRUCache κ υ) Unit := fun c =>
  if capacity < size value then .error (.raised (.valueError "value too large")) c
  else
    let grows := match c.data.get? key with
      | none => true
      | some old => decide (size old < size value)
    let evicted := if grows then evict size capacity (size value) c.order c.data else .ok () c
    match evicted with
    | .ok _ c => .ok () ⟨toEnd c.order key, c.data.set key value⟩
    | .error e c => .error e c

/-- The value of a key, or a given one that is inserted, and whether it was cached. -/
def getOrSet (size : υ → ℕ) (capacity : ℕ) (e : PyError) (key : κ) (item : Option υ) :
    EStateM CacheFailure (LRUCache κ υ) (υ × Bool) := fun c =>
  match c.get key with
  | some (v, c) => .ok (v, true) c
  | none =>
    match item with
    | none => .error (.raised e) c
    | some v => (set size capacity key v >>= fun _ => pure (v, false)) c

def getOrSetAll (size : υ → ℕ) (capacity : ℕ) (e : κ → PyError) :
    List (κ × Option υ) → EStateM CacheFailure (LRUCache κ υ) (List (υ × Bool))
  | [] => pure []
  | op :: ops => do
    let out ← getOrSet size capacity (e op.1) op.1 op.2
    let outs ← getOrSetAll size capacity e ops
    return out :: outs

end LRUCache

section

variable {order l : List κ} {k x : κ} {s : κ → ℕ}

lemma mem_toEnd : x ∈ toEnd order k ↔ x ∈ order ∨ x = k := by
  unfold toEnd
  rw [mem_append, mem_filter]
  by_cases h : x = k
  · simp [h]
  · simp [h]

lemma nodup_toEnd (h : order.Nodup) : (toEnd order k).Nodup := by
  refine List.nodup_append.mpr ⟨h.filter _, nodup_singleton k, fun a ha b hb hab => ?_⟩
  rw [mem_singleton.mp hb] at hab
  exact of_decide_eq_true (mem_filter.mp ha).2 hab

lemma toEnd_append_of_mem (hl : k ∉ l) : toEnd (l ++ order) k = l ++ toEnd order k := by
  unfold toEnd
  rw [filter_append, append_assoc]
  congr 1
  refine filter_eq_self.mpr fun a ha => decide_eq_true fun hak => ?_
  exact hl (hak ▸ ha)

lemma foldl_toEnd (order keys : List κ) :
    keys.foldl toEnd order = (order.filter fun k => k ∉ keys) ++ keys.dedup := by
  induction keys generalizing order with
  | nil => simp
  | cons k keys ih =>
    rw [foldl_cons, ih]
    unfold toEnd
    rw [filter_append, filter_filter]
    have hfilter : (order.filter fun x => decide (x ∉ keys) && decide (x ≠ k)) =
        order.filter fun x => x ∉ k :: keys := by
      simp [Bool.and_comm]
    rw [hfilter, filter_cons]
    by_cases hk : k ∈ keys
    · rw [dedup_cons_of_mem hk, if_neg (by simpa using hk), filter_nil, append_nil]
    · rw [dedup_cons_of_notMem hk, if_pos (decide_eq_true hk), filter_nil, append_assoc, singleton_append]

lemma toEnd_perm (h : k ∈ order) (hnd : order.Nodup) : (toEnd order k).Perm order := by
  refine (perm_ext_iff_of_nodup (nodup_toEnd hnd) hnd).mpr fun x => ?_
  rw [mem_toEnd]
  exact or_iff_left_of_imp fun hx => hx ▸ h

omit [DecidableEq κ] in
lemma sum_filter_le {p q : κ → Bool} (h : ∀ x ∈ l, p x = true → q x = true) :
    ((l.filter p).map s).sum ≤ ((l.filter q).map s).sum := by
  induction l with
  | nil => exact le_rfl
  | cons x l ih =>
    have hrest := ih fun y hy => h y (mem_cons_of_mem x hy)
    have hx := h x mem_cons_self
    rw [filter_cons, filter_cons]
    split
    · next hp =>
      rw [if_pos (hx hp), map_cons, map_cons, sum_cons, sum_cons]
      exact Nat.add_le_add_left hrest _
    · split
      · rw [map_cons, sum_cons]
        exact hrest.trans (Nat.le_add_left _ _)
      · exact hrest

end

namespace LRUCache

variable {c : LRUCache κ υ} {size : υ → ℕ} {s : κ → ℕ} {capacity need : ℕ} {rest T : List κ} {k : κ}
  {v : υ}

/-- The keys are ordered, and `s` is the size of the value of each key. -/
structure Sized (s : κ → ℕ) (size : υ → ℕ) (c : LRUCache κ υ) : Prop where
  nodup : c.order.Nodup
  listed : ∀ k, c.data.contains k = true → k ∈ c.order
  sized : ∀ k v, c.data.get? k = some v → size v = s k

def stored (s : κ → ℕ) (data : Dict κ υ) (l : List κ) : ℕ :=
  ((l.filter fun k => data.contains k).map s).sum

lemma Sized.currsize_eq (h : Sized s size c) : currsize size c.data = stored s c.data c.order := by
  have hkeys : c.data.keys.Perm (c.order.filter fun k => c.data.contains k) := by
    refine (perm_ext_iff_of_nodup c.data.nodup_keys (h.nodup.filter _)).mpr fun k => ?_
    refine (c.data.mem_keys_iff k).trans ?_
    rw [mem_filter]
    exact ⟨fun hk => ⟨h.listed k hk, hk⟩, fun hk => hk.2⟩
  have hsum : currsize size c.data = (c.data.keys.map s).sum := by
    unfold currsize Dict.sum Dict.keys
    rw [map_map]
    congr 1
    refine map_congr_left fun e he => ?_
    exact h.sized e.1 e.2 ((c.data.mem_entries_iff e.1 e.2).mp he)
  rw [hsum]
  exact (hkeys.map s).sum_eq

lemma stored_append (data : Dict κ υ) (l l' : List κ) :
    stored s data (l ++ l') = stored s data l + stored s data l' := by
  unfold stored
  rw [filter_append, map_append, sum_append]

variable {data data' : Dict κ υ} {ops : List (κ × Option υ)} {known known' : κ → Bool}
  (e : κ → PyError)

variable {l : List κ}

lemma stored_of_contains (h : ∀ k ∈ l, data.contains k = true) : stored s data l = (l.map s).sum := by
  unfold stored
  rw [filter_eq_self.mpr h]

lemma stored_le (data : Dict κ υ) (l : List κ) : stored s data l ≤ (l.map s).sum := by
  have hle := sum_filter_le (l := l) (s := s) (p := fun k => data.contains k) (q := fun _ => true)
    fun _ _ _ => rfl
  rwa [filter_true] at hle

lemma Sized.tail (h : Sized s size ⟨k :: l, data⟩) : Sized s size ⟨l, data.erase k⟩ ∧ k ∉ l ∧
      ∀ x, x ≠ k → (data.erase k).contains x = data.contains x := by
  have hcontains : ∀ x, x ≠ k → (data.erase k).contains x = data.contains x := by
    intro x hx
    unfold Dict.contains
    rw [data.get?_erase_of_ne hx]
  have hnd := nodup_cons.mp h.nodup
  refine ⟨⟨hnd.2, fun x hx => ?_, fun x v hx => ?_⟩, hnd.1, hcontains⟩
  · have hxk : x ≠ k := by
      rintro rfl
      rw [Dict.contains_erase_self] at hx
      cases hx
    rw [hcontains x hxk] at hx
    exact (mem_cons.mp (h.listed x hx)).resolve_left hxk
  · rw [Dict.get?_erase] at hx
    split at hx
    · cases hx
    · exact h.sized x v hx

lemma stored_erase (hk : k ∉ l) : stored s (data.erase k) l = stored s data l := by
  have hfilter : l.filter (fun x => (data.erase k).contains x) = l.filter fun x => data.contains x := by
    refine filter_congr fun x hx => ?_
    have hxk : x ≠ k := fun heq => hk (heq ▸ hx)
    unfold Dict.contains
    rw [data.get?_erase_of_ne hxk]
  unfold stored
  rw [hfilter]

lemma evict_spec (hsized : Sized s size ⟨rest ++ T, data⟩)
    (hrest : ∀ k ∈ rest, data.contains k = true) (hfit : stored s data T + need ≤ capacity) :
    ∃ data', evict size capacity need (rest ++ T) data =
        .ok () ⟨trim s capacity (stored s data T + need) rest ++ T, data'⟩ ∧
      (∀ k, data'.get? k = if k ∈ trim s capacity (stored s data T + need) rest ++ T then data.get? k else none) ∧
      Sized s size ⟨trim s capacity (stored s data T + need) rest ++ T, data'⟩ := by
  have hlisted : ∀ (order : List κ) (data : Dict κ υ), Sized s size ⟨order, data⟩ →
      ∀ k, data.get? k = if k ∈ order then data.get? k else none := by
    intro order data hsized k
    split
    · rfl
    · next hk =>
      by_contra hne
      exact hk (hsized.listed k (Option.isSome_iff_ne_none.mpr hne))
  induction rest generalizing data with
  | nil =>
    have hsum := hsized.currsize_eq
    have hfits : currsize size data + need ≤ capacity := by
      rw [hsum]
      exact hfit
    refine ⟨data, ?_, hlisted _ _ hsized, hsized⟩
    cases T with
    | nil => exact if_pos hfits
    | cons k T => exact if_pos hfits
  | cons k rest ih =>
    have hsum := hsized.currsize_eq
    dsimp only at hsum
    rw [stored_append, stored_of_contains hrest] at hsum
    by_cases hfits : ((k :: rest).map s).sum + (stored s data T + need) ≤ capacity
    · rw [trim_of_fits hfits]
      refine ⟨data, ?_, hlisted _ _ hsized, hsized⟩
      exact if_pos (by omega)
    · have hk := hrest k mem_cons_self
      have hnd : k ∉ rest ++ T := (nodup_cons.mp hsized.nodup).1
      obtain ⟨hsized', -, hcontains⟩ := hsized.tail
      have hT : stored s (data.erase k) T = stored s data T :=
        stored_erase fun hmem => hnd (mem_append_right rest hmem)
      obtain ⟨data', hok, hget, hdone⟩ := ih hsized'
        (fun x hx => by
          rw [hcontains x fun heq => hnd (heq ▸ mem_append_left T hx)]
          exact hrest x (mem_cons_of_mem k hx))
        (by rw [hT]; exact hfit)
      rw [hT] at hok hget hdone
      have htrim : trim s capacity (stored s data T + need) (k :: rest) =
          trim s capacity (stored s data T + need) rest := if_neg hfits
      rw [htrim]
      refine ⟨data', ?_, fun x => ?_, hdone⟩
      · rw [cons_append]
        unfold evict
        rw [if_neg (by omega), if_pos hk]
        exact hok
      · rw [hget x]
        split
        · next hx =>
          refine data.get?_erase_of_ne fun heq => hnd ?_
          rw [← heq]
          refine mem_append.mpr ((mem_append.mp hx).imp_left fun h => ?_)
          exact (trim_suffix s capacity _ rest).subset h
        · rfl

structure Full (s : κ → ℕ) (size : υ → ℕ) (capacity : ℕ) (c : LRUCache κ υ) : Prop
    extends Sized s size c where
  full : ∀ k ∈ c.order, c.data.contains k = true
  fits : (c.order.map s).sum ≤ capacity

/-- Every miss inserts a value of the size of its key. -/
def Supplied (s : κ → ℕ) (size : υ → ℕ) (known : κ → Bool) : List (κ × Option υ) → Prop
  | [] => True
  | op :: ops => (known op.1 = false → ∃ v, op.2 = some v ∧ size v = s op.1) ∧
      Supplied s size (fun k => known k || k = op.1) ops

def hits (known : κ → Bool) : List (κ × Option υ) → List Bool
  | [] => []
  | op :: ops => known op.1 :: hits (fun k => known k || k = op.1) ops

def valueOf (data : Dict κ υ) : List (κ × Option υ) → κ → Option υ
  | [], k => data.get? k
  | op :: ops, k =>
    match data.get? k with
    | some v => some v
    | none => if k = op.1 then op.2 else valueOf data ops k

lemma stored_perm {l l' : List κ} (h : l.Perm l') :
    stored s data l = stored s data l' := ((h.filter _).map s).sum_eq

lemma stored_add_le (hk : k ∈ l) (hnot : data.contains k = false) : stored s data l + s k ≤ (l.map s).sum := by
  induction l with
  | nil => cases hk
  | cons x l ih =>
    have hcons : stored s data (x :: l) = stored s data [x] + stored s data l := stored_append data [x] l
    have hx : stored s data [x] ≤ s x := by
      have h := stored_le (s := s) data [x]
      simpa using h
    rw [map_cons, sum_cons]
    rcases mem_cons.mp hk with rfl | hk
    · have hzero : stored s data [k] = 0 := by simp [stored, hnot]
      have hle := stored_le (s := s) data l
      omega
    · have hle := ih hk
      omega

lemma stored_insert (hnd : l.Nodup) (hk : k ∈ l) (hnot : data.contains k = false)
    (h : ∀ x ∈ l, data'.contains x = (data.contains x || decide (x = k))) :
    stored s data' l = stored s data l + s k := by
  have hperm : (l.filter fun x => data'.contains x).Perm
      (k :: l.filter fun x => data.contains x) := by
    have hnot' : k ∉ l.filter fun x => data.contains x := fun hmem => by
      have hyes := (mem_filter.mp hmem).2
      rw [hnot] at hyes
      cases hyes
    refine (perm_ext_iff_of_nodup (hnd.filter _)
      (nodup_cons.mpr ⟨hnot', hnd.filter _⟩)).mpr fun x => ?_
    rw [mem_filter, mem_cons, mem_filter]
    constructor
    · rintro ⟨hx, hyes⟩
      rw [h x hx, Bool.or_eq_true, decide_eq_true_eq] at hyes
      exact hyes.symm.imp_right fun hc => ⟨hx, hc⟩
    · rintro (rfl | ⟨hx, hyes⟩)
      · exact ⟨hk, by rw [h x hk]; simp⟩
      · exact ⟨hx, by rw [h x hx, hyes]; rfl⟩
  unfold stored
  rw [(hperm.map s).sum_eq, map_cons, sum_cons, Nat.add_comm]

lemma stored_mono (h : ∀ x ∈ l, data.contains x = true → data'.contains x = true) :
    stored s data l ≤ stored s data' l := by
  have hleft : stored s data l = ((l.filter fun x => decide (x ∈ l) && data.contains x).map s).sum := by
    unfold stored
    congr 2
    exact filter_congr fun x hx => by simp [hx]
  rw [hleft]
  refine sum_filter_le fun x _ hx => ?_
  rw [Bool.and_eq_true, decide_eq_true_eq] at hx
  exact h x hx.1 hx.2

lemma hits_congr (h : ∀ op ∈ ops, known op.1 = known' op.1) : hits known ops = hits known' ops := by
  induction ops generalizing known known' with
  | nil => rfl
  | cons op ops ih =>
    unfold hits
    rw [h op mem_cons_self, ih fun op' hop' => ?_]
    rw [h op' (mem_cons_of_mem op hop')]

lemma supplied_congr (h : ∀ op ∈ ops, known op.1 = known' op.1) (hsup : Supplied s size known ops) :
    Supplied s size known' ops := by
  induction ops generalizing known known' with
  | nil => trivial
  | cons op ops ih =>
    refine ⟨fun hop => hsup.1 ((h op mem_cons_self).trans hop), ih (fun op' hop' => ?_) hsup.2⟩
    rw [h op' (mem_cons_of_mem op hop')]

lemma valueOf_congr (h : data.get? k = data'.get? k) (ops : List (κ × Option υ)) :
    valueOf data ops k = valueOf data' ops k := by
  induction ops with
  | nil => exact h
  | cons op ops ih =>
    unfold valueOf
    rw [h, ih]

lemma valueOf_of_some (h : data.get? k = some v) (ops : List (κ × Option υ)) : valueOf data ops k = some v := by
  cases ops with
  | nil => exact h
  | cons op ops =>
    unfold valueOf
    rw [h]

lemma contains_valueOf (h : data'.get? k = valueOf data ops k) (hk : data.contains k = true) :
    data'.contains k = true := by
  obtain ⟨w, hw⟩ := Option.isSome_iff_exists.mp hk
  unfold Dict.contains
  rw [h, valueOf_of_some hw]
  rfl

lemma valueOf_cons_of_some {op : κ × Option υ} (h : data.get? op.1 = some v)
    (ops : List (κ × Option υ)) (x : κ) : valueOf data (op :: ops) x = valueOf data ops x := by
  by_cases hx : x = op.1
  · rw [hx, valueOf_of_some h, valueOf_of_some h]
  · conv_lhs => unfold valueOf
    cases hget : data.get? x with
    | some w => exact (valueOf_of_some hget ops).symm
    | none =>
      rw [if_neg hx]

lemma valueOf_cons_of_none (h : data.get? k = none) (ops : List (κ × Option υ)) {x : κ}
    (hx : data'.get? x = (data.set k v).get? x) : valueOf data ((k, some v) :: ops) x = valueOf data' ops x := by
  rw [valueOf_congr hx]
  by_cases hxk : x = k
  · subst hxk
    rw [valueOf_of_some (data.get?_set_self x v)]
    unfold valueOf
    rw [h]
    exact if_pos rfl
  · have hsame : (data.set k v).get? x = data.get? x := data.get?_set_of_ne v hxk
    rw [valueOf_congr hsame]
    conv_lhs => unfold valueOf
    cases hget : data.get? x with
    | some w => exact (valueOf_of_some hget ops).symm
    | none =>
      rw [if_neg hxk]

lemma getOrSet_of_some {c : LRUCache κ υ} {e : PyError} {item : Option υ} (h : c.data.get? k = some v) :
    getOrSet size capacity e k item c = .ok (v, true) (c.touch k) := by
  unfold getOrSet get
  rw [h]
  rfl

lemma getOrSet_of_none {e : PyError} (hsized : Sized s size ⟨rest ++ T, data⟩)
    (hrest : ∀ k ∈ rest, data.contains k = true) (hfit : stored s data T + s k ≤ capacity)
    (hk : k ∈ T) (hnone : data.get? k = none) (hv : size v = s k) :
    ∃ data', getOrSet size capacity e k (some v) ⟨rest ++ T, data⟩ =
        .ok (v, false) ⟨trim s capacity (stored s data T + s k) rest ++ toEnd T k, data'⟩ ∧
      Sized s size ⟨trim s capacity (stored s data T + s k) rest ++ toEnd T k, data'⟩ ∧
      (∀ x ∈ trim s capacity (stored s data T + s k) rest, data'.get? x = data.get? x) ∧
      ∀ x ∈ T, data'.get? x = (data.set k v).get? x := by
  obtain ⟨data1, hevict, hget, hsized1⟩ := evict_spec hsized hrest hfit
  have hnd := List.nodup_append.mp hsized.nodup
  have hkrest : k ∉ rest := fun h => hnd.2.2 k h k hk rfl
  have hktrim : k ∉ trim s capacity (stored s data T + s k) rest := fun h =>
    hkrest ((trim_suffix s capacity _ rest).subset h)
  have horder : toEnd (trim s capacity (stored s data T + s k) rest ++ T) k =
      trim s capacity (stored s data T + s k) rest ++ toEnd T k := toEnd_append_of_mem hktrim
  refine ⟨data1.set k v, ?_, ?_, fun x hx => ?_, fun x hx => ?_⟩
  · have hsize : ¬ capacity < size v := by omega
    unfold getOrSet get
    rw [hnone]
    refine eStateM_bind_ok (a := ()) ?_ _
    unfold set
    rw [if_neg hsize]
    dsimp only
    rw [hnone, hv, if_pos rfl, hevict]
    dsimp only
    rw [horder]
  · rw [← horder]
    refine ⟨nodup_toEnd hsized1.nodup, fun x hx => mem_toEnd.mpr ?_, fun x w hx => ?_⟩
    · by_cases hxk : x = k
      · exact .inr hxk
      · refine .inl (hsized1.listed x ?_)
        unfold Dict.contains at hx ⊢
        rwa [data1.get?_set_of_ne v hxk] at hx
    · rw [data1.get?_set] at hx
      split at hx
      · next hxk => rw [← Option.some.inj hx, hv, hxk]
      · exact hsized1.sized x w hx
  · have hxk : x ≠ k := fun h => hktrim (h ▸ hx)
    rw [data1.get?_set_of_ne v hxk, hget, if_pos (mem_append_left _ hx)]
  · rw [data1.get?_set, data.get?_set, hget, if_pos (mem_append_right _ hx)]

lemma getOrSetAll_spec (hsized : Sized s size ⟨rest ++ T, data⟩) (hrest : ∀ k ∈ rest, data.contains k = true)
    (hfits : (rest.map s).sum + stored s data T ≤ capacity) (hT : (T.map s).sum ≤ capacity)
    (hmem : ∀ op ∈ ops, op.1 ∈ T) (hsup : Supplied s size data.contains ops) :
    ∃ data' outs, getOrSetAll size capacity e ops ⟨rest ++ T, data⟩ =
        .ok outs ⟨trim s capacity (stored s data' T) rest ++ (ops.map Prod.fst).foldl toEnd T, data'⟩ ∧
      Sized s size ⟨trim s capacity (stored s data' T) rest ++ (ops.map Prod.fst).foldl toEnd T, data'⟩ ∧
      (∀ x ∈ trim s capacity (stored s data' T) rest, data'.get? x = data.get? x) ∧
      (∀ x ∈ T, data'.get? x = valueOf data ops x) ∧ outs.map Prod.snd = hits data.contains ops ∧
      outs.map (fun out => some out.1) = ops.map fun op => valueOf data ops op.1 := by
  induction ops generalizing rest T data with
  | nil =>
    refine ⟨data, [], ?_, ?_, fun x _ => rfl, fun x _ => rfl, rfl, rfl⟩
    · rw [trim_of_fits hfits]
      rfl
    · rw [trim_of_fits hfits]
      exact hsized
  | cons op ops ih =>
    obtain ⟨k, item⟩ := op
    have hk : k ∈ T := hmem _ mem_cons_self
    have hmem' : ∀ op ∈ ops, op.1 ∈ T := fun op hop => hmem op (mem_cons_of_mem _ hop)
    have hnd := List.nodup_append.mp hsized.nodup
    have hkrest : k ∉ rest := fun h => hnd.2.2 k h k hk rfl
    have hperm : (toEnd T k).Perm T := toEnd_perm hk hnd.2.1
    have hTk : ((toEnd T k).map s).sum ≤ capacity := by rwa [(hperm.map s).sum_eq]
    cases hget : data.get? k with
    | some v =>
      have hsized' : Sized s size ⟨rest ++ toEnd T k, data⟩ := by
        refine ⟨?_, fun x hx => ?_, hsized.sized⟩
        · rw [← toEnd_append_of_mem hkrest]
          exact nodup_toEnd hsized.nodup
        · rw [← toEnd_append_of_mem hkrest]
          exact mem_toEnd.mpr (.inl (hsized.listed x hx))
      have hknown : ∀ x, (data.contains x || decide (x = k)) = data.contains x := by
        intro x
        by_cases hx : x = k
        · unfold Dict.contains
          rw [hx, hget]
          rfl
        · simp [hx]
      obtain ⟨data', outs, hrun, hdone, hrest', hT', hhits, houts⟩ := ih hsized' hrest
        (by rwa [stored_perm hperm]) hTk (fun op hop => mem_toEnd.mpr (.inl (hmem' op hop)))
        (supplied_congr (fun op _ => hknown op.1) hsup.2)
      rw [stored_perm hperm] at hrun hdone hrest'
      refine ⟨data', (v, true) :: outs, ?_, hdone, hrest', fun x hx => ?_, ?_, ?_⟩
      · have htouch : touch ⟨rest ++ T, data⟩ k = ⟨rest ++ toEnd T k, data⟩ := by
          unfold touch
          rw [toEnd_append_of_mem hkrest]
        rw [getOrSetAll, eStateM_bind_ok (getOrSet_of_some hget), htouch, eStateM_bind_ok hrun]
        rfl
      · rw [valueOf_cons_of_some hget]
        exact hT' x (mem_toEnd.mpr (.inl hx))
      · have hcontains : data.contains k = true := by
          unfold Dict.contains
          rw [hget]
          rfl
        rw [map_cons, hhits, hits, hcontains]
        exact congrArg _ (hits_congr fun op _ => (hknown op.1).symm)
      · rw [map_cons, map_cons, houts, valueOf_of_some hget]
        congr 1
        refine map_congr_left fun op _ => ?_
        exact (valueOf_cons_of_some hget ops op.1).symm
    | none =>
      have hnot : data.contains k = false := by
        unfold Dict.contains
        rw [hget]
        rfl
      obtain ⟨v, rfl, hv⟩ := hsup.1 hnot
      have hroom := stored_add_le (s := s) hk hnot
      obtain ⟨data1, hstep, hsized1, hrest1, hT1⟩ :=
        getOrSet_of_none (e := e k) hsized hrest (hroom.trans hT) hk hget hv
      have hcontains : ∀ x ∈ T, data1.contains x = (data.contains x || decide (x = k)) := by
        intro x hx
        unfold Dict.contains
        rw [hT1 x hx, data.get?_set]
        by_cases hxk : x = k
        · simp [hxk]
        · simp [hxk]
      have hstored : stored s data1 (toEnd T k) = stored s data T + s k := by
        rw [stored_perm hperm]
        exact stored_insert hnd.2.1 hk hnot hcontains
      obtain ⟨data', outs, hrun, hdone, hrest', hT', hhits, houts⟩ := ih hsized1
        (fun x hx => by
          unfold Dict.contains
          rw [hrest1 x hx]
          exact hrest x ((trim_suffix s capacity _ rest).subset hx))
        (by rw [hstored]; exact trim_fits (hroom.trans hT) rest) hTk
        (fun op hop => mem_toEnd.mpr (.inl (hmem' op hop)))
        (supplied_congr (fun op hop => (hcontains op.1 (hmem' op hop)).symm) hsup.2)
      have hmore : stored s data T + s k ≤ stored s data' T := by
        rw [← hstored, stored_perm hperm]
        exact stored_mono fun x hx => contains_valueOf (hT' x (mem_toEnd.mpr (.inl hx)))
      rw [stored_perm hperm, trim_trim hmore] at hrun hdone hrest'
      refine ⟨data', (v, false) :: outs, ?_, hdone, fun x hx => ?_, fun x hx => ?_, ?_, ?_⟩
      · rw [getOrSetAll, eStateM_bind_ok hstep, eStateM_bind_ok hrun]
        rfl
      · rw [hrest' x hx]
        refine hrest1 x ?_
        rw [← trim_trim hmore] at hx
        exact (trim_suffix s capacity _ _).subset hx
      · rw [hT' x (mem_toEnd.mpr (.inl hx))]
        exact (valueOf_cons_of_none hget ops (hT1 x hx)).symm
      · rw [map_cons, hhits, hits, hnot]
        exact congrArg _ (hits_congr fun op hop => hcontains op.1 (hmem' op hop))
      · have hself : valueOf data ((k, some v) :: ops) k = some v := by
          unfold valueOf
          rw [hget]
          exact if_pos rfl
        rw [map_cons, map_cons, houts, hself]
        congr 1
        refine map_congr_left fun op hop => ?_
        exact (valueOf_cons_of_none hget ops (hT1 op.1 (hmem' op hop))).symm

lemma foldl_touch (c : LRUCache κ υ) (keys : List κ) :
    keys.foldl touch c = ⟨(c.order.filter fun k => k ∉ keys) ++ keys.dedup, c.data⟩ := by
  rw [← foldl_toEnd]
  induction keys generalizing c with
  | nil => rfl
  | cons k keys ih =>
    rw [foldl_cons, ih]
    rfl

lemma nodup_foldl_toEnd {order : List κ} (h : order.Nodup) (keys : List κ) : (keys.foldl toEnd order).Nodup := by
  induction keys generalizing order with
  | nil => exact h
  | cons k keys ih => exact ih (nodup_toEnd h)

lemma isSome_valueOf (hsup : Supplied s size known ops)
    (hknown : known k = true → data.contains k = true) (hk : k ∈ ops.map Prod.fst) :
    (valueOf data ops k).isSome := by
  cases hget : data.get? k with
  | some v =>
    rw [valueOf_of_some hget]
    rfl
  | none =>
    have hnot : known k = false := by
      rw [← Bool.not_eq_true]
      intro hyes
      have hc := hknown hyes
      unfold Dict.contains at hc
      rw [hget] at hc
      cases hc
    clear hknown
    induction ops generalizing known with
    | nil => cases hk
    | cons op ops ih =>
      unfold valueOf
      rw [hget]
      by_cases hop : k = op.1
      · rw [if_pos hop]
        obtain ⟨v, hv, -⟩ := hsup.1 (hop ▸ hnot)
        rw [hv]
        rfl
      · rw [if_neg hop]
        refine ih hsup.2 ((mem_cons.mp hk).resolve_left hop) ?_
        simp [hnot, hop]

lemma Full.touched {c : LRUCache κ υ} (h : Full s size capacity c) (keys : List κ) :
    Sized s size ⟨(c.order.filter fun k => k ∉ keys) ++ keys.dedup, c.data⟩ ∧
      (∀ k ∈ c.order.filter fun k => k ∉ keys, c.data.contains k = true) ∧
      ((c.order.filter fun k => k ∉ keys).map s).sum + stored s c.data keys.dedup ≤ capacity := by
  have hsized : Sized s size ⟨(c.order.filter fun k => k ∉ keys) ++ keys.dedup, c.data⟩ := by
    rw [← foldl_toEnd]
    refine ⟨nodup_foldl_toEnd h.nodup keys, fun k hk => ?_, h.sized⟩
    rw [foldl_toEnd, mem_append, mem_filter, mem_dedup]
    by_cases hmem : k ∈ keys
    · exact .inr hmem
    · exact .inl ⟨h.listed k hk, decide_eq_true hmem⟩
  have hrest : ∀ k ∈ c.order.filter fun k => k ∉ keys, c.data.contains k = true :=
    fun k hk => h.full k (mem_filter.mp hk).1
  refine ⟨hsized, hrest, ?_⟩
  have hcurr := hsized.currsize_eq
  have hcurr' := h.currsize_eq
  rw [stored_append, stored_of_contains hrest] at hcurr
  rw [stored_of_contains h.full] at hcurr'
  rw [← hcurr, hcurr']
  exact h.fits

def accessed (s : κ → ℕ) (capacity : ℕ) (order keys : List κ) : List κ :=
  trim s capacity (keys.dedup.map s).sum (order.filter fun k => k ∉ keys) ++ keys.dedup

/-- Touched keys are not evicted for each other, and the order depends on their last accesses only. -/
theorem access_spec {c : LRUCache κ υ} (h : Full s size capacity c)
    (hsum : ((ops.map Prod.fst).dedup.map s).sum ≤ capacity) (hsup : Supplied s size c.data.contains ops) :
    ∃ c' outs, getOrSetAll size capacity e ops ((ops.map Prod.fst).foldl touch c) = .ok outs c' ∧
      Full s size capacity c' ∧ c'.order = accessed s capacity c.order (ops.map Prod.fst) ∧
      (∀ k ∈ ops.map Prod.fst, c'.data.get? k = valueOf c.data ops k) ∧
      (∀ k ∈ c'.order, k ∉ ops.map Prod.fst → c'.data.get? k = c.data.get? k) ∧
      outs.map Prod.snd = hits c.data.contains ops ∧
      outs.map (fun out => some out.1) = ops.map fun op => valueOf c.data ops op.1 := by
  have hkeys : ∀ op ∈ ops, op.1 ∈ ops.map Prod.fst := fun op hop => mem_map_of_mem hop
  generalize hK : ops.map Prod.fst = K at *
  rw [foldl_touch]
  obtain ⟨hsized, hrest, hfits⟩ := h.touched K
  obtain ⟨data', outs, hrun, hdone, hrest', hT', hhits, houts⟩ := getOrSetAll_spec e hsized hrest
    hfits hsum (fun op hop => mem_dedup.mpr (hkeys op hop)) hsup
  have hfull : ∀ k ∈ K.dedup, data'.contains k = true := by
    intro k hk
    unfold Dict.contains
    rw [hT' k hk]
    exact isSome_valueOf hsup id (by rw [hK]; exact mem_dedup.mp hk)
  have hlast : K.foldl toEnd K.dedup = K.dedup := by
    rw [foldl_toEnd]
    have hnil : (K.dedup.filter fun k => k ∉ K) = [] := by
      rw [filter_eq_nil_iff]
      intro k hk
      simpa using mem_dedup.mp hk
    rw [hnil, nil_append]
  rw [hK, hlast, stored_of_contains hfull] at hrun hdone
  rw [stored_of_contains hfull] at hrest'
  refine ⟨_, outs, hrun, ⟨hdone, fun k hk => ?_, ?_⟩, rfl,
    fun k hk => hT' k (mem_dedup.mpr hk), fun k hk hkK => ?_, hhits, houts⟩
  · rcases mem_append.mp hk with hk | hk
    · unfold Dict.contains
      rw [hrest' k hk]
      exact hrest k ((trim_suffix s capacity _ _).subset hk)
    · exact hfull k hk
  · rw [map_append, sum_append]
    exact trim_fits hsum _
  · refine hrest' k ((mem_append.mp hk).resolve_right fun hk => hkK (mem_dedup.mp hk))

lemma supplied_of_split (h : ∀ l op l', ops = l ++ op :: l' → known op.1 = false →
      op.1 ∉ l.map Prod.fst → ∃ v, op.2 = some v ∧ size v = s op.1) : Supplied s size known ops := by
  induction ops generalizing known with
  | nil => trivial
  | cons op ops ih =>
    refine ⟨fun hop => h [] op ops rfl hop (by simp), ih fun l op' l' heq hop' hl => ?_⟩
    rw [Bool.or_eq_false_iff, decide_eq_false_iff_not] at hop'
    refine h (op :: l) op' l' (by rw [heq]; rfl) hop'.1 ?_
    rw [map_cons, mem_cons]
    exact fun hmem => hmem.elim hop'.2 hl

lemma valueOf_eq_find? (hnone : data.get? k = none) (ops : List (κ × Option υ)) :
    valueOf data ops k = (ops.find? fun op => op.1 = k).bind Prod.snd := by
  induction ops with
  | nil => exact hnone
  | cons op ops ih =>
    unfold valueOf
    rw [hnone, List.find?_cons]
    by_cases hop : k = op.1
    · rw [decide_eq_true hop.symm]
      exact if_pos hop
    · rw [decide_eq_false (Ne.symm hop)]
      exact (if_neg hop).trans ih

lemma getOrSetAll_append {e : κ → PyError} {c c' : LRUCache κ υ} {ops' : List (κ × Option υ)}
    {outs : List (υ × Bool)} (h : getOrSetAll size capacity e (ops ++ ops') c = .ok outs c') :
    ∃ c1 o o', getOrSetAll size capacity e ops c = .ok o c1 ∧
      getOrSetAll size capacity e ops' c1 = .ok o' c' ∧ outs = o ++ o' ∧ o.length = ops.length := by
  induction ops generalizing c outs with
  | nil => exact ⟨c, [], outs, rfl, h, rfl, rfl⟩
  | cons op ops ih =>
    rw [cons_append, getOrSetAll] at h
    obtain ⟨out, c1, hstep, h⟩ := eStateM_bind_eq_ok.mp h
    obtain ⟨outs', c2, hrest, h⟩ := eStateM_bind_eq_ok.mp h
    cases h
    obtain ⟨c3, o, o', ho, ho', rfl, hlen⟩ := ih hrest
    refine ⟨c3, out :: o, o', ?_, ho', rfl, congrArg (· + 1) hlen⟩
    rw [getOrSetAll, eStateM_bind_ok hstep, eStateM_bind_ok ho]
    rfl

lemma accessed_congr {order keys keys' : List κ} (h : keys.dedup = keys'.dedup) :
    accessed s capacity order keys = accessed s capacity order keys' := by
  have hmem : ∀ k, k ∈ keys ↔ k ∈ keys' := fun k => by
    rw [← mem_dedup, h, mem_dedup]
  unfold accessed
  have hfilter : (order.filter fun k => k ∉ keys) = order.filter fun k => k ∉ keys' :=
    filter_congr fun k _ => decide_eq_decide.mpr (not_congr (hmem k))
  rw [h, hfilter]

lemma Full.contains_iff {c : LRUCache κ υ} (h : Full s size capacity c) (k : κ) :
    c.data.contains k = true ↔ k ∈ c.order := ⟨h.listed k, h.full k⟩

lemma full_empty : Full s size capacity (.empty : LRUCache κ υ) :=
  ⟨⟨nodup_nil, nofun, nofun⟩, nofun, Nat.zero_le _⟩

end LRUCache

end CustomAi
