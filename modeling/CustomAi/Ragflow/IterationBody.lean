import CustomAi.Ragflow.Canvas
import Mathlib.Data.List.Induction

/-!
# The body of an iteration

The components below the item of an iteration, what they append to the path, and what an
invocation leaves unchanged.
-/

namespace CustomAi.Ragflow.Canvas

open List Relation Function Option

variable {V K W Val : Type} [DecidableEq V] [DecidableEq K] [DecidableEq W]
  {dsl : Dsl V K W Val} {result : V → ℕ → W → Val} {s : Canvas V K W Val} {p t : V}

def pending (s : Canvas V K W Val) : List V := s.path.drop s.idx

/-- A component of the iteration `p` other than its item `t`. -/
def InBody (dsl : Dsl V K W Val) (p t c : V) : Prop := (dsl.component c).parent = some p ∧ c ≠ t

instance (c : V) : Decidable (InBody dsl p t c) := inferInstanceAs (Decidable (_ ∧ _))

/-- The entries of a path after its last `t`, the last one first. -/
def sinceItem (t : V) (path : List V) : List V := path.reverse.takeWhile (· ≠ t)

/-- `p` is an iteration over an acyclic body of ordinary components that starts at its item `t`. -/
structure IterationBody (dsl : Dsl V K W Val) (p t : V) : Prop where
  kind : (dsl.component p).kind = .iteration
  get_start : get_start dsl p = some t
  ordinary : ∀ c, InBody dsl p t c → (dsl.component c).kind = .ordinary
  parent : ∀ c q, (dsl.component c).parent = some q → ¬ InBody dsl p t q ∧ q ≠ t
  begin : (dsl.component dsl.begin).parent = none
  nonempty : (dsl.component t).downstream ≠ []
  inside : ∀ c, InBody dsl p t c ∨ c = t → ∀ d ∈ (dsl.component c).downstream, InBody dsl p t d
  outside : ∀ c, ¬ InBody dsl p t c → c ≠ t → ∀ d ∈ (dsl.component c).downstream, ¬ InBody dsl p t d ∧ d ≠ t
  acyclic : ∀ c, InBody dsl p t c → ¬ TransGen (fun a b => b ∈ (dsl.component a).downstream) c c
  rooted : ∀ c, InBody dsl p t c → TransGen (fun a b => b ∈ (dsl.component a).downstream) t c
  refs_item : (dsl.component t).refs = []
  refs : ∀ c, InBody dsl p t c → ∀ a ∈ (dsl.component c).refs, InBody dsl p t a →
    TransGen (fun a b => b ∈ (dsl.component a).downstream) a c
  keys : dsl.keys.Nodup
  mem_keys : ∀ c, InBody dsl p t c → c ∈ dsl.keys
  outputs : ((dsl.outputRefs p).map Prod.fst).Nodup
  vars : dsl.itemVar ≠ dsl.indexVar

/-- No component of the body in the batch stands on the path since the last entry of the item. -/
def FreshBody (dsl : Dsl V K W Val) (p t : V) : List V → List V → Prop
  | _, [] => True
  | front, c :: rest =>
    (InBody dsl p t c → c ∉ sinceItem t front) ∧ FreshBody dsl p t (front ++ [c]) rest

instance : (front l : List V) → Decidable (FreshBody dsl p t front l)
  | _, [] => inferInstanceAs (Decidable True)
  | front, c :: rest =>
    have := instDecidableFreshBody (front ++ [c]) rest
    inferInstanceAs (Decidable (_ ∧ _))

/-- The iteration is entered at index 0 with nothing pending and with what its body refers to on the
path. -/
def CleanEntry (dsl : Dsl V K W Val) (p t : V) (s : Canvas V K W Val) : Prop :=
  p ∈ s.batch dsl → s.itemIdx t = 0 ∧ (∀ c ∈ s.pending, ¬ InBody dsl p t c ∧ c ≠ t) ∧
    ∀ c ∈ dsl.keys, InBody dsl p t c → ∀ a ∈ (dsl.component c).refs, ¬ InBody dsl p t a →
      a = t ∨ a ∈ s.front ++ s.batch dsl

def CleanItem (dsl : Dsl V K W Val) (p t : V) (s : Canvas V K W Val) : Prop :=
  t ∈ s.batch dsl → (s.batch dsl).count t = 1 ∧ ∀ c ∈ s.pending, ¬ InBody dsl p t c

/-- The iteration is not entered again, its item is not early and no component comes twice. -/
def CleanRound (dsl : Dsl V K W Val) (p t : V) (s : Canvas V K W Val) : Prop :=
  CleanEntry dsl p t s ∧ CleanItem dsl p t s ∧ FreshBody dsl p t s.front (s.batch dsl)

instance : Decidable (CleanRound dsl p t s) :=
  inferInstanceAs (Decidable ((_ → _ ∧ _ ∧ _) ∧ (_ → _ ∧ _) ∧ _))

variable {l path : List V} {c : V}

omit [DecidableEq K] [DecidableEq W] in
lemma FreshBody.notMem {front pre post : List V} (h : FreshBody dsl p t front (pre ++ c :: post))
    (hc : InBody dsl p t c) : c ∉ sinceItem t (front ++ pre) := by
  induction pre generalizing front with
  | nil =>
    rw [append_nil]
    exact h.1 hc
  | cons d pre ih =>
    have hrest := ih h.2
    rwa [append_assoc] at hrest

lemma mem_sinceItem_append (hl : t ∉ l) : c ∈ sinceItem t (path ++ l) ↔ c ∈ sinceItem t path ∨ c ∈ l := by
  unfold sinceItem
  rw [reverse_append, takeWhile_append_of_pos, mem_append, mem_reverse]
  · exact or_comm
  · intro d hd
    exact decide_eq_true fun h => hl (h ▸ mem_reverse.mp hd)

lemma sinceItem_concat (path : List V) (d : V) :
    sinceItem t (path ++ [d]) = if d = t then [] else d :: sinceItem t path := by
  by_cases hd : d = t <;> simp [sinceItem, hd]

lemma mem_of_mem_sinceItem (hl : t ∈ l) (hc : c ∈ sinceItem t (path ++ l)) : c ∈ l := by
  induction l using reverseRecOn with
  | nil => cases hl
  | append_singleton l d ih =>
    rw [← append_assoc, sinceItem_concat] at hc
    split at hc
    · cases hc
    · rename_i hd
      have htl : t ∈ l := by
        rcases mem_append.mp hl with hl | hl
        · exact hl
        · exact absurd (mem_singleton.mp hl).symm hd
      rcases mem_cons.mp hc with rfl | hc
      · exact mem_append_right _ (mem_singleton_self _)
      · exact mem_append_left _ (ih htl hc)

namespace IterationBody

variable (h : IterationBody dsl p t)
include h

omit [DecidableEq K] [DecidableEq W] in
lemma item : (dsl.component t).kind = .iterationItem ∧ (dsl.component t).parent = some p := by
  have hfind := List.find?_some h.get_start
  simpa using hfind

omit [DecidableEq K] [DecidableEq W] in
lemma notMem_self : ¬ InBody dsl p t p ∧ p ≠ t := h.parent t p h.item.2

omit [DecidableEq V] [DecidableEq K] [DecidableEq W] h in
lemma parent_ne {c : V} (hc : ¬ InBody dsl p t c) (hct : c ≠ t) :
    (dsl.component c).parent ≠ some p := fun hp => hc ⟨hp, hct⟩

omit [DecidableEq K] [DecidableEq W]

lemma get_start_notMem {q d : V} (hq : q ≠ p) (hd : Canvas.get_start dsl q = some d) :
    ¬ InBody dsl p t d ∧ d ≠ t := by
  have hfind := List.find?_some hd
  have hparent : (dsl.component d).parent = some q := by
    simp only [decide_eq_true_eq] at hfind
    exact hfind.2
  constructor
  · rintro ⟨hp, -⟩
    exact hq (some.inj (hparent.symm.trans hp))
  · rintro rfl
    exact hq (some.inj (hparent.symm.trans h.item.2))

lemma following_outside {c d : V} (hc : ¬ InBody dsl p t c) (hct : c ≠ t) (hcp : c ≠ p)
    (hd : d ∈ following dsl s c) : ¬ InBody dsl p t d ∧ d ≠ t := by
  unfold following at hd
  dsimp only at hd
  split_ifs at hd with hitem hiter hleaf
  · cases hq : (dsl.component c).parent with
    | none => simp [hq] at hd
    | some q =>
      rw [hq] at hd
      obtain ⟨hqb, hqt⟩ := h.parent c q hq
      exact h.outside q hqb hqt d hd
  · exact h.get_start_notMem hcp (mem_toList.mp hd)
  · cases hq : (dsl.component c).parent with
    | none => simp [hq] at hd
    | some q =>
      rw [hq] at hd
      refine h.get_start_notMem (fun e => ?_) (mem_toList.mp hd)
      exact parent_ne hc hct (e ▸ hq)
  · exact h.outside c hc hct d hd

lemma following_body {c : V} (hc : InBody dsl p t c) (s : Canvas V K W Val) : following dsl s c =
      if (dsl.component c).downstream = [] then [t] else (dsl.component c).downstream := by
  simp [following, h.ordinary c hc, hc.1, h.get_start]

lemma following_item (s : Canvas V K W Val) : following dsl s t =
      if ended s t then (dsl.component p).downstream else (dsl.component t).downstream := by
  simp [following, h.item.1, h.item.2, h.nonempty]

end IterationBody

section Invocations

def collate (dsl : Dsl V K W Val) (p : V) (idx : ℤ) (s : Canvas V K W Val) : Canvas V K W Val :=
  if 0 < idx then output_collation dsl p s else s

omit [DecidableEq W] in
lemma collate_frame (dsl : Dsl V K W Val) (p : V) (s : Canvas V K W Val) (idx : ℤ) :
    (collate dsl p idx s).count = s.count ∧ (collate dsl p idx s).output = s.output ∧
      (collate dsl p idx s).itemIdx = s.itemIdx := by
  unfold collate
  split <;> exact ⟨rfl, rfl, rfl⟩

omit [DecidableEq W] in
lemma collate_of_ne (dsl : Dsl V K W Val) (s : Canvas V K W Val) (idx : ℤ) {q : V} (hq : q ≠ p) :
    (collate dsl p idx s).collected q = s.collected q := by
  unfold collate
  split
  · exact update_of_ne hq _ _
  · rfl

variable {l : List V} {c d : V} {i : ℕ}

lemma invokeItem_eq (hp : (dsl.component c).parent = some p) : invokeItem dsl c s =
      if ((dsl.items p).length : ℤ) ≤ s.itemIdx c then
        { collate dsl p (s.itemIdx c) s with
          itemIdx := update (collate dsl p (s.itemIdx c) s).itemIdx c (-1) }
      else match pyIndex (dsl.items p) (s.itemIdx c) with
        | none => { collate dsl p (s.itemIdx c) s with failed := true }
        | some x => { collate dsl p (s.itemIdx c) s with
            output := update (collate dsl p (s.itemIdx c) s).output c (update
              (update ((collate dsl p (s.itemIdx c) s).output c) dsl.itemVar (some x))
                dsl.indexVar (some (dsl.ofIndex (s.itemIdx c))))
            itemIdx := update (collate dsl p (s.itemIdx c) s).itemIdx c
              (s.itemIdx c + 1) } := by
  unfold invokeItem
  rw [hp]
  rfl

lemma invokeItem_of_ne (dsl : Dsl V K W Val) (s : Canvas V K W Val) (hd : d ≠ c) :
    (invokeItem dsl c s).count d = s.count d ∧ (invokeItem dsl c s).output d = s.output d ∧
      (invokeItem dsl c s).itemIdx d = s.itemIdx d := by
  cases hp : (dsl.component c).parent with
  | none =>
    unfold invokeItem
    rw [hp]
    exact ⟨rfl, rfl, rfl⟩
  | some q =>
    obtain ⟨hcount, houtput, hidx⟩ := collate_frame dsl q s (s.itemIdx c)
    rw [invokeItem_eq hp]
    split
    · exact ⟨congrFun hcount d, congrFun houtput d, (update_of_ne hd _ _).trans (congrFun hidx d)⟩
    · split
      · exact ⟨congrFun hcount d, congrFun houtput d, congrFun hidx d⟩
      · exact ⟨congrFun hcount d, (update_of_ne hd _ _).trans (congrFun houtput d),
          (update_of_ne hd _ _).trans (congrFun hidx d)⟩

lemma invokeItem_collected (s : Canvas V K W Val) (hc : (dsl.component c).parent ≠ some p) :
    (invokeItem dsl c s).collected p = s.collected p := by
  cases hq : (dsl.component c).parent with
  | none =>
    unfold invokeItem
    rw [hq]
  | some q =>
    have hpq : p ≠ q := fun e => hc (e ▸ hq)
    have hcoll := collate_of_ne dsl s (s.itemIdx c) hpq
    rw [invokeItem_eq hq]
    split
    · exact hcoll
    · split <;> exact hcoll

lemma invoke_of_ne (dsl : Dsl V K W Val) (result : V → ℕ → W → Val) (s : Canvas V K W Val) (hd : d ≠ c) :
    (invoke dsl result s c).count d = s.count d ∧ (invoke dsl result s c).output d = s.output d ∧
      (invoke dsl result s c).itemIdx d = s.itemIdx d := by
  have hcount : update s.count c (s.count c + 1) d = s.count d := update_of_ne hd _ _
  unfold invoke
  split
  · obtain ⟨h1, h2, h3⟩ := invokeItem_of_ne dsl
      { s with count := update s.count c (s.count c + 1) } hd
    exact ⟨h1.trans hcount, h2, h3⟩
  · exact ⟨hcount, rfl, rfl⟩
  · exact ⟨hcount, update_of_ne hd _ _, rfl⟩
  · exact ⟨hcount, update_of_ne hd _ _, rfl⟩

lemma foldl_invoke_of_notMem (dsl : Dsl V K W Val) (result : V → ℕ → W → Val)
    (s : Canvas V K W Val) (hd : d ∉ l) : (l.foldl (invoke dsl result) s).count d = s.count d ∧
      (l.foldl (invoke dsl result) s).output d = s.output d ∧
      (l.foldl (invoke dsl result) s).itemIdx d = s.itemIdx d := by
  induction l generalizing s with
  | nil => exact ⟨rfl, rfl, rfl⟩
  | cons c l ih =>
    obtain ⟨hc, hl⟩ := not_or.mp (mem_cons.not.mp hd)
    obtain ⟨hcount, houtput, hidx⟩ := ih (invoke dsl result s c) hl
    obtain ⟨hcount', houtput', hidx'⟩ := invoke_of_ne dsl result s hc
    exact ⟨hcount.trans hcount', houtput.trans houtput', hidx.trans hidx'⟩

lemma invoke_collected (hc : (dsl.component c).kind = .iterationItem → (dsl.component c).parent ≠ some p) :
    (invoke dsl result s c).collected p = s.collected p := by
  unfold invoke
  split
  · rename_i hitem
    exact invokeItem_collected { s with count := _ } (hc hitem)
  · rfl
  · rfl
  · rfl

lemma foldl_invoke_collected (result : V → ℕ → W → Val) (s : Canvas V K W Val)
    (hl : ∀ c ∈ l, (dsl.component c).kind = .iterationItem → (dsl.component c).parent ≠ some p) :
    (l.foldl (invoke dsl result) s).collected p = s.collected p := by
  induction l generalizing s with
  | nil => rfl
  | cons c l ih =>
    rw [foldl_cons, ih _ fun d hd => hl d (mem_cons_of_mem c hd)]
    exact invoke_collected (hl c mem_cons_self)

lemma foldl_invoke_once (dsl : Dsl V K W Val) (result : V → ℕ → W → Val) (s : Canvas V K W Val)
    (hc : l.count c = 1) (hkind : (dsl.component c).kind = .ordinary) :
    (l.foldl (invoke dsl result) s).count c = s.count c + 1 ∧
      (l.foldl (invoke dsl result) s).output c = fun w => some (result c (s.count c + 1) w) := by
  obtain ⟨pre, post, rfl⟩ := append_of_mem (count_pos_iff.mp (by omega : 0 < l.count c))
  rw [count_append, count_cons_self] at hc
  have hpre : c ∉ pre := count_eq_zero.mp (by omega)
  have hpost : c ∉ post := count_eq_zero.mp (by omega)
  rw [foldl_append, foldl_cons]
  obtain ⟨hcount, houtput, -⟩ := foldl_invoke_of_notMem dsl result
    (invoke dsl result (pre.foldl (invoke dsl result) s) c) hpost
  obtain ⟨hcount', -, -⟩ := foldl_invoke_of_notMem dsl result s hpre
  rw [hcount, houtput]
  simp [invoke, hkind, hcount']

omit [DecidableEq W] in
lemma output_collation_congr {s' : Canvas V K W Val}
    (hout : ∀ c, (dsl.component c).parent = some p → s'.output c = s.output c)
    (hcoll : s'.collected p = s.collected p) :
    (output_collation dsl p s').collected p = (output_collation dsl p s).collected p := by
  unfold output_collation
  simp only [update_self]
  funext k
  rw [hcoll]
  refine congrArg _ (flatMap_congr fun c _ => ?_)
  split
  · rename_i hc
    rw [hout c hc]
  · rfl

lemma IterationBody.invoke_item (h : IterationBody dsl p t) (result : V → ℕ → W → Val)
    (hidx : s.itemIdx t = i) : (invoke dsl result s t).collected p = (collate dsl p i s).collected p ∧
      (i < (dsl.items p).length → (invoke dsl result s t).itemIdx t = i + 1 ∧
        (invoke dsl result s t).output t dsl.itemVar = (dsl.items p)[i]?) ∧
      ((dsl.items p).length ≤ i → (invoke dsl result s t).itemIdx t = -1) := by
  have hinvoke : invoke dsl result s t =
      invokeItem dsl t { s with count := update s.count t (s.count t + 1) } := by
    simp [invoke, h.item.1]
  rw [hinvoke, invokeItem_eq h.item.2]
  simp only [hidx]
  have hcoll : (collate dsl p i { s with count := update s.count t (s.count t + 1) }
      ).collected p = (collate dsl p i s).collected p := by
    unfold collate
    split <;> rfl
  by_cases hi : i < (dsl.items p).length
  · have hget : pyIndex (dsl.items p) (i : ℤ) = some (dsl.items p)[i] := by
      rw [pyIndex, if_pos (Int.natCast_nonneg i), Int.toNat_natCast, List.getElem?_eq_getElem hi]
    have hvar := h.vars
    rw [if_neg (by omega), hget]
    exact ⟨hcoll, fun _ => ⟨by simp, by simp [hvar, hi]⟩, fun hle => absurd hi (by omega)⟩
  · rw [if_pos (by omega)]
    exact ⟨hcoll, fun hlt => absurd hlt hi, fun _ => by simp⟩

lemma IterationBody.foldl_item (h : IterationBody dsl p t) (hidx : s.itemIdx t = i)
    (ht : l.count t = 1) (hbody : ∀ c ∈ l, ¬ InBody dsl p t c) :
    (l.foldl (invoke dsl result) s).collected p = (collate dsl p i s).collected p ∧
      (i < (dsl.items p).length → (l.foldl (invoke dsl result) s).itemIdx t = i + 1 ∧
        (l.foldl (invoke dsl result) s).output t dsl.itemVar = (dsl.items p)[i]?) ∧
      ((dsl.items p).length ≤ i → (l.foldl (invoke dsl result) s).itemIdx t = -1) := by
  obtain ⟨pre, post, rfl⟩ := append_of_mem (count_pos_iff.mp (by omega : 0 < l.count t))
  rw [count_append, count_cons_self] at ht
  have hpre : t ∉ pre := count_eq_zero.mp (by omega)
  have hpost : t ∉ post := count_eq_zero.mp (by omega)
  have hother : ∀ c ∈ pre ++ t :: post, c ≠ t →
      (dsl.component c).kind = .iterationItem → (dsl.component c).parent ≠ some p :=
    fun c hc hct _ => parent_ne (hbody c hc) hct
  have hcoll_pre : (pre.foldl (invoke dsl result) s).collected p = s.collected p :=
    foldl_invoke_collected result s fun c hc => hother c (mem_append_left _ hc)
      fun e => hpre (e ▸ hc)
  have hcoll_post := foldl_invoke_collected result
    (invoke dsl result (pre.foldl (invoke dsl result) s) t) fun c hc =>
      hother c (mem_append_right _ (mem_cons_of_mem _ hc)) fun e => hpost (e ▸ hc)
  obtain ⟨-, -, hidx_pre⟩ := foldl_invoke_of_notMem dsl result s hpre
  obtain ⟨-, houtput, hidx_post⟩ := foldl_invoke_of_notMem dsl result
    (invoke dsl result (pre.foldl (invoke dsl result) s) t) hpost
  obtain ⟨hcoll, hnext, hlast⟩ := h.invoke_item result (hidx_pre.trans hidx)
  have hcollate : (collate dsl p i (pre.foldl (invoke dsl result) s)).collected p =
      (collate dsl p i s).collected p := by
    unfold collate
    split
    · refine output_collation_congr (fun c hc => ?_) hcoll_pre
      have hcpre : c ∉ pre := fun hmem =>
        hbody c (mem_append_left _ hmem) ⟨hc, fun e => hpre (e ▸ hmem)⟩
      exact (foldl_invoke_of_notMem dsl result s hcpre).2.1
    · exact hcoll_pre
  rw [foldl_append, foldl_cons, hcoll_post, hcoll, hcollate, hidx_post, houtput]
  exact ⟨rfl, hnext, hlast⟩

end Invocations

end CustomAi.Ragflow.Canvas
