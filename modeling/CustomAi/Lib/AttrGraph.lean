import CustomAi.Lib.Dict
import Mathlib.Data.Sym.Sym2
import Mathlib.Data.Set.Semiring

/-!
# Undirected graphs with attributes

Nodes and edges carry attributes; an edge is found under the unordered pair of its ends, and the
ends of every edge are nodes. Measures of the edges are sums over an arbitrary commutative monoid.
-/

namespace CustomAi

open List Dict

universe u v w x

namespace Dict

variable {κ : Type u} {υ : Type v} [DecidableEq κ]

def keep (d : Dict κ υ) (p : κ → Prop) [DecidablePred p] : Dict κ υ :=
  ⟨d.entries.filter fun e => p e.1, d.nodup_keys.sublist (filter_sublist.map Prod.fst)⟩

lemma get?_keep (d : Dict κ υ) (p : κ → Prop) [DecidablePred p] (k : κ) :
    (d.keep p).get? k = if p k then d.get? k else none := by
  apply Option.ext
  intro v
  rw [← mem_entries_iff]
  by_cases hk : p k
  · rw [if_pos hk, ← mem_entries_iff]
    simp [keep, hk]
  · simp [keep, hk]

lemma sum_move {M : Type w} [AddCommMonoid M] {d e : Dict κ υ} {f g : κ → υ → M} {k l : κ} (hkl : k ≠ l)
    (hout : ∀ m, m ≠ k → m ≠ l → (e.get? m).elim 0 (g m) = (d.get? m).elim 0 (f m))
    (hin : (e.get? k).elim 0 (g k) + (e.get? l).elim 0 (g l) =
      (d.get? k).elim 0 (f k) + (d.get? l).elim 0 (f l)) : e.sum g = d.sum f := by
  have hrest : ((e.erase k).erase l).sum g = ((d.erase k).erase l).sum f := by
    refine sum_congr_get? fun m => ?_
    by_cases hl : m = l
    · rw [hl, get?_erase_self, get?_erase_self]
      rfl
    by_cases hk : m = k
    · rw [get?_erase_of_ne _ hl, get?_erase_of_ne _ hl, hk, get?_erase_self, get?_erase_self]
      rfl
    · rw [get?_erase_of_ne _ hl, get?_erase_of_ne _ hl, get?_erase_of_ne _ hk, get?_erase_of_ne _ hk, hout m hk hl]
  have he := (e.erase k).sum_erase g l
  have hd := (d.erase k).sum_erase f l
  rw [get?_erase_of_ne _ hkl.symm] at he hd
  rw [← e.sum_erase g k, ← d.sum_erase f k, ← he, ← hd, hrest, add_assoc, add_assoc,
    add_comm ((e.get? l).elim 0 (g l)), add_comm ((d.get? l).elim 0 (f l)), hin]

end Dict

/-- The other end of an edge at `n`. -/
def otherEnd {V : Type u} [DecidableEq V] (n : V) : Sym2 V → Option V :=
  Sym2.lift ⟨fun a b => if a = n then some b else if b = n then some a else none, fun a b => by
    by_cases ha : a = n <;> by_cases hb : b = n <;> simp [ha, hb]⟩

lemma otherEnd_eq_some_iff {V : Type u} [DecidableEq V] {n m : V} {e : Sym2 V} :
    otherEnd n e = some m ↔ e = s(n, m) := by
  induction e using Sym2.ind with
  | _ a b =>
    simp only [otherEnd, Sym2.lift_mk]
    rw [Sym2.eq_iff]
    by_cases ha : a = n
    · by_cases hb : b = n
      · simp [ha, hb]
      · simp [ha, hb]
    · by_cases hb : b = n
      · simp [ha, hb, eq_comm]
      · simp [ha, hb]

structure AttrGraph (V : Type u) (A : Type v) (B : Type w) [DecidableEq V] where
  nodes : Dict V A
  edges : Dict (Sym2 V) B
  /-- The ends of an edge are nodes. -/
  ends : ∀ e n, edges.contains e = true → n ∈ e → nodes.contains n = true

namespace AttrGraph

variable {V : Type u} {A : Type v} {B : Type w} [DecidableEq V]

def empty : AttrGraph V A B := ⟨.empty, .empty, fun _ _ he _ => by cases he⟩

def edge? (G : AttrGraph V A B) (m n : V) : Option B := G.edges.get? s(m, n)

def neighbors (G : AttrGraph V A B) (n : V) : List V :=
  G.edges.keys.filterMap (otherEnd n)

def degree (G : AttrGraph V A B) (n : V) : ℕ :=
  (G.neighbors n).length + (if (G.edge? n n).isSome then 1 else 0)

def setNode (G : AttrGraph V A B) (n : V) (a : A) : AttrGraph V A B where
  nodes := G.nodes.set n a
  edges := G.edges
  ends := fun e m he hm => by
    rw [Dict.contains_set, G.ends e m he hm, Bool.or_true]

/-- The nodes with a node that has the attributes `blank` if it is new. -/
def withNode (d : Dict V A) (blank : A) (n : V) : Dict V A :=
  if d.contains n then d else d.set n blank

lemma contains_withNode (d : Dict V A) (blank : A) (n m : V) :
    (withNode d blank n).contains m = (decide (m = n) || d.contains m) := by
  unfold withNode
  by_cases hn : d.contains n = true
  · rw [if_pos hn]
    by_cases hm : m = n
    · rw [hm, hn, Bool.or_true]
    · simp [hm]
  · rw [if_neg hn, contains_set]

lemma withNode_of_contains {d : Dict V A} {n : V} (blank : A) (h : d.contains n = true) :
    withNode d blank n = d := if_pos h

def addEdge (G : AttrGraph V A B) (blank : A) (m n : V) (b : B) : AttrGraph V A B where
  nodes := withNode (withNode G.nodes blank m) blank n
  edges := G.edges.set s(m, n) b
  ends := fun e x he hx => by
    rw [Dict.contains_set, Bool.or_eq_true, decide_eq_true_iff] at he
    rw [contains_withNode, contains_withNode]
    rcases he with he | he
    · rw [he, Sym2.mem_iff] at hx
      rcases hx with hx | hx <;> simp [hx]
    · rw [G.ends e x he hx, Bool.or_true, Bool.or_true]

def removeNode (G : AttrGraph V A B) (n : V) : AttrGraph V A B where
  nodes := G.nodes.erase n
  edges := G.edges.keep fun e => n ∉ e
  ends := fun e x he hx => by
    rw [Dict.contains, Dict.get?_keep] at he
    by_cases hn : n ∉ e
    · rw [if_pos hn] at he
      have hne : x ≠ n := fun h => hn (h ▸ hx)
      rw [Dict.contains_erase, G.ends e x he hx]
      simp [hne]
    · rw [if_neg hn] at he
      cases he

def mapNodes (G : AttrGraph V A B) (f : V → A → A) : AttrGraph V A B where
  nodes := ⟨G.nodes.entries.map fun e => (e.1, f e.1 e.2), by
    rw [map_map]
    exact G.nodes.nodup_keys⟩
  edges := G.edges
  ends := fun e n he hn => by
    rw [← Dict.mem_keys_iff]
    have hmem := (Dict.mem_keys_iff _ _).mpr (G.ends e n he hn)
    unfold Dict.keys at hmem ⊢
    rw [map_map]
    exact hmem

lemma edge?_comm (G : AttrGraph V A B) (m n : V) : G.edge? m n = G.edge? n m := by
  rw [edge?, edge?, Sym2.eq_swap]

lemma contains_of_edge? {G : AttrGraph V A B} {m n : V} {b : B} (h : G.edge? m n = some b) :
    G.nodes.contains m = true ∧ G.nodes.contains n = true := by
  have he : G.edges.contains s(m, n) = true := by
    rw [Dict.contains, show G.edges.get? s(m, n) = some b from h]
    rfl
  exact ⟨G.ends _ m he (Sym2.mem_mk_left m n), G.ends _ n he (Sym2.mem_mk_right m n)⟩

lemma mem_neighbors_iff {G : AttrGraph V A B} {n m : V} : m ∈ G.neighbors n ↔ (G.edge? n m).isSome = true := by
  unfold neighbors edge?
  rw [mem_filterMap, ← Dict.contains, ← Dict.mem_keys_iff]
  constructor
  · rintro ⟨e, he, hother⟩
    rwa [← otherEnd_eq_some_iff.mp hother]
  · intro h
    exact ⟨s(n, m), h, otherEnd_eq_some_iff.mpr rfl⟩

section

variable (G : AttrGraph V A B)
include G

lemma nodup_neighbors (n : V) : (G.neighbors n).Nodup := by
  refine Nodup.filterMap (fun e e' m he he' => ?_) G.edges.nodup_keys
  rw [otherEnd_eq_some_iff.mp he, otherEnd_eq_some_iff.mp he']

@[simp] lemma edges_setNode (n : V) (a : A) : (G.setNode n a).edges = G.edges := rfl

@[simp] lemma nodes_setNode (n : V) (a : A) : (G.setNode n a).nodes = G.nodes.set n a := rfl

@[simp] lemma edges_addEdge (blank : A) (m n : V) (b : B) :
    (G.addEdge blank m n b).edges = G.edges.set s(m, n) b := rfl

end

lemma nodes_addEdge {G : AttrGraph V A B} (blank : A) {m n : V} (b : B)
    (hm : G.nodes.contains m = true) (hn : G.nodes.contains n = true) :
    (G.addEdge blank m n b).nodes = G.nodes := by
  unfold addEdge
  simp only
  rw [withNode_of_contains blank hm, withNode_of_contains blank hn]

@[simp] lemma nodes_removeNode (G : AttrGraph V A B) (n : V) : (G.removeNode n).nodes = G.nodes.erase n := rfl

lemma get?_edges_removeNode (G : AttrGraph V A B) (n : V) (e : Sym2 V) :
    (G.removeNode n).edges.get? e = if n ∈ e then none else G.edges.get? e := by
  unfold removeNode
  rw [get?_keep]
  by_cases hn : n ∈ e <;> simp [hn]

variable {G H : AttrGraph V A B} {n : V}

lemma neighbors_perm (h : ∀ m, (H.edge? n m).isSome = (G.edge? n m).isSome) :
    (H.neighbors n).Perm (G.neighbors n) := by
  rw [perm_ext_iff_of_nodup (H.nodup_neighbors n) (G.nodup_neighbors n)]
  intro m
  rw [mem_neighbors_iff, mem_neighbors_iff, h]

lemma degree_congr (h : ∀ m, (H.edge? n m).isSome = (G.edge? n m).isSome) : H.degree n = G.degree n := by
  unfold degree
  rw [(neighbors_perm h).length_eq, h n]

lemma get?_mapNodes (G : AttrGraph V A B) (f : V → A → A) (n : V) :
    (G.mapNodes f).nodes.get? n = (G.nodes.get? n).map (f n) := by
  apply Option.ext
  intro a
  simp only [mapNodes, mem_map, Prod.mk.injEq, Prod.exists, Option.map_eq_some_iff, ← mem_entries_iff]
  constructor
  · rintro ⟨m, b, hmem, rfl, rfl⟩
    exact ⟨b, hmem, rfl⟩
  · rintro ⟨b, hmem, rfl⟩
    exact ⟨n, b, hmem, rfl, rfl⟩

@[simp] lemma edges_mapNodes (G : AttrGraph V A B) (f : V → A → A) : (G.mapNodes f).edges = G.edges := rfl

/-- The measure of the edges that satisfy `P`. -/
def weigh {M : Type x} [AddCommMonoid M] (G : AttrGraph V A B) (P : Sym2 V → Prop)
    [DecidablePred P] (μ : B → M) : M := G.edges.sum fun e b => if P e then μ b else 0

section Weigh

variable {M : Type x} [AddCommMonoid M] {G H : AttrGraph V A B} {P Q : Sym2 V → Prop}
  [DecidablePred P] [DecidablePred Q] {μ : B → M}

def share (G : AttrGraph V A B) (P : Sym2 V → Prop) [DecidablePred P] (μ : B → M)
    (e : Sym2 V) : M := if P e then (G.edges.get? e).elim 0 μ else 0

lemma elim_ite_eq_share (e : Sym2 V) :
    (G.edges.get? e).elim 0 (fun b => if P e then μ b else 0) = G.share P μ e := by
  unfold share
  by_cases h : P e <;> cases G.edges.get? e <;> simp [h]

lemma weigh_congr (h : ∀ e, H.share Q μ e = G.share P μ e) : H.weigh Q μ = G.weigh P μ := by
  refine sum_congr_get? fun e => ?_
  rw [elim_ite_eq_share, elim_ite_eq_share, h e]

lemma weigh_move {e e' : Sym2 V} (hne : e ≠ e') (hout : ∀ d, d ≠ e → d ≠ e' → H.share Q μ d = G.share P μ d)
    (hin : H.share Q μ e + H.share Q μ e' = G.share P μ e + G.share P μ e') : H.weigh Q μ = G.weigh P μ := by
  refine sum_move hne (fun d hd hd' => ?_) ?_
  · rw [elim_ite_eq_share, elim_ite_eq_share, hout d hd hd']
  · simp only [elim_ite_eq_share, hin]

lemma weigh_single {e : Sym2 V} (h : ∀ d, P d → (G.edges.get? d).isSome = true → d = e)
    (he : P e) : G.weigh P μ = (G.edges.get? e).elim 0 μ := by
  unfold weigh
  rw [← G.edges.sum_erase _ e]
  have hzero : (G.edges.erase e).sum (fun d b => if P d then μ b else 0) =
      (Dict.empty : Dict (Sym2 V) B).sum (fun _ _ => 0) := by
    refine Dict.sum_congr_get? fun d => ?_
    by_cases hd : d = e
    · rw [hd, Dict.get?_erase_self]
      rfl
    · rw [Dict.get?_erase_of_ne _ hd]
      cases hget : G.edges.get? d with
      | none => rfl
      | some b =>
        have hP : ¬ P d := fun hP => hd (h d hP (by rw [hget]; rfl))
        simp [hP, Dict.get?, Dict.empty]
  rw [hzero, Dict.sum_empty]
  cases G.edges.get? e <;> simp [he]

lemma mem_weigh_iff {α : Type x} {ν : B → SetSemiring α} {x : α} : x ∈ (G.weigh P ν).down ↔
      ∃ e b, G.edges.get? e = some b ∧ P e ∧ x ∈ (ν b).down := by
  have hsum : ∀ l : List (SetSemiring α), x ∈ l.sum.down ↔ ∃ s ∈ l, x ∈ s.down := by
    intro l
    induction l with
    | nil => simp
    | cons s rest ih => simp [ih]
  unfold weigh Dict.sum
  rw [hsum]
  constructor
  · rintro ⟨s, hs, hx⟩
    obtain ⟨⟨e, b⟩, hmem, rfl⟩ := mem_map.mp hs
    simp only at hx
    by_cases hP : P e
    · rw [if_pos hP] at hx
      exact ⟨e, b, (G.edges.mem_entries_iff e b).mp hmem, hP, hx⟩
    · rw [if_neg hP] at hx
      cases hx
  · rintro ⟨e, b, hget, hP, hx⟩
    refine ⟨_, mem_map.mpr ⟨(e, b), (G.edges.mem_entries_iff e b).mpr hget, rfl⟩, ?_⟩
    simp only
    rw [if_pos hP]
    exact hx

end Weigh

end AttrGraph

end CustomAi
