import Mathlib.Data.List.Sort
import CustomAi.Lib.AttrGraph
import CustomAi.Lib.Run

/-!
# Merging the entities of a knowledge graph

`Extractor._merge_graph_nodes`, one task for each list of nodes, on a graph that the tasks share.
-/

namespace CustomAi.Ragflow

variable {V S W ι : Type}

/-- A description is the list of its parts between `GRAPH_FIELD_SEP`. -/
structure EntityAttrs (S : Type) where
  entity_type : S
  description : List S
  source_id : List S
deriving DecidableEq

/-- The attributes of a node; `entity` is `none` in a node that was added without any. -/
structure NodeAttrs (S : Type) where
  rank : Option ℕ
  entity : Option (EntityAttrs S)
deriving DecidableEq

structure EdgeAttrs (S W : Type) where
  weight : W
  description : List S
  keywords : List S
  source_id : List S
deriving DecidableEq

/-- A graph of entities; the attributes of an edge are `none` if it has no attributes at all. -/
abbrev Graph (V S W : Type) [DecidableEq V] := AttrGraph V (NodeAttrs S) (Option (EdgeAttrs S W))

structure GraphChange (V : Type) where
  removed_nodes : Finset V
  added_updated_nodes : Finset V
  removed_edges : Finset (V × V)
  added_updated_edges : Finset (V × V)
deriving DecidableEq

def GraphChange.empty : GraphChange V := ⟨∅, ∅, ∅, ∅⟩

/-- `dict.update` of the attributes of a node. -/
def NodeAttrs.update (old new : NodeAttrs S) : NodeAttrs S :=
  ⟨new.rank <|> old.rank, new.entity <|> old.entity⟩

def get_from_to [LinearOrder V] (node1 node2 : V) : V × V :=
  if node1 < node2 then (node1, node2) else (node2, node1)

/-- `sorted(set(l))`. -/
def sorted_set [LinearOrder S] (l : List S) : List S := l.dedup.insertionSort (· ≤ ·)

/-- `graph.add_edge(m, n, **attrs)`. -/
def add_edge [DecidableEq V] (G : Graph V S W) (m n : V) (attrs : Option (EdgeAttrs S W)) :
    Graph V S W :=
  G.addEdge ⟨none, none⟩ m n (attrs <|> (G.edge? m n).join)

/-- The description and the sources of `node1` are added to those of `node0`. -/
def EntityAttrs.absorb [LinearOrder S] (node0 node1 : EntityAttrs S) : EntityAttrs S :=
  { node0 with
    description := node0.description ++ node1.description
    source_id := sorted_set (node0.source_id ++ node1.source_id) }

/-- The attributes of `edge1` are added to those of `edge0`. -/
def EdgeAttrs.absorb [LinearOrder S] [Add W] (edge0 edge1 : EdgeAttrs S W) : EdgeAttrs S W where
  weight := edge0.weight + edge1.weight
  description := edge0.description ++ edge1.description
  keywords := sorted_set (edge0.keywords ++ edge1.keywords)
  source_id := sorted_set (edge0.source_id ++ edge1.source_id)

/-- The description itself, cut to the token limit; `none` if the model has to summarise it. -/
def handle_entity_relation_summary (truncate : List S → List S) (description : List S) :
    Option (List S) :=
  if (truncate description).length ≤ 12 then some (truncate description) else none

/-- The variables a task sets before its loop. `node0_attrs` is `none` as long as they are those in
the graph. -/
structure Locals (V S : Type) where
  node0 : V
  nodes : List V
  node0_neighbors : List V
  node0_attrs : Option (NodeAttrs S)
deriving DecidableEq

/-- The iterator over the neighbours of `node1`: how many there were, and which were visited. -/
structure Cursor (V : Type) where
  node1 : V
  size : ℕ
  visited : List V
deriving DecidableEq

/-- How far a task has come. In `summarising` and `concluding` it waits for the model. -/
inductive MergePhase (V S W : Type)
  | waiting
  | merging (L : Locals V S) (rest : List V)
  | visiting (L : Locals V S) (rest : List V) (c : Cursor V)
  | summarising (L : Locals V S) (rest : List V) (c : Cursor V) (neighbor : V)
      (edge0_attrs : Option (EdgeAttrs S W))
  | concluding (L : Locals V S)
  | finished
  | raised
deriving DecidableEq

structure MergeState (ι V S W : Type) [DecidableEq V] where
  graph : Graph V S W
  change : GraphChange V
  phase : ι → MergePhase V S W
  /-- The task that has not yet come to a point where it waits. -/
  running : Option ι

namespace Locals

variable [DecidableEq V]

/-- The value of `node0_attrs`. -/
def attrs (L : Locals V S) (G : Graph V S W) : Option (NodeAttrs S) :=
  L.node0_attrs <|> G.nodes.get? L.node0

/-- `node0_attrs` is changed in place. -/
def write (L : Locals V S) (G : Graph V S W) (a : NodeAttrs S) : Graph V S W × Locals V S :=
  match L.node0_attrs with
  | none => (G.setNode L.node0 a, L)
  | some _ => (G, { L with node0_attrs := some a })

/-- The node `n` is taken out of the graph. -/
def detach (L : Locals V S) (G : Graph V S W) (n : V) : Locals V S :=
  if L.node0 = n then { L with node0_attrs := L.attrs G } else L

end Locals

/-- What a task still refers to when the node `n` is taken out of the graph. -/
def MergePhase.detach [DecidableEq V] (G : Graph V S W) (n : V) :
    MergePhase V S W → MergePhase V S W
  | .waiting => .waiting
  | .merging L rest => .merging (L.detach G n) rest
  | .visiting L rest c => .visiting (L.detach G n) rest c
  | .summarising L rest c neighbor edge0_attrs =>
    .summarising (L.detach G n) rest c neighbor
      (if n = L.node0 ∨ n = neighbor then edge0_attrs <|> (G.edge? L.node0 neighbor).join
        else edge0_attrs)
  | .concluding L => .concluding (L.detach G n)
  | .finished => .finished
  | .raised => .raised

namespace MergeState

variable [LinearOrder V] [LinearOrder S] [Add W] [DecidableEq ι]

/-- Task `i` goes on in phase `p`. -/
def goOn (s : MergeState ι V S W) (i : ι) (p : MergePhase V S W) : MergeState ι V S W :=
  { s with phase := Function.update s.phase i p, running := some i }

/-- Task `i` stops in phase `p`, which ends it or lets it wait. -/
def stop (s : MergeState ι V S W) (i : ι) (p : MergePhase V S W) : MergeState ι V S W :=
  { s with phase := Function.update s.phase i p, running := none }

def begin (lists : ι → List V) (s : MergeState ι V S W) (i : ι) : MergeState ι V S W :=
  match lists i with
  | [] => s.stop i .finished
  | [_] => s.stop i .finished
  | node0 :: node1 :: rest =>
    let s' := { s with change := { s.change with
      added_updated_nodes := insert node0 s.change.added_updated_nodes
      removed_nodes := s.change.removed_nodes ∪ (node1 :: rest).toFinset } }
    match s.graph.nodes.get? node0 with
    | none => s'.stop i .raised
    | some _ =>
      s'.goOn i (.merging ⟨node0, lists i, s.graph.neighbors node0, none⟩ (node1 :: rest))

/-- `graph.nodes[nodes[0]].update(node0_attrs)` with the new description. -/
def storeNode0 (s : MergeState ι V S W) (i : ι) (L : Locals V S) (description : List S) :
    MergeState ι V S W :=
  match L.attrs s.graph, s.graph.nodes.get? L.node0 with
  | some ⟨rank, some e⟩, some old =>
    { s with
      graph := s.graph.setNode L.node0
        (old.update ⟨rank, some { e with description := description }⟩) }.stop i .finished
  | _, _ => s.stop i .raised

/-- The head of the loop over `nodes[1:]`. -/
def nextNode (truncate : List S → List S) (s : MergeState ι V S W) (i : ι) (L : Locals V S) :
    List V → MergeState ι V S W
  | [] =>
    match L.attrs s.graph with
    | some ⟨_, some e⟩ =>
      match handle_entity_relation_summary truncate e.description with
      | some description => s.storeNode0 i L description
      | none => s.stop i (.concluding L)
    | _ => s.stop i .raised
  | node1 :: rest =>
    match L.attrs s.graph, s.graph.nodes.get? node1 with
    | some ⟨rank, some e⟩, some ⟨_, some e'⟩ =>
      let written := L.write s.graph ⟨rank, some (e.absorb e')⟩
      { s with graph := written.1 }.goOn i
        (.visiting written.2 rest ⟨node1, (s.graph.neighbors node1).length, []⟩)
    | _, _ => s.stop i .raised

/-- `graph.remove_node(node1)`. -/
def removeNode1 (s : MergeState ι V S W) (i : ι) (L : Locals V S) (rest : List V) (c : Cursor V) :
    MergeState ι V S W :=
  if s.graph.nodes.contains c.node1 then
    { s with
      graph := s.graph.removeNode c.node1
      phase := fun j => (s.phase j).detach s.graph c.node1 }.goOn i
        (.merging (L.detach s.graph c.node1) rest)
  else s.stop i .raised

/-- The body of the loop over the neighbours of `node1`. -/
def visitNeighbor (truncate : List S → List S) (s : MergeState ι V S W) (i : ι) (L : Locals V S)
    (rest : List V) (c : Cursor V) (neighbor : V) : MergeState ι V S W :=
  let s := { s with change := { s.change with
    removed_edges := insert (get_from_to c.node1 neighbor) s.change.removed_edges } }
  let c' := { c with visited := c.visited ++ [neighbor] }
  if neighbor ∈ L.nodes then s.goOn i (.visiting L rest c')
  else if neighbor ∈ L.node0_neighbors then
    let s := { s with change := { s.change with
      added_updated_edges := insert (get_from_to L.node0 neighbor) s.change.added_updated_edges } }
    match s.graph.edge? L.node0 neighbor, s.graph.edge? c.node1 neighbor with
    | some (some edge0), some (some edge1) =>
      let edge0 := edge0.absorb edge1
      match handle_entity_relation_summary truncate edge0.description with
      | some description =>
        { s with
          graph := add_edge s.graph L.node0 neighbor
            (some { edge0 with description := description }) }.goOn i (.visiting L rest c')
      | none =>
        { s with graph := add_edge s.graph L.node0 neighbor (some edge0) }.stop i
          (.summarising L rest c' neighbor none)
    | _, _ => s.stop i .raised
  else
    match s.graph.edge? c.node1 neighbor with
    | some edge1_attrs =>
      { s with graph := add_edge s.graph L.node0 neighbor edge1_attrs }.goOn i (.visiting L rest c')
    | none => s.stop i .raised

def nextNeighbor (G : Graph V S W) (c : Cursor V) : Option V :=
  (G.neighbors c.node1).find? fun n => n ∉ c.visited

/-- The head of the loop; the iterator raises when the number of neighbours has changed. -/
def nextVisit (truncate : List S → List S) (s : MergeState ι V S W) (i : ι) (L : Locals V S)
    (rest : List V) (c : Cursor V) : MergeState ι V S W :=
  if (s.graph.neighbors c.node1).length ≠ c.size then s.stop i .raised
  else
    match nextNeighbor s.graph c with
    | none => s.removeNode1 i L rest c
    | some neighbor =>
      if c.visited.length = c.size then s.stop i .raised
      else s.visitNeighbor truncate i L rest c neighbor

def storeEdge0 (s : MergeState ι V S W) (i : ι) (L : Locals V S) (rest : List V) (c : Cursor V)
    (neighbor : V) (edge0_attrs : Option (EdgeAttrs S W)) (description : List S) :
    MergeState ι V S W :=
  match edge0_attrs <|> (s.graph.edge? L.node0 neighbor).join with
  | some edge0 =>
    { s with
      graph := add_edge s.graph L.node0 neighbor
        (some { edge0 with description := description }) }.goOn i (.visiting L rest c)
  | none => s.stop i .raised

def initial (G : Graph V S W) : MergeState ι V S W := ⟨G, .empty, fun _ => .waiting, none⟩

end MergeState

/-- Start a task, let it come to its next loop head, hand it a summary. -/
inductive Action (ι S : Type)
  | start (i : ι)
  | tick
  | resume (i : ι) (summary : List S)

inductive Disabled
  | disabled
deriving DecidableEq

/-- The tasks `_merge_graph_nodes(graph, lists i, change)` on the event loop. -/
def merge_graph_nodes [LinearOrder V] [LinearOrder S] [Add W] [DecidableEq ι]
    (lists : ι → List V) (truncate : List S → List S) (s : MergeState ι V S W) :
    Action ι S → Except Disabled (MergeState ι V S W)
  | .start i =>
    match s.running, s.phase i with
    | none, .waiting => .ok (s.begin lists i)
    | _, _ => .error .disabled
  | .tick =>
    match s.running with
    | none => .error .disabled
    | some i =>
      match s.phase i with
      | .merging L rest => .ok (s.nextNode truncate i L rest)
      | .visiting L rest c => .ok (s.nextVisit truncate i L rest c)
      | _ => .error .disabled
  | .resume i summary =>
    match s.running, s.phase i with
    | none, .summarising L rest c neighbor edge0_attrs =>
      .ok (s.storeEdge0 i L rest c neighbor edge0_attrs summary)
    | none, .concluding L => .ok (s.storeNode0 i L summary)
    | _, _ => .error .disabled

end CustomAi.Ragflow

/-!
## What holds while entities are merged

The tasks are undisturbed if none begins to merge a neighbour of a node that another one is merging,
and no edge is added over an existing one.
-/

namespace CustomAi.Ragflow

variable {V S W ι : Type}

namespace MergePhase

def locals : MergePhase V S W → Option (Locals V S)
  | .merging L _ | .visiting L _ _ | .summarising L _ _ _ _ | .concluding L => some L
  | _ => none

def cursor : MergePhase V S W → Option (Cursor V)
  | .visiting _ _ c | .summarising _ _ c _ _ => some c
  | _ => none

def pending (nodes : List V) : MergePhase V S W → List V
  | .waiting => nodes.tail
  | .merging _ rest => rest
  | .visiting _ rest c | .summarising _ rest c _ _ => c.node1 :: rest
  | _ => []

end MergePhase

section Conditions

variable [LinearOrder V] [LinearOrder S]

def Untouched (s : MergeState ι V S W) (i : ι) : MergePhase V S W → Prop
  | .merging _ (node1 :: _) =>
    ∀ j, j ≠ i → ∀ c ∈ (s.phase j).cursor, s.graph.edge? node1 c.node1 = none
  | .visiting L _ c => ∀ n ∈ MergeState.nextNeighbor s.graph c,
    n ∉ L.nodes → n ∉ L.node0_neighbors → s.graph.edge? L.node0 n = none
  | _ => True

/-- No task merges a node next to one that is being merged, and no edge is added over an existing
one. -/
def Undisturbed (s : MergeState ι V S W) : Action ι S → Prop
  | .tick => ∀ i ∈ s.running, Untouched s i (s.phase i)
  | _ => True

instance [Fintype ι] [DecidableEq ι] [DecidableEq W] (s : MergeState ι V S W) (i : ι) :
    (p : MergePhase V S W) → Decidable (Untouched s i p)
  | .merging _ (node1 :: _) => inferInstanceAs (Decidable
      (∀ j, j ≠ i → ∀ c ∈ (s.phase j).cursor, s.graph.edge? node1 c.node1 = none))
  | .visiting L _ c => inferInstanceAs (Decidable (∀ n ∈ MergeState.nextNeighbor s.graph c,
      n ∉ L.nodes → n ∉ L.node0_neighbors → s.graph.edge? L.node0 n = none))
  | .merging _ [] => .isTrue trivial
  | .waiting => .isTrue trivial
  | .summarising .. => .isTrue trivial
  | .concluding _ => .isTrue trivial
  | .finished => .isTrue trivial
  | .raised => .isTrue trivial

instance [Fintype ι] [DecidableEq ι] [DecidableEq W] (s : MergeState ι V S W) :
    (a : Action ι S) → Decidable (Undisturbed s a)
  | .tick => inferInstanceAs (Decidable (∀ i ∈ s.running, Untouched s i (s.phase i)))
  | .start _ => .isTrue trivial
  | .resume _ _ => .isTrue trivial

/-- Disjoint lists of nodes of the graph, one for each task. -/
structure Family (lists : ι → List V) (G : Graph V S W) : Prop where
  nodup : ∀ i, (lists i).Nodup
  disjoint : ∀ i j, i ≠ j → List.Disjoint (lists i) (lists j)
  nodes : ∀ i, ∀ v ∈ lists i, G.nodes.contains v = true

/-- All nodes and edges have their attributes. -/
structure Attributed (G : Graph V S W) : Prop where
  nodes : ∀ v a, G.nodes.get? v = some a → a.entity.isSome = true
  edges : ∀ e b, G.edges.get? e = some b → b.isSome = true

open scoped Classical in
/-- The node that stands for `v` in the end. -/
noncomputable def representative (lists : ι → List V) (v : V) : V :=
  if h : ∃ i, v ∈ lists i then (lists h.choose).headD v else v

end Conditions

section Family

variable [LinearOrder V] {lists : ι → List V} {G : Graph V S W} {i j : ι} {v r : V}

section

variable (h : Family lists G)
include h

lemma Family.eq_of_mem (hi : v ∈ lists i) (hj : v ∈ lists j) : i = j := by
  by_contra hne
  exact h.disjoint i j hne hi hj

variable {tail : List V}

lemma Family.ne_of_mem_tail (hi : lists i = r :: tail) (hj : v ∈ (lists j).tail) : r ≠ v := by
  rintro rfl
  have hij : i = j := h.eq_of_mem (by rw [hi]; exact List.mem_cons_self) (List.mem_of_mem_tail hj)
  have hnd := h.nodup i
  rw [← hij, hi] at hj
  rw [hi, List.nodup_cons] at hnd
  exact hnd.1 hj

lemma Family.representative_eq (hi : lists i = r :: tail) (hv : v ∈ lists i) : representative lists v = r := by
  have hex : ∃ i, v ∈ lists i := ⟨i, hv⟩
  have hchoose : hex.choose = i := h.eq_of_mem hex.choose_spec hv
  rw [representative, dif_pos hex, hchoose, hi]
  rfl

lemma Family.representative_self (hv : ∀ i, v ∉ (lists i).tail) : representative lists v = v := by
  by_cases hex : ∃ i, v ∈ lists i
  · obtain ⟨i, hi⟩ := hex
    cases hl : lists i with
    | nil =>
      rw [hl] at hi
      cases hi
    | cons r tail =>
      have hr : v = r := by
        rw [hl, List.mem_cons] at hi
        refine hi.resolve_right fun htail => hv i ?_
        rw [hl]
        exact htail
      rw [h.representative_eq hl hi, hr]
  · rw [representative, dif_neg hex]

end

end Family

section Invariant

variable [LinearOrder V] [LinearOrder S] [AddCommMonoid W]

structure Additive {M : Type} [AddCommMonoid M] (μ : Option (EdgeAttrs S W) → M) : Prop where
  absorb : ∀ edge0 edge1 : EdgeAttrs S W, μ (some (edge0.absorb edge1)) = μ (some edge0) + μ (some edge1)
  description : ∀ (edge : EdgeAttrs S W) description,
    μ (some { edge with description := description }) = μ (some edge)

def Live (phase : ι → MergePhase V S W) (e : Sym2 V) : Prop :=
  ∀ i c, (phase i).cursor = some c → ∀ x ∈ c.visited, e ≠ s(c.node1, x)

def Between (lists : ι → List V) (r r' : V) (e : Sym2 V) : Prop :=
  e.map (representative lists) = s(r, r')

/-- What holds for a task in phase `p` that merges the list `nodes`. -/
structure TaskOk (nodes : List V) (G : Graph V S W) (p : MergePhase V S W) : Prop where
  not_raised : p ≠ .raised
  locals : ∀ L, p.locals = some L → L.nodes = nodes ∧ L.node0_attrs = none ∧ (∃ tail, nodes = L.node0 :: tail) ∧
    ∀ x ∈ L.node0_neighbors, G.nodes.contains x = true → (G.edge? L.node0 x).isSome = true
  pending : p.pending nodes <:+ nodes.tail
  cursor : ∀ c, p.cursor = some c → c.size = (G.neighbors c.node1).length ∧ c.visited.Nodup ∧
    ∀ x ∈ c.visited, (G.edge? c.node1 x).isSome = true
  awaiting : ∀ L rest c neighbor edge0_attrs, p = .summarising L rest c neighbor edge0_attrs →
    edge0_attrs = none ∧ neighbor ∈ c.visited ∧ neighbor ∉ nodes ∧ (G.edge? L.node0 neighbor).isSome = true

open scoped Classical in
structure Merging (lists : ι → List V) (G₀ : Graph V S W) (s : MergeState ι V S W) : Prop where
  task : ∀ i, TaskOk (lists i) s.graph (s.phase i)
  attributed : Attributed s.graph
  nodes : ∀ v, s.graph.nodes.contains v = true ↔ G₀.nodes.contains v = true ∧
    ∀ i, v ∈ (lists i).tail → v ∈ (s.phase i).pending (lists i)
  apart : ∀ i j c c', i ≠ j → (s.phase i).cursor = some c → (s.phase j).cursor = some c' →
    s.graph.edge? c.node1 c'.node1 = none
  measure : ∀ (M : Type) [AddCommMonoid M] (μ : Option (EdgeAttrs S W) → M), Additive μ → ∀ r r', r ≠ r' →
      s.graph.weigh (fun e => Between lists r r' e ∧ Live s.phase e) μ = G₀.weigh (Between lists r r') μ

end Invariant

end CustomAi.Ragflow
