import CustomAi.Ragflow.EntityMerge

/-!
# The search index of a knowledge graph

`graph_merge` adds the graph of a document to the knowledge graph, `set_graph` writes what a
`GraphChange` records to the document store.
-/

namespace CustomAi.Ragflow

open List

variable {V S W : Type}

structure KnowledgeGraph (V S W : Type) [DecidableEq V] where
  graph : Graph V S W
  source_id : Option (List S)

section Merge

variable [LinearOrder V]

lemma get_from_to_comm (m n : V) : get_from_to m n = get_from_to n m := by
  unfold get_from_to
  rcases lt_trichotomy m n with h | rfl | h
  · rw [if_pos h, if_neg h.asymm]
  · rfl
  · rw [if_neg h.asymm, if_pos h]

/-- The ends of an edge in the order of `get_from_to`. -/
def orient : Sym2 V → V × V := Sym2.lift ⟨get_from_to, get_from_to_comm⟩

/-- `graph.edges(data=True)`. -/
def edgesData (G : Graph V S W) : List ((V × V) × Option (EdgeAttrs S W)) :=
  G.edges.entries.map fun p => (orient p.1, p.2)

/-- A node of the second graph is added to the first one; `none` stands for a missing key. -/
def mergeNode (G : Graph V S W) (node_name : V) (attr : NodeAttrs S) : Option (Graph V S W) :=
  match G.nodes.get? node_name with
  | none => some (G.setNode node_name attr)
  | some node =>
    match node.entity, attr.entity with
    | some e, some e' => some (G.setNode node_name { node with
        entity := some { e with
          description := e.description ++ e'.description
          source_id := e.source_id ++ e'.source_id } })
    | _, _ => none

def mergeNodes (G : Graph V S W) (change : GraphChange V) :
    List (V × NodeAttrs S) → Option (Graph V S W × GraphChange V)
  | [] => some (G, change)
  | (node_name, attr) :: rest => do
    let G' ← mergeNode G node_name attr
    mergeNodes G' { change with added_updated_nodes := insert node_name change.added_updated_nodes } rest

def mergeEdge [Add W] (G : Graph V S W) (source target : V) (attr : Option (EdgeAttrs S W)) :
    Option (Graph V S W) :=
  match G.edge? source target with
  | none => some (add_edge G source target attr)
  | some edge =>
    match edge, attr with
    | some edge, some attr => some (add_edge G source target (some
        { weight := edge.weight + attr.weight
          description := edge.description ++ attr.description
          keywords := edge.keywords ++ attr.keywords
          source_id := edge.source_id ++ attr.source_id }))
    | _, _ => none

def mergeEdges [Add W] (G : Graph V S W) (change : GraphChange V) :
    List ((V × V) × Option (EdgeAttrs S W)) → Option (Graph V S W × GraphChange V)
  | [] => some (G, change)
  | ((source, target), attr) :: rest => do
    let G' ← mergeEdge G source target attr
    mergeEdges G' { change with
      added_updated_edges := insert (get_from_to source target) change.added_updated_edges } rest

def rankNodes (G : Graph V S W) : Graph V S W :=
  G.mapNodes fun n a => { a with rank := some (G.degree n) }

def graph_merge [Add W] (g1 g2 : KnowledgeGraph V S W) (change : GraphChange V) :
    Option (KnowledgeGraph V S W × GraphChange V) := do
  let (G, change) ← mergeNodes g1.graph change g2.graph.nodes.entries
  let (G, change) ← mergeEdges G change (edgesData g2.graph)
  some (⟨rankNodes G, some (g1.source_id.getD [] ++ g2.source_id.getD [])⟩, change)

end Merge

/-- A record of the document store; what is computed from a name and attributes is left to them. -/
inductive Chunk (V S W : Type) [DecidableEq V]
  | graph (content_with_weight : KnowledgeGraph V S W) (source_id : List S)
  | subgraph (content_with_weight : KnowledgeGraph V S W) (source_id : List S)
  | entity (entity_kwd : V) (content_with_weight : NodeAttrs S)
  | relation (from_entity_kwd to_entity_kwd : V)
      (content_with_weight : Option (EdgeAttrs S W))

abbrev Store (V S W : Type) [DecidableEq V] := Multiset (Chunk V S W)

section Index

variable [DecidableEq V]

def Chunk.isGraph : Chunk V S W → Bool
  | .graph .. | .subgraph .. => true
  | _ => false

def Chunk.entity? : Chunk V S W → Option V
  | .entity entity_kwd _ => some entity_kwd
  | _ => none

def Chunk.relation? : Chunk V S W → Option (V × V)
  | .relation from_entity_kwd to_entity_kwd _ => some (from_entity_kwd, to_entity_kwd)
  | _ => none

/-- The deletions of `set_graph`. -/
def deleteChanged (store : Store V S W) (change : GraphChange V) : Store V S W :=
  store.filter fun chunk => ¬ (chunk.isGraph = true ∨ (∃ n ∈ chunk.entity?, n ∈ change.removed_nodes) ∨
      ∃ p ∈ chunk.relation?, p ∈ change.removed_edges)

/-- `graph.subgraph(..).copy()` of the nodes that come from `source`. -/
def sourceGraph [DecidableEq S] (G : Graph V S W) (source : S) : Graph V S W :=
  let others := G.nodes.entries.filter fun p => source ∉ (p.2.entity.elim [] (·.source_id))
  ((others.map Prod.fst).foldl AttrGraph.removeNode G).mapNodes fun _ a =>
    { a with entity := a.entity.map fun e => { e with source_id := [source] } }

/-- The graph itself and one subgraph for each of its sources; a node without sources raises. -/
def graphChunks [DecidableEq S] (g : KnowledgeGraph V S W) : Option (List (Chunk V S W)) := do
  let sources ← g.source_id
  if sources = [] ∨ ∀ p ∈ g.graph.nodes.entries, p.2.entity.isSome then
    some (.graph g sources :: sources.map fun source =>
      .subgraph ⟨sourceGraph g.graph source, some [source]⟩ [source])
  else none

/-- `graph_node_to_chunk`; a node that is missing or has no attributes raises. -/
def nodeChunk (G : Graph V S W) (n : V) : Option (Chunk V S W) := do
  let attrs ← G.nodes.get? n
  let _ ← attrs.entity
  some (.entity n attrs)

/-- `graph_edge_to_chunk`; an edge that is missing or has no attributes is skipped. -/
def edgeChunk (G : Graph V S W) (p : V × V) : Option (Chunk V S W) := do
  let attrs ← G.edge? p.1 p.2
  let edge_attrs ← attrs
  some (.relation p.1 p.2 (some edge_attrs))

/-- The store after `set_graph(graph, change)`, if nothing raises and every insertion succeeds. -/
def set_graph [DecidableEq S] (store : Store V S W) (g : KnowledgeGraph V S W)
    (change : GraphChange V) : Option (Store V S W) := do
  let chunks ← graphChunks g
  if ∀ n ∈ change.added_updated_nodes, (nodeChunk g.graph n).isSome then
    some (deleteChanged store change + chunks + change.added_updated_nodes.val.filterMap (nodeChunk g.graph) +
      change.added_updated_edges.val.filterMap (edgeChunk g.graph))
  else none

end Index

/-- A change of the knowledge graph: another graph is merged in, or a list of nodes is merged. -/
inductive GraphStep (V S W : Type) [DecidableEq V]
  | merge (subgraph : KnowledgeGraph V S W)
  | merge_nodes (nodes : List V)

/-- One change of the knowledge graph with the `set_graph` that follows it. -/
inductive Indexed [LinearOrder V] [LinearOrder S] [Add W] (truncate : List S → List S) :
    KnowledgeGraph V S W × Store V S W → GraphStep V S W → KnowledgeGraph V S W × Store V S W → Prop
  | merge {g subgraph g' : KnowledgeGraph V S W} {change : GraphChange V}
      {store store' : Store V S W} : graph_merge g subgraph .empty = some (g', change) →
      set_graph store g' change = some store' → Indexed truncate (g, store) (.merge subgraph) (g', store')
  | merge_nodes {g : KnowledgeGraph V S W} {nodes : List V} {s : MergeState Unit V S W}
      {store store' : Store V S W} :
      Reaches (merge_graph_nodes (fun _ => nodes) truncate) (fun _ _ => True)
        (MergeState.initial g.graph) s →
      s.phase () = .finished → set_graph store ⟨s.graph, g.source_id⟩ s.change = some store' →
      Indexed truncate (g, store) (.merge_nodes nodes) (⟨s.graph, g.source_id⟩, store')

end CustomAi.Ragflow

/-!
## When merging a graph keeps the index exact

The index mirrors a graph if it has one record for each node and edge and no others.
-/

namespace CustomAi.Ragflow

open List

variable {V S W : Type}

section Store

variable [DecidableEq V]

omit [DecidableEq V] in
lemma filter_filterMap_val {κ C : Type} [DecidableEq κ] {f : κ → Option C} {key : C → Option κ}
    (hkey : ∀ k c, f k = some c → key c = some k) (s : Finset κ) (k : κ) :
    (s.val.filterMap f).filter (fun c => key c = some k) = if k ∈ s then (f k).elim 0 fun c => {c} else 0 := by
  induction s using Finset.induction_on with
  | empty => rfl
  | insert a s ha ih =>
    rw [Finset.insert_val_of_notMem ha]
    cases hf : f a with
    | none =>
      rw [Multiset.filterMap_cons_none _ _ hf, ih]
      by_cases hk : k = a
      · rw [hk, if_neg ha, if_pos (Finset.mem_insert_self a s), hf]
        rfl
      · simp [hk]
    | some c =>
      rw [Multiset.filterMap_cons_some _ _ _ hf]
      by_cases hk : k = a
      · rw [if_neg (hk ▸ ha)] at ih
        rw [Multiset.filter_cons_of_pos _ (hk ▸ hkey a c hf), ih, hk, if_pos (Finset.mem_insert_self a s), hf]
        rfl
      · have hne : ¬ key c = some k := by
          rw [hkey a c hf]
          exact fun he => hk (Option.some.inj he).symm
        rw [Multiset.filter_cons_of_neg (p := fun c => key c = some k) _ hne, ih]
        simp [hk]

variable {store store' : Store V S W} {g : KnowledgeGraph V S W} {change : GraphChange V}

lemma nodeChunk_eq_some {G : Graph V S W} {n : V} {chunk : Chunk V S W} (h : nodeChunk G n = some chunk) :
    ∃ attrs, G.nodes.get? n = some attrs ∧ chunk = .entity n attrs := by
  unfold nodeChunk at h
  cases hn : G.nodes.get? n with
  | none => simp [hn] at h
  | some attrs =>
    cases he : attrs.entity with
    | none => simp [hn, he] at h
    | some e =>
      simp only [hn, he, Option.bind_eq_bind, Option.bind_some, Option.some.injEq] at h
      exact ⟨attrs, rfl, h.symm⟩

lemma edgeChunk_eq_some {G : Graph V S W} {p : V × V} {chunk : Chunk V S W} (h : edgeChunk G p = some chunk) :
    ∃ edge, G.edge? p.1 p.2 = some (some edge) ∧ chunk = .relation p.1 p.2 (some edge) := by
  unfold edgeChunk at h
  cases hp : G.edge? p.1 p.2 with
  | none => simp [hp] at h
  | some attrs =>
    cases attrs with
    | none => simp [hp] at h
    | some edge =>
      simp only [hp, Option.bind_eq_bind, Option.bind_some, Option.some.injEq] at h
      exact ⟨edge, rfl, h.symm⟩

lemma entity?_of_nodeChunk {G : Graph V S W} (n : V) (chunk : Chunk V S W)
    (h : nodeChunk G n = some chunk) : chunk.entity? = some n := by
  obtain ⟨attrs, -, rfl⟩ := nodeChunk_eq_some h
  rfl

lemma relation?_of_edgeChunk {G : Graph V S W} (p : V × V) (chunk : Chunk V S W)
    (h : edgeChunk G p = some chunk) : chunk.relation? = some p := by
  obtain ⟨edge, -, rfl⟩ := edgeChunk_eq_some h
  rfl

lemma isGraph_of_mem_graphChunks [DecidableEq S] {chunks : List (Chunk V S W)}
    (h : graphChunks g = some chunks) : ∀ chunk ∈ chunks, chunk.isGraph = true := by
  unfold graphChunks at h
  cases hs : g.source_id with
  | none => simp [hs] at h
  | some sources =>
    simp only [hs, Option.bind_eq_bind, Option.bind_some] at h
    split at h
    · cases h
      intro chunk hmem
      rcases mem_cons.mp hmem with rfl | hmem
      · rfl
      · obtain ⟨source, -, rfl⟩ := mem_map.mp hmem
        rfl
    · cases h

lemma set_graph_eq [DecidableEq S] (h : set_graph store g change = some store') :
    ∃ chunks : List (Chunk V S W), (∀ chunk ∈ chunks, chunk.isGraph = true) ∧
      (∀ n ∈ change.added_updated_nodes, (nodeChunk g.graph n).isSome = true) ∧
      store' = deleteChanged store change + chunks + change.added_updated_nodes.val.filterMap (nodeChunk g.graph) +
        change.added_updated_edges.val.filterMap (edgeChunk g.graph) := by
  unfold set_graph at h
  cases hc : graphChunks g with
  | none => simp [hc] at h
  | some chunks =>
    simp only [hc, Option.bind_eq_bind, Option.bind_some] at h
    split at h
    · rename_i hall
      exact ⟨chunks, isGraph_of_mem_graphChunks hc, hall, (Option.some.inj h).symm⟩
    · cases h

/-- What is left of the records that are all removed or all kept. -/
lemma filter_set_graph [DecidableEq S] (h : set_graph store g change = some store')
    (q : Chunk V S W → Prop) [DecidablePred q] (removed : Prop) [Decidable removed]
    (hq : ∀ chunk, q chunk → chunk.isGraph = false ∧ (((∃ n ∈ chunk.entity?, n ∈ change.removed_nodes) ∨
      ∃ p ∈ chunk.relation?, p ∈ change.removed_edges) ↔ removed)) :
    store'.filter q = (if removed then 0 else store.filter q) +
      (change.added_updated_nodes.val.filterMap (nodeChunk g.graph)).filter q +
      (change.added_updated_edges.val.filterMap (edgeChunk g.graph)).filter q := by
  obtain ⟨chunks, hgraph, -, rfl⟩ := set_graph_eq h
  have hchunks : (chunks : Store V S W).filter q = 0 := by
    rw [Multiset.filter_eq_nil]
    intro chunk hmem hc
    exact Bool.false_ne_true ((hq chunk hc).1.symm.trans (hgraph chunk hmem))
  have hdelete : (deleteChanged store change).filter q = if removed then 0 else store.filter q := by
    unfold deleteChanged
    rw [Multiset.filter_filter]
    split
    · next hr =>
      rw [Multiset.filter_eq_nil]
      rintro chunk - ⟨hc, hkeep⟩
      exact hkeep (.inr ((hq chunk hc).2.mpr hr))
    · next hr =>
      refine Multiset.filter_congr fun chunk _ => ⟨fun hc => hc.1, fun hc => ⟨hc, ?_⟩⟩
      rw [(hq chunk hc).1, (hq chunk hc).2]
      simpa using hr
  rw [Multiset.filter_add, Multiset.filter_add, Multiset.filter_add, hdelete, hchunks, add_zero]

lemma set_graph_entities [DecidableEq S] (h : set_graph store g change = some store') (n : V) :
    store'.filter (fun chunk => chunk.entity? = some n) = (if n ∈ change.removed_nodes then 0 else
        store.filter fun chunk => chunk.entity? = some n) +
      (if n ∈ change.added_updated_nodes then (nodeChunk g.graph n).elim 0 fun c => {c} else 0) := by
  rw [filter_set_graph h _ (n ∈ change.removed_nodes) fun chunk hc => by
      cases chunk <;> simp_all [Chunk.isGraph, Chunk.entity?, Chunk.relation?],
    filter_filterMap_val entity?_of_nodeChunk, add_eq_left]
  refine Multiset.filter_eq_nil.mpr fun chunk hmem he => ?_
  obtain ⟨p, -, hp⟩ := (Multiset.mem_filterMap _ _).mp hmem
  obtain ⟨edge, -, rfl⟩ := edgeChunk_eq_some hp
  cases he

lemma set_graph_relations [DecidableEq S] (h : set_graph store g change = some store')
    (p : V × V) : store'.filter (fun chunk => chunk.relation? = some p) =
      (if p ∈ change.removed_edges then 0 else store.filter fun chunk => chunk.relation? = some p) +
      (if p ∈ change.added_updated_edges then (edgeChunk g.graph p).elim 0 fun c => {c} else 0) := by
  rw [filter_set_graph h _ (p ∈ change.removed_edges) fun chunk hc => by
      cases chunk <;> simp_all [Chunk.isGraph, Chunk.entity?, Chunk.relation?],
    filter_filterMap_val relation?_of_edgeChunk, add_right_comm, add_eq_left]
  refine Multiset.filter_eq_nil.mpr fun chunk hmem he => ?_
  obtain ⟨n, -, hn⟩ := (Multiset.mem_filterMap _ _).mp hmem
  obtain ⟨attrs, -, rfl⟩ := nodeChunk_eq_some hn
  cases he

end Store

section Merge

variable [LinearOrder V]

/-- One record for each node and each edge, with its attributes, and no others. -/
structure Mirror (store : Store V S W) (G : Graph V S W) : Prop where
  entities : ∀ n, store.filter (fun chunk => chunk.entity? = some n) =
    (G.nodes.get? n).elim 0 fun attrs => {.entity n attrs}
  relations : ∀ p : V × V, store.filter (fun chunk => chunk.relation? = some p) = if get_from_to p.1 p.2 = p then
      (G.edge? p.1 p.2).elim 0 fun attrs => {.relation p.1 p.2 attrs}
    else 0

variable {change' : GraphChange V} {g₁ g₂ : KnowledgeGraph V S W} {m n : V} (e : Sym2 V)

lemma mk_orient : s((orient e).1, (orient e).2) = e := by
  induction e using Sym2.ind with
  | _ m n =>
    change s((get_from_to m n).1, (get_from_to m n).2) = s(m, n)
    unfold get_from_to
    split
    · rfl
    · exact Sym2.eq_swap

lemma get_from_to_orient : get_from_to (orient e).1 (orient e).2 = orient e :=
  congrArg orient (mk_orient e)

/-- What `graph_merge` makes of two graphs, up to the attributes of what they share. -/
structure Merged (G₁ G₂ G : Graph V S W) (change change' : GraphChange V) : Prop where
  removed_nodes : change'.removed_nodes = change.removed_nodes
  removed_edges : change'.removed_edges = change.removed_edges
  added_nodes : ∀ n, n ∈ change'.added_updated_nodes ↔ n ∈ change.added_updated_nodes ∨ G₂.nodes.contains n = true
  added_edges : ∀ p, p ∈ change'.added_updated_edges ↔
    p ∈ change.added_updated_edges ∨ ∃ e, G₂.edges.contains e = true ∧ p = orient e
  old_nodes : ∀ n, G₂.nodes.get? n = none → G.nodes.get? n =
    (G₁.nodes.get? n).map fun a => { a with rank := some (G.degree n) }
  new_nodes : ∀ n, G₁.nodes.get? n = none → G.nodes.get? n =
    (G₂.nodes.get? n).map fun a => { a with rank := some (G.degree n) }
  old_edges : ∀ e, G₂.edges.get? e = none → G.edges.get? e = G₁.edges.get? e
  new_edges : ∀ e, G₁.edges.get? e = none → G.edges.get? e = G₂.edges.get? e

lemma mergeNode_eq {G G' : Graph V S W} {attr : NodeAttrs S} (h : mergeNode G n attr = some G') :
    ∃ a, G' = G.setNode n a ∧ (G.nodes.get? n = none → a = attr) := by
  unfold mergeNode at h
  cases hn : G.nodes.get? n with
  | none =>
    rw [hn] at h
    exact ⟨attr, (Option.some.inj h).symm, fun _ => rfl⟩
  | some node =>
    simp only [hn] at h
    split at h
    · exact ⟨_, (Option.some.inj h).symm, (by rintro ⟨⟩)⟩
    · cases h

lemma mergeNodes_spec {l : List (V × NodeAttrs S)} (hnd : (l.map Prod.fst).Nodup)
    {G G' : Graph V S W} {change : GraphChange V} (h : mergeNodes G change l = some (G', change')) :
    G'.edges = G.edges ∧ (∀ n, n ∉ l.map Prod.fst → G'.nodes.get? n = G.nodes.get? n) ∧
      (∀ n a, (n, a) ∈ l → G.nodes.get? n = none → G'.nodes.get? n = some a) ∧
      (∀ n, G'.nodes.contains n = true ↔ G.nodes.contains n = true ∨ n ∈ l.map Prod.fst) ∧
      change'.removed_nodes = change.removed_nodes ∧ change'.removed_edges = change.removed_edges ∧
      change'.added_updated_edges = change.added_updated_edges ∧ ∀ n, n ∈ change'.added_updated_nodes ↔
        n ∈ change.added_updated_nodes ∨ n ∈ l.map Prod.fst := by
  induction l generalizing G change with
  | nil =>
    cases h
    simp
  | cons x rest ih =>
    obtain ⟨n, attr⟩ := x
    simp only [mergeNodes, Option.bind_eq_bind, Option.bind_eq_some_iff] at h
    obtain ⟨G₁, hnode, hrest⟩ := h
    obtain ⟨a, rfl, ha⟩ := mergeNode_eq hnode
    rw [map_cons, nodup_cons] at hnd
    obtain ⟨hedges, hout, hin, hcontains, hrn, hre, hae, han⟩ := ih hnd.2 hrest
    refine ⟨hedges, fun m hm => ?_, fun m b hm hnone => ?_, fun m => ?_, hrn, hre, hae, fun m => ?_⟩
    · rw [map_cons, mem_cons, not_or] at hm
      rw [hout m hm.2, AttrGraph.nodes_setNode, Dict.get?_set_of_ne _ _ hm.1]
    · rcases mem_cons.mp hm with he | hm
      · cases he
        rw [hout _ hnd.1, AttrGraph.nodes_setNode, Dict.get?_set_self, ha hnone]
      · have hne : m ≠ n := fun he => hnd.1 (he ▸ mem_map.mpr ⟨(m, b), hm, rfl⟩)
        refine hin m b hm ?_
        rw [AttrGraph.nodes_setNode, Dict.get?_set_of_ne _ _ hne, hnone]
    · rw [hcontains, AttrGraph.nodes_setNode, Dict.contains_set, Bool.or_eq_true,
        decide_eq_true_iff, map_cons, mem_cons]
      exact or_assoc.trans or_left_comm
    · rw [han, Finset.mem_insert, map_cons, mem_cons]
      exact or_assoc.trans or_left_comm

variable [Add W]

lemma mergeEdge_eq {G G' : Graph V S W} {attr : Option (EdgeAttrs S W)} (h : mergeEdge G m n attr = some G') :
    ∃ b, G' = G.addEdge ⟨none, none⟩ m n b ∧ (G.edge? m n = none → b = attr) := by
  unfold mergeEdge at h
  cases hn : G.edge? m n with
  | none =>
    rw [hn] at h
    refine ⟨_, (Option.some.inj h).symm, fun _ => ?_⟩
    rw [hn]
    cases attr <;> rfl
  | some edge =>
    simp only [hn] at h
    split at h
    · exact ⟨_, (Option.some.inj h).symm, nofun⟩
    · cases h

lemma mergeEdges_spec {l : List ((V × V) × Option (EdgeAttrs S W))}
    (hnd : (l.map fun x => s(x.1.1, x.1.2)).Nodup) {G G' : Graph V S W} {change : GraphChange V}
    (hends : ∀ x ∈ l, G.nodes.contains x.1.1 = true ∧ G.nodes.contains x.1.2 = true)
    (h : mergeEdges G change l = some (G', change')) : G'.nodes = G.nodes ∧
      (∀ e, e ∉ l.map (fun x => s(x.1.1, x.1.2)) → G'.edges.get? e = G.edges.get? e) ∧
      (∀ x ∈ l, G.edge? x.1.1 x.1.2 = none → G'.edge? x.1.1 x.1.2 = some x.2) ∧
      change'.removed_nodes = change.removed_nodes ∧ change'.removed_edges = change.removed_edges ∧
      change'.added_updated_nodes = change.added_updated_nodes ∧ ∀ p, p ∈ change'.added_updated_edges ↔
        p ∈ change.added_updated_edges ∨ ∃ x ∈ l, p = get_from_to x.1.1 x.1.2 := by
  induction l generalizing G change with
  | nil =>
    cases h
    simp
  | cons x rest ih =>
    obtain ⟨⟨m, n⟩, attr⟩ := x
    simp only [mergeEdges, Option.bind_eq_bind, Option.bind_eq_some_iff] at h
    obtain ⟨G₁, hedge, hrest⟩ := h
    obtain ⟨b, rfl, hb⟩ := mergeEdge_eq hedge
    obtain ⟨hm, hn⟩ := hends _ mem_cons_self
    have hnodes := AttrGraph.nodes_addEdge (⟨none, none⟩ : NodeAttrs S) b hm hn
    rw [map_cons, nodup_cons] at hnd
    have hends' : ∀ x ∈ rest, (G.addEdge ⟨none, none⟩ m n b).nodes.contains x.1.1 = true ∧
        (G.addEdge ⟨none, none⟩ m n b).nodes.contains x.1.2 = true := fun x hx => by
      rw [hnodes]
      exact hends x (mem_cons_of_mem _ hx)
    obtain ⟨hnodes', hout, hin, hrn, hre, han, hae⟩ := ih hnd.2 hends' hrest
    refine ⟨hnodes'.trans hnodes, fun e he => ?_, fun x hx hnone => ?_, hrn, hre, han, fun p => ?_⟩
    · rw [map_cons, mem_cons, not_or] at he
      rw [hout e he.2, AttrGraph.edges_addEdge, Dict.get?_set_of_ne _ _ he.1]
    · rcases mem_cons.mp hx with rfl | hx
      · have hself : G'.edge? m n = some b := by
          rw [AttrGraph.edge?, hout _ hnd.1, AttrGraph.edges_addEdge, Dict.get?_set_self]
        rw [hself, hb hnone]
      · have hne : s(x.1.1, x.1.2) ≠ s(m, n) := fun he =>
          hnd.1 (he ▸ mem_map.mpr ⟨x, hx, rfl⟩)
        refine hin x hx ?_
        rw [AttrGraph.edge?, AttrGraph.edges_addEdge, Dict.get?_set_of_ne _ _ hne]
        exact hnone
    · rw [hae, Finset.mem_insert]
      simp only [mem_cons, exists_eq_or_imp]
      exact or_assoc.trans or_left_comm

omit [Add W] in
lemma edgesData_keys (G : Graph V S W) : (edgesData G).map (fun x => s(x.1.1, x.1.2)) = G.edges.keys := by
  unfold edgesData Dict.keys
  rw [map_map]
  exact map_congr_left fun p _ => mk_orient p.1

theorem graph_merge_spec {g' : KnowledgeGraph V S W} {change : GraphChange V}
    (h : graph_merge g₁ g₂ change = some (g', change')) : Merged g₁.graph g₂.graph g'.graph change change' := by
  unfold graph_merge at h
  simp only [Option.bind_eq_bind, Option.bind_eq_some_iff, Option.some.injEq, Prod.mk.injEq, Prod.exists] at h
  obtain ⟨G₁, change1, hnodes, G₂, change2, hedges, rfl, rfl⟩ := h
  obtain ⟨hedges1, hout, hin, hcontains, hrn, hre, hae, han⟩ := mergeNodes_spec g₂.graph.nodes.nodup_keys hnodes
  have hkeys : ∀ n, n ∈ g₂.graph.nodes.entries.map Prod.fst ↔ g₂.graph.nodes.contains n = true :=
    fun n => g₂.graph.nodes.mem_keys_iff n
  have hends : ∀ x ∈ edgesData g₂.graph, G₁.nodes.contains x.1.1 = true ∧ G₁.nodes.contains x.1.2 = true := by
    intro x hx
    obtain ⟨⟨e, b⟩, hmem, rfl⟩ := mem_map.mp hx
    have he : g₂.graph.edges.contains e = true := (Dict.mem_keys_iff _ _).mp (mem_map.mpr ⟨(e, b), hmem, rfl⟩)
    have hfst : (orient e).1 ∈ e := by
      have hmem := Sym2.mem_mk_left (orient e).1 (orient e).2
      rwa [mk_orient] at hmem
    have hsnd : (orient e).2 ∈ e := by
      have hmem := Sym2.mem_mk_right (orient e).1 (orient e).2
      rwa [mk_orient] at hmem
    exact ⟨(hcontains _).mpr (.inr ((hkeys _).mpr (g₂.graph.ends e _ he hfst))),
      (hcontains _).mpr (.inr ((hkeys _).mpr (g₂.graph.ends e _ he hsnd)))⟩
  have hnd : ((edgesData g₂.graph).map fun x => s(x.1.1, x.1.2)).Nodup := by
    rw [edgesData_keys]
    exact g₂.graph.edges.nodup_keys
  obtain ⟨hnodes2, hout2, hin2, hrn2, hre2, han2, hae2⟩ := mergeEdges_spec hnd hends hedges
  have hget : ∀ n, (rankNodes G₂).nodes.get? n =
      (G₁.nodes.get? n).map fun a => { a with rank := some ((rankNodes G₂).degree n) } := by
    intro n
    unfold rankNodes
    rw [AttrGraph.get?_mapNodes, hnodes2]
    rfl
  refine ⟨hrn2.trans hrn, hre2.trans hre, fun n => ?_, fun p => ?_, fun n hn => ?_,
    fun n hn => ?_, fun e he => ?_, fun e he => ?_⟩
  · rw [han2, han, hkeys]
  · rw [hae2, hae]
    refine or_congr_right ⟨?_, ?_⟩
    · rintro ⟨x, hx, rfl⟩
      obtain ⟨⟨e, b⟩, hmem, rfl⟩ := mem_map.mp hx
      exact ⟨e, (Dict.mem_keys_iff _ _).mp (mem_map.mpr ⟨(e, b), hmem, rfl⟩), get_from_to_orient e⟩
    · rintro ⟨e, he, rfl⟩
      obtain ⟨⟨e', b⟩, hmem, rfl⟩ := mem_map.mp ((Dict.mem_keys_iff _ _).mpr he)
      exact ⟨_, mem_map.mpr ⟨(e', b), hmem, rfl⟩, (get_from_to_orient e').symm⟩
  · rw [hget, hout n]
    rw [hkeys, Dict.contains, hn]
    exact Bool.false_ne_true
  · rw [hget]
    cases hn2 : g₂.graph.nodes.get? n with
    | none =>
      rw [hout n, hn]
      rw [hkeys, Dict.contains, hn2]
      exact Bool.false_ne_true
    | some a => rw [hin n a ((Dict.mem_entries_iff _ _ _).mpr hn2) hn]
  · change G₂.edges.get? e = _
    rw [hout2 e, hedges1]
    rw [edgesData_keys, Dict.mem_keys_iff, Dict.contains, he]
    exact Bool.false_ne_true
  · change G₂.edges.get? e = _
    cases he2 : g₂.graph.edges.get? e with
    | none =>
      rw [hout2 e, hedges1, he]
      rw [edgesData_keys, Dict.mem_keys_iff, Dict.contains, he2]
      exact Bool.false_ne_true
    | some b =>
      have hmem : (orient e, b) ∈ edgesData g₂.graph :=
        mem_map.mpr ⟨(e, b), (Dict.mem_entries_iff _ _ _).mpr he2, rfl⟩
      have hedge := hin2 _ hmem
      simp only [AttrGraph.edge?, mk_orient, hedges1] at hedge
      exact hedge he

/-- The graph merged in shares no node, its edges have attributes, and old ranks are degrees. -/
structure Fresh (G₁ G₂ : Graph V S W) : Prop where
  disjoint : ∀ n, G₁.nodes.contains n = true → G₂.nodes.get? n = none
  attributed : ∀ e, G₂.edges.get? e ≠ some none
  ranked : ∀ n a, G₁.nodes.get? n = some a → a.rank = some (G₁.degree n)

variable {G₁ G₂ G : Graph V S W} {change : GraphChange V} {store store' : Store V S W}

omit [Add W] in
lemma edge_none_of_disjoint (hd : ∀ n, G₁.nodes.contains n = true → G₂.nodes.get? n = none)
    (hn : G₁.nodes.contains n = true) : G₂.edges.get? s(n, m) = none := by
  cases he : G₂.edges.get? s(n, m) with
  | none => rfl
  | some b =>
    have hcontains := (AttrGraph.contains_of_edge? he).1
    rw [Dict.contains, hd n hn] at hcontains
    cases hcontains

omit [Add W] in
lemma Merged.degree_eq (h : Merged G₁ G₂ G change change')
    (hd : ∀ n, G₁.nodes.contains n = true → G₂.nodes.get? n = none)
    (hn : G₁.nodes.contains n = true) : G.degree n = G₁.degree n := by
  refine AttrGraph.degree_congr fun m => ?_
  rw [AttrGraph.edge?, h.old_edges _ (edge_none_of_disjoint hd hn)]
  rfl

omit [Add W] in
lemma Merged.entities_iff [DecidableEq S] {g : KnowledgeGraph V S W} (h : Merged G₁ G₂ g.graph .empty change)
    (hm : Mirror store G₁) (hs : set_graph store g change = some store') :
    (∀ n, store'.filter (fun chunk => chunk.entity? = some n) =
      (g.graph.nodes.get? n).elim 0 fun attrs => {.entity n attrs}) ↔
    (∀ n, G₁.nodes.contains n = true → G₂.nodes.get? n = none) ∧
      ∀ n a, G₁.nodes.get? n = some a → a.rank = some (G₁.degree n) := by
  have hrecords : ∀ n, store'.filter (fun chunk => chunk.entity? = some n) =
      ((G₁.nodes.get? n).elim 0 fun attrs => {.entity n attrs}) +
        (if G₂.nodes.contains n = true then (nodeChunk g.graph n).elim 0 fun c => {c} else 0) :=
    fun n => by
      rw [set_graph_entities hs n, h.removed_nodes, hm.entities n]
      simp only [h.added_nodes, GraphChange.empty, Finset.notMem_empty, false_or, if_false]
  have hchunk : ∀ n, G₂.nodes.contains n = true → ∃ attrs,
      g.graph.nodes.get? n = some attrs ∧ nodeChunk g.graph n = some (.entity n attrs) := by
    intro n hn
    obtain ⟨-, -, hall, -⟩ := set_graph_eq hs
    obtain ⟨c, hc⟩ := Option.isSome_iff_exists.mp (hall n ((h.added_nodes n).mpr (.inr hn)))
    obtain ⟨attrs, hattrs, rfl⟩ := nodeChunk_eq_some hc
    exact ⟨attrs, hattrs, hc⟩
  constructor
  · intro hall
    have hd : ∀ n, G₁.nodes.contains n = true → G₂.nodes.get? n = none := by
      intro n hn
      by_contra hne
      have hn2 : G₂.nodes.contains n = true := Option.isSome_iff_ne_none.mpr hne
      obtain ⟨a, ha⟩ := Option.isSome_iff_exists.mp hn
      obtain ⟨attrs, hattrs, hc⟩ := hchunk n hn2
      have hcount := congrArg Multiset.card ((hrecords n).symm.trans (hall n))
      simp [ha, hattrs, hc, hn2] at hcount
    refine ⟨hd, fun n a ha => ?_⟩
    have hn : G₁.nodes.contains n = true := by rw [Dict.contains, ha]; rfl
    have hn2 := hd n hn
    have hone := (hrecords n).symm.trans (hall n)
    rw [h.old_nodes n hn2, h.degree_eq hd hn, ha] at hone
    simp only [Option.elim_some, Dict.contains, hn2, Option.isSome_none, Bool.false_eq_true,
      if_false, add_zero, Option.map_some, Multiset.singleton_inj, Chunk.entity.injEq, true_and] at hone
    rw [hone]
  · rintro ⟨hd, hrank⟩ n
    rw [hrecords n]
    cases ha : G₁.nodes.get? n with
    | none =>
      by_cases hn2 : G₂.nodes.contains n = true
      · obtain ⟨attrs, hattrs, hc⟩ := hchunk n hn2
        simp [hattrs, hc, hn2]
      · have hnone : G₂.nodes.get? n = none := by simpa [Dict.contains] using hn2
        rw [h.new_nodes n ha, hnone]
        simp [hn2]
    | some a =>
      have hn : G₁.nodes.contains n = true := by rw [Dict.contains, ha]; rfl
      have hn2 := hd n hn
      rw [h.old_nodes n hn2, h.degree_eq hd hn, ha]
      simp only [Option.elim_some, Dict.contains, hn2, Option.isSome_none, Bool.false_eq_true,
        if_false, add_zero, Option.map_some]
      rw [← hrank n a ha]

omit [Add W] in
/-- Where the graphs share no node, the relation records are right if every new edge has
attributes. -/
lemma Merged.relations_iff [DecidableEq S] {g : KnowledgeGraph V S W}
    (h : Merged G₁ G₂ g.graph .empty change) (hm : Mirror store G₁) (hs : set_graph store g change = some store')
    (hd : ∀ n, G₁.nodes.contains n = true → G₂.nodes.get? n = none) :
    (∀ p : V × V, store'.filter (fun chunk => chunk.relation? = some p) = if get_from_to p.1 p.2 = p then
        (g.graph.edge? p.1 p.2).elim 0 fun attrs => {.relation p.1 p.2 attrs}
      else 0) ↔ ∀ e, G₂.edges.get? e ≠ some none := by
  have hshared : ∀ e, G₂.edges.contains e = true → G₁.edges.get? e = none := fun e he => by
    induction e using Sym2.ind with
    | _ m n =>
      cases he1 : G₁.edges.get? s(m, n) with
      | none => rfl
      | some b =>
        have hcontains := (AttrGraph.contains_of_edge? he1).1
        rw [Dict.contains, edge_none_of_disjoint hd hcontains] at he
        cases he
  have hadded : ∀ p : V × V, p ∈ change.added_updated_edges ↔
      get_from_to p.1 p.2 = p ∧ G₂.edges.contains s(p.1, p.2) = true := fun p => by
    rw [h.added_edges]
    constructor
    · rintro (hp | ⟨e, he, rfl⟩)
      · exact absurd hp (Finset.notMem_empty p)
      · exact ⟨get_from_to_orient e, by rw [mk_orient]; exact he⟩
    · rintro ⟨hp, he⟩
      exact .inr ⟨_, he, hp.symm⟩
  have hrecords : ∀ p : V × V, store'.filter (fun chunk => chunk.relation? = some p) =
      (if get_from_to p.1 p.2 = p then
        (G₁.edge? p.1 p.2).elim 0 fun attrs => {.relation p.1 p.2 attrs} else 0) +
      (if p ∈ change.added_updated_edges then (edgeChunk g.graph p).elim 0 fun c => {c} else 0) :=
    fun p => by
      rw [set_graph_relations hs p, h.removed_edges, hm.relations p]
      simp only [GraphChange.empty, Finset.notMem_empty, if_false]
  constructor
  · intro hall e he
    have hcontains : G₂.edges.contains e = true := by rw [Dict.contains, he]; rfl
    have hone := (hrecords (orient e)).symm.trans (hall (orient e))
    have hmem : orient e ∈ change.added_updated_edges :=
      (hadded _).mpr ⟨get_from_to_orient e, by rw [mk_orient]; exact hcontains⟩
    have hnew := (h.new_edges e (hshared e hcontains)).trans he
    simp [get_from_to_orient, hmem, AttrGraph.edge?, mk_orient, hshared e hcontains, hnew, edgeChunk] at hone
  · intro hattr p
    rw [hrecords p]
    by_cases hp : get_from_to p.1 p.2 = p
    · rw [if_pos hp, if_pos hp]
      by_cases he : G₂.edges.contains s(p.1, p.2) = true
      · have hmem : p ∈ change.added_updated_edges := (hadded p).mpr ⟨hp, he⟩
        obtain ⟨b, hb⟩ := Option.isSome_iff_exists.mp he
        have hnew := (h.new_edges _ (hshared _ he)).trans hb
        cases b with
        | none => exact absurd hb (hattr _)
        | some edge =>
          simp [hmem, AttrGraph.edge?, hshared _ he, hnew, edgeChunk]
      · have hmem : p ∉ change.added_updated_edges := fun hmem => he ((hadded p).mp hmem).2
        have hnone : G₂.edges.get? s(p.1, p.2) = none := by simpa [Dict.contains] using he
        rw [if_neg hmem, add_zero, AttrGraph.edge?, AttrGraph.edge?, h.old_edges _ hnone]
    · have hmem : p ∉ change.added_updated_edges := fun hmem => hp ((hadded p).mp hmem).1
      rw [if_neg hp, if_neg hp, if_neg hmem, add_zero]

/-- After a merge of graphs the index is exact if and only if the second one is fresh. -/
theorem mirror_graph_merge_iff [DecidableEq S] {g : KnowledgeGraph V S W}
    (hm : Mirror store g₁.graph) (hg : graph_merge g₁ g₂ .empty = some (g, change))
    (hs : set_graph store g change = some store') : Mirror store' g.graph ↔ Fresh g₁.graph g₂.graph := by
  have h := graph_merge_spec hg
  have hentities := h.entities_iff hm hs
  constructor
  · intro hm'
    obtain ⟨hd, hrank⟩ := hentities.mp hm'.entities
    exact ⟨hd, (h.relations_iff hm hs hd).mp hm'.relations, hrank⟩
  · intro hf
    exact ⟨hentities.mpr ⟨hf.disjoint, hf.ranked⟩, (h.relations_iff hm hs hf.disjoint).mpr hf.attributed⟩

end Merge

end CustomAi.Ragflow
