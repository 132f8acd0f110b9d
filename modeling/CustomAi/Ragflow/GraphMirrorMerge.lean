import CustomAi.Ragflow.GraphMirror

/-!
# Merging nodes never keeps the index exact

A list of two or more nodes leaves a second record of the kept node; if that node stands in the
list again it is rebuilt from edges that no change records.
-/

namespace CustomAi.Ragflow

open List Option Except MergeState AttrGraph

variable {V S W : Type} [LinearOrder V]

/-- The kept node has been removed, and what there is of it came with edges that are new. -/
structure Rebuilt (G₀ : Graph V S W) (node0 : V) (tail : List V) (s : MergeState Unit V S W) :
    Prop where
  edge : ∀ x, (s.graph.edge? node0 x).isSome = true → x ∉ G₀.neighbors node0 ∧ x ∉ node0 :: tail
  alive : s.graph.nodes.contains node0 = true → ∃ x, (s.graph.edge? node0 x).isSome = true
  awake : ∀ L rest c n e, s.phase () ≠ .summarising L rest c n e

/-- What holds once the task that merges `node0 :: tail` has begun. -/
structure Started (G₀ : Graph V S W) (node0 : V) (tail : List V) (s : MergeState Unit V S W) :
    Prop where
  begun : s.phase () ≠ .waiting
  locals : ∀ L, (s.phase ()).locals = some L →
    L.node0 = node0 ∧ L.nodes = node0 :: tail ∧ L.node0_neighbors = G₀.neighbors node0
  pending : (s.phase ()).pending (node0 :: tail) ⊆ tail
  removed : s.change.removed_nodes = tail.toFinset
  added : s.change.added_updated_nodes = {node0}
  edges : ∀ p ∈ s.change.added_updated_edges, ∃ y ∈ G₀.neighbors node0, p = get_from_to node0 y
  contains : G₀.nodes.contains node0 = true
  kept : s.phase () = .raised ∨ node0 ∉ tail ∨
    node0 ∈ (s.phase ()).pending (node0 :: tail) ∨ Rebuilt G₀ node0 tail s

namespace Started

variable {G₀ : Graph V S W} {node0 n : V} {tail rest : List V} {s s' : MergeState Unit V S W}
  {L : Locals V S} {c : Cursor V} {p : MergePhase V S W}

lemma raise (h : Started G₀ node0 tail s) (hphase : s'.phase () = .raised)
    (hremoved : s'.change.removed_nodes = s.change.removed_nodes)
    (hadded : s'.change.added_updated_nodes = s.change.added_updated_nodes)
    (hedges : ∀ p ∈ s'.change.added_updated_edges,
      p ∈ s.change.added_updated_edges ∨ ∃ y ∈ G₀.neighbors node0, p = get_from_to node0 y) :
    Started G₀ node0 tail s' where
  begun := by
    rw [hphase]
    exact nofun
  locals := fun L hL => by
    rw [hphase] at hL
    cases hL
  pending := by
    rw [hphase]
    exact nil_subset _
  removed := hremoved.trans h.removed
  added := hadded.trans h.added
  edges := fun p hp => (hedges p hp).elim (h.edges p) id
  contains := h.contains
  kept := .inl hphase

lemma goOn (h : Started G₀ node0 tail s) (hold : (s.phase ()).locals = some L)
    (hbegun : s'.phase () ≠ .waiting) (hlocals : ∀ L', (s'.phase ()).locals = some L' →
      L'.node0 = L.node0 ∧ L'.nodes = L.nodes ∧ L'.node0_neighbors = L.node0_neighbors)
    (hpending : (s'.phase ()).pending (node0 :: tail) ⊆ (s.phase ()).pending (node0 :: tail))
    (hremoved : s'.change.removed_nodes = s.change.removed_nodes)
    (hadded : s'.change.added_updated_nodes = s.change.added_updated_nodes)
    (hedges : ∀ p ∈ s'.change.added_updated_edges,
      p ∈ s.change.added_updated_edges ∨ ∃ y ∈ G₀.neighbors node0, p = get_from_to node0 y)
    (hkept : node0 ∈ tail → node0 ∈ (s.phase ()).pending (node0 :: tail) →
      node0 ∈ (s'.phase ()).pending (node0 :: tail) ∨ Rebuilt G₀ node0 tail s')
    (hrebuilt : Rebuilt G₀ node0 tail s → Rebuilt G₀ node0 tail s') : Started G₀ node0 tail s' where
  begun := hbegun
  locals := fun L' hL' => by
    obtain ⟨h1, h2, h3⟩ := h.locals L hold
    obtain ⟨h1', h2', h3'⟩ := hlocals L' hL'
    exact ⟨h1'.trans h1, h2'.trans h2, h3'.trans h3⟩
  pending := fun x hx => h.pending (hpending hx)
  removed := hremoved.trans h.removed
  added := hadded.trans h.added
  edges := fun p hp => (hedges p hp).elim (h.edges p) id
  contains := h.contains
  kept := by
    by_cases htail : node0 ∈ tail
    · rcases h.kept with hr | hn | hp | hr
      · rw [hr] at hold
        cases hold
      · exact absurd htail hn
      · exact .inr (.inr (hkept htail hp))
      · exact .inr (.inr (.inr (hrebuilt hr)))
    · exact .inr (.inl htail)

lemma rebuilt_keep (h : Rebuilt G₀ node0 tail s) (hedges : s'.graph.edges = s.graph.edges)
    (hnodes : s'.graph.nodes.contains node0 = true → s.graph.nodes.contains node0 = true)
    (hawake : ∀ L rest c n e, s'.phase () ≠ .summarising L rest c n e) : Rebuilt G₀ node0 tail s' where
  edge := fun x hx => h.edge x (by rwa [edge?, hedges] at hx)
  alive := fun hin => by
    obtain ⟨x, hx⟩ := h.alive (hnodes hin)
    exact ⟨x, by rwa [edge?, hedges]⟩
  awake := hawake

variable [LinearOrder S]

section

variable (h : Started G₀ node0 tail s)
include h

omit [LinearOrder S] in
lemma storeNode0_started (hL : (s.phase ()).locals = some L)
    (hpending : (s.phase ()).pending (node0 :: tail) = []) (description : List S) :
    Started G₀ node0 tail (s.storeNode0 () L description) := by
  unfold storeNode0
  split
  · rename_i rank e old hattrs hget
    refine h.goOn hL nofun nofun (nil_subset _) rfl rfl (fun p hp => .inl hp) (fun _ hp => ?_)
      fun hr => rebuilt_keep hr rfl (fun _ => ?_) nofun
    · rw [hpending] at hp
      cases hp
    · rw [(h.locals L hL).1] at hget
      rw [Dict.contains, hget]
      rfl
  · exact h.raise rfl rfl rfl fun p hp => .inl hp

lemma nextNode_started {truncate : List S → List S} (hp : s.phase () = .merging L rest) :
    Started G₀ node0 tail (s.nextNode truncate () L rest) := by
  have hL : (s.phase ()).locals = some L := by rw [hp]; rfl
  have hraise : Started G₀ node0 tail (s.stop () .raised) := h.raise rfl rfl rfl fun p hp => .inl hp
  cases rest with
  | nil =>
    have hpending : (s.phase ()).pending (node0 :: tail) = [] := by rw [hp]; rfl
    unfold nextNode
    simp only
    split
    · split
      · exact h.storeNode0_started hL hpending _
      · refine h.goOn hL (by rintro ⟨⟩) (fun L' hL' => ?_) (nil_subset _) rfl rfl (fun p hp => .inl hp)
          (fun _ hin => ?_) fun hr => rebuilt_keep hr rfl id (by rintro _ _ _ _ _ ⟨⟩)
        · cases hL'
          exact ⟨rfl, rfl, rfl⟩
        · rw [hpending] at hin
          cases hin
    · exact hraise
  | cons node1 rest =>
    unfold nextNode
    simp only
    split
    · rename_i rank e rank' e' hattrs hget
      have hwritten : ∀ a, (L.write s.graph a).1.edges = s.graph.edges ∧
          ((L.write s.graph a).1.nodes.contains node0 = true → s.graph.nodes.contains node0 = true) ∧
          (L.write s.graph a).2.node0 = L.node0 ∧ (L.write s.graph a).2.nodes = L.nodes ∧
          (L.write s.graph a).2.node0_neighbors = L.node0_neighbors := fun a => by
        unfold Locals.write
        split
        · rename_i hnone
          refine ⟨rfl, fun _ => ?_, rfl, rfl, rfl⟩
          rw [Locals.attrs, hnone, (h.locals L hL).1] at hattrs
          change s.graph.nodes.get? node0 = _ at hattrs
          rw [Dict.contains, hattrs]
          rfl
        · exact ⟨rfl, id, rfl, rfl, rfl⟩
      obtain ⟨hedges, hnodes, hsame⟩ := hwritten ⟨rank, some (e.absorb e')⟩
      refine h.goOn hL (by rintro ⟨⟩) (fun L' hL' => ?_) (fun x hx => ?_) rfl rfl (fun p hp => .inl hp)
        (fun _ hin => .inl ?_) fun hr => rebuilt_keep hr hedges hnodes (by rintro _ _ _ _ _ ⟨⟩)
      · cases hL'
        exact hsame
      · rw [hp]
        exact hx
      · rw [hp] at hin
        exact hin
    · exact hraise

omit [LinearOrder S] in
lemma removeNode1_started (hp : s.phase () = .visiting L rest c) :
    Started G₀ node0 tail (s.removeNode1 () L rest c) := by
  have hL : (s.phase ()).locals = some L := by rw [hp]; rfl
  have hmem : c.node1 ∈ tail := h.pending (by rw [hp]; exact mem_cons_self)
  unfold removeNode1
  split
  · have hedge : ∀ x y, (s.graph.removeNode c.node1).edge? x y =
        if c.node1 = x ∨ c.node1 = y then none else s.graph.edge? x y := fun x y => by
      rw [edge?, get?_edges_removeNode]
      simp only [Sym2.mem_iff]
      rfl
    refine h.goOn hL (by rintro ⟨⟩) (fun L' hL' => ?_) (fun x hx => ?_) rfl rfl (fun p hp => .inl hp)
      (fun _ hin => ?_) fun hr => ?_
    · cases hL'
      unfold Locals.detach
      split <;> exact ⟨rfl, rfl, rfl⟩
    · rw [hp]
      exact mem_cons_of_mem _ hx
    · rw [hp] at hin
      rcases mem_cons.mp hin with heq | hin
      · refine .inr ⟨fun x hx => ?_, fun hc => ?_, (by rintro _ _ _ _ _ ⟨⟩)⟩
        · change ((s.graph.removeNode c.node1).edge? node0 x).isSome = true at hx
          rw [hedge, if_pos (.inl heq.symm)] at hx
          cases hx
        · change (s.graph.nodes.erase c.node1).contains node0 = true at hc
          rw [Dict.contains_erase, heq] at hc
          simp at hc
      · exact .inl hin
    · refine ⟨fun x hx => ?_, fun hc => ?_, (by rintro _ _ _ _ _ ⟨⟩)⟩
      · change ((s.graph.removeNode c.node1).edge? node0 x).isSome = true at hx
        rw [hedge] at hx
        split at hx
        · cases hx
        · exact hr.edge x hx
      · change (s.graph.nodes.erase c.node1).contains node0 = true at hc
        rw [Dict.contains_erase, Bool.and_eq_true, decide_eq_true_iff] at hc
        obtain ⟨x, hx⟩ := hr.alive hc.2
        refine ⟨x, ?_⟩
        change ((s.graph.removeNode c.node1).edge? node0 x).isSome = true
        rw [hedge, if_neg]
        · exact hx
        · rintro (he | he)
          · exact hc.1 he.symm
          · exact (hr.edge x hx).2 (mem_cons_of_mem _ (he ▸ hmem))
  · exact h.raise rfl rfl rfl fun p hp => .inl hp

omit [LinearOrder S] in
lemma storeEdge0_started {edge0_attrs : Option (EdgeAttrs S W)}
    (hp : s.phase () = .summarising L rest c n edge0_attrs) (description : List S) :
    Started G₀ node0 tail (s.storeEdge0 () L rest c n edge0_attrs description) := by
  have hL : (s.phase ()).locals = some L := by rw [hp]; rfl
  have hpending : (s.phase ()).pending (node0 :: tail) = c.node1 :: rest := by rw [hp]; rfl
  have hstay : node0 ∈ (s.phase ()).pending (node0 :: tail) → node0 ∈ c.node1 :: rest :=
    fun hin => by rwa [hpending] at hin
  unfold storeEdge0
  split
  · refine h.goOn hL nofun (fun L' hL' => ?_) (fun x hx => hpending ▸ hx) rfl rfl
      (fun p hp => .inl hp) (fun _ hin => .inl (hstay hin))
      fun hr => absurd hp (hr.awake L rest c n edge0_attrs)
    cases hL'
    exact ⟨rfl, rfl, rfl⟩
  · exact h.raise rfl rfl rfl fun p hp => .inl hp

end

variable [Add W]

variable {truncate : List S → List S}

lemma visitNeighbor_started (h : Started G₀ node0 tail s) (hp : s.phase () = .visiting L rest c) (n : V) :
    Started G₀ node0 tail (s.visitNeighbor truncate () L rest c n) := by
  have hL : (s.phase ()).locals = some L := by rw [hp]; rfl
  obtain ⟨hnode0, hnodes, hsnap⟩ := h.locals L hL
  have hsame : ∀ L', (MergePhase.visiting (W := W) L rest
      { c with visited := c.visited ++ [n] }).locals = some L' →
      L'.node0 = L.node0 ∧ L'.nodes = L.nodes ∧ L'.node0_neighbors = L.node0_neighbors := by
    intro L' hL'
    cases hL'
    exact ⟨rfl, rfl, rfl⟩
  have hpending : (s.phase ()).pending (node0 :: tail) = c.node1 :: rest := by rw [hp]; rfl
  have hstay : node0 ∈ (s.phase ()).pending (node0 :: tail) → node0 ∈ c.node1 :: rest :=
    fun hin => by rwa [hpending] at hin
  have hrecorded : ∀ {b}, n ∈ L.node0_neighbors →
      s.graph.edge? L.node0 n = some b → ¬ Rebuilt G₀ node0 tail s := fun hn hb hr => by
    refine (hr.edge n ?_).1 (hsnap ▸ hn)
    rw [← hnode0, hb]
    rfl
  have hnew : n ∈ L.node0_neighbors → ∀ p ∈ insert (get_from_to L.node0 n)
      s.change.added_updated_edges, p ∈ s.change.added_updated_edges ∨
        ∃ y ∈ G₀.neighbors node0, p = get_from_to node0 y := fun hn p hp => by
    rcases Finset.mem_insert.mp hp with rfl | hp
    · exact .inr ⟨n, hsnap ▸ hn, by rw [hnode0]⟩
    · exact .inl hp
  unfold visitNeighbor
  simp only
  split
  · refine h.goOn hL nofun hsame (fun x hx => hpending ▸ hx) rfl rfl (fun p hp => .inl hp)
      (fun _ hin => .inl (hstay hin)) fun hr => rebuilt_keep hr rfl id nofun
  · rename_i hin
    split
    · rename_i hn
      split
      · rename_i edge0 edge1 hedge0 hedge1
        split
        · exact h.goOn hL nofun hsame (fun x hx => hpending ▸ hx) rfl rfl (hnew hn)
            (fun _ hin => .inl (hstay hin)) fun hr => absurd hr (hrecorded hn hedge0)
        · exact h.goOn hL nofun (fun L' hL' => hsame L' hL') (fun x hx => hpending ▸ hx) rfl rfl
            (hnew hn) (fun _ hin => .inl (hstay hin)) fun hr => absurd hr (hrecorded hn hedge0)
      · exact h.raise rfl rfl rfl (hnew hn)
    · rename_i hn
      split
      · refine h.goOn hL nofun hsame (fun x hx => hpending ▸ hx) rfl rfl (fun p hp => .inl hp)
          (fun _ hin => .inl (hstay hin)) fun hr => ⟨fun x hx => ?_, fun _ => ⟨n, ?_⟩, nofun⟩
        · change ((s.graph.edges.set s(L.node0, n) _).get? s(node0, x)).isSome = true at hx
          rw [Dict.get?_set, hnode0] at hx
          by_cases he : s(node0, x) = s(node0, n)
          · rw [Sym2.congr_right] at he
            rw [he]
            exact ⟨hsnap ▸ hn, hnodes ▸ hin⟩
          · rw [if_neg he] at hx
            exact hr.edge x hx
        · change ((s.graph.edges.set s(L.node0, n) _).get? s(node0, n)).isSome = true
          rw [hnode0, Dict.get?_set_self]
          rfl
      · exact h.raise rfl rfl rfl fun p hp => .inl hp

lemma nextVisit_started (h : Started G₀ node0 tail s)
    (hp : s.phase () = .visiting L rest c) : Started G₀ node0 tail (s.nextVisit truncate () L rest c) := by
  have hraise : Started G₀ node0 tail (s.stop () .raised) := h.raise rfl rfl rfl fun p hp => .inl hp
  unfold nextVisit
  split
  · exact hraise
  · split
    · exact h.removeNode1_started hp
    · split
      · exact hraise
      · exact h.visitNeighbor_started hp _

end Started

variable [LinearOrder S] [Add W] {G₀ : Graph V S W} {s s' : MergeState Unit V S W}
  {truncate : List S → List S} {store store' : Store V S W}

lemma started_of_reaches {node0 node1 : V} {rest : List V}
    (h : Reaches (merge_graph_nodes (fun _ => node0 :: node1 :: rest) truncate)
      (fun _ _ => True) (initial G₀) s) :
    s = initial G₀ ∨ s.phase () = .raised ∨ Started G₀ node0 (node1 :: rest) s := by
  induction h with
  | start => exact .inl rfl
  | @step s s' a _ _ hs ih =>
    rcases ih with rfl | hraised | hst
    · right
      cases a with
      | start i =>
        cases hs
        unfold begin
        simp only
        cases hget : (initial G₀ : MergeState Unit V S W).graph.nodes.get? node0 with
        | none => exact .inl rfl
        | some attrs =>
          refine .inr ⟨(by rintro ⟨⟩), fun L hL => ?_, fun x hx => hx, ?_, rfl,
            fun p hp => absurd hp (Finset.notMem_empty p), ?_, .inr ?_⟩
          · cases hL
            exact ⟨rfl, rfl, rfl⟩
          · exact Finset.empty_union _
          · rw [Dict.contains, show G₀.nodes.get? node0 = some attrs from hget]
            rfl
          · by_cases hmem : node0 ∈ node1 :: rest
            · exact .inr (.inl hmem)
            · exact .inl hmem
      | tick => cases hs
      | resume i summary => cases hs
    · cases a with
      | start i => simp [merge_graph_nodes, hraised] at hs
      | tick =>
        cases hrun : s.running with
        | none => simp [merge_graph_nodes, hrun] at hs
        | some i => simp [merge_graph_nodes, hrun, hraised] at hs
      | resume i summary => simp [merge_graph_nodes, hraised] at hs
    · refine .inr (.inr ?_)
      cases a with
      | start i =>
        simp only [merge_graph_nodes] at hs
        split at hs
        · rename_i hrun hp
          exact absurd hp hst.begun
        · cases hs
      | tick =>
        cases hrun : s.running with
        | none => simp [merge_graph_nodes, hrun] at hs
        | some i =>
          cases hp : s.phase () with
          | merging L rest' =>
            simp only [merge_graph_nodes, hrun, hp, ok.injEq] at hs
            rw [← hs]
            exact hst.nextNode_started hp
          | visiting L rest' c =>
            simp only [merge_graph_nodes, hrun, hp, ok.injEq] at hs
            rw [← hs]
            exact hst.nextVisit_started hp
          | _ => simp [merge_graph_nodes, hrun, hp] at hs
      | resume i summary =>
        simp only [merge_graph_nodes] at hs
        split at hs
        · rename_i hrun hp
          cases hs
          exact hst.storeEdge0_started hp summary
        · rename_i hrun hp
          cases hs
          exact hst.storeNode0_started (by rw [hp]; rfl) (by rw [hp]; rfl) summary
        · cases hs

variable {g : KnowledgeGraph V S W} {nodes : List V}

lemma unchanged_of_reaches (hlen : nodes.length ≤ 1)
    (h : Reaches (merge_graph_nodes (fun _ => nodes) truncate) (fun _ _ => True) (initial G₀) s) :
    s.graph = G₀ ∧ s.change = .empty ∧ (s.phase () = .waiting ∨ s.phase () = .finished) := by
  induction h with
  | start => exact ⟨rfl, rfl, .inl rfl⟩
  | @step s s' a _ _ hs ih =>
    obtain ⟨hgraph, hchange, hphase⟩ := ih
    cases a with
    | start i =>
      simp only [merge_graph_nodes] at hs
      split at hs
      · cases hs
        match nodes, hlen with
        | [], _ => exact ⟨hgraph, hchange, .inr rfl⟩
        | [_], _ => exact ⟨hgraph, hchange, .inr rfl⟩
      · cases hs
    | tick =>
      cases hrun : s.running with
      | none => simp [merge_graph_nodes, hrun] at hs
      | some i => rcases hphase with hp | hp <;> simp [merge_graph_nodes, hrun, hp] at hs
    | resume i summary =>
      rcases hphase with hp | hp <;> simp [merge_graph_nodes, hp] at hs

omit [LinearOrder S] [Add W] in
lemma get_from_to_inj {m n n' : V} (h : get_from_to m n = get_from_to m n') : n = n' := by
  have hs : s(m, n) = s(m, n') := by
    rw [← mk_orient s(m, n), ← mk_orient s(m, n')]
    change s((get_from_to m n).1, (get_from_to m n).2) = s((get_from_to m n').1, (get_from_to m n').2)
    rw [h]
  exact Sym2.congr_right.mp hs

omit [LinearOrder S] [Add W] in
lemma edge?_get_from_to (G : Graph V S W) (m n : V) :
    G.edge? (get_from_to m n).1 (get_from_to m n).2 = G.edge? m n :=
  congrArg G.edges.get? (mk_orient s(m, n))

omit [Add W] in
lemma Started.not_mirror {node0 : V} {tail : List V} (hst : Started G₀ node0 tail s)
    (hdone : s.phase () = .finished) (hg : g.graph = s.graph) (hm : Mirror store G₀)
    (hs : set_graph store g s.change = some store') : ¬ Mirror store' s.graph := by
  intro hm'
  obtain ⟨-, -, hall, -⟩ := set_graph_eq hs
  obtain ⟨chunk, hchunk⟩ := isSome_iff_exists.mp
    (hall node0 (by rw [hst.added]; exact Finset.mem_singleton_self node0))
  obtain ⟨attrs, hattrs, -⟩ := nodeChunk_eq_some hchunk
  rw [hg] at hattrs
  have hkept : node0 ∉ tail ∨ Rebuilt G₀ node0 tail s := by
    rcases hst.kept with hr | hn | hp | hr
    · rw [hdone] at hr
      cases hr
    · exact .inl hn
    · rw [hdone] at hp
      cases hp
    · exact .inr hr
  rcases hkept with hn | hr
  · -- the old record of the kept node stays beside the new one
    obtain ⟨old, hold⟩ := isSome_iff_exists.mp hst.contains
    have htwo := (set_graph_entities hs node0).symm.trans (hm'.entities node0)
    rw [hst.removed, hst.added, hm.entities node0, hold, hattrs, hchunk] at htwo
    have hcard := congrArg Multiset.card htwo
    simp [hn] at hcard
  · -- no record is made for the edges that the kept node is rebuilt from
    obtain ⟨x, hx⟩ := hr.alive (by rw [Dict.contains, hattrs]; rfl)
    obtain ⟨b, hb⟩ := isSome_iff_exists.mp hx
    have hnew := (hr.edge x hx).1
    have hold : G₀.edge? node0 x = none := by
      rw [mem_neighbors_iff] at hnew
      simpa using hnew
    have hnot : get_from_to node0 x ∉ s.change.added_updated_edges := fun hmem => by
      obtain ⟨y, hy, he⟩ := hst.edges _ hmem
      exact hnew (get_from_to_inj he ▸ hy)
    have hone := (set_graph_relations hs (get_from_to node0 x)).symm.trans
      (hm'.relations (get_from_to node0 x))
    have horder : get_from_to (get_from_to node0 x).1 (get_from_to node0 x).2 =
        get_from_to node0 x := get_from_to_orient s(node0, x)
    rw [if_neg hnot, hm.relations, edge?_get_from_to, edge?_get_from_to, hold, hb,
      if_pos horder, if_pos horder] at hone
    have hcard := congrArg Multiset.card hone
    simp at hcard

/-- After a merge of nodes and `set_graph` the index is exact if and only if there was nothing to
merge. -/
theorem mirror_merge_nodes_iff (hm : Mirror store G₀)
    (hrun : Reaches (merge_graph_nodes (fun _ => nodes) truncate) (fun _ _ => True)
      (initial G₀) s) (hdone : s.phase () = .finished) (hg : g.graph = s.graph)
    (hs : set_graph store g s.change = some store') : Mirror store' s.graph ↔ nodes.length ≤ 1 := by
  constructor
  · intro hm'
    by_contra hlen
    match nodes, hlen with
    | [], hlen => exact hlen (Nat.zero_le 1)
    | [_], hlen => exact hlen le_rfl
    | node0 :: node1 :: rest, _ =>
      rcases started_of_reaches hrun with rfl | hr | hst
      · cases hdone
      · rw [hdone] at hr
        cases hr
      · exact hst.not_mirror hdone hg hm hs hm'
  · intro hlen
    obtain ⟨hgraph, hchange, -⟩ := unchanged_of_reaches hlen hrun
    rw [hchange] at hs
    rw [hgraph]
    refine ⟨fun n => ?_, fun p => ?_⟩
    · rw [set_graph_entities hs n, hm.entities n]
      simp [GraphChange.empty]
    · rw [set_graph_relations hs p, hm.relations p]
      simp [GraphChange.empty]

/-- The steps after which the index is exact. -/
def Recorded (G : Graph V S W) : GraphStep V S W → Prop
  | .merge subgraph => Fresh G subgraph.graph
  | .merge_nodes nodes => nodes.length ≤ 1

/-- An exact index stays exact if and only if the change merges a fresh graph or nothing. -/
theorem index_mirrors_graph_iff (truncate : List S → List S) :
    (∀ (g g' : KnowledgeGraph V S W) (store store' : Store V S W) (step : GraphStep V S W),
      Mirror store g.graph → Indexed truncate (g, store) step (g', store') →
        (Mirror store' g'.graph ↔ Recorded g.graph step)) ∧
    ∀ x y : KnowledgeGraph V S W × Store V S W, Mirror x.2 x.1.graph →
      Relation.ReflTransGen (fun a b => ∃ step, Indexed truncate a step b ∧
        Recorded a.1.graph step) x y → Mirror y.2 y.1.graph := by
  have hstep : ∀ (a b : KnowledgeGraph V S W × Store V S W) (step : GraphStep V S W),
      Mirror a.2 a.1.graph → Indexed truncate a step b → (Mirror b.2 b.1.graph ↔ Recorded a.1.graph step) := by
    intro a b step hm h
    cases h with
    | merge hg hs => exact mirror_graph_merge_iff hm hg hs
    | merge_nodes hrun hdone hs => exact mirror_merge_nodes_iff hm hrun hdone rfl hs
  refine ⟨fun g g' store store' step hm h => hstep _ _ step hm h, fun x y hm h => ?_⟩
  induction h with
  | refl => exact hm
  | tail _ hlast ih =>
    obtain ⟨step, h, hrec⟩ := hlast
    exact (hstep _ _ step ih h).mpr hrec

def entityNode : NodeAttrs ℕ := ⟨some 0, some ⟨0, [0], [0]⟩⟩

def singleEntity (n : ℕ) : KnowledgeGraph ℕ ℕ ℕ :=
  ⟨AttrGraph.empty.setNode n entityNode, some [0]⟩

lemma singleEntity_mirror (n : ℕ) : Mirror ({.entity n entityNode} : Store ℕ ℕ ℕ) (singleEntity n).graph where
  entities := fun m => by
    have hget : (singleEntity n).graph.nodes.get? m = if m = n then some entityNode else none :=
      Dict.get?_set _ n m entityNode
    rw [Multiset.filter_singleton, hget]
    by_cases hm : m = n
    · simp [hm, Chunk.entity?]
    · have hne : ¬ n = m := fun h => hm h.symm
      simp [hm, hne, Chunk.entity?]
  relations := fun p => by
    rw [Multiset.filter_singleton]
    simp [Chunk.relation?, singleEntity, edge?, empty, Dict.get?, Dict.empty]

/-- The entities 1 and 2 with a relation. -/
def relatedPair : KnowledgeGraph ℕ ℕ ℕ :=
  ⟨AttrGraph.empty.addEdge entityNode 1 2 (some ⟨5, [0], [0], [0]⟩), some [0]⟩

lemma fresh_relatedPair : Fresh (singleEntity 0).graph relatedPair.graph where
  disjoint n hn := by
    have hzero : n ∈ [0] := (Dict.mem_keys_iff _ n).mpr hn
    rw [mem_singleton.mp hzero]
    rfl
  attributed e := by
    change (Dict.empty.set s(1, 2) _).get? e ≠ _
    rw [Dict.get?_set]
    split
    · exact fun h => by cases h
    · exact fun h => by cases h
  ranked n a ha := by
    have hmem : (n, a) ∈ [(0, entityNode)] := (Dict.mem_entries_iff _ n a).mpr ha
    rw [mem_singleton, Prod.mk.injEq] at hmem
    rw [hmem.2]
    rfl

theorem index_mirrors_graph_iff_fresh : ∃ (g' : KnowledgeGraph ℕ ℕ ℕ) (store' : Store ℕ ℕ ℕ),
    Indexed id (singleEntity 0, {.entity 0 entityNode}) (.merge relatedPair) (g', store') ∧
      (g'.graph.edge? 1 2).isSome = true ∧ Mirror store' g'.graph := by
  obtain ⟨g', change, store', hg, hs, hedge⟩ : ∃ g' change store',
      graph_merge (singleEntity 0) relatedPair .empty = some (g', change) ∧
        set_graph {.entity 0 entityNode} g' change = some store' ∧ (g'.graph.edge? 1 2).isSome = true :=
    ⟨_, _, _, rfl, rfl, rfl⟩
  exact ⟨g', store', .merge hg hs, hedge, ((index_mirrors_graph_iff id).1 _ _ _ _
    (.merge relatedPair) (singleEntity_mirror 0) (.merge hg hs)).mpr fresh_relatedPair⟩

/-- An entity that is merged again leaves its old record in the store. -/
theorem merged_entity_indexed_twice : Mirror ({.entity 0 entityNode} : Store ℕ ℕ ℕ) (singleEntity 0).graph ∧
    ∃ (g' : KnowledgeGraph ℕ ℕ ℕ) (store' : Store ℕ ℕ ℕ),
      Indexed id (singleEntity 0, {.entity 0 entityNode}) (.merge (singleEntity 0)) (g', store') ∧
        ¬ Mirror store' g'.graph := by
  obtain ⟨g', change, store', hg, hs⟩ : ∃ g' change store',
      graph_merge (singleEntity 0) (singleEntity 0) .empty = some (g', change) ∧
        set_graph {.entity 0 entityNode} g' change = some store' := ⟨_, _, _, rfl, rfl⟩
  refine ⟨singleEntity_mirror 0, g', store', .merge hg hs, fun hm => ?_⟩
  have hfresh := (mirror_graph_merge_iff (singleEntity_mirror 0) hg hs).mp hm
  cases hfresh.disjoint 0 rfl

end CustomAi.Ragflow
