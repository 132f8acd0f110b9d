import CustomAi.Ragflow.EntityMergeSteps

/-!
# Merging entities is a quotient

Undisturbed tasks never raise, and when all have finished the graph is the quotient of the first
one by the lists.
-/

namespace CustomAi.Ragflow

open List Function Option Except AttrGraph MergeState

variable {V S W ι : Type} [LinearOrder V] [LinearOrder S] [AddCommMonoid W] [DecidableEq ι]
  {lists : ι → List V} {truncate : List S → List S} {G₀ : Graph V S W} {s s' : MergeState ι V S W}
  {i : ι} {L : Locals V S} {c : Cursor V} {rest : List V}

namespace Merging

omit [LinearOrder V] [LinearOrder S] [AddCommMonoid W] [DecidableEq ι] in
lemma live_of_cursor_none {phase : ι → MergePhase V S W} (h : ∀ i, (phase i).cursor = none)
    (e : Sym2 V) : Live phase e := fun i c hc => by
  rw [h i] at hc
  cases hc

omit [DecidableEq ι] in
lemma initial (hG : Attributed G₀) : Merging lists G₀ (MergeState.initial G₀ : MergeState ι V S W) where
  task := fun i => ⟨nofun, nofun, suffix_rfl, nofun, nofun⟩
  attributed := hG
  nodes := fun v => by
    refine ⟨fun hv => ⟨hv, fun i hi => hi⟩, fun h => h.1⟩
  apart := nofun
  measure := fun M _ μ hμ r r' hr => by
    classical
    refine weigh_congr fun e => ?_
    have hlive : Live (MergeState.initial G₀ : MergeState ι V S W).phase e := live_of_cursor_none (fun _ => rfl) e
    unfold share
    simp only [hlive, and_true]
    rfl

variable {G : Graph V S W} {p : MergePhase V S W} {n : V}

section

variable (h : Merging lists G₀ s)
include h

lemma keep_of_cursor_none (hphase : s'.phase = Function.update s.phase i p) (hgraph : s'.graph = s.graph)
    (htask : TaskOk (lists i) s.graph p) (hpending : p.pending (lists i) = (s.phase i).pending (lists i))
    (hold : (s.phase i).cursor = none) (hnew : p.cursor = none) : Merging lists G₀ s' := by
  refine h.keep hphase (by rw [hgraph]) (fun v => by rw [hgraph]) (fun v a hv => ?_) htask
    hpending (fun c hc => ?_) fun r r' e _ _ => ?_
  · rw [hgraph] at hv
    exact h.attributed.nodes v a hv
  · rw [hnew] at hc
    cases hc
  · refine forall_congr' fun j => ?_
    by_cases hj : j = i
    · subst hj
      rw [update_self, hold, hnew]
    · rw [update_of_ne hj]

section

variable (hf : Family lists G₀)
include hf

lemma begin_merging (hp : s.phase i = .waiting) : Merging lists G₀ (s.begin lists i) := by
  have hold : (s.phase i).cursor = none := by rw [hp]; rfl
  have hend : (lists i).tail = [] → Merging lists G₀ (s.stop i .finished) := fun htail => by
    refine h.keep_of_cursor_none rfl rfl ⟨(by rintro ⟨⟩), (by rintro _ ⟨⟩), nil_suffix, (by rintro _ ⟨⟩),
      (by intros; contradiction)⟩ ?_ hold rfl
    rw [hp]
    exact htail.symm
  unfold begin
  cases hl : lists i with
  | nil => exact hend (by rw [hl]; rfl)
  | cons node0 tail =>
    cases tail with
    | nil => exact hend (by rw [hl]; rfl)
    | cons node1 rest =>
      have hcontains : s.graph.nodes.contains node0 = true := by
        refine (h.nodes node0).mpr ⟨hf.nodes i node0 (by rw [hl]; exact mem_cons_self), ?_⟩
        intro j hj
        exact absurd rfl (hf.ne_of_mem_tail hl hj)
      obtain ⟨a, ha⟩ := isSome_iff_exists.mp hcontains
      simp only
      rw [show s.graph.nodes.get? node0 = some a from ha]
      refine h.keep_of_cursor_none rfl rfl ?_ ?_ hold rfl
      · refine ⟨(by rintro ⟨⟩), fun L hL => ?_, ?_, (by rintro _ ⟨⟩), (by intros; contradiction)⟩
        · cases hL
          exact ⟨hl.symm, rfl, ⟨_, hl⟩, fun x hx _ => mem_neighbors_iff.mp hx⟩
        · rw [hl]
          exact suffix_rfl
      · rw [hp]
        exact congrArg List.tail hl.symm

lemma writeNode0 (hL : (s.phase i).locals = some L) {rank : Option ℕ} {e : EntityAttrs S}
    (hphase : s'.phase = Function.update s.phase i p)
    (hgraph : s'.graph = s.graph.setNode L.node0 ⟨rank, some e⟩) (htask : TaskOk (lists i) s.graph p)
    (hpending : p.pending (lists i) = (s.phase i).pending (lists i)) (hold : (s.phase i).cursor = none)
    (hcursor : ∀ c, p.cursor = some c → c.visited = [] ∧ ∀ j, j ≠ i → ∀ c', (s.phase j).cursor = some c' →
        s.graph.edge? c.node1 c'.node1 = none) : Merging lists G₀ s' := by
  refine h.keep hphase (by rw [hgraph]; rfl) (fun v => ?_) (fun v a hv => ?_) htask hpending
    (fun c hc => .inr (hcursor c hc).2) fun r r' d _ _ => ?_
  · rw [hgraph, nodes_setNode, Dict.contains_set]
    by_cases hv : v = L.node0
    · rw [hv, h.contains_node0 hf hL, Bool.or_true]
    · simp [hv]
  · rw [hgraph, nodes_setNode, Dict.get?_set] at hv
    split at hv
    · cases hv
      rfl
    · exact h.attributed.nodes v a hv
  · rw [live_update_iff]
    constructor
    · rintro ⟨-, hout⟩ j c hc x hx
      refine hout j ?_ c hc x hx
      rintro rfl
      rw [hold] at hc
      cases hc
    · refine fun hlive => ⟨fun c hc x hx => ?_, fun j _ c hc x hx => hlive j c hc x hx⟩
      rw [(hcursor c hc).1] at hx
      cases hx

lemma storeNode0_merging (hL : (s.phase i).locals = some L) (hpending : (s.phase i).pending (lists i) = [])
    (hcursor : (s.phase i).cursor = none) (description : List S) :
    Merging lists G₀ (s.storeNode0 i L description) := by
  obtain ⟨rank, e, -, hget, hattrs⟩ := h.attrs_eq hf hL
  unfold storeNode0
  rw [hattrs, hget]
  refine h.writeNode0 hf hL rfl rfl ?_ hpending.symm hcursor nofun
  exact (h.task i).past nofun nofun rfl rfl

lemma nextNode_merging (hp : s.phase i = .merging L rest) (hok : Untouched s i (s.phase i)) :
    Merging lists G₀ (s.nextNode truncate i L rest) := by
  have hL : (s.phase i).locals = some L := by rw [hp]; rfl
  have hcursor : (s.phase i).cursor = none := by rw [hp]; rfl
  obtain ⟨rank, e, hnone, -, hattrs⟩ := h.attrs_eq hf hL
  cases rest with
  | nil =>
    have hpending : (s.phase i).pending (lists i) = [] := by rw [hp]; rfl
    unfold nextNode
    rw [hattrs]
    simp only
    split
    · exact h.storeNode0_merging hf hL hpending hcursor _
    · refine h.keep_of_cursor_none rfl rfl ?_ hpending.symm hcursor rfl
      exact (h.task i).past (by rintro ⟨⟩) (fun L' hL' => by rw [hL]; exact hL') rfl rfl
  | cons node1 rest =>
    have hmem : node1 ∈ (s.phase i).pending (lists i) := by
      rw [hp]
      exact mem_cons_self
    obtain ⟨a, ha⟩ : ∃ a, s.graph.nodes.get? node1 = some a := isSome_iff_exists.mp (h.contains_of_pending hf hmem)
    obtain ⟨e', he'⟩ := isSome_iff_exists.mp (h.attributed.nodes _ a ha)
    obtain ⟨rank', entity⟩ := a
    obtain rfl : entity = some e' := he'
    have hwrite : ∀ a, L.write s.graph a = (s.graph.setNode L.node0 a, L) := fun a => by
      rw [Locals.write, hnone]
    unfold nextNode
    simp only [hattrs, ha, hwrite]
    rw [hp] at hok
    refine h.writeNode0 hf hL rfl rfl ?_ (by rw [hp]; rfl) hcursor fun c hc => ?_
    · have htask := h.task i
      rw [hp] at htask
      refine ⟨(by rintro ⟨⟩), fun L' hL' => htask.locals L' hL', htask.pending, fun c hc => ?_,
        (by intros; contradiction)⟩
      cases hc
      exact ⟨rfl, nodup_nil, (by rintro _ ⟨⟩)⟩
    · cases hc
      exact ⟨rfl, hok⟩

end

end

omit [LinearOrder S] [AddCommMonoid W] [DecidableEq ι] in
lemma visited_of_nextNeighbor_none (h : nextNeighbor G c = none) (n : V)
    (hn : (G.edge? c.node1 n).isSome = true) : n ∈ c.visited := by
  have hall := List.find?_eq_none.mp h n (mem_neighbors_iff.mpr hn)
  simpa using hall

omit [LinearOrder S] [AddCommMonoid W] [DecidableEq ι] in
lemma nextNeighbor_some (h : nextNeighbor G c = some n) :
    (G.edge? c.node1 n).isSome = true ∧ n ∉ c.visited := by
  refine ⟨mem_neighbors_iff.mp (mem_of_find?_eq_some h), ?_⟩
  simpa using List.find?_some h

section

variable (h : Merging lists G₀ s)
include h

omit [DecidableEq ι] in
lemma visited_length_ne (hc : (s.phase i).cursor = some c)
    (hedge : (s.graph.edge? c.node1 n).isSome = true) (hn : n ∉ c.visited) : c.visited.length ≠ c.size := by
  obtain ⟨hsize, hnd, hvis⟩ := (h.task i).cursor c hc
  have hsub : n :: c.visited ⊆ s.graph.neighbors c.node1 := by
    intro x hx
    rw [mem_neighbors_iff]
    rcases mem_cons.mp hx with hx | hx
    · rw [hx]
      exact hedge
    · exact hvis x hx
  have hlen := ((nodup_cons.mpr ⟨hn, hnd⟩).subperm hsub).length_le
  rw [length_cons] at hlen
  omega

section

variable (hf : Family lists G₀) (hp : s.phase i = .visiting L rest c)
include hf hp

lemma skip (hedge : (s.graph.edge? c.node1 n).isSome = true) (hnew : n ∉ c.visited) (hn : n ∈ lists i)
    (hphase : s'.phase = Function.update s.phase i
      (.visiting L rest { c with visited := c.visited ++ [n] })) (hgraph : s'.graph = s.graph) :
    Merging lists G₀ s' := by
  have hc : (s.phase i).cursor = some c := by rw [hp]; rfl
  have htask := h.task i
  rw [hp] at htask
  refine h.keep hphase (by rw [hgraph]) (fun v => by rw [hgraph]) (fun v a hv => ?_)
    (htask.advance hnew hedge) (by rw [hp]; rfl) (fun d hd => ?_) fun r r' e hr hb => ?_
  · rw [hgraph] at hv
    exact h.attributed.nodes v a hv
  · cases hd
    exact .inl ⟨c, hc, rfl⟩
  · rw [live_update_iff]
    constructor
    · rintro ⟨hi, hout⟩ j d hd x hx
      by_cases hj : j = i
      · subst hj
        rw [hc, some.injEq] at hd
        subst hd
        exact hi _ rfl x (mem_append_left _ hx)
      · exact hout j hj d hd x hx
    · refine fun hlive => ⟨fun d hd x hx => ?_, fun j _ d hd x hx => hlive j d hd x hx⟩
      cases hd
      rcases mem_append.mp hx with hx | hx
      · exact hlive i c hc x hx
      · rintro rfl
        -- both ends stand in list `i`
        obtain ⟨-, -, ⟨tail, htail⟩, -⟩ := htask.locals L rfl
        have hmem := mem_of_mem_tail (h.cursor_mem_tail hc)
        rw [Between, mem_singleton.mp hx, Sym2.map_mk, hf.representative_eq htail hmem,
          hf.representative_eq htail hn, Sym2.eq_iff] at hb
        rcases hb with ⟨h1, h2⟩ | ⟨h1, h2⟩
        · exact hr (h1.symm.trans h2)
        · exact hr (h2.symm.trans h1)

lemma visitNeighbor_merging (hedge : (s.graph.edge? c.node1 n).isSome = true)
    (hnew : n ∉ c.visited) (hok : n ∉ L.nodes → n ∉ L.node0_neighbors → s.graph.edge? L.node0 n = none) :
    Merging lists G₀ (s.visitNeighbor truncate i L rest c n) := by
  have hL : (s.phase i).locals = some L := by rw [hp]; rfl
  have hc : (s.phase i).cursor = some c := by rw [hp]; rfl
  obtain ⟨hnodes, -, -, hsnap⟩ := (h.task i).locals L hL
  obtain ⟨b1, hb1⟩ := isSome_iff_exists.mp hedge
  obtain ⟨edge1, hedge1⟩ := isSome_iff_exists.mp (h.attributed.edges _ b1 hb1)
  subst hedge1
  have hcontains := (contains_of_edge? hb1).2
  unfold visitNeighbor
  simp only
  by_cases hin : n ∈ L.nodes
  · rw [if_pos hin]
    exact h.skip hf hp hedge hnew (hnodes ▸ hin) rfl rfl
  have hne : ∀ b, ((add_edge s.graph L.node0 n (some b)).edge? c.node1 n).isSome = true := by
    intro b
    rw [edge?_add_edge]
    split
    · rfl
    · exact hedge
  rw [if_neg hin]
  by_cases hsnapshot : n ∈ L.node0_neighbors
  · rw [if_pos hsnapshot]
    obtain ⟨b₀, hb0⟩ := isSome_iff_exists.mp (hsnap n hsnapshot hcontains)
    obtain ⟨edge0, hedge0⟩ := isSome_iff_exists.mp (h.attributed.edges _ b₀ hb0)
    subst hedge0
    rw [hb0, hb1]
    simp only
    have hgain : ∀ (M : Type) [AddCommMonoid M] (μ : Option (EdgeAttrs S W) → M), Additive μ →
        μ (some (edge0.absorb edge1)) = (s.graph.edge? L.node0 n).elim 0 μ + μ (some edge1) := fun M _ μ hμ => by
      rw [hb0]
      exact hμ.absorb edge0 edge1
    split
    · refine h.moveEdge hf hL hc hin rfl rfl (fun htask => ?_) (by rw [hp]; rfl) hb1 hnew rfl
        fun M _ μ hμ => ?_
      · rw [hp] at htask
        exact htask.advance hnew (hne _)
      · rw [hμ.description]
        exact hgain M μ hμ
    · refine h.moveEdge hf hL hc hin rfl rfl (fun htask => ?_) (by rw [hp]; rfl) hb1 hnew rfl
        hgain
      rw [hp] at htask
      refine (htask.advance hnew (hne _)).await (mem_append_right _ mem_cons_self) (hnodes ▸ hin) ?_
      change ((add_edge s.graph L.node0 n (some _)).edge? L.node0 n).isSome = true
      rw [edge?_add_edge, if_pos rfl]
      rfl
  · rw [if_neg hsnapshot, hb1]
    refine h.moveEdge hf hL hc hin rfl rfl (fun htask => ?_) (by rw [hp]; rfl) hb1 hnew rfl
      fun M _ μ hμ => ?_
    · rw [hp] at htask
      exact htask.advance hnew (hne _)
    · rw [hok hin hsnapshot, elim_none, zero_add]

lemma nextVisit_merging (hok : Untouched s i (s.phase i)) : Merging lists G₀ (s.nextVisit truncate i L rest c) := by
  have hc : (s.phase i).cursor = some c := by rw [hp]; rfl
  have hsize := ((h.task i).cursor c hc).1
  unfold nextVisit
  rw [if_neg (by rw [hsize]; exact fun hne => hne rfl)]
  cases hnext : nextNeighbor s.graph c with
  | none =>
    have hphase : (fun j => (s.phase j).detach s.graph c.node1) = s.phase := funext (h.detach_eq hf hp)
    have hdetach : L.detach s.graph c.node1 = L := by
      have hi := h.detach_eq hf hp i
      rw [hp] at hi
      injection hi
    simp only [removeNode1, h.contains_of_pending hf (MergePhase.cursor_pending (lists i) hc), if_true, hphase, hdetach]
    exact h.remove hf hp (visited_of_nextNeighbor_none hnext) rfl rfl
  | some n =>
    obtain ⟨hedge, hnew⟩ := nextNeighbor_some hnext
    simp only
    rw [if_neg (h.visited_length_ne hc hedge hnew)]
    rw [hp] at hok
    exact h.visitNeighbor_merging hf hp hedge hnew (hok n hnext)

end

lemma storeEdge0_merging (hf : Family lists G₀)
    {edge0_attrs : Option (EdgeAttrs S W)} (hp : s.phase i = .summarising L rest c n edge0_attrs)
    (description : List S) : Merging lists G₀ (s.storeEdge0 i L rest c n edge0_attrs description) := by
  have hL : (s.phase i).locals = some L := by rw [hp]; rfl
  have hc : (s.phase i).cursor = some c := by rw [hp]; rfl
  obtain ⟨rfl, hvisited, hn, hedge⟩ := (h.task i).awaiting L rest c n edge0_attrs hp
  obtain ⟨b₀, hb0⟩ := isSome_iff_exists.mp hedge
  obtain ⟨edge0, hedge0⟩ := isSome_iff_exists.mp (h.attributed.edges _ b₀ hb0)
  subst hedge0
  unfold storeEdge0
  rw [hb0]
  refine h.describeEdge hf hL hc (((h.task i).locals L hL).1 ▸ hn) rfl rfl
    (fun htask => ?_) (by rw [hp]; rfl) hvisited hb0 rfl
    fun M _ μ hμ => hμ.description edge0 description
  rw [hp] at htask
  exact htask.resume

lemma step (hf : Family lists G₀) {a : Action ι S}
    (hok : Undisturbed s a) (hs : merge_graph_nodes lists truncate s a = .ok s') : Merging lists G₀ s' := by
  cases a with
  | start i =>
    simp only [merge_graph_nodes] at hs
    split at hs
    · rename_i hrun hp
      cases hs
      exact h.begin_merging hf hp
    · cases hs
  | tick =>
    cases hrun : s.running with
    | none => simp [merge_graph_nodes, hrun] at hs
    | some i =>
      have hi : Untouched s i (s.phase i) := hok i hrun
      cases hp : s.phase i with
      | merging L rest =>
        simp only [merge_graph_nodes, hrun, hp, ok.injEq] at hs
        rw [← hs]
        exact h.nextNode_merging hf hp hi
      | visiting L rest c =>
        simp only [merge_graph_nodes, hrun, hp, ok.injEq] at hs
        rw [← hs]
        exact h.nextVisit_merging hf hp hi
      | _ => simp [merge_graph_nodes, hrun, hp] at hs
  | resume i summary =>
    simp only [merge_graph_nodes] at hs
    split at hs
    · rename_i hrun hp
      cases hs
      exact h.storeEdge0_merging hf hp summary
    · rename_i hrun hp
      cases hs
      exact h.storeNode0_merging hf (by rw [hp]; rfl) (by rw [hp]; rfl) (by rw [hp]; rfl) summary
    · cases hs

end

theorem of_reaches (hf : Family lists G₀) (hG : Attributed G₀)
    (h : Reaches (merge_graph_nodes lists truncate) Undisturbed (MergeState.initial G₀) s) : Merging lists G₀ s :=
  h.invariant (initial hG) fun _ _ _ hm hok hs => hm.step hf hok hs

end Merging

def weightOf : Option (EdgeAttrs S W) → W
  | none => 0
  | some edge => edge.weight

def keywordsOf : Option (EdgeAttrs S W) → List S
  | none => []
  | some edge => edge.keywords

def sourcesOf : Option (EdgeAttrs S W) → List S
  | none => []
  | some edge => edge.source_id

open scoped Classical in
/-- The first node of each list stands for the list, and edges add up. -/
structure IsQuotient (lists : ι → List V) (G₀ G : Graph V S W) : Prop where
  nodes : ∀ v, G.nodes.contains v = true ↔ G₀.nodes.contains v = true ∧ ∀ i, v ∉ (lists i).tail
  adjacent : ∀ r r', r ≠ r' → G.nodes.contains r = true → G.nodes.contains r' = true →
    ((G.edge? r r').isSome = true ↔ ∃ u v, representative lists u = r ∧
      representative lists v = r' ∧ (G₀.edge? u v).isSome = true)
  weight : ∀ r r' b, r ≠ r' → G.edge? r r' = some b → weightOf b = G₀.weigh (Between lists r r') weightOf
  keywords : ∀ r r' b, r ≠ r' → G.edge? r r' = some b → ∀ k, k ∈ keywordsOf b ↔
    ∃ e b₀, G₀.edges.get? e = some b₀ ∧ Between lists r r' e ∧ k ∈ keywordsOf b₀
  source_id : ∀ r r' b, r ≠ r' → G.edge? r r' = some b → ∀ k, k ∈ sourcesOf b ↔
    ∃ e b₀, G₀.edges.get? e = some b₀ ∧ Between lists r r' e ∧ k ∈ sourcesOf b₀

section Measures

omit [LinearOrder V] [DecidableEq ι]

omit [AddCommMonoid W] in
lemma mem_sorted_set {l : List S} {x : S} : x ∈ sorted_set l ↔ x ∈ l := by
  rw [sorted_set, mem_insertionSort, mem_dedup]

lemma additive_weightOf : Additive (weightOf : Option (EdgeAttrs S W) → W) :=
  ⟨fun _ _ => rfl, fun _ _ => rfl⟩

lemma additive_union {f : Option (EdgeAttrs S W) → List S} (habsorb : ∀ edge0 edge1 : EdgeAttrs S W,
      f (some (edge0.absorb edge1)) = sorted_set (f (some edge0) ++ f (some edge1)))
    (hdescription : ∀ (edge : EdgeAttrs S W) description,
      f (some { edge with description := description }) = f (some edge)) :
    Additive fun b => Set.up {x | x ∈ f b} where
  absorb := fun edge0 edge1 => by
    rw [habsorb]
    congr 1
    ext x
    rw [Set.mem_ofPred_eq, mem_sorted_set, mem_append]
    rfl
  description := fun edge description => by rw [hdescription]

lemma additive_exists : Additive fun _ : Option (EdgeAttrs S W) => Set.up (Set.univ : Set Unit) where
  absorb := fun _ _ => by rw [← Set.up_union, Set.union_self]
  description := fun _ _ => rfl

end Measures

namespace Merging

open scoped Classical in
omit [DecidableEq ι] in
lemma measure_edge (h : Merging lists G₀ s) (hf : Family lists G₀)
    (hdone : ∀ i, s.phase i = .finished) {M : Type} [AddCommMonoid M]
    {μ : Option (EdgeAttrs S W) → M} (hμ : Additive μ) {r r' : V} (hr : r ≠ r')
    (hin : s.graph.nodes.contains r = true) (hin' : s.graph.nodes.contains r' = true) :
    (s.graph.edge? r r').elim 0 μ = G₀.weigh (Between lists r r') μ := by
  have hself : ∀ v, s.graph.nodes.contains v = true → representative lists v = v := fun v hv => by
    refine hf.representative_self fun i hi => ?_
    have hpend := ((h.nodes v).mp hv).2 i hi
    rw [hdone i] at hpend
    cases hpend
  have hlive : ∀ e, Live s.phase e := live_of_cursor_none fun i => by
    rw [hdone i]
    rfl
  rw [← h.measure M μ hμ r r' hr, edge?]
  refine (weigh_single (fun d hd hsome => ?_) ⟨?_, hlive _⟩).symm
  · have hends := s.graph.ends d
    induction d using Sym2.ind with
    | _ u v =>
      have hu := hself u (hends u hsome (Sym2.mem_mk_left u v))
      have hv := hself v (hends v hsome (Sym2.mem_mk_right u v))
      have hb := hd.1
      rwa [Between, Sym2.map_mk, hu, hv] at hb
  · rw [Between, Sym2.map_mk, hself r hin, hself r' hin']

omit [DecidableEq ι] in
/-- When all calls have finished, the graph is the quotient. -/
theorem isQuotient (h : Merging lists G₀ s) (hf : Family lists G₀)
    (hdone : ∀ i, s.phase i = .finished) : IsQuotient lists G₀ s.graph := by
  classical
  have hends : ∀ {r r' b}, s.graph.edge? r r' = some b →
      s.graph.nodes.contains r = true ∧ s.graph.nodes.contains r' = true :=
    fun hb => contains_of_edge? hb
  have hunion : ∀ (f : Option (EdgeAttrs S W) → List S), Additive (fun b => Set.up {x | x ∈ f b}) →
      ∀ r r' b, r ≠ r' → s.graph.edge? r r' = some b → ∀ k, k ∈ f b ↔
        ∃ e b₀, G₀.edges.get? e = some b₀ ∧ Between lists r r' e ∧ k ∈ f b₀ := by
    intro f hμ r r' b hr hb k
    have hmeasure := h.measure_edge hf hdone hμ hr (hends hb).1 (hends hb).2
    rw [hb, elim_some] at hmeasure
    have hmem : k ∈ f b ↔ k ∈ (Set.up {x | x ∈ f b}).down := Iff.rfl
    rw [hmem, hmeasure, mem_weigh_iff]
    rfl
  refine ⟨fun v => ?_, fun r r' hr hin hin' => ?_, fun r r' b hr hb => ?_,
    hunion keywordsOf (additive_union (fun _ _ => rfl) fun _ _ => rfl),
    hunion sourcesOf (additive_union (fun _ _ => rfl) fun _ _ => rfl)⟩
  · rw [h.nodes v]
    refine and_congr_right fun _ => forall_congr' fun i => ?_
    rw [hdone i]
    exact ⟨fun hmem hv => not_mem_nil (hmem hv), fun hv hmem => absurd hmem hv⟩
  · have hmeasure := h.measure_edge hf hdone additive_exists hr hin hin'
    have hsome : (s.graph.edge? r r').isSome = true ↔
        () ∈ ((s.graph.edge? r r').elim 0 fun _ => Set.up (Set.univ : Set Unit)).down := by
      cases s.graph.edge? r r' <;> simp
    rw [hsome, hmeasure, mem_weigh_iff]
    constructor
    · rintro ⟨e, b₀, hget, hb, -⟩
      induction e using Sym2.ind with
      | _ u v =>
        rw [Between, Sym2.map_mk, Sym2.eq_iff] at hb
        rcases hb with ⟨hu, hv⟩ | ⟨hu, hv⟩
        · exact ⟨u, v, hu, hv, by rw [edge?, hget]; rfl⟩
        · exact ⟨v, u, hv, hu, by rw [edge?_comm, edge?, hget]; rfl⟩
    · rintro ⟨u, v, hu, hv, huv⟩
      obtain ⟨b₀, hb0⟩ := isSome_iff_exists.mp huv
      exact ⟨s(u, v), b₀, hb0, by rw [Between, Sym2.map_mk, hu, hv], Set.mem_univ _⟩
  · have hmeasure := h.measure_edge hf hdone additive_weightOf hr (hends hb).1 (hends hb).2
    rwa [hb, elim_some] at hmeasure

end Merging

/-- Undisturbed tasks do not raise and leave the quotient of the graph. -/
theorem merge_graph_nodes_quotient (hf : Family lists G₀) (hG : Attributed G₀)
    (h : Reaches (merge_graph_nodes lists truncate) Undisturbed (MergeState.initial G₀) s) :
    (∀ i, s.phase i ≠ .raised) ∧ ((∀ i, s.phase i = .finished) → IsQuotient lists G₀ s.graph) := by
  have hm := Merging.of_reaches hf hG h
  exact ⟨fun i => (hm.task i).not_raised, hm.isQuotient hf⟩

omit [LinearOrder S] [AddCommMonoid W] in
lemma Attributed.of_entries {G : Graph V S W} (hnodes : ∀ p ∈ G.nodes.entries, p.2.entity.isSome = true)
    (hedges : ∀ p ∈ G.edges.entries, p.2.isSome = true) : Attributed G :=
  ⟨fun v a hv => hnodes (v, a) ((G.nodes.mem_entries_iff v a).mpr hv),
    fun e b he => hedges (e, b) ((G.edges.mem_entries_iff e b).mpr he)⟩

def plainNode : NodeAttrs ℕ := ⟨none, some ⟨0, [0], [0]⟩⟩

def plainEdge : Option (EdgeAttrs ℕ ℕ) := some ⟨1, [0], [0], [0]⟩

/-- Two pairs of nodes with edges to node 2. -/
def twoTriangles : Graph ℕ ℕ ℕ :=
  add_edge (add_edge (add_edge (add_edge (((((AttrGraph.empty.setNode 0 plainNode).setNode 1
    plainNode).setNode 2 plainNode).setNode 3 plainNode).setNode 4 plainNode)
    0 2 (some ⟨1, replicate 12 0, [0], [0]⟩)) 1 2 plainEdge) 3 2 plainEdge) 4 2 plainEdge

def bothPairs (second : Bool) : List ℕ := if second then [3, 4] else [0, 1]

lemma twoTriangles_family : Family bothPairs twoTriangles where
  nodup := by decide
  disjoint i j hij v hi hj := by
    have hapart : ∀ v ∈ [0, 1], v ∉ [3, 4] := by decide
    cases i with
    | false =>
      cases j with
      | false => exact hij rfl
      | true => exact hapart v hi hj
    | true =>
      cases j with
      | false => exact hapart v hj hi
      | true => exact hij rfl
  nodes := by decide

/-- The second task runs while the first one waits for the summary of its edge. -/
theorem merge_graph_nodes_quotient_interleaved : ∃ s : MergeState Bool ℕ ℕ ℕ, (∀ i, s.phase i = .finished) ∧
    IsQuotient bothPairs twoTriangles s.graph ∧
      (s.graph.edge? 0 2).map weightOf = some 2 ∧ (s.graph.edge? 3 2).map weightOf = some 2 := by
  obtain ⟨s, hrun, hfinished, hedges⟩ : ∃ s : MergeState Bool ℕ ℕ ℕ,
      runAllowed (merge_graph_nodes bothPairs id) Undisturbed (initial twoTriangles) [.start false,
        .tick, .tick, .start true, .tick, .tick, .tick, .tick, .resume false [7], .tick, .tick] =
          some s ∧ (∀ i, s.phase i = .finished) ∧
      (s.graph.edge? 0 2).map weightOf = some 2 ∧ (s.graph.edge? 3 2).map weightOf = some 2 :=
    ⟨_, rfl, fun i => by cases i <;> rfl, rfl, rfl⟩
  exact ⟨s, hfinished, (merge_graph_nodes_quotient twoTriangles_family (Attributed.of_entries
    (by decide) (by decide)) (Reaches.start.append_runAllowed hrun)).2 hfinished, hedges⟩

def diamond : Graph ℕ ℕ ℕ :=
  add_edge (add_edge ((((AttrGraph.empty.setNode 0 plainNode).setNode 1 plainNode).setNode 2
    plainNode).setNode 3 plainNode) 1 3 plainEdge) 2 3 plainEdge

lemma diamond_family : Family (fun _ : Unit => [0, 1, 2]) diamond where
  nodup := by decide
  disjoint := fun _ _ h => absurd rfl h
  nodes := by decide

/-- The second edge to node 3 replaces the first one. -/
theorem merge_graph_nodes_drops_weight : Family (fun _ : Unit => [0, 1, 2]) diamond ∧
    Attributed diamond ∧ ∃ s : MergeState Unit ℕ ℕ ℕ,
      Reaches (merge_graph_nodes (fun _ => [0, 1, 2]) id) (fun _ _ => True) (MergeState.initial diamond) s ∧
      (∀ i, s.phase i = .finished) ∧ ¬ IsQuotient (fun _ : Unit => [0, 1, 2]) diamond s.graph := by
  refine ⟨diamond_family, Attributed.of_entries (by decide) (by decide), _,
    Reaches.append_runSteps (l := .start () :: replicate 7 .tick) .start rfl, fun _ => rfl, fun hq => ?_⟩
  have hbetween : ∀ v ∈ [1, 2], Between (fun _ : Unit => [0, 1, 2]) 0 3 s(v, 3) := fun v hv => by
    have hself : representative (fun _ : Unit => [0, 1, 2]) 3 = 3 := diamond_family.representative_self (by decide)
    rw [Between, Sym2.map_mk, hself, diamond_family.representative_eq (i := ()) rfl (mem_cons_of_mem 0 hv)]
  have hweight := hq.weight 0 3 _ (by decide) rfl
  classical
  have hsum : diamond.weigh (Between (fun _ : Unit => [0, 1, 2]) 0 3) weightOf = 2 := by
    change (if Between (fun _ : Unit => [0, 1, 2]) 0 3 s(1, 3) then 1 else 0) +
      ((if Between (fun _ : Unit => [0, 1, 2]) 0 3 s(2, 3) then 1 else 0) + 0) = 2
    rw [if_pos (hbetween 1 (by decide)), if_pos (hbetween 2 (by decide))]
    rfl
  rw [hsum] at hweight
  revert hweight
  decide

end CustomAi.Ragflow
