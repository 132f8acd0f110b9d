import CustomAi.Ragflow.EntityMerge

/-!
# The three kinds of changes of a merge

A task goes on without touching an edge, sets an edge of its kept node, or removes a node whose
edges were all moved: each keeps what holds while entities are merged.
-/

namespace CustomAi.Ragflow

open List Function Option AttrGraph

variable {V S W ι : Type} {p : MergePhase V S W} {c c' : Cursor V}

lemma MergePhase.cursor_pending (nodes : List V) (h : p.cursor = some c) : c.node1 ∈ p.pending nodes := by
  cases p <;> simp_all [MergePhase.cursor, MergePhase.pending]

lemma live_update_iff [DecidableEq ι] {phase : ι → MergePhase V S W} {i : ι} {e : Sym2 V} :
    Live (update phase i p) e ↔ (∀ c, p.cursor = some c → ∀ x ∈ c.visited, e ≠ s(c.node1, x)) ∧
        ∀ j, j ≠ i → ∀ c, (phase j).cursor = some c → ∀ x ∈ c.visited, e ≠ s(c.node1, x) := by
  constructor
  · intro h
    refine ⟨fun c hc => h i c (by rw [update_self]; exact hc), fun j hj c hc => ?_⟩
    exact h j c (by rw [update_of_ne hj]; exact hc)
  · rintro ⟨hi, hout⟩ j c hc
    by_cases hj : j = i
    · subst hj
      rw [update_self] at hc
      exact hi c hc
    · rw [update_of_ne hj] at hc
      exact hout j hj c hc

variable [LinearOrder V]

variable {G : Graph V S W} {nodes rest : List V}

lemma TaskOk.congr {H : Graph V S W} (h : TaskOk nodes G p)
    (hkept : ∀ L, p.locals = some L → ∀ x, H.nodes.contains x = true → G.nodes.contains x = true ∧
        ((G.edge? L.node0 x).isSome = true → (H.edge? L.node0 x).isSome = true))
    (hcursor : ∀ c, p.cursor = some c → ∀ x, (H.edge? c.node1 x).isSome = (G.edge? c.node1 x).isSome)
    (hvisited : ∀ c, p.cursor = some c → ∀ x ∈ c.visited, H.nodes.contains x = true) : TaskOk nodes H p where
  not_raised := h.not_raised
  locals := fun L hL => by
    obtain ⟨hnodes, hattrs, htail, hsnap⟩ := h.locals L hL
    refine ⟨hnodes, hattrs, htail, fun x hx hin => ?_⟩
    obtain ⟨hG, hedge⟩ := hkept L hL x hin
    exact hedge (hsnap x hx hG)
  pending := h.pending
  cursor := fun c hc => by
    obtain ⟨hsize, hnd, hvis⟩ := h.cursor c hc
    refine ⟨?_, hnd, fun x hx => ?_⟩
    · rw [hsize, (neighbors_perm (hcursor c hc)).length_eq]
    · rw [hcursor c hc]
      exact hvis x hx
  awaiting := fun L rest c neighbor edge0_attrs hp => by
    obtain ⟨hnone, hmem, hnot, hedge⟩ := h.awaiting L rest c neighbor edge0_attrs hp
    have hcur : p.cursor = some c := by rw [hp]; rfl
    have hloc : p.locals = some L := by rw [hp]; rfl
    exact ⟨hnone, hmem, hnot, (hkept L hloc neighbor (hvisited c hcur neighbor hmem)).2 hedge⟩

variable {L : Locals V S} {n : V}

lemma TaskOk.advance (h : TaskOk nodes G (.visiting L rest c))
    (hn : n ∉ c.visited) (hedge : (G.edge? c.node1 n).isSome = true) :
    TaskOk nodes G (.visiting L rest { c with visited := c.visited ++ [n] }) where
  not_raised := nofun
  locals := fun L' hL' => h.locals L' hL'
  pending := h.pending
  cursor := fun d hd => by
    obtain ⟨hsize, hnd, hvis⟩ := h.cursor c rfl
    cases hd
    refine ⟨hsize, ?_, fun x hx => ?_⟩
    · rw [List.nodup_append]
      refine ⟨hnd, nodup_singleton n, fun x hx y hy hxy => hn ?_⟩
      rw [← mem_singleton.mp hy, ← hxy]
      exact hx
    · rcases mem_append.mp hx with hx | hx
      · exact hvis x hx
      · rw [mem_singleton.mp hx]
        exact hedge
  awaiting := nofun

lemma TaskOk.await (h : TaskOk nodes G (.visiting L rest c))
    (hn : n ∈ c.visited) (hnot : n ∉ nodes) (hedge : (G.edge? L.node0 n).isSome = true) :
    TaskOk nodes G (.summarising L rest c n none) where
  not_raised := nofun
  locals := fun L' hL' => h.locals L' hL'
  pending := h.pending
  cursor := fun d hd => h.cursor d hd
  awaiting := fun L' rest' d n' e he => by
    cases he
    exact ⟨rfl, hn, hnot, hedge⟩

lemma TaskOk.resume {edge0_attrs : Option (EdgeAttrs S W)}
    (h : TaskOk nodes G (.summarising L rest c n edge0_attrs)) : TaskOk nodes G (.visiting L rest c) where
  not_raised := nofun
  locals := fun L' hL' => h.locals L' hL'
  pending := h.pending
  cursor := fun d hd => h.cursor d hd
  awaiting := nofun

lemma TaskOk.past {q : MergePhase V S W} (h : TaskOk nodes G p) (hraised : q ≠ .raised)
    (hlocals : ∀ L, q.locals = some L → p.locals = some L) (hcursor : q.cursor = none)
    (hpending : q.pending nodes = []) : TaskOk nodes G q where
  not_raised := hraised
  locals := fun L hL => h.locals L (hlocals L hL)
  pending := by
    rw [hpending]
    exact nil_suffix
  cursor := fun c hc => by
    rw [hcursor] at hc
    cases hc
  awaiting := fun L rest c n e hq => by
    rw [hq] at hcursor
    cases hcursor

namespace Merging

variable [LinearOrder S] [AddCommMonoid W] {lists : ι → List V} {G₀ : Graph V S W}
  {s s' : MergeState ι V S W} {i j : ι} {L : Locals V S}

variable {rest : List V} {v : V} (G : Graph V S W)

section

variable (h : Merging lists G₀ s)
include h

lemma contains_of_pending (hf : Family lists G₀)
    (hv : v ∈ (s.phase i).pending (lists i)) : s.graph.nodes.contains v = true := by
  have htail : v ∈ (lists i).tail := (h.task i).pending.subset hv
  refine (h.nodes v).mpr ⟨hf.nodes i v (mem_of_mem_tail htail), fun j hj => ?_⟩
  rw [← hf.eq_of_mem (mem_of_mem_tail htail) (mem_of_mem_tail hj)]
  exact hv

lemma cursor_mem_tail (hc : (s.phase i).cursor = some c) : c.node1 ∈ (lists i).tail :=
  (h.task i).pending.subset (MergePhase.cursor_pending (lists i) hc)

section

variable (hf : Family lists G₀)
include hf

lemma node0_ne (hL : (s.phase i).locals = some L) (hv : v ∈ (lists j).tail) : L.node0 ≠ v := by
  obtain ⟨-, -, ⟨tail, htail⟩, -⟩ := (h.task i).locals L hL
  exact hf.ne_of_mem_tail htail hv

lemma contains_node0 (hL : (s.phase i).locals = some L) : s.graph.nodes.contains L.node0 = true := by
  obtain ⟨-, -, ⟨tail, htail⟩, -⟩ := (h.task i).locals L hL
  refine (h.nodes _).mpr ⟨hf.nodes i _ (by rw [htail]; exact mem_cons_self), fun j hj => ?_⟩
  exact absurd rfl (h.node0_ne hf hL hj)

lemma cursor_inj (hc : (s.phase i).cursor = some c) (hc' : (s.phase j).cursor = some c')
    (he : c.node1 = c'.node1) : i = j := by
  have hi := mem_of_mem_tail (h.cursor_mem_tail hc)
  have hj := mem_of_mem_tail (h.cursor_mem_tail hc')
  rw [he] at hi
  exact hf.eq_of_mem hi hj

lemma attrs_eq (hL : (s.phase i).locals = some L) : ∃ rank e, L.node0_attrs = none ∧
      s.graph.nodes.get? L.node0 = some ⟨rank, some e⟩ ∧ L.attrs s.graph = some ⟨rank, some e⟩ := by
  obtain ⟨-, hnone, -, -⟩ := (h.task i).locals L hL
  have hcontains := h.contains_node0 hf hL
  obtain ⟨a, ha⟩ := isSome_iff_exists.mp hcontains
  obtain ⟨e, he⟩ := isSome_iff_exists.mp (h.attributed.nodes _ a ha)
  obtain ⟨rank, entity⟩ := a
  obtain rfl : entity = some e := he
  refine ⟨rank, e, hnone, ha, ?_⟩
  rw [Locals.attrs, hnone, ha]
  rfl

end

end

variable [DecidableEq ι]

lemma keep (h : Merging lists G₀ s) (hphase : s'.phase = update s.phase i p)
    (hedges : s'.graph.edges = s.graph.edges) (hnodes : ∀ v, s'.graph.nodes.contains v = s.graph.nodes.contains v)
    (hattrs : ∀ v a, s'.graph.nodes.get? v = some a → a.entity.isSome = true)
    (htask : TaskOk (lists i) s.graph p) (hpending : p.pending (lists i) = (s.phase i).pending (lists i))
    (hcursor : ∀ c, p.cursor = some c → (∃ c', (s.phase i).cursor = some c' ∧ c.node1 = c'.node1) ∨
        ∀ j, j ≠ i → ∀ c', (s.phase j).cursor = some c' → s.graph.edge? c.node1 c'.node1 = none)
    (hlive : ∀ r r' e, r ≠ r' → Between lists r r' e →
      (Live (update s.phase i p) e ↔ Live s.phase e)) : Merging lists G₀ s' := by
  have hedge : ∀ m n, s'.graph.edge? m n = s.graph.edge? m n := fun m n => by
    rw [edge?, hedges, edge?]
  have hnew : ∀ j c c', j ≠ i → p.cursor = some c → (s.phase j).cursor = some c' →
      s.graph.edge? c.node1 c'.node1 = none := fun j c c' hj hc hc' => by
    rcases hcursor c hc with ⟨d, hd, he⟩ | hnone
    · rw [he]
      exact h.apart i j d c' hj.symm hd hc'
    · exact hnone j hj c' hc'
  refine ⟨fun j => ?_, ⟨hattrs, fun e b he => ?_⟩, fun v => ?_, fun j k d d' hne hd hd' => ?_,
    fun M _ μ hμ r r' hr => ?_⟩
  · have hok : TaskOk (lists j) s.graph (s'.phase j) := by
      rw [hphase]
      by_cases hj : j = i
      · subst hj
        rw [update_self]
        exact htask
      · rw [update_of_ne hj]
        exact h.task j
    refine hok.congr (fun L hL x hx => ⟨hnodes x ▸ hx, by rw [hedge]; exact id⟩)
      (fun c hc x => by rw [hedge]) fun c hc x hx => ?_
    obtain ⟨b, hb⟩ := isSome_iff_exists.mp ((hok.cursor c hc).2.2 x hx)
    rw [hnodes]
    exact (contains_of_edge? hb).2
  · rw [hedges] at he
    exact h.attributed.edges e b he
  · rw [hnodes, h.nodes v]
    refine and_congr_right fun _ => forall_congr' fun j => imp_congr_right fun _ => ?_
    rw [hphase]
    by_cases hj : j = i
    · subst hj
      rw [update_self, hpending]
    · rw [update_of_ne hj]
  · rw [hedge]
    rw [hphase] at hd hd'
    by_cases hj : j = i
    · subst hj
      rw [update_self] at hd
      rw [update_of_ne hne.symm] at hd'
      exact hnew k d d' hne.symm hd hd'
    · rw [update_of_ne hj] at hd
      by_cases hk : k = i
      · subst hk
        rw [update_self] at hd'
        rw [edge?_comm]
        exact hnew j d' d hj hd' hd
      · rw [update_of_ne hk] at hd'
        exact h.apart j k d d' hne hd hd'
  · classical
    refine Eq.trans (weigh_congr fun e => ?_) (h.measure M μ hμ r r' hr)
    unfold share
    rw [hedges, hphase]
    by_cases hb : Between lists r r' e
    · simp only [hb, true_and, hlive r r' e hr hb]
    · simp only [hb, false_and]

omit [LinearOrder S] [AddCommMonoid W] [DecidableEq ι] in
lemma edges_add_edge (m n : V) (b : EdgeAttrs S W) :
    (add_edge G m n (some b)).edges = G.edges.set s(m, n) (some b) := rfl

omit [LinearOrder S] [AddCommMonoid W] [DecidableEq ι] in
lemma edge?_add_edge (m n x y : V) (b : EdgeAttrs S W) : (add_edge G m n (some b)).edge? x y =
      if s(x, y) = s(m, n) then some (some b) else G.edge? x y := by
  rw [edge?, edges_add_edge, Dict.get?_set]
  rfl

variable {n : V} {b : EdgeAttrs S W}

omit [LinearOrder S] [AddCommMonoid W] [DecidableEq ι] in
lemma edges_get?_add_edge (m n : V) (b : EdgeAttrs S W) (e : Sym2 V) :
    (add_edge G m n (some b)).edges.get? e = if e = s(m, n) then some (some b) else G.edges.get? e := by
  rw [edges_add_edge, Dict.get?_set]

section Edge

variable (h : Merging lists G₀ s) (hf : Family lists G₀) (hL : (s.phase i).locals = some L)
  (hc : (s.phase i).cursor = some c)
include h hf hL hc

omit [DecidableEq ι] in
lemma between_node0_iff (r r' : V) : Between lists r r' s(L.node0, n) ↔ Between lists r r' s(c.node1, n) := by
  obtain ⟨-, -, ⟨tail, htail⟩, -⟩ := (h.task i).locals L hL
  have hmem := mem_of_mem_tail (h.cursor_mem_tail hc)
  unfold Between
  rw [Sym2.map_mk, Sym2.map_mk, hf.representative_eq htail (htail ▸ mem_cons_self), hf.representative_eq htail hmem]

variable (hn : n ∉ L.nodes)
include hn

omit [DecidableEq ι] in
lemma kept_edge_ne (hedge : (s.graph.edge? c.node1 n).isSome = true)
    (hd : (s.phase j).cursor = some c') (x : V) : s(L.node0, n) ≠ s(c'.node1, x) := by
  intro he
  rw [Sym2.eq_iff] at he
  rcases he with ⟨hnode, -⟩ | ⟨-, hnode⟩
  · exact h.node0_ne hf hL (h.cursor_mem_tail hd) hnode
  · by_cases hij : i = j
    · subst hij
      have hmem := mem_of_mem_tail (h.cursor_mem_tail hd)
      rw [((h.task i).locals L hL).1, hnode] at hn
      exact hn hmem
    · rw [hnode, h.apart i j c c' hij hc hd] at hedge
      cases hedge

variable (hgraph : s'.graph = add_edge s.graph L.node0 n (some b))
  (hphase : s'.phase = Function.update s.phase i p)
  (htask : TaskOk (lists i) s'.graph (s.phase i) → TaskOk (lists i) s'.graph p)
  (hpending : p.pending (lists i) = (s.phase i).pending (lists i))
include hgraph hphase htask hpending

lemma setEdge (hedge : (s.graph.edge? c.node1 n).isSome = true)
    (hcursor : p.cursor = some c') (hnode : c'.node1 = c.node1)
    (hmeasure : ∀ (M : Type) [AddCommMonoid M] (μ : Option (EdgeAttrs S W) → M), Additive μ →
      ∀ r r', ∀ [DecidablePred fun e => Between lists r r' e ∧ Live s'.phase e]
        [DecidablePred fun e => Between lists r r' e ∧ Live s.phase e],
        s'.graph.weigh (fun e => Between lists r r' e ∧ Live s'.phase e) μ =
          s.graph.weigh (fun e => Between lists r r' e ∧ Live s.phase e) μ) : Merging lists G₀ s' := by
  obtain ⟨b1, hb1⟩ := isSome_iff_exists.mp hedge
  have hnodes : s'.graph.nodes = s.graph.nodes := by
    rw [hgraph]
    exact nodes_addEdge _ _ (h.contains_node0 hf hL) (contains_of_edge? hb1).2
  have hedge' : ∀ x y, s'.graph.edge? x y =
      if s(x, y) = s(L.node0, n) then some (some b) else s.graph.edge? x y := fun x y => by
    rw [hgraph, edge?_add_edge]
  have hout : ∀ j d, (s.phase j).cursor = some d → ∀ x,
      s'.graph.edge? d.node1 x = s.graph.edge? d.node1 x := fun j d hd x => by
    rw [hedge', if_neg (h.kept_edge_ne hf hL hc hn hedge hd x).symm]
  have hold : ∀ j, TaskOk (lists j) s'.graph (s.phase j) := fun j => by
    refine (h.task j).congr (fun L' hL' x hx => ⟨hnodes ▸ hx, fun hsome => ?_⟩)
      (fun d hd x => by rw [hout j d hd]) fun d hd x hx => ?_
    · rw [hedge']
      split
      · rfl
      · exact hsome
    · obtain ⟨b2, hb2⟩ := isSome_iff_exists.mp (((h.task j).cursor d hd).2.2 x hx)
      rw [hnodes]
      exact (contains_of_edge? hb2).2
  have hcur : ∀ j d, (s'.phase j).cursor = some d →
      ∃ d', (s.phase j).cursor = some d' ∧ d.node1 = d'.node1 := fun j d hd => by
    rw [hphase] at hd
    by_cases hj : j = i
    · subst hj
      rw [update_self, hcursor, some.injEq] at hd
      exact ⟨c, hc, hd ▸ hnode⟩
    · rw [update_of_ne hj] at hd
      exact ⟨d, hd, rfl⟩
  refine ⟨fun j => ?_, ⟨fun v a hv => ?_, fun e b' he => ?_⟩, fun v => ?_,
    fun j k d d' hne hd hd' => ?_, fun M _ μ hμ r r' hr => ?_⟩
  · rw [hphase]
    by_cases hj : j = i
    · subst hj
      rw [update_self]
      exact htask (hold j)
    · rw [update_of_ne hj]
      exact hold j
  · rw [hnodes] at hv
    exact h.attributed.nodes v a hv
  · rw [hgraph, edges_get?_add_edge] at he
    split at he
    · cases he
      rfl
    · exact h.attributed.edges e b' he
  · rw [hnodes, h.nodes v]
    refine and_congr_right fun _ => forall_congr' fun j => imp_congr_right fun _ => ?_
    rw [hphase]
    by_cases hj : j = i
    · subst hj
      rw [update_self, hpending]
    · rw [update_of_ne hj]
  · obtain ⟨e, he, hde⟩ := hcur j d hd
    obtain ⟨e', he', hde'⟩ := hcur k d' hd'
    rw [hde, hde', hout j e he]
    exact h.apart j k e e' hne he he'
  · classical
    exact (hmeasure M μ hμ r r').trans (h.measure M μ hμ r r' hr)

lemma moveEdge {b1 : Option (EdgeAttrs S W)} (hedge : s.graph.edge? c.node1 n = some b1)
    (hnew : n ∉ c.visited) (hcursor : p.cursor = some { c with visited := c.visited ++ [n] })
    (hgain : ∀ (M : Type) [AddCommMonoid M] (μ : Option (EdgeAttrs S W) → M), Additive μ →
      μ (some b) = (s.graph.edge? L.node0 n).elim 0 μ + μ b1) : Merging lists G₀ s' := by
  have hsome : (s.graph.edge? c.node1 n).isSome = true := by rw [hedge]; rfl
  refine h.setEdge hf hL hc hn hgraph hphase htask hpending hsome hcursor rfl fun M _ μ hμ r r' _ _ => ?_
  have hkept : ∀ j d, (s.phase j).cursor = some d → ∀ x ∈ d.visited,
      s(L.node0, n) ≠ s(d.node1, x) := fun j d hd x _ => h.kept_edge_ne hf hL hc hn hsome hd x
  have hlive : Live s.phase s(L.node0, n) := hkept
  have hlive' : Live s'.phase s(L.node0, n) := by
    rw [hphase, live_update_iff, hcursor]
    refine ⟨fun d hd x hx => ?_, fun j _ d hd x hx => hkept j d hd x hx⟩
    cases hd
    exact h.kept_edge_ne hf hL hc hn hsome hc x
  have hmoved : Live s.phase s(c.node1, n) := by
    intro j d hd x hx he
    rw [Sym2.eq_iff] at he
    rcases he with ⟨hnode, hx'⟩ | ⟨-, hd'⟩
    · obtain rfl := h.cursor_inj hf hc hd hnode
      rw [hc, some.injEq] at hd
      exact hnew (hx' ▸ hd ▸ hx)
    · refine h.kept_edge_ne hf hL hc hn hsome hd L.node0 ?_
      rw [hd', Sym2.eq_swap]
  have hgone : ¬ Live s'.phase s(c.node1, n) := by
    intro hl
    rw [hphase, live_update_iff, hcursor] at hl
    exact hl.1 _ rfl n (by simp) rfl
  have hne : s(L.node0, n) ≠ s(c.node1, n) := h.kept_edge_ne hf hL hc hn hsome hc n
  refine weigh_move hne (fun e he he' => ?_) ?_
  · have hiff : Live s'.phase e ↔ Live s.phase e := by
      rw [hphase, live_update_iff, hcursor]
      constructor
      · rintro ⟨hi, hout⟩ j d hd x hx
        by_cases hj : j = i
        · subst hj
          rw [hc, some.injEq] at hd
          subst hd
          exact hi _ rfl x (mem_append_left _ hx)
        · exact hout j hj d hd x hx
      · intro hl
        refine ⟨fun d hd x hx => ?_, fun j _ d hd x hx => hl j d hd x hx⟩
        cases hd
        rcases mem_append.mp hx with hx | hx
        · exact hl i c hc x hx
        · rw [mem_singleton.mp hx]
          exact he'
    unfold share
    rw [hgraph, edges_get?_add_edge, if_neg he]
    simp only [hiff]
  · have hget : s.graph.edges.get? s(c.node1, n) = some b1 := hedge
    unfold share
    rw [hgraph, edges_get?_add_edge, hget]
    by_cases hb : Between lists r r' s(c.node1, n)
    · have hb' := (h.between_node0_iff hf hL hc r r').mpr hb
      simp only [hb, hb', hlive, hlive', hmoved, hgone, and_self, and_false, if_true, if_false, elim_some, add_zero]
      exact hgain M μ hμ
    · have hb' : ¬ Between lists r r' s(L.node0, n) := fun hb' =>
        hb ((h.between_node0_iff hf hL hc r r').mp hb')
      simp only [hb, hb', false_and, if_false]

lemma describeEdge (hvisited : n ∈ c.visited) {b0 : Option (EdgeAttrs S W)}
    (hedge : s.graph.edge? L.node0 n = some b0) (hcursor : p.cursor = some c)
    (hsame : ∀ (M : Type) [AddCommMonoid M] (μ : Option (EdgeAttrs S W) → M), Additive μ →
      μ (some b) = μ b0) : Merging lists G₀ s' := by
  have hsome := ((h.task i).cursor c hc).2.2 n hvisited
  refine h.setEdge hf hL hc hn hgraph hphase htask hpending hsome hcursor rfl
    fun M _ μ hμ r r' _ _ => weigh_congr fun e => ?_
  have hiff : Live s'.phase e ↔ Live s.phase e := by
    refine forall_congr' fun j => ?_
    rw [hphase]
    by_cases hj : j = i
    · subst hj
      rw [update_self, hcursor, hc]
    · rw [update_of_ne hj]
  have hval : ((add_edge s.graph L.node0 n (some b)).edges.get? e).elim 0 μ = (s.graph.edges.get? e).elim 0 μ := by
    rw [edges_get?_add_edge]
    split
    · rename_i he
      rw [he, show s.graph.edges.get? s(L.node0, n) = some b0 from hedge, elim_some, elim_some, hsame M μ hμ]
    · rfl
  unfold share
  rw [hgraph, hval]
  simp only [hiff]

end Edge

omit [LinearOrder S] [AddCommMonoid W] [DecidableEq ι] in
lemma edge?_removeNode (n x y : V) : (G.removeNode n).edge? x y = if n = x ∨ n = y then none else G.edge? x y := by
  rw [edge?, get?_edges_removeNode]
  simp only [Sym2.mem_iff]
  rfl

omit [DecidableEq ι] in
lemma detach_eq (h : Merging lists G₀ s) (hf : Family lists G₀)
    (hi : s.phase i = .visiting L rest c) (j : ι) : (s.phase j).detach s.graph c.node1 = s.phase j := by
  have hc : (s.phase i).cursor = some c := by rw [hi]; rfl
  have hL : ∀ L', (s.phase j).locals = some L' → L'.detach s.graph c.node1 = L' :=
    fun L' hL' => if_neg (h.node0_ne hf hL' (h.cursor_mem_tail hc))
  cases hp : s.phase j with
  | waiting | finished | raised => rfl
  | merging L' rest' | concluding L' | visiting L' rest' c' =>
    rw [hp] at hL
    simp only [MergePhase.detach, hL L' rfl]
  | summarising L' rest' c' n e =>
    have hL' : (s.phase j).locals = some L' := by rw [hp]; rfl
    have hc' : (s.phase j).cursor = some c' := by rw [hp]; rfl
    have hne : i ≠ j := by
      rintro rfl
      rw [hi] at hp
      cases hp
    obtain ⟨-, hmem, -, -⟩ := (h.task j).awaiting L' rest' c' n e hp
    have hn : ¬ (c.node1 = L'.node0 ∨ c.node1 = n) := by
      rintro (hn | hn)
      · exact h.node0_ne hf hL' (h.cursor_mem_tail hc) hn.symm
      · have hsome := ((h.task j).cursor c' hc').2.2 n hmem
        rw [← hn, h.apart j i c' c hne.symm hc' hc] at hsome
        cases hsome
    simp only [MergePhase.detach, hL L' hL', if_neg hn]

section Remove

variable (h : Merging lists G₀ s) (hi : s.phase i = .visiting L rest c) (hgraph : s'.graph = s.graph.removeNode c.node1)

omit [LinearOrder S] [AddCommMonoid W] [DecidableEq ι] in
include hgraph in
lemma remove_contains (v : V) : s'.graph.nodes.contains v = true ↔ v ≠ c.node1 ∧ s.graph.nodes.contains v = true := by
  rw [hgraph, nodes_removeNode, Dict.contains_erase, Bool.and_eq_true, decide_eq_true_iff]

omit [DecidableEq ι] in
include h hgraph in
lemma remove_attributed : Attributed s'.graph := by
  refine ⟨fun v a hv => ?_, fun e b he => ?_⟩
  · rw [hgraph, nodes_removeNode, Dict.get?_erase] at hv
    split at hv
    · cases hv
    · exact h.attributed.nodes v a hv
  · rw [hgraph, get?_edges_removeNode] at he
    split at he
    · cases he
    · exact h.attributed.edges e b he

variable (hf : Family lists G₀)
include h hi hf

omit [DecidableEq ι] in
/-- The edges at the nodes that other tasks merge stay. -/
lemma remove_out (hgraph : s'.graph = s.graph.removeNode c.node1) {j : ι} {d : Cursor V} (hj : j ≠ i)
    (hd : (s.phase j).cursor = some d) (x : V) : s'.graph.edge? d.node1 x = s.graph.edge? d.node1 x := by
  have hc : (s.phase i).cursor = some c := by rw [hi]; rfl
  rw [hgraph, edge?_removeNode]
  split
  · rename_i hx
    rcases hx with hx | hx
    · exact absurd (h.cursor_inj hf hd hc hx.symm) hj
    · rw [← hx, h.apart j i d c hj hd hc]
  · rfl

omit [DecidableEq ι] in
lemma remove_notMem : rest <:+ (lists i).tail ∧ c.node1 ∉ rest := by
  have hpend := (h.task i).pending
  rw [hi] at hpend
  have hnd : (c.node1 :: rest).Nodup := ((hf.nodup i).sublist (tail_sublist _)).sublist hpend.sublist
  exact ⟨(suffix_cons c.node1 rest).trans hpend, (nodup_cons.mp hnd).1⟩

variable (hphase : s'.phase = update s.phase i (.merging L rest))

include hgraph hphase in
lemma remove_task (j : ι) : TaskOk (lists j) s'.graph (s'.phase j) := by
  have hc : (s.phase i).cursor = some c := by rw [hi]; rfl
  have hkept : ∀ j L', (s.phase j).locals = some L' → ∀ x, s'.graph.nodes.contains x = true →
      s.graph.nodes.contains x = true ∧ ((s.graph.edge? L'.node0 x).isSome = true →
        (s'.graph.edge? L'.node0 x).isSome = true) := fun j L' hL' x hx => by
    rw [remove_contains hgraph] at hx
    refine ⟨hx.2, fun hsome => ?_⟩
    rw [hgraph, edge?_removeNode, if_neg]
    · exact hsome
    · rintro (hx' | hx')
      · exact h.node0_ne hf hL' (h.cursor_mem_tail hc) hx'.symm
      · exact hx.1 hx'.symm
  rw [hphase]
  by_cases hj : j = i
  · subst hj
    rw [update_self]
    have hL : (s.phase j).locals = some L := by rw [hi]; rfl
    obtain ⟨hnodes, hattrs, hhead, hsnap⟩ := (h.task j).locals L hL
    refine ⟨(by rintro ⟨⟩), fun L' hL' => ?_, (remove_notMem h hi hf).1, (by rintro _ ⟨⟩),
      (by intros; contradiction)⟩
    cases hL'
    refine ⟨hnodes, hattrs, hhead, fun x hx hin => ?_⟩
    obtain ⟨hin', hsome⟩ := hkept j L hL x hin
    exact hsome (hsnap x hx hin')
  · rw [update_of_ne hj]
    have hout : ∀ d, (s.phase j).cursor = some d → ∀ x, s'.graph.edge? d.node1 x = s.graph.edge? d.node1 x :=
      fun d hd => remove_out h hi hf hgraph hj hd
    refine (h.task j).congr (hkept j) (fun d hd x => by rw [hout d hd]) fun d hd x hx => ?_
    obtain ⟨b, hb⟩ := isSome_iff_exists.mp (((h.task j).cursor d hd).2.2 x hx)
    rw [← hout d hd] at hb
    exact (contains_of_edge? hb).2

include hgraph hphase in
lemma remove_nodes (v : V) : s'.graph.nodes.contains v = true ↔ G₀.nodes.contains v = true ∧
    ∀ j, v ∈ (lists j).tail → v ∈ (s'.phase j).pending (lists j) := by
  have hc : (s.phase i).cursor = some c := by rw [hi]; rfl
  rw [remove_contains hgraph, h.nodes v, hphase]
  constructor
  · rintro ⟨hne, hv, hpend⟩
    refine ⟨hv, fun j hj => ?_⟩
    have hold := hpend j hj
    by_cases hji : j = i
    · subst hji
      rw [hi] at hold
      rw [update_self]
      exact (mem_cons.mp hold).resolve_left hne
    · rw [update_of_ne hji]
      exact hold
  · rintro ⟨hv, hpend⟩
    refine ⟨?_, hv, fun j hj => ?_⟩
    · rintro rfl
      have hmem := hpend i (h.cursor_mem_tail hc)
      rw [update_self] at hmem
      exact (remove_notMem h hi hf).2 hmem
    · have hmem := hpend j hj
      by_cases hji : j = i
      · subst hji
        rw [update_self] at hmem
        rw [hi]
        exact mem_cons_of_mem _ hmem
      · rw [update_of_ne hji] at hmem
        exact hmem

include hgraph hphase in
lemma remove_apart {j k : ι} {d d' : Cursor V} (hne : j ≠ k) (hd : (s'.phase j).cursor = some d)
    (hd' : (s'.phase k).cursor = some d') : s'.graph.edge? d.node1 d'.node1 = none := by
  have hcur : ∀ j d, (s'.phase j).cursor = some d → j ≠ i ∧ (s.phase j).cursor = some d :=
    fun j d hd => by
      rw [hphase] at hd
      by_cases hj : j = i
      · subst hj
        rw [update_self] at hd
        cases hd
      · rw [update_of_ne hj] at hd
        exact ⟨hj, hd⟩
  obtain ⟨hj, hd⟩ := hcur j d hd
  obtain ⟨-, hd'⟩ := hcur k d' hd'
  rw [remove_out h hi hf hgraph hj hd]
  exact h.apart j k d d' hne hd hd'

open scoped Classical in
include hgraph hphase in
omit hf in
lemma remove_measure (hall : ∀ n, (s.graph.edge? c.node1 n).isSome = true → n ∈ c.visited)
    {M : Type} [AddCommMonoid M] {μ : Option (EdgeAttrs S W) → M} (hμ : Additive μ) {r r' : V} (hr : r ≠ r') :
    s'.graph.weigh (fun e => Between lists r r' e ∧ Live s'.phase e) μ = G₀.weigh (Between lists r r') μ := by
  have hc : (s.phase i).cursor = some c := by rw [hi]; rfl
  refine Eq.trans (weigh_congr fun e => ?_) (h.measure M μ hμ r r' hr)
  unfold share
  rw [hgraph, get?_edges_removeNode]
  by_cases hmem : c.node1 ∈ e
  · obtain ⟨n, rfl⟩ := hmem
    cases hget : s.graph.edges.get? s(c.node1, n) with
    | none => simp
    | some b =>
      have hn : n ∈ c.visited := hall n (by rw [edge?, hget]; rfl)
      have hdead : ¬ Live s.phase s(c.node1, n) := fun hl => hl i c hc n hn rfl
      simp [hdead]
  · have hiff : Live s'.phase e ↔ Live s.phase e := by
      rw [hphase, live_update_iff]
      constructor
      · rintro ⟨-, hl⟩ j d hd x hx
        by_cases hj : j = i
        · subst hj
          rw [hc, some.injEq] at hd
          subst hd
          rintro rfl
          exact hmem (Sym2.mem_mk_left _ _)
        · exact hl j hj d hd x hx
      · exact fun hl => ⟨(by rintro _ ⟨⟩), fun j _ d hd x hx => hl j d hd x hx⟩
    rw [if_neg hmem]
    simp only [hiff]

end Remove

lemma remove (h : Merging lists G₀ s) (hf : Family lists G₀) (hi : s.phase i = .visiting L rest c)
    (hall : ∀ n, (s.graph.edge? c.node1 n).isSome = true → n ∈ c.visited)
    (hgraph : s'.graph = s.graph.removeNode c.node1)
    (hphase : s'.phase = update s.phase i (.merging L rest)) : Merging lists G₀ s' where
  task := remove_task h hi hgraph hf hphase
  attributed := remove_attributed h hgraph
  nodes := remove_nodes h hi hgraph hf hphase
  apart _ _ _ _ hne hd hd' := remove_apart h hi hgraph hf hphase hne hd hd'
  measure _ _ _ hμ _ _ hr := remove_measure h hi hgraph hphase hall hμ hr

end Merging

end CustomAi.Ragflow
