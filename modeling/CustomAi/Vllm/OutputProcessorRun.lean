import Mathlib.Data.Finset.Sort
import Mathlib.Data.String.Basic
import CustomAi.Vllm.OutputProcessorCalls

/-!
# Aborting requests

`abort_requests` takes the requests out of the index first and removes them one by one.
-/

namespace CustomAi.Vllm

open List Option OutputProcessor

variable {L D : Type}

namespace OutputProcessor

variable {s s' : OutputProcessor L D} {pending ids : List RequestId} {id p : RequestId}
  {r : TrackedRequest L D}

lemma Books.resolveInternal (h : s.Books pending)
    (hdist : ids.Pairwise fun x y => s.requestStates.get? y ≠ none → x ≠ y)
    (hout : ∀ x ∈ ids, s.requestStates.get? x ≠ none → x ∉ pending) :
    ∃ externalReqIds, resolveIds true ids s = .ok (ids, { s with externalReqIds }) ∧
      Books { s with externalReqIds } (ids ++ pending) := by
  induction ids generalizing s pending with
  | nil => exact ⟨s.externalReqIds, rfl, h⟩
  | cons x rest ih =>
    rw [pairwise_cons] at hdist
    have hstep : ∃ externalReqIds, s.resolveOne true x = .ok ([x], { s with externalReqIds }) ∧
        Books { s with externalReqIds } (x :: pending) := by
      unfold resolveOne
      rw [if_pos rfl]
      cases hx : s.requestStates.get? x with
      | none =>
        refine ⟨s.externalReqIds, rfl, h.widen (fun y => mem_cons_of_mem x) fun y hy => ?_⟩
        rcases mem_cons.mp hy with rfl | hy
        · exact .inr hx
        · exact .inl hy
      | some r =>
        obtain ⟨hok, hbooks⟩ := h.removeInternalId hx (hout x mem_cons_self (by rw [hx]; nofun))
        exact ⟨_, by simp only [hok, ok_bind, pure_eq_ok], hbooks⟩
    obtain ⟨e, hone, hbooks⟩ := hstep
    obtain ⟨e', hrest, hbooks'⟩ := ih hbooks hdist.2 fun y hy hlive hmem => by
      rcases mem_cons.mp hmem with rfl | hmem
      · exact hdist.1 y hy hlive rfl
      · exact hout y (mem_cons_of_mem x hy) hlive hmem
    refine ⟨e', ?_, hbooks'.widen (fun y hy => ?_) fun y hy => .inl ?_⟩
    · simp only [resolveIds, hone, hrest, ok_bind, pure_eq_ok, singleton_append]
    · simp only [mem_append, mem_cons] at hy ⊢
      tauto
    · simp only [mem_append, mem_cons] at hy ⊢
      tauto

lemma Books.resolveExternal (h : s.Books pending) (ids : List RequestId) :
    ∃ l externalReqIds, resolveIds false ids s = .ok (l, { s with externalReqIds }) ∧
      Books { s with externalReqIds } (l ++ pending) ∧ l.Nodup ∧
      ∀ x, x ∈ l ↔ x ∉ pending ∧ ∃ e ∈ ids, s.HasExternalId e x := by
  induction ids generalizing s pending with
  | nil => exact ⟨[], s.externalReqIds, rfl, h, nodup_nil, fun x => by simp⟩
  | cons e rest ih =>
    have hmem := h.external.mem_iff e
    have hbooks : Books { s with externalReqIds := s.externalReqIds.erase e }
        (s.externalReqIds.listAt e ++ pending) := by
      refine ⟨h.keyed, (h.external.erase e).congr fun e' x => ?_, h.registered, fun q hq => ?_,
        h.made, h.listed, fun q hq x hx => ?_, h.unique, h.disjoint, h.childOk, h.parentOk, h.drained⟩
      · rw [mem_append, not_or, hmem]
        constructor
        · rintro ⟨⟨⟨r, hr, he⟩, hx⟩, hne⟩
          refine ⟨⟨r, hr, he⟩, fun ⟨⟨r', hr', he'⟩, _⟩ => hne ?_, hx⟩
          rw [hr, some.injEq] at hr'
          rw [← he, hr', he']
        · rintro ⟨hext, hno, hx⟩
          refine ⟨⟨hext, hx⟩, fun he => ?_⟩
          subst he
          exact hno ⟨hext, hx⟩
      · exact (h.justified q hq).imp_right (mem_append_right _)
      · exact (h.children q hq x hx).imp_right fun ⟨hm, hn⟩ => ⟨mem_append_right _ hm, hn⟩
    obtain ⟨l, e', hrest, hbooks', hnd, hl⟩ := ih hbooks
    refine ⟨s.externalReqIds.listAt e ++ l, e', ?_, hbooks'.widen (fun y hy => ?_) fun y hy =>
      .inl ?_, ?_, fun x => ?_⟩
    · simp only [resolveIds, resolveOne, Bool.false_eq_true, ite_false, hrest, ok_bind, pure_eq_ok]
    · simp only [mem_append] at hy ⊢
      tauto
    · simp only [mem_append] at hy ⊢
      tauto
    · refine Nodup.append (h.external.nodup e) hnd fun x hx hx' => ?_
      exact ((hl x).mp hx').1 (mem_append_left _ hx)
    · rw [mem_append, hl, mem_append, hmem]
      constructor
      · rintro (⟨hext, hx⟩ | ⟨hno, e'', he'', hext⟩)
        · exact ⟨hx, e, mem_cons_self, hext⟩
        · exact ⟨fun hx => hno (.inr hx), e'', mem_cons_of_mem e he'', hext⟩
      · rintro ⟨hx, e'', he'', hext⟩
        by_cases hxe : s.HasExternalId e x
        · exact .inl ⟨hxe, hx⟩
        · refine .inr ⟨fun hor => hor.elim (fun hh => hxe hh.1) hx, e'', ?_, hext⟩
          rcases mem_cons.mp he'' with rfl | he''
          · exact absurd hext hxe
          · exact he''

/-- The requests `ids` can be removed in this order: none after its parent, and a parent goes too or
keeps a live child. -/
structure Removable (s : OutputProcessor L D) (ids rest : List RequestId) : Prop where
  order : ids.Pairwise fun x y => ∀ r, s.requestStates.get? y = some r → x ≠ y ∧ r.parentReq ≠ some x
  apart : ∀ x ∈ ids, s.requestStates.get? x ≠ none → x ∉ rest
  pooling : ∀ x ∈ ids, ∀ r, s.requestStates.get? x = some r → r.queue = true →
    r.pooling = true → r.streamInterval ≤ 1
  parent : ∀ x ∈ ids, ∀ r, s.requestStates.get? x = some r → ∀ p, r.parentReq = some p →
    p ∈ ids ++ rest ∨ (r.queue = true ∧ ∃ x', s.Child x' p ∧ x' ∉ ids ++ rest)

lemma Books.abortOutput (h : s.Books pending) (hr : s.requestStates.get? id = some r)
    (hpool : r.pooling = true → r.streamInterval ≤ 1) (requestStates' : Dict RequestId (TrackedRequest L D)) :
    ∃ parents', OutputProcessor.abortOutput { s with requestStates := requestStates' } r =
        .ok { s with requestStates := requestStates', parents := parents' } ∧
      ParentsAfter s.parents parents' r.parentReq id true := by
  have hid := h.keyed id r hr
  unfold OutputProcessor.abortOutput
  cases hp : r.pooling with
  | true =>
    obtain ⟨out, hout⟩ : ∃ out, r.makePoolingOutput (some .abort) = .ok out := by
      unfold TrackedRequest.makePoolingOutput
      rw [ensure_of (hpool hp)]
      exact ⟨_, rfl⟩
    have hnone : r.parentReq = none := by
      cases hq : r.parentReq with
      | none => rfl
      | some q =>
        have hok := (h.childOk id r q hr hq).pooling
        rw [hp] at hok
        cases hok
    simp only [ite_true, hout, ok_bind, pure_eq_ok]
    exact ⟨s.parents, rfl, hnone ▸ ParentsAfter.refl s.parents id⟩
  | false =>
    have hindex : ∀ parent ∈ r.parentReq.bind s.parents.get?, parent.samplingParams.outputKind = .finalOnly →
        r.requestIndex < parent.outputAggregator.length := by
      intro parent hparent hkind
      obtain ⟨q, hq, hparent⟩ := bind_eq_some_iff.mp hparent
      rw [(h.parentOk q parent hparent).2 hkind]
      exact (h.childOk id r q hr hq).index parent hparent
    obtain ⟨out, state, parent, hmake, -, hreported⟩ :=
      RequestState.makeRequestOutput_reported hindex [] (some .abort) none
    rw [hid] at hreported
    simp only [Bool.false_eq_true, ite_false, hmake, ok_bind, pure_eq_ok]
    exact ⟨_, rfl, parentsAfter_of_reported hreported⟩

variable {order : SetOrder} {abortChildren : OutputProcessor L D → List RequestId →
  Except PyError (List RequestId × OutputProcessor L D)} {rest : List RequestId}

variable (order abortChildren) in
lemma Books.abortLive (h : s.Books (id :: pending)) (hr : s.requestStates.get? id = some r)
    (hpool : r.queue = true → r.pooling = true → r.streamInterval ≤ 1)
    (hkeep : ∀ p, r.parentReq = some p → p ∈ pending ∨ (r.queue = true ∧ ∃ x, x ≠ id ∧ s.Child x p)) :
    ∃ parents', abortOne order abortChildren s id = .ok ([id],
        { s with requestStates := s.requestStates.erase id, parents := parents' }) ∧
      Books { s with requestStates := s.requestStates.erase id, parents := parents' } pending := by
  unfold abortOne
  simp only [hr]
  cases hq : r.queue with
  | true =>
    obtain ⟨parents', hout, hafter⟩ := h.abortOutput hr (hpool hq) (s.requestStates.erase id)
    simp only [ite_true, hout, ok_bind, pure_eq_ok]
    exact ⟨parents', rfl, h.remove hr (fun x => Dict.get?_erase _ _ _) hafter fun p hp =>
      (hkeep p hp).imp_right fun hk => ⟨rfl, hk.2⟩⟩
  | false =>
    simp only [Bool.false_eq_true, ite_false, pure_eq_ok, ok_bind]
    refine ⟨s.parents, rfl, h.remove hr (fun x => Dict.get?_erase _ _ _)
      (.refl_false s.parents r.parentReq id) fun p hp => ?_⟩
    refine .inl ((hkeep p hp).resolve_right fun hk => ?_)
    rw [hq] at hk
    cases hk.1

lemma Removable.tail (h : Removable s (id :: ids) rest)
    (hlive : ∀ x rx, s'.requestStates.get? x = some rx → s.requestStates.get? x = some rx)
    (hparent : ∀ x ∈ ids, ∀ p, s'.Child x p → p ≠ id)
    (hsurvive : ∀ x ∈ ids, ∀ p, s'.Child x p → ∀ x', s.Child x' p → x' ≠ id → s'.Child x' p) :
    Removable s' ids rest := by
  refine ⟨(pairwise_cons.mp h.order).2.imp fun hxy ry hy => hxy ry (hlive _ ry hy),
    fun x hx hne => ?_, fun x hx rx hrx => ?_, fun x hx rx hrx p hp => ?_⟩
  · obtain ⟨rx, hrx⟩ := ne_none_iff_exists'.mp hne
    exact h.apart x (mem_cons_of_mem id hx) (by rw [hlive x rx hrx]; nofun)
  · exact h.pooling x (mem_cons_of_mem id hx) rx (hlive x rx hrx)
  · rcases h.parent x (mem_cons_of_mem id hx) rx (hlive x rx hrx) p hp with
      hmem | ⟨hq, x', hx', hout⟩
    · exact .inl ((mem_cons.mp hmem).resolve_left (hparent x hx p ⟨rx, hrx, hp⟩))
    · refine .inr ⟨hq, x', ?_, fun hm => hout (mem_cons_of_mem id hm)⟩
      refine hsurvive x hx p ⟨rx, hrx, hp⟩ x' hx' ?_
      rintro rfl
      exact hout mem_cons_self

lemma Removable.tail_of_live (h : Removable s (id :: ids) rest)
    (hbooks : s.Books (id :: ids ++ rest)) (hr : s.requestStates.get? id = some r)
    (hget : ∀ x, s'.requestStates.get? x = if x = id then none else s.requestStates.get? x) :
    Removable s' ids rest := by
  have hlive : ∀ x rx, s'.requestStates.get? x = some rx → s.requestStates.get? x = some rx := by
    intro x rx hx
    rw [hget] at hx
    split at hx
    · cases hx
    · exact hx
  refine h.tail hlive (fun x hx p hchild he => ?_) fun x hx p _ x' hx' hne => ?_
  · obtain ⟨rx, hrx, hp⟩ := hchild
    have hdead := hbooks.parent_dead ⟨rx, hlive x rx hrx, hp⟩
    rw [he, hr] at hdead
    cases hdead
  · obtain ⟨r', hr', hp'⟩ := hx'
    exact ⟨r', by rw [hget, if_neg hne]; exact hr', hp'⟩

lemma abortOne_skip (hdead : s.requestStates.get? id = none) (hno : id ∉ s.parentRequests) :
    abortOne order abortChildren s id = .ok ([], s) := by
  unfold abortOne
  simp only [hdead, if_neg hno, pure_eq_ok]

lemma Books.skip (h : s.Books (id :: pending)) (hdead : s.requestStates.get? id = none)
    (hno : id ∉ s.parentRequests) : s.Books pending := by
  have hun := h.unregister hdead fun x hx => hno (h.registered x id hx)
  rw [Finset.erase_eq_of_notMem hno] at hun
  exact hun

lemma Removable.skip (h : Removable s (id :: ids) rest) (hbooks : s.Books (id :: ids ++ rest))
    (hno : id ∉ s.parentRequests) : Removable s ids rest :=
  h.tail (fun _ _ hx => hx) (fun x _ p hchild he => hno (he ▸ hbooks.registered x p hchild))
    fun _ _ _ _ _ hx' _ => hx'

variable (order abortChildren) in
lemma Books.abortHead (h : s.Books (id :: ids ++ rest)) (hrem : Removable s (id :: ids) rest)
    (hr : s.requestStates.get? id = some r) : ∃ parents', abortOne order abortChildren s id = .ok ([id],
        { s with requestStates := s.requestStates.erase id, parents := parents' }) ∧
      Books { s with requestStates := s.requestStates.erase id, parents := parents' }
        (ids ++ rest) := by
  refine Books.abortLive order abortChildren h hr (hrem.pooling id mem_cons_self r hr)
    fun p hp => ?_
  rcases hrem.parent id mem_cons_self r hr p hp with hmem | ⟨hq, x, hx, hout⟩
  · refine .inl ((mem_cons.mp hmem).resolve_left ?_)
    rintro rfl
    have hdead := h.parent_dead ⟨r, hr, hp⟩
    rw [hr] at hdead
    cases hdead
  · refine .inr ⟨hq, x, ?_, hx⟩
    rintro rfl
    exact hout mem_cons_self

variable (order abortChildren) in
lemma Books.abortLoop_live (h : s.Books (ids ++ rest)) (hrem : Removable s ids rest)
    (hno : ∀ x ∈ ids, x ∉ s.parentRequests) :
    ∃ aborted requestStates parents', abortLoop order abortChildren ids s =
        .ok (aborted, { s with requestStates, parents := parents' }) ∧
      Books { s with requestStates, parents := parents' } rest ∧
      ∀ x, requestStates.get? x = if x ∈ ids then none else s.requestStates.get? x := by
  induction ids generalizing s with
  | nil => exact ⟨[], s.requestStates, s.parents, rfl, h, fun x => by simp⟩
  | cons y ids ih =>
    have hno' : ∀ x ∈ ids, x ∉ s.parentRequests := fun x hx => hno x (mem_cons_of_mem y hx)
    cases hy : s.requestStates.get? y with
    | none =>
      have hny := hno y mem_cons_self
      obtain ⟨aborted, rs, parents', hloop, hbooks, hget⟩ := ih (Books.skip h hy hny) (hrem.skip h hny) hno'
      refine ⟨[] ++ aborted, rs, parents', ?_, hbooks, fun x => ?_⟩
      · simp only [abortLoop, abortOne_skip hy hny, hloop, ok_bind, pure_eq_ok]
      · rw [hget]
        by_cases hx : x = y
        · simp [hx, hy]
        · simp [hx]
    | some r =>
      obtain ⟨parents', hone, hbooks⟩ := h.abortHead order abortChildren hrem hy
      have hrem' : Removable { s with
          requestStates := s.requestStates.erase y
          parents := parents' } ids rest :=
        hrem.tail_of_live h hy fun x => Dict.get?_erase _ _ _
      obtain ⟨aborted, rs, parents'', hloop, hbooks', hget⟩ := ih hbooks hrem' hno'
      refine ⟨[y] ++ aborted, rs, parents'', ?_, hbooks', fun x => ?_⟩
      · simp only [abortLoop, hone, hloop, ok_bind, pure_eq_ok]
      · rw [hget]
        change (if x ∈ ids then none else (s.requestStates.erase y).get? x) = _
        rw [Dict.get?_erase]
        by_cases hx : x = y
        · simp [hx]
        · simp [hx]

variable (order) in
lemma Books.abortChildrenOf (depth : ℕ) (h : s.Books (p :: pending)) (hp : p ∈ s.parentRequests)
    (hout : ∀ x, s.Child x p → x ∉ p :: pending) :
    ∃ aborted s', abortRequests order (depth + 1) s (order.toList (s.childRequests p)) true =
        .ok (aborted, s') ∧ s'.Books (p :: pending) ∧
      ∀ x, s'.requestStates.get? x = if x ∈ s.childRequests p then none else s.requestStates.get? x := by
  set children := order.toList (s.childRequests p) with hchildren
  have hmem : ∀ x, x ∈ children ↔ x ∈ s.childRequests p := order.mem_iff _
  have hchild : ∀ x ∈ children, s.requestStates.get? x ≠ none → s.Child x p := by
    intro x hx hne
    refine (h.children p hp x ((hmem x).mp hx)).resolve_right fun hdead => hne hdead.2
  have hdist : children.Pairwise fun x y => s.requestStates.get? y ≠ none → x ≠ y :=
    (order.nodup (s.childRequests p)).imp (by
      intro x y hne _
      exact hne)
  obtain ⟨e, hresolve, hbooks⟩ := h.resolveInternal hdist fun x hx hne => hout x (hchild x hx hne)
  have hno : ∀ x ∈ children, x ∉ s.parentRequests := fun x hx hreg =>
    h.made x hreg (h.unique p x ((hmem x).mp hx))
  have hrem : Removable { s with externalReqIds := e } children (p :: pending) := by
    refine ⟨?_, fun x hx hne => hout x (hchild x hx hne), fun x hx r hr _ hpool => ?_,
      fun x hx r hr q hq => .inl ?_⟩
    · refine (order.nodup (s.childRequests p)).imp_of_mem fun {x y} hx hy hne r hr => ⟨hne, ?_⟩
      intro hparent
      exact hno x hx (h.registered y x ⟨r, hr, hparent⟩)
    · obtain ⟨r', hr', hq⟩ := hchild x hx (by rw [hr]; nofun)
      rw [hr, some.injEq] at hr'
      subst hr'
      have hok := (h.childOk x r p hr hq).pooling
      rw [hpool] at hok
      cases hok
    · obtain ⟨r', hr', hq'⟩ := hchild x hx (by rw [hr]; nofun)
      rw [hr, some.injEq] at hr'
      subst hr'
      rw [hq, some.injEq] at hq'
      subst hq'
      exact mem_append_right _ mem_cons_self
  obtain ⟨aborted, rs, parents', hloop, hbooks', hget⟩ := hbooks.abortLoop_live order
    (fun self children => abortRequests order depth self children true) hrem hno
  refine ⟨aborted, _, ?_, hbooks'.setDrained, fun x => ?_⟩
  · simp only [abortRequests, hresolve, hloop, ok_bind, pure_eq_ok]
  · have hsame : ∀ u : OutputProcessor L D, u.setDrained.requestStates = u.requestStates := by
      intro u
      unfold OutputProcessor.setDrained
      split <;> rfl
    rw [hsame]
    change rs.get? x = _
    rw [hget]
    simp only [hmem]

lemma Books.abortParent {depth : ℕ} (h : s.Books (p :: ids)) (hrem : Removable s (p :: ids) [])
    (hdead : s.requestStates.get? p = none) (hp : p ∈ s.parentRequests) :
    ∃ aborted s', abortOne order (fun self children =>
        abortRequests order (depth + 1) self children true) s p = .ok (aborted, s') ∧
      s'.Books ids ∧ Removable s' ids [] := by
  have hlisted : ∀ x, s.Child x p → x ∈ s.childRequests p := fun x hx => h.listed x p hx
  have hnot : ∀ x q, s.Child x q → q ≠ p → x ∉ s.childRequests p := by
    intro x q hq hne hx
    obtain ⟨r, hr, hparent⟩ := hq
    rcases h.children p hp x hx with ⟨r', hr', hparent'⟩ | ⟨-, hnone⟩
    · rw [hr, some.injEq] at hr'
      rw [← hr', hparent, some.injEq] at hparent'
      exact hne hparent'
    · rw [hr] at hnone
      cases hnone
  unfold abortOne
  simp only [hdead, if_pos hp]
  by_cases hempty : s.childRequests p = ∅
  · have hno : ∀ x, ¬s.Child x p := fun x hx =>
      Finset.notMem_empty x (hempty ▸ hlisted x hx)
    simp only [if_pos hempty, pure_eq_ok, ok_bind]
    refine ⟨_, _, rfl, h.unregister hdead hno, ?_⟩
    exact hrem.tail (fun _ _ hx => hx) (fun x _ q hq he => hno x (he ▸ hq))
      fun _ _ _ _ _ hx' _ => hx'
  · have hout : ∀ x, s.Child x p → x ∉ p :: ids := by
      rintro x ⟨r, hr, hparent⟩ hmem
      rcases mem_cons.mp hmem with rfl | hmem
      · rw [hdead] at hr
        cases hr
      · exact ((pairwise_cons.mp hrem.order).1 x hmem r hr).2 hparent
    obtain ⟨aborted, t, habort, hbooks, hget⟩ := h.abortChildrenOf order depth hp hout
    simp only [if_neg hempty, habort, pure_eq_ok, ok_bind]
    have hold : ∀ x q, t.Child x q → s.Child x q ∧ q ≠ p := by
      rintro x q ⟨r, hr, hparent⟩
      rw [hget] at hr
      split at hr
      · cases hr
      · next hx => exact ⟨⟨r, hr, hparent⟩, fun he => hx (hlisted x ⟨r, hr, he ▸ hparent⟩)⟩
    have htdead : t.requestStates.get? p = none := by rw [hget, hdead, ite_self]
    refine ⟨_, _, rfl, hbooks.unregister htdead fun x hx => (hold x p hx).2 rfl, ?_⟩
    refine hrem.tail (fun x r hr => ?_) (fun x _ q hq => (hold x q hq).2)
      fun x _ q hq x' hx' _ => ?_
    · rw [hget] at hr
      split at hr
      · cases hr
      · exact hr
    · obtain ⟨r, hr, hparent⟩ := hx'
      refine ⟨r, ?_, hparent⟩
      rw [hget, if_neg (hnot x' q ⟨r, hr, hparent⟩ (hold x q hq).2)]
      exact hr

variable (order) in
lemma Books.abortLoop (depth : ℕ) (h : s.Books ids) (hrem : Removable s ids []) :
    ∃ aborted s', abortLoop order (fun self children =>
        abortRequests order (depth + 1) self children true) ids s = .ok (aborted, s') ∧ s'.Books [] := by
  induction ids generalizing s with
  | nil => exact ⟨[], s, rfl, h⟩
  | cons x ids ih =>
    have hstep : ∃ aborted s', abortOne order (fun self children =>
        abortRequests order (depth + 1) self children true) s x = .ok (aborted, s') ∧
        s'.Books ids ∧ Removable s' ids [] := by
      cases hx : s.requestStates.get? x with
      | some r =>
        have h' : s.Books (x :: ids ++ []) := by rwa [append_nil]
        obtain ⟨parents', hone, hbooks⟩ := h'.abortHead order _ hrem hx
        rw [append_nil] at hbooks
        exact ⟨_, _, hone, hbooks, hrem.tail_of_live h' hx fun y => Dict.get?_erase _ _ _⟩
      | none =>
        by_cases hp : x ∈ s.parentRequests
        · exact h.abortParent hrem hx hp
        · have h' : s.Books (x :: ids ++ []) := by rwa [append_nil]
          exact ⟨_, _, abortOne_skip hx hp, Books.skip h hx hp, hrem.skip h' hp⟩
    obtain ⟨aborted, s₁, hone, hbooks, hrem'⟩ := hstep
    obtain ⟨more, s₂, hloop, hbooks'⟩ := ih hbooks hrem'
    refine ⟨aborted ++ more, s₂, ?_, hbooks'⟩
    simp only [abortLoop, hone, hloop, ok_bind, pure_eq_ok]

/-- The requests that an abort stands for can be removed, in any order if they are given by
external ids. -/
def AbortClean (s : OutputProcessor L D) (requestIds : List RequestId) : Bool → Prop
  | true => Removable s requestIds []
  | false => ∀ l : List RequestId, l.Nodup → (∀ x, x ∈ l ↔ ∃ e ∈ requestIds, s.HasExternalId e x) → Removable s l []

variable (order) in
lemma Inv.abortRequests (depth : ℕ) (h : s.Inv) {internal : Bool} (hclean : s.AbortClean ids internal) :
    ∃ aborted s', s.abortRequests order (depth + 2) ids internal = .ok (aborted, s') ∧ s'.Inv := by
  obtain ⟨l, e, hresolve, hbooks, hrem⟩ : ∃ l externalReqIds,
      resolveIds internal ids s = .ok (l, { s with externalReqIds }) ∧
      Books { s with externalReqIds } l ∧ Removable { s with externalReqIds } l [] := by
    cases internal with
    | true =>
      have hrem : Removable s ids [] := hclean
      have hdist : ids.Pairwise fun x y => s.requestStates.get? y ≠ none → x ≠ y := by
        refine hrem.order.imp ?_
        intro x y hxy hy
        obtain ⟨r, hr⟩ := ne_none_iff_exists'.mp hy
        exact (hxy r hr).1
      obtain ⟨e, hresolve, hbooks⟩ := h.books.resolveInternal hdist fun _ _ _ => not_mem_nil
      rw [append_nil] at hbooks
      exact ⟨ids, e, hresolve, hbooks, hrem.order, hrem.apart, hrem.pooling, hrem.parent⟩
    | false =>
      obtain ⟨l, e, hresolve, hbooks, hnodup, hmem⟩ := h.books.resolveExternal ids
      rw [append_nil] at hbooks
      have hrem : Removable s l [] := hclean l hnodup fun x => (hmem x).trans (by simp)
      exact ⟨l, e, hresolve, hbooks, hrem.order, hrem.apart, hrem.pooling, hrem.parent⟩
  obtain ⟨aborted, s', hloop, hbooks'⟩ := hbooks.abortLoop order depth hrem
  refine ⟨aborted, s'.setDrained, ?_, hbooks'.inv⟩
  unfold OutputProcessor.abortRequests
  simp only [hresolve, hloop, ok_bind, pure_eq_ok]

end OutputProcessor

end CustomAi.Vllm

/-!
## Runs of the output processor

The calls to the output processor in any order.
-/

namespace CustomAi.Vllm

open List Option

variable {L D : Type}

/-- The calls. `newParent` is the creation of a parent request by the front end. -/
inductive OutputProcessorOp (L D : Type)
  | addRequest (request : AddedRequest L D)
  | newParent (requestId externalReqId : RequestId) (samplingParams : ParallelSamplingParams)
  | addChild (parentReq : RequestId) (index : ℕ) (request : AddedRequest L D)
  | processOutputs (outputs : List (SampledOutput L))
  | abortRequests (requestIds : List RequestId) (internal : Bool)

namespace OutputProcessor

def step (decodeNext : D → List TokenId → List Char × D) (order : SetOrder) (depth : ℕ)
    (s : OutputProcessor L D) : OutputProcessorOp L D → Except PyError (OutputProcessor L D)
  | .addRequest request => s.addRequest request none
  | .newParent requestId externalReqId samplingParams =>
    .ok { s with
      parents := s.parents.set requestId (.new requestId externalReqId samplingParams) }
  | .addChild parentReq index request => s.addChild parentReq index request
  | .processOutputs outputs => do
    let (_, _, s) ← OutputProcessor.processOutputs decodeNext outputs s
    return s
  | .abortRequests requestIds internal => do
    let (_, s) ← s.abortRequests order depth requestIds internal
    return s

def EachOutput (decodeNext : D → List TokenId → List Char × D)
    (cond : TrackedRequest L D → SampledOutput L → Prop) :
    List (SampledOutput L) → OutputProcessor L D → Prop
  | [], _ => True
  | output :: rest, s =>
    (∀ r, s.requestStates.get? output.requestId = some r → cond r output) ∧
    ∀ outs ids s', s.processOutput decodeNext output = .ok (outs, ids, s') → EachOutput decodeNext cond rest s'

/-- Internal ids are unique, and a child is a plain request of one of the `n` indices. -/
def Allowed (decodeNext : D → List TokenId → List Char × D) (s : OutputProcessor L D) :
    OutputProcessorOp L D → Prop
  | .addRequest request =>
    (∀ r, s.requestStates.get? request.state.requestId = some r → r.parentReq = none) ∧
    s.parents.get? request.state.requestId = none
  | .newParent requestId _ _ => s.parents.get? requestId = none ∧
    s.requestStates.get? requestId = none ∧ ∀ q, requestId ∉ s.childRequests q
  | .addChild parentReq index request =>
    (∃ parent, s.parents.get? parentReq = some parent ∧ index < parent.samplingParams.n) ∧
    s.requestStates.get? (ParentRequest.childReqId parentReq index) = none ∧
    s.parents.get? (ParentRequest.childReqId parentReq index) = none ∧
    request.pooling = false ∧ request.resumable = false
  | .processOutputs outputs => EachOutput decodeNext Accepts outputs s
  | .abortRequests _ _ => True

/-- A parent gets no child after its last live one has ended, and aborted requests can be removed. -/
def Clean (decodeNext : D → List TokenId → List Char × D) (s : OutputProcessor L D) :
    OutputProcessorOp L D → Prop
  | .addChild parentReq _ _ => parentReq ∈ s.parentRequests ∨ s.childRequests parentReq = ∅
  | .processOutputs outputs =>
    EachOutput decodeNext (fun r _ => r.pooling = true → r.streamInterval ≤ 1) outputs s
  | .abortRequests requestIds internal => s.AbortClean requestIds internal
  | _ => True

/-- Index and parents are those of the tracked requests. -/
structure Booked (s : OutputProcessor L D) : Prop where
  external : s.externalReqIds.Indexes s.HasExternalId
  parents : ∀ p, p ∈ s.parentRequests ↔ ∃ id, s.Child id p
  drained : s.requestsDrained = true ↔ ∀ id, s.requestStates.get? id = none
  empty : s.requestsDrained = true → s.parentRequests = ∅ ∧ ∀ e, s.externalReqIds.get? e = none

variable {decodeNext : D → List TokenId → List Char × D} {order : SetOrder} {depth : ℕ}
  {s s' : OutputProcessor L D}

lemma not_child_new (id p : RequestId) : ¬(new : OutputProcessor L D).Child id p := by
  rintro ⟨r, hr, -⟩
  cases hr

lemma inv_new : (new : OutputProcessor L D).Inv where
  drained _ := rfl
  books := {
    keyed := fun id r hr => by cases hr
    external := Dict.Indexes.empty.congr fun e id => by
      constructor
      · exact False.elim
      · rintro ⟨⟨r, hr, -⟩, -⟩
        cases hr
    registered := fun id p hp => absurd hp (not_child_new id p)
    justified := fun p hp => absurd hp (Finset.notMem_empty p)
    made := fun p hp => absurd hp (Finset.notMem_empty p)
    listed := fun id p hp => absurd hp (not_child_new id p)
    children := fun p hp => absurd hp (Finset.notMem_empty p)
    unique := fun p id hid => absurd hid (Finset.notMem_empty id)
    disjoint := fun p hp => absurd rfl hp
    childOk := fun id r p hr => by cases hr
    parentOk := fun p parent hp => by cases hp
    drained := fun _ _ => rfl }

lemma Inv.booked (h : s.Inv) : s.Booked := by
  have hindex := h.books.external.congr fun e id => and_iff_left (not_mem_nil (a := id))
  have hparents : ∀ p, p ∈ s.parentRequests ↔ ∃ id, s.Child id p := by
    intro p
    constructor
    · intro hp
      exact (h.books.justified p hp).resolve_right not_mem_nil
    · rintro ⟨id, hid⟩
      exact h.books.registered id p hid
  refine ⟨hindex, hparents, ⟨h.books.drained, h.drained⟩, fun hd => ?_⟩
  have hnone := h.books.drained hd
  refine ⟨Finset.eq_empty_of_forall_notMem fun p hp => ?_, fun e => ?_⟩
  · obtain ⟨id, r, hr, -⟩ := (hparents p).mp hp
    rw [hnone] at hr
    cases hr
  · refine hindex.get?_eq_none_iff.mpr fun id ⟨r, hr, _⟩ => ?_
    rw [hnone] at hr
    cases hr

lemma Inv.processOutputs (h : s.Inv) {outputs : List (SampledOutput L)}
    (hacc : EachOutput decodeNext Accepts outputs s)
    (hint : EachOutput decodeNext (fun r _ => r.pooling = true → r.streamInterval ≤ 1) outputs s) :
    ∃ outs ids s', processOutputs decodeNext outputs s = .ok (outs, ids, s') ∧ s'.Inv := by
  induction outputs generalizing s with
  | nil => exact ⟨[], [], s, rfl, h⟩
  | cons output rest ih =>
    obtain ⟨outs, ids, s₁, hone, hinv⟩ := h.processOutput output hacc.1 hint.1
    obtain ⟨more, moreIds, s₂, hrest, hinv'⟩ := ih hinv (hacc.2 _ _ _ hone) (hint.2 _ _ _ hone)
    refine ⟨outs ++ more, ids ++ moreIds, s₂, ?_, hinv'⟩
    simp only [processOutputs, hone, hrest, ok_bind, pure_eq_ok]

variable (order depth) in
lemma Inv.step (h : s.Inv) {op : OutputProcessorOp L D} (hallowed : s.Allowed decodeNext op)
    (hclean : s.Clean decodeNext op) : ∃ s', s.step decodeNext order (depth + 2) op = .ok s' ∧ s'.Inv := by
  cases op with
  | addRequest request => exact h.addRequest request hallowed.1 fun _ => hallowed.2
  | newParent requestId externalReqId samplingParams =>
    obtain ⟨hnew, hdead, hfree⟩ := hallowed
    exact ⟨_, rfl, h.newParent hnew hdead hfree externalReqId samplingParams⟩
  | addChild parentReq index request =>
    obtain ⟨⟨parent, hparent, hindex⟩, hdead, hfree, hplain⟩ := hallowed
    exact h.addChild hparent hindex hdead hfree hclean request hplain
  | processOutputs outputs =>
    obtain ⟨outs, ids, s', hs', hinv⟩ := h.processOutputs hallowed hclean
    refine ⟨s', ?_, hinv⟩
    simp only [OutputProcessor.step, hs', ok_bind, pure_eq_ok]
  | abortRequests requestIds internal =>
    obtain ⟨aborted, s', hs', hinv⟩ := h.abortRequests order depth hclean
    refine ⟨s', ?_, hinv⟩
    simp only [OutputProcessor.step, hs', ok_bind, pure_eq_ok]

/-- In a run of clean calls the books are right in every state, and every further clean call
succeeds. -/
theorem reaches_booked (h : Reaches (step decodeNext order (depth + 2))
      (fun s op => s.Allowed decodeNext op ∧ s.Clean decodeNext op) new s) :
    s.Booked ∧ ∀ op, s.Allowed decodeNext op → s.Clean decodeNext op →
      ∃ s', s.step decodeNext order (depth + 2) op = .ok s' := by
  have hinv : s.Inv := h.invariant inv_new fun t op t' ht hop hstep => by
    obtain ⟨t'', ht'', hinv⟩ := ht.step order depth hop.1 hop.2
    rw [ht'', Except.ok.injEq] at hstep
    exact hstep ▸ hinv
  refine ⟨hinv.booked, fun op hallowed hclean => ?_⟩
  obtain ⟨s', hs', -⟩ := hinv.step order depth hallowed hclean
  exact ⟨s', hs'⟩

def sortedOrder : SetOrder where
  toList s := s.sort (· ≤ ·)
  nodup s := s.sort_nodup _
  mem_iff s _ := s.mem_sort _

def noText (decoder : Unit) (_ : List TokenId) : List Char × Unit := ([], decoder)

def pairSampling : ParallelSamplingParams where
  maxTokens := 1
  n := 2
  outputKind := .delta

def queued : AddedRequest TokenId Unit where
  state :=
    { requestId := "0"
      externalReqId := "ext"
      outputKind := .delta
      logprobs := none
      detokenizer := .base { params := {}, decoder := () }
      queue := true
      streamInterval := 1 }

lemma removable_of_dead {p : RequestId} (hdead : s.requestStates.get? p = none) : Removable s [p] [] := by
  have hno : ∀ x ∈ [p], ∀ r, s.requestStates.get? x ≠ some r := by
    intro x hx r hr
    rw [mem_singleton.mp hx, hdead] at hr
    cases hr
  exact ⟨pairwise_singleton _ _, fun _ _ _ => not_mem_nil,
    fun x hx r hr => absurd hr (hno x hx r), fun x hx r hr => absurd hr (hno x hx r)⟩

def pairParent : OutputProcessor TokenId Unit :=
  nextState (step noText sortedOrder 2) new (.newParent "p" "ext" pairSampling)

def pairChild : OutputProcessor TokenId Unit :=
  nextState (step noText sortedOrder 2) pairParent (.addChild "p" 0 queued)

def pairChildren : OutputProcessor TokenId Unit :=
  nextState (step noText sortedOrder 2) pairChild (.addChild "p" 1 queued)

lemma allowed_addChild {s : OutputProcessor TokenId Unit} {index : ℕ}
    (h : (s.parents.get? "p").map (·.samplingParams.n) = some 2 ∧ index < 2 ∧
      (s.requestStates.get? (ParentRequest.childReqId "p" index)).isNone = true ∧
      (s.parents.get? (ParentRequest.childReqId "p" index)).isNone = true) :
    s.Allowed noText (.addChild "p" index queued) := by
  obtain ⟨hn, hindex, hdead, hfree⟩ := h
  obtain ⟨parent, hparent, hn⟩ := map_eq_some_iff.mp hn
  exact ⟨⟨parent, hparent, hn ▸ hindex⟩, isNone_iff_eq_none.mp hdead, isNone_iff_eq_none.mp hfree, rfl, rfl⟩

lemma reaches_pairChildren : Reaches (step noText sortedOrder 2)
    (fun s op => s.Allowed noText op ∧ s.Clean noText op) new pairChildren := by
  have hparent : Reaches (step noText sortedOrder 2)
      (fun s op => s.Allowed noText op ∧ s.Clean noText op) new pairParent :=
    Reaches.start.next ⟨⟨rfl, rfl, fun q => Finset.notMem_empty _⟩, trivial⟩ rfl
  have hchild : Reaches (step noText sortedOrder 2)
      (fun s op => s.Allowed noText op ∧ s.Clean noText op) new pairChild :=
    hparent.next ⟨allowed_addChild (by decide +kernel), .inr (by decide +kernel)⟩
      (by decide +kernel)
  exact hchild.next ⟨allowed_addChild (by decide +kernel), .inl (by decide +kernel)⟩
    (by decide +kernel)

theorem reaches_booked_pair : ∃ s s' : OutputProcessor TokenId Unit,
    Reaches (step noText sortedOrder 2) (fun s op => s.Allowed noText op ∧ s.Clean noText op)
      new s ∧
    s.parentRequests = {"p"} ∧ s.requestStates.keys = ["0_p", "1_p"] ∧
    s.step noText sortedOrder 2 (.abortRequests ["p"] true) = .ok s' ∧ s'.Booked := by
  have hdead : (pairChildren.requestStates.get? "p").isNone = true := by decide +kernel
  have hclean : pairChildren.Clean noText (.abortRequests ["p"] true) :=
    removable_of_dead (isNone_iff_eq_none.mp hdead)
  have hreach := reaches_pairChildren
  obtain ⟨s', hs'⟩ := (reaches_booked hreach).2 (.abortRequests ["p"] true) trivial hclean
  exact ⟨pairChildren, s', hreach, by decide +kernel, by decide +kernel, hs',
    (reaches_booked (.step (.abortRequests ["p"] true) hreach ⟨trivial, hclean⟩ hs')).1⟩

/-- An abort by the external id leaves the parent of its requests behind. -/
theorem external_abort_leaks_parent : ∃ s : OutputProcessor TokenId Unit,
    Reaches (step noText sortedOrder 2) (Allowed noText) new s ∧
    s.requestStates.keys = [] ∧ s.requestsDrained = true ∧ s.parentRequests = {"p"} ∧
    ¬s.Booked := by
  have hreach : Reaches (step noText sortedOrder 2) (Allowed noText) new pairChildren :=
    reaches_pairChildren.mono fun _ _ hop => hop.1
  set s := nextState (step noText sortedOrder 2) pairChildren (.abortRequests ["ext"] false)
  have hdrained : s.requestsDrained = true := by
    decide +kernel
  have hparents : s.parentRequests = {"p"} := by
    decide +kernel
  refine ⟨s, hreach.next trivial (by decide +kernel), by decide +kernel, hdrained, hparents, fun hbooked => ?_⟩
  have hempty := (hbooked.empty hdrained).1
  exact absurd hempty (Finset.singleton_ne_empty _)

end OutputProcessor

end CustomAi.Vllm
