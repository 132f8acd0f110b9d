import CustomAi.OpenWebUI.YdocManager

/-!
# Sessions that join, edit and leave documents

The socket handlers of the collaborative documents as they interleave on any number of workers:
one step is one Redis command of one handler.
-/

namespace CustomAi.OpenWebUI

open YdocManager Function Option Except Finset

variable {H U Sid : Type}

inductive Event (U Sid : Type)
  | join (sid : Sid) (document_id : List Char)
  | update (sid : Sid) (document_id : List Char) (update : U)
  | leave (sid : Sid) (document_id : List Char)
  | disconnect (sid : Sid)

/-- How far a handler has come. -/
inductive Phase (Sid : Type)
  | waiting
  | joined (document_id : List Char)
  | left (document_id : List Char)
  | existing (document_id : List Char)
  | clearing (document_id : List Char) (rest : Option (Sid × List (List Char)))
  | clearingUsers (document_id : List Char) (rest : Option (Sid × List (List Char)))
  | scanning (sid : Sid)
  | visiting (sid : Sid) (keys : List (List Char))
  | removed (sid : Sid) (document_id : List Char) (keys : List (List Char))
  | finished
deriving DecidableEq

def Phase.Clears (n : List Char) : Phase Sid → Prop
  | .clearing document_id _ | .clearingUsers document_id _ => normalized document_id = n
  | _ => False

instance (n : List Char) : (p : Phase Sid) → Decidable (p.Clears n)
  | .clearing document_id _ | .clearingUsers document_id _ =>
    inferInstanceAs (Decidable (normalized document_id = n))
  | .waiting | .joined _ | .left _ | .existing _ | .scanning _ | .visiting _ _ | .removed _ _ _
  | .finished => inferInstanceAs (Decidable False)

/-- The handler is the disconnection of `sid`, under way. -/
def Phase.Disconnects (sid : Sid) : Phase Sid → Prop
  | .scanning sid' | .visiting sid' _ | .removed sid' _ _ => sid' = sid
  | .clearing _ rest | .clearingUsers _ rest => ∃ keys, rest = some (sid, keys)
  | _ => False

/-- After `clear_document`: the leave handler is done, the disconnection goes on. -/
def Phase.next : Option (Sid × List (List Char)) → Phase Sid
  | none => .finished
  | some (sid, keys) => .visiting sid keys

/-- The shared state. `active` and `gone` record the sessions that joined, with the updates since,
and those that disconnected. -/
structure Documents (H U Sid : Type) where
  redis : Redis U Sid
  pool : Finset Sid
  phase : H → Phase Sid
  active : List Char → Sid → Option (List U)
  gone : Finset Sid

structure Action (H : Type) where
  handler : H
  scanned : List (List Char)

inductive Returned
  | returned
deriving DecidableEq

namespace Documents

section

variable [DecidableEq H] [DecidableEq Sid]

def setPhase (s : Documents H U Sid) (h : H) (p : Phase Sid) : Documents H U Sid :=
  { s with phase := Function.update s.phase h p }

/-- A session has executed `add_user`. -/
def enter (s : Documents H U Sid) (n : List Char) (sid : Sid) : List Char → Sid → Option (List U) :=
  fun m sid' => if m = n ∧ sid' = sid ∧ sid ∉ s.gone then some ((s.active m sid').getD [])
    else s.active m sid'

def record (s : Documents H U Sid) (n : List Char) (update : U) :
    List Char → Sid → Option (List U) :=
  fun m sid' => if m = n then (s.active m sid').map (· ++ [update]) else s.active m sid'

/-- A session has left the documents that `left` holds of. -/
def leave (s : Documents H U Sid) (left : List Char → Bool) (sid : Sid) :
    List Char → Sid → Option (List U) :=
  fun m sid' => if left m ∧ sid' = sid then none else s.active m sid'

def start (root : List Char) (mayJoin : Sid → List Char → Bool) (s : Documents H U Sid) (h : H) :
    Event U Sid → Documents H U Sid
  | .join sid document_id =>
    if mayJoin sid document_id then
      { s with
        redis := add_user root s.redis document_id sid
        active := s.enter (normalized document_id) sid
        phase := Function.update s.phase h (.joined document_id) }
    else s.setPhase h .finished
  | .update _ document_id update =>
    { s with
      redis := append_to_updates root s.redis document_id update
      active := s.record (normalized document_id) update
      phase := Function.update s.phase h .finished }
  | .leave sid document_id =>
    { s with
      redis := remove_user root s.redis document_id sid
      active := s.leave (fun m => m = normalized document_id) sid
      phase := Function.update s.phase h (.left document_id) }
  | .disconnect sid =>
    { s with
      pool := s.pool.erase sid
      active := s.leave (fun _ => true) sid
      gone := insert sid s.gone
      phase := Function.update s.phase h (if sid ∈ s.pool then .scanning sid else .finished) }

def step (root : List Char) (mayJoin : Sid → List Char → Bool) (events : H → Event U Sid)
    (s : Documents H U Sid) (a : Action H) : Except Returned (Documents H U Sid) :=
  match s.phase a.handler with
  | .waiting => .ok (start root mayJoin s a.handler (events a.handler))
  -- the handler reads the updates and sends them to the session
  | .joined _ => .ok (s.setPhase a.handler .finished)
  | .left document_id => .ok (s.setPhase a.handler
      (if document_exists root s.redis document_id then .existing document_id else .finished))
  | .existing document_id => .ok (s.setPhase a.handler
      (if (get_users root s.redis document_id).card = 0 then .clearing document_id none
        else .finished))
  | .clearing document_id rest => .ok
      { s with
        redis := clear_updates root s.redis document_id
        phase := Function.update s.phase a.handler (.clearingUsers document_id rest) }
  | .clearingUsers document_id rest => .ok
      { s with
        redis := clear_users root s.redis document_id
        phase := Function.update s.phase a.handler (.next rest) }
  | .scanning sid => .ok (s.setPhase a.handler (.visiting sid a.scanned))
  | .visiting _ [] => .ok (s.setPhase a.handler .finished)
  | .visiting sid (key :: keys) =>
    if isUsersKey key then
      .ok { s with
        redis := srem s.redis key sid
        phase := Function.update s.phase a.handler
          (match keyDocument key with
          | some document_id => .removed sid document_id keys
          | none => .finished) }
    else .ok (s.setPhase a.handler (.visiting sid keys))
  | .removed sid document_id keys => .ok (s.setPhase a.handler
      (if (get_users root s.redis document_id).card = 0 then .clearing document_id (some (sid, keys))
        else .visiting sid keys))
  | .finished => .error .returned

end

def initial (redis : Redis U Sid) (pool : Finset Sid) : Documents H U Sid :=
  ⟨redis, pool, fun _ => .waiting, fun _ _ => none, ∅⟩

/-- No session joins a document while a handler that saw no users deletes it. -/
def JoinsApart (events : H → Event U Sid) (s : Documents H U Sid) (a : Action H) : Prop :=
  ∀ sid document_id, s.phase a.handler = .waiting → events a.handler = .join sid document_id →
    ∀ h, ¬ (s.phase h).Clears (normalized document_id)

instance [Fintype H] (events : H → Event U Sid) (s : Documents H U Sid) (a : Action H) :
    Decidable (JoinsApart events s a) :=
  decidable_of_iff
    ((match s.phase a.handler, events a.handler with
      | .waiting, .join _ document_id =>
        decide (∀ h, ¬ (s.phase h).Clears (normalized document_id))
      | _, _ => true) = true) (by
    unfold JoinsApart
    cases s.phase a.handler with
    | waiting => cases events a.handler <;> simp
    | _ => simp)

/-- A session that has joined is in the user set, and the updates since are in the list. -/
def Retained (root : List Char) (s : Documents H U Sid) : Prop :=
  ∀ document_id sid since, s.active (normalized document_id) sid = some since →
    sid ∈ get_users root s.redis document_id ∧ since <:+ get_updates root s.redis document_id

section Proofs

variable [DecidableEq H] [DecidableEq Sid] {root : List Char} {mayJoin : Sid → List Char → Bool}
  {events : H → Event U Sid} {s s' : Documents H U Sid} {a : Action H}

/-- The invariant behind `documents_retained`. -/
structure Kept (root : List Char) (s : Documents H U Sid) : Prop where
  user_mem : ∀ n sid since, s.active n sid = some since → sid ∈ s.redis.sets (usersKey root n)
  since_suffix : ∀ n sid since, s.active n sid = some since → since <:+ s.redis.lists (updatesKey root n)
  clears_idle : ∀ h n, (s.phase h).Clears n → ∀ sid, s.active n sid = none
  gone_idle : ∀ sid ∈ s.gone, ∀ n, s.active n sid = none
  disconnects_gone : ∀ h sid, (s.phase h).Disconnects sid → sid ∈ s.gone

omit [DecidableEq H] [DecidableEq Sid] in
lemma Kept.initial (redis : Redis U Sid) (pool : Finset Sid) :
    Kept root (initial redis pool : Documents H U Sid) where
  user_mem := fun _ _ _ h => nomatch h
  since_suffix := fun _ _ _ h => nomatch h
  clears_idle := fun _ _ h => h.elim
  gone_idle := fun _ h => absurd h (notMem_empty _)
  disconnects_gone := fun _ _ h => h.elim

variable {p : Phase Sid}

variable {h : H} {key n : List Char}

omit [DecidableEq Sid] in
lemma Kept.move (hk : Kept root s) (hphase : s'.phase = update s.phase h p)
    (husers : ∀ n sid since, s'.active n sid = some since → sid ∈ s'.redis.sets (usersKey root n))
    (hupdates : ∀ n sid since, s'.active n sid = some since → since <:+ s'.redis.lists (updatesKey root n))
    (hidle : ∀ h n, (s.phase h).Clears n → ∀ sid, s'.active n sid = none)
    (hclears : ∀ n, p.Clears n → ∀ sid, s'.active n sid = none)
    (hgone : ∀ sid ∈ s'.gone, ∀ n, s'.active n sid = none) (hsub : s.gone ⊆ s'.gone)
    (hdisc : ∀ sid, p.Disconnects sid → sid ∈ s'.gone) : Kept root s' where
  user_mem := husers
  since_suffix := hupdates
  clears_idle := fun h' n hc => by
    rw [hphase] at hc
    by_cases hh : h' = h
    · subst hh
      rw [update_self] at hc
      exact hclears n hc
    · rw [update_of_ne hh] at hc
      exact hidle h' n hc
  gone_idle := hgone
  disconnects_gone := fun h' sid hd => by
    rw [hphase] at hd
    by_cases hh : h' = h
    · subst hh
      rw [update_self] at hd
      exact hdisc sid hd
    · rw [update_of_ne hh] at hd
      exact hsub (hk.disconnects_gone h' sid hd)

omit [DecidableEq Sid] in
lemma Kept.setPhase (hk : Kept root s) (hclears : ∀ n, p.Clears n → ∀ sid, s.active n sid = none)
    (hdisc : ∀ sid, p.Disconnects sid → sid ∈ s.gone) : Kept root (s.setPhase h p) :=
  hk.move rfl hk.user_mem hk.since_suffix hk.clears_idle hclears hk.gone_idle (Finset.Subset.refl _) hdisc

omit [DecidableEq H] [DecidableEq Sid] in
lemma Kept.delete (hk : Kept root s) (hidle : ∀ sid, s.active n sid = none)
    (hkey : key = updatesKey root n ∨ key = usersKey root n) : (∀ m sid since, s.active m sid = some since →
      sid ∈ (delete s.redis key).sets (usersKey root m)) ∧ ∀ m sid since, s.active m sid = some since →
      since <:+ (delete s.redis key).lists (updatesKey root m) := by
  refine ⟨fun m sid since hm => ?_, fun m sid since hm => ?_⟩
  · have hne : usersKey root m ≠ key := by
      rintro rfl
      rcases hkey with h | h
      · exact updatesKey_ne_usersKey root n m h.symm
      · rw [usersKey_injective h, hidle sid] at hm
        cases hm
    have hset : (YdocManager.delete s.redis key).sets (usersKey root m) =
        s.redis.sets (usersKey root m) := update_of_ne hne _ _
    rw [hset]
    exact hk.user_mem m sid since hm
  · have hne : updatesKey root m ≠ key := by
      rintro rfl
      rcases hkey with h | h
      · rw [updatesKey_injective h, hidle sid] at hm
        cases hm
      · exact updatesKey_ne_usersKey root m n h
    have hlist : (YdocManager.delete s.redis key).lists (updatesKey root m) =
        s.redis.lists (updatesKey root m) := update_of_ne hne _ _
    rw [hlist]
    exact hk.since_suffix m sid since hm

variable {document_id : List Char}

omit [DecidableEq H] [DecidableEq Sid] in
lemma Kept.idle_of_card (hk : Kept root s)
    (hempty : (get_users root s.redis document_id).card = 0) (hn : normalized document_id = n)
    (sid : Sid) : s.active n sid = none := by
  subst hn
  cases hactive : s.active (normalized document_id) sid with
  | none => rfl
  | some since =>
    have hmem := hk.user_mem _ _ _ hactive
    rw [card_eq_zero] at hempty
    have : sid ∈ (∅ : Finset Sid) := hempty ▸ hmem
    exact absurd this (notMem_empty sid)

variable {sid : Sid}

omit [DecidableEq H] in
lemma mem_sets_add_user {sid' : Sid} {m : List Char} (document_id : List Char)
    (h : sid' ∈ s.redis.sets (usersKey root m)) :
    sid' ∈ (add_user root s.redis document_id sid).sets (usersKey root m) := by
  rw [add_user_sets]
  by_cases hm : usersKey root m = usersKey root (normalized document_id)
  · rw [hm, update_self, ← hm]
    exact mem_insert_of_mem h
  · rw [update_of_ne hm]
    exact h

lemma Kept.join (hk : Kept root s) (hapart : ∀ h', ¬ (s.phase h').Clears (normalized document_id)) :
    Kept root { s with
      redis := add_user root s.redis document_id sid
      active := s.enter (normalized document_id) sid
      phase := update s.phase h (.joined document_id) } := by
  refine hk.move rfl ?_ ?_ ?_ (fun _ hc => hc.elim) ?_ (Finset.Subset.refl _)
    (fun _ hd => hd.elim)
  · intro m sid' since hm
    simp only [enter] at hm
    split at hm
    · rename_i hcond
      obtain ⟨rfl, rfl, _⟩ := hcond
      rw [add_user_sets, update_self]
      exact mem_insert_self _ _
    · exact mem_sets_add_user document_id (hk.user_mem m sid' since hm)
  · intro m sid' since hm
    simp only [enter] at hm
    split at hm
    · cases hactive : s.active m sid' with
      | none =>
        rw [hactive] at hm
        cases hm
        exact List.nil_suffix
      | some since' =>
        rw [hactive] at hm
        cases hm
        exact hk.since_suffix m sid' _ hactive
    · exact hk.since_suffix m sid' since hm
  · intro h' n hc sid'
    have hne : n ≠ normalized document_id := by
      rintro rfl
      exact hapart h' hc
    simp only [enter, hne, false_and, if_false]
    exact hk.clears_idle h' n hc sid'
  · intro sid' hgone n
    simp only [enter]
    split
    · rename_i hcond
      obtain ⟨_, rfl, hnot⟩ := hcond
      exact absurd hgone hnot
    · exact hk.gone_idle sid' hgone n

omit [DecidableEq Sid] in
lemma Kept.update (hk : Kept root s) {update : U} : Kept root { s with
      redis := append_to_updates root s.redis document_id update
      active := s.record (normalized document_id) update
      phase := Function.update s.phase h .finished } := by
  have hnone : ∀ n sid, s.active n sid = none → s.record (normalized document_id) update n sid = none := by
    intro n sid hn
    simp [record, hn]
  refine hk.move rfl ?_ ?_ (fun h' n hc sid => hnone n sid (hk.clears_idle h' n hc sid))
    (fun _ hc => hc.elim) (fun sid hgone n => hnone n sid (hk.gone_idle sid hgone n))
    (Finset.Subset.refl _) (fun _ hd => hd.elim)
  · intro m sid since hm
    simp only [record] at hm
    split at hm
    · obtain ⟨since', hactive, _⟩ := map_eq_some_iff.1 hm
      exact hk.user_mem m sid since' hactive
    · exact hk.user_mem m sid since hm
  · intro m sid since hm
    change since <:+ (append_to_updates root s.redis document_id update).lists _
    rw [append_to_updates_lists]
    simp only [record] at hm
    split at hm
    · rename_i hmn
      subst hmn
      obtain ⟨since', hactive, rfl⟩ := map_eq_some_iff.1 hm
      rw [update_self]
      obtain ⟨front, hfront⟩ := hk.since_suffix _ sid since' hactive
      exact ⟨front, by rw [← hfront, List.append_assoc]⟩
    · rename_i hmn
      rw [update_of_ne fun e => hmn (updatesKey_injective e)]
      exact hk.since_suffix m sid since hm

/-- A session is taken out of a set of users after it has left. -/
lemma Kept.leave (hk : Kept root s) {left : List Char → Bool}
    {active : List Char → Sid → Option (List U)} (hactive : active = s.leave left sid)
    (hkey : ∀ m, key = usersKey root m → active m sid = none) (hclears : ∀ n, ¬ p.Clears n)
    (hdisc : ∀ sid, p.Disconnects sid → sid ∈ s.gone) : Kept root { s with
      redis := srem s.redis key sid
      active := active
      phase := Function.update s.phase h p } := by
  have hsome : ∀ n sid' since, active n sid' = some since → s.active n sid' = some since := by
    intro n sid' since hn
    rw [hactive] at hn
    simp only [Documents.leave] at hn
    split at hn
    · cases hn
    · exact hn
  have hnone : ∀ n sid', s.active n sid' = none → active n sid' = none := by
    intro n sid' hn
    cases hnew : active n sid' with
    | none => rfl
    | some since =>
      rw [hsome n sid' since hnew] at hn
      cases hn
  refine hk.move rfl ?_ (fun n sid' since hn => hk.since_suffix n sid' since (hsome _ _ _ hn))
    (fun h' n hc sid' => hnone n sid' (hk.clears_idle h' n hc sid'))
    (fun n hc => absurd hc (hclears n))
    (fun sid' hgone n => hnone n sid' (hk.gone_idle sid' hgone n)) (Finset.Subset.refl _) hdisc
  intro m sid' since hm
  have hmem := hk.user_mem m sid' since (hsome _ _ _ hm)
  rw [srem_sets]
  by_cases hkm : usersKey root m = key
  · rw [hkm, update_self, ← hkm]
    refine mem_erase.2 ⟨?_, hmem⟩
    rintro rfl
    have hnone' := hkey m hkm.symm
    exact absurd (hnone'.symm.trans hm) (by rintro ⟨⟩)
  · rw [update_of_ne hkm]
    exact hmem

lemma Kept.disconnect (hk : Kept root s) (hp : p = .scanning sid ∨ p = .finished) :
    Kept root { s with
      pool := s.pool.erase sid
      active := s.leave (fun _ => true) sid
      gone := insert sid s.gone
      phase := Function.update s.phase h p } := by
  have hsome : ∀ n sid' since, s.leave (fun _ => true) sid n sid' = some since → s.active n sid' = some since := by
    intro n sid' since hn
    simp only [Documents.leave] at hn
    split at hn
    · cases hn
    · exact hn
  have hnone : ∀ n sid', s.active n sid' = none → s.leave (fun _ => true) sid n sid' = none := by
    intro n sid' hn
    simp [Documents.leave, hn]
  refine hk.move rfl (fun n sid' since hn => hk.user_mem n sid' since (hsome _ _ _ hn))
    (fun n sid' since hn => hk.since_suffix n sid' since (hsome _ _ _ hn))
    (fun h' n hc sid' => hnone n sid' (hk.clears_idle h' n hc sid')) ?_ ?_
    (subset_insert _ _) ?_
  · intro n hc
    rcases hp with rfl | rfl
    · exact hc.elim
    · exact hc.elim
  · intro sid' hgone n
    rcases mem_insert.1 hgone with rfl | hold
    · simp [Documents.leave]
    · exact hnone n sid' (hk.gone_idle sid' hold n)
  · intro sid' hd
    rcases hp with rfl | rfl
    · have : sid = sid' := hd
      subst this
      exact mem_insert_self _ _
    · exact hd.elim

lemma Kept.step (hk : Kept root s) (hapart : JoinsApart events s a)
    (hs : step root mayJoin events s a = .ok s') : Kept root s' := by
  obtain ⟨h, scanned⟩ := a
  unfold Documents.step at hs
  cases hp : s.phase h with
  | waiting =>
    simp only [hp, ok.injEq] at hs
    subst hs
    cases he : events h with
    | join sid document_id =>
      simp only [start]
      split
      · exact hk.join (hapart sid document_id hp he)
      · exact hk.setPhase (fun _ hc => hc.elim) (fun _ hd => hd.elim)
    | update sid document_id update => exact hk.update
    | leave sid document_id =>
      refine hk.leave rfl (fun m hm => ?_) (fun _ hc => hc) (fun _ hd => hd.elim)
      have hmn := usersKey_injective hm
      simp [Documents.leave, hmn]
    | disconnect sid =>
      refine hk.disconnect ?_
      split
      · exact .inl rfl
      · exact .inr rfl
  | joined document_id =>
    simp only [hp, ok.injEq] at hs
    subst hs
    exact hk.setPhase (fun _ hc => hc.elim) (fun _ hd => hd.elim)
  | left document_id =>
    simp only [hp, ok.injEq] at hs
    subst hs
    split
    · exact hk.setPhase (fun _ hc => hc.elim) (fun _ hd => hd.elim)
    · exact hk.setPhase (fun _ hc => hc.elim) (fun _ hd => hd.elim)
  | existing document_id =>
    simp only [hp, ok.injEq] at hs
    subst hs
    split
    · rename_i hempty
      refine hk.setPhase (fun n hn => hk.idle_of_card hempty hn) (fun sid hd => ?_)
      obtain ⟨keys, hkeys⟩ := hd
      cases hkeys
    · exact hk.setPhase (fun _ hc => hc.elim) (fun _ hd => hd.elim)
  | clearing document_id rest =>
    simp only [hp, ok.injEq] at hs
    subst hs
    have hidle := hk.clears_idle h (normalized document_id) (by rw [hp]; rfl)
    obtain ⟨husers, hupdates⟩ := hk.delete hidle (.inl rfl)
    refine hk.move rfl husers hupdates hk.clears_idle ?_ hk.gone_idle (Finset.Subset.refl _) ?_
    · rintro n rfl
      exact hidle
    · intro sid hd
      exact hk.disconnects_gone h sid (by rw [hp]; exact hd)
  | clearingUsers document_id rest =>
    simp only [hp, ok.injEq] at hs
    subst hs
    have hidle := hk.clears_idle h (normalized document_id) (by rw [hp]; rfl)
    obtain ⟨husers, hupdates⟩ := hk.delete hidle (.inr rfl)
    refine hk.move rfl husers hupdates hk.clears_idle ?_ hk.gone_idle (Finset.Subset.refl _) ?_
    · intro n hc
      cases rest with
      | none => exact hc.elim
      | some next => exact hc.elim
    · intro sid hd
      cases rest with
      | none => exact hd.elim
      | some next =>
        have hsid : next.1 = sid := hd
        exact hk.disconnects_gone h sid (by rw [hp]; exact ⟨next.2, by rw [← hsid]⟩)
  | scanning sid =>
    simp only [hp, ok.injEq] at hs
    subst hs
    refine hk.setPhase (fun _ hc => hc.elim) (fun sid' hd => ?_)
    exact hk.disconnects_gone h sid' (by rw [hp]; exact hd)
  | visiting sid keys =>
    have hgone : sid ∈ s.gone := hk.disconnects_gone h sid (by rw [hp]; rfl)
    cases keys with
    | nil =>
      simp only [hp, ok.injEq] at hs
      subst hs
      exact hk.setPhase (fun _ hc => hc.elim) (fun _ hd => hd.elim)
    | cons key keys =>
      simp only [hp] at hs
      split at hs
      · cases hs
        have hactive : s.active = s.leave (fun _ => false) sid := by
          funext m sid'
          simp [Documents.leave]
        refine hk.leave hactive (fun m _ => hk.gone_idle sid hgone m) ?_ ?_
        · intro n
          cases keyDocument key with
          | none => exact id
          | some document_id => exact id
        · intro sid' hd
          cases hdoc : keyDocument key with
          | none =>
            rw [hdoc] at hd
            exact hd.elim
          | some document_id =>
            rw [hdoc] at hd
            have : sid = sid' := hd
            exact this ▸ hgone
      · cases hs
        refine hk.setPhase (fun _ hc => hc.elim) (fun sid' hd => ?_)
        have : sid = sid' := hd
        exact this ▸ hgone
  | removed sid document_id keys =>
    have hgone : sid ∈ s.gone := hk.disconnects_gone h sid (by rw [hp]; rfl)
    simp only [hp, ok.injEq] at hs
    subst hs
    split
    · rename_i hempty
      refine hk.setPhase (fun n hn => hk.idle_of_card hempty hn) (fun sid' hd => ?_)
      obtain ⟨keys', hkeys⟩ := hd
      cases hkeys
      exact hgone
    · refine hk.setPhase (fun _ hc => hc.elim) (fun sid' hd => ?_)
      have : sid = sid' := hd
      exact this ▸ hgone
  | finished => simp [hp] at hs

/-- If no session joins a document while it is deleted, members and the updates since they joined
are kept. -/
theorem documents_retained {redis : Redis U Sid} {pool : Finset Sid}
    (h : Reaches (step root mayJoin events) (JoinsApart events) (Documents.initial redis pool) s) :
    Retained root s := by
  have hk : Kept root s := h.invariant (Kept.initial redis pool) fun _ _ _ hinv hapart hs => hinv.step hapart hs
  intro document_id sid since hactive
  exact ⟨hk.user_mem _ _ _ hactive, hk.since_suffix _ _ _ hactive⟩

end Proofs

/-- Session 0 joins, edits and leaves document `d`; session 1 joins it and edits. -/
def twoSessions : Fin 5 → Event ℕ ℕ
  | 0 => .join 0 ['d']
  | 1 => .update 0 ['d'] 10
  | 2 => .leave 0 ['d']
  | 3 => .join 1 ['d']
  | 4 => .update 1 ['d'] 11

/-- Session 1 joins after session 0 has left. -/
theorem documents_retained_apart : ∃ s, Reaches (step ['r'] (fun _ _ => true) twoSessions) (JoinsApart twoSessions)
        (Documents.initial Redis.empty {0, 1}) s ∧ Retained ['r'] s ∧ s.active ['d'] 1 = some [11] := by
  have hrun : ∃ s, runAllowed (step ['r'] (fun _ _ => true) twoSessions) (JoinsApart twoSessions)
      (Documents.initial Redis.empty {0, 1})
      ([0, 0, 1, 2, 2, 2, 2, 2, 3, 4].map fun h => ⟨h, []⟩) = some s ∧ s.active ['d'] 1 = some [11] := ⟨_, rfl, rfl⟩
  obtain ⟨s, hs, hactive⟩ := hrun
  have hreach := Reaches.append_runAllowed .start hs
  exact ⟨s, hreach, documents_retained hreach, hactive⟩

/-- Session 1 joins and edits after the leave handler has read the empty user set. -/
theorem documents_dropped : ∃ s, Reaches (step ['r'] (fun _ _ => true) twoSessions) (fun _ _ => True)
        (Documents.initial Redis.empty {0, 1}) s ∧ s.active ['d'] 1 = some [11] ∧
      get_users ['r'] s.redis ['d'] = ∅ ∧ get_updates ['r'] s.redis ['d'] = [] := by
  have hrun : ∃ s, runSteps (step ['r'] (fun _ _ => true) twoSessions)
      (Documents.initial Redis.empty {0, 1})
      ([0, 0, 1, 2, 2, 2, 3, 4, 2, 2].map fun h => ⟨h, []⟩) = .ok s ∧ s.active ['d'] 1 = some [11] ∧
      get_users ['r'] s.redis ['d'] = ∅ ∧ get_updates ['r'] s.redis ['d'] = [] :=
    ⟨_, rfl, rfl, rfl, rfl⟩
  obtain ⟨s, hs, hrest⟩ := hrun
  exact ⟨s, Reaches.append_runSteps .start hs, hrest⟩

end Documents

end CustomAi.OpenWebUI
