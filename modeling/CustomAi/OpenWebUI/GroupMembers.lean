import Mathlib.Data.List.Nodup
import Mathlib.Logic.Function.Basic

/-!
# Members of a group

`add_users_to_group` inserts and flushes one row for each user.
-/

namespace CustomAi.OpenWebUI

open List

/-- A row of `group_member`. Its generated id is left out. -/
structure GroupMember (G U : Type) where
  group_id : G
  user_id : U
  created_at : ℕ
  updated_at : ℕ

def GroupMember.key {G U : Type} (r : GroupMember G U) : G × U := (r.group_id, r.user_id)

/-- The tables as the session sees them, with the rows of its open transaction apart. -/
structure GroupSession (G U : Type) where
  /-- `updated_at` of each group. -/
  groups : G → Option ℕ
  committed : List (GroupMember G U)
  pending : List (GroupMember G U)
  unique : ((committed ++ pending).map GroupMember.key).Nodup

namespace GroupSession

variable {G U : Type} (s : GroupSession G U)

def keys : List (G × U) := (s.committed ++ s.pending).map GroupMember.key

def rollback : GroupSession G U :=
  { s with
    pending := []
    unique := by
      rw [append_nil]
      exact s.unique.sublist ((sublist_append_left ..).map _) }

lemma mem_keys_rollback {s : GroupSession G U} {k : G × U} :
    k ∈ s.rollback.keys ↔ k ∈ s.committed.map GroupMember.key := by
  rw [keys, rollback, append_nil]

lemma mem_keys {s : GroupSession G U} {k : G × U} : k ∈ s.keys ↔
    k ∈ s.rollback.keys ∨ k ∈ s.pending.map GroupMember.key := by
  rw [mem_keys_rollback, keys, map_append, mem_append]

def commit : GroupSession G U :=
  { s with committed := s.committed ++ s.pending, pending := [], unique := by simpa using s.unique }

variable [DecidableEq G] [DecidableEq U]

/-- `db.add` and `db.flush`, where the table may refuse the row. -/
def add (r : GroupMember G U) : Option (GroupSession G U) :=
  if h : r.key ∈ s.keys then none
  else some { s with
    pending := s.pending ++ [r]
    unique := by
      rw [← append_assoc, map_append, map_singleton, nodup_append_comm]
      exact nodup_cons.mpr ⟨h, s.unique⟩ }

def addUser (id : G) (now : ℕ) (s : GroupSession G U) (user_id : U) : GroupSession G U :=
  (s.add ⟨id, user_id, now, now⟩).getD s.rollback

def add_users_to_group (now : ℕ) (id : G) (user_ids : Option (List U)) (s : GroupSession G U) :
    Option ℕ × GroupSession G U :=
  match s.groups id with
  | none => (none, s)
  | some _ =>
    let s := ((user_ids.getD []).foldl (addUser id now) s).commit
    (some now, { s with groups := Function.update s.groups id (some now) })

/-- Each pair of a group and a user once: the old ones, and the users of the list in group `id`. -/
def Joined (id : G) (users : List U) (old new : List (G × U)) : Prop :=
  new.Nodup ∧ ∀ k, k ∈ new ↔ k ∈ old ∨ k.1 = id ∧ k.2 ∈ users

/-- Rows undone by a refusal are of this group, and their users come again in the list. -/
def Recovers (id : G) (now : ℕ) : GroupSession G U → List U → Prop
  | _, [] => True
  | s, u :: users =>
    ((id, u) ∈ s.keys → ∀ r ∈ s.pending, r.group_id = id ∧ r.user_id ∈ users) ∧
      Recovers id now (s.addUser id now u) users

variable {s} {id : G} {now : ℕ} {u : U} {users : List U}

lemma addUser_of_mem (h : (id, u) ∈ s.keys) : s.addUser id now u = s.rollback := by
  rw [addUser, add, dif_pos (show GroupMember.key _ ∈ _ from h)]
  rfl

lemma keys_addUser_of_not_mem (h : (id, u) ∉ s.keys) : (s.addUser id now u).keys = s.keys ++ [(id, u)] := by
  rw [addUser, add, dif_neg (show GroupMember.key _ ∉ _ from h), Option.getD_some, keys, ← append_assoc, map_append]
  rfl

lemma mem_keys_foldl {k : G × U} (h : k ∈ (users.foldl (addUser id now) s).keys) :
    k ∈ s.keys ∨ k.1 = id ∧ k.2 ∈ users := by
  induction users generalizing s with
  | nil => exact .inl h
  | cons u users ih =>
    obtain hk | ⟨hid, hmem⟩ := ih h
    · by_cases hu : (id, u) ∈ s.keys
      · rw [addUser_of_mem hu] at hk
        exact .inl (mem_keys.mpr (.inl hk))
      · rw [keys_addUser_of_not_mem hu, mem_append, mem_singleton] at hk
        obtain hk | rfl := hk
        · exact .inl hk
        · exact .inr ⟨rfl, mem_cons_self⟩
    · exact .inr ⟨hid, mem_cons_of_mem _ hmem⟩

/-- Nothing is lost by the loop exactly when every refusal is made good. -/
lemma subset_foldl_iff : (∀ k, k ∈ s.keys ∨ k.1 = id ∧ k.2 ∈ users →
    k ∈ (users.foldl (addUser id now) s).keys) ↔ Recovers id now s users := by
  induction users generalizing s with
  | nil => simp [Recovers]
  | cons u users ih =>
    rw [Recovers, ← ih, foldl_cons]
    by_cases hu : (id, u) ∈ s.keys
    · rw [addUser_of_mem hu]
      constructor
      · refine fun hall => ⟨fun _ r hr => ?_, fun k hk => hall k ?_⟩
        · have hkey : r.key ∈ s.pending.map GroupMember.key := mem_map_of_mem hr
          refine (mem_keys_foldl (hall _ (.inl (mem_keys.mpr (.inr hkey))))).resolve_left fun hk => ?_
          have hnd := s.unique
          rw [map_append] at hnd
          exact disjoint_of_nodup_append hnd (mem_keys_rollback.mp hk) hkey
        · exact hk.imp (fun hk => mem_keys.mpr (.inl hk)) (.imp_right (mem_cons_of_mem _))
      · rintro ⟨hhead, htail⟩ k hk
        have hold : ∀ k ∈ s.keys, k ∈ s.rollback.keys ∨ k.1 = id ∧ k.2 ∈ users := by
          intro k hk
          refine (mem_keys.mp hk).imp_right fun hk => ?_
          obtain ⟨r, hr, rfl⟩ := mem_map.mp hk
          exact hhead hu r hr
        refine htail k ?_
        obtain hk | ⟨rfl, hk⟩ := hk
        · exact hold k hk
        · obtain rfl | hk := mem_cons.mp hk
          · exact hold k hu
          · exact .inr ⟨rfl, hk⟩
    · rw [and_iff_right fun h => absurd h hu, keys_addUser_of_not_mem hu]
      refine forall_congr' fun k => imp_congr_left ?_
      rw [mem_append, mem_singleton, mem_cons, or_assoc, and_or_left, Prod.ext_iff]

/-- The members become the union exactly when every refusal is made good by the rest of the list. -/
theorem add_users_to_group_iff (user_ids : Option (List U)) (hgroup : (s.groups id).isSome) :
    Joined id (user_ids.getD []) s.keys (add_users_to_group now id user_ids s).2.keys ↔
      Recovers id now s (user_ids.getD []) := by
  obtain ⟨group, hgroup⟩ := Option.isSome_iff_exists.mp hgroup
  have hkeys : (add_users_to_group now id user_ids s).2.keys =
      ((user_ids.getD []).foldl (addUser id now) s).keys := by
    rw [add_users_to_group, hgroup]
    exact congrArg (map GroupMember.key) (append_nil _)
  have hnd : ((user_ids.getD []).foldl (addUser id now) s).keys.Nodup := unique _
  rw [← subset_foldl_iff, hkeys, Joined, and_iff_right hnd]
  exact forall_congr' fun k => ⟨fun h => h.mpr, fun h => ⟨mem_keys_foldl, h⟩⟩

/-- Group 1 with the member 7. -/
def oneMember : GroupSession ℕ ℕ := ⟨fun _ => some 0, [⟨1, 7, 0, 0⟩], [], by decide⟩

/-- The refusal of the member 7 undoes user 8, who comes again. -/
theorem add_users_to_group_new : Joined 1 [8, 7, 8] oneMember.keys
    (add_users_to_group 5 1 (some [8, 7, 8]) oneMember).2.keys :=
  (add_users_to_group_iff (some [8, 7, 8]) rfl).mpr
    ⟨fun h => absurd h (by decide), fun _ => by decide, fun h => absurd h (by decide), trivial⟩

/-- User 8 comes before the member 7 and is lost. -/
theorem add_users_to_group_loses : ¬ ∀ (s : GroupSession ℕ ℕ) (id now : ℕ) (users : List ℕ),
    (s.groups id).isSome → Joined id users s.keys (add_users_to_group now id (some users) s).2.keys := by
  intro h
  have hmem := ((h oneMember 1 5 [8, 7] rfl).2 (1, 8)).mpr (.inr ⟨rfl, mem_cons_self⟩)
  revert hmem
  decide

end GroupSession

end CustomAi.OpenWebUI
