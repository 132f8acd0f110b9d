import CustomAi.Lib.Dict

/-!
# The two evaluators of permissions

`get_permissions` merges the trees of a user's groups into the default tree and `has_permission`
walks each tree on its own.
-/

namespace CustomAi.OpenWebUI

open Dict

/-- A partial tree of the shape of `DEFAULT_USER_PERMISSIONS`, a dictionary of booleans for each of
its categories. -/
abbrev Permissions := Dict String (Dict String Bool)

namespace Permissions

/-- `fill_missing_permissions` of one category, whose values are booleans. -/
def fill_missing_category (permissions default_permissions : Dict String Bool) : Dict String Bool :=
  default_permissions.entries.foldl (fun permissions item =>
    if permissions.contains item.1 then permissions else permissions.set item.1 item.2) permissions

def fill_missing_permissions (permissions default_permissions : Permissions) : Permissions :=
  default_permissions.entries.foldl (fun permissions item =>
    match permissions.get? item.1 with
    | none => permissions.set item.1 item.2
    | some inner => permissions.set item.1 (fill_missing_category inner item.2)) permissions

/-- `combine_permissions` of one category. -/
def combine_category (permissions group_permissions : Dict String Bool) : Dict String Bool :=
  group_permissions.entries.foldl (fun permissions item =>
    match permissions.get? item.1 with
    | none => permissions.set item.1 item.2
    | some present => permissions.set item.1 (present || item.2)) permissions

def combine_permissions (permissions group_permissions : Permissions) : Permissions :=
  group_permissions.entries.foldl (fun permissions item =>
    let permissions := if permissions.contains item.1 then permissions else
      permissions.set item.1 empty
    permissions.set item.1 (combine_category ((permissions.get? item.1).getD empty) item.2))
    permissions

/-- The boolean that a path of a category and a name leads to. -/
def leafAt (permissions : Permissions) (path : String × String) : Option Bool :=
  (permissions.get? path.1).bind fun inner => inner.get? path.2

def get_permission (permissions : Permissions) (path : String × String) : Bool :=
  match permissions.get? path.1 with
  | none => false
  | some inner => (inner.get? path.2).getD false

end Permissions

open Permissions

/-- What the evaluators read: the stored permissions of the user's groups and the default tree. -/
structure PermissionStore where
  groups : List (Option Permissions)
  default_permissions : Permissions

namespace PermissionStore

variable (DEFAULT_USER_PERMISSIONS : Permissions)

/-- The default tree is copied before the groups are merged into it. -/
def get_permissions (s : PermissionStore) : Permissions × PermissionStore :=
  let permissions := s.groups.foldl
    (fun permissions group => combine_permissions permissions (group.getD empty))
    s.default_permissions
  (fill_missing_permissions permissions s.default_permissions, s)

/-- The default tree is completed in place if no group allows the permission. -/
def has_permission (s : PermissionStore) (path : String × String) : Bool × PermissionStore :=
  if s.groups.any fun group => get_permission (group.getD empty) path then
    (true, s)
  else
    let completed := fill_missing_permissions s.default_permissions DEFAULT_USER_PERMISSIONS
    (get_permission completed path, { s with default_permissions := completed })

def GroupAllows (s : PermissionStore) (path : String × String) : Prop :=
  ∃ group ∈ s.groups, leafAt (group.getD empty) path = some true

/-- What both evaluators should say of a path, for every order of the groups. -/
def EvaluatorsAgree (s : PermissionStore) (path : String × String) : Prop :=
  ∃ answer : Bool, (answer = true ↔ leafAt (fill_missing_permissions s.default_permissions
      DEFAULT_USER_PERMISSIONS) path = some true ∨ s.GroupAllows path) ∧
    ∀ s' : PermissionStore, s'.groups.Perm s.groups → s'.default_permissions = s.default_permissions →
      (s'.has_permission DEFAULT_USER_PERMISSIONS path).1 = answer ∧
      (s'.has_permission DEFAULT_USER_PERMISSIONS path).2.groups = s'.groups ∧
      (leafAt s'.get_permissions.1 path = some true ↔ answer = true) ∧ s'.get_permissions.2.groups = s'.groups

end PermissionStore

namespace Permissions

lemma get?_fill_missing_category (d items : Dict String Bool) (x : String) :
    (fill_missing_category d items).get? x = (d.get? x).or (items.get? x) := by
  unfold fill_missing_category
  rw [get?_foldl _ (fun present v => present.getD v) ?_ items.nodup_keys]
  · rw [← get?]
    cases items.get? x <;> cases d.get? x <;> rfl
  · intro d e k
    by_cases hk : k = e.1
    · cases hget : d.get? e.1 <;> simp [contains, hget, hk]
    · cases hget : d.get? e.1 <;> simp [contains, hget, hk, get?_set_of_ne d e.2 hk]

lemma get?_combine_category (d items : Dict String Bool) (x : String) :
    (combine_category d items).get? x = Option.merge Bool.or (d.get? x) (items.get? x) := by
  unfold combine_category
  rw [get?_foldl _ (fun present v => present.elim v (Bool.or · v)) ?_ items.nodup_keys]
  · rw [← get?]
    cases items.get? x <;> cases d.get? x <;> rfl
  · intro d e k
    cases hget : d.get? e.1 <;> rw [get?_set] <;> rfl

lemma leafAt_fill_missing_permissions (p items : Permissions) (path : String × String) :
    leafAt (fill_missing_permissions p items) path = (leafAt p path).or (leafAt items path) := by
  unfold fill_missing_permissions leafAt
  rw [get?_foldl _ (fun present v => present.elim v (fill_missing_category · v)) ?_
    items.nodup_keys]
  · rw [← get?]
    cases hitems : items.get? path.1 <;> cases hp : p.get? path.1 <;>
      simp [get?_fill_missing_category]
  · intro d e k
    cases hget : d.get? e.1 <;> rw [get?_set] <;> rfl

lemma leafAt_combine_permissions (p items : Permissions) (path : String × String) :
    leafAt (combine_permissions p items) path = Option.merge Bool.or (leafAt p path) (leafAt items path) := by
  unfold combine_permissions leafAt
  rw [get?_foldl _ (fun present v => combine_category (present.getD empty) v) ?_
    items.nodup_keys]
  · rw [← get?]
    cases hitems : items.get? path.1 <;> cases hp : p.get? path.1 <;>
      simp [get?_combine_category]
  · intro d e k
    by_cases hk : k = e.1
    · cases hget : d.get? e.1 <;> simp [contains, hget, hk]
    · cases hget : d.get? e.1 <;> simp [contains, hget, hk, get?_set]

lemma get_permission_eq (p : Permissions) (path : String × String) :
    p.get_permission path = true ↔ leafAt p path = some true := by
  unfold get_permission leafAt
  cases p.get? path.1 with
  | none => simp
  | some inner => cases hinner : inner.get? path.2 <;> simp [hinner]

end Permissions

namespace PermissionStore

variable (DEFAULT_USER_PERMISSIONS : Permissions) (s : PermissionStore) (path : String × String)

lemma merge_or_eq_true {a b : Option Bool} :
    Option.merge Bool.or a b = some true ↔ a = some true ∨ b = some true := by
  rcases a with - | - | - <;> rcases b with - | - | - <;> decide

lemma leafAt_foldl_combine (groups : List (Option Permissions)) (p : Permissions) :
    leafAt (groups.foldl (fun permissions group => combine_permissions permissions
        (group.getD empty)) p) path = some true ↔
      leafAt p path = some true ∨ ∃ group ∈ groups, leafAt (group.getD empty) path = some true := by
  induction groups generalizing p with
  | nil => simp
  | cons group rest ih =>
    rw [List.foldl_cons, ih, leafAt_combine_permissions, merge_or_eq_true, or_assoc, List.exists_mem_cons_iff]

lemma get_permissions_iff : leafAt s.get_permissions.1 path = some true ↔
      leafAt s.default_permissions path = some true ∨ s.GroupAllows path := by
  unfold get_permissions
  rw [leafAt_fill_missing_permissions, GroupAllows, ← leafAt_foldl_combine]
  refine ⟨fun h => ?_, fun h => by rw [h, Option.some_or]⟩
  rcases Option.or_eq_some_iff.mp h with hmerged | ⟨-, hdefault⟩
  · exact hmerged
  · exact (leafAt_foldl_combine path _ _).mpr (.inl hdefault)

lemma any_get_permission : (s.groups.any fun group => get_permission (group.getD empty) path) = true ↔
      s.GroupAllows path := by
  unfold GroupAllows
  simp only [List.any_eq_true, get_permission_eq]

lemma has_permission_iff : (s.has_permission DEFAULT_USER_PERMISSIONS path).1 = true ↔
      leafAt (fill_missing_permissions s.default_permissions DEFAULT_USER_PERMISSIONS) path =
        some true ∨ s.GroupAllows path := by
  rw [has_permission, ← any_get_permission]
  by_cases hallows : (s.groups.any fun group => get_permission (group.getD empty) path) = true
  · rw [if_pos hallows]
    exact iff_of_true rfl (.inr hallows)
  · rw [if_neg hallows, get_permission_eq, or_iff_left hallows]

lemma has_permission_groups : (s.has_permission DEFAULT_USER_PERMISSIONS path).2.groups = s.groups := by
  rw [has_permission, apply_ite Prod.snd, apply_ite groups, ite_self]

/-- The evaluators agree exactly if the default tree has the permission, it is denied by default, or
a group allows it. -/
theorem evaluators_agree_iff (hpath : (leafAt DEFAULT_USER_PERMISSIONS path).isSome) :
    s.EvaluatorsAgree DEFAULT_USER_PERMISSIONS path ↔ (leafAt s.default_permissions path).isSome ∨
        leafAt DEFAULT_USER_PERMISSIONS path = some false ∨ s.GroupAllows path := by
  constructor
  · rintro ⟨answer, hanswer, hall⟩
    obtain ⟨-, -, hget, -⟩ := hall s (List.Perm.refl _) rfl
    rw [get_permissions_iff, hanswer, leafAt_fill_missing_permissions] at hget
    cases hdefault : leafAt s.default_permissions path with
    | some b => exact .inl rfl
    | none =>
      obtain ⟨b, hb⟩ := Option.isSome_iff_exists.mp hpath
      rw [hdefault, hb] at hget
      cases b with
      | false => exact .inr (.inl hb)
      | true => exact .inr (.inr ((hget.mpr (.inl rfl)).resolve_left (by simp)))
  · intro hcond
    refine ⟨_, has_permission_iff DEFAULT_USER_PERMISSIONS s path, fun s' hperm hsame => ?_⟩
    have hallows : s'.GroupAllows path ↔ s.GroupAllows path := by
      unfold GroupAllows
      simp only [hperm.mem_iff]
    refine ⟨?_, has_permission_groups _ s' path, ?_, rfl⟩
    · rw [Bool.eq_iff_iff, has_permission_iff, has_permission_iff, hsame, hallows]
    · rw [get_permissions_iff, has_permission_iff, hsame, hallows, leafAt_fill_missing_permissions]
      rcases hcond with hdefault | hfalse | hgroup
      · obtain ⟨b, hb⟩ := Option.isSome_iff_exists.mp hdefault
        rw [hb, Option.some_or]
      · rw [hfalse]
        rcases leafAt s.default_permissions path with - | - | - <;> simp
      · exact iff_of_true (.inr hgroup) (.inr hgroup)

/-- A store from before a permission was added to `DEFAULT_USER_PERMISSIONS`. -/
def stored : PermissionStore := ⟨[none], empty.set "chat" (empty.set "edit" true)⟩

def upgraded : Permissions := empty.set "chat" ((empty.set "edit" true).set "share" true)

theorem evaluators_agree_edit : stored.EvaluatorsAgree upgraded ("chat", "edit") :=
  (evaluators_agree_iff upgraded stored ("chat", "edit") (by decide)).mpr (.inl (by decide))

theorem evaluators_disagree : ¬ stored.EvaluatorsAgree upgraded ("chat", "share") := by
  rintro ⟨answer, -, hall⟩
  obtain ⟨hhas, -, hget, -⟩ := hall _ (List.Perm.refl _) rfl
  rw [← hhas] at hget
  revert hget
  decide

end PermissionStore

end CustomAi.OpenWebUI
