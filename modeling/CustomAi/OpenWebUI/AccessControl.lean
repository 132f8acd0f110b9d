import Mathlib.Data.List.Basic

/-!
# Access control

Who may read or write a shared item: `has_access` and the check in front of it that lets admins
and owners through.
-/

namespace CustomAi.OpenWebUI

variable {Uid Gid : Type}

inductive AccessType
  | read
  | write
deriving DecidableEq

structure Permission (Uid Gid : Type) where
  group_ids : List Gid
  user_ids : List Uid

/-- The `access_control` of an item; a type that is missing permits nobody. -/
abbrev AccessControl (Uid Gid : Type) := AccessType → Permission Uid Gid

def get_permitted_group_and_user_ids (type : AccessType)
    (access_control : Option (AccessControl Uid Gid)) : Option (Permission Uid Gid) :=
  access_control.map fun access => access type

/-- `groups` are the groups a user is a member of. Without an access control an item is public to
read. -/
def has_access [DecidableEq Uid] [DecidableEq Gid] (groups : Uid → List Gid) (user_id : Uid)
    (type : AccessType) (access_control : Option (AccessControl Uid Gid)) : Bool :=
  match get_permitted_group_and_user_ids type access_control with
  | none => type = .read
  | some permitted =>
    permitted.user_ids.contains user_id ||
      (groups user_id).any fun group_id => permitted.group_ids.contains group_id

structure UserModel (Uid : Type) where
  id : Uid
  isAdmin : Bool
deriving DecidableEq

/-- `user.role == "admin" or user.id == owner or has_access(user.id, type, access_control)` -/
def permitted [DecidableEq Uid] [DecidableEq Gid] (groups : Uid → List Gid) (type : AccessType)
    (user : UserModel Uid) (owner : Uid) (access_control : Option (AccessControl Uid Gid)) : Bool :=
  user.isAdmin || user.id = owner || has_access groups user.id type access_control

end CustomAi.OpenWebUI
