import CustomAi.Lib.Dict
import CustomAi.Lib.Run
import CustomAi.OpenWebUI.AccessControl

/-!
# Shared chats

The table of all chats.
-/

namespace CustomAi.OpenWebUI.SharedChats

variable {Cid Uid Fid B : Type}

/-- The column `user_id`: a user, or `f"shared-{chat_id}"`. -/
inductive Owner (Cid Uid : Type)
  | user (id : Uid)
  | shared (chat_id : Cid)
deriving DecidableEq

/-- `body` stands for the title, the document, the meta data and the pin. -/
structure Chat (Cid Uid Fid B : Type) where
  user_id : Owner Cid Uid
  share_id : Option Cid
  folder_id : Option Fid
  body : B
deriving DecidableEq

abbrev Table (Cid Uid Fid B : Type) := Dict Cid (Chat Cid Uid Fid B)

/-- `exception` is an error that the handler of a request does not expect. -/
inductive Error
  | unauthorized
  | notFound
  | badRequest
  | exception
deriving DecidableEq

variable [DecidableEq Cid] [DecidableEq Uid] [DecidableEq Fid]

abbrev Result (Cid Uid Fid B : Type) := Except Error (Table Cid Uid Fid B)

def get_chat_by_id_and_user_id (chats : Table Cid Uid Fid B) (id : Cid) (user_id : Uid) :
    Option (Chat Cid Uid Fid B) :=
  (chats.get? id).filter fun chat => chat.user_id = .user user_id

def get_chat_by_share_id (chats : Table Cid Uid Fid B) (id : Cid) :
    Option (Chat Cid Uid Fid B) :=
  if chats.values.any fun chat => chat.share_id = some id then chats.get? id else none

def insert (chats : Table Cid Uid Fid B) (id : Cid) (chat : Chat Cid Uid Fid B) :
    Option (Table Cid Uid Fid B) :=
  if chats.contains id then none else some (chats.set id chat)

structure Form (Cid Fid B : Type) where
  id : Cid
  folder_id : Option Fid
  body : B

def import_chat (user_id : Uid) (chats : Table Cid Uid Fid B) (form : Form Cid Fid B) :
    Option (Table Cid Uid Fid B) :=
  insert chats form.id
    { user_id := .user user_id, share_id := none, folder_id := form.folder_id, body := form.body }

def import_chats (user_id : Uid) (forms : List (Form Cid Fid B)) (chats : Table Cid Uid Fid B) :
    Result Cid Uid Fid B :=
  match forms.foldlM (import_chat user_id) chats with
  | none => .error .badRequest
  | some chats => .ok chats

/-- Copies `chat` for the user; `clone` is `none` where the document has no current message. -/
def clone_chat (clone : Cid → B → Option B) (user_id : Uid) (id new : Cid)
    (chat : Chat Cid Uid Fid B) (chats : Table Cid Uid Fid B) : Result Cid Uid Fid B :=
  match clone id chat.body with
  | none => .error .exception
  | some body =>
    import_chats user_id [{ id := new, folder_id := chat.folder_id, body := body }] chats

def clone_chat_by_id (clone : Cid → B → Option B) (user_id : Uid) (id new : Cid)
    (chats : Table Cid Uid Fid B) : Result Cid Uid Fid B :=
  match get_chat_by_id_and_user_id chats id user_id with
  | none => .error .unauthorized
  | some chat => clone_chat clone user_id id new chat chats

def clone_shared_chat_by_id (clone : Cid → B → Option B) (user : UserModel Uid) (id new : Cid)
    (chats : Table Cid Uid Fid B) : Result Cid Uid Fid B :=
  match if user.isAdmin then chats.get? id else get_chat_by_share_id chats id with
  | none => .error .unauthorized
  | some chat => clone_chat clone user.id id new chat chats

def IsCopy (chats : Table Cid Uid Fid B) (chat_id copy : Cid) : Prop :=
  ∃ chat, chats.get? copy = some chat ∧ chat.user_id = .shared chat_id

def findCopy (chats : Table Cid Uid Fid B) (chat_id : Cid) :
    Option (Cid × Chat Cid Uid Fid B) :=
  chats.entries.find? fun e => e.2.user_id = .shared chat_id

/-- `None` for a chat that does not exist or has a share id: the row is looked up for the owner
`"shared"`. -/
def insert_shared_chat_by_chat_id (chat_id new : Cid) (chats : Table Cid Uid Fid B) :
    Option (Table Cid Uid Fid B) :=
  match chats.get? chat_id with
  | none => none
  | some chat =>
    if chat.share_id.isSome then none
    else
      (insert chats new { chat with user_id := .shared chat_id, share_id := none }).map
        fun chats => chats.set chat_id { chat with share_id := some new }

def update_shared_chat_by_chat_id (chat_id new : Cid) (chats : Table Cid Uid Fid B) :
    Option (Table Cid Uid Fid B) :=
  match findCopy chats chat_id with
  | none => insert_shared_chat_by_chat_id chat_id new chats
  | some (copy, row) => (chats.get? chat_id).map fun chat =>
      chats.set copy { row with folder_id := chat.folder_id, body := chat.body }

def delete_shared_chat_by_chat_id (chat_id : Cid) (chats : Table Cid Uid Fid B) :
    Table Cid Uid Fid B :=
  chats.filter fun _ chat => chat.user_id ≠ .shared chat_id

def update_chat_share_id_by_id (id : Cid) (share_id : Option Cid) (chats : Table Cid Uid Fid B) :
    Table Cid Uid Fid B :=
  match chats.get? id with
  | none => chats
  | some chat => chats.set id { chat with share_id := share_id }

def share_chat_by_id (user : UserModel Uid) (mayShare : Bool) (id new : Cid)
    (chats : Table Cid Uid Fid B) : Result Cid Uid Fid B :=
  if !user.isAdmin && !mayShare then .error .unauthorized
  else match get_chat_by_id_and_user_id chats id user.id with
    | none => .error .unauthorized
    | some chat =>
      let shared_chat :=
        if chat.share_id.isSome then update_shared_chat_by_chat_id id new chats
        else insert_shared_chat_by_chat_id id new chats
      match shared_chat with
      | none => .error .exception
      | some chats => .ok chats

def delete_shared_chat (user_id : Uid) (id : Cid) (chats : Table Cid Uid Fid B) :
    Result Cid Uid Fid B :=
  match get_chat_by_id_and_user_id chats id user_id with
  | none => .error .unauthorized
  | some chat =>
    if chat.share_id.isNone then .ok chats
    else .ok (update_chat_share_id_by_id id none (delete_shared_chat_by_chat_id id chats))

/-- An admin deletes any row, another user only an own chat, but always the copies. -/
def delete_chat_by_id (user : UserModel Uid) (mayDelete : Bool) (id : Cid)
    (chats : Table Cid Uid Fid B) : Result Cid Uid Fid B :=
  if user.isAdmin then
    if chats.contains id then .ok (delete_shared_chat_by_chat_id id (chats.erase id))
    else .error .notFound
  else if !mayDelete then .error .unauthorized
  else if chats.contains id then
    .ok (delete_shared_chat_by_chat_id id
      (chats.filter fun key chat => ¬(key = id ∧ chat.user_id = .user user.id)))
  else .error .notFound

def delete_shared_chats_by_user_id (user_id : Uid) (chats : Table Cid Uid Fid B) :
    Table Cid Uid Fid B :=
  chats.filter fun _ chat => match chat.user_id with
    | .user _ => true
    | .shared chat_id => (get_chat_by_id_and_user_id chats chat_id user_id).isNone

def delete_chats_by_user_id (user_id : Uid) (chats : Table Cid Uid Fid B) :
    Table Cid Uid Fid B :=
  (delete_shared_chats_by_user_id user_id chats).filter fun _ chat => chat.user_id ≠ .user user_id

def delete_all_user_chats (user_id : Uid) (mayDelete : Bool) (chats : Table Cid Uid Fid B) :
    Result Cid Uid Fid B :=
  if mayDelete then .ok (delete_chats_by_user_id user_id chats) else .error .unauthorized

def delete_chats_by_user_id_and_folder_id (user_id : Uid) (chats : Table Cid Uid Fid B)
    (folder_id : Fid) : Table Cid Uid Fid B :=
  chats.filter fun _ chat => ¬(chat.user_id = .user user_id ∧ chat.folder_id = some folder_id)

/-- The chats of a folder that is deleted with its contents; `folder_ids` are its subtree. -/
def delete_folder_contents (user_id : Uid) (folder_ids : List Fid) (chats : Table Cid Uid Fid B) :
    Table Cid Uid Fid B :=
  folder_ids.foldl (delete_chats_by_user_id_and_folder_id user_id) chats

inductive Op (Cid Fid B : Type)
  | create (form : Form Cid Fid B)
  | importChats (forms : List (Form Cid Fid B))
  | clone (id new : Cid)
  | cloneShared (id new : Cid)
  | share (mayShare : Bool) (id new : Cid)
  | unshare (id : Cid)
  | delete (mayDelete : Bool) (id : Cid)
  | deleteAll (mayDelete : Bool)
  | deleteFolder (folder_ids : List Fid)

def step (clone : Cid → B → Option B) (chats : Table Cid Uid Fid B)
    (request : UserModel Uid × Op Cid Fid B) : Result Cid Uid Fid B :=
  let user := request.1
  match request.2 with
  | .create form => import_chats user.id [form] chats
  | .importChats forms => import_chats user.id forms chats
  | .clone id new => clone_chat_by_id clone user.id id new chats
  | .cloneShared id new => clone_shared_chat_by_id clone user id new chats
  | .share mayShare id new => share_chat_by_id user mayShare id new chats
  | .unshare id => delete_shared_chat user.id id chats
  | .delete mayDelete id => delete_chat_by_id user mayDelete id chats
  | .deleteAll mayDelete => delete_all_user_chats user.id mayDelete chats
  | .deleteFolder folder_ids => .ok (delete_folder_contents user.id folder_ids chats)

end CustomAi.OpenWebUI.SharedChats
