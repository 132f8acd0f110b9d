import CustomAi.OpenWebUI.SharedChats

/-!
# Tags of chats

Each chat lists the ids of its tags, and a table holds the tags of each user.
-/

namespace CustomAi.OpenWebUI.ChatTags

open SharedChats (Owner Error)

abbrev Str := List Char

variable {Cid Uid : Type}

/-- `tags` is the list in the meta data of the chat. -/
structure Chat (Cid Uid : Type) where
  user_id : Owner Cid Uid
  archived : Bool
  share_id : Option Cid
  tags : List Str
deriving DecidableEq

abbrev Chats (Cid Uid : Type) := Dict Cid (Chat Cid Uid)

abbrev Tags (Uid : Type) := Dict (Str × Uid) Str

structure State (Cid Uid : Type) where
  chats : Chats Cid Uid
  tags : Tags Uid

/-- `name.replace(" ", "_").lower()`, for the lower case mapping `lower` of the language. -/
def tagId (lower : Str → Str) (name : Str) : Str :=
  lower (name.map fun c => if c = ' ' then '_' else c)

def noneName : Str := ['n', 'o', 'n', 'e']

variable [DecidableEq Cid] [DecidableEq Uid]

abbrev Result (Cid Uid : Type) := Except Error (State Cid Uid)

def get_chat_by_id_and_user_id (chats : Chats Cid Uid) (id : Cid) (user_id : Uid) :
    Option (Chat Cid Uid) :=
  (chats.get? id).filter fun chat => chat.user_id = .user user_id

def get_chat_by_share_id (chats : Chats Cid Uid) (id : Cid) : Option (Chat Cid Uid) :=
  if chats.values.any fun chat => chat.share_id = some id then chats.get? id else none

def Chat.counts (user_id : Uid) (tag_id : Str) (chat : Chat Cid Uid) : Bool :=
  chat.user_id = .user user_id && !chat.archived && chat.tags.contains tag_id

def count_chats_by_tag_name_and_user_id (lower : Str → Str) (chats : Chats Cid Uid)
    (tag_name : Str) (user_id : Uid) : ℕ :=
  (chats.entries.filter fun e => e.2.counts user_id (tagId lower tag_name)).length

def insert_new_tag (lower : Str → Str) (name : Str) (user_id : Uid) (tags : Tags Uid) : Tags Uid :=
  tags.set (tagId lower name, user_id) name

def delete_tag_by_name_and_user_id (lower : Str → Str) (name : Str) (user_id : Uid)
    (tags : Tags Uid) : Tags Uid :=
  tags.erase (tagId lower name, user_id)

def ensure_tag (lower : Str → Str) (user_id : Uid) (tags : Tags Uid) (name : Str) : Tags Uid :=
  if tags.contains (tagId lower name, user_id) then tags
  else insert_new_tag lower name user_id tags

def delete_tags_with_count (lower : Str → Str) (count : ℕ) (chats : Chats Cid Uid) (user_id : Uid)
    (names : List Str) (tags : Tags Uid) : Tags Uid :=
  names.foldl (fun tags name =>
    if count_chats_by_tag_name_and_user_id lower chats name user_id = count then
      delete_tag_by_name_and_user_id lower name user_id tags
    else tags) tags

/-- `list(set(..))` in some order. -/
def Chat.addTag (tag_id : Str) (chat : Chat Cid Uid) : Chat Cid Uid :=
  if chat.tags.contains tag_id then chat
  else { chat with tags := (chat.tags ++ [tag_id]).dedup }

def add_chat_tag (lower : Str → Str) (id : Cid) (user_id : Uid) (s : State Cid Uid)
    (tag_name : Str) : State Cid Uid :=
  let tags := ensure_tag lower user_id s.tags tag_name
  match s.chats.get? id with
  | none => { s with tags := tags }
  | some chat =>
    { chats := s.chats.set id (chat.addTag (tagId lower tag_name)), tags := tags }

def set_chat_tags (id : Cid) (tags : List Str) (chats : Chats Cid Uid) : Chats Cid Uid :=
  match chats.get? id with
  | none => chats
  | some chat => chats.set id { chat with tags := tags }

def add_tag_by_id_and_tag_name (lower : Str → Str) (user_id : Uid) (id : Cid) (name : Str)
    (s : State Cid Uid) : Result Cid Uid :=
  match get_chat_by_id_and_user_id s.chats id user_id with
  | none => .error .unauthorized
  | some chat =>
    if tagId lower name = noneName then .error .badRequest
    else if chat.tags.contains (tagId lower name) then .ok s
    else .ok (add_chat_tag lower id user_id s name)

def delete_tag_by_id_and_tag_name (lower : Str → Str) (user_id : Uid) (id : Cid) (name : Str)
    (s : State Cid Uid) : Result Cid Uid :=
  match get_chat_by_id_and_user_id s.chats id user_id with
  | none => .error .unauthorized
  | some chat =>
    let rest := (chat.tags.filter fun tag => tag ≠ tagId lower name).dedup
    let chats := set_chat_tags id rest s.chats
    .ok
      { chats := chats
        tags := delete_tags_with_count lower 0 chats user_id [name] s.tags }

def delete_all_tags_by_id (lower : Str → Str) (user_id : Uid) (id : Cid) (s : State Cid Uid) :
    Result Cid Uid :=
  match get_chat_by_id_and_user_id s.chats id user_id with
  | none => .error .unauthorized
  | some chat =>
    let chats := set_chat_tags id [] s.chats
    .ok
      { chats := chats
        tags := delete_tags_with_count lower 0 chats user_id chat.tags s.tags }

def update_chat_tags_by_id (lower : Str → Str) (user_id : Uid) (id : Cid) (names : List Str)
    (s : State Cid Uid) : State Cid Uid :=
  match s.chats.get? id with
  | none => s
  | some chat =>
    let chats := set_chat_tags id [] s.chats
    let tags := delete_tags_with_count lower 0 chats user_id chat.tags s.tags
    (names.filter fun name => lower name ≠ noneName).foldl (add_chat_tag lower id user_id)
      { chats := chats, tags := tags }

def archive_chat_by_id (lower : Str → Str) (user_id : Uid) (id : Cid) (s : State Cid Uid) :
    Result Cid Uid :=
  match get_chat_by_id_and_user_id s.chats id user_id with
  | none => .error .unauthorized
  | some chat =>
    let chats := s.chats.set id { chat with archived := !chat.archived }
    .ok
      { chats := chats
        tags :=
          if !chat.archived then delete_tags_with_count lower 0 chats user_id chat.tags s.tags
          else chat.tags.foldl (ensure_tag lower user_id) s.tags }

/-- `archive_all_chats_by_user_id` and `unarchive_all_chats_by_user_id` -/
def set_all_archived (user_id : Uid) (archived : Bool) (s : State Cid Uid) : State Cid Uid :=
  { s with chats := s.chats.mapValues fun _ chat =>
      if chat.user_id = .user user_id then { chat with archived := archived } else chat }

/-- What is left after an admin deletes the row, or its owner does, and in any case its copies. -/
def delete_chat_rows (user : UserModel Uid) (id : Cid) (chats : Chats Cid Uid) : Chats Cid Uid :=
  chats.filter fun key row =>
    ¬(key = id ∧ (user.isAdmin = true ∨ row.user_id = .user user.id)) ∧ row.user_id ≠ .shared id

def delete_chat_by_id (lower : Str → Str) (user : UserModel Uid) (mayDelete : Bool) (id : Cid)
    (s : State Cid Uid) : Result Cid Uid :=
  if !user.isAdmin && !mayDelete then .error .unauthorized
  else match s.chats.get? id with
    | none => .error .notFound
    | some chat => .ok
        { chats := delete_chat_rows user id s.chats
          tags := delete_tags_with_count lower 1 s.chats user.id chat.tags s.tags }

def insert (chats : Chats Cid Uid) (id : Cid) (chat : Chat Cid Uid) : Option (Chats Cid Uid) :=
  if chats.contains id then none else some (chats.set id chat)

def imported (user_id : Uid) (tags : List Str) : Chat Cid Uid :=
  { user_id := .user user_id, archived := false, share_id := none, tags := tags }

def copyOf (id : Cid) (chat : Chat Cid Uid) : Chat Cid Uid :=
  { user_id := .shared id, archived := false, share_id := none, tags := chat.tags }

def import_chat (user_id : Uid) (chats : Chats Cid Uid) (form : Cid × List Str) :
    Option (Chats Cid Uid) :=
  insert chats form.1 (imported user_id form.2)

def import_chats (user_id : Uid) (forms : List (Cid × List Str)) (s : State Cid Uid) :
    Result Cid Uid :=
  match forms.foldlM (import_chat user_id) s.chats with
  | none => .error .badRequest
  | some chats => .ok { s with chats := chats }

def clone_chat_by_id (user_id : Uid) (id new : Cid) (s : State Cid Uid) : Result Cid Uid :=
  match get_chat_by_id_and_user_id s.chats id user_id with
  | none => .error .unauthorized
  | some chat => import_chats user_id [(new, chat.tags)] s

def clone_shared_chat_by_id (user : UserModel Uid) (id new : Cid) (s : State Cid Uid) :
    Result Cid Uid :=
  match if user.isAdmin then s.chats.get? id else get_chat_by_share_id s.chats id with
  | none => .error .unauthorized
  | some chat => import_chats user.id [(new, chat.tags)] s

def share_chat_by_id (user_id : Uid) (id new : Cid) (s : State Cid Uid) : Result Cid Uid :=
  match get_chat_by_id_and_user_id s.chats id user_id with
  | none => .error .unauthorized
  | some chat =>
    if chat.share_id.isSome then .ok s
    else match insert s.chats new (copyOf id chat) with
      | none => .error .exception
      | some chats => .ok { s with chats := chats.set id { chat with share_id := some new } }

inductive Op (Cid : Type)
  | create (new : Cid)
  | addTag (id : Cid) (name : Str)
  | deleteTag (id : Cid) (name : Str)
  | deleteAllTags (id : Cid)
  | updateTags (id : Cid) (names : List Str)
  | archive (id : Cid)
  | setAllArchived (archived : Bool)
  | delete (mayDelete : Bool) (id : Cid)
  | importChats (forms : List (Cid × List Str))
  | clone (id new : Cid)
  | cloneShared (id new : Cid)
  | share (id new : Cid)

def step (lower : Str → Str) (s : State Cid Uid) (request : UserModel Uid × Op Cid) :
    Result Cid Uid :=
  let user := request.1
  match request.2 with
  | .create new => import_chats user.id [(new, [])] s
  | .addTag id name => add_tag_by_id_and_tag_name lower user.id id name s
  | .deleteTag id name => delete_tag_by_id_and_tag_name lower user.id id name s
  | .deleteAllTags id => delete_all_tags_by_id lower user.id id s
  | .updateTags id names => .ok (update_chat_tags_by_id lower user.id id names s)
  | .archive id => archive_chat_by_id lower user.id id s
  | .setAllArchived archived => .ok (set_all_archived user.id archived s)
  | .delete mayDelete id => delete_chat_by_id lower user mayDelete id s
  | .importChats forms => import_chats user.id forms s
  | .clone id new => clone_chat_by_id user.id id new s
  | .cloneShared id new => clone_shared_chat_by_id user id new s
  | .share id new => share_chat_by_id user.id id new s

def State.start : State Cid Uid :=
  { chats := .empty, tags := .empty }

end CustomAi.OpenWebUI.ChatTags
