import CustomAi.Lib.Dict
import CustomAi.Lib.Forest
import CustomAi.Lib.Run

/-!
# Folders of a user

The operations on the folders of one user and on the chats in them, as the routers call them.
-/

namespace CustomAi.OpenWebUI.Folders

open List CustomAi.Lib

variable {Fid Cid Uid Name B : Type}

structure Folder (Fid Name : Type) where
  parent_id : Option Fid
  name : Name
deriving DecidableEq

/-- `body` stands for the columns that no folder operation touches. -/
structure Chat (Fid Cid Uid B : Type) where
  id : Cid
  user_id : Uid
  folder_id : Option Fid
  pinned : Bool
  body : B
deriving DecidableEq

structure State (Fid Cid Uid Name B : Type) where
  folders : Dict Fid (Folder Fid Name)
  chats : List (Chat Fid Cid Uid B)

inductive Error
  | badRequest
  | notFound
  | forbidden
deriving DecidableEq

variable [DecidableEq Fid] [DecidableEq Cid] [DecidableEq Uid] [DecidableEq Name]

def parentOf (folders : Dict Fid (Folder Fid Name)) (id : Fid) : Option Fid :=
  (folders.get? id).bind Folder.parent_id

/-- The ids of the folders under `parent_id`. -/
def get_folders_by_parent_id (folders : Dict Fid (Folder Fid Name)) (parent_id : Option Fid) :
    List Fid :=
  (folders.entries.filter fun e => e.2.parent_id = parent_id).map Prod.fst

/-- A folder under `parent_id` whose name matches; `ilike` is the comparison of the database. -/
def get_folder_by_parent_id_and_name (ilike : Name → Name → Bool)
    (folders : Dict Fid (Folder Fid Name)) (parent_id : Option Fid) (name : Name) : Option Fid :=
  (folders.entries.find? fun e => e.2.parent_id = parent_id ∧ ilike e.2.name name).map Prod.fst

/-- The nested function of `get_children_folders_by_id_and_user_id`; `none` is too deep a recursion. -/
def get_children (folders : Dict Fid (Folder Fid Name)) : ℕ → Fid → Option (List Fid)
  | 0, _ => none
  | depth + 1, id =>
    ((get_folders_by_parent_id folders (some id)).mapM fun child =>
      (get_children folders depth child).map (· ++ [child])).map List.flatten

/-- The loop of `delete_children`: what is left and the deleted ids, `none` after an exception. -/
def deleteLoop (delete_children : Fid → Dict Fid (Folder Fid Name) →
      Dict Fid (Folder Fid Name) × Option (List Fid)) :
    List Fid → Dict Fid (Folder Fid Name) → Dict Fid (Folder Fid Name) × Option (List Fid)
  | [], folders => (folders, some [])
  | child :: rest, folders =>
    match delete_children child folders with
    | (folders, none) => (folders, none)
    | (folders, some below) =>
      -- deleting a row that is no longer there raises
      if folders.contains child then
        match deleteLoop delete_children rest (folders.erase child) with
        | (folders, none) => (folders, none)
        | (folders, some others) => (folders, some (below ++ child :: others))
      else (folders, none)

def delete_children : ℕ → Fid → Dict Fid (Folder Fid Name) →
    Dict Fid (Folder Fid Name) × Option (List Fid)
  | 0, _, folders => (folders, none)
  | depth + 1, id, folders =>
    deleteLoop (delete_children depth) (get_folders_by_parent_id folders (some id)) folders

/-- `Folders.delete_folder_by_id_and_user_id`: an exception is answered by the empty list. -/
def delete_folder (depth : ℕ) (id : Fid) (folders : Dict Fid (Folder Fid Name)) :
    Dict Fid (Folder Fid Name) × List Fid :=
  match folders.get? id with
  | none => (folders, [])
  | some _ =>
    match delete_children depth id folders with
    | (folders, none) => (folders, [])
    | (folders, some below) => (folders.erase id, id :: below)

def Chat.isIn (user_id : Uid) (folder_id : Fid) (chat : Chat Fid Cid Uid B) : Bool :=
  chat.user_id = user_id && chat.folder_id = some folder_id

def delete_chats_by_folder_id (user_id : Uid) (chats : List (Chat Fid Cid Uid B))
    (folder_id : Fid) : List (Chat Fid Cid Uid B) :=
  chats.filter fun chat => !chat.isIn user_id folder_id

def move_chats_by_folder_id (user_id : Uid) (new_folder_id : Option Fid)
    (chats : List (Chat Fid Cid Uid B)) (folder_id : Fid) : List (Chat Fid Cid Uid B) :=
  chats.map fun chat =>
    if chat.isIn user_id folder_id then { chat with folder_id := new_folder_id } else chat

/-- The requests. `mayDelete` says whether the user is an admin or has the permission
`chat.delete`. -/
inductive Op (Fid Cid Name : Type)
  | create (id : Fid) (name : Name) (parent_id : Option Fid)
  | updateParent (id : Fid) (parent_id : Option Fid)
  | rename (id : Fid) (name : Name)
  | delete (id : Fid) (delete_contents mayDelete : Bool)
  | moveChat (id : Cid) (folder_id : Option Fid)

/-- `Folders.insert_new_folder`; an id that exists is refused by the database. -/
def insert_new_folder (id : Fid) (name : Name) (parent_id : Option Fid)
    (s : State Fid Cid Uid Name B) : Except Error (State Fid Cid Uid Name B) :=
  if s.folders.contains id then .error .badRequest
  else .ok { s with folders := s.folders.set id { parent_id := parent_id, name := name } }

def update_folder_parent_id_by_id (ilike : Name → Name → Bool) (id : Fid)
    (parent_id : Option Fid) (s : State Fid Cid Uid Name B) :
    Except Error (State Fid Cid Uid Name B) :=
  match s.folders.get? id with
  | none => .error .notFound
  | some folder =>
    match get_folder_by_parent_id_and_name ilike s.folders parent_id folder.name with
    | some _ => .error .badRequest
    | none => .ok { s with folders := s.folders.set id { folder with parent_id := parent_id } }

def update_folder_name_by_id (ilike : Name → Name → Bool) (id : Fid) (name : Name)
    (s : State Fid Cid Uid Name B) : Except Error (State Fid Cid Uid Name B) :=
  match s.folders.get? id with
  | none => .error .notFound
  | some folder =>
    let existing := get_folder_by_parent_id_and_name ilike s.folders folder.parent_id name
    if existing.any (· ≠ id) then .error .badRequest
    else
      -- the table looks once more for a folder with exactly this name
      let same := s.folders.entries.find? fun e =>
        e.2.parent_id = folder.parent_id ∧ e.2.name = name
      if same.any (·.1 ≠ id) then .ok s
      else .ok { s with folders := s.folders.set id { folder with name := name } }

def delete_folder_by_id (depth : ℕ) (user_id : Uid) (id : Fid) (delete_contents mayDelete : Bool)
    (s : State Fid Cid Uid Name B) : Except Error (State Fid Cid Uid Name B) :=
  if s.chats.any (Chat.isIn user_id id) && !mayDelete then .error .forbidden
  else if s.folders.contains id then
    let (folders, folder_ids) := delete_folder depth id s.folders
    let chats :=
      if delete_contents then folder_ids.foldl (delete_chats_by_folder_id user_id) s.chats
      else folder_ids.foldl (move_chats_by_folder_id user_id none) s.chats
    .ok { folders := folders, chats := chats }
  else .error .notFound

def update_chat_folder_id_by_id (user_id : Uid) (id : Cid) (folder_id : Option Fid)
    (s : State Fid Cid Uid Name B) : Except Error (State Fid Cid Uid Name B) :=
  if s.chats.any fun chat => chat.id = id ∧ chat.user_id = user_id then
    .ok { s with chats := s.chats.map fun chat =>
      if chat.id = id then { chat with folder_id := folder_id, pinned := false } else chat }
  else .error .notFound

def step (ilike : Name → Name → Bool) (depth : ℕ) (user_id : Uid) (s : State Fid Cid Uid Name B) :
    Op Fid Cid Name → Except Error (State Fid Cid Uid Name B)
  | .create id name parent_id => insert_new_folder id name parent_id s
  | .updateParent id parent_id => update_folder_parent_id_by_id ilike id parent_id s
  | .rename id name => update_folder_name_by_id ilike id name s
  | .delete id delete_contents mayDelete =>
    delete_folder_by_id depth user_id id delete_contents mayDelete s
  | .moveChat id folder_id => update_chat_folder_id_by_id user_id id folder_id s

def State.start (chats : List (Chat Fid Cid Uid B)) : State Fid Cid Uid Name B :=
  { folders := .empty, chats := chats }

end CustomAi.OpenWebUI.Folders

/-!
## What deleting a folder deletes

The recursion over the children, from a forest of folders that is not deeper than Python's
recursion allows.
-/

namespace CustomAi.OpenWebUI.Folders

open List CustomAi.Lib CustomAi.Lib.Forest

variable {Fid Name : Type} [DecidableEq Fid] {folders folders' : Dict Fid (Folder Fid Name)}
  {id child x : Fid} {depth : ℕ} {ids : List Fid}

lemma mem_get_folders_by_parent_id :
    child ∈ get_folders_by_parent_id folders (some id) ↔ parentOf folders child = some id := by
  rw [get_folders_by_parent_id, mem_map]
  constructor
  · rintro ⟨⟨c, folder⟩, hmem, rfl⟩
    obtain ⟨hentry, hparent⟩ := mem_filter.mp hmem
    rw [parentOf, (folders.mem_entries_iff c folder).mp hentry]
    simpa using hparent
  · intro h
    obtain ⟨folder, hget, hparent⟩ := Option.bind_eq_some_iff.mp h
    refine ⟨(child, folder), mem_filter.mpr ⟨?_, by simpa using hparent⟩, rfl⟩
    exact (folders.mem_entries_iff child folder).mpr hget

lemma get_children_isSome_iff : (get_children folders depth id).isSome ↔ Shallow (parentOf folders) depth id := by
  induction depth generalizing id with
  | zero => simp [get_children, Shallow]
  | succ depth ih =>
    rw [get_children, Option.isSome_map]
    have hmapM : ∀ l : List Fid, (l.mapM fun child =>
        (get_children folders depth child).map (· ++ [child])).isSome ↔
          ∀ c ∈ l, Shallow (parentOf folders) depth c := by
      intro l
      induction l with
      | nil => simp
      | cons c rest ihl =>
        rw [mapM_cons, forall_mem_cons, ← ihl, ← ih]
        cases get_children folders depth c with
        | none => simp
        | some below =>
          cases rest.mapM fun child => (get_children folders depth child).map (· ++ [child]) with
          | none => simp
          | some others => simp
    rw [hmapM]
    exact forall_congr' fun c => by rw [mem_get_folders_by_parent_id]

/-- The folders `ids` below `id` were deleted with everything below them. -/
structure Deleted (folders : Dict Fid (Folder Fid Name)) (id : Fid)
    (folders' : Dict Fid (Folder Fid Name)) (ids : List Fid) : Prop where
  get? : ∀ x, folders'.get? x = if x ∈ ids then none else folders.get? x
  below : ∀ x ∈ ids, Below (parentOf folders) x id
  closed : ∀ x ∈ ids, ∀ y, parentOf folders y = some x → y ∈ ids
  children : ∀ y, parentOf folders y = some id → y ∈ ids

lemma Deleted.mem_iff (h : Deleted folders id folders' ids) : x ∈ ids ↔ Below (parentOf folders) x id := by
  refine ⟨h.below x, fun hbelow => ?_⟩
  induction hbelow using Relation.TransGen.head_induction_on with
  | single hx => exact h.children _ hx
  | head hx _ ih => exact h.closed _ ih _ hx

section

variable (h : ∀ x, folders'.get? x = if x ∈ ids then none else folders.get? x)
include h

lemma parentOf_of_get?  (y : Fid) : parentOf folders' y = if y ∈ ids then none else parentOf folders y := by
  rw [parentOf, h]
  split
  · rfl
  · rfl

lemma parentOf_mono  (y p : Fid) (hp : parentOf folders' y = some p) : parentOf folders y = some p := by
  rw [parentOf_of_get? h] at hp
  split at hp
  · cases hp
  · exact hp

end

lemma deleteLoop_spec {recurse : Fid → Dict Fid (Folder Fid Name) → Dict Fid (Folder Fid Name) × Option (List Fid)}
    (hrec : ∀ (folders : Dict Fid (Folder Fid Name)) child, Acyclic (parentOf folders) →
      Shallow (parentOf folders) depth child → ∃ folders' ids,
        recurse child folders = (folders', some ids) ∧ Deleted folders child folders' ids)
    {l : List Fid} (hnodup : l.Nodup) (hacyclic : Acyclic (parentOf folders))
    (hl : ∀ c ∈ l, parentOf folders c = some id ∧ Shallow (parentOf folders) depth c) :
    ∃ folders' ids, deleteLoop recurse l folders = (folders', some ids) ∧
      (∀ x, folders'.get? x = if x ∈ ids then none else folders.get? x) ∧
      (∀ x ∈ ids, Below (parentOf folders) x id) ∧
      (∀ x ∈ ids, ∀ y, parentOf folders y = some x → y ∈ ids) ∧ ∀ c ∈ l, c ∈ ids := by
  induction l generalizing folders with
  | nil => exact ⟨folders, [], rfl, by simp, by simp, by simp, by simp⟩
  | cons c rest ih =>
    obtain ⟨hc, hshallow⟩ := hl c mem_cons_self
    obtain ⟨folders1, below, hrecurse, hdel⟩ := hrec folders c hacyclic hshallow
    rw [nodup_cons] at hnodup
    -- neither the child itself nor another child of `id` is below the child
    have hself : c ∉ below := fun h => hacyclic c (hdel.below c h)
    have hother : ∀ c' ∈ rest, c' ∉ below := fun c' hc' h =>
      hacyclic.parent_ne_of_below (hdel.below c' h) hc (hl c' (mem_cons_of_mem c hc')).1
    have hcontains : folders1.contains c = true := by
      obtain ⟨folder, hfolder, -⟩ := Option.bind_eq_some_iff.mp hc
      rw [Dict.contains, hdel.get?, if_neg hself, hfolder]
      rfl
    have hget : ∀ x, (folders1.erase c).get? x = if x ∈ c :: below then none else folders.get? x := by
      intro x
      rw [Dict.get?_erase, hdel.get?]
      by_cases hx : x = c
      · simp [hx]
      · simp [hx]
    have hacyclic2 : Acyclic (parentOf (folders1.erase c)) := hacyclic.mono (parentOf_mono hget)
    have hrest : ∀ c' ∈ rest, parentOf (folders1.erase c) c' = some id ∧
        Shallow (parentOf (folders1.erase c)) depth c' := by
      intro c' hc'
      obtain ⟨hparent, hshallow'⟩ := hl c' (mem_cons_of_mem c hc')
      have hne : c' ∉ c :: below := by
        rw [mem_cons, not_or]
        exact ⟨fun e => hnodup.1 (e ▸ hc'), hother c' hc'⟩
      refine ⟨?_, hshallow'.mono (parentOf_mono hget)⟩
      rw [parentOf_of_get? hget, if_neg hne, hparent]
    obtain ⟨folders2, others, hloop, hget2, hbelow2, hclosed2, hmem2⟩ := ih hnodup.2 hacyclic2 hrest
    refine ⟨folders2, below ++ c :: others, ?_, ?_, ?_, ?_, ?_⟩
    · simp only [deleteLoop, hrecurse, hcontains, if_true, hloop]
    · intro x
      rw [hget2, hget]
      by_cases hx : x ∈ others
      · simp [hx]
      · by_cases hx' : x ∈ c :: below
        · have hx'' : x ∈ below ++ c :: others := by
            rcases mem_cons.mp hx' with rfl | hx'
            · simp
            · simp [hx']
          rw [if_neg hx, if_pos hx', if_pos hx'']
        · rw [mem_cons, not_or] at hx'
          have hx'' : x ∉ below ++ c :: others := by simp [hx, hx'.1, hx'.2]
          rw [if_neg hx, if_neg hx'', if_neg (by simp [hx'.1, hx'.2])]
    · intro x hx
      rcases mem_append.mp hx with hx | hx
      · exact (hdel.below x hx).trans (.single hc)
      · rcases mem_cons.mp hx with rfl | hx
        · exact .single hc
        · exact (hbelow2 x hx).mono (parentOf_mono hget)
    · intro x hx y hy
      -- a child of a deleted folder goes with it, unless it has gone before
      by_cases hy' : y ∈ c :: below
      · rcases mem_cons.mp hy' with rfl | hy'
        · simp
        · simp [hy']
      · have hy2 : parentOf (folders1.erase c) y = some x := by
          rw [parentOf_of_get? hget, if_neg hy', hy]
        rcases mem_append.mp hx with hx | hx
        · exact absurd (mem_cons_of_mem c (hdel.closed x hx y hy)) hy'
        · rcases mem_cons.mp hx with rfl | hx
          · exact absurd (mem_cons_of_mem x (hdel.children y hy)) hy'
          · simp [hclosed2 x hx y hy2]
    · intro c' hc'
      rcases mem_cons.mp hc' with rfl | hc'
      · simp
      · simp [hmem2 c' hc']

lemma delete_children_spec (hacyclic : Acyclic (parentOf folders))
    (hshallow : Shallow (parentOf folders) depth id) : ∃ folders' ids,
    delete_children depth id folders = (folders', some ids) ∧ Deleted folders id folders' ids := by
  induction depth generalizing folders id with
  | zero => exact hshallow.elim
  | succ depth ih =>
    have hl : ∀ c ∈ get_folders_by_parent_id folders (some id),
        parentOf folders c = some id ∧ Shallow (parentOf folders) depth c := by
      intro c hc
      rw [mem_get_folders_by_parent_id] at hc
      exact ⟨hc, hshallow c hc⟩
    obtain ⟨folders', ids, hloop, hget, hbelow, hclosed, hmem⟩ :=
      deleteLoop_spec (fun folders child ha hs => ih ha hs) ((Dict.nodup_keys _).sublist (filter_sublist.map Prod.fst))
        hacyclic hl
    refine ⟨folders', ids, hloop, hget, hbelow, hclosed, fun y hy => ?_⟩
    exact hmem y (mem_get_folders_by_parent_id.mpr hy)

lemma delete_folder_spec (hacyclic : Acyclic (parentOf folders))
    (hshallow : Shallow (parentOf folders) depth id) (hid : folders.contains id = true) :
    ∃ folders' ids, delete_folder depth id folders = (folders', ids) ∧
      (∀ x, x ∈ ids ↔ x = id ∨ Below (parentOf folders) x id) ∧
      ∀ x, folders'.get? x = if x ∈ ids then none else folders.get? x := by
  obtain ⟨folder, hfolder⟩ := Option.isSome_iff_exists.mp hid
  obtain ⟨folders', ids, hdelete, hdel⟩ := delete_children_spec hacyclic hshallow
  refine ⟨folders'.erase id, id :: ids, ?_, fun x => ?_, fun x => ?_⟩
  · simp only [delete_folder, hfolder, hdelete]
  · rw [mem_cons, hdel.mem_iff]
  · rw [Dict.get?_erase, hdel.get?]
    by_cases hx : x = id
    · simp [hx]
    · simp [hx]

end CustomAi.OpenWebUI.Folders
