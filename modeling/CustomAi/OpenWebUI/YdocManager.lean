import CustomAi.Lib.Run
import Mathlib.Data.Finset.Card
import Mathlib.Data.Fintype.Basic

/-!
# The document manager

The update lists and user sets that `YdocManager` keeps in Redis.
-/

namespace CustomAi.OpenWebUI

open List

variable {U Sid : Type}

/-- `document_id.replace(":", "_")` -/
def normalized (document_id : List Char) : List Char :=
  document_id.map fun c => if c = ':' then '_' else c

structure Redis (U Sid : Type) where
  lists : List Char → List U
  sets : List Char → Finset Sid

def Redis.empty : Redis U Sid := ⟨fun _ => [], fun _ => ∅⟩

def redisKey (root n field : List Char) : List Char := root ++ ':' :: (n ++ ':' :: field)

def updatesKey (root n : List Char) : List Char :=
  redisKey root n ['u', 'p', 'd', 'a', 't', 'e', 's']

def usersKey (root n : List Char) : List Char := redisKey root n ['u', 's', 'e', 'r', 's']

lemma usersKey_injective {root n m : List Char} (h : usersKey root n = usersKey root m) : n = m := by
  have htail := (cons.inj (append_cancel_left h)).2
  exact append_cancel_right htail

lemma updatesKey_injective {root n m : List Char} (h : updatesKey root n = updatesKey root m) : n = m := by
  have htail := (cons.inj (append_cancel_left h)).2
  exact append_cancel_right htail

lemma updatesKey_ne_usersKey (root n m : List Char) : updatesKey root n ≠ usersKey root m := by
  intro h
  have htail := (cons.inj (append_cancel_left h)).2
  have hrev := congrArg reverse htail
  simp at hrev

namespace YdocManager

section

variable [DecidableEq Sid]

/-- `DEL key` -/
def delete (r : Redis U Sid) (key : List Char) : Redis U Sid where
  lists := Function.update r.lists key []
  sets := Function.update r.sets key ∅

def append_to_updates (root : List Char) (r : Redis U Sid) (document_id : List Char) (update : U) :
    Redis U Sid :=
  let key := updatesKey root (normalized document_id)
  { r with lists := Function.update r.lists key (r.lists key ++ [update]) }

def get_updates (root : List Char) (r : Redis U Sid) (document_id : List Char) : List U :=
  r.lists (updatesKey root (normalized document_id))

def document_exists (root : List Char) (r : Redis U Sid) (document_id : List Char) : Bool :=
  !(r.lists (updatesKey root (normalized document_id))).isEmpty

def get_users (root : List Char) (r : Redis U Sid) (document_id : List Char) : Finset Sid :=
  r.sets (usersKey root (normalized document_id))

def add_user (root : List Char) (r : Redis U Sid) (document_id : List Char) (user_id : Sid) :
    Redis U Sid :=
  let key := usersKey root (normalized document_id)
  { r with sets := Function.update r.sets key (insert user_id (r.sets key)) }

/-- `SREM key user_id` -/
def srem (r : Redis U Sid) (key : List Char) (user_id : Sid) : Redis U Sid :=
  { r with sets := Function.update r.sets key ((r.sets key).erase user_id) }

def remove_user (root : List Char) (r : Redis U Sid) (document_id : List Char) (user_id : Sid) :
    Redis U Sid :=
  srem r (usersKey root (normalized document_id)) user_id

/-- The first of the two commands of `clear_document`. -/
def clear_updates (root : List Char) (r : Redis U Sid) (document_id : List Char) : Redis U Sid :=
  delete r (updatesKey root (normalized document_id))

/-- The second of the two commands of `clear_document`. -/
def clear_users (root : List Char) (r : Redis U Sid) (document_id : List Char) : Redis U Sid :=
  delete r (usersKey root (normalized document_id))

variable (root : List Char) (r : Redis U Sid) (document_id : List Char)

omit [DecidableEq Sid] in
lemma append_to_updates_lists (update : U) : (append_to_updates root r document_id update).lists =
      Function.update r.lists (updatesKey root (normalized document_id))
        (r.lists (updatesKey root (normalized document_id)) ++ [update]) := rfl

lemma add_user_sets (sid : Sid) : (add_user root r document_id sid).sets =
      Function.update r.sets (usersKey root (normalized document_id))
        (insert sid (r.sets (usersKey root (normalized document_id)))) := rfl

lemma srem_sets (key : List Char) (sid : Sid) :
    (srem r key sid).sets = Function.update r.sets key ((r.sets key).erase sid) := rfl

end

/-- `key.endswith(":users")` -/
def isUsersKey (key : List Char) : Bool := [':', 'u', 's', 'e', 'r', 's'].isSuffixOf key

/-- `key.split(":")[-2]` -/
def keyDocument (key : List Char) : Option (List Char) := (key.splitOn ':').reverse[1]?

end YdocManager

end CustomAi.OpenWebUI
