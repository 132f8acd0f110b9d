import CustomAi.OpenWebUI.Folders

/-!
# Runs of folder requests

The folders stay a forest, and a deletion is exact, in every run in which no folder is put into its
own subtree and no request deletes chats below a folder for a user who may not.
-/

namespace CustomAi.OpenWebUI.Folders

open List CustomAi.Lib CustomAi.Lib.Forest Function

variable {Fid Cid Uid Name B : Type} [DecidableEq Fid] [DecidableEq Cid] [DecidableEq Uid]
  [DecidableEq Name] {ilike : Name → Name → Bool} {depth : ℕ} {user_id : Uid}
  {s s' : State Fid Cid Uid Name B} {id : Fid} {ids : List Fid}

/-- The folder `id` may get this parent: it is not the folder itself and not below it. -/
def NewParent (folders : Dict Fid (Folder Fid Name)) (id : Fid) (parent_id : Option Fid) : Prop :=
  ∀ p, parent_id = some p → p ≠ id ∧ ¬ Below (parentOf folders) p id

def Chat.isInSome (user_id : Uid) (ids : List Fid) (chat : Chat Fid Cid Uid B) : Bool :=
  ids.any fun folder_id => chat.isIn user_id folder_id

/-- A request that keeps the forest: a deletion is not too deep and leaves no chat that it may not
delete. -/
def Careful (depth : ℕ) (user_id : Uid) (s : State Fid Cid Uid Name B) : Op Fid Cid Name → Prop
  | .create id _ parent_id => NewParent s.folders id parent_id
  | .updateParent id parent_id => NewParent s.folders id parent_id
  | .rename _ _ => True
  | .delete id delete_contents mayDelete => Shallow (parentOf s.folders) depth id ∧
      (mayDelete = true ∨ delete_contents = false ∨ s.chats.any (Chat.isIn user_id id) = true ∨
        ∀ chat ∈ s.chats, ∀ folder_id, Below (parentOf s.folders) folder_id id →
          chat.isIn user_id folder_id = false)
  | .moveChat _ _ => True

/-- The subtree is gone with its chats, or they are in no folder, and nothing else has changed. -/
def DeletedExactly (user_id : Uid) (s : State Fid Cid Uid Name B) (id : Fid)
    (delete_contents : Bool) (s' : State Fid Cid Uid Name B) : Prop :=
  ∃ ids, (∀ x, x ∈ ids ↔ x = id ∨ Below (parentOf s.folders) x id) ∧
    (∀ x, s'.folders.get? x = if x ∈ ids then none else s.folders.get? x) ∧ s'.chats =
      if delete_contents then s.chats.filter fun chat => !chat.isInSome user_id ids
      else s.chats.map fun chat =>
        if chat.isInSome user_id ids then { chat with folder_id := none } else chat

/-- The two recursions end with enough depth. -/
def Terminates (folders : Dict Fid (Folder Fid Name)) : Prop :=
  ∀ id, ∃ n, ∀ m, n ≤ m → (get_children folders m id).isSome ∧ (delete_children m id folders).2.isSome

def Op.mayDelete : Op Fid Cid Name → Bool
  | .delete _ _ mayDelete => mayDelete
  | .create _ _ _ | .updateParent _ _ | .rename _ _ | .moveChat _ _ => false

variable {folder : Folder Fid Name} {op : Op Fid Cid Name} (chats : List (Chat Fid Cid Uid B))

omit [DecidableEq Cid] in
lemma foldl_delete_chats : ids.foldl (delete_chats_by_folder_id user_id) chats =
      chats.filter fun chat => !chat.isInSome user_id ids := by
  induction ids generalizing chats with
  | nil => simp [Chat.isInSome]
  | cons folder_id rest ih =>
    rw [foldl_cons, ih, delete_chats_by_folder_id, filter_filter]
    refine filter_congr fun chat _ => ?_
    simp [Chat.isInSome, Bool.and_comm]

omit [DecidableEq Cid] in
lemma foldl_move_chats : ids.foldl (move_chats_by_folder_id user_id none) chats = chats.map fun chat =>
      if chat.isInSome user_id ids then { chat with folder_id := none } else chat := by
  induction ids generalizing chats with
  | nil => simp [Chat.isInSome]
  | cons folder_id rest ih =>
    rw [foldl_cons, ih, move_chats_by_folder_id, map_map]
    refine map_congr_left fun chat _ => ?_
    by_cases hin : chat.isIn user_id folder_id = true
    · -- the chat is in no folder now: a later step cannot change it
      simp [hin, Chat.isInSome]
    · simp [hin, Chat.isInSome]

omit [DecidableEq Name] in
lemma parentOf_set (folders : Dict Fid (Folder Fid Name)) (id : Fid) (folder : Folder Fid Name) :
    parentOf (folders.set id folder) = update (parentOf folders) id folder.parent_id := by
  funext x
  rw [parentOf, Dict.get?_set]
  by_cases hx : x = id
  · rw [if_pos hx, hx, update_self]
    rfl
  · rw [if_neg hx, update_of_ne hx]
    rfl

variable {folders : Dict Fid (Folder Fid Name)}

omit [DecidableEq Name] in
lemma acyclic_set (hacyclic : Acyclic (parentOf folders)) (hparent : NewParent folders id folder.parent_id) :
    Acyclic (parentOf (folders.set id folder)) := by
  rw [parentOf_set]
  exact hacyclic.update hparent

omit [DecidableEq Name] in
lemma acyclic_set_same {folder' : Folder Fid Name} (hacyclic : Acyclic (parentOf folders))
    (hget : folders.get? id = some folder) (hparent : folder'.parent_id = folder.parent_id) :
    Acyclic (parentOf (folders.set id folder')) := by
  have hid : parentOf folders id = folder'.parent_id := by
    rw [parentOf, hget, Option.bind_some, hparent]
  rw [parentOf_set, ← hid, update_eq_self]
  exact hacyclic

section

variable (hacyclic : Acyclic (parentOf s.folders))
include hacyclic

omit [DecidableEq Cid] [DecidableEq Name] in
lemma delete_exact {delete_contents mayDelete : Bool} (hshallow : Shallow (parentOf s.folders) depth id)
    (hs : delete_folder_by_id depth user_id id delete_contents mayDelete s = .ok s') :
    (s.chats.any (Chat.isIn user_id id) = true → mayDelete = true) ∧
      DeletedExactly user_id s id delete_contents s' := by
  unfold delete_folder_by_id at hs
  split at hs
  · cases hs
  · rename_i hallowed
    split at hs
    · rename_i hid
      obtain ⟨folders', ids, hdelete, hmem, hget⟩ := delete_folder_spec hacyclic hshallow hid
      simp only [hdelete, foldl_delete_chats, foldl_move_chats] at hs
      cases hs
      exact ⟨by simpa using hallowed, ids, hmem, hget, rfl⟩
    · cases hs

lemma chats_kept_of_careful (hcareful : Careful depth user_id s op) (hs : step ilike depth user_id s op = .ok s')
    (hmay : op.mayDelete = false) : s'.chats.map Chat.id = s.chats.map Chat.id := by
  cases op with
  | create id name parent_id =>
    simp only [step, insert_new_folder] at hs
    split at hs
    · cases hs
    · cases hs
      rfl
  | updateParent id parent_id =>
    simp only [step, update_folder_parent_id_by_id] at hs
    split at hs
    · cases hs
    · split at hs
      · cases hs
      · cases hs
        rfl
  | rename id name =>
    simp only [step, update_folder_name_by_id] at hs
    split at hs
    · cases hs
    · split at hs
      · cases hs
      · split at hs
        · cases hs
          rfl
        · cases hs
          rfl
  | delete id delete_contents mayDelete =>
    obtain ⟨hshallow, hchats⟩ := hcareful
    obtain ⟨hallowed, ids, hmem, -, hs'⟩ := delete_exact hacyclic hshallow hs
    have hmay' : mayDelete = false := hmay
    have hnone : s.chats.any (Chat.isIn user_id id) = false := by
      rw [Bool.eq_false_iff]
      intro hany
      rw [hallowed hany] at hmay'
      cases hmay'
    rw [hmay'] at hchats
    rw [hs']
    cases delete_contents with
    | false =>
      simp only [Bool.false_eq_true, if_false, map_map]
      refine map_congr_left fun chat _ => ?_
      rw [comp_apply]
      split <;> rfl
    | true =>
      have hbelow : ∀ chat ∈ s.chats, ∀ folder_id, Below (parentOf s.folders) folder_id id →
          chat.isIn user_id folder_id = false := by
        simpa [hnone] using hchats
      rw [if_pos rfl, filter_eq_self.mpr]
      intro chat hchat
      rw [Bool.not_eq_true', Chat.isInSome, any_eq_false]
      intro folder_id hfolder
      rcases (hmem folder_id).mp hfolder with rfl | hfolder
      · exact any_eq_false.mp hnone chat hchat
      · rw [hbelow chat hchat folder_id hfolder]
        exact Bool.false_ne_true
  | moveChat id folder_id =>
    simp only [step, update_chat_folder_id_by_id] at hs
    split at hs
    · cases hs
      rw [map_map]
      refine map_congr_left fun chat _ => ?_
      rw [comp_apply]
      split <;> rfl
    · cases hs

lemma acyclic_step (hcareful : Careful depth user_id s op) (hs : step ilike depth user_id s op = .ok s') :
    Acyclic (parentOf s'.folders) := by
  cases op with
  | create id name parent_id =>
    simp only [step, insert_new_folder] at hs
    split at hs
    · cases hs
    · cases hs
      exact acyclic_set hacyclic hcareful
  | updateParent id parent_id =>
    simp only [step, update_folder_parent_id_by_id] at hs
    split at hs
    · cases hs
    · split at hs
      · cases hs
      · cases hs
        exact acyclic_set hacyclic hcareful
  | rename id name =>
    simp only [step, update_folder_name_by_id] at hs
    split at hs
    · cases hs
    · rename_i folder hget
      split at hs
      · cases hs
      · split at hs
        · cases hs
          exact hacyclic
        · cases hs
          exact acyclic_set_same hacyclic hget rfl
  | delete id delete_contents mayDelete =>
    obtain ⟨-, ids, -, hget, -⟩ := delete_exact hacyclic hcareful.1 hs
    exact hacyclic.mono (parentOf_mono hget)
  | moveChat id folder_id =>
    simp only [step, update_chat_folder_id_by_id] at hs
    split at hs
    · cases hs
      exact hacyclic
    · cases hs

end

omit [DecidableEq Name] in
lemma terminates_of_acyclic (hacyclic : Acyclic (parentOf folders)) : Terminates folders := by
  intro id
  have hnodes : ∀ c p, parentOf folders c = some p → c ∈ folders.keys.toFinset := by
    intro c p hp
    obtain ⟨folder, hget, -⟩ := Option.bind_eq_some_iff.mp hp
    rw [mem_toFinset, Dict.mem_keys_iff, Dict.contains, hget]
    rfl
  have hshallow := hacyclic.shallow folders.keys.toFinset hnodes id
  refine ⟨_, fun m hm => ⟨get_children_isSome_iff.mpr (hshallow.of_le hm), ?_⟩⟩
  obtain ⟨folders', ids, hdelete, -⟩ := delete_children_spec hacyclic (hshallow.of_le hm)
  rw [hdelete]
  rfl

/-- In a run of careful requests the folders form a forest, and deletions are exact. -/
theorem reaches_forest (ilike : Name → Name → Bool) (depth : ℕ) (user_id : Uid)
    (chats : List (Chat Fid Cid Uid B)) (s : State Fid Cid Uid Name B)
    (h : Reaches (step ilike depth user_id) (Careful depth user_id) (.start chats) s) :
    Acyclic (parentOf s.folders) ∧ Terminates s.folders ∧
      ∀ op s', Careful depth user_id s op → step ilike depth user_id s op = .ok s' →
        (∀ id delete_contents mayDelete, op = .delete id delete_contents mayDelete →
          DeletedExactly user_id s id delete_contents s') ∧
        (op.mayDelete = false → s'.chats.map Chat.id = s.chats.map Chat.id) := by
  have hacyclic : Acyclic (parentOf s.folders) := by
    refine h.invariant ?_ fun s op s' ha hc hs =>
      acyclic_step ha hc hs
    exact fun a => not_below_of_root rfl
  refine ⟨hacyclic, terminates_of_acyclic hacyclic, fun op s' hcareful hs => ⟨?_, ?_⟩⟩
  · rintro id delete_contents mayDelete rfl
    exact (delete_exact hacyclic hcareful.1 hs).2
  · exact chats_kept_of_careful hacyclic hcareful hs

def chatIn (id : ℕ) (folder_id : Option ℕ) : Chat ℕ ℕ ℕ Unit :=
  { id := id, user_id := 0, folder_id := folder_id, pinned := false, body := () }

def subfolder : State ℕ ℕ ℕ ℕ Unit :=
  { folders := ((Dict.empty.set 1 { parent_id := none, name := 0 }).set 2
      { parent_id := none, name := 1 }).set 2 { parent_id := some 1, name := 1 }
    chats := [chatIn 0 (some 2), chatIn 1 none] }

lemma parentOf_subfolder {c p : ℕ} (h : parentOf subfolder.folders c = some p) : c = 2 ∧ p = 1 := by
  obtain ⟨folder, hget, hparent⟩ := Option.bind_eq_some_iff.mp h
  rw [subfolder, Dict.get?_set, Dict.get?_set, Dict.get?_set] at hget
  by_cases hc : c = 2
  · rw [if_pos hc] at hget
    cases hget
    exact ⟨hc, (Option.some.inj hparent).symm⟩
  · rw [if_neg hc, if_neg hc] at hget
    split at hget
    · cases hget
      cases hparent
    · cases hget

/-- A folder is put into another one, which is deleted with the chat in the subfolder. -/
theorem reaches_forest_one :
    Reaches (step (fun a b => decide (a = b)) 2 0) (Careful 2 0)
        (.start [chatIn 0 (some 2), chatIn 1 none]) subfolder ∧
      Careful 2 0 subfolder (.delete 1 true true) ∧
      ∃ s', step (fun a b => decide (a = b)) 2 0 subfolder (.delete 1 true true) = .ok s' ∧
        s'.chats = [chatIn 1 none] ∧ DeletedExactly 0 subfolder 1 true s' := by
  have hreach : Reaches (step (fun a b => decide (a = b)) 2 0) (Careful 2 0)
      (.start [chatIn 0 (some 2), chatIn 1 none]) subfolder := by
    refine .step (.updateParent 2 (some 1)) (.step (.create 2 1 none) (.step (.create 1 0 none) .start
      ?_ rfl) ?_ rfl) ?_ rfl
    · exact fun p hp => by cases hp
    · exact fun p hp => by cases hp
    · rintro p ⟨⟩
      exact ⟨by decide, not_below_of_root rfl⟩
  have hcareful : Careful 2 0 subfolder (.delete 1 true true) := by
    refine ⟨fun c hc => ?_, .inl rfl⟩
    obtain ⟨rfl, -⟩ := parentOf_subfolder hc
    exact fun d hd => absurd (parentOf_subfolder hd).2 (by decide)
  refine ⟨hreach, hcareful, _, rfl, rfl, ?_⟩
  exact ((reaches_forest _ 2 0 _ subfolder hreach).2.2 _ _ hcareful rfl).1 1 true true rfl

/-- A folder is put into itself. -/
theorem folder_in_itself : ¬ ∀ (ilike : ℕ → ℕ → Bool) (depth user_id : ℕ)
    (chats : List (Chat ℕ ℕ ℕ Unit)) (s : State ℕ ℕ ℕ ℕ Unit),
    Reaches (step ilike depth user_id) (fun _ _ => True) (.start chats) s → Acyclic (parentOf s.folders) := by
  intro hforest
  have hreach : ∃ s : State ℕ ℕ ℕ ℕ Unit,
      Reaches (step (fun a b => decide (a = b)) 2 0) (fun _ _ => True) (.start []) s ∧
        parentOf s.folders 1 = some 1 :=
    ⟨_, .step (.updateParent 1 (some 1)) (.step (.create 1 0 none) .start trivial rfl) trivial rfl, rfl⟩
  obtain ⟨s, hs, hparent⟩ := hreach
  exact hforest _ 2 0 [] s hs 1 (.single hparent)

end CustomAi.OpenWebUI.Folders
