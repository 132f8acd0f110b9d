import CustomAi.OpenWebUI.AccessControl
import CustomAi.OpenWebUI.YdocManager

/-!
# Who sees and changes the live document of a note

The handlers `ydoc:document:join`, `state`, `update` and `leave` and the delayed save, with what
they send to sessions, append to update lists and write to notes.
-/

namespace CustomAi.OpenWebUI

open List YdocManager Function

structure Note (Uid Gid : Type) where
  user_id : Uid
  access_control : Option (AccessControl Uid Gid)

structure Directory (Uid Gid Sid : Type) where
  notes : List Char → Option (Note Uid Gid)
  groups : Uid → List Gid
  session : Sid → UserModel Uid

variable {Uid Gid Sid U D : Type}

/-- `"note:"` -/
def noteMark : List Char := ['n', 'o', 't', 'e', ':']

/-- `document_id.split(":")[1]` for a document id that starts with `note:` -/
def checkedNote (document_id : List Char) : Option (List Char) :=
  if noteMark.isPrefixOf document_id then (document_id.splitOn ':')[1]? else none

def liveDocument (note_id : List Char) : List Char := noteMark ++ note_id

/-- An event of a session; `stopped` says which pending saves `stop_item_tasks` reaches. -/
inductive NoteEvent (Sid U D : Type)
  | join (sid : Sid) (document_id : List Char)
  | state (sid : Sid) (document_id : List Char)
  | update (sid : Sid) (document_id : List Char) (update : U) (data : Option D)
      (stopped : ℕ → Bool)
  | leave (sid : Sid) (document_id : List Char)
  | save (index : ℕ)

/-- What a handler lets out or changes: updates sent or appended, a note written. -/
inductive Effect (Sid U D : Type)
  | sent (n : List Char) (sid : Sid) (updates : List U)
  | appended (n : List Char) (sid : Sid) (update : U)
  | updated (note_id : List Char) (sid : Sid) (data : D)
deriving DecidableEq

structure PendingSave (Sid D : Type) where
  document_id : List Char
  data : D
  sid : Sid

structure Rooms (Sid U D : Type) where
  redis : Redis U Sid
  members : List Char → List Sid
  saves : List (PendingSave Sid D)

namespace Rooms

variable [DecidableEq Uid] [DecidableEq Gid] [DecidableEq Sid]

/-- `f"doc_{document_id}"` -/
def room (document_id : List Char) : List Char := ['d', 'o', 'c', '_'] ++ document_id

lemma room_injective {d d' : List Char} (h : room d = room d') : d = d' :=
  append_cancel_left h

def enter_room (s : Rooms Sid U D) (sid : Sid) (name : List Char) : Rooms Sid U D :=
  { s with members := Function.update s.members name ((s.members name).insert sid) }

def leave_room (s : Rooms Sid U D) (sid : Sid) (name : List Char) : Rooms Sid U D :=
  { s with members := Function.update s.members name ((s.members name).erase sid) }

def mayRead (dir : Directory Uid Gid Sid) (sid : Sid) (note : Note Uid Gid) : Bool :=
  permitted dir.groups .read (dir.session sid) note.user_id note.access_control

def mayWrite (dir : Directory Uid Gid Sid) (sid : Sid) (note : Note Uid Gid) : Bool :=
  permitted dir.groups .write (dir.session sid) note.user_id note.access_control

/-- The note of a document id that starts with `note:` exists and may be read. -/
def noteCheck (dir : Directory Uid Gid Sid) (sid : Sid) (document_id : List Char) : Bool :=
  match checkedNote document_id with
  | none => true
  | some note_id =>
    match dir.notes note_id with
    | none => false
    | some note => mayRead dir sid note

def ydoc_document_join (root : List Char) (dir : Directory Uid Gid Sid) (s : Rooms Sid U D)
    (sid : Sid) (document_id : List Char) : Rooms Sid U D × List (Effect Sid U D) :=
  if noteCheck dir sid document_id then
    let s := { s with redis := add_user root s.redis document_id sid }
    let s := s.enter_room sid (room document_id)
    (s, [.sent (normalized document_id) sid (get_updates root s.redis document_id)])
  else (s, [])

def yjs_document_state (root : List Char) (s : Rooms Sid U D) (sid : Sid)
    (document_id : List Char) : Rooms Sid U D × List (Effect Sid U D) :=
  if sid ∈ s.members (room document_id) then
    if document_exists root s.redis document_id then
      (s, [.sent (normalized document_id) sid (get_updates root s.redis document_id)])
    else (s, [])
  else (s, [])

def stop_item_tasks (s : Rooms Sid U D) (document_id : List Char) (stopped : ℕ → Bool) :
    Rooms Sid U D :=
  { s with saves := (s.saves.zipIdx.filter fun p =>
      !(decide (p.1.document_id = document_id) && stopped p.2)).map Prod.fst }

def yjs_document_update (root : List Char) (s : Rooms Sid U D) (sid : Sid)
    (document_id : List Char) (update : U) (data : Option D) (stopped : ℕ → Bool) :
    Rooms Sid U D × List (Effect Sid U D) :=
  let s := s.stop_item_tasks document_id stopped
  let s := { s with redis := append_to_updates root s.redis document_id update }
  let others := (s.members (room document_id)).filter (· ≠ sid)
  let s := { s with saves := s.saves ++ (data.map fun d => ⟨document_id, d, sid⟩).toList }
  (s, .appended (normalized document_id) sid update ::
    others.map fun other => .sent (normalized document_id) other [update])

def yjs_document_leave (root : List Char) (s : Rooms Sid U D) (sid : Sid)
    (document_id : List Char) : Rooms Sid U D :=
  let s := { s with redis := remove_user root s.redis document_id sid }
  let s := s.leave_room sid (room document_id)
  if document_exists root s.redis document_id && (get_users root s.redis document_id).card = 0 then
    { s with redis := clear_users root (clear_updates root s.redis document_id) document_id }
  else s

def document_save_handler (dir : Directory Uid Gid Sid) (save : PendingSave Sid D) :
    List (Effect Sid U D) :=
  match checkedNote save.document_id with
  | none => []
  | some note_id => if noteCheck dir save.sid save.document_id then
      [.updated note_id save.sid save.data] else []

def handle (root : List Char) (dir : Directory Uid Gid Sid) (s : Rooms Sid U D) :
    NoteEvent Sid U D → Rooms Sid U D × List (Effect Sid U D)
  | .join sid document_id => ydoc_document_join root dir s sid document_id
  | .state sid document_id => yjs_document_state root s sid document_id
  | .update sid document_id update data stopped =>
    yjs_document_update root s sid document_id update data stopped
  | .leave sid document_id => (yjs_document_leave root s sid document_id, [])
  | .save index =>
    match s.saves[index]? with
    | none => (s, [])
    | some save => ({ s with saves := s.saves.eraseIdx index }, document_save_handler dir save)

def run (root : List Char) (dir : Directory Uid Gid Sid) (s : Rooms Sid U D) :
    List (NoteEvent Sid U D) → List (Effect Sid U D)
  | [] => []
  | e :: rest => (handle root dir s e).2 ++ run root dir (handle root dir s e).1 rest

def initial (redis : Redis U Sid) : Rooms Sid U D := ⟨redis, fun _ => [], []⟩

/-- The effect is within the access control of every note whose live document it touches. -/
def Authorized (dir : Directory Uid Gid Sid) : Effect Sid U D → Prop
  | .sent n sid _ => ∀ note_id note, dir.notes note_id = some note →
      n = normalized (liveDocument note_id) → mayRead dir sid note
  | .appended n sid _ => ∀ note_id note, dir.notes note_id = some note →
      n = normalized (liveDocument note_id) → mayWrite dir sid note
  | .updated note_id sid _ => ∀ note, dir.notes note_id = some note → mayWrite dir sid note

/-- A session joins and writes only notes it may read or write. -/
def Proper (dir : Directory Uid Gid Sid) : NoteEvent Sid U D → Prop
  | .join sid document_id => ∀ note_id note, dir.notes note_id = some note →
      normalized document_id = normalized (liveDocument note_id) →
      checkedNote document_id = some note_id ∨ mayRead dir sid note
  | .update sid document_id _ data _ =>
      (∀ note_id note, dir.notes note_id = some note →
        normalized document_id = normalized (liveDocument note_id) → mayWrite dir sid note) ∧
      (data.isSome → ∀ note_id note, dir.notes note_id = some note →
        checkedNote document_id = some note_id → mayRead dir sid note → mayWrite dir sid note)
  | .state _ _ | .leave _ _ | .save _ => True

/-- Members of a room may read its notes, and pending saves come from somebody who may write. -/
structure Guarded (dir : Directory Uid Gid Sid) (s : Rooms Sid U D) : Prop where
  members_read : ∀ document_id, ∀ sid ∈ s.members (room document_id), ∀ note_id note,
    dir.notes note_id = some note → normalized document_id = normalized (liveDocument note_id) →
    mayRead dir sid note
  saves_write : ∀ save ∈ s.saves, ∀ note_id note, dir.notes note_id = some note →
    checkedNote save.document_id = some note_id → mayRead dir save.sid note → mayWrite dir save.sid note

section Proofs

variable {root : List Char} {dir : Directory Uid Gid Sid} {s : Rooms Sid U D} {sid : Sid}
  {document_id : List Char}

omit [DecidableEq Sid] in
lemma mayRead_of_noteCheck {note_id : List Char} {note : Note Uid Gid}
    (h : noteCheck dir sid document_id) (hid : checkedNote document_id = some note_id)
    (hnote : dir.notes note_id = some note) : mayRead dir sid note := by
  simpa only [noteCheck, hid, hnote] using h

omit [DecidableEq Sid] in
lemma Guarded.initial (redis : Redis U Sid) : Guarded dir (initial redis : Rooms Sid U D) where
  members_read := fun _ _ h => absurd h not_mem_nil
  saves_write := fun _ h => absurd h not_mem_nil

lemma Guarded.join (hg : Guarded dir s) (hp : Proper dir (.join sid document_id : NoteEvent Sid U D)) :
    Guarded dir (ydoc_document_join root dir s sid document_id).1 ∧
      ∀ eff ∈ (ydoc_document_join root dir s sid document_id).2, Authorized dir eff := by
  unfold ydoc_document_join
  split
  · rename_i hcheck
    have hread : ∀ note_id note, dir.notes note_id = some note →
        normalized document_id = normalized (liveDocument note_id) → mayRead dir sid note := by
      intro note_id note hnote hn
      rcases hp note_id note hnote hn with hid | hread
      · exact mayRead_of_noteCheck hcheck hid hnote
      · exact hread
    refine ⟨⟨?_, hg.saves_write⟩, ?_⟩
    · intro d sid' hmem
      simp only [enter_room] at hmem
      by_cases hd : room d = room document_id
      · rw [hd, update_self, mem_insert_iff] at hmem
        rw [room_injective hd]
        rcases hmem with rfl | hold
        · exact hread
        · exact hg.members_read document_id sid' hold
      · rw [update_of_ne hd] at hmem
        exact hg.members_read d sid' hmem
    · intro eff heff
      rw [mem_singleton] at heff
      subst heff
      exact hread
  · exact ⟨hg, fun _ h => absurd h not_mem_nil⟩

lemma Guarded.state (hg : Guarded dir s) : Guarded dir (yjs_document_state root s sid document_id).1 ∧
      ∀ eff ∈ (yjs_document_state root s sid document_id).2, Authorized dir eff := by
  unfold yjs_document_state
  split
  · rename_i hmem
    split
    · refine ⟨hg, fun eff heff => ?_⟩
      rw [mem_singleton] at heff
      subst heff
      exact hg.members_read document_id sid hmem
    · exact ⟨hg, fun _ h => absurd h not_mem_nil⟩
  · exact ⟨hg, fun _ h => absurd h not_mem_nil⟩

omit [DecidableEq Sid] in
lemma mem_of_mem_stop_item_tasks {stopped : ℕ → Bool} {save : PendingSave Sid D}
    (h : save ∈ (s.stop_item_tasks document_id stopped).saves) : save ∈ s.saves := by
  obtain ⟨p, hp, rfl⟩ := mem_map.1 h
  exact (mem_zipIdx (mem_filter.1 hp).1).2.2 ▸ getElem_mem _

lemma Guarded.update {update : U} {data : Option D} {stopped : ℕ → Bool} (hg : Guarded dir s)
    (hp : Proper dir (.update sid document_id update data stopped)) :
    Guarded dir (yjs_document_update root s sid document_id update data stopped).1 ∧
      ∀ eff ∈ (yjs_document_update root s sid document_id update data stopped).2, Authorized dir eff := by
  refine ⟨⟨hg.members_read, ?_⟩, ?_⟩
  · intro save hsave
    rcases mem_append.1 hsave with hold | hnew
    · exact hg.saves_write save (mem_of_mem_stop_item_tasks hold)
    · cases data with
      | none => cases hnew
      | some d =>
        have hsave' : save = ⟨document_id, d, sid⟩ := by simpa using hnew
        subst hsave'
        exact hp.2 rfl
  · intro eff heff
    rcases mem_cons.1 heff with rfl | hother
    · exact hp.1
    · obtain ⟨other, hmem, rfl⟩ := mem_map.1 hother
      exact hg.members_read document_id other (mem_filter.1 hmem).1

lemma Guarded.leave (hg : Guarded dir s) : Guarded dir (yjs_document_leave root s sid document_id) := by
  have hleft : Guarded dir
      ({ s with redis := remove_user root s.redis document_id sid }.leave_room sid
        (room document_id) : Rooms Sid U D) := by
    refine ⟨?_, hg.saves_write⟩
    intro d sid' hmem
    simp only [leave_room] at hmem
    by_cases hd : room d = room document_id
    · rw [hd, update_self] at hmem
      rw [room_injective hd]
      exact hg.members_read document_id sid' (mem_of_mem_erase hmem)
    · rw [update_of_ne hd] at hmem
      exact hg.members_read d sid' hmem
  unfold yjs_document_leave
  dsimp only
  split
  · exact ⟨hleft.members_read, hleft.saves_write⟩
  · exact hleft

omit [DecidableEq Sid] in
lemma Guarded.save (hg : Guarded dir s) {save : PendingSave Sid D} (hmem : save ∈ s.saves) :
    ∀ eff ∈ (document_save_handler dir save : List (Effect Sid U D)), Authorized dir eff := by
  unfold document_save_handler
  cases hid : checkedNote save.document_id with
  | none => exact fun _ h => absurd h not_mem_nil
  | some note_id =>
    dsimp only
    split
    · rename_i hcheck
      intro eff heff
      rw [mem_singleton] at heff
      subst heff
      intro note hnote
      exact hg.saves_write save hmem note_id note hnote hid (mayRead_of_noteCheck hcheck hid hnote)
    · exact fun _ h => absurd h not_mem_nil

lemma Guarded.handle (hg : Guarded dir s) {e : NoteEvent Sid U D} (hp : Proper dir e) :
    Guarded dir (handle root dir s e).1 ∧ ∀ eff ∈ (handle root dir s e).2, Authorized dir eff := by
  cases e with
  | join sid document_id => exact hg.join hp
  | state sid document_id => exact hg.state
  | update sid document_id update data stopped => exact hg.update hp
  | leave sid document_id => exact ⟨hg.leave, fun _ h => absurd h not_mem_nil⟩
  | save index =>
    simp only [Rooms.handle]
    cases hsave : s.saves[index]? with
    | none => exact ⟨hg, fun _ h => absurd h not_mem_nil⟩
    | some save =>
      refine ⟨⟨hg.members_read, fun save' hmem => ?_⟩, hg.save (mem_of_getElem? hsave)⟩
      exact hg.saves_write save' (mem_of_mem_eraseIdx hmem)

/-- After proper events updates go only to sessions that may read, and come from ones that may
write. -/
theorem effects_authorized (redis : Redis U Sid) (events : List (NoteEvent Sid U D))
    (hp : ∀ e ∈ events, Proper dir e) : ∀ eff ∈ run root dir (Rooms.initial redis) events, Authorized dir eff := by
  have hrun : ∀ s : Rooms Sid U D, Guarded dir s → ∀ eff ∈ run root dir s events, Authorized dir eff := by
    induction events with
    | nil => exact fun _ _ _ h => absurd h not_mem_nil
    | cons e rest ih =>
      intro s hg eff heff
      have hstep : Guarded dir (handle root dir s e).1 ∧
          ∀ eff ∈ (handle root dir s e).2, Authorized dir eff := hg.handle (hp e mem_cons_self)
      obtain ⟨hg', hauth⟩ := hstep
      rcases mem_append.1 heff with hnow | hlater
      · exact hauth eff hnow
      · exact ih (fun e' he' => hp e' (mem_cons_of_mem e he')) _ hg' eff hlater
  exact hrun _ (Guarded.initial redis)

end Proofs

/-- A private note `n` of user 1; every session belongs to the user of the same number. -/
def privateNote : Directory ℕ ℕ ℕ where
  notes := fun note_id => if note_id = ['n'] then some ⟨1, some fun _ => ⟨[], []⟩⟩ else none
  groups := fun _ => []
  session := fun sid => ⟨sid, false⟩

/-- The owner edits and saves; user 2 is turned away. -/
theorem effects_authorized_private : run ['r'] privateNote (Rooms.initial Redis.empty)
        [.join 1 ['n', 'o', 't', 'e', ':', 'n'], .update 1 ['n', 'o', 't', 'e', ':', 'n'] 7 (some 3) fun _ => true,
          .join 2 ['n', 'o', 't', 'e', ':', 'n'], .save 0] =
      ([.sent ['n', 'o', 't', 'e', '_', 'n'] 1 [], .appended ['n', 'o', 't', 'e', '_', 'n'] 1 7,
        .updated ['n'] 1 3] : List (Effect ℕ ℕ ℕ)) ∧
    ∀ eff ∈ run ['r'] privateNote (Rooms.initial Redis.empty : Rooms ℕ ℕ ℕ) [.join 1 ['n', 'o', 't', 'e', ':', 'n'],
          .update 1 ['n', 'o', 't', 'e', ':', 'n'] 7 (some 3) fun _ => true,
          .join 2 ['n', 'o', 't', 'e', ':', 'n'], .save 0], Authorized privateNote eff := by
  refine ⟨rfl, effects_authorized _ _ fun e he => ?_⟩
  have hnote : ∀ note_id note, privateNote.notes note_id = some note → note_id = ['n'] ∧ note.user_id = 1 := by
    intro note_id note h
    simp only [privateNote] at h
    split at h
    · cases h
      exact ⟨by assumption, rfl⟩
    · cases h
  have howner : ∀ note_id note, privateNote.notes note_id = some note → mayWrite privateNote 1 note := by
    intro note_id note h
    simp [mayWrite, permitted, privateNote, (hnote note_id note h).2]
  simp only [mem_cons, not_mem_nil, or_false] at he
  rcases he with rfl | rfl | rfl | rfl
  · intro note_id note h _
    exact .inl (by rw [(hnote note_id note h).1]; rfl)
  · exact ⟨fun note_id note h _ => howner note_id note h, fun _ note_id note h _ _ => howner note_id note h⟩
  · intro note_id note h _
    exact .inl (by rw [(hnote note_id note h).1]; rfl)
  · trivial

/-- Under the id `note_n` user 2 gets the updates of the private note. -/
theorem private_note_leaks : .sent (normalized (liveDocument ['n'])) 2 [7] ∈
        run ['r'] privateNote (Rooms.initial Redis.empty : Rooms ℕ ℕ ℕ)
          [.join 1 (liveDocument ['n']), .update 1 (liveDocument ['n']) 7 none fun _ => true,
            .join 2 ['n', 'o', 't', 'e', '_', 'n']] ∧ ¬ Authorized privateNote
        (.sent (normalized (liveDocument ['n'])) 2 [7] : Effect ℕ ℕ ℕ) := by
  refine ⟨by decide, fun h => ?_⟩
  have hread := h ['n'] ⟨1, some fun _ => ⟨[], []⟩⟩ rfl rfl
  revert hread
  decide

end Rooms

end CustomAi.OpenWebUI
