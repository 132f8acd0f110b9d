import CustomAi.OpenWebUI.SharedChats

/-!
# Copies follow their chats

The link between a chat and its shared copy over runs of requests, and the requests that break it.
-/

namespace CustomAi.OpenWebUI.SharedChats

open List Option Dict

variable {Cid Uid Fid B : Type} [DecidableEq Cid] [DecidableEq Uid] [DecidableEq Fid]
  {clone : Cid → B → Option B} {chats chats' : Table Cid Uid Fid B} {id new copy : Cid}
  {user_id : Uid} {user : UserModel Uid} {chat : Chat Cid Uid Fid B}

structure Linked (chats : Table Cid Uid Fid B) : Prop where
  copies : ∀ id chat, chats.get? id = some chat → ∀ copy, IsCopy chats id copy ↔ chat.share_id = some copy
  existing : ∀ id copy, IsCopy chats id copy → ∃ chat, chats.get? id = some chat
  /-- No copy is shared itself. -/
  plain : ∀ id copy chat, chats.get? copy = some chat → chat.user_id = .shared id → chat.share_id = none

/-- A request that keeps copies with their chats: it deletes no copy as a chat and no chat without
its copy. -/
def Careful (chats : Table Cid Uid Fid B) (request : UserModel Uid × Op Cid Fid B) : Prop :=
  match request.2 with
  | .delete _ id => ∀ chat, chats.get? id = some chat →
      if request.1.isAdmin then ∀ chat_id, chat.user_id ≠ .shared chat_id
      else chat.user_id = .user request.1.id ∨ chat.share_id = none
  | .deleteFolder folder_ids => ∀ id chat, chats.get? id = some chat → chat.user_id = .user request.1.id →
      (∃ folder_id ∈ folder_ids, chat.folder_id = some folder_id) → chat.share_id = none
  | .create _ | .importChats _ | .clone _ _ | .cloneShared _ _ | .share _ _ _ | .unshare _
  | .deleteAll _ => True

section

omit [DecidableEq Uid] [DecidableEq Fid]

lemma isCopy_set : IsCopy (chats.set id chat) new copy ↔
    (copy = id ∧ chat.user_id = .shared new) ∨ (copy ≠ id ∧ IsCopy chats new copy) := by
  unfold IsCopy
  by_cases hcopy : copy = id
  · simp [hcopy]
  · simp [hcopy, get?_set]

lemma Linked.empty : Linked (empty : Table Cid Uid Fid B) where
  copies id chat h := by cases h
  existing id copy h := by
    obtain ⟨chat, hget, -⟩ := h
    cases hget
  plain id copy chat h := by cases h

lemma Linked.not_shared (h : Linked chats) (hchat : chats.get? id = some chat)
    (hcopy : IsCopy chats id copy) (chat_id : Cid) : chat.user_id ≠ .shared chat_id := by
  intro howner
  have hshare := (h.copies id chat hchat copy).mp hcopy
  rw [h.plain chat_id id chat hchat howner] at hshare
  cases hshare

lemma Linked.insert_user (h : Linked chats) (hnew : chats.get? new = none)
    (howner : chat.user_id = .user user_id) (hshare : chat.share_id = none) : Linked (chats.set new chat) where
  copies id row hrow copy := by
    rw [isCopy_set, howner]
    simp only [reduceCtorEq, and_false, false_or]
    by_cases hid : id = new
    · -- nothing can be a copy of a chat that did not exist
      subst hid
      rw [get?_set_self, some.injEq] at hrow
      subst hrow
      rw [hshare]
      refine ⟨fun hcopy => ?_, fun hcopy => by cases hcopy⟩
      obtain ⟨row, hrow⟩ := h.existing _ _ hcopy.2
      rw [hnew] at hrow
      cases hrow
    · rw [get?_set_of_ne _ _ hid] at hrow
      rw [← h.copies id row hrow]
      refine ⟨fun hcopy => hcopy.2, fun hcopy => ⟨?_, hcopy⟩⟩
      rintro rfl
      obtain ⟨row', hrow', -⟩ := hcopy
      rw [hnew] at hrow'
      cases hrow'
  existing id copy hcopy := by
    rw [isCopy_set, howner] at hcopy
    simp only [reduceCtorEq, and_false, false_or] at hcopy
    obtain ⟨row, hrow⟩ := h.existing id copy hcopy.2
    refine ⟨row, ?_⟩
    rw [get?_set_of_ne _ _ ?_, hrow]
    rintro rfl
    rw [hnew] at hrow
    cases hrow
  plain id copy row hrow hrowner := by
    by_cases hcopy : copy = new
    · subst hcopy
      rw [get?_set_self, some.injEq] at hrow
      rw [← hrow, hshare]
    · rw [get?_set_of_ne _ _ hcopy] at hrow
      exact h.plain id copy row hrow hrowner

lemma get?_of_insert (h : insert chats id chat = some chats') :
    chats.get? id = none ∧ chats' = chats.set id chat := by
  unfold insert at h
  split at h
  · cases h
  · rename_i hnew
    rw [some.injEq] at h
    exact ⟨by simpa [Dict.contains] using hnew, h.symm⟩

end

variable {mayShare : Bool} {forms : List (Form Cid Fid B)}

section

omit [DecidableEq Uid] [DecidableEq Fid]

section

variable (h : Linked chats)
include h

lemma Linked.foldlM_import_chat
    (hs : forms.foldlM (import_chat user_id) chats = some chats') : Linked chats' := by
  induction forms generalizing chats with
  | nil =>
    cases hs
    exact h
  | cons form rest ih =>
    rw [foldlM_cons, bind_eq_bind, bind_eq_some_iff] at hs
    obtain ⟨chats1, hform, hrest⟩ := hs
    obtain ⟨hnew, rfl⟩ := get?_of_insert hform
    exact ih (h.insert_user hnew rfl rfl) hrest

lemma Linked.import_chats (hs : import_chats user_id forms chats = .ok chats') : Linked chats' := by
  unfold SharedChats.import_chats at hs
  split at hs
  · cases hs
  · rename_i chats1 hchats
    cases hs
    exact h.foldlM_import_chat hchats

lemma Linked.clone_chat  (hs : clone_chat clone user_id id new chat chats = .ok chats') : Linked chats' := by
  unfold SharedChats.clone_chat at hs
  split at hs
  · cases hs
  · exact h.import_chats hs

lemma Linked.set_same {chat' : Chat Cid Uid Fid B}
    (hget : chats.get? id = some chat) (howner : chat'.user_id = chat.user_id)
    (hshare : chat'.share_id = chat.share_id) : Linked (chats.set id chat') := by
  have hcopy : ∀ i k, IsCopy (chats.set id chat') i k ↔ IsCopy chats i k := by
    intro i k
    rw [isCopy_set]
    by_cases hk : k = id
    · subst hk
      simp [IsCopy, hget, howner]
    · simp [hk]
  have hrow : ∀ {k row}, (chats.set id chat').get? k = some row →
      ∃ row', chats.get? k = some row' ∧ row.user_id = row'.user_id ∧ row.share_id = row'.share_id := by
    intro k row hk
    by_cases hkid : k = id
    · subst hkid
      rw [get?_set_self, some.injEq] at hk
      exact ⟨chat, hget, hk ▸ howner, hk ▸ hshare⟩
    · rw [get?_set_of_ne _ _ hkid] at hk
      exact ⟨row, hk, rfl, rfl⟩
  constructor
  case copies =>
    intro i row hi k
    obtain ⟨row', hrow', -, hshare'⟩ := hrow hi
    rw [hcopy, hshare']
    exact h.copies i row' hrow' k
  case existing =>
    intro i k hik
    rw [hcopy] at hik
    obtain ⟨row, hi⟩ := h.existing i k hik
    by_cases hid : i = id
    · exact ⟨chat', by rw [hid, get?_set_self]⟩
    · exact ⟨row, by rw [get?_set_of_ne _ _ hid, hi]⟩
  case plain =>
    intro i k row hk hrowner
    obtain ⟨row', hrow', howner', hshare'⟩ := hrow hk
    rw [hshare']
    exact h.plain i k row' hrow' (howner' ▸ hrowner)

lemma Linked.insert_copy {row : Chat Cid Uid Fid B}
    (hchat : chats.get? id = some chat) (hshare : chat.share_id = none)
    (howner : ∀ chat_id, chat.user_id ≠ .shared chat_id) (hnew : chats.get? new = none)
    (hrowner : row.user_id = .shared id) (hrshare : row.share_id = none) :
    Linked ((chats.set new row).set id { chat with share_id := some new }) := by
  have hne : id ≠ new := by
    rintro rfl
    rw [hnew] at hchat
    cases hchat
  have hnone : ∀ k, ¬ IsCopy chats new k := by
    intro k hk
    obtain ⟨row', hrow'⟩ := h.existing new k hk
    rw [hnew] at hrow'
    cases hrow'
  have hcopy : ∀ i k, IsCopy ((chats.set new row).set id { chat with share_id := some new }) i k ↔
      (i = id ∧ k = new) ∨ IsCopy chats i k := by
    intro i k
    rw [isCopy_set, isCopy_set, hrowner]
    simp only [howner i, and_false, false_or, Owner.shared.injEq]
    have hk : IsCopy chats i k → k ≠ id ∧ k ≠ new := by
      rintro ⟨row', hrow', hrowner'⟩
      refine ⟨?_, ?_⟩
      · rintro rfl
        rw [hchat, some.injEq] at hrow'
        exact howner i (hrow' ▸ hrowner')
      · rintro rfl
        rw [hnew] at hrow'
        cases hrow'
    constructor
    · rintro ⟨-, ⟨hk, hi⟩ | ⟨-, hik⟩⟩
      · exact .inl ⟨hi.symm, hk⟩
      · exact .inr hik
    · rintro (⟨rfl, rfl⟩ | hik)
      · exact ⟨hne.symm, .inl ⟨rfl, rfl⟩⟩
      · exact ⟨(hk hik).1, .inr ⟨(hk hik).2, hik⟩⟩
  constructor
  case copies =>
    intro i row' hi k
    rw [hcopy]
    by_cases hid : i = id
    · subst hid
      rw [get?_set_self, some.injEq] at hi
      have hold : ¬ IsCopy chats i k := by
        rw [h.copies i chat hchat, hshare]
        simp
      rw [← hi]
      simp [hold, eq_comm]
    · rw [get?_set_of_ne _ _ hid] at hi
      by_cases hin : i = new
      · subst hin
        rw [get?_set_self, some.injEq] at hi
        rw [← hi, hrshare]
        simp [hid, hnone]
      · rw [get?_set_of_ne _ _ hin] at hi
        rw [← h.copies i row' hi]
        simp [hid]
  case existing =>
    intro i k hik
    rcases (hcopy i k).mp hik with ⟨rfl, -⟩ | hik
    · exact ⟨_, get?_set_self ..⟩
    · obtain ⟨row', hi⟩ := h.existing i k hik
      by_cases hid : i = id
      · exact ⟨_, by rw [hid, get?_set_self]⟩
      · have hin : i ≠ new := by
          rintro rfl
          rw [hnew] at hi
          cases hi
        exact ⟨row', by rw [get?_set_of_ne _ _ hid, get?_set_of_ne _ _ hin, hi]⟩
  case plain =>
    intro i k row' hk hrow'
    by_cases hkid : k = id
    · subst hkid
      rw [get?_set_self, some.injEq] at hk
      rw [← hk] at hrow'
      exact absurd hrow' (howner i)
    · rw [get?_set_of_ne _ _ hkid] at hk
      by_cases hkn : k = new
      · subst hkn
        rw [get?_set_self, some.injEq] at hk
        rw [← hk, hrshare]
      · rw [get?_set_of_ne _ _ hkn] at hk
        exact h.plain i k row' hk hrow'

end

end

omit [DecidableEq Fid] in
lemma get_chat_eq_some (h : get_chat_by_id_and_user_id chats id user_id = some chat) :
    chats.get? id = some chat ∧ chat.user_id = .user user_id := by
  simpa [get_chat_by_id_and_user_id, filter_eq_some_iff] using h

omit [DecidableEq Fid] in
lemma findCopy_spec (chats : Table Cid Uid Fid B) (id : Cid) : match findCopy chats id with
    | some (copy, row) => chats.get? copy = some row ∧ row.user_id = .shared id
    | none => ∀ copy, ¬ IsCopy chats id copy := by
  cases hfind : findCopy chats id with
  | none =>
    rintro copy ⟨row, hrow, howner⟩
    have hnot := List.find?_eq_none.mp hfind (copy, row) ((chats.mem_entries_iff copy row).mpr hrow)
    simp [howner] at hnot
  | some e =>
    obtain ⟨copy, row⟩ := e
    refine ⟨(chats.mem_entries_iff copy row).mp (List.mem_of_find?_eq_some hfind), ?_⟩
    simpa using List.find?_some hfind

omit [DecidableEq Uid] [DecidableEq Fid] in
lemma Linked.insert_shared_chat (h : Linked chats) (hchat : chats.get? id = some chat)
    (howner : chat.user_id = .user user_id) (hshare : chat.share_id = none)
    (hs : insert_shared_chat_by_chat_id id new chats = some chats') : Linked chats' := by
  simp only [insert_shared_chat_by_chat_id, hchat, hshare, isSome_none,
    Bool.false_eq_true, if_false, map_eq_some_iff] at hs
  obtain ⟨chats1, hinsert, rfl⟩ := hs
  obtain ⟨hnew, rfl⟩ := get?_of_insert hinsert
  exact h.insert_copy hchat hshare (by simp [howner]) hnew rfl rfl

section

omit [DecidableEq Fid]

lemma Linked.share_chat_by_id (h : Linked chats)
    (hs : share_chat_by_id user mayShare id new chats = .ok chats') : Linked chats' := by
  unfold SharedChats.share_chat_by_id at hs
  split at hs
  · cases hs
  · split at hs
    · cases hs
    · rename_i chat hget
      obtain ⟨hchat, howner⟩ := get_chat_eq_some hget
      dsimp only at hs
      cases hshare : chat.share_id with
      | none =>
        rw [hshare] at hs
        simp only [isSome_none, Bool.false_eq_true, if_false] at hs
        split at hs
        · cases hs
        · rename_i chats1 hshared
          cases hs
          exact h.insert_shared_chat hchat howner hshare hshared
      | some s =>
        rw [hshare] at hs
        simp only [isSome_some, if_true] at hs
        split at hs
        · cases hs
        · rename_i chats1 hshared
          cases hs
          have hfind := findCopy_spec chats id
          unfold update_shared_chat_by_chat_id at hshared
          split at hshared
          · rename_i hnone
            rw [hnone] at hfind
            exact absurd ((h.copies id chat hchat s).mpr hshare) (hfind s)
          · rename_i copy row hsome
            rw [hsome] at hfind
            rw [hchat, map_some, some.injEq] at hshared
            rw [← hshared]
            exact h.set_same hfind.1 rfl rfl

lemma Linked.share_ok (h : Linked chats) (hmay : user.isAdmin = true ∨ mayShare = true)
    (hget : get_chat_by_id_and_user_id chats id user.id = some chat) (hnew : chats.get? new = none) :
    ∃ chats', SharedChats.share_chat_by_id user mayShare id new chats = .ok chats' := by
  obtain ⟨hchat, -⟩ := get_chat_eq_some hget
  have hallowed : (!user.isAdmin && !mayShare) = false := by
    rcases hmay with hmay | hmay <;> simp [hmay]
  simp only [SharedChats.share_chat_by_id, hallowed, Bool.false_eq_true, if_false, hget]
  cases hshare : chat.share_id with
  | none =>
    simp [insert_shared_chat_by_chat_id, hchat, hshare, insert, Dict.contains, hnew]
  | some s =>
    have hfind := findCopy_spec chats id
    cases hcopy : findCopy chats id with
    | none =>
      rw [hcopy] at hfind
      exact absurd ((h.copies id chat hchat s).mpr hshare) (hfind s)
    | some e => simp [update_shared_chat_by_chat_id, hcopy, hchat]

lemma Linked.unshare (h : Linked chats) (hchat : chats.get? id = some chat)
    (howner : ∀ chat_id, chat.user_id ≠ .shared chat_id)
    (hget : ∀ k, chats'.get? k = if k = id then some { chat with share_id := none }
      else (chats.get? k).filter fun row => row.user_id ≠ .shared id) : Linked chats' := by
  have hrow : ∀ k row, k ≠ id →
      (chats'.get? k = some row ↔ chats.get? k = some row ∧ row.user_id ≠ .shared id) := by
    intro k row hk
    rw [hget, if_neg hk, filter_eq_some_iff, decide_eq_true_iff]
  have hself : chats'.get? id = some { chat with share_id := none } := by
    rw [hget, if_pos rfl]
  have hcopy : ∀ i k, IsCopy chats' i k ↔ i ≠ id ∧ IsCopy chats i k := by
    intro i k
    by_cases hk : k = id
    · subst hk
      have hnot : ¬ IsCopy chats i k := by
        rintro ⟨row, hrow, hrowner⟩
        rw [hchat, some.injEq] at hrow
        exact howner i (hrow ▸ hrowner)
      have hnot' : ¬ IsCopy chats' i k := by
        rintro ⟨row, hrow, hrowner⟩
        rw [hself, some.injEq] at hrow
        rw [← hrow] at hrowner
        exact howner i hrowner
      simp [hnot, hnot']
    · constructor
      · rintro ⟨row, hk', hrowner⟩
        obtain ⟨hk', hne⟩ := (hrow k row hk).mp hk'
        exact ⟨fun e => hne (e ▸ hrowner), row, hk', hrowner⟩
      · rintro ⟨hi, row, hk', hrowner⟩
        refine ⟨row, (hrow k row hk).mpr ⟨hk', ?_⟩, hrowner⟩
        rw [hrowner]
        simpa using hi
  constructor
  case copies =>
    intro i row hi k
    rw [hcopy]
    by_cases hid : i = id
    · subst hid
      rw [hself, some.injEq] at hi
      rw [← hi]
      simp
    · rw [← h.copies i row ((hrow i row hid).mp hi).1]
      simp [hid]
  case existing =>
    intro i k hik
    obtain ⟨hi, hik⟩ := (hcopy i k).mp hik
    obtain ⟨row, hget'⟩ := h.existing i k hik
    exact ⟨row, (hrow i row hi).mpr ⟨hget', h.not_shared hget' hik id⟩⟩
  case plain =>
    intro i k row hk hrowner
    by_cases hkid : k = id
    · subst hkid
      rw [hself, some.injEq] at hk
      rw [← hk]
    · exact h.plain i k row ((hrow k row hkid).mp hk).1 hrowner

lemma Linked.delete_shared_chat (h : Linked chats)
    (hs : delete_shared_chat user_id id chats = .ok chats') : Linked chats' := by
  unfold SharedChats.delete_shared_chat at hs
  split at hs
  · cases hs
  · rename_i chat hget
    obtain ⟨hchat, howner⟩ := get_chat_eq_some hget
    split at hs
    · cases hs
      exact h
    · cases hs
      have hkept : (delete_shared_chat_by_chat_id id chats).get? id = some chat := by
        rw [delete_shared_chat_by_chat_id, get?_filter, hchat]
        simp [Option.filter, howner]
      refine h.unshare hchat (by simp [howner]) fun k => ?_
      rw [update_chat_share_id_by_id, hkept]
      dsimp only
      rw [get?_set, delete_shared_chat_by_chat_id, get?_filter]

end

omit [DecidableEq Uid] [DecidableEq Fid] in
lemma Linked.filter {p : Cid → Chat Cid Uid Fid B → Bool} (h : Linked chats)
    (hget : ∀ k, chats'.get? k = (chats.get? k).filter (p k))
    (hp : ∀ id chat copy row, chats.get? id = some chat → chats.get? copy = some row →
      row.user_id = .shared id → p copy row = p id chat) : Linked chats' := by
  have hrow : ∀ k row, chats'.get? k = some row ↔ chats.get? k = some row ∧ p k row = true := by
    intro k row
    rw [hget, filter_eq_some_iff]
  constructor
  case copies =>
    intro i chat hi k
    obtain ⟨hi, hpi⟩ := (hrow i chat).mp hi
    rw [← h.copies i chat hi]
    constructor
    · rintro ⟨row, hk, howner⟩
      exact ⟨row, ((hrow k row).mp hk).1, howner⟩
    · rintro ⟨row, hk, howner⟩
      exact ⟨row, (hrow k row).mpr ⟨hk, (hp i chat k row hi hk howner).trans hpi⟩, howner⟩
  case existing =>
    rintro i k ⟨row, hk, howner⟩
    obtain ⟨hk, hpk⟩ := (hrow k row).mp hk
    obtain ⟨chat, hi⟩ := h.existing i k ⟨row, hk, howner⟩
    exact ⟨chat, (hrow i chat).mpr ⟨hi, (hp i chat k row hi hk howner).symm.trans hpk⟩⟩
  case plain =>
    intro i k row hk howner
    exact h.plain i k row ((hrow k row).mp hk).1 howner

omit [DecidableEq Fid] in
lemma Linked.erase_with_copies (h : Linked chats)
    (howner : ∀ chat, chats.get? id = some chat → ∀ chat_id, chat.user_id ≠ .shared chat_id)
    (hget : ∀ k, chats'.get? k =
      (chats.get? k).filter fun row => k ≠ id ∧ row.user_id ≠ .shared id) : Linked chats' := by
  refine h.filter hget fun i chat k row hi hk hrow => ?_
  have hkid : k ≠ id := by
    rintro rfl
    exact howner row hk i hrow
  have hchat : chat.user_id ≠ .shared id := h.not_shared hi ⟨row, hk, hrow⟩ id
  by_cases hid : i = id
  · simp [hrow, hid]
  · simp [hrow, hid, hkid, hchat]

omit [DecidableEq Fid] in
lemma Linked.delete_chat_by_id {mayDelete : Bool} (h : Linked chats) (hcareful : ∀ chat, chats.get? id = some chat →
      if user.isAdmin then ∀ chat_id, chat.user_id ≠ .shared chat_id
      else chat.user_id = .user user.id ∨ chat.share_id = none)
    (hs : delete_chat_by_id user mayDelete id chats = .ok chats') : Linked chats' := by
  unfold SharedChats.delete_chat_by_id at hs
  split at hs
  · rename_i hadmin
    split at hs
    · cases hs
      have howner : ∀ chat, chats.get? id = some chat → ∀ chat_id, chat.user_id ≠ .shared chat_id := by
        intro chat hchat
        simpa [hadmin] using hcareful chat hchat
      refine h.erase_with_copies howner fun k => ?_
      rw [delete_shared_chat_by_chat_id, get?_filter, get?_erase]
      by_cases hk : k = id
      · cases chats.get? k <;> simp [hk, Option.filter]
      · simp [hk]
    · cases hs
  · rename_i hadmin
    split at hs
    · cases hs
    · split at hs
      · rename_i hid
        cases hs
        obtain ⟨chat, hchat⟩ := isSome_iff_exists.mp hid
        have hown := hcareful chat hchat
        rw [if_neg hadmin] at hown
        by_cases howner : chat.user_id = .user user.id
        · have hplain : ∀ row, chats.get? id = some row → ∀ i, row.user_id ≠ .shared i := by
            intro row hrow i
            rw [hchat, some.injEq] at hrow
            simp [← hrow, howner]
          refine h.erase_with_copies hplain fun k => ?_
          rw [delete_shared_chat_by_chat_id, get?_filter, get?_filter]
          by_cases hk : k = id
          · subst hk
            simp [hchat, Option.filter, howner]
          · simp [hk]
        · -- the chat stays, and it has no copy that could be deleted
          have hnone : ∀ k, ¬ IsCopy chats id k := by
            intro k
            rw [h.copies id chat hchat, hown.resolve_left howner]
            simp
          refine h.filter (p := fun _ row => row.user_id ≠ .shared id) (fun k => ?_) ?_
          · rw [delete_shared_chat_by_chat_id, get?_filter, get?_filter]
            by_cases hk : k = id
            · subst hk
              simp [hchat, Option.filter, howner]
            · simp [hk]
          · intro i row k row' hi hk hrow'
            have hid : i ≠ id := by
              rintro rfl
              exact hnone k ⟨row', hk, hrow'⟩
            have hrow : row.user_id ≠ .shared id := fun e => hnone i ⟨row, hi, e⟩
            simp [hrow', hid, hrow]
      · cases hs

omit [DecidableEq Fid] in
lemma Linked.delete_chats_by_user_id (h : Linked chats) : Linked (delete_chats_by_user_id user_id chats) := by
  refine h.filter (p := fun _ row => row.user_id.casesOn (motive := fun _ => Bool)
    (fun u => decide (u ≠ user_id))
    fun i => (get_chat_by_id_and_user_id chats i user_id).isNone) (fun k => ?_) ?_
  · rw [SharedChats.delete_chats_by_user_id, delete_shared_chats_by_user_id, get?_filter, get?_filter]
    cases chats.get? k with
    | none => rfl
    | some row =>
      cases howner : row.user_id with
      | user u => simp [Option.filter, howner]
      | shared i =>
        by_cases hget : get_chat_by_id_and_user_id chats i user_id = none
        · simp [Option.filter, howner, hget]
        · simp [Option.filter, howner, hget]
  · intro i chat k row hi hk howner
    have hchat := h.not_shared hi ⟨row, hk, howner⟩
    cases hu : chat.user_id with
    | shared j => exact absurd hu (hchat j)
    | user u => by_cases huser : u = user_id <;>
        simp [howner, get_chat_by_id_and_user_id, hi, Option.filter, hu, huser]

lemma Linked.delete_folder_contents {folder_ids : List Fid} (h : Linked chats)
    (hcareful : ∀ id chat, chats.get? id = some chat → chat.user_id = .user user_id →
      (∃ folder_id ∈ folder_ids, chat.folder_id = some folder_id) → chat.share_id = none) :
    Linked (delete_folder_contents user_id folder_ids chats) := by
  induction folder_ids generalizing chats with
  | nil => exact h
  | cons folder_id rest ih =>
    have hget : ∀ k, (delete_chats_by_user_id_and_folder_id user_id chats folder_id).get? k =
        (chats.get? k).filter fun chat =>
          ¬(chat.user_id = .user user_id ∧ chat.folder_id = some folder_id) :=
      fun k => get?_filter _ _ k
    refine ih (h.filter hget fun i chat k row hi hk howner => ?_) fun id chat hchat howner hin => ?_
    · -- a chat with a copy is not deleted
      have hshare := (h.copies i chat hi k).mp ⟨row, hk, howner⟩
      have hkept : ¬(chat.user_id = .user user_id ∧ chat.folder_id = some folder_id) := by
        rintro ⟨hu, hf⟩
        rw [hcareful i chat hi hu ⟨folder_id, mem_cons_self, hf⟩] at hshare
        cases hshare
      simp [howner, hkept]
    · rw [hget, filter_eq_some_iff] at hchat
      obtain ⟨f, hf, hfolder⟩ := hin
      exact hcareful id chat hchat.1 howner ⟨f, mem_cons_of_mem _ hf, hfolder⟩

lemma Linked.step {request : UserModel Uid × Op Cid Fid B} (h : Linked chats)
    (hcareful : Careful chats request) (hs : step clone chats request = .ok chats') : Linked chats' := by
  obtain ⟨user, op⟩ := request
  cases op with
  | create form => exact h.import_chats hs
  | importChats forms => exact h.import_chats hs
  | clone id new =>
    simp only [SharedChats.step, clone_chat_by_id] at hs
    split at hs
    · cases hs
    · exact h.clone_chat hs
  | cloneShared id new =>
    simp only [SharedChats.step, clone_shared_chat_by_id] at hs
    split at hs
    · cases hs
    · exact h.clone_chat hs
  | share mayShare id new => exact h.share_chat_by_id hs
  | unshare id => exact h.delete_shared_chat hs
  | delete mayDelete id => exact h.delete_chat_by_id hcareful hs
  | deleteAll mayDelete =>
    simp only [SharedChats.step, delete_all_user_chats] at hs
    split at hs
    · cases hs
      exact h.delete_chats_by_user_id
    · cases hs
  | deleteFolder folder_ids =>
    cases hs
    exact h.delete_folder_contents hcareful

/-- The copies are those that the chats point to, and no sharing request of the owner fails with
an exception. -/
structure SharedExactly (chats : Table Cid Uid Fid B) : Prop where
  share_id : ∀ id chat, chats.get? id = some chat → ∀ s,
    chat.share_id = some s ↔ IsCopy chats id s ∧ ∀ copy, IsCopy chats id copy → copy = s
  existing : ∀ id copy, IsCopy chats id copy → ∃ chat, chats.get? id = some chat
  share : ∀ (user : UserModel Uid) mayShare id new, user.isAdmin = true ∨ mayShare = true →
    (get_chat_by_id_and_user_id chats id user.id).isSome → chats.get? new = none →
    ∃ chats', share_chat_by_id user mayShare id new chats = .ok chats'
  unshare : ∀ user_id id, (get_chat_by_id_and_user_id chats id user_id).isSome →
    ∃ chats', delete_shared_chat user_id id chats = .ok chats'

omit [DecidableEq Fid] in
lemma Linked.sharedExactly (h : Linked chats) : SharedExactly chats where
  share_id id chat hchat s := by
    rw [h.copies id chat hchat]
    refine ⟨fun hs => ⟨hs, fun copy hcopy => ?_⟩, fun hs => hs.1⟩
    rw [h.copies id chat hchat, hs, some.injEq] at hcopy
    exact hcopy.symm
  existing := h.existing
  share user mayShare id new hmay hget hnew := by
    obtain ⟨chat, hget⟩ := isSome_iff_exists.mp hget
    exact h.share_ok hmay hget hnew
  unshare user_id id hget := by
    obtain ⟨chat, hget⟩ := isSome_iff_exists.mp hget
    rw [SharedChats.delete_shared_chat, hget]
    dsimp only
    split
    · exact ⟨_, rfl⟩
    · exact ⟨_, rfl⟩

/-- In every run of careful requests, from no chats, each chat and its copy stay together. -/
theorem reaches_shared (clone : Cid → B → Option B) (chats : Table Cid Uid Fid B)
    (h : Reaches (step clone) Careful .empty chats) : SharedExactly chats := by
  have hlinked : Linked chats := h.invariant .empty
    fun _ _ _ hlinked hcareful hs => hlinked.step hcareful hs
  exact hlinked.sharedExactly

def owner0 : UserModel ℕ := { id := 0, isAdmin := false }

theorem reaches_shared_one : ∃ chats : Table ℕ ℕ ℕ Unit,
    Reaches (step fun _ body => some body) Careful .empty chats ∧ IsCopy chats 1 2 ∧ SharedExactly chats := by
  have hreach : ∃ chats : Table ℕ ℕ ℕ Unit,
      Reaches (step fun _ body => some body) Careful .empty chats ∧ IsCopy chats 1 2 :=
    ⟨_, .step (owner0, .share true 1 2)
      (.step (owner0, .create { id := 1, folder_id := some 5, body := () }) .start trivial rfl)
      trivial rfl, _, rfl, rfl⟩
  obtain ⟨chats, hchats, hcopy⟩ := hreach
  exact ⟨chats, hchats, hcopy, reaches_shared (fun _ body => some body) chats hchats⟩

/-- The chat is deleted with its folder, its copy stays. -/
theorem copy_left_behind : ¬ ∀ chats : Table ℕ ℕ ℕ Unit,
    Reaches (step fun _ body => some body) (fun _ _ => True) .empty chats → SharedExactly chats := by
  intro hshared
  have hreach : ∃ chats : Table ℕ ℕ ℕ Unit,
      Reaches (step fun _ body => some body) (fun _ _ => True) .empty chats ∧ IsCopy chats 1 2 ∧
        chats.get? 1 = none :=
    ⟨_, .step (owner0, .deleteFolder [5]) (.step (owner0, .share true 1 2)
      (.step (owner0, .create { id := 1, folder_id := some 5, body := () }) .start trivial rfl)
      trivial rfl) trivial rfl, ⟨_, rfl, rfl⟩, rfl⟩
  obtain ⟨chats, hchats, hcopy, hgone⟩ := hreach
  obtain ⟨chat, hchat⟩ := (hshared chats hchats).existing 1 2 hcopy
  rw [hgone] at hchat
  cases hchat

end CustomAi.OpenWebUI.SharedChats
