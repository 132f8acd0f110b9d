import CustomAi.OpenWebUI.ChatTags

/-!
# The tag table

The table lists the tags of the active chats of each user after every run of requests that do not
bypass it, and the requests that do.
-/

namespace CustomAi.OpenWebUI.ChatTags

open List Dict

open SharedChats (Owner Error)

variable {Cid Uid : Type} [DecidableEq Cid] [DecidableEq Uid] {lower : Str → Str}
  {s s' : State Cid Uid} {chats chats' : Chats Cid Uid} {tags : Tags Uid} {id new : Cid}
  {chat chat' : Chat Cid Uid} {user_id u : Uid} {user : UserModel Uid} {t name : Str}
  {names : List Str}

/-- An active chat of the user has the tag. -/
def Used (chats : Chats Cid Uid) (user_id : Uid) (tag_id : Str) : Prop :=
  ∃ id chat, chats.get? id = some chat ∧ chat.counts user_id tag_id = true

/-- A chat other than `id` does. -/
def UsedOff (chats : Chats Cid Uid) (id : Cid) (user_id : Uid) (tag_id : Str) : Prop :=
  ∃ k chat, k ≠ id ∧ chats.get? k = some chat ∧ chat.counts user_id tag_id = true

/-- The table holds exactly the tags in use. The tags of a user's chats are ids that the code
makes. -/
structure Exact (lower : Str → Str) (s : State Cid Uid) : Prop where
  table : ∀ user_id tag_id, s.tags.contains (tag_id, user_id) = true ↔ Used s.chats user_id tag_id
  ids : ∀ id chat user_id, s.chats.get? id = some chat → chat.user_id = .user user_id →
    ∀ tag ∈ chat.tags, tagId lower tag = tag

/-- A request that keeps the table exact: it adds tags to active chats, changes no active tag in bulk,
and deletes chats for their owner, up to harmless cases. -/
def Careful (lower : Str → Str) (s : State Cid Uid) (request : UserModel Uid × Op Cid) : Prop :=
  let user := request.1
  let has := fun (tag : Str) => s.tags.contains (tag, user.id) = true
  match request.2 with
  | .addTag id name => ∀ chat, s.chats.get? id = some chat → chat.archived = true → has (tagId lower name)
  | .updateTags id names => ∀ chat, s.chats.get? id = some chat → chat.user_id = .user user.id ∧
      (chat.archived = true → ∀ name ∈ names, lower name ≠ noneName → has (tagId lower name))
  | .setAllArchived true => ∀ tag, ¬ Used s.chats user.id tag
  | .setAllArchived false => ∀ id chat, s.chats.get? id = some chat →
      chat.user_id = .user user.id → ∀ tag ∈ chat.tags, has tag
  | .delete _ id => ∀ chat, s.chats.get? id = some chat → (chat.user_id = .user user.id ∧ chat.archived = false) ∨
      ∀ tag ∈ chat.tags, count_chats_by_tag_name_and_user_id lower s.chats tag user.id ≠ 1 ∧
        (user.isAdmin = true → chat.archived = false → ∀ owner, chat.user_id = .user owner →
          count_chats_by_tag_name_and_user_id lower s.chats tag owner ≠ 1)
  | .importChats forms => ∀ form ∈ forms, ∀ tag ∈ form.2, has tag
  | .clone id _ | .cloneShared id _ => ∀ chat, s.chats.get? id = some chat → ∀ tag ∈ chat.tags, has tag
  | .create _ | .deleteTag _ _ | .deleteAllTags _ | .archive _ | .share _ _ => True

lemma counts_iff : chat.counts user_id t = true ↔
    chat.user_id = .user user_id ∧ chat.archived = false ∧ t ∈ chat.tags := by
  simp [Chat.counts, and_assoc]

lemma used_iff (hget : chats.get? id = some chat) :
    Used chats u t ↔ chat.counts u t = true ∨ UsedOff chats id u t := by
  constructor
  · rintro ⟨k, row, hk, hcounts⟩
    by_cases hid : k = id
    · subst hid
      rw [hget, Option.some.injEq] at hk
      exact .inl (hk ▸ hcounts)
    · exact .inr ⟨k, row, hid, hk, hcounts⟩
  · rintro (hcounts | ⟨k, row, -, hk, hcounts⟩)
    · exact ⟨id, chat, hget, hcounts⟩
    · exact ⟨k, row, hk, hcounts⟩

lemma used_set : Used (chats.set id chat) u t ↔ chat.counts u t = true ∨ UsedOff chats id u t := by
  rw [used_iff (get?_set_self ..)]
  refine or_congr_right ?_
  refine exists_congr fun k => exists_congr fun row => ?_
  refine and_congr_right fun hk => ?_
  rw [get?_set_of_ne _ _ hk]

lemma mem_counted {e : Cid × Chat Cid Uid} : (e ∈ chats.entries.filter fun e => e.2.counts user_id t) ↔
      e ∈ chats.entries ∧ e.2.counts user_id t = true := mem_filter

lemma count_eq_zero_iff : count_chats_by_tag_name_and_user_id lower chats name user_id = 0 ↔
    ¬ Used chats user_id (tagId lower name) := by
  rw [count_chats_by_tag_name_and_user_id, length_eq_zero_iff, eq_nil_iff_forall_not_mem]
  constructor
  · rintro h ⟨k, row, hk, hcounts⟩
    exact h (k, row) (mem_counted.mpr ⟨(chats.mem_entries_iff k row).mpr hk, hcounts⟩)
  · rintro h ⟨k, row⟩ hmem
    obtain ⟨hmem, hcounts⟩ := mem_counted.mp hmem
    exact h ⟨k, row, (chats.mem_entries_iff k row).mp hmem, hcounts⟩

lemma count_eq_one_iff (hget : chats.get? id = some chat)
    (hcounts : chat.counts user_id (tagId lower name) = true) :
    count_chats_by_tag_name_and_user_id lower chats name user_id = 1 ↔
      ¬ UsedOff chats id user_id (tagId lower name) := by
  have hmem : (id, chat) ∈ chats.entries.filter fun e => e.2.counts user_id (tagId lower name) :=
    mem_counted.mpr ⟨(chats.mem_entries_iff id chat).mpr hget, hcounts⟩
  have hnodup : (chats.entries.filter fun e => e.2.counts user_id (tagId lower name)).Nodup :=
    (List.Nodup.of_map _ chats.nodup_keys).filter _
  constructor
  · rintro hone ⟨k, row, hk, hrow, hcounts'⟩
    obtain ⟨e, he⟩ := length_eq_one_iff.mp hone
    have hmem' := mem_counted.mpr ⟨(chats.mem_entries_iff k row).mpr hrow, hcounts'⟩
    rw [he, mem_singleton] at hmem hmem'
    exact hk (congrArg Prod.fst (hmem'.trans hmem.symm))
  · intro hoff
    refine length_eq_one_iff.mpr ⟨(id, chat), ?_⟩
    by_contra hne
    rcases (hnodup.ne_singleton_iff (id, chat)).mp hne with hnil | ⟨⟨k, row⟩, hrow, hdiff⟩
    · rw [hnil] at hmem
      cases hmem
    · obtain ⟨hrow, hcounts'⟩ := mem_counted.mp hrow
      have hget' := (chats.mem_entries_iff k row).mp hrow
      refine hoff ⟨k, row, ?_, hget', hcounts'⟩
      rintro rfl
      rw [hget, Option.some.injEq] at hget'
      exact hdiff (hget' ▸ rfl)

omit [DecidableEq Cid] in
lemma contains_ensure_tag : (ensure_tag lower user_id tags name).contains (t, u) = true ↔
    tags.contains (t, u) = true ∨ (t = tagId lower name ∧ u = user_id) := by
  unfold ensure_tag insert_new_tag
  split
  · rename_i hcontains
    refine ⟨.inl, fun h => h.elim id ?_⟩
    rintro ⟨rfl, rfl⟩
    exact hcontains
  · rw [contains_set, Bool.or_eq_true, decide_eq_true_iff, Prod.mk.injEq, or_comm]

omit [DecidableEq Cid] in
lemma contains_foldl_ensure_tag : (names.foldl (ensure_tag lower user_id) tags).contains (t, u) = true ↔
      tags.contains (t, u) = true ∨ (u = user_id ∧ ∃ name ∈ names, t = tagId lower name) := by
  induction names generalizing tags with
  | nil => simp
  | cons name rest ih =>
    rw [foldl_cons, ih, contains_ensure_tag]
    simp only [mem_cons, exists_eq_or_imp]
    tauto

lemma contains_delete_tags_with_count {count : ℕ} :
    (delete_tags_with_count lower count chats user_id names tags).contains (t, u) = true ↔
      tags.contains (t, u) = true ∧ ¬(u = user_id ∧ ∃ name ∈ names, t = tagId lower name ∧
        count_chats_by_tag_name_and_user_id lower chats name user_id = count) := by
  unfold delete_tags_with_count
  induction names generalizing tags with
  | nil => simp
  | cons name rest ih =>
    rw [foldl_cons, ih]
    simp only [mem_cons, exists_eq_or_imp]
    split
    · rename_i hcount
      rw [delete_tag_by_name_and_user_id, contains_erase, Bool.and_eq_true,
        decide_eq_true_iff, ne_eq, Prod.mk.injEq]
      simp only [hcount, and_true]
      rw [and_or_left, not_or, and_comm (a := t = _), and_assoc, and_left_comm]
    · rename_i hcount
      simp only [hcount, and_false, false_or]

section

variable (h : Exact lower s)
include h

lemma Exact.tagId_eq (ht : s.tags.contains (t, u) = true) : tagId lower t = t := by
  obtain ⟨id, chat, hget, hcounts⟩ := (h.table u t).mp ht
  obtain ⟨howner, -, hmem⟩ := counts_iff.mp hcounts
  exact h.ids id chat u hget howner t hmem

lemma ids_set (hids : ∀ u, chat'.user_id = .user u → ∀ tag ∈ chat'.tags, tagId lower tag = tag) :
    ∀ k row u, (s.chats.set id chat').get? k = some row → row.user_id = .user u →
      ∀ tag ∈ row.tags, tagId lower tag = tag := by
  intro k row u hk howner
  by_cases hkid : k = id
  · subst hkid
    rw [get?_set_self, Option.some.injEq] at hk
    exact hk ▸ hids u (hk ▸ howner)
  · rw [get?_set_of_ne _ _ hkid] at hk
    exact h.ids k row u hk howner

lemma Exact.lose (hget : s.chats.get? id = some chat)
    (hids : ∀ u, chat'.user_id = .user u → ∀ tag ∈ chat'.tags, tagId lower tag = tag)
    (hsub : ∀ u t, chat'.counts u t = true → chat.counts u t = true)
    (hlost : ∀ u t, chat.counts u t = true → chat'.counts u t = false →
      u = user_id ∧ ∃ name ∈ names, t = tagId lower name) :
    Exact lower
      { chats := s.chats.set id chat'
        tags := delete_tags_with_count lower 0 (s.chats.set id chat') user_id names s.tags } where
  ids := ids_set h hids
  table u t := by
    rw [contains_delete_tags_with_count, h.table, used_iff hget, used_set]
    constructor
    · rintro ⟨hused, hkept⟩
      rcases hused with hcounts | hoff
      · by_contra hnot
        rw [not_or, Bool.not_eq_true] at hnot
        obtain ⟨rfl, name, hname, rfl⟩ := hlost u t hcounts hnot.1
        refine hkept ⟨rfl, name, hname, rfl, count_eq_zero_iff.mpr ?_⟩
        rw [used_set, not_or, Bool.not_eq_true]
        exact hnot
      · exact .inr hoff
    · intro hused
      refine ⟨hused.imp_left (hsub u t), ?_⟩
      rintro ⟨rfl, name, -, rfl, hcount⟩
      exact count_eq_zero_iff.mp hcount (used_set.mpr hused)

lemma Exact.gain {tags' : Tags Uid} (hget : s.chats.get? id = some chat)
    (hids : ∀ u, chat'.user_id = .user u → ∀ tag ∈ chat'.tags, tagId lower tag = tag)
    (htags : ∀ u t, tags'.contains (t, u) = true ↔ s.tags.contains (t, u) = true ∨ chat'.counts u t = true)
    (hsub : ∀ u t, chat.counts u t = true → chat'.counts u t = true) :
    Exact lower { chats := s.chats.set id chat', tags := tags' } where
  ids := ids_set h hids
  table u t := by
    rw [htags, h.table, used_iff hget, used_set]
    tauto

end

lemma get_chat_eq_some (h : get_chat_by_id_and_user_id chats id user_id = some chat) :
    chats.get? id = some chat ∧ chat.user_id = .user user_id := by
  simpa [get_chat_by_id_and_user_id, Option.filter_eq_some_iff] using h

lemma counts_addTag : (chat.addTag name).counts u t = true ↔ chat.counts u t = true ∨
    (chat.user_id = .user u ∧ chat.archived = false ∧ t = name) := by
  unfold Chat.addTag
  split
  · rename_i hmem
    rw [counts_iff]
    refine ⟨.inl, fun h => h.elim id ?_⟩
    rintro ⟨howner, hactive, rfl⟩
    exact ⟨howner, hactive, by simpa using hmem⟩
  · rw [counts_iff, counts_iff]
    simp only [mem_dedup, mem_append, mem_singleton]
    tauto

omit [DecidableEq Uid] [DecidableEq Cid] in
lemma mem_addTag : t ∈ (chat.addTag name).tags ↔ t ∈ chat.tags ∨ t = name := by
  unfold Chat.addTag
  split
  · rename_i hmem
    refine ⟨.inl, fun h => h.elim id ?_⟩
    rintro rfl
    simpa using hmem
  · simp

omit [DecidableEq Uid] [DecidableEq Cid] in
lemma addTag_same : (chat.addTag name).user_id = chat.user_id ∧ (chat.addTag name).archived = chat.archived := by
  unfold Chat.addTag
  split <;> exact ⟨rfl, rfl⟩

lemma Exact.add_chat_tag (hlower : ∀ name, tagId lower (tagId lower name) = tagId lower name)
    (h : Exact lower s) (name : Str) (hget : s.chats.get? id = some chat) (howner : chat.user_id = .user user_id)
    (hhas : chat.archived = true → s.tags.contains (tagId lower name, user_id) = true) :
    Exact lower (add_chat_tag lower id user_id s name) := by
  simp only [ChatTags.add_chat_tag, hget]
  refine h.gain hget (fun u hu tag htag => ?_) (fun u t => ?_) fun u t hcounts => ?_
  · rcases mem_addTag.mp htag with htag | rfl
    · exact h.ids id chat u hget (addTag_same.1 ▸ hu) tag htag
    · exact hlower name
  · rw [contains_ensure_tag, counts_addTag]
    constructor
    · rintro (hcontains | ⟨rfl, rfl⟩)
      · exact .inl hcontains
      · cases harchived : chat.archived with
        | true => exact .inl (hhas harchived)
        | false => exact .inr (.inr ⟨howner, rfl, rfl⟩)
    · rintro (hcontains | hcounts | ⟨hu, -, rfl⟩)
      · exact .inl hcontains
      · exact .inl ((h.table u t).mpr ⟨id, chat, hget, hcounts⟩)
      · rw [howner, Owner.user.injEq] at hu
        exact .inr ⟨rfl, hu.symm⟩
  · exact counts_addTag.mpr (.inl hcounts)

omit [DecidableEq Uid] in
lemma set_chat_tags_eq (hget : chats.get? id = some chat) (tags : List Str) :
    set_chat_tags id tags chats = chats.set id { chat with tags := tags } := by
  rw [set_chat_tags, hget]

lemma Exact.keep_tags {rest : List Str} (h : Exact lower s) (hget : s.chats.get? id = some chat)
    (howner : chat.user_id = .user user_id) (hrest : ∀ t ∈ rest, t ∈ chat.tags)
    (hnames : ∀ t ∈ chat.tags, t ∉ rest → ∃ name ∈ names, t = tagId lower name) : Exact lower
      { chats := set_chat_tags id rest s.chats
        tags := delete_tags_with_count lower 0 (set_chat_tags id rest s.chats) user_id names
          s.tags } := by
  rw [set_chat_tags_eq hget]
  refine h.lose hget (fun u hu tag htag => ?_) (fun u t hcounts => ?_) fun u t hcounts hnot => ?_
  · exact h.ids id chat u hget hu tag (hrest tag htag)
  · obtain ⟨hu, hactive, hmem⟩ := counts_iff.mp hcounts
    exact counts_iff.mpr ⟨hu, hactive, hrest t hmem⟩
  · obtain ⟨hu, hactive, hmem⟩ := counts_iff.mp hcounts
    rw [howner, Owner.user.injEq] at hu
    refine ⟨hu.symm, hnames t hmem fun hrest' => ?_⟩
    have hcounts' : Chat.counts u t { chat with tags := rest } = true :=
      counts_iff.mpr ⟨hu ▸ howner, hactive, hrest'⟩
    rw [hnot] at hcounts'
    cases hcounts'

lemma Exact.delete_all (h : Exact lower s) (hget : s.chats.get? id = some chat)
    (howner : chat.user_id = .user user_id) :
    Exact lower
      { chats := set_chat_tags id [] s.chats
        tags := delete_tags_with_count lower 0 (set_chat_tags id [] s.chats) user_id chat.tags s.tags } :=
  h.keep_tags hget howner (fun t ht => by cases ht)
    fun t ht _ => ⟨t, ht, (h.ids id chat user_id hget howner t ht).symm⟩

lemma Exact.foldl_add_chat_tag
    (hlower : ∀ name, tagId lower (tagId lower name) = tagId lower name) (h : Exact lower s)
    (hget : s.chats.get? id = some chat) (howner : chat.user_id = .user user_id)
    (hhas : chat.archived = true → ∀ name ∈ names, s.tags.contains (tagId lower name, user_id) = true) :
    Exact lower (names.foldl (ChatTags.add_chat_tag lower id user_id) s) := by
  induction names generalizing s chat with
  | nil => exact h
  | cons name rest ih =>
    have hadd := h.add_chat_tag hlower name hget howner
      fun harchived => hhas harchived name mem_cons_self
    have hget' : (ChatTags.add_chat_tag lower id user_id s name).chats.get? id =
        some (chat.addTag (tagId lower name)) := by
      simp only [ChatTags.add_chat_tag, hget]
      exact get?_set_self ..
    refine ih hadd hget' (addTag_same.1.trans howner) fun harchived name' hname' => ?_
    have hcontains := hhas (addTag_same.2 ▸ harchived) name' (mem_cons_of_mem _ hname')
    simp only [ChatTags.add_chat_tag, hget]
    exact contains_ensure_tag.mpr (.inl hcontains)

lemma Exact.archive_chat_by_id (h : Exact lower s)
    (hs : archive_chat_by_id lower user_id id s = .ok s') : Exact lower s' := by
  unfold ChatTags.archive_chat_by_id at hs
  split at hs
  · cases hs
  · rename_i chat hchat
    obtain ⟨hget, howner⟩ := get_chat_eq_some hchat
    have hids : ∀ u, chat.user_id = .user u → ∀ tag ∈ chat.tags, tagId lower tag = tag :=
      fun u hu => h.ids id chat u hget hu
    have hid : ∀ tag ∈ chat.tags, tag = tagId lower tag :=
      fun tag htag => (hids user_id howner tag htag).symm
    cases hs
    cases harchived : chat.archived with
    | false =>
      refine h.lose hget hids (fun u t hcounts => ?_) fun u t hcounts _ => ?_
      · simp [Chat.counts] at hcounts
      · obtain ⟨hu, -, hmem⟩ := counts_iff.mp hcounts
        rw [howner, Owner.user.injEq] at hu
        exact ⟨hu.symm, t, hmem, hid t hmem⟩
    | true =>
      refine h.gain hget hids (fun u t => ?_) fun u t hcounts => ?_
      · simp only [Bool.not_true, Bool.false_eq_true, if_false]
        rw [contains_foldl_ensure_tag, counts_iff]
        refine or_congr_right ⟨?_, ?_⟩
        · rintro ⟨rfl, name, hname, rfl⟩
          rw [← hid name hname]
          exact ⟨howner, rfl, hname⟩
        · rintro ⟨hu, -, hmem⟩
          rw [howner, Owner.user.injEq] at hu
          exact ⟨hu.symm, t, hmem, hid t hmem⟩
      · rw [counts_iff, harchived] at hcounts
        exact absurd hcounts.2.1 (by simp)

variable {archived : Bool} {forms : List (Cid × List Str)}

lemma used_set_all_archived : Used (set_all_archived user_id archived s).chats u t ↔
      if u = user_id then archived = false ∧ ∃ id chat, s.chats.get? id = some chat ∧
        chat.user_id = .user user_id ∧ t ∈ chat.tags else Used s.chats u t := by
  have hget : ∀ k, (set_all_archived user_id archived s).chats.get? k = (s.chats.get? k).map fun chat =>
        if chat.user_id = .user user_id then { chat with archived := archived } else chat :=
    fun k => get?_mapValues _ _ k
  unfold Used
  simp only [hget, Option.map_eq_some_iff]
  split
  · rename_i hu
    subst hu
    constructor
    · rintro ⟨k, row, ⟨chat, hk, rfl⟩, hcounts⟩
      rw [counts_iff] at hcounts
      split at hcounts
      · rename_i howner
        exact ⟨hcounts.2.1, k, chat, hk, howner, hcounts.2.2⟩
      · rename_i howner
        exact absurd hcounts.1 howner
    · rintro ⟨harchived, k, chat, hk, howner, hmem⟩
      refine ⟨k, _, ⟨chat, hk, rfl⟩, ?_⟩
      rw [if_pos howner, counts_iff]
      exact ⟨howner, harchived, hmem⟩
  · rename_i hu
    constructor
    · rintro ⟨k, row, ⟨chat, hk, rfl⟩, hcounts⟩
      refine ⟨k, chat, hk, ?_⟩
      split at hcounts
      · rename_i howner
        have hother := (counts_iff.mp hcounts).1
        rw [howner, Owner.user.injEq] at hother
        exact absurd hother.symm hu
      · exact hcounts
    · rintro ⟨k, chat, hk, hcounts⟩
      refine ⟨k, _, ⟨chat, hk, rfl⟩, ?_⟩
      have howner : chat.user_id ≠ .user user_id := by
        rw [(counts_iff.mp hcounts).1]
        simpa using hu
      rw [if_neg howner]
      exact hcounts

lemma Exact.set_all_archived (h : Exact lower s) (hcareful : Careful lower s (user, .setAllArchived archived)) :
    Exact lower (set_all_archived user.id archived s) := by
  constructor
  case table =>
    intro u t
    rw [used_set_all_archived]
    split
    · rename_i hu
      subst hu
      change s.tags.contains (t, user.id) = true ↔ _
      cases archived with
      | true =>
        have hnone := hcareful t
        rw [h.table]
        simp [hnone]
      | false =>
        rw [h.table]
        constructor
        · rintro ⟨k, chat, hk, hcounts⟩
          obtain ⟨howner, -, hmem⟩ := counts_iff.mp hcounts
          exact ⟨rfl, k, chat, hk, howner, hmem⟩
        · rintro ⟨-, k, chat, hk, howner, hmem⟩
          exact (h.table _ t).mp (hcareful k chat hk howner t hmem)
    · exact h.table u t
  case ids =>
    intro k row u hk howner
    rw [ChatTags.set_all_archived, get?_mapValues, Option.map_eq_some_iff] at hk
    obtain ⟨chat, hk, rfl⟩ := hk
    have hsame : (if chat.user_id = .user user.id then { chat with archived := archived }
        else chat).user_id = chat.user_id ∧ (if chat.user_id = .user user.id then
        { chat with archived := archived } else chat).tags = chat.tags := by
      split <;> exact ⟨rfl, rfl⟩
    rw [hsame.1] at howner
    rw [hsame.2]
    exact h.ids k chat u hk howner

lemma Exact.insert (h : Exact lower s) (hnew : s.chats.get? new = none)
    (htags : ∀ u, chat.user_id = .user u → ∀ tag ∈ chat.tags, s.tags.contains (tag, u) = true) :
    Exact lower { s with chats := s.chats.set new chat } where
  ids := ids_set h fun u hu tag htag => h.tagId_eq (htags u hu tag htag)
  table u t := by
    have hoff : Used s.chats u t ↔ UsedOff s.chats new u t := by
      constructor
      · rintro ⟨k, row, hk, hcounts⟩
        refine ⟨k, row, ?_, hk, hcounts⟩
        rintro rfl
        rw [hnew] at hk
        cases hk
      · rintro ⟨k, row, -, hk, hcounts⟩
        exact ⟨k, row, hk, hcounts⟩
    rw [used_set, h.table, hoff]
    refine ⟨.inr, fun hused => hused.elim (fun hcounts => ?_) id⟩
    obtain ⟨howner, -, hmem⟩ := counts_iff.mp hcounts
    exact hoff.mp ((h.table u t).mp (htags u howner t hmem))

omit [DecidableEq Uid] in
lemma get?_of_insert (h : ChatTags.insert chats id chat = some chats') :
    chats.get? id = none ∧ chats' = chats.set id chat := by
  unfold ChatTags.insert at h
  split at h
  · cases h
  · rename_i hnew
    rw [Option.some.injEq] at h
    exact ⟨by simpa [Dict.contains] using hnew, h.symm⟩

lemma Exact.foldlM_import_chat (h : Exact lower s)
    (htags : ∀ form ∈ forms, ∀ tag ∈ form.2, s.tags.contains (tag, user_id) = true)
    (hs : forms.foldlM (import_chat user_id) s.chats = some chats') : Exact lower { s with chats := chats' } := by
  induction forms generalizing s with
  | nil =>
    cases hs
    exact h
  | cons form rest ih =>
    rw [foldlM_cons, Option.bind_eq_bind, Option.bind_eq_some_iff] at hs
    obtain ⟨chats1, hform, hrest⟩ := hs
    obtain ⟨hnew, rfl⟩ := get?_of_insert hform
    have hhas : ∀ u, (Owner.user user_id : Owner Cid Uid) = .user u → ∀ tag ∈ form.2,
        s.tags.contains (tag, u) = true := by
      intro u hu tag htag
      rw [← Owner.user.inj hu]
      exact htags form mem_cons_self tag htag
    have hnext : Exact lower { s with chats := s.chats.set form.1 (imported user_id form.2) } := h.insert hnew hhas
    have hrest' := ih hnext (fun form' hform' => htags form' (mem_cons_of_mem _ hform')) hrest
    exact hrest'

lemma Exact.import_chats (h : Exact lower s)
    (htags : ∀ form ∈ forms, ∀ tag ∈ form.2, s.tags.contains (tag, user_id) = true)
    (hs : import_chats user_id forms s = .ok s') : Exact lower s' := by
  unfold ChatTags.import_chats at hs
  split at hs
  · cases hs
  · rename_i chats1 hfold
    cases hs
    exact h.foldlM_import_chat htags hfold

lemma Exact.share_chat_by_id (h : Exact lower s)
    (hs : share_chat_by_id user_id id new s = .ok s') : Exact lower s' := by
  unfold ChatTags.share_chat_by_id at hs
  split at hs
  · cases hs
  · rename_i chat hchat
    obtain ⟨hget, -⟩ := get_chat_eq_some hchat
    split at hs
    · cases hs
      exact h
    · split at hs
      · cases hs
      · rename_i chats1 hinsert
        cases hs
        obtain ⟨hnew, rfl⟩ := get?_of_insert hinsert
        have hnext : Exact lower { s with chats := s.chats.set new (copyOf id chat) } :=
          h.insert hnew fun u hu => by cases hu
        have hne : id ≠ new := by
          rintro rfl
          rw [hget] at hnew
          cases hnew
        have hget' : (s.chats.set new (copyOf id chat)).get? id = some chat := by
          rw [get?_set_of_ne _ _ hne, hget]
        refine hnext.gain hget' (fun u hu => h.ids id chat u hget hu) (fun u t => ?_)
          fun u t hcounts => hcounts
        refine ⟨.inl, fun hhas => hhas.elim (fun ht => ht) fun hcounts => ?_⟩
        exact (h.table u t).mpr ⟨id, chat, hget, hcounts⟩

lemma get?_delete_chat_rows {k : Cid} {row : Chat Cid Uid} :
    (delete_chat_rows user id chats).get? k = some row ↔ chats.get? k = some row ∧
      ¬(k = id ∧ (user.isAdmin = true ∨ row.user_id = .user user.id)) ∧ row.user_id ≠ .shared id := by
  rw [delete_chat_rows, get?_filter, Option.filter_eq_some_iff, decide_eq_true_iff]

lemma usedOff_delete_chat_rows (user : UserModel Uid) :
    UsedOff (delete_chat_rows user id chats) id u t ↔ UsedOff chats id u t := by
  constructor
  · rintro ⟨k, row, hk, hget, hcounts⟩
    exact ⟨k, row, hk, (get?_delete_chat_rows.mp hget).1, hcounts⟩
  · rintro ⟨k, row, hk, hget, hcounts⟩
    refine ⟨k, row, hk, get?_delete_chat_rows.mpr ⟨hget, fun e => hk e.1, ?_⟩, hcounts⟩
    rw [(counts_iff.mp hcounts).1]
    simp

lemma used_delete_chat_rows (hget : chats.get? id = some chat) : Used (delete_chat_rows user id chats) u t ↔
      (¬(user.isAdmin = true ∨ chat.user_id = .user user.id) ∧ chat.counts u t = true) ∨ UsedOff chats id u t := by
  rw [← usedOff_delete_chat_rows user]
  constructor
  · rintro ⟨k, row, hk, hcounts⟩
    by_cases hkid : k = id
    · subst hkid
      obtain ⟨hget', hkept, -⟩ := get?_delete_chat_rows.mp hk
      rw [hget, Option.some.injEq] at hget'
      subst hget'
      exact .inl ⟨fun hgone => hkept ⟨rfl, hgone⟩, hcounts⟩
    · exact .inr ⟨k, row, hkid, hk, hcounts⟩
  · rintro (⟨hkept, hcounts⟩ | ⟨k, row, -, hk, hcounts⟩)
    · refine ⟨id, chat, get?_delete_chat_rows.mpr ⟨hget, fun e => hkept e.2, ?_⟩, hcounts⟩
      rw [(counts_iff.mp hcounts).1]
      simp
    · exact ⟨k, row, hk, hcounts⟩

lemma Exact.count_eq_one_iff (h : Exact lower s) (hget : s.chats.get? id = some chat)
    (hcounts : chat.counts u t = true) :
    count_chats_by_tag_name_and_user_id lower s.chats t u = 1 ↔ ¬ UsedOff s.chats id u t := by
  obtain ⟨howner, -, hmem⟩ := counts_iff.mp hcounts
  have hid : tagId lower t = t := h.ids id chat u hget howner t hmem
  rw [ChatTags.count_eq_one_iff hget (hid.symm ▸ hcounts), hid]

lemma Exact.kept_iff_of_owner (h : Exact lower s) (hget : s.chats.get? id = some chat)
    (howner : chat.user_id = .user user_id) (hactive : chat.archived = false) :
    ((chat.counts u t = true ∨ UsedOff s.chats id u t) ∧ ¬(u = user_id ∧ ∃ name ∈ chat.tags, t = tagId lower name ∧
        count_chats_by_tag_name_and_user_id lower s.chats name user_id = 1)) ↔ UsedOff s.chats id u t := by
  have hid : ∀ tag ∈ chat.tags, tagId lower tag = tag := h.ids id chat user_id hget howner
  constructor
  · rintro ⟨hcounts | hother, hkept⟩
    · by_contra hnot
      obtain ⟨hu, -, hmem⟩ := counts_iff.mp hcounts
      have huser : u = user_id := Owner.user.inj (hu.symm.trans howner)
      refine hkept ⟨huser, t, hmem, (hid t hmem).symm, ?_⟩
      exact huser ▸ (h.count_eq_one_iff hget hcounts).mpr hnot
    · exact hother
  · refine fun hother => ⟨.inr hother, ?_⟩
    rintro ⟨rfl, name, hname, ht, hcount⟩
    rw [hid name hname] at ht
    subst ht
    exact (h.count_eq_one_iff hget (counts_iff.mpr ⟨howner, hactive, hname⟩)).mp hcount hother

lemma Exact.delete_chat_by_id {mayDelete : Bool} (h : Exact lower s)
    (hcareful : Careful lower s (user, .delete mayDelete id))
    (hs : delete_chat_by_id lower user mayDelete id s = .ok s') : Exact lower s' := by
  unfold ChatTags.delete_chat_by_id at hs
  split at hs
  · cases hs
  · split at hs
    · cases hs
    · rename_i chat hget
      have hcase := hcareful chat hget
      cases hs
      constructor
      case ids =>
        exact fun k row u hk howner => h.ids k row u (get?_delete_chat_rows.mp hk).1 howner
      case table =>
        intro u t
        rw [contains_delete_tags_with_count, h.table, used_iff hget, used_delete_chat_rows hget]
        rcases hcase with ⟨howner, hactive⟩ | hcount
        · simp only [howner, or_true, not_true_eq_false, false_and, false_or]
          exact h.kept_iff_of_owner hget howner hactive
        · -- no tag of the chat is counted once, so none is deleted
          have hnone : ¬(u = user.id ∧ ∃ name ∈ chat.tags, t = tagId lower name ∧
              count_chats_by_tag_name_and_user_id lower s.chats name user.id = 1) := by
            rintro ⟨-, name, hname, -, hcount'⟩
            exact (hcount name hname).1 hcount'
          rw [and_iff_left hnone]
          refine ⟨fun hused => ?_, fun hused => hused.imp_left fun hcounts => hcounts.2⟩
          rcases hused with hcounts | hother
          · by_cases hgone : user.isAdmin = true ∨ chat.user_id = .user user.id
            · obtain ⟨hu, hactive, hmem⟩ := counts_iff.mp hcounts
              refine .inr (not_not.mp fun hnot => ?_)
              have hone := (h.count_eq_one_iff hget hcounts).mpr hnot
              rcases hgone with hadmin | howner
              · exact (hcount t hmem).2 hadmin hactive u hu hone
              · have huser : u = user.id := Owner.user.inj (hu.symm.trans howner)
                exact (hcount t hmem).1 (huser ▸ hone)
            · exact .inl ⟨hgone, hcounts⟩
          · exact .inr hother

lemma Exact.update_chat_tags_by_id {id : Cid}
    (hlower : ∀ name, tagId lower (tagId lower name) = tagId lower name) (h : Exact lower s)
    (hcareful : Careful lower s (user, .updateTags id names)) :
    Exact lower (update_chat_tags_by_id lower user.id id names s) := by
  unfold ChatTags.update_chat_tags_by_id
  split
  · exact h
  · rename_i chat hget
    obtain ⟨howner, hhas⟩ := hcareful chat hget
    have hempty := h.delete_all hget howner
    have hget' : (set_chat_tags id [] s.chats).get? id = some { chat with tags := [] } := by
      rw [set_chat_tags_eq hget, get?_set_self]
    refine hempty.foldl_add_chat_tag hlower hget' howner fun harchived name hname => ?_
    rw [mem_filter, decide_eq_true_iff] at hname
    -- an archived chat counts for no tag, so none of the tags in use was deleted
    have hused : Used s.chats user.id (tagId lower name) := (h.table _ _).mp (hhas harchived name hname.1 hname.2)
    rw [used_iff hget, counts_iff] at hused
    have hoff := hused.resolve_left fun hcounts => by
      rw [hcounts.2.1] at harchived
      cases harchived
    rw [hempty.table]
    rw [set_chat_tags_eq hget, used_set]
    exact .inr hoff

lemma Exact.step (hlower : ∀ name, tagId lower (tagId lower name) = tagId lower name)
    {request : UserModel Uid × Op Cid} (h : Exact lower s) (hcareful : Careful lower s request)
    (hs : step lower s request = .ok s') : Exact lower s' := by
  obtain ⟨user, op⟩ := request
  cases op with
  | create new => exact h.import_chats (by simp) hs
  | addTag id name =>
    simp only [ChatTags.step, add_tag_by_id_and_tag_name] at hs
    split at hs
    · cases hs
    · rename_i chat hchat
      obtain ⟨hget, howner⟩ := get_chat_eq_some hchat
      split at hs
      · cases hs
      · split at hs
        · cases hs
          exact h
        · cases hs
          exact h.add_chat_tag hlower name hget howner (hcareful chat hget)
  | deleteTag id name =>
    simp only [ChatTags.step, delete_tag_by_id_and_tag_name] at hs
    split at hs
    · cases hs
    · rename_i chat hchat
      obtain ⟨hget, howner⟩ := get_chat_eq_some hchat
      cases hs
      refine h.keep_tags hget howner (fun t ht => ?_) fun t ht hnot => ⟨name, by simp, ?_⟩
      · exact (mem_filter.mp (mem_dedup.mp ht)).1
      · by_contra hne
        exact hnot (mem_dedup.mpr (mem_filter.mpr ⟨ht, by simpa using hne⟩))
  | deleteAllTags id =>
    simp only [ChatTags.step, delete_all_tags_by_id] at hs
    split at hs
    · cases hs
    · rename_i chat hchat
      obtain ⟨hget, howner⟩ := get_chat_eq_some hchat
      cases hs
      exact h.delete_all hget howner
  | updateTags id names =>
    cases hs
    exact h.update_chat_tags_by_id hlower hcareful
  | archive id => exact h.archive_chat_by_id hs
  | setAllArchived archived =>
    cases hs
    exact h.set_all_archived hcareful
  | delete mayDelete id => exact h.delete_chat_by_id hcareful hs
  | importChats forms => exact h.import_chats hcareful hs
  | clone id new =>
    simp only [ChatTags.step, clone_chat_by_id] at hs
    split at hs
    · cases hs
    · rename_i chat hchat
      exact h.import_chats (by simpa using hcareful chat (get_chat_eq_some hchat).1) hs
  | cloneShared id new =>
    simp only [ChatTags.step, clone_shared_chat_by_id] at hs
    split at hs
    · cases hs
    · rename_i chat hchat
      have hget : s.chats.get? id = some chat := by
        split at hchat
        · exact hchat
        · unfold get_chat_by_share_id at hchat
          split at hchat
          · exact hchat
          · cases hchat
      exact h.import_chats (by simpa using hcareful chat hget) hs
  | share id new => exact h.share_chat_by_id hs

lemma Exact.start : Exact lower (State.start : State Cid Uid) where
  table u t := by
    refine ⟨(fun h => by cases h), ?_⟩
    rintro ⟨k, row, hk, -⟩
    cases hk
  ids id chat u h := by cases h

def user0 : UserModel ℕ := { id := 0, isAdmin := false }

def same (name : Str) : Str := name

end CustomAi.OpenWebUI.ChatTags
