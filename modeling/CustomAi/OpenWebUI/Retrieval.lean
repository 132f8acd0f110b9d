import Mathlib.Data.List.Dedup
import Mathlib.Data.Option.Basic
import CustomAi.OpenWebUI.AccessControl
import CustomAi.Lib.Except

/-!
# Sources of attached items

`get_sources_from_items`: what the notes, chats, files, knowledge bases and vector collections
behind the items that a client attaches contribute to its answer.
-/

namespace CustomAi.OpenWebUI

open List Option Except

abbrev Str := List Char

abbrev Metadata := List (String × Option Str)

structure Doc where
  content : Option Str
  metadata : Metadata
deriving DecidableEq

structure QueryResult (R : Type) where
  documents : List (Option Str)
  metadatas : List Metadata
  distances : List R
deriving DecidableEq

inductive ItemType
  | text
  | note
  | chat
  | url
  | file
  | collection
  | other
deriving DecidableEq

/-- `item["file"]`: the content and metadata of its data, and its meta. -/
structure FilePart where
  content : Option Str
  metadata : Metadata
  fileMeta : Metadata
deriving DecidableEq

structure Item where
  type : ItemType
  contextFull : Bool
  legacy : Bool
  id : Option Str
  name : Option Str
  content : Option Str
  file : Option FilePart
  url : Str
  docs : List Doc
  collection_name : Str
  collection_names : List Str
deriving DecidableEq

structure NoteRow (Uid Gid : Type) where
  user_id : Uid
  access_control : Option (AccessControl Uid Gid)
  title : Str
  /-- The text of the data, if the note has data. -/
  md : Option Str

structure ChatMessage where
  role : Str
  content : Str
  parentId : Option Str

structure ChatRow (Uid : Type) where
  user_id : Uid
  title : Str
  messages : List (Str × ChatMessage)
  currentId : Option Str

structure FileRow (Uid : Type) where
  id : Str
  user_id : Uid
  filename : Str
  /-- The content of the data, if the file has data. -/
  content : Option Str

structure KnowledgeRow (Uid Gid : Type) where
  user_id : Uid
  access_control : Option (AccessControl Uid Gid)

inductive Origin
  | file (id : Str)
  | knowledge (id : Str)

/-- The tables and the vector store. A knowledge base keeps its vectors in the collection of its
own id. -/
structure Server (Uid Gid : Type) where
  groups : Uid → List Gid
  notes : Str → Option (NoteRow Uid Gid)
  chats : Str → Option (ChatRow Uid)
  files : Str → Option (FileRow Uid)
  knowledge : Str → Option (KnowledgeRow Uid Gid)
  knowledgeFiles : Str → List Str
  /-- The file is in a channel of the user or in a shared chat. -/
  fileShared : Uid → Str → Bool
  collections : Str → Option (List Doc)
  collections_nil : collections [] = none
  origin : Str → Option Origin
  origin_knowledge : ∀ id, (knowledge id).isSome → origin id = some (.knowledge id)

inductive SourceError
  | attributeError
  | keyError
  /-- The parents of a chat message form a cycle. -/
  | neverEnds
deriving DecidableEq

/-- The settings and the code outside: the loader of web pages and the two searches. -/
structure Retriever (R : Type) where
  bypass : Bool
  fullContext : Bool
  hybridSearch : Bool
  get_content_from_url : Str → Except SourceError (Option Str)
  query_collection_with_hybrid_search : List (Str × Option (List Doc)) → Option (QueryResult R)
  query_collection : List (Str × Option (List Doc)) → Option (QueryResult R)

structure Source (R : Type) where
  source : Item
  document : List (Option Str)
  metadata : List Metadata
  distances : List R
deriving DecidableEq

namespace Retrieval

variable {Uid Gid R : Type} [DecidableEq Uid] [DecidableEq Gid]

/-- The loop of `get_message_list`, from the last message back over its parents. -/
def parents (messages : List (Str × ChatMessage)) : ℕ → List ChatMessage → Option ChatMessage →
    Except SourceError (List ChatMessage)
  | _, message_list, none => .ok message_list
  | 0, _, some _ => .error .neverEnds
  | fuel + 1, message_list, some current =>
    parents messages fuel (current :: message_list)
      (current.parentId.bind fun parent_id =>
        if parent_id.isEmpty then none else messages.lookup parent_id)

def get_message_list (messages : List (Str × ChatMessage)) (message_id : Str) :
    Except SourceError (List ChatMessage) :=
  parents messages (messages.length + 1) [] (messages.lookup message_id)

/-- `"#### {role}\n{content}\n"`, joined by line breaks; `capitalize` is the string method. -/
def message_history (capitalize : Str → Str) (message_list : List ChatMessage) : Str :=
  intercalate ['\n'] (message_list.map fun m =>
    ['#', '#', '#', '#', ' '] ++ capitalize m.role ++ ['\n'] ++ m.content ++ ['\n'])

def single (document : Option Str) (metadata : Metadata) : QueryResult R :=
  ⟨[document], [metadata], []⟩

def resolveText (item : Item) : Option (QueryResult R) × List Str :=
  let ofFile := item.file.map fun file => (single file.content file.fileMeta : QueryResult R)
  let query_result := if item.contextFull then ofFile else none
  match query_result with
  | some result => (some result, [])
  | none =>
    if !item.collection_name.isEmpty then (none, [item.collection_name])
    else match ofFile with
      | some result => (some result, [])
      | none => (some (single item.content [("file_id", item.id), ("name", item.name)]), [])

def resolveNote (s : Server Uid Gid) (user : UserModel Uid) (item : Item) :
    Except SourceError (Option (QueryResult R)) :=
  match item.id.bind s.notes with
  | none => .ok none
  | some note =>
    if permitted s.groups .read user note.user_id note.access_control then
      match note.md with
      | none => .error .attributeError
      | some md => .ok (some (single (some md) [("file_id", item.id), ("name", some note.title)]))
    else .ok none

def resolveChat (capitalize : Str → Str) (s : Server Uid Gid) (user : UserModel Uid)
    (item : Item) : Except SourceError (Option (QueryResult R)) :=
  match item.id.bind s.chats with
  | none => .ok none
  | some chat =>
    if user.isAdmin || chat.user_id = user.id then
      match chat.currentId with
      | none => .ok none
      | some message_id =>
        if chat.messages.isEmpty || message_id.isEmpty then .ok none
        else (get_message_list chat.messages message_id).map fun message_list =>
          some (single (some (message_history capitalize message_list))
            [("file_id", item.id), ("name", some chat.title)])
    else .ok none

def resolveFile (ret : Retriever R) (s : Server Uid Gid) (item : Item) :
    Except SourceError (Option (QueryResult R) × List Str) :=
  if item.contextFull || ret.bypass then
    match item.file with
    | some ⟨some (c :: rest), metadata, _⟩ =>
      .ok (some (single (some (c :: rest))
        ([("file_id", item.id), ("name", item.name)] ++ metadata)), [])
    | _ =>
      match item.id.bind s.files with
      | none => .ok (none, [])
      | some file_object =>
        match file_object.content with
        | none => .error .attributeError
        | some content => .ok (some (single (some content) [("file_id", item.id),
            ("name", some file_object.filename), ("source", some file_object.filename)]), [])
  else
    match item.id with
    | none => .error .keyError
    | some id => .ok (none, [if item.legacy then id else ['f', 'i', 'l', 'e', '-'] ++ id])

def fileDocuments : List (FileRow Uid) → Except SourceError (List (Option Str × Metadata))
  | [] => .ok []
  | file :: rest =>
    match file.content with
    | none => .error .attributeError
    | some content => (fileDocuments rest).map fun documents =>
        (some content, [("file_id", some file.id), ("name", some file.filename),
          ("source", some file.filename)]) :: documents

def get_files_by_id (s : Server Uid Gid) (knowledge_id : Str) : List (FileRow Uid) :=
  (s.knowledgeFiles knowledge_id).filterMap s.files

/-- A knowledge base: its files in full mode, else its collection, or the collections that a
legacy item names. -/
def resolveCollection (ret : Retriever R) (s : Server Uid Gid) (user : UserModel Uid)
    (item : Item) : Except SourceError (Option (QueryResult R) × List Str) :=
  match item.id with
  | none => .ok (none, [])
  | some id =>
    match s.knowledge id with
    | none => .ok (none, [])
    | some knowledge_base =>
      if permitted s.groups .read user knowledge_base.user_id knowledge_base.access_control then
        if item.contextFull || ret.bypass then
          (fileDocuments (get_files_by_id s id)).map fun documents =>
            (some ⟨documents.map Prod.fst, documents.map Prod.snd, []⟩, [])
        else if item.legacy then .ok (none, item.collection_names)
        else .ok (none, [id])
      else .ok (none, [])

def resolve (capitalize : Str → Str) (ret : Retriever R) (s : Server Uid Gid)
    (user : UserModel Uid) (item : Item) :
    Except SourceError (Option (QueryResult R) × List Str) :=
  match item.type with
  | .text => .ok (resolveText item)
  | .note => (resolveNote s user item).map fun result => (result, [])
  | .chat => (resolveChat capitalize s user item).map fun result => (result, [])
  | .url => (ret.get_content_from_url item.url).map fun content =>
      (content.map fun c => single (some c) [("url", some item.url), ("name", some item.url)], [])
  | .file => resolveFile ret s item
  | .collection => resolveCollection ret s user item
  | .other =>
    if !item.docs.isEmpty then
      .ok (some ⟨item.docs.map Doc.content, item.docs.map Doc.metadata, []⟩, [])
    else if !item.collection_name.isEmpty then .ok (none, [item.collection_name])
    else .ok (none, item.collection_names)

def get_all_items_from_collections (collections : List (Str × Option (List Doc))) :
    QueryResult R :=
  let docs := collections.flatMap fun c => if c.1.isEmpty then [] else c.2.getD []
  ⟨docs.map Doc.content, docs.map Doc.metadata, []⟩

def search (ret : Retriever R) (collections : List (Str × Option (List Doc))) :
    Option (QueryResult R) :=
  if ret.fullContext then some (get_all_items_from_collections collections)
  else if ret.hybridSearch then ret.query_collection_with_hybrid_search collections
  else ret.query_collection collections

/-- The loop over the items (the names of a set come in some order), from the collections already
extracted on. -/
def queryItems (capitalize : Str → Str) (ret : Retriever R) (s : Server Uid Gid)
    (user : UserModel Uid) : List Str → List Item → Except SourceError (List (QueryResult R × Item))
  | _, [] => .ok []
  | extracted, item :: rest => do
    let (query_result, collection_names) ← resolve capitalize ret s user item
    if query_result.isNone && !collection_names.isEmpty then
      let names := collection_names.dedup.filter fun n => !extracted.contains n
      if names.isEmpty then queryItems capitalize ret s user extracted rest
      else
        let found := search ret (names.map fun n => (n, s.collections n))
        let later ← queryItems capitalize ret s user (extracted ++ names) rest
        .ok ((found.map fun q => (q, item)).toList ++ later)
    else
      let later ← queryItems capitalize ret s user extracted rest
      .ok ((query_result.map fun q => (q, item)).toList ++ later)

def get_sources_from_items (capitalize : Str → Str) (ret : Retriever R) (s : Server Uid Gid)
    (user : UserModel Uid) (items : List Item) : Except SourceError (List (Source R)) :=
  (queryItems capitalize ret s user [] items).map fun results =>
    results.map fun (q, item) => ⟨item, q.documents, q.metadatas, q.distances⟩

end Retrieval

end CustomAi.OpenWebUI

/-!
## What attached items reveal

Two servers that a user cannot tell apart, and the items for which `get_sources_from_items` gives
the same sources on both, whatever the searches do.
-/

namespace CustomAi.OpenWebUI.Retrieval

open List Option Except

variable {Uid Gid R : Type} [DecidableEq Uid] [DecidableEq Gid]

def mayReadKnowledge (s : Server Uid Gid) (user : UserModel Uid) (id : Str) : Bool :=
  (s.knowledge id).any fun k => permitted s.groups .read user k.user_id k.access_control

/-- The user owns the file, or it is in a readable knowledge base or a shared place. -/
def MayReadFile (s : Server Uid Gid) (user : UserModel Uid) (id : Str) : Prop :=
  user.isAdmin ∨ (∃ file, s.files id = some file ∧ file.user_id = user.id) ∨
    s.fileShared user.id id ∨ ∃ kid, mayReadKnowledge s user kid ∧ id ∈ s.knowledgeFiles kid

def MayReadCollection (s : Server Uid Gid) (user : UserModel Uid) (name : Str) : Prop :=
  match s.origin name with
  | some (.file id) => MayReadFile s user id
  | some (.knowledge id) => mayReadKnowledge s user id
  | none => False

/-- `s` and `t` agree on what the user may read. -/
structure LowEq (user : UserModel Uid) (s t : Server Uid Gid) : Prop where
  groups : s.groups = t.groups
  notes : ∀ id, Rel (fun a b => a.user_id = b.user_id ∧ a.access_control = b.access_control ∧
    (permitted s.groups .read user a.user_id a.access_control → a = b)) (s.notes id) (t.notes id)
  chats : ∀ id, Rel (fun a b => a.user_id = b.user_id ∧
    (user.isAdmin || a.user_id = user.id → a = b)) (s.chats id) (t.chats id)
  files : ∀ id, Rel (fun a b => a.user_id = b.user_id ∧ (MayReadFile s user id → a = b)) (s.files id) (t.files id)
  knowledge : s.knowledge = t.knowledge
  knowledgeFiles : ∀ id, mayReadKnowledge s user id → s.knowledgeFiles id = t.knowledgeFiles id
  collections : ∀ name, ((s.collections name).isSome ↔ (t.collections name).isSome) ∧
    (MayReadCollection s user name → s.collections name = t.collections name)

def uncheckedCollections (ret : Retriever R) (s : Server Uid Gid) (user : UserModel Uid)
    (item : Item) : List Str :=
  match item.type with
  | .text => if (item.contextFull && item.file.isSome) || item.collection_name.isEmpty then []
      else [item.collection_name]
  | .file => if item.contextFull || ret.bypass then []
      else (item.id.map fun id => if item.legacy then id else ['f', 'i', 'l', 'e', '-'] ++ id).toList
  | .collection =>
      if !(item.contextFull || ret.bypass) && item.legacy && item.id.any (mayReadKnowledge s user)
      then item.collection_names else []
  | .other => if !item.docs.isEmpty then []
      else if !item.collection_name.isEmpty then [item.collection_name] else item.collection_names
  | .note | .chat | .url => []

/-- The file that an item without content makes the code read in full mode. -/
def uncheckedFile (ret : Retriever R) (item : Item) : Option Str :=
  if item.type = .file ∧ (item.contextFull || ret.bypass) ∧
      ((item.file.bind FilePart.content).getD []).isEmpty then item.id
  else none

/-- The item makes the code read a file that the user may not. -/
def ReadsHidden (ret : Retriever R) (s : Server Uid Gid) (user : UserModel Uid) (item : Item) : Prop :=
  ∃ id, uncheckedFile ret item = some id ∧ (s.files id).isSome ∧ ¬MayReadFile s user id

/-- The item makes the code search a collection that the user may not. -/
def SearchesHidden (ret : Retriever R) (s : Server Uid Gid) (user : UserModel Uid) (item : Item) : Prop :=
  ∃ name ∈ uncheckedCollections ret s user item, (s.collections name).isSome ∧ ¬MayReadCollection s user name

/-- The item raises an exception that does not come from a file the user may not read. -/
def Raises (capitalize : Str → Str) (ret : Retriever R) (s : Server Uid Gid) (user : UserModel Uid)
    (e : SourceError) (item : Item) : Prop :=
  ¬ReadsHidden ret s user item ∧ resolve capitalize ret s user item = .error e

/-- The retriever with other searches. -/
def searching (ret : Retriever R) (hybrid plain : List (Str × Option (List Doc)) → Option (QueryResult R)) :
    Retriever R :=
  { ret with query_collection_with_hybrid_search := hybrid, query_collection := plain }

/-- No item leads to what the user may not read, or one raises an exception, and those before it
read no file that the user may not or could only raise the same. -/
def Covered (capitalize : Str → Str) (ret : Retriever R) (s : Server Uid Gid) (user : UserModel Uid)
    (items : List Item) : Prop :=
  (∀ item ∈ items, ¬ReadsHidden ret s user item ∧ ¬SearchesHidden ret s user item) ∨
    ∃ pre item post e, items = pre ++ item :: post ∧ Raises capitalize ret s user e item ∧
      (∀ i ∈ pre, ∀ e, ¬Raises capitalize ret s user e i) ∧
      (e = .attributeError ∨ ∀ i ∈ pre, ¬ReadsHidden ret s user i)

variable {capitalize : Str → Str} {ret : Retriever R} {user : UserModel Uid}
  {s t : Server Uid Gid} {item : Item}

lemma optionRel_cases {α : Type} {r : α → α → Prop} {x y : Option α} (h : Rel r x y) :
    (x = none ∧ y = none) ∨ ∃ a b, x = some a ∧ y = some b ∧ r a b := by
  cases h with
  | none => exact .inl ⟨rfl, rfl⟩
  | some hab => exact .inr ⟨_, _, rfl, rfl, hab⟩

section

variable (h : LowEq user s t)
include h

lemma LowEq.collection {name : Str} (hname : (s.collections name).isSome → MayReadCollection s user name) :
    s.collections name = t.collections name := by
  cases hs : s.collections name with
  | some docs => rw [← (h.collections name).2 (hname (by rw [hs]; rfl)), hs]
  | none =>
    have hiff := (h.collections name).1
    rw [hs] at hiff
    exact (Option.not_isSome_iff_eq_none.mp fun ht => Bool.false_ne_true (hiff.mpr ht)).symm

lemma LowEq.file {id : Str} (hid : (s.files id).isSome → MayReadFile s user id) : s.files id = t.files id := by
  rcases optionRel_cases (h.files id) with ⟨hs, ht⟩ | ⟨a, b, hs, ht, hab⟩
  · rw [hs, ht]
  · rw [hs, ht, hab.2 (hid (by rw [hs]; rfl))]

lemma resolveNote_eq (item : Item) : (resolveNote s user item : Except SourceError (Option (QueryResult R))) =
      resolveNote t user item := by
  unfold resolveNote
  cases item.id with
  | none => rfl
  | some id =>
    rw [bind_some, bind_some]
    rcases optionRel_cases (h.notes id) with ⟨hs, ht⟩ | ⟨a, b, hs, ht, howner, haccess, heq⟩
    · rw [hs, ht]
    · rw [hs, ht]
      dsimp only
      rw [← h.groups, ← howner, ← haccess]
      by_cases hp : permitted s.groups .read user a.user_id a.access_control
      · rw [heq hp]
      · rw [if_neg hp, if_neg hp]

lemma resolveChat_eq (item : Item) :
    (resolveChat capitalize s user item : Except SourceError (Option (QueryResult R))) =
      resolveChat capitalize t user item := by
  unfold resolveChat
  cases item.id with
  | none => rfl
  | some id =>
    rw [bind_some, bind_some]
    rcases optionRel_cases (h.chats id) with ⟨hs, ht⟩ | ⟨a, b, hs, ht, howner, heq⟩
    · rw [hs, ht]
    · rw [hs, ht]
      dsimp only
      rw [← howner]
      by_cases hp : (user.isAdmin || decide (a.user_id = user.id)) = true
      · rw [heq hp]
      · rw [if_neg hp, if_neg hp]

lemma resolveFile_eq (hitem : ¬ReadsHidden ret s user item)
    (htype : item.type = .file) : resolveFile ret s item = resolveFile ret t item := by
  unfold resolveFile
  split
  · rename_i hfull
    split
    · rfl
    · rename_i hcontent
      have hempty : ((item.file.bind FilePart.content).getD []).isEmpty = true := by
        cases hf : item.file with
        | none => rfl
        | some file =>
          obtain ⟨content, metadata, fileMeta⟩ := file
          cases content with
          | none => rfl
          | some text =>
            cases text with
            | nil => rfl
            | cons c rest => exact absurd hf (hcontent c rest metadata fileMeta)
      have hunchecked : uncheckedFile ret item = item.id := by
        exact if_pos ⟨htype, hfull, hempty⟩
      cases hid : item.id with
      | none => rfl
      | some id =>
        have hfile := h.file fun hsome => by_contra fun hread => hitem ⟨id, hunchecked.trans hid, hsome, hread⟩
        simp only [bind_some, hfile]
  · rfl

lemma get_files_by_id_eq {id : Str} (hread : mayReadKnowledge s user id) :
    get_files_by_id s id = get_files_by_id t id := by
  unfold get_files_by_id
  rw [← h.knowledgeFiles id hread]
  refine filterMap_congr fun fid hfid => h.file fun _ => ?_
  exact .inr (.inr (.inr ⟨id, hread, hfid⟩))

lemma resolveCollection_eq (item : Item) :
    resolveCollection ret s user item = resolveCollection ret t user item := by
  unfold resolveCollection
  cases item.id with
  | none => rfl
  | some id =>
    dsimp only
    rw [← h.knowledge, ← h.groups]
    cases hk : s.knowledge id with
    | none => rfl
    | some knowledge_base =>
      dsimp only
      split
      · rename_i hp
        have hread : mayReadKnowledge s user id := by
          simpa [mayReadKnowledge, hk] using hp
        rw [get_files_by_id_eq h hread]
      · rfl

lemma resolve_eq (hitem : ¬ReadsHidden ret s user item) :
    resolve capitalize ret s user item = resolve capitalize ret t user item := by
  unfold resolve
  cases htype : item.type with
  | text | url | other => rfl
  | note =>
    rw [resolveNote_eq h item]
  | chat =>
    rw [resolveChat_eq h item]
  | file => exact resolveFile_eq h hitem htype
  | collection => exact resolveCollection_eq h item

end

lemma map_eq_ok {α β : Type} {f : α → β} {x : Except SourceError α} {b : β}
    (h : x.map f = .ok b) : ∃ a, x = .ok a ∧ f a = b := by
  cases x with
  | error e => cases h
  | ok a => exact ⟨a, rfl, ok.inj h⟩

variable {names : List Str}

/-- An item sends the search to the collections it names, or to one that was checked. -/
lemma resolve_collections (capitalize : Str → Str) (ret : Retriever R) (s : Server Uid Gid) (user : UserModel Uid)
    (item : Item) :
    (uncheckedCollections ret s user item ≠ [] →
      resolve capitalize ret s user item = .ok (none, uncheckedCollections ret s user item)) ∧
    (uncheckedCollections ret s user item = [] → ∀ names, resolve capitalize ret s user item = .ok (none, names) →
      ∀ name ∈ names, mayReadKnowledge s user name) := by
  obtain ⟨type, contextFull, legacy, id, name, content, file, url, docs, collection_name, collection_names⟩ := item
  cases type with
  | text =>
    cases file <;> cases contextFull <;> by_cases hname : collection_name.isEmpty <;>
      simp [resolve, resolveText, uncheckedCollections, hname]
  | note | chat | url =>
    refine ⟨fun hne => absurd rfl hne, fun _ names hr name hname => ?_⟩
    obtain ⟨_, _, hb⟩ := map_eq_ok hr
    obtain rfl : [] = names := congrArg Prod.snd hb
    cases hname
  | file =>
    by_cases hfull : (contextFull || ret.bypass) = true
    · refine ⟨fun hne => absurd (if_pos hfull) hne, fun _ names hr name hname => ?_⟩
      simp only [resolve, resolveFile, hfull, if_true] at hr
      split at hr
      · cases hr
      · split at hr
        · obtain rfl := congrArg Prod.snd (ok.inj hr)
          cases hname
        · split at hr
          · cases hr
          · cases hr
    · cases id with
      | none => simp [resolve, resolveFile, uncheckedCollections, hfull]
      | some id => simp [resolve, resolveFile, uncheckedCollections, hfull]
  | collection =>
    cases id with
    | none => simp [resolve, resolveCollection, uncheckedCollections]
    | some id =>
      cases hk : s.knowledge id with
      | none => simp [resolve, resolveCollection, uncheckedCollections, hk, mayReadKnowledge]
      | some k =>
        by_cases hp : permitted s.groups .read user k.user_id k.access_control
        · have hread : mayReadKnowledge s user id := by simpa [mayReadKnowledge, hk] using hp
          by_cases hfull : (contextFull || ret.bypass) = true
          · refine ⟨fun hne => absurd (by simp [uncheckedCollections, hfull]) hne, fun _ names hr name hname => ?_⟩
            simp only [resolve, resolveCollection, hk, hp, hfull, if_true] at hr
            obtain ⟨_, _, hb⟩ := map_eq_ok hr
            cases hb
          · cases legacy <;>
              simp +contextual [resolve, resolveCollection, uncheckedCollections, hk, hp, hfull, hread]
        · simp [resolve, resolveCollection, uncheckedCollections, hk, hp, mayReadKnowledge]
  | other =>
    simp only [resolve, uncheckedCollections]
    split_ifs <;> simp_all

lemma collections_eq (h : LowEq user s t) (hitem : ¬SearchesHidden ret s user item)
    (hr : resolve capitalize ret s user item = .ok (none, names)) :
    ∀ name ∈ names, s.collections name = t.collections name := by
  intro name hname
  obtain ⟨hunchecked, hchecked⟩ := resolve_collections capitalize ret s user item
  refine h.collection fun hsome => by_contra fun hnot => ?_
  by_cases hnil : uncheckedCollections ret s user item = []
  · have hread := hchecked hnil names hr name hname
    have hknown : (s.knowledge name).isSome := by
      cases hk : s.knowledge name with
      | none => simp [mayReadKnowledge, hk] at hread
      | some k => rfl
    rw [MayReadCollection, s.origin_knowledge name hknown] at hnot
    exact hnot hread
  · rw [hunchecked hnil, ok.injEq, Prod.mk.injEq] at hr
    exact hitem ⟨name, hr.2 ▸ hname, hsome, hnot⟩

lemma queryItems_eq (h : LowEq user s t) (items : List Item)
    (hitems : ∀ item ∈ items, ¬ReadsHidden ret s user item ∧ ¬SearchesHidden ret s user item)
    (extracted : List Str) :
    queryItems capitalize ret s user extracted items = queryItems capitalize ret t user extracted items := by
  induction items generalizing extracted with
  | nil => rfl
  | cons item rest ih =>
    obtain ⟨hreads, hsearches⟩ := hitems item mem_cons_self
    have hrest := ih fun i hi => hitems i (mem_cons_of_mem item hi)
    unfold queryItems
    rw [← resolve_eq h hreads]
    cases hr : resolve capitalize ret s user item with
    | error e => rfl
    | ok result =>
      obtain ⟨query_result, names⟩ := result
      rw [ok_bind, ok_bind]
      dsimp only
      by_cases hsearch : (query_result.isNone && !names.isEmpty) = true
      · have hnone : query_result = none := by
          rw [Bool.and_eq_true, isNone_iff_eq_none] at hsearch
          exact hsearch.1
        subst hnone
        have hfound : (names.dedup.filter fun n => !extracted.contains n).map
            (fun n => (n, s.collections n)) = (names.dedup.filter fun n => !extracted.contains n).map
              fun n => (n, t.collections n) := by
          refine map_congr_left fun n hn => ?_
          have hmem := mem_dedup.1 (mem_filter.1 hn).1
          rw [collections_eq h hsearches hr n hmem]
        rw [if_pos hsearch, if_pos hsearch, hfound, hrest, hrest]
      · rw [if_neg hsearch, if_neg hsearch, hrest]

/-! ### Items that raise an exception -/

lemma queryItems_error {e : SourceError} (hr : resolve capitalize ret t user item = .error e) (extracted : List Str)
    (rest : List Item) : queryItems capitalize ret t user extracted (item :: rest) = .error e := by
  rw [queryItems, hr]
  rfl

/-- An exception comes through the items before, whose own exceptions are the same. -/
lemma queryItems_past {e : SourceError} {pre rest : List Item}
    (hpre : ∀ i ∈ pre, ∀ e', resolve capitalize ret t user i = .error e' → e' = e)
    (hrest : ∀ extracted, queryItems capitalize ret t user extracted rest = .error e) (extracted : List Str) :
    queryItems capitalize ret t user extracted (pre ++ rest) = .error e := by
  induction pre generalizing extracted with
  | nil => exact hrest extracted
  | cons i pre ih =>
    have hih := ih fun j hj => hpre j (mem_cons_of_mem i hj)
    cases hr : resolve capitalize ret t user i with
    | error e' => rw [cons_append, queryItems_error hr, hpre i mem_cons_self e' hr]
    | ok result =>
      rw [cons_append, queryItems, hr, ok_bind]
      simp only [hih]
      split_ifs <;> rfl

/-- What a file without a check comes to. -/
def fileAnswer (content : Option Str) (metadata : Metadata) : Except SourceError (Option (QueryResult R) × List Str) :=
  content.elim (.error .attributeError) fun content => .ok (some (single (some content) metadata), [])

lemma ReadsHidden.resolve_eq (hreads : ReadsHidden ret s user item) (h : LowEq user s t) :
    ∃ id file metadata, t.files id = some file ∧ ¬MayReadFile s user id ∧
      resolve capitalize ret t user item = fileAnswer file.content metadata := by
  obtain ⟨id, hid, hsome, hnot⟩ := hreads
  rcases optionRel_cases (h.files id) with ⟨hs, -⟩ | ⟨_, file, -, ht, -⟩
  · rw [hs] at hsome
    cases hsome
  refine ⟨id, file, [("file_id", item.id), ("name", some file.filename), ("source", some file.filename)], ht, hnot, ?_⟩
  unfold uncheckedFile at hid
  split_ifs at hid with hcond
  obtain ⟨htype, hfull, hempty⟩ := hcond
  unfold resolve resolveFile
  simp only [htype, hfull, if_true, hid, bind_some, ht]
  split
  · simp_all
  · cases file.content <;> rfl

lemma queryItems_raises {e : SourceError} {pre : List Item} (h : LowEq user s t)
    (hraises : Raises capitalize ret s user e item)
    (hpre : ∀ i ∈ pre, ∀ e, ¬Raises capitalize ret s user e i)
    (he : ∀ i ∈ pre, ReadsHidden ret s user i → ∀ e', resolve capitalize ret t user i = .error e' → e' = e)
    (post : List Item) (extracted : List Str) :
    queryItems capitalize ret t user extracted (pre ++ item :: post) = .error e := by
  refine queryItems_past (fun i hi e' hr => ?_) (fun extracted => ?_) extracted
  · by_cases hreads : ReadsHidden ret s user i
    · exact he i hi hreads e' hr
    · exact absurd ⟨hreads, (Retrieval.resolve_eq h hreads).trans hr⟩ (hpre i hi e')
  · exact queryItems_error ((Retrieval.resolve_eq h hraises.1).symm.trans hraises.2) extracted post

lemma LowEq.refl (user : UserModel Uid) (s : Server Uid Gid) : LowEq user s s where
  groups := rfl
  notes := fun id => by cases s.notes id <;> constructor; exact ⟨rfl, rfl, fun _ => rfl⟩
  chats := fun id => by cases s.chats id <;> constructor; exact ⟨rfl, fun _ => rfl⟩
  files := fun id => by cases s.files id <;> constructor; exact ⟨rfl, fun _ => rfl⟩
  knowledge := rfl
  knowledgeFiles := fun _ _ => rfl
  collections := fun _ => ⟨Iff.rfl, fun _ => rfl⟩

/-- Covered items reveal nothing. -/
lemma Covered.queryItems_eq {items : List Item} (hcov : Covered capitalize ret s user items) (h : LowEq user s t) :
    queryItems capitalize ret s user [] items = queryItems capitalize ret t user [] items := by
  rcases hcov with hitems | ⟨pre, item, post, e, rfl, hraises, hpre, he⟩
  · exact Retrieval.queryItems_eq h items hitems []
  · have herror : ∀ u, LowEq user s u → queryItems capitalize ret u user [] (pre ++ item :: post) = .error e := by
      refine fun u hu => queryItems_raises hu hraises hpre (fun i hi hreads e' hr => ?_) post []
      rcases he with rfl | hnone
      · obtain ⟨_, file, _, -, -, heq⟩ := hreads.resolve_eq hu
        rw [heq] at hr
        cases hcontent : file.content with
        | none => simpa [fileAnswer, hcontent, eq_comm] using hr
        | some content => simp [fileAnswer, hcontent] at hr
      · exact absurd hreads (hnone i hi)
    rw [herror s (.refl user s), herror t h]

/-! ### What uncovered items reveal -/

open Classical in
/-- The server with other contents behind what the user may not read. -/
noncomputable def refill (s : Server Uid Gid) (user : UserModel Uid) (content : Option Str) (docs : List Doc) :
    Server Uid Gid :=
  { s with
    files := fun id => (s.files id).map fun file =>
      if MayReadFile s user id then file else { file with content := content }
    collections := fun name => (s.collections name).map fun old =>
      if MayReadCollection s user name then old else docs
    collections_nil := by rw [s.collections_nil]; rfl }

variable {content : Option Str} {docs : List Doc}

lemma lowEq_refill : LowEq user s (refill s user content docs) := by
  refine { LowEq.refl user s with files := fun id => ?_, collections := fun name => ⟨?_, fun hread => ?_⟩ }
  · simp only [refill]
    cases s.files id with
    | none => exact .none
    | some file => exact .some ⟨by split_ifs <;> rfl, fun hread => (if_pos hread).symm⟩
  · simp [refill]
  · simp [refill, hread]

lemma ReadsHidden.resolve_refill (hreads : ReadsHidden ret s user item) (capitalize : Str → Str) (content : Option Str)
    (docs : List Doc) :
    ∃ metadata, resolve capitalize ret (refill s user content docs) user item = fileAnswer content metadata := by
  have hlow : LowEq user s (refill s user content docs) := lowEq_refill
  obtain ⟨id, file, metadata, hfile, hnot, hr⟩ := hreads.resolve_eq hlow
  obtain ⟨row, -, hrow⟩ := Option.map_eq_some_iff.mp hfile
  rw [← hrow, if_neg hnot] at hr
  exact ⟨metadata, hr⟩

lemma queryItems_ok {items : List Item} (h : ∀ item ∈ items, ∃ r, resolve capitalize ret t user item = .ok r)
    (extracted : List Str) : ∃ l, queryItems capitalize ret t user extracted items = .ok l := by
  induction items generalizing extracted with
  | nil => exact ⟨[], rfl⟩
  | cons item rest ih =>
    obtain ⟨r, hr⟩ := h item mem_cons_self
    have hrest := ih fun i hi => h i (mem_cons_of_mem item hi)
    rw [queryItems, hr, ok_bind]
    dsimp only
    split_ifs
    · exact hrest extracted
    all_goals
      obtain ⟨l, hl⟩ := hrest _
      exact ⟨_, by rw [hl, ok_bind]⟩

/-- The server with this letter behind everything the user may not read. -/
noncomputable def marked (s : Server Uid Gid) (user : UserModel Uid) (c : Char) : Server Uid Gid :=
  refill s user (some [c]) [⟨some [c], []⟩]

lemma get_all_marked {names : List Str}
    (h : (get_all_items_from_collections (names.map fun n => (n, (marked s user 'a').collections n)) : QueryResult R) =
      get_all_items_from_collections (names.map fun n => (n, (marked s user 'b').collections n))) :
    ∀ name ∈ names, (s.collections name).isSome → MayReadCollection s user name := by
  have hdocs := congrArg QueryResult.documents h
  simp only [get_all_items_from_collections, flatMap_map, map_flatMap] at hdocs
  clear h
  induction names with
  | nil => simp
  | cons n names ih =>
    rw [flatMap_cons, flatMap_cons] at hdocs
    by_cases hread : MayReadCollection s user n
    · have hn : ∀ c, (marked s user c).collections n = s.collections n := fun c => by simp [marked, refill, hread]
      rw [hn, hn] at hdocs
      exact forall_mem_cons.mpr ⟨fun _ => hread, ih (append_cancel_left hdocs)⟩
    · have hn : ∀ c, (marked s user c).collections n = (s.collections n).map fun _ => [⟨some [c], []⟩] := fun c => by
        simp [marked, refill, hread]
      rw [hn, hn] at hdocs
      cases hs : s.collections n with
      | none =>
        rw [hs] at hdocs
        exact forall_mem_cons.mpr ⟨fun hsome => by simp [hs] at hsome, ih (append_cancel_left hdocs)⟩
      | some docs =>
        have hne : n ≠ [] := by
          rintro rfl
          rw [s.collections_nil] at hs
          cases hs
        simp [hs, hne] at hdocs

/-- Where no item raises an exception, equal results show that the code comes to nothing hidden. -/
lemma nothing_hidden (hsearch : ∀ c, search ret c = some (get_all_items_from_collections c)) {items : List Item}
    (hok : ∀ c, ∀ item ∈ items, ∃ r, resolve capitalize ret (marked s user c) user item = .ok r)
    (hraises : ∀ item ∈ items, ∀ e, ¬Raises capitalize ret s user e item) (extracted : List Str)
    (h : queryItems capitalize ret (marked s user 'a') user extracted items =
      queryItems capitalize ret (marked s user 'b') user extracted items) :
    ∀ item ∈ items, ¬ReadsHidden ret s user item ∧ ∀ name ∈ uncheckedCollections ret s user item,
      (s.collections name).isSome → MayReadCollection s user name ∨ name ∈ extracted := by
  induction items generalizing extracted with
  | nil => simp
  | cons item rest ih =>
    have hrest := ih (fun c i hi => hok c i (mem_cons_of_mem item hi)) fun i hi => hraises i (mem_cons_of_mem item hi)
    have hok' : ∀ c ex, ∃ l, queryItems capitalize ret (marked s user c) user ex rest = .ok l := fun c =>
      queryItems_ok fun i hi => hok c i (mem_cons_of_mem item hi)
    by_cases hreads : ReadsHidden ret s user item
    · have hr : ∀ c, ∃ metadata, resolve capitalize ret (marked s user c) user item = fileAnswer (some [c]) metadata :=
        fun c => hreads.resolve_refill capitalize (some [c]) [⟨some [c], []⟩]
      obtain ⟨m, hr₁⟩ := hr 'a'
      obtain ⟨m', hr₂⟩ := hr 'b'
      obtain ⟨l, hl⟩ := hok' 'a' extracted
      obtain ⟨l', hl'⟩ := hok' 'b' extracted
      rw [queryItems, queryItems, hr₁, hr₂] at h
      simp [hl, hl', fileAnswer, single, ok_bind] at h
    · have hsame : ∀ c, resolve capitalize ret (marked s user c) user item = resolve capitalize ret s user item :=
        fun c => (resolve_eq lowEq_refill hreads).symm
      cases hr : resolve capitalize ret s user item with
      | error e => exact absurd ⟨hreads, hr⟩ (hraises item mem_cons_self e)
      | ok result =>
        obtain ⟨q, names⟩ := result
        have hunchecked := (resolve_collections capitalize ret s user item).1
        rw [hr, ok.injEq, Prod.mk.injEq] at hunchecked
        rw [queryItems, queryItems, hsame, hsame, hr, ok_bind, ok_bind] at h
        dsimp only at h
        by_cases hcomes : (q.isNone && !names.isEmpty) = true
        · rw [if_pos hcomes, if_pos hcomes] at h
          obtain ⟨hall, hlater⟩ : (∀ name ∈ names.dedup.filter fun n => !extracted.contains n,
              (s.collections name).isSome → MayReadCollection s user name) ∧
              ∀ i ∈ rest, ¬ReadsHidden ret s user i ∧ ∀ name ∈ uncheckedCollections ret s user i,
                (s.collections name).isSome → MayReadCollection s user name ∨
                  name ∈ extracted ++ names.dedup.filter fun n => !extracted.contains n := by
            split_ifs at h with hnil
            · rw [List.isEmpty_iff] at hnil
              rw [hnil, append_nil]
              exact ⟨by simp, hrest extracted h⟩
            · obtain ⟨l, hl⟩ := hok' 'a' (extracted ++ names.dedup.filter fun n => !extracted.contains n)
              obtain ⟨l', hl'⟩ := hok' 'b' (extracted ++ names.dedup.filter fun n => !extracted.contains n)
              rw [hl, hl', ok_bind, ok_bind, ok.injEq, hsearch, hsearch] at h
              obtain ⟨hhead, rfl⟩ := cons.inj h
              exact ⟨get_all_marked (Prod.mk.inj hhead).1, hrest _ (hl.trans hl'.symm)⟩
          refine forall_mem_cons.mpr ⟨⟨hreads, fun name hname hsome => ?_⟩, fun i hi => ⟨(hlater i hi).1, ?_⟩⟩
          · obtain ⟨-, rfl⟩ := hunchecked (ne_nil_of_mem hname)
            exact or_iff_not_imp_right.mpr fun hnew => hall name (by simp [hname, hnew]) hsome
          · intro name hname hsome
            refine ((hlater i hi).2 name hname hsome).elim .inl fun hmem => ?_
            exact (mem_append.mp hmem).elim .inr fun hfresh => .inl (hall name hfresh hsome)
        · rw [if_neg hcomes, if_neg hcomes] at h
          obtain ⟨l, hl⟩ := hok' 'a' extracted
          obtain ⟨l', hl'⟩ := hok' 'b' extracted
          rw [hl, hl', ok_bind, ok_bind, ok.injEq] at h
          refine forall_mem_cons.mpr ⟨⟨hreads, fun name hname => ?_⟩, hrest extracted ?_⟩
          · obtain ⟨rfl, rfl⟩ := hunchecked (ne_nil_of_mem hname)
            simp [ne_nil_of_mem hname] at hcomes
          · rw [hl, hl', append_cancel_left h]

lemma covered_of_eq (hsearch : ∀ c, search ret c = some (get_all_items_from_collections c)) {items : List Item}
    (h : ∀ t, LowEq user s t → get_sources_from_items capitalize ret s user items =
      get_sources_from_items capitalize ret t user items) : Covered capitalize ret s user items := by
  classical
  by_cases hraise : ∃ item ∈ items, decide (∃ e, Raises capitalize ret s user e item) = true
  · obtain ⟨item, hfind⟩ := Option.isSome_iff_exists.mp (find?_isSome.mpr hraise)
    obtain ⟨hitem, pre, post, rfl, hpre⟩ := find?_eq_some_iff_append.mp hfind
    obtain ⟨e, he⟩ := of_decide_eq_true hitem
    have hpre' : ∀ i ∈ pre, ∀ e, ¬Raises capitalize ret s user e i := by simpa using hpre
    refine .inr ⟨pre, item, post, e, rfl, he, hpre', or_iff_not_imp_left.mpr fun hne i hi hreads => hne ?_⟩
    -- with a text in the hidden files the item raises, without data a hidden file does
    have herror : queryItems capitalize ret (marked s user 'a') user [] (pre ++ item :: post) = .error e := by
      refine queryItems_raises lowEq_refill he hpre' (fun j hj hreads e' hr => ?_) post []
      obtain ⟨m, hm⟩ := hreads.resolve_refill capitalize (some ['a']) [⟨some ['a'], []⟩]
      cases hm.symm.trans hr
    have hattr : queryItems capitalize ret (refill s user none []) user [] (pre ++ item :: post) =
        .error .attributeError := by
      obtain ⟨pre₁, pre₂, rfl⟩ := append_of_mem hi
      rw [append_assoc, cons_append]
      refine queryItems_past (fun j hj e' hr => ?_) (fun extracted => queryItems_error ?_ extracted _) []
      · by_cases hj' : ReadsHidden ret s user j
        · obtain ⟨m, hm⟩ := hj'.resolve_refill capitalize none []
          exact (error.inj (hm.symm.trans hr)).symm
        · exact absurd ⟨hj', (resolve_eq lowEq_refill hj').trans hr⟩ (hpre' j (mem_append_left _ hj) e')
      · obtain ⟨_, hm⟩ := hreads.resolve_refill capitalize none []
        exact hm
    have heq := (h (marked s user 'a') lowEq_refill).symm.trans (h (refill s user none []) lowEq_refill)
    rw [get_sources_from_items, get_sources_from_items, herror, hattr] at heq
    exact error.inj heq
  · have hok : ∀ item ∈ items, ∀ e, ¬Raises capitalize ret s user e item := fun item hitem e hr =>
      hraise ⟨item, hitem, decide_eq_true ⟨e, hr⟩⟩
    have hresolve : ∀ c, ∀ item ∈ items, ∃ r, resolve capitalize ret (marked s user c) user item = .ok r := by
      intro c item hitem
      by_cases hreads : ReadsHidden ret s user item
      · obtain ⟨m, hm⟩ := hreads.resolve_refill capitalize (some [c]) [⟨some [c], []⟩]
        exact ⟨_, hm⟩
      · cases hr : resolve capitalize ret s user item with
        | error e => exact absurd ⟨hreads, hr⟩ (hok item hitem e)
        | ok r => exact ⟨r, (resolve_eq lowEq_refill hreads).symm.trans hr⟩
    have heq := (h (marked s user 'a') lowEq_refill).symm.trans (h (marked s user 'b') lowEq_refill)
    have hinj : Function.Injective fun p : QueryResult R × Item =>
        (⟨p.2, p.1.documents, p.1.metadatas, p.1.distances⟩ : Source R) := by
      rintro ⟨⟨_, _, _⟩, _⟩ ⟨⟨_, _, _⟩, _⟩ hp
      simpa [and_comm, and_assoc] using hp
    obtain ⟨l, hl⟩ := queryItems_ok (hresolve 'a') []
    obtain ⟨l', hl'⟩ := queryItems_ok (hresolve 'b') []
    rw [get_sources_from_items, get_sources_from_items, hl, hl'] at heq
    rw [map_injective_iff.mpr hinj (ok.inj heq)] at hl
    refine .inl fun item hitem => ?_
    obtain ⟨hreads, hnames⟩ := nothing_hidden hsearch hresolve hok [] (hl.trans hl'.symm) item hitem
    refine ⟨hreads, ?_⟩
    rintro ⟨name, hname, hsome, hnot⟩
    exact (hnames name hname hsome).elim hnot not_mem_nil

def oneFile (content : Str) : Server ℕ ℕ where
  groups := fun _ => []
  notes := fun _ => none
  chats := fun _ => none
  files := fun id => if id = ['f'] then some ⟨['f'], 1, ['f'], some content⟩ else none
  knowledge := fun _ => none
  knowledgeFiles := fun _ => []
  fileShared := fun _ _ => false
  collections := fun _ => none
  collections_nil := rfl
  origin := fun _ => none
  origin_knowledge := fun _ h => by cases h

def noSearch : Retriever ℕ := ⟨false, true, false, fun _ => .ok none, fun _ => none, fun _ => none⟩

def fileItem : Item :=
  ⟨.file, true, false, some ['f'], none, none, none, [], [], [], []⟩

lemma oneFile_lowEq {user : UserModel ℕ} {c c' : Str}
    (h : c = c' ∨ ¬ MayReadFile (oneFile c) user ['f']) : LowEq user (oneFile c) (oneFile c') where
  groups := rfl
  notes := fun _ => .none
  chats := fun _ => .none
  files := fun id => by
    by_cases hid : id = ['f']
    · subst hid
      refine .some ⟨rfl, fun hread => ?_⟩
      rcases h with rfl | hnot
      · rfl
      · exact absurd hread hnot
    · simp only [oneFile, hid, if_false]
      exact .none
  knowledge := rfl
  knowledgeFiles := fun _ _ => rfl
  collections := fun _ => ⟨Iff.rfl, fun _ => rfl⟩

lemma not_mayReadFile_oneFile (c : Str) : ¬ MayReadFile (oneFile c) ⟨2, false⟩ ['f'] := by
  rintro (h | ⟨file, hfile, howner⟩ | h | ⟨kid, hkid, _⟩)
  · cases h
  · cases hfile
    cases howner
  · cases h
  · cases hkid

end CustomAi.OpenWebUI.Retrieval
