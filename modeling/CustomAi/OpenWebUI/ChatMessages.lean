import CustomAi.Lib.Dict
import CustomAi.Lib.ReadModifyWrite
import CustomAi.OpenWebUI.Sanitize

/-!
# Messages of a chat

The calls that change the messages or the title of a stored chat.
-/

namespace CustomAi.OpenWebUI.ChatMessages

open CustomAi.Lib List Option

variable {M A : Type} [DecidableEq M]

structure Message (A : Type) where
  fields : Dict String (Json A)
  statusHistory : Option (List (Json A))
  files : Option (List (Json A))

structure History (M A : Type) where
  messages : Option (Dict M (Message A))
  currentId : Option M
  others : Dict String (Json A)

structure ChatBody (M A : Type) where
  title : Option Text
  history : Option (History M A)
  others : Dict String (Json A)

structure ChatRow (M A : Type) where
  title : Text
  chat : ChatBody M A

def sanitizeFields (fields : Dict String (Json A)) : Dict String (Json A) :=
  fields.mapValues fun _ value => value.sanitize

def Message.sanitize (message : Message A) : Message A :=
  { fields := sanitizeFields message.fields
    statusHistory := message.statusHistory.map Json.sanitizeItems
    files := message.files.map Json.sanitizeItems }

def History.sanitize (history : History M A) : History M A :=
  { messages := history.messages.map fun messages => messages.mapValues fun _ m => m.sanitize
    currentId := history.currentId
    others := sanitizeFields history.others }

def ChatBody.sanitize (chat : ChatBody M A) : ChatBody M A :=
  { title := chat.title.map sanitize_text_for_db
    history := chat.history.map History.sanitize
    others := sanitizeFields chat.others }

/-- The row that `_sanitize_chat_row` leaves. -/
def ChatRow.sanitize (row : ChatRow M A) : ChatRow M A :=
  { title := sanitize_text_for_db row.title, chat := row.chat.sanitize }

def cleanFields (fields : Dict String (Json A)) : Bool :=
  fields.values.all Json.isClean

def Message.isClean (message : Message A) : Bool :=
  cleanFields message.fields && message.statusHistory.all Json.isCleanItems &&
    message.files.all Json.isCleanItems

def History.isClean (history : History M A) : Bool :=
  history.messages.all (fun messages => messages.values.all Message.isClean) &&
    cleanFields history.others

def ChatBody.isClean (chat : ChatBody M A) : Bool :=
  chat.title.all (fun t => t.all storable) && chat.history.all History.isClean &&
    cleanFields chat.others

/-- `_sanitize_chat_row` has nothing to change. -/
def ChatRow.isClean (row : ChatRow M A) : Bool :=
  row.title.all storable && row.chat.isClean

/-- `{**old, **new}` -/
def Message.merge (old new : Message A) : Message A :=
  { fields := old.fields.overlay new.fields
    statusHistory := new.statusHistory.or old.statusHistory
    files := new.files.or old.files }

def Message.mergeInto (message : Message A) : Option (Message A) → Message A
  | some old => old.merge message
  | none => message

/-- A text under `content` is sanitized before the merge. -/
def Message.sanitizeContent (message : Message A) : Message A :=
  match message.fields.get? "content" with
  | some (.text t) =>
    { message with fields := message.fields.set "content" (.text (sanitize_text_for_db t)) }
  | _ => message

/-- `chat.get("history", {})` -/
def ChatBody.getHistory (chat : ChatBody M A) : History M A :=
  chat.history.getD { messages := none, currentId := none, others := .empty }

/-- `None` where `history["messages"]` raises. -/
def upsert_message (message_id : M) (message : Message A) (chat : ChatBody M A) :
    Option (ChatBody M A) :=
  let message := message.sanitizeContent
  let history := chat.getHistory
  history.messages.map fun messages =>
    let merged := message.mergeInto (messages.get? message_id)
    let history :=
      { history with
        messages := some (messages.set message_id merged)
        currentId := some message_id }
    { chat with history := some history }

def changeMessage (message_id : M) (change : Message A → Message A) (chat : ChatBody M A) :
    ChatBody M A :=
  let history := chat.getHistory
  let messages := history.messages.map fun messages =>
    match messages.get? message_id with
    | some old => messages.set message_id (change old)
    | none => messages
  { chat with history := some { history with messages := messages } }

def add_message_status (message_id : M) (status : Json A) : ChatBody M A → ChatBody M A :=
  changeMessage message_id fun message =>
    { message with statusHistory := some (message.statusHistory.getD [] ++ [status]) }

def add_message_files (message_id : M) (files : List (Json A)) : ChatBody M A → ChatBody M A :=
  changeMessage message_id fun message =>
    { message with files := some (message.files.getD [] ++ files) }

def update_chat_title (title : Text) (chat : ChatBody M A) : ChatBody M A :=
  { chat with title := some title }

def newChatTitle : Text :=
  "New Chat".toList.map Char.toNat

/-- The row that `update_chat_by_id` commits. -/
def update_chat_by_id (chat : ChatBody M A) : ChatRow M A :=
  { title := (chat.title.map sanitize_text_for_db).getD newChatTitle
    chat := chat.sanitize }

inductive Op (M A : Type)
  | upsert (message_id : M) (message : Message A)
  | addStatus (message_id : M) (status : Json A)
  | addFiles (message_id : M) (files : List (Json A))
  | setTitle (title : Text)

def Op.modify (row : ChatRow M A) : Op M A → Option (ChatRow M A)
  | upsert message_id message =>
    (upsert_message message_id message row.chat).map update_chat_by_id
  | addStatus message_id status =>
    some (update_chat_by_id (add_message_status message_id status row.chat))
  | addFiles message_id files =>
    some (update_chat_by_id (add_message_files message_id files row.chat))
  | setTitle title => some (update_chat_by_id (update_chat_title title row.chat))

/-- The calls `ops` on one stored chat. -/
def chatCalls {C : Type} (ops : C → Op M A) : ReadModifyWrite.Calls C (ChatRow M A) :=
  { clean := ChatRow.isClean
    repair := ChatRow.sanitize
    modify := fun c row => (ops c).modify row }

def ChatBody.message? (chat : ChatBody M A) (message_id : M) : Option (Message A) :=
  (chat.history.bind History.messages).bind fun messages => messages.get? message_id

def ChatBody.hasMessages (chat : ChatBody M A) : Bool :=
  (chat.history.bind History.messages).isSome

def ChatRow.message? (row : ChatRow M A) (message_id : M) : Option (Message A) :=
  row.chat.message? message_id

end CustomAi.OpenWebUI.ChatMessages

/-!
## Concurrent calls on a chat

What each call does to one message of the chat, and what is left of all calls after a run in which
every call writes over the chat that it has read.
-/

namespace CustomAi.OpenWebUI.ChatMessages

open CustomAi.Lib CustomAi.Lib.ReadModifyWrite List Option

variable {M A : Type} [DecidableEq M] {row row' init : ChatRow M A} {chat chat' : ChatBody M A}
  {message_id : M} {message : Message A} {op : Op M A} {log : List (Op M A)}

/-- What a call does to the message `message_id`. -/
def Op.onMessage (message_id : M) (old : Option (Message A)) : Op M A → Option (Message A)
  | upsert id message =>
    if message_id = id then some (message.sanitizeContent.mergeInto old) else old
  | addStatus id status =>
    if message_id = id then
      old.map fun m => { m with statusHistory := some (m.statusHistory.getD [] ++ [status]) }
    else old
  | addFiles id files =>
    if message_id = id then old.map fun m => { m with files := some (m.files.getD [] ++ files) }
    else old
  | setTitle _ => old

lemma message?_sanitize : chat.sanitize.message? message_id = (chat.message? message_id).map Message.sanitize := by
  unfold ChatBody.message? ChatBody.sanitize
  cases chat.history with
  | none => rfl
  | some history =>
    obtain ⟨messages, currentId, others⟩ := history
    cases messages with
    | none => rfl
    | some messages => simp [History.sanitize, Dict.get?_mapValues]

omit [DecidableEq M] in
lemma hasMessages_sanitize : chat.sanitize.hasMessages = chat.hasMessages := by
  unfold ChatBody.hasMessages ChatBody.sanitize
  cases chat.history with
  | none => rfl
  | some history => simp [History.sanitize]

lemma message?_upsert {new : Message A} (h : upsert_message message_id new chat = some chat')
    (id : M) : chat'.message? id = (Op.upsert message_id new).onMessage id (chat.message? id) ∧
      chat'.hasMessages = true ∧ chat'.title = chat.title := by
  unfold upsert_message at h
  rw [map_eq_some_iff] at h
  obtain ⟨messages, hmessages, rfl⟩ := h
  have hmessages' : chat.history.bind History.messages = some messages := by
    unfold ChatBody.getHistory at hmessages
    cases hh : chat.history with
    | none =>
      rw [hh] at hmessages
      cases hmessages
    | some history =>
      rw [hh] at hmessages
      exact hmessages
  refine ⟨?_, rfl, rfl⟩
  have hget : chat.message? id = messages.get? id := by
    rw [ChatBody.message?, hmessages', bind_some]
  rw [hget]
  by_cases hid : id = message_id
  · subst hid
    simp [ChatBody.message?, Op.onMessage]
  · simp [ChatBody.message?, Op.onMessage, Dict.get?_set, hid]

lemma isSome_upsert (message_id : M) (new : Message A) (h : chat.hasMessages = true) :
    ∃ chat', upsert_message message_id new chat = some chat' := by
  unfold ChatBody.hasMessages at h
  cases hh : chat.history with
  | none => simp [hh] at h
  | some history =>
    rw [hh, bind_some, isSome_iff_exists] at h
    obtain ⟨messages, hmessages⟩ := h
    simp [upsert_message, ChatBody.getHistory, hh, hmessages]

variable (field : ListField) (old : Option (Message A)) (change : Message A → Message A)
  (key : String)

lemma message?_changeMessage (id : M) : (changeMessage message_id change chat).message? id =
      if id = message_id then (chat.message? id).map change else chat.message? id := by
  unfold changeMessage ChatBody.message? ChatBody.getHistory
  cases chat.history with
  | none => simp
  | some history =>
    obtain ⟨messages, currentId, others⟩ := history
    cases messages with
    | none => simp
    | some messages =>
      simp only [getD_some, map_some, bind_some]
      cases hget : messages.get? message_id with
      | none =>
        by_cases hid : id = message_id
        · simp [hid, hget]
        · simp [hid]
      | some old =>
        by_cases hid : id = message_id
        · simp [hid, hget]
        · simp [hid, Dict.get?_set]

lemma hasMessages_changeMessage : (changeMessage message_id change chat).hasMessages = chat.hasMessages := by
  unfold changeMessage ChatBody.hasMessages ChatBody.getHistory
  cases chat.history with
  | none => rfl
  | some history => simp

def Op.onTitle (old : Option Text) : Op M A → Option Text
  | setTitle title => some title
  | upsert _ _ | addStatus _ _ | addFiles _ _ => old

/-- Each call changes the messages as `Op.onMessage` says and stores a sanitized chat. -/
lemma modify_spec (h : row.chat.hasMessages = true) (op : Op M A) :
    ∃ chat', op.modify row = some (update_chat_by_id chat') ∧ chat'.hasMessages = true ∧
      chat'.title = op.onTitle row.chat.title ∧ ∀ id, chat'.message? id = op.onMessage id (row.message? id) := by
  cases op with
  | upsert message_id new =>
    obtain ⟨chat', hchat'⟩ := isSome_upsert message_id new h
    refine ⟨chat', ?_, ?_, ?_, fun id => (message?_upsert hchat' id).1⟩
    · rw [Op.modify, hchat', map_some]
    · exact (message?_upsert hchat' message_id).2.1
    · exact (message?_upsert hchat' message_id).2.2
  | addStatus message_id status =>
    refine ⟨_, rfl, (hasMessages_changeMessage _).trans h, rfl, fun id => ?_⟩
    exact message?_changeMessage _ id
  | addFiles message_id files =>
    refine ⟨_, rfl, (hasMessages_changeMessage _).trans h, rfl, fun id => ?_⟩
    exact message?_changeMessage _ id
  | setTitle title => exact ⟨_, rfl, h, rfl, fun _ => rfl⟩

/-- The calls `upsert` to the message. -/
def Op.upserts (message_id : M) : Op M A → Bool
  | upsert id _ => message_id = id
  | addStatus _ _ | addFiles _ _ | setTitle _ => false

def lastField (message_id : M) (key : String) (log : List (Op M A)) : Option (Json A) :=
  log.foldl (fun value op => match op with
    | .upsert id message => if message_id = id then (message.fields.get? key).or value else value
    | .addStatus _ _ | .addFiles _ _ | .setTitle _ => value) none

inductive ListField
  | statusHistory
  | files

def ListField.get : ListField → Message A → Option (List (Json A))
  | statusHistory, message => message.statusHistory
  | files, message => message.files

def ListField.added (message_id : M) : ListField → Op M A → List (Json A)
  | statusHistory, .addStatus id status => if message_id = id then [status] else []
  | files, .addFiles id new => if message_id = id then new else []
  | _, _ => []

def ListField.given (message_id : M) (field : ListField) : Op M A → Option (List (Json A))
  | .upsert id message => if message_id = id then field.get message else none
  | .addStatus _ _ | .addFiles _ _ | .setTitle _ => none

/-- The list of a message after one more call, which appends to it or replaces it. -/
def ListField.step (message_id : M) (field : ListField) (state : Bool × List (Json A))
    (op : Op M A) : Bool × List (Json A) :=
  (state.1 || op.upserts message_id,
    (field.given message_id op).getD state.2 ++ if state.1 then field.added message_id op else [])

def ListField.items (field : ListField) (message : Option (Message A)) : List (Json A) :=
  (message.bind field.get).getD []

/-- The list of the message after the calls of `log`. -/
def ListField.after (message_id : M) (field : ListField) (old : Option (Message A))
    (log : List (Op M A)) : Bool × List (Json A) :=
  log.foldl (field.step message_id) (old.isSome, field.items old)

def lastTitle (log : List (Op M A)) : Option Text :=
  log.foldl (fun title op => op.onTitle title) none

/-- Nothing that the calls of `log` wrote is lost. Texts are stored sanitized. -/
structure Kept (init row : ChatRow M A) (log : List (Op M A)) : Prop where
  /-- Every upserted message is present. -/
  present : ∀ id, (row.message? id).isSome = ((init.message? id).isSome || log.any (Op.upserts id))
  /-- Its fields are the merged fields of the upserts. -/
  field : ∀ id key value, lastField id key log = some value →
    (row.message? id).bind (fun m => m.fields.get? key) = some value.sanitize
  /-- Every status and every file that was added to an existing message is in its list, once. -/
  list : log ≠ [] → ∀ (field : ListField) id,
    field.items (row.message? id) = (field.after id (init.message? id) log).2.map Json.sanitize
  title : ∀ title, lastTitle log = some title →
    row.title = sanitize_text_for_db title ∧ row.chat.title = some (sanitize_text_for_db title)

lemma isSome_onMessage : (Op.onMessage message_id old op).isSome = (old.isSome || op.upserts message_id) := by
  cases op with
  | upsert id message =>
    by_cases hid : message_id = id
    · simp [Op.onMessage, Op.upserts, hid]
    · simp [Op.onMessage, Op.upserts, hid]
  | addStatus id status => by_cases hid : message_id = id <;> simp [Op.onMessage, Op.upserts, hid]
  | addFiles id files => by_cases hid : message_id = id <;> simp [Op.onMessage, Op.upserts, hid]
  | setTitle title => simp [Op.onMessage, Op.upserts]

omit [DecidableEq M] in
lemma sanitizeContent_field (message : Message A) (key : String) :
    (message.sanitizeContent.fields.get? key).map Json.sanitize = (message.fields.get? key).map Json.sanitize := by
  unfold Message.sanitizeContent
  split
  · rename_i t ht
    by_cases hkey : key = "content"
    · subst hkey
      rw [Dict.get?_set_self, ht, map_some, map_some, Json.sanitize, Json.sanitize, sanitize_text_idem]
    · rw [Dict.get?_set_of_ne _ _ hkey]
  · rfl

omit [DecidableEq M] in
lemma get_sanitizeContent (message : Message A) : field.get message.sanitizeContent = field.get message := by
  unfold Message.sanitizeContent
  cases field <;> split <;> rfl

omit [DecidableEq M] in
lemma items_sanitize : field.items (old.map Message.sanitize) = (field.items old).map Json.sanitize := by
  cases old with
  | none => rfl
  | some message =>
    have hget : field.get message.sanitize = (field.get message).map Json.sanitizeItems := by
      cases field <;> rfl
    simp only [ListField.items, map_some, bind_some, hget]
    cases field.get message with
    | none => rfl
    | some items => simp [Json.sanitizeItems_eq_map]

lemma items_onMessage : field.items (Op.onMessage message_id old op) =
      (field.step message_id (old.isSome, field.items old) op).2 := by
  cases op with
  | upsert id message =>
    by_cases hid : message_id = id
    · cases old with
      | none =>
        simp [Op.onMessage, ListField.step, ListField.given, ListField.items, hid,
          Message.mergeInto, get_sanitizeContent]
      | some old =>
        have hget : field.get (old.merge message.sanitizeContent) = (field.get message).or (field.get old) := by
          rw [← get_sanitizeContent field message]
          cases field <;> rfl
        have hadded : field.added message_id (.upsert id message) = [] := by cases field <;> rfl
        simp only [Op.onMessage, ListField.step, ListField.given, ListField.items, hid,
          Message.mergeInto, if_true, bind_some, hget, isSome_some]
        rw [← hid] at hadded ⊢
        rw [hadded]
        cases field.get message <;> simp
    · have hadded : field.added message_id (.upsert id message) = [] := by cases field <;> rfl
      simp [Op.onMessage, ListField.step, ListField.given, hid, hadded]
  | addStatus id status =>
    by_cases hid : message_id = id
    · cases old <;> cases field <;>
        simp [Op.onMessage, ListField.step, ListField.given, ListField.added, ListField.items, ListField.get, hid]
    · cases field <;> simp [Op.onMessage, ListField.step, ListField.given, ListField.added, hid]
  | addFiles id files =>
    by_cases hid : message_id = id
    · cases old <;> cases field <;>
        simp [Op.onMessage, ListField.step, ListField.given, ListField.added, ListField.items, ListField.get, hid]
    · cases field <;> simp [Op.onMessage, ListField.step, ListField.given, ListField.added, hid]
  | setTitle title =>
    cases field <;> simp [Op.onMessage, ListField.step, ListField.given, ListField.added]

lemma step_sanitize (present : Bool) {l l' : List (Json A)} (h : l.map Json.sanitize = l'.map Json.sanitize) :
    (field.step message_id (present, l) op).2.map Json.sanitize =
      (field.step message_id (present, l') op).2.map Json.sanitize := by
  simp only [ListField.step, map_append]
  cases field.given message_id op with
  | none => rw [getD_none, getD_none, h]
  | some items => rfl

lemma after_fst : (field.after message_id old log).1 = (old.isSome || log.any (Op.upserts message_id)) := by
  unfold ListField.after
  induction log using reverseRecOn with
  | nil => simp
  | append_singleton log op ih =>
    rw [any_append, ← Bool.or_assoc, ← ih]
    simp [ListField.step]

lemma after_concat : field.after message_id old (log ++ [op]) =
      field.step message_id (field.after message_id old log) op :=
  foldl_concat ..

lemma lastField_concat : lastField message_id key (log ++ [op]) = match op with
      | .upsert id message =>
        if message_id = id then (message.fields.get? key).or (lastField message_id key log)
        else lastField message_id key log
      | .addStatus _ _ | .addFiles _ _ | .setTitle _ => lastField message_id key log :=
  foldl_concat ..

lemma field_onMessage {key : String} {value : Json A} (hold : ∀ value, lastField message_id key log = some value →
      old.bind (fun m => m.fields.get? key) = some value.sanitize)
    (h : lastField message_id key (log ++ [op]) = some value) :
    ((Op.onMessage message_id old op).bind fun m => m.fields.get? key).map Json.sanitize = some value.sanitize := by
  rw [lastField_concat] at h
  have hkeep : lastField message_id key log = some value →
      (old.bind fun m => m.fields.get? key).map Json.sanitize = some value.sanitize := by
    intro hvalue
    rw [hold value hvalue, map_some, Json.sanitize_sanitize]
  cases op with
  | upsert id message =>
    by_cases hid : message_id = id
    · subst hid
      have hcontent := sanitizeContent_field message key
      simp only [if_true] at h
      simp only [Op.onMessage, if_true, bind_some]
      cases hnew : message.fields.get? key with
      | none =>
        rw [hnew] at h
        rw [hnew, map_none, map_eq_none_iff] at hcontent
        have hsame := hkeep h
        cases old with
        | none => cases hsame
        | some old =>
          simpa [Message.mergeInto, Message.merge, Dict.get?_overlay, hcontent] using hsame
      | some new =>
        rw [hnew, some_or] at h
        rw [hnew, h] at hcontent
        cases old with
        | none => exact hcontent
        | some old =>
          obtain ⟨w, hw, hvalue⟩ := map_eq_some_iff.mp hcontent
          simp [Message.mergeInto, Message.merge, Dict.get?_overlay, hw, hvalue]
    · simp only [hid, if_false] at h
      simpa [Op.onMessage, hid] using hkeep h
  | addStatus id _ | addFiles id _ =>
    have hsame := hkeep h
    by_cases hid : message_id = id
    · cases old with
      | none => cases hsame
      | some old => simpa [Op.onMessage, hid] using hsame
    · simpa [Op.onMessage, hid] using hsame
  | setTitle title => exact hkeep h

/-- What holds of the stored chat after the calls of `log`, one after another. -/
structure Replayed (init row : ChatRow M A) (log : List (Op M A)) : Prop where
  hasMessages : row.chat.hasMessages = true
  present : ∀ id, (row.message? id).isSome = ((init.message? id).isSome || log.any (Op.upserts id))
  field : ∀ id key value, lastField id key log = some value →
    (row.message? id).bind (fun m => m.fields.get? key) = some value.sanitize
  list : ∀ (field : ListField) id, (field.items (row.message? id)).map Json.sanitize =
    (field.after id (init.message? id) log).2.map Json.sanitize
  stored : log ≠ [] → ∀ (field : ListField) id, field.items (row.message? id) =
    (field.items (row.message? id)).map Json.sanitize
  title : ∀ title, lastTitle log = some title →
    row.title = sanitize_text_for_db title ∧ row.chat.title = some (sanitize_text_for_db title)

omit [DecidableEq M] in
lemma map_sanitize_idem (l : List (Json A)) : (l.map Json.sanitize).map Json.sanitize = l.map Json.sanitize := by
  rw [← Json.sanitizeItems_eq_map, ← Json.sanitizeItems_eq_map, Json.sanitizeItems_idem]

lemma field_sanitize : (old.map Message.sanitize).bind (fun m => m.fields.get? key) =
      (old.bind fun m => m.fields.get? key).map Json.sanitize := by
  cases old with
  | none => rfl
  | some message => exact Dict.get?_mapValues _ _ _

lemma Replayed.start (h : init.chat.hasMessages = true) : Replayed init init [] where
  hasMessages := h
  present id := by simp
  field id key value hvalue := by cases hvalue
  list field id := rfl
  stored h := absurd rfl h
  title title htitle := by cases htitle

lemma Replayed.sanitize (h : Replayed init row log) : Replayed init row.sanitize log where
  hasMessages := hasMessages_sanitize.trans h.hasMessages
  present id := by
    rw [ChatRow.message?, ChatRow.sanitize, message?_sanitize, isSome_map]
    exact h.present id
  field id key value hvalue := by
    rw [ChatRow.message?, ChatRow.sanitize, message?_sanitize, field_sanitize]
    have hfield := h.field id key value hvalue
    rw [ChatRow.message?] at hfield
    rw [hfield, map_some, Json.sanitize_sanitize]
  list field id := by
    rw [ChatRow.message?, ChatRow.sanitize, message?_sanitize, items_sanitize, map_sanitize_idem]
    exact h.list field id
  stored _ field id := by
    rw [ChatRow.message?, ChatRow.sanitize, message?_sanitize, items_sanitize, map_sanitize_idem]
  title title htitle := by
    obtain ⟨hrow, hchat⟩ := h.title title htitle
    refine ⟨?_, ?_⟩
    · rw [ChatRow.sanitize, hrow, sanitize_text_idem]
    · rw [ChatRow.sanitize, ChatBody.sanitize, hchat, map_some, sanitize_text_idem]

lemma Replayed.modify (h : Replayed init row log) (op : Op M A) :
    ∃ row', op.modify row = some row' ∧ Replayed init row' (log ++ [op]) := by
  obtain ⟨chat', hmodify, hmessages, htitle, hmessage⟩ := modify_spec h.hasMessages op
  have hget : ∀ id, (update_chat_by_id chat').message? id =
      (Op.onMessage id (row.message? id) op).map Message.sanitize := by
    intro id
    rw [ChatRow.message?, update_chat_by_id, message?_sanitize, hmessage]
  refine ⟨_, hmodify, ?_⟩
  constructor
  case hasMessages => exact hasMessages_sanitize.trans hmessages
  case present =>
    intro id
    rw [hget, isSome_map, isSome_onMessage, h.present, Bool.or_assoc]
    simp
  case field =>
    intro id key value hvalue
    rw [hget, field_sanitize]
    exact field_onMessage _ (h.field id key) hvalue
  case list =>
    intro field id
    have hpresent : (row.message? id).isSome = (field.after id (init.message? id) log).1 :=
      (h.present id).trans (after_fst field _).symm
    rw [hget, items_sanitize, map_sanitize_idem, items_onMessage, after_concat, hpresent]
    exact step_sanitize field _ (h.list field id)
  case stored =>
    intro _ field id
    rw [hget, items_sanitize, map_sanitize_idem]
  case title =>
    intro title hlast
    have hlast' : op.onTitle (lastTitle log) = some title := (foldl_concat ..).symm.trans hlast
    have hclean : chat'.title.map sanitize_text_for_db = some (sanitize_text_for_db title) := by
      rw [htitle]
      cases op with
      | setTitle new => exact congrArg (Option.map sanitize_text_for_db) hlast'
      | upsert id message =>
        rw [Op.onTitle, (h.title title hlast').2, map_some, sanitize_text_idem]
      | addStatus id status =>
        rw [Op.onTitle, (h.title title hlast').2, map_some, sanitize_text_idem]
      | addFiles id files =>
        rw [Op.onTitle, (h.title title hlast').2, map_some, sanitize_text_idem]
    refine ⟨?_, hclean⟩
    rw [update_chat_by_id, hclean, getD_some]

lemma Replayed.kept (h : Replayed init row log) : Kept init row log where
  present := h.present
  field := h.field
  list hlog field id := (h.stored hlog field id).trans (h.list field id)
  title := h.title

/-- If every write finds the chat that its call has read, what the calls wrote is in the chat. -/
theorem reaches_kept {C : Type} [DecidableEq C] (ops : C → Op M A) (init : ChatRow M A)
    (hinit : init.chat.hasMessages = true) (s : State C (ChatRow M A))
    (h : Reaches (step (chatCalls ops)) Fresh (start init) s) :
    s.log.Nodup ∧ (∀ c, s.phase c = .returned ↔ c ∈ s.log) ∧ Kept init s.doc (s.log.map ops) := by
  have hstart : Replayed init init (([] : List C).map ops) := .start hinit
  have hrepair : ∀ doc (log : List C), Replayed init doc (log.map ops) → (chatCalls ops).clean doc = false →
        Replayed init ((chatCalls ops).repair doc) (log.map ops) :=
    fun doc log hP _ => hP.sanitize
  have hmodify : ∀ doc (log : List C) c, Replayed init doc (log.map ops) →
      ∃ doc', (chatCalls ops).modify c doc = some doc' ∧ Replayed init doc' ((log ++ [c]).map ops) := by
    intro doc log c hP
    rw [map_append]
    exact hP.modify (ops c)
  have hkept : Replayed init s.doc (s.log.map ops) := by
    refine fresh_invariant (P := fun doc log => Replayed init doc (log.map ops)) hstart hrepair
      (fun doc log c doc' hP hmod => ?_) h
    obtain ⟨doc'', hmod', hP'⟩ := hmodify doc log c hP
    rw [hmod, some.injEq] at hmod'
    exact hmod' ▸ hP'
  refine ⟨(log_nodup h).1, fun c => ⟨?_, (log_nodup h).2 c⟩, hkept.kept⟩
  exact mem_log_of_returned (P := fun doc log => Replayed init doc (log.map ops)) hstart hrepair
    hmodify h c

def emptyMessage : Message Unit :=
  { fields := .empty, statusHistory := none, files := none }

def emptyChat : ChatRow ℕ Unit :=
  { title := []
    chat :=
      { title := none
        history := some { messages := some .empty, currentId := none, others := .empty }
        others := .empty } }

def twoUpserts : Bool → Op ℕ Unit
  | false => .upsert 1 emptyMessage
  | true => .upsert 2 emptyMessage

theorem reaches_kept_two : emptyChat.chat.hasMessages = true ∧ ∃ s : State Bool (ChatRow ℕ Unit),
      Reaches (step (chatCalls twoUpserts)) Fresh (start emptyChat) s ∧
      (∀ c, s.phase c = .returned) ∧ Kept emptyChat s.doc (s.log.map twoUpserts) := by
  have hreach : ∃ s : State Bool (ChatRow ℕ Unit),
      Reaches (step (chatCalls twoUpserts)) Fresh (start emptyChat) s ∧ ∀ c, s.phase c = .returned := by
    refine ⟨_, .step true (.step true (.step false (.step false .start trivial rfl) rfl rfl)
      trivial rfl) rfl rfl, fun c => ?_⟩
    cases c <;> rfl
  obtain ⟨s, hs, hreturned⟩ := hreach
  exact ⟨rfl, s, hs, hreturned, (reaches_kept twoUpserts emptyChat rfl s hs).2.2⟩

/-- Both calls read the chat before either writes: the first message is lost. -/
theorem upsert_lost : ¬ ∀ (ops : Bool → Op ℕ Unit) (init : ChatRow ℕ Unit)
    (s : State Bool (ChatRow ℕ Unit)), init.chat.hasMessages = true →
    Reaches (step (chatCalls ops)) (fun _ _ => True) (start init) s →
    (∀ c, s.phase c = .returned) → Kept init s.doc (s.log.map ops) := by
  intro hkept
  have hreach : ∃ s : State Bool (ChatRow ℕ Unit),
      Reaches (step (chatCalls twoUpserts)) (fun _ _ => True) (start emptyChat) s ∧
      (∀ c, s.phase c = .returned) ∧ s.log = [false, true] ∧ (s.doc.message? 1).isSome = false := by
    refine ⟨_, .step true (.step false (.step true (.step false .start trivial rfl) trivial rfl)
      trivial rfl) trivial rfl, fun c => ?_, rfl, rfl⟩
    cases c <;> rfl
  obtain ⟨s, hs, hreturned, hlog, habsent⟩ := hreach
  have hpresent := (hkept twoUpserts emptyChat s rfl hs hreturned).present 1
  rw [habsent, hlog] at hpresent
  revert hpresent
  decide

end CustomAi.OpenWebUI.ChatMessages
