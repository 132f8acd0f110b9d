import CustomAi.OpenWebUI.Embeddings
import CustomAi.OpenWebUI.MergeChunks

/-!
# Saving documents to the vector store

`save_docs_to_vector_db` with every call to the store, the splitters and the embedding function that
may fail.
-/

namespace CustomAi.OpenWebUI

open List EmbeddingEngine

inductive StoreCall
  | query
  | has_collection
  | delete_collection
  | insert

inductive SaveError
  | duplicateContent
  | invalidTextSplitter
  | emptyContent
  | splitter
  | embedding (e : Option EmbeddingError)
  | store (call : StoreCall)

inductive TextSplitter
  | character
  | token
  | other

/-- Text, vector and metadata of each item in the collections that exist. -/
abbrev VectorStore (E V : Type) := Text → Option (List (Text × E × Dict String (Option V)))

/-- The settings, the splitters, the embedding function and the calls to the store that fail. -/
structure SaveConfig (E V : Type) extends MergeChunks.Config where
  ENABLE_MARKDOWN_HEADER_TEXT_SPLITTER : Bool
  TEXT_SPLITTER : TextSplitter
  markdown_splitter : Text → Option (List Text)
  character_splitter : List (Document V) → Option (List (Document V))
  token_splitter : List (Document V) → Option (List (Document V))
  embedding_function : List Text → Option (List E)
  embedding_config : V
  fails : StoreCall → Bool

namespace SaveConfig

variable {E V : Type} [DecidableEq V] (c : SaveConfig E V) (store : VectorStore E V)
  (collection_name : Text) (metadata : Option (Dict String (Option V)))

def check_duplicate : Except SaveError Unit :=
  match metadata.bind (·.get? "hash") with
  | none => .ok ()
  | some hash =>
    if c.fails .query then .error (.store .query)
    else if ((store collection_name).getD []).any fun item => item.2.2.get? "hash" = some hash then
      .error .duplicateContent
    else .ok ()

def markdown_split (docs : List (Document V)) : Option (List (Document V)) :=
  (docs.mapM fun doc => (c.markdown_splitter doc.page_content).map fun chunks =>
    chunks.map fun chunk => ⟨chunk, doc.metadata⟩).map flatten

def split_docs (split : Bool) (docs : List (Document V)) : Except SaveError (List (Document V)) :=
  if !split then .ok docs
  else do
    let docs ← if c.ENABLE_MARKDOWN_HEADER_TEXT_SPLITTER then
        (c.markdown_split docs).elim (.error .splitter) fun docs => .ok
          (if c.CHUNK_MIN_SIZE_TARGET > 0 then MergeChunks.merge_docs_to_target_size c.toConfig docs else docs)
      else .ok docs
    match c.TEXT_SPLITTER with
    | .character => (c.character_splitter docs).elim (.error .splitter) .ok
    | .token => (c.token_splitter docs).elim (.error .splitter) .ok
    | .other => .error .invalidTextSplitter

/-- The texts and metadata of the items. -/
def rows (docs : List (Document V)) : List (Text × Dict String (Option V)) :=
  docs.map fun doc => (sanitize_text_for_db doc.page_content,
    (doc.metadata.overlay (metadata.getD .empty)).set "embedding_config" c.embedding_config)

/-- The embeddings and the insertion. -/
def insert_rows (rows : List (Text × Dict String (Option V))) : Except SaveError Unit × VectorStore E V :=
  match c.embedding_function (rows.map fun row => replaceNewlines row.1) with
  | none => (.error (.embedding none), store)
  | some embeddings =>
    match items embeddings rows with
    | .error e => (.error (.embedding e), store)
    | .ok items =>
      if c.fails .insert then (.error (.store .insert), store)
      else (.ok (), Function.update store collection_name ((store collection_name).getD [] ++ items))

def save_docs_to_vector_db (overwrite split add : Bool) (docs : List (Document V)) :
    Except SaveError Unit × VectorStore E V :=
  match c.check_duplicate store collection_name metadata, c.split_docs split docs with
  | .error e, _ => (.error e, store)
  | _, .error e => (.error e, store)
  | _, .ok [] => (.error .emptyContent, store)
  | _, .ok docs =>
    if c.fails .has_collection then (.error (.store .has_collection), store)
    else if (store collection_name).isSome && overwrite then
      if c.fails .delete_collection then (.error (.store .delete_collection), store)
      else c.insert_rows (Function.update store collection_name none) collection_name (c.rows metadata docs)
    else if (store collection_name).isSome && !add then (.ok (), store)
    else c.insert_rows store collection_name (c.rows metadata docs)

/-- What a collection holds afterwards, one item for each row. -/
def Saved (rows : List (Text × Dict String (Option V))) (overwrite add : Bool)
    (old new : Option (List (Text × E × Dict String (Option V)))) : Except SaveError Unit → Prop
  | .error _ => new.getD [] = old.getD []
  | .ok () =>
    if !overwrite && !add && old.isSome then new = old
    else ∃ items, items.map (fun item => (item.1, item.2.2)) = rows ∧
      new = some (if overwrite then items else old.getD [] ++ items)

/-- There is a vector for each row, and the insertion works. -/
def Stores (rows : List (Text × Dict String (Option V))) : Prop :=
  c.fails .insert = false ∧ ∃ embeddings,
    c.embedding_function (rows.map fun row => replaceNewlines row.1) = some embeddings ∧
      rows.length ≤ embeddings.length

omit [DecidableEq V] in
lemma insert_rows_cases (rows : List (Text × Dict String (Option V))) :
    (c.Stores rows ∧ ∃ items, items.map (fun item => (item.1, item.2.2)) = rows ∧
      c.insert_rows store collection_name rows = (.ok (), Function.update store collection_name
        (some ((store collection_name).getD [] ++ items)))) ∨
    (¬c.Stores rows ∧ ∃ e, c.insert_rows store collection_name rows = (.error e, store)) := by
  unfold insert_rows Stores
  cases hemb : c.embedding_function (rows.map fun row => replaceNewlines row.1) with
  | none => exact .inr ⟨by simp, _, rfl⟩
  | some embeddings =>
    dsimp only
    rw [items_eq]
    by_cases hlen : rows.length ≤ embeddings.length
    · rw [if_pos hlen]
      cases hins : c.fails .insert with
      | true => exact .inr ⟨by simp, _, rfl⟩
      | false =>
        refine .inl ⟨⟨rfl, embeddings, rfl, hlen⟩, _, ?_, rfl⟩
        rw [map_map]
        exact map_fst_zip hlen
    · rw [if_neg hlen]
      exact .inr ⟨by simp [hlen], _, rfl⟩

variable {c store collection_name metadata}

omit [DecidableEq V] in
lemma saved_insert_rows_iff {rows : List (Text × Dict String (Option V))} {overwrite add : Bool}
    {old : Option (List (Text × E × Dict String (Option V)))}
    (hstore : (store collection_name).getD [] = if overwrite then [] else old.getD [])
    (hflags : (!overwrite && !add && old.isSome) = false) :
    Saved rows overwrite add old ((c.insert_rows store collection_name rows).2 collection_name)
      (c.insert_rows store collection_name rows).1 ↔
    c.Stores rows ∨ (store collection_name).getD [] = old.getD [] := by
  obtain ⟨hs, items, hitems, heq⟩ | ⟨hs, e, heq⟩ := insert_rows_cases c store collection_name rows
  · refine iff_of_true ?_ (.inl hs)
    rw [heq, Saved, hflags, if_neg Bool.false_ne_true]
    refine ⟨items, hitems, (Function.update_self ..).trans ?_⟩
    rw [hstore]
    cases overwrite <;> rfl
  · rw [heq, Saved]
    exact (or_iff_right hs).symm

/-- A call saves everything or changes nothing exactly if no items are deleted for others that are
not stored. -/
theorem save_docs_to_vector_db_iff (overwrite split add : Bool) (docs : List (Document V)) :
    Saved (c.rows metadata ((c.split_docs split docs).toOption.getD [])) overwrite add (store collection_name)
      ((c.save_docs_to_vector_db store collection_name metadata overwrite split add docs).2 collection_name)
      (c.save_docs_to_vector_db store collection_name metadata overwrite split add docs).1 ↔
    ¬(c.check_duplicate store collection_name metadata = .ok () ∧ overwrite = true ∧
      (store collection_name).getD [] ≠ [] ∧ c.fails .has_collection = false ∧
      c.fails .delete_collection = false ∧ ∃ docs', c.split_docs split docs = .ok docs' ∧ docs' ≠ [] ∧
        ¬c.Stores (c.rows metadata docs')) := by
  unfold save_docs_to_vector_db
  cases hdup : c.check_duplicate store collection_name metadata with
  | error e => simp [Saved]
  | ok _ =>
    cases hsplit : c.split_docs split docs with
    | error e => simp [Saved]
    | ok docs' =>
      cases docs' with
      | nil => simp [Saved]
      | cons d docs' =>
        have hex : (∃ docs'', Except.ok (ε := SaveError) (d :: docs') = .ok docs'' ∧ docs'' ≠ [] ∧
            ¬c.Stores (c.rows metadata docs'')) ↔ ¬c.Stores (c.rows metadata (d :: docs')) := by simp
        rw [hex]
        simp only [Except.toOption, Option.getD_some]
        generalize c.rows metadata (d :: docs') = rows
        cases hhas : c.fails .has_collection with
        | true => simp [Saved]
        | false =>
          rw [if_neg Bool.false_ne_true]
          cases hold : store collection_name with
          | none =>
            simp only [Option.isSome_none, Bool.false_and, Bool.false_eq_true, if_false]
            rw [saved_insert_rows_iff (by simp [hold]) (by simp), hold]
            simp
          | some old =>
            cases overwrite with
            | true =>
              cases hdel : c.fails .delete_collection with
              | true => simp [Saved, hold]
              | false =>
                simp only [Option.isSome_some, Bool.and_self, Bool.false_eq_true, if_true, if_false]
                rw [saved_insert_rows_iff (by simp) (by simp), Function.update_self]
                simp only [Option.getD_none, Option.getD_some, true_and, ne_eq, not_and_or, not_not, eq_comm, or_comm]
            | false =>
              cases add with
              | false => simp [Saved, hold]
              | true =>
                simp only [Option.isSome_some, Bool.and_false, Bool.not_true, Bool.false_eq_true, if_false]
                rw [saved_insert_rows_iff (by simp [hold]) (by simp), hold]
                simp

/-- Without an embedding service. -/
def offline : SaveConfig ℕ ℕ := ⟨⟨100, 0, length⟩, false, .character, fun _ => none, some, some,
  fun _ => none, 0, fun _ => false⟩

/-- Overwriting loses the old item when the embeddings fail. -/
theorem save_docs_to_vector_db_loses : ¬ ∀ (c : SaveConfig ℕ ℕ) (store : VectorStore ℕ ℕ) (name : Text)
    (metadata : Option (Dict String (Option ℕ))) (overwrite split add : Bool) (docs : List (Document ℕ)),
    Saved (c.rows metadata ((c.split_docs split docs).toOption.getD [])) overwrite add (store name)
      ((c.save_docs_to_vector_db store name metadata overwrite split add docs).2 name)
      (c.save_docs_to_vector_db store name metadata overwrite split add docs).1 := by
  intro h
  have hsaved := h offline (fun _ => some [([], 0, .empty)]) [] none true false false [⟨[97], .empty⟩]
  exact absurd (congrArg length hsaved) (by decide)

end SaveConfig

end CustomAi.OpenWebUI
