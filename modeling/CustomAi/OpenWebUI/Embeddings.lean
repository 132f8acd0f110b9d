import CustomAi.Lib.CeilDiv
import CustomAi.OpenWebUI.Sanitize

/-!
# Batched embeddings

The embedding function of a remote engine, and its two callers: the items that are saved, and the
scores of a search without a reranker.
-/

namespace CustomAi.OpenWebUI

open List

/-- The engine and its settings. A successful call embeds every text of its batch. -/
structure EmbeddingEngine (E : Type) where
  /-- The embedding of a text, with the prefix that is sent in a field of its own. -/
  embed : Text → Option Text → E
  /-- Whether `RAG_EMBEDDING_PREFIX_FIELD_NAME` names such a field. -/
  prefixField : Bool
  embedding_batch_size : ℕ
  enable_async : Bool

inductive EmbeddingError
  | typeError
  | indexError
  /-- A tensor without rows has no similarities. -/
  | runtimeError
deriving DecidableEq

namespace EmbeddingEngine

variable {E S M : Type} (e : EmbeddingEngine E)

/-- What a successful call returns for a text. -/
def vector (pre : Option Text) (text : Text) : E :=
  if e.prefixField then e.embed text pre else e.embed (pre.getD [] ++ text) none

/-- `generate_embeddings` for a batch: `None` if the call fails. -/
def generate_embeddings (pre : Option Text) (fails : Bool) (texts : List Text) :
    Option (List E) :=
  if fails then none else some (texts.map (e.vector pre))

/-- `generate_embeddings` for one text: the first element of what the call returns. -/
def generate_embedding (pre : Option Text) (fails : Bool) (text : Text) :
    Except EmbeddingError E :=
  match e.generate_embeddings pre fails [text] with
  | some (v :: _) => .ok v
  | _ => .error .typeError

def batches (query : List Text) : List (List Text) :=
  (range (cdiv query.length e.embedding_batch_size)).map fun i =>
    (query.drop (i * e.embedding_batch_size)).take e.embedding_batch_size

/-- The results of all batches, where `fails i` tells whether the call of batch `i` does. -/
def gather (pre : Option Text) (fails : ℕ → Bool) (batches : List (List Text)) :
    List (Option (List E)) :=
  batches.mapIdx fun i batch => e.generate_embeddings pre (fails i) batch

/-- The same calls one after another. -/
def sequential (pre : Option Text) (fails : ℕ → Bool) (batches : List (List Text)) :
    List (Option (List E)) :=
  batches.foldl (fun results batch =>
    results ++ [e.generate_embeddings pre (fails results.length) batch]) []

def flattenResults (results : List (Option (List E))) : List E :=
  results.flatMap fun batch_embeddings => batch_embeddings.getD []

/-- `async_embedding_function` for a list. -/
def async_embedding_function (pre : Option Text) (fails : ℕ → Bool) (query : List Text) :
    List E :=
  flattenResults (if e.enable_async then e.gather pre fails (e.batches query)
    else e.sequential pre fails (e.batches query))

/-- `text.replace("\n", " ")`, the text that is embedded. -/
def replaceNewlines (text : Text) : Text := text.map fun c => if c = 10 then 32 else c

/-- The items of `save_docs_to_vector_db`: each text with its vector and metadata. -/
def items : List E → List (Text × M) → Except EmbeddingError (List (Text × E × M))
  | _, [] => .ok []
  | [], _ :: _ => .error .indexError
  | v :: embeddings, (text, metadata) :: docs =>
    (items embeddings docs).map fun items => (text, v, metadata) :: items

/-- The scored documents of `acompress_documents` without a reranking function. -/
def docs_with_scores (cos_sim : E → E → S) (queryPre pre : Option Text) (queryFails : Bool)
    (fails : ℕ → Bool) (query : Text) (documents : List Text) :
    Except EmbeddingError (List (Text × S)) := do
  let query_embedding ← e.generate_embedding queryPre queryFails query
  let document_embedding := e.async_embedding_function pre fails documents
  if document_embedding.isEmpty then .error .runtimeError
  else .ok (documents.zip (document_embedding.map (cos_sim query_embedding)))

variable {e} {fails : ℕ → Bool} {pre : Option Text}

lemma flatten_batches (hb : 0 < e.embedding_batch_size) (query : List Text) :
    (e.batches query).flatten = query := by
  have htake : ∀ n, ((range n).map fun i => (query.drop (i * e.embedding_batch_size)).take
      e.embedding_batch_size).flatten = query.take (n * e.embedding_batch_size) := by
    intro n
    induction n with
    | zero => simp
    | succ n ih => rw [range_succ, map_append, flatten_append, ih, Nat.succ_mul, take_add]; simp
  rw [batches, htake, take_of_length_le]
  rw [Nat.mul_comm]
  exact le_mul_cdiv hb _

lemma ne_nil_of_mem_batches (hb : 0 < e.embedding_batch_size) {query : List Text} :
    ∀ batch ∈ e.batches query, batch ≠ [] := by
  simp only [batches, mem_map, mem_range]
  rintro _ ⟨i, hi, rfl⟩ hnil
  have hlen := congrArg length hnil
  rw [length_take, length_drop, length_nil] at hlen
  have := mt (cdiv_le_iff (a := query.length) (c := i) hb).mpr (by omega)
  rw [Nat.mul_comm] at this
  omega

lemma sequential_eq (l : List (List Text)) : e.sequential pre fails l = e.gather pre fails l := by
  unfold sequential gather
  induction l using reverseRecOn with
  | nil => rfl
  | append_singleton l batch ih => simp [mapIdx_append, ih]

lemma gather_cons (b : List Text) (l : List (List Text)) :
    flattenResults (e.gather pre fails (b :: l)) = (e.generate_embeddings pre (fails 0) b).getD [] ++
      flattenResults (e.gather pre (fun i => fails (i + 1)) l) := by
  rw [gather, mapIdx_cons]
  rfl

lemma length_gather_le (l : List (List Text)) :
    (flattenResults (e.gather pre fails l)).length ≤ l.flatten.length := by
  induction l generalizing fails with
  | nil => rfl
  | cons b l ih =>
    rw [gather_cons, flatten_cons, length_append, length_append, generate_embeddings]
    refine Nat.add_le_add ?_ ih
    split <;> simp

lemma gather_eq {l : List (List Text)} (hall : ∀ i < l.length, fails i = false) :
    flattenResults (e.gather pre fails l) = l.flatten.map (e.vector pre) := by
  induction l generalizing fails with
  | nil => rfl
  | cons b l ih =>
    rw [gather_cons, ih fun i hi => hall (i + 1) (Nat.succ_lt_succ hi), flatten_cons, map_append,
      generate_embeddings, hall 0 (by simp)]
    rfl

/-- A failed call is seen by the number of embeddings. -/
lemma fails_eq_false {l : List (List Text)} (hne : ∀ batch ∈ l, batch ≠ [])
    (hlen : l.flatten.length ≤ (flattenResults (e.gather pre fails l)).length) :
    ∀ i < l.length, fails i = false := by
  induction l generalizing fails with
  | nil => nofun
  | cons b l ih =>
    rw [forall_mem_cons] at hne
    rw [gather_cons, flatten_cons, length_append, length_append, generate_embeddings] at hlen
    have hpos := length_pos_of_ne_nil hne.1
    have hle : (flattenResults (e.gather pre (fun i => fails (i + 1)) l)).length ≤ l.flatten.length :=
      length_gather_le l
    cases hf : fails 0 with
    | true =>
      rw [hf, if_pos rfl, Option.getD_none, length_nil] at hlen
      omega
    | false =>
      rw [hf, if_neg Bool.false_ne_true, Option.getD_some, length_map] at hlen
      have hrest : ∀ i < l.length, fails (i + 1) = false := ih hne.2 (by omega)
      rintro (_ | i) hi
      · exact hf
      · exact hrest i (Nat.lt_of_succ_lt_succ hi)

section

variable (hb : 0 < e.embedding_batch_size) {texts : List Text}
include hb

lemma async_eq (hall : ∀ i < (e.batches texts).length, fails i = false) :
    e.async_embedding_function pre fails texts = texts.map (e.vector pre) := by
  rw [async_embedding_function, sequential_eq, ite_self, gather_eq hall, flatten_batches hb]

lemma fails_eq_false_of_length (hlen : texts.length ≤ (e.async_embedding_function pre fails texts).length) :
    ∀ i < (e.batches texts).length, fails i = false := by
  rw [async_embedding_function, sequential_eq, ite_self] at hlen
  exact fails_eq_false (ne_nil_of_mem_batches hb) ((congrArg length (flatten_batches hb texts)).trans_le hlen)

end

lemma items_eq (embeddings : List E) (docs : List (Text × M)) : items embeddings docs =
    if docs.length ≤ embeddings.length then
      .ok ((docs.zip embeddings).map fun p => (p.1.1, p.2, p.1.2)) else .error .indexError := by
  fun_induction items embeddings docs with
  | case1 embeddings => simp
  | case2 d docs => simp
  | case3 v embeddings text metadata docs ih =>
    rw [ih]
    by_cases h : docs.length ≤ embeddings.length
    · simp [h, Except.map]
    · simp [h, Except.map]

/-- Embeddings stay with their texts exactly when no call fails. -/
theorem embeddings_aligned_iff (hb : 0 < e.embedding_batch_size) (cos_sim : E → E → S)
    (queryPre : Option Text) (texts : List Text) :
    (e.async_embedding_function pre fails texts = texts.map (e.vector pre) ∧
      (∀ (docs : List (Text × M)) (l : List (Text × E × M)), docs.map (fun d => replaceNewlines d.1) = texts →
        items (e.async_embedding_function pre fails texts) docs = .ok l →
        ∀ item ∈ l, item.2.1 = e.vector pre (replaceNewlines item.1)) ∧ ∀ queryFails query pairs,
        e.docs_with_scores cos_sim queryPre pre queryFails fails query texts = .ok pairs →
        ∀ p ∈ pairs, p.2 = cos_sim (e.vector queryPre query) (e.vector pre p.1)) ↔
    ∀ i < (e.batches texts).length, fails i = false := by
  refine ⟨fun h => fails_eq_false_of_length hb (by rw [h.1, length_map]), fun hall => ?_⟩
  refine ⟨async_eq hb hall, ?_, ?_⟩
  · rintro docs l rfl hl item hitem
    rw [async_eq hb hall, items_eq, if_pos (by simp), Except.ok.injEq] at hl
    rw [← hl, map_map, zip, zipWith_map_right, zipWith_self, map_map, mem_map] at hitem
    obtain ⟨d, -, rfl⟩ := hitem
    rfl
  · rintro queryFails query pairs hpairs p hp
    cases queryFails with
    | true => cases hpairs
    | false =>
      change (if _ then Except.error EmbeddingError.runtimeError else _) = _ at hpairs
      rw [async_eq hb hall] at hpairs
      split at hpairs
      · cases hpairs
      · cases hpairs
        rw [map_map, zip, zipWith_map_right, zipWith_self, mem_map] at hp
        obtain ⟨text, -, rfl⟩ := hp
        rfl

def lengths : EmbeddingEngine ℕ := ⟨fun text _ => text.length, false, 1, true⟩

theorem embeddings_aligned_pair : lengths.async_embedding_function none (fun _ => false) [[97], [98, 99]] =
    [[97], [98, 99]].map (lengths.vector none) :=
  ((embeddings_aligned_iff (M := Unit) (by decide) (fun x y => x + y) none _).mpr fun _ _ => rfl).1

/-- The first of two calls fails, and the first text is scored with the embedding of the second. -/
theorem embeddings_misaligned : ¬ ∀ (e : EmbeddingEngine ℕ) (fails : ℕ → Bool) (texts : List Text),
    0 < e.embedding_batch_size → e.async_embedding_function none fails texts = texts.map (e.vector none) ∧
      ∀ query pairs, e.docs_with_scores (fun _ y => y) none none false fails query texts = .ok pairs →
        ∀ p ∈ pairs, p.2 = e.vector none p.1 := by
  intro h
  have hpairs := (h lengths (fun i => i = 0) [[97], [98, 99]] (by decide)).2 [] [([97], 2)] rfl
  exact absurd (hpairs _ mem_cons_self) (by decide)

end EmbeddingEngine

end CustomAi.OpenWebUI
