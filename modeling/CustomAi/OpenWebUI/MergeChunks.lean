import CustomAi.Lib.Dict
import CustomAi.Lib.GreedyGroups
import CustomAi.OpenWebUI.Sanitize

/-!
# Normalised chunk sizes

`merge_docs_to_target_size`: small chunks grow by the chunks after them.
-/

namespace CustomAi.OpenWebUI

open List Lib.GreedyGroups

structure Document (V : Type) where
  page_content : Text
  metadata : Dict String (Option V)

/-- `metadata.get(key)`, where a stored `None` reads as nothing. -/
def Document.get {V : Type} (d : Document V) (key : String) : Option V := (d.metadata.get? key).join

namespace MergeChunks

variable {V : Type} {g h : List (Document V)}

def proposed (content next : Text) : Text := content ++ 10 :: 10 :: next

/-- The text of chunks joined by blank lines. -/
def content : List (Document V) → Text
  | [] => []
  | a :: g => g.foldl (fun content b => proposed content b.page_content) a.page_content

lemma content_concat (hg : g ≠ []) (b : Document V) : content (g ++ [b]) = proposed (content g) b.page_content := by
  cases g with
  | nil => cases hg rfl
  | cons a g => exact foldl_append ..

lemma length_content_lt (hg : g ≠ []) (hh : h ≠ []) : (content g).length < (content (g ++ h)).length := by
  induction h using reverseRecOn with
  | nil => cases hh rfl
  | append_singleton h b ih =>
    rw [← append_assoc, content_concat (append_ne_nil_of_left_ne_nil hg h), proposed]
    by_cases hnil : h = []
    · simp [hnil]
    · have := ih hnil
      simp only [length_append, length_cons]
      omega

/-- The texts of the groups tell the groups. -/
lemma groups_unique {gs hs : List (List (Document V))} (hgs : ∀ g ∈ gs, g ≠ []) (hhs : ∀ h ∈ hs, h ≠ [])
    (hflat : gs.flatten = hs.flatten) (hcont : gs.map content = hs.map content) : gs = hs := by
  induction gs generalizing hs with
  | nil => exact (map_eq_nil_iff.mp hcont.symm).symm
  | cons g gs ih =>
    obtain ⟨h, hs, rfl, hgh, htail⟩ := map_eq_cons_iff.mp hcont.symm
    rw [forall_mem_cons] at hgs hhs
    obtain ⟨r, rfl, hr⟩ | ⟨r, rfl, hr⟩ := append_eq_append_iff.mp hflat
    · obtain rfl | hnil := eq_or_ne r []
      · rw [append_nil, ih hgs.2 hhs.2 hr htail.symm]
      · exact absurd (congrArg length hgh) (length_content_lt hgs.1 hnil).ne'
    · obtain rfl | hnil := eq_or_ne r []
      · rw [append_nil, ih hgs.2 hhs.2 hr.symm htail.symm]
      · exact absurd (congrArg length hgh) (length_content_lt hhs.1 hnil).ne

variable [DecidableEq V]

def can_merge_chunks (a b : Document V) : Bool :=
  if a.get "source" ≠ b.get "source" then false
  else match a.get "file_id", b.get "file_id" with
    | some a_file_id, some b_file_id => a_file_id = b_file_id
    | _, _ => true

/-- The settings, with the measure that the text splitter stands for. -/
structure Config where
  CHUNK_SIZE : ℤ
  CHUNK_MIN_SIZE_TARGET : ℤ
  measure_chunk_size : Text → ℕ

/-- The loop after its first chunk. -/
def mergeLoop (c : Config) (current : Document V) (content : Text) :
    List (Document V) → List (Document V)
  | [] => [⟨content, current.metadata⟩]
  | next :: chunks =>
    if can_merge_chunks current next ∧ c.measure_chunk_size content < c.CHUNK_MIN_SIZE_TARGET ∧
        c.measure_chunk_size (proposed content next.page_content) ≤ c.CHUNK_SIZE then
      mergeLoop c current (proposed content next.page_content) chunks
    else ⟨content, current.metadata⟩ :: mergeLoop c next next.page_content chunks

def merge_docs_to_target_size (c : Config) (chunks : List (Document V)) : List (Document V) :=
  if c.CHUNK_MIN_SIZE_TARGET ≤ 0 then chunks
  else match chunks with
    | [] => []
    | first :: chunks => mergeLoop c first first.page_content chunks

def SameSource (a b : Document V) : Prop := a.get "source" = b.get "source"

/-- The documents do not carry two different files. -/
def SameFile (a b : Document V) : Prop := ∀ x ∈ a.get "file_id", ∀ y ∈ b.get "file_id", x = y

/-- The chunk is merged into the group. -/
def Takes (c : Config) (g : List (Document V)) (b : Document V) : Prop :=
  ∃ a ∈ g.head?, can_merge_chunks a b ∧ c.measure_chunk_size (content g) < c.CHUNK_MIN_SIZE_TARGET ∧
    c.measure_chunk_size (content (g ++ [b])) ≤ c.CHUNK_SIZE

instance (c : Config) (g : List (Document V)) : DecidablePred (Takes c g) := fun _ =>
  inferInstanceAs (Decidable (∃ _ ∈ _, _))

/-- The outputs come from groups of the chunks that keep to the limits, files apart. -/
structure SplitsBack (c : Config) (chunks outputs : List (Document V))
    (groups : List (List (Document V))) : Prop where
  nonempty : ∀ g ∈ groups, g ≠ []
  flatten : groups.flatten = chunks
  contents : outputs.map Document.page_content = groups.map content
  size : ∀ g ∈ groups, 2 ≤ g.length → c.measure_chunk_size (content g) ≤ c.CHUNK_SIZE
  sources : ∀ g ∈ groups, g.Pairwise SameSource
  short : groups.IsChain fun g h => c.measure_chunk_size (content g) < c.CHUNK_MIN_SIZE_TARGET →
    ∀ b ∈ h.head?, (g ++ [b]).Pairwise SameSource → (g ++ [b]).Pairwise SameFile →
      c.CHUNK_SIZE < c.measure_chunk_size (content (g ++ [b]))

/-- No chunk without a file begins a group and goes on with chunks that it takes and that carry two
files. -/
def KeepsFiles (c : Config) (chunks : List (Document V)) : Prop :=
  ∀ pre a mid b post, chunks = pre ++ a :: mid ++ b :: post → Begins (Takes c) pre a →
    Fits (Takes c) a (mid ++ [b]) → a.get "file_id" = none → ∀ d ∈ mid, SameFile d b

variable {c : Config} {a b : Document V} {chunks : List (Document V)}

lemma can_merge_chunks_iff : can_merge_chunks a b = true ↔ SameSource a b ∧ SameFile a b := by
  rw [can_merge_chunks, SameSource, SameFile]
  split
  · simp_all
  · cases a.get "file_id" <;> cases b.get "file_id" <;> simp_all

lemma mergeLoop_eq {current : Document V} (hcur : g.head? = some current) :
    mergeLoop c current (content g) chunks = (groups (Takes c) g chunks).map fun g =>
      ⟨content g, (g.head?.map Document.metadata).getD .empty⟩ := by
  induction chunks generalizing g current with
  | nil => simp [mergeLoop, groups, hcur]
  | cons b chunks ih =>
    have hne : g ≠ [] := by rintro rfl; cases hcur
    have htakes : Takes c g b ↔ can_merge_chunks current b ∧
        c.measure_chunk_size (content g) < c.CHUNK_MIN_SIZE_TARGET ∧
        c.measure_chunk_size (proposed (content g) b.page_content) ≤ c.CHUNK_SIZE := by
      rw [Takes, hcur, content_concat hne]
      simp
    rw [mergeLoop, groups]
    by_cases h : Takes c g b
    · rw [if_pos h, if_pos (htakes.mp h), ← content_concat hne]
      exact ih ((head?_append_of_ne_nil _ hne).trans hcur)
    · rw [if_neg h, if_neg (mt htakes.mpr h), map_cons, hcur]
      exact congrArg _ (ih (g := [b]) rfl)

lemma splitsBack (hc : 0 < c.CHUNK_MIN_SIZE_TARGET) : SplitsBack c (a :: chunks)
    (merge_docs_to_target_size c (a :: chunks)) (groups (Takes c) [a] chunks) := by
  have hkept : ∀ g ∈ groups (Takes c) [a] chunks, g ≠ [] ∧ g.Pairwise SameSource ∧
      (2 ≤ g.length → c.measure_chunk_size (content g) ≤ c.CHUNK_SIZE) := by
    refine of_mem_groups _ (fun x => by simp) ?_ (by simp)
    rintro g x ⟨hne, hsrc, -⟩ ⟨d, hd, hmerge, -, hsize⟩
    refine ⟨by simp, ?_, fun _ => hsize⟩
    obtain ⟨g, rfl⟩ := head?_eq_some_iff.mp hd
    have hdx := (can_merge_chunks_iff.mp hmerge).1
    refine pairwise_append.mpr ⟨hsrc, pairwise_singleton .., fun b hb x' hx' => ?_⟩
    rw [mem_singleton.mp hx']
    obtain rfl | hb := mem_cons.mp hb
    · exact hdx
    · exact ((pairwise_cons.mp hsrc).1 b hb).symm.trans hdx
  refine ⟨fun g hg => (hkept g hg).1, flatten_groups .., ?_, fun g hg => (hkept g hg).2.2,
    fun g hg => (hkept g hg).2.1, ?_⟩
  · rw [merge_docs_to_target_size, if_neg (not_le.mpr hc)]
    exact (congrArg _ (mergeLoop_eq (g := [a]) rfl)).trans (map_map ..)
  · refine (isChain_groups (Takes c) [a] chunks).imp_of_mem_imp fun g h hg _ hnot hlt b hb hsrc hfile => ?_
    obtain ⟨d, g, rfl⟩ := exists_cons_of_ne_nil (hkept g hg).1
    by_contra hsize
    refine hnot b hb ⟨d, rfl, can_merge_chunks_iff.mpr ⟨?_, ?_⟩, hlt, not_lt.mp hsize⟩
    · exact (pairwise_cons.mp hsrc).1 b (by simp)
    · exact (pairwise_cons.mp hfile).1 b (by simp)

/-- Chunks that fit a group have one file if the chunk that begins it has one. -/
lemma sameFile_of_takes (ht : Takes c (a :: g) b) (hg : (a :: g).Pairwise SameFile)
    (hnone : a.get "file_id" = none → ∀ d ∈ g, SameFile d b) : (a :: g ++ [b]).Pairwise SameFile := by
  obtain ⟨_, ha, hmerge, -⟩ := ht
  obtain rfl := Option.some.inj ha
  have hab := (can_merge_chunks_iff.mp hmerge).2
  refine pairwise_append.mpr ⟨hg, pairwise_singleton .., fun d hd b' hb' => ?_⟩
  rw [mem_singleton.mp hb']
  obtain rfl | hd := mem_cons.mp hd
  · exact hab
  · cases hfile : a.get "file_id" with
    | none => exact hnone hfile d hd
    | some z => exact fun x hx y hy => ((pairwise_cons.mp hg).1 d hd z hfile x hx).symm.trans (hab z hfile y hy)

lemma keepsFiles_iff : KeepsFiles c chunks ↔ ∀ pre a mid post, chunks = pre ++ a :: mid ++ post →
    Begins (Takes c) pre a → Fits (Takes c) a mid → (a :: mid).Pairwise SameFile := by
  refine ⟨fun h pre a mid post heq hb hf => ?_, fun h pre a mid b post heq hb hf _ d hd => ?_⟩
  · induction mid using reverseRecOn generalizing post with
    | nil => exact pairwise_singleton ..
    | append_singleton mid b ih =>
      obtain ⟨hmid, htakes⟩ := Fits.concat_iff.mp hf
      have heq' : chunks = pre ++ a :: mid ++ b :: post := by simpa using heq
      exact sameFile_of_takes htakes (ih _ heq' hmid) (h pre a mid b post heq' hb hf)
  · have hall := (pairwise_cons.mp (h pre a (mid ++ [b]) post (by simpa using heq) hb hf)).2
    exact (pairwise_append.mp hall).2.2 d hd b (mem_singleton_self b)

lemma exists_splitsBack_iff (hc : 0 < c.CHUNK_MIN_SIZE_TARGET) :
    (∃ groups, SplitsBack c (a :: chunks) (merge_docs_to_target_size c (a :: chunks)) groups ∧
      ∀ g ∈ groups, g.Pairwise SameFile) ↔ ∀ g ∈ groups (Takes c) [a] chunks, g.Pairwise SameFile := by
  have hsplit : SplitsBack c (a :: chunks) _ _ := splitsBack hc
  refine ⟨?_, fun h => ⟨_, hsplit, h⟩⟩
  rintro ⟨gs, hgs, hfile⟩
  rwa [groups_unique hsplit.nonempty hgs.nonempty (hsplit.flatten.trans hgs.flatten.symm)
    (hsplit.contents.symm.trans hgs.contents)]

def fileless : Document ℕ := ⟨[97], .empty⟩

def ofFile (id : ℕ) : Document ℕ := ⟨[98], Dict.empty.set "file_id" (some id)⟩

def hundred : Config := ⟨100, 10, length⟩

end MergeChunks

end CustomAi.OpenWebUI
