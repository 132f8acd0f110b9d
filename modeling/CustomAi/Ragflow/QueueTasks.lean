import Mathlib.Data.List.Count
import Mathlib.Data.List.Sort
import Mathlib.Algebra.BigOperators.Group.List.Basic
import Mathlib.Tactic.Linarith

/-!
# Queueing the tasks of a document

`queue_tasks` cuts a document into tasks, lets a task whose page range and configuration a finished
task of the last parsing had take over its chunks, and deletes the chunks that no task took over.
-/

namespace CustomAi.Ragflow.QueueTasks

open List

abbrev Str := List Char

inductive ConfigField
  | text (text : Str)
  | parserConfig (entries : List (String × Str))
deriving DecidableEq

/-- `del chunking_config[field][k]` for raptor and graphrag. -/
def ConfigField.withoutGraphs : ConfigField → ConfigField
  | .text t => .text t
  | .parserConfig entries => .parserConfig (entries.filter fun e => e.1 ∉ ["raptor", "graphrag"])

def hashedFields (str : ConfigField → Str) (config : List (String × ConfigField)) : List Str :=
  (config.insertionSort fun a b => a.1 ≤ b.1).map fun e =>
    str (if e.1 = "parser_config" then e.2.withoutGraphs else e.2)

/-- What the digest of a task is computed from: the texts of the configuration, the document and the
pages. -/
structure DigestInput where
  fields : List Str
  docId : Str
  fromPage : ℤ
  toPage : ℤ
deriving DecidableEq

variable {H : Type}

structure Task (H : Type) where
  docId : Str
  fromPage : ℤ
  toPage : ℤ
  progress : ℚ
  digest : H
  chunkIds : Option Str

/-- The fields of a task of the last parsing that `get_tasks` selects. -/
structure PrevTask (H : Type) where
  fromPage : ℤ
  progress : ℚ
  digest : H
  chunkIds : Str

inductive FileType
  | pdf
  | other
deriving DecidableEq

inductive ParserId
  | paper
  | one
  | knowledgeGraph
  | table
  | other
deriving DecidableEq

structure ParserConfig where
  /-- `layout_recognize` is `DeepDOC`, or missing. -/
  deepDoc : Bool
  taskPageSize : Option ℤ
  tocExtraction : Bool
  pages : List (ℤ × ℤ)

structure Doc where
  id : Str
  type : FileType
  parserId : ParserId
  parserConfig : ParserConfig

/-- `range(s, e, step)` -/
def pyRange (s e step : ℤ) : List ℤ :=
  let n := if 0 < step then (e - s + step - 1) / step
    else if step < 0 then (s - e - step - 1) / -step else 0
  (List.range n.toNat).map fun k : ℕ => s + step * (k : ℤ)

/-- `x or default` of a number that may be missing. -/
def orDefault (x : Option ℤ) (default : ℤ) : ℤ :=
  match x with
  | some n => if n = 0 then default else n
  | none => default

def pageSize (doc : Doc) : ℤ :=
  let size := if doc.parserId = .paper then orDefault doc.parserConfig.taskPageSize 22
    else orDefault doc.parserConfig.taskPageSize 12
  if doc.parserId = .one ∨ doc.parserId = .knowledgeGraph ∨ doc.parserConfig.deepDoc = false ∨
      doc.parserConfig.tocExtraction = true then 10 ^ 9
  else size

def pageRanges (doc : Doc) : List (ℤ × ℤ) :=
  if doc.parserConfig.pages = [] then [(1, 10 ^ 5)] else doc.parserConfig.pages

/-- The page ranges of the new tasks; `pages` is 0 where it is not known. -/
def taskRanges (doc : Doc) (pages rows : ℤ) : List (ℤ × ℤ) :=
  if doc.type = .pdf then
    (pageRanges doc).flatMap fun r =>
      let s := max 0 (r.1 - 1)
      let e := min (r.2 - 1) pages
      (pyRange s e (pageSize doc)).map fun p => (p, min (p + pageSize doc) e)
  else if doc.parserId = .table then
    (pyRange 0 rows 3000).map fun i => (i, min (i + 3000) rows)
  else [(0, 100000000)]

/-- `chunk_ids.split()` -/
def split (space : Char → Bool) (chunkIds : Str) : List Str :=
  (chunkIds.splitOnP space).filter fun w => w ≠ []

variable [DecidableEq H] (space : Char → Bool) (str : ConfigField → Str)
  (digest : DigestInput → H)

def parseTaskArray (doc : Doc) (pages rows : ℤ) (chunkingConfig : List (String × ConfigField)) :
    List (Task H) :=
  (taskRanges doc pages rows).map fun r =>
    { docId := doc.id, fromPage := r.1, toPage := r.2, progress := 0
      digest := digest ⟨hashedFields str chunkingConfig, doc.id, r.1, r.2⟩, chunkIds := none }

/-- The first finished task with the same first page and digest hands its chunks over. -/
def reusePrevTaskChunks (task : Task H) : List (PrevTask H) → Task H × List (PrevTask H) × ℕ
  | [] => (task, [], 0)
  | prevTask :: rest =>
    if prevTask.fromPage = task.fromPage ∧ prevTask.digest = task.digest then
      if prevTask.progress < 1 ∨ prevTask.chunkIds = [] then (task, prevTask :: rest, 0)
      else
        ({ task with chunkIds := some prevTask.chunkIds, progress := 1 },
          { prevTask with chunkIds := [] } :: rest, (split space prevTask.chunkIds).length)
    else
      let (task', rest', n) := reusePrevTaskChunks task rest
      (task', prevTask :: rest', n)

def reuseAll : List (Task H) → List (PrevTask H) → List (Task H) × List (PrevTask H) × ℕ
  | [], prevTasks => ([], prevTasks, 0)
  | task :: rest, prevTasks =>
    let (task', prevTasks, n) := reusePrevTaskChunks space task prevTasks
    let (rest', prevTasks, m) := reuseAll rest prevTasks
    (task' :: rest', prevTasks, n + m)

inductive PyError
  | indexError
deriving DecidableEq

/-- What a call did. `deleted` are the ids of the chunks deleted from the document store. -/
structure Outcome (H : Type) where
  tasks : List (Task H)
  deleted : List Str
  chunkNum : ℕ
  inserted : List (Task H)
  enqueued : List (Task H)
  error : Option PyError

/-- Inserting no tasks fails (`data_source[0]`). -/
def queueTasks (doc : Doc) (pages rows : ℤ) (chunkingConfig : List (String × ConfigField))
    (prevTasks : List (PrevTask H)) : Outcome H :=
  let tasks := parseTaskArray str digest doc pages rows chunkingConfig
  let (tasks, deleted, ckNum) :=
    if prevTasks = [] then (tasks, [], 0)
    else
      let (tasks, prevTasks, n) := reuseAll space tasks prevTasks
      (tasks, prevTasks.flatMap fun p => split space p.chunkIds, n)
  if tasks = [] then ⟨tasks, deleted, ckNum, [], [], some .indexError⟩
  else ⟨tasks, deleted, ckNum, tasks, tasks.filter fun t => t.progress < 1, none⟩

end CustomAi.Ragflow.QueueTasks

/-!
## What queueing the tasks of a document keeps

The chunks of the last parsing are handed over or deleted, none of them twice and none is left.
-/

namespace CustomAi.Ragflow.QueueTasks

open List

variable {H : Type} [DecidableEq H] {space : Char → Bool} {str : ConfigField → Str}
  {digest : DigestInput → H}

def Task.ids (space : Char → Bool) (t : Task H) : List Str := split space (t.chunkIds.getD [])

def PrevTask.ids (space : Char → Bool) (p : PrevTask H) : List Str := split space p.chunkIds

@[simp] lemma split_nil : split space [] = [] := by
  simp [split]

inductive TakenOver (prevTasks : List (PrevTask H)) (task : Task H) : Task H → Prop
  | none : TakenOver prevTasks task task
  | some (p : PrevTask H) : p ∈ prevTasks → 1 ≤ p.progress → p.chunkIds ≠ [] →
    p.fromPage = task.fromPage → p.digest = task.digest →
    TakenOver prevTasks task { task with chunkIds := some p.chunkIds, progress := 1 }

variable {prevTasks prevTasks' : List (PrevTask H)} {chunkingConfig : List (String × ConfigField)}
  {made tasks : List (Task H)} {t task : Task H} {page : ℤ}

omit [DecidableEq H] in
lemma TakenOver.mono {task' : Task H} (h : TakenOver prevTasks task task')
    (hsub : ∀ p ∈ prevTasks, p.chunkIds ≠ [] → p ∈ prevTasks') : TakenOver prevTasks' task task' := by
  cases h with
  | none => exact .none
  | some p hp hdone hne hpage hdigest =>
    exact .some p (hsub p hp hne) hdone hne hpage hdigest

structure Reused (space : Char → Bool) (task task' : Task H)
    (prevTasks prevTasks' : List (PrevTask H)) (n : ℕ) : Prop where
  taken : TakenOver prevTasks task task'
  count_eq : ∀ id, (prevTasks.flatMap (PrevTask.ids space)).count id =
    (prevTasks'.flatMap (PrevTask.ids space)).count id + (task'.ids space).count id
  num_eq : n = (task'.ids space).length
  kept : ∀ p ∈ prevTasks', p.chunkIds ≠ [] → p ∈ prevTasks

lemma reusePrevTaskChunks_reused (htask : task.chunkIds = none) (prevTasks : List (PrevTask H)) :
    Reused space task (reusePrevTaskChunks space task prevTasks).1 prevTasks
      (reusePrevTaskChunks space task prevTasks).2.1 (reusePrevTaskChunks space task prevTasks).2.2 := by
  have hids : task.ids space = [] := by rw [Task.ids, htask, Option.getD_none, split_nil]
  have hsame : ∀ l : List (PrevTask H), Reused space task task l l 0 := fun l =>
    { taken := .none
      count_eq := fun id => by rw [hids, count_nil, Nat.add_zero]
      num_eq := by rw [hids, length_nil]
      kept := fun _ hp _ => hp }
  induction prevTasks with
  | nil => exact hsame []
  | cons p rest ih =>
    rw [reusePrevTaskChunks]
    by_cases hmatch : p.fromPage = task.fromPage ∧ p.digest = task.digest
    · rw [if_pos hmatch]
      by_cases hskip : p.progress < 1 ∨ p.chunkIds = []
      · rw [if_pos hskip]
        exact hsame (p :: rest)
      · rw [if_neg hskip]
        push Not at hskip
        exact {
          taken := .some p (mem_cons_self ..) hskip.1 hskip.2 hmatch.1 hmatch.2
          count_eq := fun id => by
            simp only [flatMap_cons, count_append, PrevTask.ids, Task.ids, Option.getD_some, split_nil, count_nil]
            omega
          num_eq := rfl
          kept := fun q hq hne => by
            rcases mem_cons.mp hq with rfl | hq
            · exact absurd rfl hne
            · exact mem_cons_of_mem _ hq }
    · rw [if_neg hmatch]
      generalize reusePrevTaskChunks space task rest = result at ih ⊢
      obtain ⟨task', rest', n⟩ := result
      exact {
        taken := ih.taken.mono fun q hq _ => mem_cons_of_mem _ hq
        count_eq := fun id => by
          have hcount := ih.count_eq id
          simp only [flatMap_cons, count_append] at hcount ⊢
          omega
        num_eq := ih.num_eq
        kept := fun q hq hne => by
          rcases mem_cons.mp hq with rfl | hq
          · exact mem_cons_self ..
          · exact mem_cons_of_mem _ (ih.kept q hq hne) }

structure AllReused (space : Char → Bool) (tasks tasks' : List (Task H))
    (prevTasks prevTasks' : List (PrevTask H)) (n : ℕ) : Prop where
  taken : List.Forall₂ (TakenOver prevTasks) tasks tasks'
  count_eq : ∀ id, (prevTasks.flatMap (PrevTask.ids space)).count id =
    (prevTasks'.flatMap (PrevTask.ids space)).count id + (tasks'.flatMap (Task.ids space)).count id
  num_eq : n = (tasks'.flatMap (Task.ids space)).length
  kept : ∀ p ∈ prevTasks', p.chunkIds ≠ [] → p ∈ prevTasks

lemma reuseAll_reused (htasks : ∀ t ∈ tasks, t.chunkIds = none) (prevTasks : List (PrevTask H)) :
    AllReused space tasks (reuseAll space tasks prevTasks).1 prevTasks
      (reuseAll space tasks prevTasks).2.1 (reuseAll space tasks prevTasks).2.2 := by
  induction tasks generalizing prevTasks with
  | nil =>
    exact {
      taken := .nil
      count_eq := fun id => rfl
      num_eq := rfl
      kept := fun _ hp _ => hp }
  | cons task rest ih =>
    rw [reuseAll]
    have hone : Reused space task _ prevTasks _ _ :=
      reusePrevTaskChunks_reused (htasks task (mem_cons_self ..)) prevTasks
    generalize reusePrevTaskChunks space task prevTasks = result at hone ⊢
    obtain ⟨task', prevTasks1, n⟩ := result
    have hrest := ih (fun t ht => htasks t (mem_cons_of_mem _ ht)) prevTasks1
    dsimp only
    generalize reuseAll space rest prevTasks1 = result at hrest ⊢
    obtain ⟨rest', prevTasks2, m⟩ := result
    exact {
      taken := .cons hone.taken (hrest.taken.imp fun _ _ ht => ht.mono hone.kept)
      count_eq := fun id => by
        have hcount := hone.count_eq id
        have hcount' := hrest.count_eq id
        simp only [flatMap_cons, count_append] at hcount hcount' ⊢
        omega
      num_eq := by
        rw [flatMap_cons, length_append, ← hone.num_eq, ← hrest.num_eq]
      kept := fun p hp hne => hone.kept p (hrest.kept p hp hne) hne }

/-! ## The pages -/

def Selects (r : ℤ × ℤ) (page : ℤ) : Prop := r.1 - 1 ≤ page ∧ page < r.2 - 1

def Holds (r : ℤ × ℤ) (page : ℤ) : Prop := r.1 ≤ page ∧ page < r.2

instance (r : ℤ × ℤ) (page : ℤ) : Decidable (Selects r page) :=
  inferInstanceAs (Decidable (_ ∧ _))

instance (r : ℤ × ℤ) (page : ℤ) : Decidable (Holds r page) :=
  inferInstanceAs (Decidable (_ ∧ _))

lemma countP_pyRange {size : ℤ} (hsize : 0 < size) (s e page : ℤ) :
    ((pyRange s e size).map fun p => (p, min (p + size) e)).countP (fun r => Holds r page) =
      if s ≤ page ∧ page < e then 1 else 0 := by
  have hturn : ∀ k : ℕ, Holds (s + size * (k : ℤ), min (s + size * (k : ℤ) + size) e) page ↔
      (s ≤ page ∧ page < e) ∧ k = ((page - s) / size).toNat := fun k => by
    simp only [Holds, lt_min_iff]
    constructor
    · rintro ⟨hle, hlt, hend⟩
      have hpos : 0 ≤ size * (k : ℤ) := mul_nonneg hsize.le (Int.natCast_nonneg k)
      have hquot : (page - s) / size = k := Int.ediv_eq_iff_of_pos hsize |>.mpr ⟨by linarith, by linarith⟩
      exact ⟨⟨by linarith, hend⟩, by rw [hquot, Int.toNat_natCast]⟩
    · rintro ⟨⟨hs, hend⟩, hk⟩
      have hquot : 0 ≤ (page - s) / size := Int.ediv_nonneg (by linarith) hsize.le
      have hcast : (k : ℤ) = (page - s) / size := by rw [hk, Int.toNat_of_nonneg hquot]
      have hle : size * ((page - s) / size) ≤ page - s := Int.mul_ediv_self_le hsize.ne'
      have hlt : page - s < size * ((page - s) / size) + size := Int.lt_mul_ediv_self_add hsize
      rw [hcast]
      exact ⟨by linarith, by linarith, hend⟩
  rw [pyRange, if_pos hsize, map_map, countP_map]
  have hpred : ((fun r => decide (Holds r page)) ∘ (fun p => (p, min (p + size) e)) ∘
      fun k : ℕ => s + size * (k : ℤ)) =
      fun k : ℕ => decide ((s ≤ page ∧ page < e) ∧ k = ((page - s) / size).toNat) := by
    funext k
    exact decide_eq_decide.mpr (hturn k)
  rw [hpred]
  by_cases hin : s ≤ page ∧ page < e
  · have hle : size * ((page - s) / size) ≤ page - s := Int.mul_ediv_self_le hsize.ne'
    have hlt : (page - s) / size < (e - s + size - 1) / size := by
      refine Int.lt_of_add_one_le ((Int.le_ediv_iff_mul_le hsize).mpr ?_)
      linarith [hin.2]
    have hnat : ((page - s) / size).toNat < ((e - s + size - 1) / size).toNat := by
      have hquot : 0 ≤ (page - s) / size := Int.ediv_nonneg (by linarith) hsize.le
      omega
    simp only [hin, and_self, true_and]
    rw [← count_eq_one_of_mem nodup_range (mem_range.mpr hnat)]
    refine countP_congr fun k _ => ?_
    simp
  · rw [if_neg hin]
    exact countP_eq_zero.mpr fun k _ => by simp [hin]

variable {doc : Doc} {pages : ℤ}

lemma countP_taskRanges (hpdf : doc.type = .pdf) (hsize : 0 < pageSize doc) (rows : ℤ)
    (hpage : 0 ≤ page ∧ page < pages) : (taskRanges doc pages rows).countP (fun r => Holds r page) =
      (pageRanges doc).countP fun r => Selects r page := by
  rw [taskRanges, if_pos hpdf]
  induction pageRanges doc with
  | nil => rfl
  | cons r rest ih =>
    rw [flatMap_cons, countP_append, ih, countP_pyRange hsize, countP_cons, Nat.add_comm]
    refine congrArg (_ + ·) (if_congr ?_ rfl rfl)
    rw [decide_eq_true_eq, max_le_iff, lt_min_iff]
    exact ⟨fun h => ⟨h.1.2, h.2.1⟩, fun h => ⟨⟨hpage.1, h.1⟩, h.2, hpage.2⟩⟩

def Task.range (t : Task H) : ℤ × ℤ := (t.fromPage, t.toPage)

/-! ## A call -/

omit [DecidableEq H] in
lemma map_range_of_taken {tasks' : List (Task H)} (h : List.Forall₂ (TakenOver prevTasks) tasks tasks') :
    tasks'.map Task.range = tasks.map Task.range := by
  induction h with
  | nil => rfl
  | cons ht _ ih =>
    rw [map_cons, map_cons, ih]
    cases ht with
    | none => rfl
    | some => rfl

variable (space str digest)

/-- What a call does with the chunks of the last parsing and with the pages of the document. -/
structure Requeued (doc : Doc) (pages rows : ℤ) (chunkingConfig : List (String × ConfigField))
    (prevTasks : List (PrevTask H)) (o : Outcome H) : Prop where
  /-- A chunk is deleted, or one new task lists it. -/
  chunk_once : ∀ id ∈ prevTasks.flatMap (PrevTask.ids space), (id ∈ o.deleted ∧ ∀ t ∈ o.tasks, id ∉ t.ids space) ∨
      (id ∉ o.deleted ∧ o.tasks.countP (fun t => id ∈ t.ids space) = 1)
  /-- Chunks come from a finished task with the same pages and configuration. -/
  taken : ∀ t ∈ o.tasks, ∀ chunkIds, t.chunkIds = some chunkIds →
    ∃ p ∈ prevTasks, p.chunkIds = chunkIds ∧ 1 ≤ p.progress ∧ p.fromPage = t.fromPage ∧
      ∀ input, p.digest = digest input → input = ⟨hashedFields str chunkingConfig, doc.id, t.fromPage, t.toPage⟩
  enqueued : o.error = none → ∀ t ∈ o.tasks, t ∈ o.enqueued ↔ t.chunkIds = none
  chunk_num : o.chunkNum = (o.tasks.flatMap (Task.ids space)).length
  chunk_num_new : prevTasks = [] → o.chunkNum = 0
  /-- With a positive page size each selected page is in a task. -/
  covered : doc.type = .pdf → 0 < pageSize doc → ∀ page, 0 ≤ page ∧ page < pages →
    (∃ r ∈ pageRanges doc, Selects r page) → ∃ t ∈ o.tasks, Holds t.range page
  covered_once : doc.type = .pdf → 0 < pageSize doc →
    (pageRanges doc).Pairwise (fun r r' => ∀ page, ¬(Selects r page ∧ Selects r' page)) →
    ∀ page, 0 ≤ page ∧ page < pages → (∃ r ∈ pageRanges doc, Selects r page) →
      o.tasks.countP (fun t => Holds t.range page) = 1

variable {space str digest}

/-- How the tasks that a call makes end, with the deleted ids and the number of chunks. -/
structure Handed (space : Char → Bool) (made tasks : List (Task H)) (prevTasks : List (PrevTask H))
    (deleted : List Str) (n : ℕ) : Prop where
  taken : List.Forall₂ (TakenOver prevTasks) made tasks
  count_eq : ∀ id, (prevTasks.flatMap (PrevTask.ids space)).count id =
    deleted.count id + (tasks.flatMap (Task.ids space)).count id
  num_eq : n = (tasks.flatMap (Task.ids space)).length

omit [DecidableEq H] in
lemma parseTaskArray_new {rows : ℤ} (h : t ∈ parseTaskArray str digest doc pages rows chunkingConfig) :
    t.chunkIds = none ∧ t.progress = 0 ∧
      t.digest = digest ⟨hashedFields str chunkingConfig, doc.id, t.fromPage, t.toPage⟩ := by
  obtain ⟨r, -, rfl⟩ := mem_map.mp h
  exact ⟨rfl, rfl, rfl⟩

omit [DecidableEq H] in
lemma handed_none (hmade : ∀ t ∈ made, t.chunkIds = none) : Handed space made made [] [] 0 := by
  have hids : made.flatMap (Task.ids space) = [] := flatMap_eq_nil_iff.mpr fun t ht => by
    rw [Task.ids, hmade t ht, Option.getD_none, split_nil]
  exact {
    taken := forall₂_same.mpr fun t _ => .none
    count_eq := fun id => by rw [hids]; rfl
    num_eq := by rw [hids]; rfl }

omit [DecidableEq H] in
lemma AllReused.handed {n : ℕ} (h : AllReused space made tasks prevTasks prevTasks' n) :
    Handed space made tasks prevTasks (prevTasks'.flatMap (PrevTask.ids space)) n :=
  ⟨h.taken, h.count_eq, h.num_eq⟩

lemma queueTasks_handed (doc : Doc) (pages rows : ℤ)
    (chunkingConfig : List (String × ConfigField)) (prevTasks : List (PrevTask H)) :
    Handed space (parseTaskArray str digest doc pages rows chunkingConfig)
      (queueTasks space str digest doc pages rows chunkingConfig prevTasks).tasks prevTasks
      (queueTasks space str digest doc pages rows chunkingConfig prevTasks).deleted
      (queueTasks space str digest doc pages rows chunkingConfig prevTasks).chunkNum := by
  have hmade : ∀ t ∈ parseTaskArray str digest doc pages rows chunkingConfig, t.chunkIds = none :=
    fun t ht => (parseTaskArray_new ht).1
  unfold queueTasks
  generalize parseTaskArray str digest doc pages rows chunkingConfig = made at hmade ⊢
  by_cases hprev : prevTasks = []
  · subst hprev
    simp only [if_true]
    split
    · exact handed_none hmade
    · exact handed_none hmade
  · simp only [if_neg hprev]
    have hall : Handed space made _ prevTasks _ _ := (reuseAll_reused hmade prevTasks).handed
    split
    · exact hall
    · exact hall

lemma queueTasks_enqueued {rows : ℤ}
    (h : (queueTasks space str digest doc pages rows chunkingConfig prevTasks).error = none) :
    (queueTasks space str digest doc pages rows chunkingConfig prevTasks).enqueued =
      (queueTasks space str digest doc pages rows chunkingConfig prevTasks).tasks.filter
        fun t => t.progress < 1 := by
  unfold queueTasks at h ⊢
  by_cases hprev : prevTasks = []
  · simp only [if_pos hprev] at h ⊢
    split at h
    · exact absurd h nofun
    · next hne => simp only [if_neg hne]
  · simp only [if_neg hprev] at h ⊢
    split at h
    · exact absurd h nofun
    · next hne => simp only [if_neg hne]

omit [DecidableEq H] in
lemma exists_made (h : List.Forall₂ (TakenOver prevTasks) made tasks) (ht : t ∈ tasks) :
    ∃ task ∈ made, TakenOver prevTasks task t := by
  induction h with
  | nil => exact absurd ht not_mem_nil
  | @cons task t' made tasks hone _ ih =>
    rcases mem_cons.mp ht with rfl | ht
    · exact ⟨task, mem_cons_self .., hone⟩
    · obtain ⟨task', hmem, htaken⟩ := ih ht
      exact ⟨task', mem_cons_of_mem _ hmem, htaken⟩

lemma countP_of_count_flatMap {α β : Type} [BEq β] [LawfulBEq β] {f : α → List β} {x : β}
    {l : List α} (h : (l.flatMap f).count x = 1) : l.countP (fun a => x ∈ f a) = 1 := by
  induction l with
  | nil => exact absurd h (by simp)
  | cons a rest ih =>
    rw [flatMap_cons, count_append] at h
    rw [countP_cons]
    by_cases hmem : x ∈ f a
    · have hpos := count_pos_iff.mpr hmem
      have hzero : (rest.flatMap f).count x = 0 := by omega
      have hnone : rest.countP (fun a => x ∈ f a) = 0 := countP_eq_zero.mpr fun b hb hx =>
        count_eq_zero.mp hzero (mem_flatMap.mpr ⟨b, hb, of_decide_eq_true hx⟩)
      rw [hnone, if_pos (decide_eq_true hmem)]
    · rw [count_eq_zero.mpr hmem, Nat.zero_add] at h
      rw [ih h, if_neg (by simpa using hmem)]

lemma countP_tasks (hpdf : doc.type = .pdf) (hsize : 0 < pageSize doc) (rows : ℤ)
    (chunkingConfig : List (String × ConfigField)) (prevTasks : List (PrevTask H))
    (hpage : 0 ≤ page ∧ page < pages) :
    (queueTasks space str digest doc pages rows chunkingConfig prevTasks).tasks.countP
        (fun t => Holds t.range page) = (pageRanges doc).countP fun r => Selects r page := by
  have hhanded : Handed space (parseTaskArray str digest doc pages rows chunkingConfig) _ prevTasks
      _ _ := queueTasks_handed doc pages rows chunkingConfig prevTasks
  have hmap := map_range_of_taken hhanded.taken
  have hmade : (parseTaskArray str digest doc pages rows chunkingConfig).map Task.range =
      taskRanges doc pages rows := by
    rw [parseTaskArray, map_map]
    exact map_id _
  rw [← countP_taskRanges hpdf hsize rows hpage, ← hmade, ← hmap, countP_map]
  rfl

lemma countP_selects {ranges : List (ℤ × ℤ)}
    (hdisjoint : ranges.Pairwise fun r r' => ∀ page, ¬(Selects r page ∧ Selects r' page))
    (h : ∃ r ∈ ranges, Selects r page) : ranges.countP (fun r => Selects r page) = 1 := by
  induction ranges with
  | nil =>
    obtain ⟨r, hr, -⟩ := h
    exact absurd hr not_mem_nil
  | cons r rest ih =>
    obtain ⟨hhead, htail⟩ := pairwise_cons.mp hdisjoint
    rw [countP_cons]
    by_cases hr : Selects r page
    · have hnone : rest.countP (fun r => Selects r page) = 0 :=
        countP_eq_zero.mpr fun r' hr' hx => hhead r' hr' page ⟨hr, of_decide_eq_true hx⟩
      rw [hnone, if_pos (decide_eq_true hr)]
    · obtain ⟨r', hr', hsel⟩ := h
      rcases mem_cons.mp hr' with rfl | hr'
      · exact absurd hsel hr
      · rw [ih htail ⟨r', hr', hsel⟩, if_neg (by simpa using hr)]

/-- Chunks are neither lost nor listed twice, and every configured page is in a task. -/
theorem queueTasks_requeued (hinj : Function.Injective digest) (doc : Doc) (pages rows : ℤ)
    (chunkingConfig : List (String × ConfigField)) {prevTasks : List (PrevTask H)}
    (hids : (prevTasks.flatMap (PrevTask.ids space)).Nodup) :
    Requeued space str digest doc pages rows chunkingConfig prevTasks
      (queueTasks space str digest doc pages rows chunkingConfig prevTasks) := by
  have hhanded : Handed space (parseTaskArray str digest doc pages rows chunkingConfig) _ prevTasks
      _ _ := queueTasks_handed doc pages rows chunkingConfig prevTasks
  have hcount : doc.type = .pdf → 0 < pageSize doc → ∀ page, 0 ≤ page ∧ page < pages →
      (queueTasks space str digest doc pages rows chunkingConfig prevTasks).tasks.countP
        (fun t => Holds t.range page) = (pageRanges doc).countP fun r => Selects r page :=
    fun hpdf hsize _ hpage => countP_tasks hpdf hsize rows chunkingConfig prevTasks hpage
  exact {
    chunk_once := fun id hid => by
      have hone := count_eq_one_of_mem hids hid
      rw [hhanded.count_eq] at hone
      rcases Nat.eq_zero_or_pos (List.count id (queueTasks space str digest doc pages rows
        chunkingConfig prevTasks).deleted) with hzero | hpos
      · right
        rw [hzero, Nat.zero_add] at hone
        exact ⟨count_eq_zero.mp hzero, countP_of_count_flatMap hone⟩
      · left
        refine ⟨count_pos_iff.mp hpos, fun t ht hmem => ?_⟩
        have hpos' := count_pos_iff.mpr (mem_flatMap.mpr ⟨t, ht, hmem⟩)
        omega
    taken := fun t ht chunkIds hchunks => by
      obtain ⟨task, hmem, htaken⟩ := exists_made hhanded.taken ht
      obtain ⟨hnone, -, hdigest⟩ := parseTaskArray_new hmem
      cases htaken with
      | none => exact absurd (hnone.symm.trans hchunks) nofun
      | some p hp hdone hne hpage hpd =>
        obtain rfl := Option.some.inj hchunks
        exact ⟨p, hp, rfl, hdone, hpage, fun input hin => hinj (by rw [← hin, hpd, hdigest])⟩
    enqueued := fun herror t ht => by
      obtain ⟨task, hmem, htaken⟩ := exists_made hhanded.taken ht
      obtain ⟨hnone, hzero, -⟩ := parseTaskArray_new hmem
      rw [queueTasks_enqueued herror, mem_filter]
      cases htaken with
      | none => exact iff_of_true ⟨ht, by rw [hzero]; norm_num⟩ hnone
      | some p => exact iff_of_false (fun h => absurd h.2 (by norm_num)) nofun
    chunk_num := hhanded.num_eq
    chunk_num_new := fun hprev => by
      subst hprev
      simp only [queueTasks, if_true]
      split
      · rfl
      · rfl
    covered := fun hpdf hsize page hpage ⟨r, hr, hsel⟩ => by
      have hpos : 0 < (pageRanges doc).countP fun r => Selects r page :=
        countP_pos_iff.mpr ⟨r, hr, decide_eq_true hsel⟩
      rw [← hcount hpdf hsize page hpage] at hpos
      obtain ⟨t, ht, hholds⟩ := countP_pos_iff.mp hpos
      exact ⟨t, ht, of_decide_eq_true hholds⟩
    covered_once := fun hpdf hsize hdisjoint page hpage hsel => by
      rw [hcount hpdf hsize page hpage, countP_selects hdisjoint hsel] }

def thirtyPages (taskPageSize : Option ℤ) : Doc :=
  ⟨['d'], .pdf, .other, ⟨true, taskPageSize, false, [(1, 31)]⟩⟩

def lastTasks : List (PrevTask DigestInput) :=
  [⟨0, 1, ⟨[], ['d'], 0, 12⟩, ['a', ' ', 'b']⟩, ⟨12, 0, ⟨[], ['d'], 12, 24⟩, ['c']⟩]

theorem queueTasks_requeued_thirtyPages : Requeued (· = ' ') (fun _ => []) id (thirtyPages none) 30 0 [] lastTasks
      (queueTasks (· = ' ') (fun _ => []) id (thirtyPages none) 30 0 [] lastTasks) :=
  queueTasks_requeued Function.injective_id (thirtyPages none) 30 0 [] (by decide)

/-- A negative page size leaves selected pages without a task. -/
theorem page_without_task : (∃ r ∈ pageRanges (thirtyPages (some (-1))), Selects r 0) ∧
    ¬∃ t ∈ (queueTasks (· = ' ') (fun _ => []) id (thirtyPages (some (-1))) 30 0 []
      ([] : List (PrevTask DigestInput))).tasks, Holds t.range 0 := by
  refine ⟨⟨(1, 31), mem_singleton.mpr rfl, by decide⟩, ?_⟩
  rintro ⟨t, ht, -⟩
  exact not_mem_nil ht

end CustomAi.Ragflow.QueueTasks
