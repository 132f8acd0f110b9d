import CustomAi.Lib.SqlLogic
import CustomAi.OpenWebUI.AccessControl
import Mathlib.Data.List.Nodup

/-!
# Access to knowledge bases

The policy is written twice: `has_permission` builds the condition of a query, and
`check_access_by_user_id` tests one item.
-/

namespace CustomAi.OpenWebUI.KnowledgeAccess

open CustomAi.Lib List

variable {Kid Uid Gid : Type}

structure AccessEntry (Uid Gid : Type) where
  group_ids : Option (List Gid)
  user_ids : Option (List Uid)

structure AccessDict (Uid Gid : Type) where
  read : Option (AccessEntry Uid Gid)
  write : Option (AccessEntry Uid Gid)

inductive AccessColumn (Uid Gid : Type)
  | null
  | jsonNull
  | dict (access : AccessDict Uid Gid)

namespace AccessDict

/-- `access_control[type]` -/
def entry? (access : AccessDict Uid Gid) : AccessType → Option (AccessEntry Uid Gid)
  | .read => access.read
  | .write => access.write

/-- `access_control.get(type, {})` with `.get("group_ids", [])` and `.get("user_ids", [])` -/
def get (access : AccessDict Uid Gid) : AccessControl Uid Gid := fun type =>
  { group_ids := ((access.entry? type).bind AccessEntry.group_ids).getD []
    user_ids := ((access.entry? type).bind AccessEntry.user_ids).getD [] }

end AccessDict

namespace AccessColumn

def load : AccessColumn Uid Gid → Option (AccessControl Uid Gid)
  | null | jsonNull => none
  | dict access => some access.get

/-- `access_control.is_(None)` -/
def isNull : AccessColumn Uid Gid → Sql
  | null => some true
  | jsonNull | dict _ => some false

/-- `cast(access_control, String) == "null"` -/
def isJsonNull : AccessColumn Uid Gid → Sql
  | null => none
  | jsonNull => some true
  | dict _ => some false

/-- `access_control[type]["group_ids"].contains(gid)`, unknown where the path does not exist. -/
def groupsContain [DecidableEq Gid] (type : AccessType) (gid : Gid) : AccessColumn Uid Gid → Sql
  | null | jsonNull => none
  | dict access =>
    ((access.entry? type).bind AccessEntry.group_ids).map fun group_ids => group_ids.contains gid

end AccessColumn

structure Knowledge (Kid Uid Gid : Type) where
  id : Kid
  user_id : Uid
  access_control : AccessColumn Uid Gid

structure KnowledgeTable (Kid Uid Gid : Type) where
  rows : List (Knowledge Kid Uid Gid)
  nodup : (rows.map Knowledge.id).Nodup

/-- A user id is never empty, so `if user_id` asks whether it is given. -/
structure Filter (Uid Gid : Type) where
  group_ids : List Gid
  user_id : Option Uid

inductive Requested
  | readOnly
  | access (type : AccessType)

variable [DecidableEq Kid] [DecidableEq Uid] [DecidableEq Gid]

def groupConditions (filter : Filter Uid Gid) (type : AccessType)
    (row : Knowledge Kid Uid Gid) : Sql :=
  Sql.any (filter.group_ids.map fun gid => row.access_control.groupsContain type gid)

def readOnlyCondition (filter : Filter Uid Gid) (row : Knowledge Kid Uid Gid) : Sql :=
  if filter.group_ids.isEmpty then some false
  else
    Sql.and (groupConditions filter .read row)
      (Sql.all ((filter.user_id.toList.map fun user_id => some (row.user_id != user_id)) ++
        [Sql.not (groupConditions filter .write row), Sql.not row.access_control.isNull,
          Sql.not row.access_control.isJsonNull]))

/-- The condition of the query; `none` where no condition is added. -/
def accessCondition (filter : Filter Uid Gid) (type : AccessType)
    (row : Knowledge Kid Uid Gid) : Option Sql :=
  let conditions := (if !filter.group_ids.isEmpty || filter.user_id.isSome then
      [row.access_control.isNull, row.access_control.isJsonNull] else []) ++
    (filter.user_id.toList.map fun user_id => some (row.user_id == user_id)) ++
    (if !filter.group_ids.isEmpty then [groupConditions filter type row] else [])
  if conditions.isEmpty then none else some (Sql.any conditions)

/-- The rows that the filter of `has_permission` keeps. -/
def has_permission (rows : List (Knowledge Kid Uid Gid)) (filter : Filter Uid Gid) :
    Requested → List (Knowledge Kid Uid Gid)
  | .readOnly => rows.filter fun row => (readOnlyCondition filter row).isTrue
  | .access type => rows.filter fun row => (accessCondition filter type row).all Sql.isTrue

def get_knowledge_by_id (table : KnowledgeTable Kid Uid Gid) (id : Kid) :
    Option (Knowledge Kid Uid Gid) :=
  table.rows.find? fun row => row.id == id

/-- The test of one item: its owner, or `has_access`. -/
def mayAccess (groups : Uid → List Gid) (user_id : Uid) (type : AccessType)
    (row : Knowledge Kid Uid Gid) : Bool :=
  row.user_id == user_id || has_access groups user_id type row.access_control.load

def check_access_by_user_id (table : KnowledgeTable Kid Uid Gid) (groups : Uid → List Gid)
    (id : Kid) (user_id : Uid) (type : AccessType) : Bool :=
  match get_knowledge_by_id table id with
  | none => false
  | some row => mayAccess groups user_id type row

def get_knowledge_bases_by_user_id (table : KnowledgeTable Kid Uid Gid) (groups : Uid → List Gid)
    (user_id : Uid) (type : AccessType) : List (Knowledge Kid Uid Gid) :=
  table.rows.filter (mayAccess groups user_id type)

def userFilter (groups : Uid → List Gid) (user_id : Uid) : Filter Uid Gid :=
  { group_ids := groups user_id, user_id := some user_id }

variable {table : KnowledgeTable Kid Uid Gid} {groups : Uid → List Gid} {user_id : Uid}
  {type : AccessType} {row : Knowledge Kid Uid Gid}

omit [DecidableEq Uid] [DecidableEq Gid] in
lemma get_knowledge_by_id_of_mem (h : row ∈ table.rows) : get_knowledge_by_id table row.id = some row := by
  have hex : (get_knowledge_by_id table row.id).isSome := by
    rw [get_knowledge_by_id, List.find?_isSome]
    exact ⟨row, h, by simp⟩
  obtain ⟨found, hfound⟩ := Option.isSome_iff_exists.mp hex
  have hid : found.id = row.id := by simpa using List.find?_some hfound
  have hmem : found ∈ table.rows := List.mem_of_find?_eq_some hfound
  rw [hfound, inj_on_of_nodup_map table.nodup hmem h hid]

lemma check_access_of_mem (h : row ∈ table.rows) : check_access_by_user_id table groups row.id user_id type =
      mayAccess groups user_id type row := by
  rw [check_access_by_user_id, get_knowledge_by_id_of_mem h]

def SharesGroup (groups : Uid → List Gid) (user_id : Uid) (type : AccessType)
    (row : Knowledge Kid Uid Gid) : Prop :=
  ∃ access, row.access_control.load = some access ∧ ∃ gid ∈ groups user_id, gid ∈ (access type).group_ids

omit [DecidableEq Kid] [DecidableEq Uid] in
lemma groupsContain_isTrue {gid : Gid} : (row.access_control.groupsContain type gid).isTrue = true ↔
      ∃ access, row.access_control.load = some access ∧ gid ∈ (access type).group_ids := by
  cases hcol : row.access_control with
  | null => simp [AccessColumn.groupsContain, AccessColumn.load]
  | jsonNull => simp [AccessColumn.groupsContain, AccessColumn.load]
  | dict access =>
    simp only [AccessColumn.groupsContain, AccessColumn.load, AccessDict.get, Option.some.injEq, exists_eq_left']
    cases (access.entry? type).bind AccessEntry.group_ids with
    | none => simp
    | some group_ids => simp

omit [DecidableEq Kid] [DecidableEq Uid] in
lemma groupConditions_isTrue : (groupConditions (userFilter groups user_id) type row).isTrue = true ↔
      SharesGroup groups user_id type row := by
  rw [groupConditions, Sql.isTrue_any]
  constructor
  · rintro ⟨x, hx, htrue⟩
    obtain ⟨gid, hgid, rfl⟩ := mem_map.mp hx
    obtain ⟨access, hload, hmem⟩ := groupsContain_isTrue.mp htrue
    exact ⟨access, hload, gid, hgid, hmem⟩
  · rintro ⟨access, hload, gid, hgid, hmem⟩
    exact ⟨_, mem_map.mpr ⟨gid, hgid, rfl⟩, groupsContain_isTrue.mpr ⟨access, hload, hmem⟩⟩

omit [DecidableEq Kid] [DecidableEq Uid] [DecidableEq Gid] in
lemma isNull_or_isJsonNull : row.access_control.isNull.isTrue = true ∨ row.access_control.isJsonNull.isTrue = true ↔
      row.access_control.load = none := by
  cases row.access_control <;>
    simp [AccessColumn.isNull, AccessColumn.isJsonNull, AccessColumn.load]

variable {rows : List (Knowledge Kid Uid Gid)}

omit [DecidableEq Kid] in
lemma mem_has_permission : row ∈ has_permission rows (userFilter groups user_id) (.access type) ↔ row ∈ rows ∧
      (row.access_control.load = none ∨ row.user_id = user_id ∨ SharesGroup groups user_id type row) := by
  rw [has_permission, mem_filter]
  refine and_congr_right fun _ => ?_
  rw [← isNull_or_isJsonNull, ← groupConditions_isTrue]
  by_cases hgroups : (groups user_id).isEmpty = true
  · have hnone : (groupConditions (userFilter groups user_id) type row).isTrue = false := by
      simp [groupConditions, userFilter, List.isEmpty_iff.mp hgroups, Sql.any]
    rw [hnone]
    simp [accessCondition, userFilter, hgroups, Sql.isTrue_any, or_assoc]
  · simp [accessCondition, userFilter, hgroups, Sql.isTrue_any, or_assoc]

omit [DecidableEq Kid] in
lemma mayAccess_iff : mayAccess groups user_id type row = true ↔ row.user_id = user_id ∨
    (row.access_control.load = none ∧ type = .read) ∨
    (∃ access, row.access_control.load = some access ∧ user_id ∈ (access type).user_ids) ∨
    SharesGroup groups user_id type row := by
  rw [mayAccess, Bool.or_eq_true, beq_iff_eq]
  refine or_congr_right ?_
  cases hload : row.access_control.load with
  | none => simp [has_access, get_permitted_group_and_user_ids, SharesGroup, hload]
  | some access => simp [has_access, get_permitted_group_and_user_ids, SharesGroup, hload]

/-- A public row is only written by its owner, and a named user owns the row or shares a group with
it. -/
def FilterAgrees (groups : Uid → List Gid) (user_id : Uid) (type : AccessType)
    (row : Knowledge Kid Uid Gid) : Prop :=
  match row.access_control.load with
  | none => type = .write → row.user_id = user_id
  | some access => user_id ∈ (access type).user_ids →
      row.user_id = user_id ∨ ∃ gid ∈ groups user_id, gid ∈ (access type).group_ids

omit [DecidableEq Kid] in
lemma kept_iff_mayAccess (h : row ∈ rows) : (row ∈ has_permission rows (userFilter groups user_id) (.access type) ↔
      mayAccess groups user_id type row = true) ↔ FilterAgrees groups user_id type row := by
  rw [mem_has_permission, mayAccess_iff, FilterAgrees, SharesGroup]
  cases hload : row.access_control.load with
  | none =>
    cases type with
    | read => simp [h]
    | write => simp [h]
  | some access =>
    simp only [h, true_and, reduceCtorEq, false_and, false_or, Option.some.injEq, exists_eq_left']
    tauto

/-- The rows of the filtered query are those of the list, and those that pass the test of one
item. -/
def ListMatchesCheck (table : KnowledgeTable Kid Uid Gid) (groups : Uid → List Gid) (user_id : Uid)
    (type : AccessType) : Prop :=
  (∀ row ∈ table.rows, row ∈ has_permission table.rows (userFilter groups user_id) (.access type) ↔
    check_access_by_user_id table groups row.id user_id type = true) ∧
  has_permission table.rows (userFilter groups user_id) (.access type) =
    get_knowledge_bases_by_user_id table groups user_id type

/-- The list matches the check exactly when the filter agrees on every row. -/
theorem list_matches_check_iff (table : KnowledgeTable Kid Uid Gid) (groups : Uid → List Gid)
    (user_id : Uid) (type : AccessType) : ListMatchesCheck table groups user_id type ↔
      ∀ row ∈ table.rows, FilterAgrees groups user_id type row := by
  constructor
  · rintro ⟨hcheck, -⟩ row hrow
    have hkept := hcheck row hrow
    rw [check_access_of_mem hrow] at hkept
    exact (kept_iff_mayAccess hrow).mp hkept
  · intro hagree
    have hkept : ∀ row ∈ table.rows, (row ∈ has_permission table.rows (userFilter groups user_id) (.access type) ↔
          mayAccess groups user_id type row = true) :=
      fun row hrow => (kept_iff_mayAccess hrow).mpr (hagree row hrow)
    refine ⟨fun row hrow => ?_, ?_⟩
    · rw [check_access_of_mem hrow]
      exact hkept row hrow
    · refine filter_congr fun row hrow => ?_
      have hrow' := hkept row hrow
      rw [has_permission] at hrow'
      simpa [hrow] using hrow'

def grantedRow : Knowledge ℕ ℕ ℕ :=
  { id := 0
    user_id := 1
    access_control := .dict
      { read := some { group_ids := some [], user_ids := some [2] }
        write := none } }

/-- The query hides a knowledge base that the user may open. -/
theorem granted_hidden : ¬ ∀ (table : KnowledgeTable ℕ ℕ ℕ) (groups : ℕ → List ℕ) (user_id : ℕ) (type : AccessType),
      ListMatchesCheck table groups user_id type := by
  intro h
  let table : KnowledgeTable ℕ ℕ ℕ := { rows := [grantedRow], nodup := by decide }
  have hagree := (h table (fun _ => []) 2 .read).1 grantedRow (mem_singleton.mpr rfl)
  have hkept : grantedRow ∉ has_permission table.rows (userFilter (fun _ => []) 2)
      (.access .read) := by
    rw [mem_has_permission]
    simp [grantedRow, SharesGroup, AccessColumn.load]
  have hcheck : check_access_by_user_id table (fun _ => []) grantedRow.id 2 .read = true := by
    decide
  exact hkept (hagree.mpr hcheck)

end CustomAi.OpenWebUI.KnowledgeAccess
