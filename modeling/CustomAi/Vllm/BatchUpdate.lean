import Mathlib.Data.List.Sort
import CustomAi.Lib.Dict
import CustomAi.Vllm.Request

/-!
# Batch updates

`BatchUpdateBuilder` of `vllm/v1/sample/logits_processor/state.py`, and what the logits processors
of `builtin.py` do with its updates: `process_dict_updates` for a sparse processor and
`MinPLogitsProcessor.update_state`.
-/

namespace CustomAi.Vllm

/-- `float32`, as a rounding of the numbers that parameters are given in. -/
structure Float32 (F : Type) [Zero F] where
  round : F → F
  round_zero : round 0 = 0

inductive MoveDirectionality
  | unidirectional
  | swap
  deriving DecidableEq, Repr

/-- `SamplingParams`, as far as the persistent batch reads them. -/
structure BatchSamplingParams (F : Type) where
  greedy : Bool
  temperature : F
  topP : F
  topK : ℤ
  frequencyPenalty : F
  presencePenalty : F
  repetitionPenalty : F
  minP : F
  allowedTokenIds : List TokenId := []
  badWordsTokenIds : List (List TokenId) := []

/-- An element of `BatchUpdate.added`. -/
structure BatchAdd (F : Type) where
  index : ℕ
  params : BatchSamplingParams F
  promptTokIds : Option (List TokenId)
  outputTokIds : List TokenId

/-- An element of `BatchUpdate.moved`. -/
structure BatchMove where
  aIndex : ℕ
  bIndex : ℕ
  direct : MoveDirectionality
  deriving DecidableEq, Repr

structure BatchUpdate (F : Type) where
  batchSize : ℕ
  removed : List ℕ
  added : List (BatchAdd F)
  moved : List BatchMove

structure BatchUpdateBuilder (F : Type) where
  removed : List ℕ := []
  isRemovedSorted : Bool := false
  added : List (BatchAdd F) := []
  moved : List BatchMove := []

namespace BatchUpdateBuilder

variable {F : Type}

def ensureRemovedSorted (self : BatchUpdateBuilder F) : BatchUpdateBuilder F :=
  if self.isRemovedSorted then self
  else { self with
    removed := self.removed.insertionSort (· ≥ ·)
    isRemovedSorted := true }

def removedAppend (self : BatchUpdateBuilder F) (index : ℕ) :
    Except PyError (BatchUpdateBuilder F) := do
  ensure (self.isRemovedSorted = false) (.runtimeError
    "Cannot register new removed request after self.removed has been read.")
  return { self with removed := self.removed ++ [index] }

/-- `peek_removed`: the lowest removed index. -/
def peekRemoved (self : BatchUpdateBuilder F) : Option ℕ × BatchUpdateBuilder F :=
  if self.removed = [] then (none, self)
  else
    let self := self.ensureRemovedSorted
    (self.removed.getLast?, self)

def popRemoved (self : BatchUpdateBuilder F) : Option ℕ × BatchUpdateBuilder F :=
  if self.removed = [] then (none, self)
  else
    let self := self.ensureRemovedSorted
    (self.removed.getLast?, { self with removed := self.removed.dropLast })

def getAndReset (self : BatchUpdateBuilder F) (batchSize : ℕ) :
    Option (BatchUpdate F) × BatchUpdateBuilder F :=
  if self.removed = [] ∧ self.moved = [] ∧ self.added = [] then
    (none, { self with isRemovedSorted := false })
  else
    (some ⟨batchSize, self.removed, self.added, self.moved⟩, {})

lemma ensureRemovedSorted_spec (self : BatchUpdateBuilder F)
    (hsorted : self.isRemovedSorted = true → self.removed.Pairwise (· ≥ ·)) :
    ∃ removed, self.ensureRemovedSorted = { self with removed, isRemovedSorted := true } ∧
      removed.Perm self.removed ∧ removed.Pairwise (· ≥ ·) := by
  unfold ensureRemovedSorted
  split
  · next h =>
    refine ⟨self.removed, ?_, List.Perm.refl _, hsorted h⟩
    obtain ⟨removed, flag, added, moved⟩ := self
    cases h
    rfl
  · exact ⟨_, rfl, List.perm_insertionSort _ _, List.pairwise_insertionSort _ _⟩

lemma popRemoved_spec (self : BatchUpdateBuilder F)
    (hsorted : self.isRemovedSorted = true → self.removed.Pairwise (· ≥ ·)) :
    (self.removed = [] ∧ self.popRemoved = (none, self)) ∨ ∃ rest index, self.popRemoved =
        (some index, { self with removed := rest, isRemovedSorted := true }) ∧
      (rest ++ [index]).Perm self.removed ∧ (rest ++ [index]).Pairwise (· ≥ ·) := by
  unfold popRemoved
  split
  · next h => exact .inl ⟨h, rfl⟩
  · next h =>
    obtain ⟨removed, heq, hperm, hpair⟩ := self.ensureRemovedSorted_spec hsorted
    have hne : removed ≠ [] := fun hnil => h (List.nil_perm.mp (hnil ▸ hperm))
    have hlast := List.dropLast_append_getLast hne
    refine .inr ⟨removed.dropLast, removed.getLast hne, ?_, ?_, ?_⟩
    · rw [heq]
      dsimp only
      rw [List.getLast?_eq_getLast_of_ne_nil hne]
    · rwa [hlast]
    · rwa [hlast]

end BatchUpdateBuilder

section ProcessDictUpdates

variable {F T : Type}
  (newState : BatchSamplingParams F → Option (List TokenId) → List TokenId → Option T)
  (truthy : T → Bool)

/-- A request in `batch_update.added`. -/
def addEntry (reqEntries : Dict ℕ T) (added : BatchAdd F) : Dict ℕ T × Bool :=
  match newState added.params added.promptTokIds added.outputTokIds with
  | some state => (reqEntries.set added.index state, true)
  | none => (reqEntries.erase added.index, reqEntries.contains added.index)

def addEntries : List (BatchAdd F) → Dict ℕ T → Dict ℕ T × Bool
  | [], reqEntries => (reqEntries, false)
  | added :: rest, reqEntries =>
    let (reqEntries, updated) := addEntry newState reqEntries added
    let (reqEntries, more) := addEntries rest reqEntries
    (reqEntries, updated || more)

def removeEntries : List ℕ → Dict ℕ T → Dict ℕ T × Bool
  | [], reqEntries => (reqEntries, false)
  | index :: rest, reqEntries =>
    let updated := (reqEntries.get? index).any truthy
    let (reqEntries, more) := removeEntries rest (reqEntries.erase index)
    (reqEntries, updated || more)

/-- A move in `batch_update.moved`: both entries are popped and put back where they belong. -/
def moveEntry (reqEntries : Dict ℕ T) (moved : BatchMove) : Dict ℕ T × Bool :=
  let aEntry := reqEntries.get? moved.aIndex
  let reqEntries := reqEntries.erase moved.aIndex
  let bEntry := reqEntries.get? moved.bIndex
  let reqEntries := reqEntries.erase moved.bIndex
  let reqEntries := aEntry.elim reqEntries (reqEntries.set moved.bIndex)
  let reqEntries :=
    if moved.direct = .swap then bEntry.elim reqEntries (reqEntries.set moved.aIndex)
    else reqEntries
  (reqEntries, aEntry.isSome || bEntry.isSome)

def moveEntries : List BatchMove → Dict ℕ T → Dict ℕ T × Bool
  | [], reqEntries => (reqEntries, false)
  | moved :: rest, reqEntries =>
    let (reqEntries, updated) := moveEntry reqEntries moved
    let (reqEntries, more) := moveEntries rest reqEntries
    (reqEntries, updated || more)

/-- `process_dict_updates`, with the flag that it returns. -/
def processDictUpdates (reqEntries : Dict ℕ T) : Option (BatchUpdate F) → Dict ℕ T × Bool
  | none => (reqEntries, false)
  | some batchUpdate =>
    let (reqEntries, added) := addEntries newState batchUpdate.added reqEntries
    if reqEntries.size = 0 then (reqEntries, added)
    else
      let (reqEntries, removed) := removeEntries truthy batchUpdate.removed reqEntries
      let (reqEntries, moved) := moveEntries batchUpdate.moved reqEntries
      (reqEntries, added || removed || moved)

end ProcessDictUpdates

/-- `MinPLogitsProcessor`: the array on the CPU and the number of its non-zero entries. -/
structure MinPLogitsProcessor (F : Type) where
  minPCpu : ℕ → F
  minPCount : ℤ

namespace MinPLogitsProcessor

variable {F : Type} [Zero F] [DecidableEq F]

def new : MinPLogitsProcessor F := ⟨fun _ => 0, 0⟩

/-- A request in `batch_update.added`. The values are compared as `float32`. -/
def add (f32 : Float32 F) (self : MinPLogitsProcessor F) (added : BatchAdd F) :
    MinPLogitsProcessor F :=
  let minP := added.params.minP
  let minPBefore := self.minPCpu added.index
  if minPBefore ≠ f32.round minP then
    { minPCpu := Function.update self.minPCpu added.index (f32.round minP)
      minPCount :=
        if minP ≠ 0 ∧ minPBefore = 0 then self.minPCount + 1
        else if minP = 0 ∧ minPBefore ≠ 0 then self.minPCount - 1
        else self.minPCount }
  else self

def remove (self : MinPLogitsProcessor F) (index : ℕ) : MinPLogitsProcessor F :=
  if self.minPCpu index ≠ 0 then
    { minPCpu := Function.update self.minPCpu index 0
      minPCount := self.minPCount - 1 }
  else self

def move (self : MinPLogitsProcessor F) (moved : BatchMove) : MinPLogitsProcessor F :=
  let minPA := self.minPCpu moved.aIndex
  let minPB := self.minPCpu moved.bIndex
  let self :=
    if minPA ≠ minPB then
      let minPCpu := Function.update self.minPCpu moved.bIndex minPA
      { self with
        minPCpu := if moved.direct = .swap then Function.update minPCpu moved.aIndex minPB
          else minPCpu }
    else self
  if moved.direct = .unidirectional then
    { minPCpu := if minPA ≠ 0 then Function.update self.minPCpu moved.aIndex 0 else self.minPCpu
      minPCount := if minPB ≠ 0 then self.minPCount - 1 else self.minPCount }
  else self

/-- `update_state`, without the copy to the device. -/
def updateState (f32 : Float32 F) (self : MinPLogitsProcessor F) :
    Option (BatchUpdate F) → MinPLogitsProcessor F
  | none => self
  | some batchUpdate =>
    let self := batchUpdate.added.foldl (add f32) self
    if self.minPCount ≠ 0 then
      batchUpdate.moved.foldl move (batchUpdate.removed.foldl remove self)
    else self

end MinPLogitsProcessor

end CustomAi.Vllm
