import Mathlib.Data.List.Sort
import CustomAi.Lib.Dict
import CustomAi.Lib.Splice

/-!
# Prompt updates of the multi-modal processor

`apply_token_matches` writes a prompt out anew with the contents of the multi-modal items.
-/

namespace CustomAi.Vllm.PromptUpdates

open Splice

inductive UpdateMode
  | insert
  | replace
deriving DecidableEq

inductive PromptSeq
  | text (text : String)
  | tokens (tokenIds : List ℕ)

/-- `PromptIndexTargets`. -/
inductive PromptIndex
  | start
  | prefixOf (seq : PromptSeq)
  | atEnd

inductive UpdateTarget
  | seq (seq : PromptSeq)
  | index (index : PromptIndex)

structure PromptTargetMatch where
  startIdx : ℕ
  endIdx : ℕ
deriving DecidableEq

namespace PromptTargetMatch

def le (m n : PromptTargetMatch) : Bool :=
  m.startIdx < n.startIdx || (m.startIdx == n.startIdx && m.endIdx ≤ n.endIdx)

def isEmpty (m : PromptTargetMatch) : Bool := m.startIdx == m.endIdx

end PromptTargetMatch

/-- `content` is the field `full` of the update's details. -/
structure ResolvedPromptUpdate where
  mode : UpdateMode
  target : UpdateTarget
  content : PromptSeq

abbrev MultiModalPromptUpdates := Dict String (List (List ResolvedPromptUpdate))

abbrev MultiModalPromptUpdatesApplyResult := Dict String (List (Option ℕ))

abbrev ItemKey := String × ℕ

abbrev MatchToApply := ItemKey × (PromptTargetMatch × ℕ)

variable (tokenizer : String → List ℕ)

def seq2tokens : PromptSeq → List ℕ
  | .text text => tokenizer text
  | .tokens tokenIds => tokenIds

def PromptIndex.getMatchIndex (prompt : List ℕ) (startIdx : ℕ) : PromptIndex → Option ℕ
  | .start => some 0
  | .prefixOf seq =>
    if startIdx ≠ 0 then none
    else
      let ids := seq2tokens tokenizer seq
      if prompt.take ids.length = ids then some ids.length else none
  | .atEnd => some prompt.length

/-- Each occurrence of `matchIds`, without overlapping ones. -/
def iterTokenMatches (tokenIds matchIds : List ℕ) (startIdx : ℕ) : List PromptTargetMatch :=
  if matchIds.length = 0 then []
  else if startIdx + matchIds.length < tokenIds.length + 1 then
    let endIdx := startIdx + matchIds.length
    if slice tokenIds startIdx endIdx = matchIds then
      ⟨startIdx, endIdx⟩ :: iterTokenMatches tokenIds matchIds endIdx
    else iterTokenMatches tokenIds matchIds (startIdx + 1)
  else []
termination_by tokenIds.length + 1 - startIdx

def ResolvedPromptUpdate.iterMatches (prompt : List ℕ) (startIdx : ℕ)
    (update : ResolvedPromptUpdate) : List PromptTargetMatch :=
  match update.target with
  | .index index =>
    match index.getMatchIndex tokenizer prompt startIdx with
    | some i => [⟨i, i⟩]
    | none => []
  | .seq seq => iterTokenMatches prompt (seq2tokens tokenizer seq) startIdx

def items (updates : MultiModalPromptUpdates) : List (ItemKey × List ResolvedPromptUpdate) :=
  updates.entries.flatMap fun e => e.2.zipIdx.map fun x => ((e.1, x.2), x.1)

/-- `mm_prompt_updates[modality][item_idx][update_idx]`. -/
def updateAt (updates : MultiModalPromptUpdates) (key : ItemKey) (updateIdx : ℕ) :
    Option ResolvedPromptUpdate := do
  let modalityUpdates ← updates.get? key.1
  let itemUpdates ← modalityUpdates[key.2]?
  itemUpdates[updateIdx]?

section

variable (prompt : List ℕ)

def findItem (prevEndIdx : ℕ) (mode : Option UpdateMode) :
    List (ResolvedPromptUpdate × ℕ) → Option (UpdateMode × PromptTargetMatch × ℕ)
  | [] => none
  | (update, updateIdx) :: rest =>
    match (update.iterMatches tokenizer prompt prevEndIdx).find?
        fun _ => mode = none ∨ mode = some update.mode with
    | some found => some (update.mode, found, updateIdx)
    | none => findItem prevEndIdx mode rest

/-- The loops over the items: `mode` and `mm_matches`. -/
def findAll (prevEndIdx : ℕ) (currentResult : ItemKey → Option ℕ) :
    Option UpdateMode → List (ItemKey × List ResolvedPromptUpdate) → Option UpdateMode × List MatchToApply
  | mode, [] => (mode, [])
  | mode, (key, itemUpdates) :: rest =>
    if currentResult key ≠ none then findAll prevEndIdx currentResult mode rest
    else
      match findItem tokenizer prompt prevEndIdx mode itemUpdates.zipIdx with
      | none => findAll prevEndIdx currentResult mode rest
      | some (mode', found, updateIdx) =>
        let (mode'', mmMatches) := findAll prevEndIdx currentResult (some mode') rest
        (mode'', (key, found, updateIdx) :: mmMatches)

def keepOneNonEmpty : Bool → List MatchToApply → List MatchToApply
  | _, [] => []
  | hasNonEmpty, item :: rest =>
    if item.2.1.isEmpty then item :: keepOneNonEmpty hasNonEmpty rest
    else if hasNonEmpty then keepOneNonEmpty hasNonEmpty rest
    else item :: keepOneNonEmpty true rest

variable (updates : MultiModalPromptUpdates)

def findMatches (prevEndIdx : ℕ) (currentResult : ItemKey → Option ℕ) :
    Option UpdateMode × List MatchToApply :=
  let (mode, mmMatches) := findAll tokenizer prompt prevEndIdx currentResult none (items updates)
  let matchesToApply := mmMatches.insertionSort fun a b => a.2.1.le b.2.1
  if mode = some .replace then (mode, keepOneNonEmpty false matchesToApply)
  else (mode, matchesToApply)

def allItemsFound (outResult : ItemKey → Option ℕ) : Bool :=
  updates.entries.all fun e =>
    e.2.length ≤ (List.range e.2.length).countP fun i => (outResult (e.1, i)).isSome

structure State where
  outSeqs : List (List ℕ)
  outResult : ItemKey → Option ℕ
  prevEndIdx : ℕ

def State.initial : State := ⟨[], fun _ => none, 0⟩

def endIdxToInsert (found : PromptTargetMatch) : UpdateMode → ℕ
  | .insert => found.endIdx
  | .replace => found.startIdx

/-- The turn of one match. A match of a round has an update (`Found.updateAt_eq`). -/
def applyMatch (mode : UpdateMode) (s : State) : MatchToApply → State
  | (key, found, updateIdx) =>
    match updateAt updates key updateIdx with
    | none => s
    | some matchedUpdate =>
      { outSeqs := s.outSeqs ++ [slice prompt s.prevEndIdx (endIdxToInsert found mode),
          seq2tokens tokenizer matchedUpdate.content]
        outResult := Function.update s.outResult key (some updateIdx)
        prevEndIdx := found.endIdx }

def applyRound (mode : UpdateMode) (matchesToApply : List MatchToApply) (s : State) : State :=
  matchesToApply.foldl (applyMatch tokenizer prompt updates mode) s

/-- The rounds; `none` when they take more than the given number. -/
def applyRounds : ℕ → State → Option State
  | 0, _ => none
  | fuel + 1, s =>
    match findMatches tokenizer prompt updates s.prevEndIdx s.outResult with
    | (none, _) => some s
    | (some mode, matchesToApply) =>
      let s' := applyRound tokenizer prompt updates mode matchesToApply s
      if allItemsFound updates s'.outResult then some s' else applyRounds fuel s'

def resultLists (outResult : ItemKey → Option ℕ) : MultiModalPromptUpdatesApplyResult :=
  updates.mapValues fun modality items =>
    (List.range items.length).map fun i => outResult (modality, i)

def applyMatches (fuel : ℕ) : Option (List (List ℕ) × MultiModalPromptUpdatesApplyResult) :=
  if allItemsFound updates State.initial.outResult then
    some ([prompt], resultLists updates State.initial.outResult)
  else do
    let s ← applyRounds tokenizer prompt updates fuel .initial
    some (s.outSeqs ++ [prompt.drop s.prevEndIdx], resultLists updates s.outResult)

def applyTokenMatches (fuel : ℕ) : Option (List ℕ × MultiModalPromptUpdatesApplyResult) := do
  let (tokenIdSeqs, result) ← applyMatches tokenizer prompt updates fuel
  some (tokenIdSeqs.flatten, result)

end

end CustomAi.Vllm.PromptUpdates
