import CustomAi.Lib.Dict
import CustomAi.Lib.PyList
import CustomAi.Lib.Strip

/-!
# The variables of a canvas

`get_variable_value` and `set_variable_value` name an output of a component, and a place in it by a
dotted path. The getter follows dictionaries, lists, JSON texts and attributes, the setter makes
every key of the path a dictionary and writes the last key into the innermost one. Values are trees:
no dictionary stands at two places.
-/

namespace CustomAi.Ragflow.CanvasVariables

open List Option Dict

abbrev Str := List Char

/-- A Python value: `K` are the keys, `A` the values without structure. -/
inductive Value (K A : Type)
  | none
  | text (text : Str)
  | atom (atom : A)
  | seq (items : List (Value K A))
  | dict (entries : List (K × Value K A))

inductive PyError
  | keyError
  | valueError
  | typeError
  | notFound
deriving DecidableEq

/-- What the functions use of Python: `json.loads`, `int(key)`, attributes, the truth of a value. -/
structure Python (K A : Type) where
  loads : Str → Option (Value K A)
  toInt : K → Option ℤ
  attr : Value K A → K → Value K A
  truthy : A → Bool

section

variable {K A : Type} [DecidableEq K] (py : Python K A)

def Value.truthy : Value K A → Bool
  | .none => false
  | .text t => !t.isEmpty
  | .atom a => py.truthy a
  | .seq items => !items.isEmpty
  | .dict entries => !entries.isEmpty

/-- `cur.get(key)`, where a missing key shows. -/
def entryAt (key : K) (cur : List (K × Value K A)) : Option (Value K A) := cur.lookup key

def readKey (key : K) : Value K A → Value K A
  | .dict entries => (entryAt key entries).getD .none
  | .seq items =>
    match py.toInt key with
    | some idx => (pyGet? items idx).getD .none
    | none => .none
  | cur => py.attr cur key

/-- A turn of the getter's loop; `None` stays `None`. -/
def readStep (cur : Value K A) (key : K) : Value K A :=
  match cur with
  | .none => .none
  | .text t =>
    match py.loads t with
    | some value => readKey py key value
    | none => .none
  | cur => readKey py key cur

/-- The dictionary under a key; `cur[key] = {}` where there is none. -/
def childEntries (key : K) (cur : List (K × Value K A)) : List (K × Value K A) :=
  match entryAt key cur with
  | some (.dict entries) => entries
  | _ => []

/-- The setter's loop over the keys, and `cur[keys[-1]] = value` in the dictionary it ends at. -/
def writeAlong (last : K) (value : Value K A) :
    List K → List (K × Value K A) → List (K × Value K A)
  | [], cur => Dict.assign last value cur
  | key :: rest, cur =>
    Dict.assign key (.dict (writeAlong last value rest (childEntries key cur))) cur

end

/-! ## The component outputs -/

/-- The `value` fields of a component's outputs. -/
structure Component (A : Type) where
  outputs : Dict Str (Option (Value Str A))

structure Variables (A : Type) where
  globals : Dict Str (Value Str A)
  components : Dict Str (Component A)

inductive Reference
  | global (name : Str)
  | output (cpnId rootKey rest : Str)
deriving DecidableEq

def stripChar (c : Char) (s : Str) : Str := strip (fun x => x == c) s

/-- The expression without braces and blanks, cut at the `@` and at the first dot. -/
def parseExp (exp : Str) : Except PyError Reference :=
  let exp := stripChar '}' (stripChar '{' (stripChar ' ' (stripChar '}' (stripChar '{' exp))))
  if '@' ∉ exp then .ok (.global exp)
  else
    match exp.splitOn '@' with
    | [cpnId, varNm] =>
      .ok (.output cpnId (varNm.takeWhile (· ≠ '.')) ((varNm.dropWhile (· ≠ '.')).drop 1))
    | _ => .error .valueError

variable {A : Type}

namespace Component

/-- `output(var_nm)`: all outputs for an empty name. -/
def output (c : Component A) (varNm : Str) : Value Str A :=
  if varNm ≠ [] then ((c.outputs.get? varNm).join).getD (.text [])
  else .dict (c.outputs.entries.map fun e => (e.1, e.2.getD .none))

def setOutput (c : Component A) (key : Str) (value : Value Str A) : Component A :=
  ⟨c.outputs.set key (some value)⟩

end Component

variable (py : Python Str A)

def getVariableParamValue (obj : Value Str A) (path : Str) : Value Str A :=
  if path = [] then obj else (path.splitOn '.').foldl (readStep py) obj

def getVariableValue (g : Variables A) (exp : Str) : Except PyError (Value Str A) := do
  match ← parseExp exp with
  | .global name =>
    match g.globals.get? name with
    | some value => .ok value
    | none => .error .keyError
  | .output cpnId rootKey rest =>
    match g.components.get? cpnId with
    | none => .error .notFound
    | some cpn =>
      let rootVal := cpn.output rootKey
      .ok (if rest = [] then rootVal else getVariableParamValue py rootVal rest)

def setVariableParamValue (obj : Value Str A) (path : Str) (value : Value Str A) :
    Except PyError (Value Str A) :=
  let keys := path.splitOn '.'
  if path = [] then .ok value
  else
    match obj with
    | .dict entries => .ok (.dict (writeAlong (keys.getLastD []) value keys entries))
    | _ => .error .typeError

def setVariableValue (g : Variables A) (exp : Str) (value : Value Str A) :
    Except PyError (Variables A) := do
  match ← parseExp exp with
  | .global name => .ok { g with globals := g.globals.set name value }
  | .output cpnId rootKey rest =>
    match g.components.get? cpnId with
    | none => .error .notFound
    | some cpn =>
      if rest = [] then
        .ok { g with components := g.components.set cpnId (cpn.setOutput rootKey value) }
      else
        let rootVal := cpn.output rootKey
        let rootVal := if rootVal.truthy py then rootVal else .dict []
        let newVal ← setVariableParamValue rootVal rest value
        .ok { g with components := g.components.set cpnId (cpn.setOutput rootKey newVal) }

/-! ## Reading what was written -/

section

variable {K B : Type} [DecidableEq K] {reader : Python K B}

lemma readStep_dict (entries : List (K × Value K B)) (key : K) :
    readStep reader (.dict entries) key = (entryAt key entries).getD .none := rfl

lemma entryAt_assign (key x : K) (value : Value K B) (l : List (K × Value K B)) :
    entryAt x (assign key value l) = if x = key then some value else entryAt x l :=
  lookup_assign key x value l

variable {l : List (K × Value K B)} (last : K)

variable {value : Value K B} {key : K}

lemma mem_of_entryAt (h : entryAt key l = some value) : (key, value) ∈ l := by
  induction l with
  | nil => exact absurd h nofun
  | cons e rest ih =>
    rw [entryAt, lookup_cons_ite] at h
    by_cases hk : key = e.1
    · rw [if_pos hk] at h
      obtain rfl := some.inj h
      exact hk ▸ mem_cons_self ..
    · rw [if_neg hk] at h
      exact mem_cons_of_mem _ (ih h)

lemma dict_ne_of_entryAt (h : entryAt key l = some value) : Value.dict l ≠ value := by
  intro heq
  have hsize : sizeOf (key, value) < sizeOf l := sizeOf_lt_of_mem (mem_of_entryAt h)
  have hdict := congrArg sizeOf heq
  simp only [Value.dict.sizeOf_spec, Prod.mk.sizeOf_spec] at hsize hdict
  omega

lemma read_writeAlong (value : Value K B) (keys : List K) (cur : List (K × Value K B)) : ∃ entries,
      keys.foldl (readStep reader) (.dict (writeAlong last value keys cur)) = .dict entries ∧
      entryAt last entries = some value := by
  induction keys generalizing cur with
  | nil => exact ⟨_, rfl, by rw [writeAlong, entryAt_assign, if_pos rfl]⟩
  | cons key rest ih =>
    rw [foldl_cons, readStep_dict, writeAlong, entryAt_assign, if_pos rfl]
    exact ih _

lemma writeAlong_writeAlong (v w : Value K B) (p : List K) (cur : List (K × Value K B)) :
    writeAlong last w p (writeAlong last v p cur) = writeAlong last w p cur := by
  induction p generalizing cur with
  | nil => exact assign_assign last v w cur
  | cons key rest ih =>
    have hchild : childEntries key (writeAlong last v (key :: rest) cur) =
        writeAlong last v rest (childEntries key cur) := by
      rw [childEntries, writeAlong, entryAt_assign, if_pos rfl]
    rw [writeAlong, hchild, ih, writeAlong, writeAlong, assign_assign]

end

/-- `exp` names a place below an output that is a dictionary. -/
structure NamesPlace (g : Variables A) (exp cpnId rootKey rest : Str) (c : Component A)
    (entries : List (Str × Value Str A)) : Prop where
  parse : parseExp exp = .ok (.output cpnId rootKey rest)
  root_ne : rootKey ≠ []
  rest_ne : rest ≠ []
  component : g.components.get? cpnId = some c
  output : c.outputs.get? rootKey = some (some (.dict entries))

def lastKey (rest : Str) : Str := (rest.splitOn '.').getLastD []

section

variable {py : Python Str A} {g : Variables A} {exp cpnId rootKey rest : Str} {c : Component A}
  {entries : List (Str × Value Str A)}

lemma NamesPlace.get_eq (h : NamesPlace g exp cpnId rootKey rest c entries) :
    getVariableValue py g exp = .ok ((rest.splitOn '.').foldl (readStep py) (.dict entries)) := by
  simp only [getVariableValue, h.parse, bind, Except.bind, h.component,
    Component.output, h.root_ne, h.output, h.rest_ne, getVariableParamValue, ne_eq,
    not_false_eq_true, if_true, if_false, join_some, getD_some]

def written (g : Variables A) (cpnId rootKey : Str) (c : Component A)
    (entries : List (Str × Value Str A)) : Variables A :=
  { g with components := g.components.set cpnId (c.setOutput rootKey (.dict entries)) }

lemma NamesPlace.set_eq (h : NamesPlace g exp cpnId rootKey rest c entries) (v : Value Str A) :
    setVariableValue py g exp v = .ok (written g cpnId rootKey c
      (writeAlong (lastKey rest) v (rest.splitOn '.') entries)) := by
  have hroot : (if (c.output rootKey).truthy py then c.output rootKey else .dict []) = Value.dict entries := by
    have hout : c.output rootKey = .dict entries := by
      simp [Component.output, h.root_ne, h.output]
    rw [hout]
    cases entries with
    | nil => rfl
    | cons e l => rfl
  simp only [setVariableValue, h.parse, bind, Except.bind, h.component, h.rest_ne, if_false]
  rw [hroot]
  simp only [setVariableParamValue, h.rest_ne, if_false, written, lastKey]

lemma NamesPlace.written (h : NamesPlace g exp cpnId rootKey rest c entries) (entries' : List (Str × Value Str A)) :
    NamesPlace (written g cpnId rootKey c entries') exp cpnId rootKey rest
      (c.setOutput rootKey (.dict entries')) entries' where
  parse := h.parse
  root_ne := h.root_ne
  rest_ne := h.rest_ne
  component := get?_set_self ..
  output := get?_set_self ..

/-- After a write below an output the getter returns the dictionary the value was put in, which is
not the value. -/
theorem get_after_set_ne (h : NamesPlace g exp cpnId rootKey rest c entries) (v : Value Str A) :
    ∃ g' d, setVariableValue py g exp v = .ok g' ∧ getVariableValue py g' exp = .ok (.dict d) ∧
      entryAt (lastKey rest) d = some v ∧ Value.dict d ≠ v := by
  obtain ⟨d, hread, hlookup⟩ : ∃ d, (rest.splitOn '.').foldl (readStep py)
      (.dict (writeAlong (lastKey rest) v (rest.splitOn '.') entries)) = .dict d ∧
      entryAt (lastKey rest) d = some v := read_writeAlong _ v _ entries
  refine ⟨_, d, h.set_eq v, ?_, hlookup, dict_ne_of_entryAt hlookup⟩
  rw [(h.written _).get_eq, hread]

/-- The last write to a place wins. -/
theorem set_after_set (h : NamesPlace g exp cpnId rootKey rest c entries) (v w : Value Str A) :
    ∃ g', setVariableValue py g exp v = .ok g' ∧ setVariableValue py g' exp w = setVariableValue py g exp w := by
  refine ⟨_, h.set_eq v, ?_⟩
  rw [(h.written _).set_eq, h.set_eq, writeAlong_writeAlong]
  simp only [written, Component.setOutput, Dict.set_set]

/-- A canvas with a dictionary `x` as the output of a component `c`. -/
def emptyOutput : Variables Unit :=
  ⟨.empty, Dict.empty.set "c".toList ⟨Dict.empty.set "x".toList (some (.dict []))⟩⟩

def plainPython : Python Str Unit :=
  ⟨fun _ => none, fun _ => none, fun _ _ => .none, fun _ => false⟩

theorem get_after_set_ne_emptyOutput : ∃ g' d,
    setVariableValue plainPython emptyOutput "c@x.a".toList (.text "1".toList) = .ok g' ∧
    getVariableValue plainPython g' "c@x.a".toList = .ok (.dict d) ∧
    entryAt (lastKey "a".toList) d = some (.text "1".toList) ∧
    Value.dict d ≠ .text "1".toList :=
  have hplace : NamesPlace emptyOutput "c@x.a".toList "c".toList "x".toList "a".toList _ [] :=
    ⟨rfl, by decide, by decide, rfl, rfl⟩
  get_after_set_ne hplace (.text "1".toList)

/-- `c@x.a` is a text. -/
def textOutput : Variables Unit :=
  written emptyOutput "c".toList "x".toList ⟨.empty⟩ [("a".toList, .text "1".toList)]

/-- The text at `a` is replaced by a dictionary. -/
theorem set_after_set_textOutput : ∃ g',
    setVariableValue plainPython textOutput "c@x.a.b".toList (.text "1".toList) = .ok g' ∧
    setVariableValue plainPython g' "c@x.a.b".toList (.text "2".toList) =
      setVariableValue plainPython textOutput "c@x.a.b".toList (.text "2".toList) :=
  have hplace : NamesPlace textOutput "c@x.a.b".toList "c".toList "x".toList "a.b".toList _ _ :=
    ⟨rfl, by decide, by decide, rfl, rfl⟩
  set_after_set hplace (.text "1".toList) (.text "2".toList)

/-- The value of `c@x.a` is written to `c@x.a.a`. -/
theorem written_one_key_deeper : ∃ g',
    setVariableValue plainPython emptyOutput "c@x.a".toList (.text "1".toList) = .ok g' ∧
    getVariableValue plainPython g' "c@x.a".toList =
      .ok (.dict [("a".toList, .text "1".toList)]) ∧
    Value.dict [("a".toList, .text "1".toList)] ≠ (.text "1".toList : Value Str Unit) :=
  ⟨_, rfl, rfl, nofun⟩

end

end CustomAi.Ragflow.CanvasVariables
