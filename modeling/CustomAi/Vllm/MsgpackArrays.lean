import Mathlib.Algebra.BigOperators.Ring.List
import CustomAi.Lib.SideBuffers
import CustomAi.Lib.Strided

/-!
# Tensors and arrays in engine messages

`MsgpackEncoder` writes an array as its dtype, its shape and either its bytes or the index of a
buffer that is sent along; `MsgpackDecoder` puts it together again.
-/

namespace CustomAi.Vllm

variable {F : Type}

/-- A native value as msgpack transports it; tuples are lists. `ext` is `CUSTOM_TYPE_RAW_VIEW`. -/
inductive Msg (F : Type)
  | nil
  | bool (b : Bool)
  | int (z : ℤ)
  | float (f : F)
  | str (s : String)
  | ext (data : List UInt8)
  | list (l : List (Msg F))
  | dict (entries : List (String × Msg F))

abbrev Buffers := List (List UInt8)

/-- An array of a plain dtype: dimensions with strides, the address and the memory. -/
structure StridedArray (itemsize : String → Option ℕ) where
  dtype : String
  item : ℕ
  plain : itemsize dtype = some item
  item_pos : 0 < item
  dims : List (ℕ × ℤ)
  base : ℤ
  memory : ℤ → UInt8

structure ArrayValue where
  dtype : String
  shape : List ℕ
  data : List UInt8
deriving DecidableEq

namespace StridedArray

variable {itemsize : String → Option ℕ} (a : StridedArray itemsize)

def shape : List ℕ := a.dims.map Prod.fst

def nbytes : ℕ := stridedVolume a.dims * a.item

def tobytes : List UInt8 := elementBytes a.memory a.item a.dims a.base

def value : ArrayValue := ⟨a.dtype, a.shape, a.tobytes⟩

lemma length_tobytes : a.tobytes.length = a.nbytes := length_elementBytes _ _ _ _

end StridedArray

/-- `(dtype, shape, data)`. -/
def arrayMsg (dtype : String) (shape : List ℕ) (data : Msg F) : Msg F :=
  .list [.str dtype, .list (shape.map fun (n : ℕ) => .int n), data]

section Encode

variable {itemsize : String → Option ℕ} (size_threshold : ℤ)

def stash (inline : Prop) [Decidable inline] (arr_data : List UInt8) (aux_buffers : Buffers) :
    Msg F × Buffers :=
  if inline then (.ext arr_data, aux_buffers)
  else (.int aux_buffers.length, aux_buffers ++ [arr_data])

/-- `_encode_ndarray`; the data of a contiguous array is the memory from its base on. -/
def encode_ndarray (obj : StridedArray itemsize) (aux_buffers : Buffers) :
    Option (Msg F × Buffers) :=
  let arr_data := if Contiguous obj.item obj.dims then
    memoryBytes obj.memory obj.base obj.nbytes else obj.tobytes
  let (data, aux_buffers) := stash (obj.shape = [] ∨ (obj.nbytes : ℤ) < size_threshold) arr_data aux_buffers
  some (arrayMsg obj.dtype obj.shape data, aux_buffers)

/-- `_encode_tensor`; `tensor_data` is the data of a contiguous copy. -/
def encode_tensor (obj : StridedArray itemsize) (aux_buffers : Buffers) :
    Option (Msg F × Buffers) :=
  let (data, aux_buffers) := stash ((obj.nbytes : ℤ) < size_threshold) obj.tobytes aux_buffers
  some (arrayMsg obj.dtype obj.shape data, aux_buffers)

end Encode

section Decode

def readData (aux_buffers : Buffers) : Msg F → Option (List UInt8 × List ℕ)
  | .ext data => some (data, [])
  | .int z => if z < 0 then none else aux_buffers[z.toNat]?.map fun b => (b, [z.toNat])
  | _ => none

def readShape : List (Msg F) → Option (List ℕ)
  | [] => some []
  | .int z :: rest => if z < 0 then none else (readShape rest).map (z.toNat :: ·)
  | _ :: _ => none

def viewAs (itemsize : String → Option ℕ) (dtype : String) (shape : List ℕ)
    (buffer : List UInt8) : Option ArrayValue :=
  match itemsize dtype with
  | none => none
  | some item =>
    if buffer.length % item = 0 ∧ shape.prod = buffer.length / item then
      some ⟨dtype, shape, buffer⟩
    else none

def decode_ndarray (itemsize : String → Option ℕ) (aux_buffers : Buffers) :
    Msg F → Option (ArrayValue × List ℕ)
  | .list [.str dtype, .list shape, data] => do
    let (buffer, used) ← readData aux_buffers data
    let shape ← readShape shape
    let arr ← viewAs itemsize dtype shape buffer
    some (arr, used)
  | _ => none

/-- `_decode_tensor`; an empty buffer only fits a shape with a zero. -/
def decode_tensor (itemsize : String → Option ℕ) (aux_buffers : Buffers) :
    Msg F → Option (ArrayValue × List ℕ)
  | .list [.str dtype, .list shape, data] => do
    let (buffer, used) ← readData aux_buffers data
    let shape ← readShape shape
    let _ ← itemsize dtype
    if buffer = [] then
      if 0 ∈ shape then some (⟨dtype, shape, []⟩, used) else none
    else
      let arr ← viewAs itemsize dtype shape buffer
      some (arr, used)
  | _ => none

end Decode

lemma readShape_map (shape : List ℕ) : readShape (shape.map fun (n : ℕ) => (.int n : Msg F)) = some shape := by
  induction shape with
  | nil => rfl
  | cons n shape ih =>
    rw [List.map_cons, readShape, ih]
    rfl

variable {itemsize : String → Option ℕ}

lemma viewAs_value (a : StridedArray itemsize) : viewAs itemsize a.dtype a.shape a.tobytes = some a.value := by
  have hlen := a.length_tobytes
  have hmod : a.tobytes.length % a.item = 0 := by
    rw [hlen]
    exact Nat.mul_mod_left _ _
  have hdiv : a.shape.prod = a.tobytes.length / a.item := by
    rw [hlen]
    exact (Nat.mul_div_cancel _ a.item_pos).symm
  unfold viewAs
  rw [a.plain]
  simp only
  rw [if_pos ⟨hmod, hdiv⟩]
  rfl

lemma zero_mem_shape (a : StridedArray itemsize) (h : a.tobytes = []) : 0 ∈ a.shape := by
  have hlen := a.length_tobytes
  rw [h] at hlen
  rcases Nat.mul_eq_zero.mp hlen.symm with hvol | hitem
  · exact List.prod_eq_zero_iff.mp hvol
  · exact absurd hitem a.item_pos.ne'

lemma decodesTo_stash {inline : Prop} [Decidable inline] {data : List UInt8}
    {dec : Buffers → Msg F → Option (ArrayValue × List ℕ)} {dtype : String} {shape : List ℕ}
    {arr : ArrayValue} (hdec : ∀ final d used, readData final d = some (data, used) →
      dec final (arrayMsg dtype shape d) = some (arr, used)) (bufs : Buffers) :
    DecodesTo dec bufs (arrayMsg dtype shape (stash inline data bufs).1)
      (stash (F := F) inline data bufs).2 arr := by
  unfold stash
  by_cases h : inline
  · rw [if_pos h]
    exact DecodesTo.inline fun final => hdec final _ _ rfl
  · rw [if_neg h]
    refine DecodesTo.append fun final hget => hdec final _ _ ?_
    simp only [readData]
    rw [Int.toNat_natCast, hget]
    rfl

def Msg.isArray : Msg F → Bool
  | .list (.str _ :: _) => true
  | _ => false

lemma encode_tensor_roundTrips (size_threshold : ℤ) (a : StridedArray itemsize) :
    RoundTrips (fun m : Msg F => m.isArray = true) (encode_tensor size_threshold a)
      (decode_tensor itemsize) a.value := by
  intro bufs
  refine ⟨_, _, rfl, rfl, decodesTo_stash (fun final d used hread => ?_) bufs⟩
  unfold decode_tensor arrayMsg
  simp only [hread, readShape_map, Option.bind_eq_bind, Option.bind_some, a.plain]
  by_cases hempty : a.tobytes = []
  · rw [if_pos hempty, if_pos (zero_mem_shape a hempty)]
    unfold StridedArray.value
    rw [hempty]
  · rw [if_neg hempty, viewAs_value]
    rfl

lemma encode_ndarray_roundTrips (size_threshold : ℤ) (a : StridedArray itemsize) :
    RoundTrips (fun m : Msg F => m.isArray = true) (encode_ndarray size_threshold a)
      (decode_ndarray itemsize) a.value := by
  intro bufs
  have hdata : (if Contiguous a.item a.dims then memoryBytes a.memory a.base a.nbytes
      else a.tobytes) = a.tobytes := by
    split
    · rename_i hcontiguous
      exact (elementBytes_of_contiguous a.memory hcontiguous a.base).symm
    · rfl
  unfold encode_ndarray
  simp only [hdata]
  refine ⟨_, _, rfl, rfl, decodesTo_stash (fun final d used hread => ?_) bufs⟩
  unfold decode_ndarray arrayMsg
  simp only [hread, readShape_map, Option.bind_eq_bind, Option.bind_some, viewAs_value]

end CustomAi.Vllm

/-!
## Multimodal items in engine messages

The data of a field is a tree of tensors and numbers in which a tensor is told from a list by its
first item; the field itself travels as the name of its factory with the arguments for it.
-/

namespace CustomAi.Vllm

inductive Number (F : Type)
  | bool (b : Bool)
  | int (z : ℤ)
  | float (f : F)
deriving DecidableEq

/-- Tensors, numbers and nested lists of them; only the data as a whole may be None. -/
inductive NestedTensors (T F : Type)
  | none
  | number (n : Number F)
  | tensor (t : T)
  | list (l : List (NestedTensors T F))

inductive Slices
  | slice (start stop step : Option ℤ)
  | list (l : List Slices)

inductive MultiModalField
  | batched (keep_on_cpu : Bool)
  | flat (keep_on_cpu : Bool) (slices : Slices) (dim : ℤ)
  | shared (keep_on_cpu : Bool) (batch_size : ℤ)

structure MultiModalFieldElem (T F : Type) where
  data : NestedTensors T F
  field : MultiModalField

abbrev MultiModalKwargsItem (T F : Type) := List (String × MultiModalFieldElem T F)

abbrev MultiModalKwargsItems (T F : Type) := List (String × List (MultiModalKwargsItem T F))

section Maps

variable {T U F : Type}

mutual

def NestedTensors.map (f : T → U) : NestedTensors T F → NestedTensors U F
  | .none => .none
  | .number n => .number n
  | .tensor t => .tensor (f t)
  | .list l => .list (NestedTensors.mapList f l)

def NestedTensors.mapList (f : T → U) : List (NestedTensors T F) → List (NestedTensors U F)
  | [] => []
  | x :: l => x.map f :: NestedTensors.mapList f l

end

def MultiModalFieldElem.map (f : T → U) (elem : MultiModalFieldElem T F) :
    MultiModalFieldElem U F := ⟨elem.data.map f, elem.field⟩

def mapItem (f : T → U) (item : MultiModalKwargsItem T F) : MultiModalKwargsItem U F :=
  List.map (fun p => (p.1, p.2.map f)) item

def mapItems (f : T → U) (items : MultiModalKwargsItems T F) : MultiModalKwargsItems U F :=
  List.map (fun p => (p.1, p.2.map (mapItem f))) items

mutual

def NestedTensors.noNone : NestedTensors T F → Prop
  | .none => False
  | .number _ => True
  | .tensor _ => True
  | .list l => NestedTensors.noNoneList l

def NestedTensors.noNoneList : List (NestedTensors T F) → Prop
  | [] => True
  | x :: l => x.noNone ∧ NestedTensors.noNoneList l

end

def MultiModalFieldElem.typed (elem : MultiModalFieldElem T F) : Prop :=
  match elem.data with
  | .none => True
  | data => data.noNone

end Maps

section Encode

variable {F : Type} {itemsize : String → Option ℕ} (size_threshold : ℤ)

def Number.msg : Number F → Msg F
  | .bool b => .bool b
  | .int z => .int z
  | .float f => .float f

mutual

/-- `_encode_nested_tensors`; None is not iterable. -/
def encode_nested_tensors : NestedTensors (StridedArray itemsize) F → Buffers →
    Option (Msg F × Buffers)
  | .none, _ => Option.none
  | .number n, aux_buffers => some (n.msg, aux_buffers)
  | .tensor t, aux_buffers => encode_tensor size_threshold t aux_buffers
  | .list l, aux_buffers => do
    let (ms, aux_buffers) ← encode_nested_list l aux_buffers
    some (.list ms, aux_buffers)

def encode_nested_list : List (NestedTensors (StridedArray itemsize) F) → Buffers →
    Option (List (Msg F) × Buffers)
  | [], aux_buffers => some ([], aux_buffers)
  | x :: l, aux_buffers => do
    let (m, aux_buffers) ← encode_nested_tensors x aux_buffers
    let (ms, aux_buffers) ← encode_nested_list l aux_buffers
    some (m :: ms, aux_buffers)

end

/-- `int(v) if v is not None else None`. -/
def optInt : Option ℤ → Msg F
  | none => .nil
  | some z => .int z

mutual

def encode_slices : Slices → Msg F
  | .slice start stop step => .list [optInt start, optInt stop, optInt step]
  | .list l => .list (encode_slices_list l)

def encode_slices_list : List Slices → List (Msg F)
  | [] => []
  | s :: l => encode_slices s :: encode_slices_list l

end

/-- `_encode_mm_field`: the name of the factory and all fields of the dataclass. -/
def encode_mm_field : MultiModalField → Msg F
  | .batched keep_on_cpu => .list [.str "batched", .dict [("keep_on_cpu", .bool keep_on_cpu)]]
  | .flat keep_on_cpu slices dim => .list [.str "flat", .dict
      [("keep_on_cpu", .bool keep_on_cpu), ("slices", encode_slices slices), ("dim", .int dim)]]
  | .shared keep_on_cpu batch_size => .list [.str "shared", .dict
      [("keep_on_cpu", .bool keep_on_cpu), ("batch_size", .int batch_size)]]

/-- `None if elem.data is None else self._encode_nested_tensors(elem.data)`. -/
def encode_data (data : NestedTensors (StridedArray itemsize) F) (aux_buffers : Buffers) :
    Option (Msg F × Buffers) :=
  match data with
  | .none => some (.nil, aux_buffers)
  | data => encode_nested_tensors size_threshold data aux_buffers

def encode_mm_field_elem (elem : MultiModalFieldElem (StridedArray itemsize) F)
    (aux_buffers : Buffers) : Option (Msg F × Buffers) := do
  let (data, aux_buffers) ← encode_data size_threshold elem.data aux_buffers
  some (.dict [("data", data), ("field", encode_mm_field elem.field)], aux_buffers)

def encodeEntry {α : Type} (enc : α → Buffers → Option (Msg F × Buffers)) (p : String × α)
    (aux_buffers : Buffers) : Option ((String × Msg F) × Buffers) := do
  let (m, aux_buffers) ← enc p.2 aux_buffers
  some ((p.1, m), aux_buffers)

def encode_mm_item (item : MultiModalKwargsItem (StridedArray itemsize) F)
    (aux_buffers : Buffers) : Option (Msg F × Buffers) := do
  let (entries, aux_buffers) ←
    encodeAll (encodeEntry (encode_mm_field_elem size_threshold)) item aux_buffers
  some (.dict entries, aux_buffers)

def encode_itemlist (itemlist : List (MultiModalKwargsItem (StridedArray itemsize) F))
    (aux_buffers : Buffers) : Option (Msg F × Buffers) := do
  let (ms, aux_buffers) ← encodeAll (encode_mm_item size_threshold) itemlist aux_buffers
  some (.list ms, aux_buffers)

def encode_mm_items (items : MultiModalKwargsItems (StridedArray itemsize) F)
    (aux_buffers : Buffers) : Option (Msg F × Buffers) := do
  let (entries, aux_buffers) ←
    encodeAll (encodeEntry (encode_itemlist size_threshold)) items aux_buffers
  some (.dict entries, aux_buffers)

end Encode

section Decode

variable {F : Type} (itemsize : String → Option ℕ) (aux_buffers : Buffers)

/-- `obj and isinstance(obj[0], str)`. -/
def startsWithStr : List (Msg F) → Bool
  | .str _ :: _ => true
  | _ => false

mutual

def decode_nested_tensors : Msg F → Option (NestedTensors ArrayValue F × List ℕ)
  | .bool b => some (.number (.bool b), [])
  | .int z => some (.number (.int z), [])
  | .float f => some (.number (.float f), [])
  | .list l =>
    if startsWithStr l then
      (decode_tensor itemsize aux_buffers (.list l)).map fun p => (.tensor p.1, p.2)
    else (decode_nested_list l).map fun p => (.list p.1, p.2)
  | _ => Option.none

def decode_nested_list : List (Msg F) → Option (List (NestedTensors ArrayValue F) × List ℕ)
  | [] => some ([], [])
  | m :: ms => do
    let (x, used) ← decode_nested_tensors m
    let (xs, used') ← decode_nested_list ms
    some (x :: xs, used ++ used')

end

/-- An argument of `slice`. -/
def readOptInt : Msg F → Option (Option ℤ)
  | .nil => some none
  | .int z => some (some z)
  | _ => none

def Msg.isList : Msg F → Bool
  | .list _ => true
  | _ => false

/-- `slice(*obj)`. -/
def readSlice : List (Msg F) → Option Slices
  | [stop] => do some (.slice none (← readOptInt stop) none)
  | [start, stop] => do some (.slice (← readOptInt start) (← readOptInt stop) none)
  | [start, stop, step] => do
    some (.slice (← readOptInt start) (← readOptInt stop) (← readOptInt step))
  | _ => none

/-- `obj and not isinstance(obj[0], (list, tuple))`. -/
def startsFlat : List (Msg F) → Bool
  | [] => false
  | m :: _ => !m.isList

mutual

def decode_nested_slices : Msg F → Option Slices
  | .list l =>
    if startsFlat l then readSlice l else (decode_slices_list l).map .list
  | _ => none

def decode_slices_list : List (Msg F) → Option (List Slices)
  | [] => some []
  | m :: ms => do
    let s ← decode_nested_slices m
    let rest ← decode_slices_list ms
    some (s :: rest)

end

def readFlag (factory_kw : List (String × Msg F)) (key : String) : Option Bool :=
  match factory_kw.lookup key with
  | none => some false
  | some (.bool b) => some b
  | some _ => none

def readInt (factory_kw : List (String × Msg F)) (key : String) (default : Option ℤ) : Option ℤ :=
  match factory_kw.lookup key with
  | none => default
  | some (.int z) => some z
  | some _ => none

def decode_mm_field : Msg F → Option MultiModalField
  | .list [.str factory_meth_name, .dict factory_kw] => do
    let keep_on_cpu ← readFlag factory_kw "keep_on_cpu"
    if factory_meth_name = "batched" then some (.batched keep_on_cpu)
    else if factory_meth_name = "flat" then
      let slices ← factory_kw.lookup "slices"
      some (.flat keep_on_cpu (← decode_nested_slices slices) (← readInt factory_kw "dim" (some 0)))
    else if factory_meth_name = "shared" then
      some (.shared keep_on_cpu (← readInt factory_kw "batch_size" none))
    else none
  | _ => none

def decode_data : Msg F → Option (NestedTensors ArrayValue F × List ℕ)
  | .nil => some (.none, [])
  | m => decode_nested_tensors itemsize aux_buffers m

def decode_mm_field_elem : Msg F → Option (MultiModalFieldElem ArrayValue F × List ℕ)
  | .dict obj => do
    let data ← obj.lookup "data"
    let (data, used) ← decode_data itemsize aux_buffers data
    let field ← obj.lookup "field"
    some (⟨data, ← decode_mm_field field⟩, used)
  | _ => none

def decodeEntry {γ : Type} (dec : Msg F → Option (γ × List ℕ)) (p : String × Msg F) :
    Option ((String × γ) × List ℕ) := do
  let (c, used) ← dec p.2
  some ((p.1, c), used)

def decode_mm_item : Msg F → Option (MultiModalKwargsItem ArrayValue F × List ℕ)
  | .dict obj => decodeAll (decodeEntry (decode_mm_field_elem itemsize aux_buffers)) obj
  | _ => none

def decode_itemlist : Msg F → Option (List (MultiModalKwargsItem ArrayValue F) × List ℕ)
  | .list itemlist => decodeAll (decode_mm_item itemsize aux_buffers) itemlist
  | _ => none

def decode_mm_items : Msg F → Option (MultiModalKwargsItems ArrayValue F × List ℕ)
  | .dict obj => decodeAll (decodeEntry (decode_itemlist itemsize aux_buffers)) obj
  | _ => none

end Decode

end CustomAi.Vllm
