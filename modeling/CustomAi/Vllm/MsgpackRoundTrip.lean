import CustomAi.Vllm.MsgpackArrays

/-!
# Multimodal items survive encoding

A number, a tensor and a list are told apart by the decoder at every depth, slices and lists of
slices by their first item, and every factory gives back the field that named it.
-/

namespace CustomAi.Vllm

open List Option NestedTensors

section Induction

variable {T F : Type}

lemma NestedTensors.ind {P : NestedTensors T F → Prop} (hnone : P .none)
    (hnumber : ∀ n, P (.number n)) (htensor : ∀ t, P (.tensor t))
    (hlist : ∀ l, (∀ x ∈ l, P x) → P (.list l)) : ∀ x, P x :=
  @rec T F P (fun l => ∀ x ∈ l, P x) hnone hnumber htensor hlist nofun
    fun _ _ hy hl => forall_mem_cons.mpr ⟨hy, hl⟩

lemma Slices.ind {P : Slices → Prop} (hslice : ∀ start stop step, P (.slice start stop step))
    (hlist : ∀ l, (∀ s ∈ l, P s) → P (.list l)) : ∀ s, P s :=
  @Slices.rec P (fun l => ∀ s ∈ l, P s) hslice hlist nofun
    fun _ _ hs hl => forall_mem_cons.mpr ⟨hs, hl⟩

lemma NestedTensors.mapList_eq {U : Type} (f : T → U) (l : List (NestedTensors T F)) :
    mapList f l = l.map (map f) := by
  induction l with
  | nil => rfl
  | cons x l ih => rw [mapList, ih, map_cons]

lemma NestedTensors.noNoneList_iff (l : List (NestedTensors T F)) :
    noNoneList l ↔ ∀ x ∈ l, x.noNone := by
  induction l with
  | nil => simp [noNoneList]
  | cons x l ih => simp [noNoneList, ih]

end Induction

variable {F : Type} {itemsize : String → Option ℕ} (size_threshold : ℤ)

lemma encode_nested_list_eq (l : List (NestedTensors (StridedArray itemsize) F)) :
    encode_nested_list size_threshold l = encodeAll (encode_nested_tensors size_threshold) l := by
  induction l with
  | nil => rfl
  | cons x l ih =>
    simp only [encode_nested_list, encodeAll, ih]

lemma decode_nested_list_eq (aux_buffers : Buffers) (ms : List (Msg F)) :
    decode_nested_list itemsize aux_buffers ms = decodeAll (decode_nested_tensors itemsize aux_buffers) ms := by
  induction ms with
  | nil => rfl
  | cons m ms ih => simp only [decode_nested_list, decodeAll, ih]

/-- An encoded tree is neither a string nor nil, so it is not taken for the dtype of an array. -/
def Msg.isNested : Msg F → Bool
  | .nil | .str _ => false
  | _ => true

lemma startsWithStr_eq_false {ms : List (Msg F)} (h : ∀ m ∈ ms, m.isNested = true) : startsWithStr ms = false := by
  cases ms with
  | nil => rfl
  | cons m ms =>
    have hm := h m mem_cons_self
    cases m <;> first | rfl | cases hm

lemma encode_nested_tensors_roundTrips (x : NestedTensors (StridedArray itemsize) F) (hx : x.noNone) :
    RoundTrips (fun m : Msg F => m.isNested = true) (encode_nested_tensors size_threshold x)
      (decode_nested_tensors itemsize) (x.map StridedArray.value) := by
  induction x using NestedTensors.ind with
  | hnone => cases hx
  | hnumber n =>
    intro bufs
    refine ⟨n.msg, bufs, rfl, ?_, DecodesTo.inline fun final => ?_⟩ <;> cases n <;> rfl
  | htensor t =>
    intro bufs
    obtain ⟨m, bufs', henc, harray, hdec⟩ := encode_tensor_roundTrips (F := F) size_threshold t bufs
    refine ⟨m, bufs', henc, ?_, hdec.congr fun final used h => ?_⟩
    · cases m <;> first | rfl | cases harray
    · match m, harray with
      | .list (.str s :: rest), _ =>
        simp only [decode_nested_tensors, startsWithStr, if_true, h, map_some]
        rfl
  | hlist l ih =>
    intro bufs
    have hall := (NestedTensors.noNoneList_iff l).mp hx
    obtain ⟨ms, bufs', henc, hnested, hdec⟩ := DecodesTo.all (fun a ha => ih a ha (hall a ha)) bufs
    refine ⟨.list ms, bufs', ?_, rfl, hdec.congr fun final used h => ?_⟩
    · rw [encode_nested_tensors, encode_nested_list_eq, henc]
      rfl
    · simp only [decode_nested_tensors, startsWithStr_eq_false hnested, Bool.false_eq_true, if_false,
        decode_nested_list_eq, h, map_some, NestedTensors.map, NestedTensors.mapList_eq]

variable {elem : MultiModalFieldElem (StridedArray itemsize) F} (s : Slices)

lemma isList_encode_slices : (encode_slices s : Msg F).isList = true := by
  cases s <;> rfl

lemma readOptInt_optInt (z : Option ℤ) : readOptInt (optInt z : Msg F) = some z := by
  cases z <;> rfl

lemma startsFlat_encode_slices_list (l : List Slices) :
    startsFlat (encode_slices_list l : List (Msg F)) = false := by
  cases l with
  | nil => rfl
  | cons s l => simp [encode_slices_list, startsFlat, isList_encode_slices]

lemma decode_nested_slices_encode : decode_nested_slices (encode_slices s : Msg F) = some s := by
  induction s using Slices.ind with
  | hslice start stop step =>
    have hflat : startsFlat [(optInt start : Msg F), optInt stop, optInt step] = true := by
      cases start <;> rfl
    simp only [encode_slices, decode_nested_slices, hflat, if_true, readSlice, readOptInt_optInt]
    rfl
  | hlist l ih =>
    have hlist : decode_slices_list (encode_slices_list l : List (Msg F)) = some l := by
      induction l with
      | nil => rfl
      | cons s l ihl =>
        have hs := ih s mem_cons_self
        have hl := ihl fun x hx => ih x (mem_cons_of_mem s hx)
        simp [encode_slices_list, decode_slices_list, hs, hl]
    simp only [encode_slices, decode_nested_slices, startsFlat_encode_slices_list,
      Bool.false_eq_true, if_false, hlist, map_some]

lemma decode_mm_field_encode (field : MultiModalField) :
    decode_mm_field (encode_mm_field field : Msg F) = some field := by
  cases field with
  | batched keep_on_cpu => rfl
  | flat keep_on_cpu slices dim =>
    have hslices := decode_nested_slices_encode (F := F) slices
    simp [encode_mm_field, decode_mm_field, readFlag, readInt, lookup_cons, hslices]
  | shared keep_on_cpu batch_size => rfl

lemma encode_data_roundTrips (h : elem.typed) :
    RoundTrips (fun _ : Msg F => True) (encode_data size_threshold elem.data)
      (decode_data itemsize) (elem.data.map StridedArray.value) := by
  obtain ⟨data, field⟩ := elem
  intro bufs
  have hdata : data.noNone → ∃ m bufs', encode_nested_tensors size_threshold data bufs =
      some (m, bufs') ∧ True ∧ DecodesTo (decode_data itemsize) bufs m bufs'
        (data.map StridedArray.value) := fun hx => by
    obtain ⟨m, bufs', henc, hnested, hdec⟩ := encode_nested_tensors_roundTrips size_threshold data hx bufs
    refine ⟨m, bufs', henc, trivial, hdec.congr fun final used h => ?_⟩
    cases m <;> first | exact h | cases hnested
  cases data with
  | none => exact ⟨.nil, bufs, rfl, trivial, DecodesTo.inline fun _ => rfl⟩
  | number n => exact hdata h
  | tensor t => exact hdata h
  | list l => exact hdata h

lemma encode_mm_field_elem_roundTrips (h : elem.typed) :
    RoundTrips (fun _ : Msg F => True) (encode_mm_field_elem size_threshold elem)
      (decode_mm_field_elem itemsize) (elem.map StridedArray.value) := by
  intro bufs
  obtain ⟨m, bufs', henc, -, hdec⟩ := encode_data_roundTrips size_threshold h bufs
  refine ⟨_, bufs', by simp only [encode_mm_field_elem, henc]; rfl, trivial, hdec.congr fun final used hm => ?_⟩
  have hfield := decode_mm_field_encode (F := F) elem.field
  simp [decode_mm_field_elem, lookup_cons, hm, hfield, MultiModalFieldElem.map]

lemma encodeEntry_roundTrips {α γ : Type} {enc : α → Buffers → Option (Msg F × Buffers)}
    {dec : Buffers → Msg F → Option (γ × List ℕ)} {f : α → γ} {p : String × α}
    (h : RoundTrips (fun _ => True) (enc p.2) dec (f p.2)) :
    RoundTrips (fun _ => True) (encodeEntry enc p) (fun final => decodeEntry (dec final)) (p.1, f p.2) := by
  intro bufs
  obtain ⟨m, bufs', henc, -, hdec⟩ := h bufs
  refine ⟨(p.1, m), bufs', by simp only [encodeEntry, henc]; rfl, trivial, hdec.congr fun final used hm => ?_⟩
  simp [decodeEntry, hm]

lemma encode_mm_item_roundTrips {item : MultiModalKwargsItem (StridedArray itemsize) F}
    (h : ∀ p ∈ item, p.2.typed) : RoundTrips (fun _ : Msg F => True) (encode_mm_item size_threshold item)
      (decode_mm_item itemsize) (mapItem StridedArray.value item) := by
  intro bufs
  obtain ⟨ms, bufs', henc, -, hdec⟩ := DecodesTo.all (fun p hp =>
    encodeEntry_roundTrips (encode_mm_field_elem_roundTrips size_threshold (h p hp))) bufs
  exact ⟨.dict ms, bufs', by simp only [encode_mm_item, henc]; rfl, trivial, hdec⟩

lemma encode_itemlist_roundTrips {itemlist : List (MultiModalKwargsItem (StridedArray itemsize) F)}
    (h : ∀ item ∈ itemlist, ∀ p ∈ item, p.2.typed) :
    RoundTrips (fun _ : Msg F => True) (encode_itemlist size_threshold itemlist)
      (decode_itemlist itemsize) (itemlist.map (mapItem StridedArray.value)) := by
  intro bufs
  obtain ⟨ms, bufs', henc, -, hdec⟩ := DecodesTo.all (fun item hitem =>
    encode_mm_item_roundTrips size_threshold (h item hitem)) bufs
  exact ⟨.list ms, bufs', by simp only [encode_itemlist, henc]; rfl, trivial, hdec⟩

lemma encode_mm_items_roundTrips {items : MultiModalKwargsItems (StridedArray itemsize) F}
    (h : ∀ q ∈ items, ∀ item ∈ q.2, ∀ p ∈ item, p.2.typed) :
    RoundTrips (fun _ : Msg F => True) (encode_mm_items size_threshold items)
      (decode_mm_items itemsize) (mapItems StridedArray.value items) := by
  intro bufs
  obtain ⟨ms, bufs', henc, -, hdec⟩ := DecodesTo.all (fun q hq =>
    encodeEntry_roundTrips (encode_itemlist_roundTrips size_threshold (h q hq))) bufs
  exact ⟨.dict ms, bufs', by simp only [encode_mm_items, henc]; rfl, trivial, hdec⟩

end CustomAi.Vllm

/-!
## Utility results and whole messages

The result of a utility call is untyped: its type information travels beside it as a tree of the
same shape, whose leaves are the names of classes.
-/

namespace CustomAi.Vllm

inductive Result (T F : Type)
  | none
  | bool (b : Bool)
  | int (z : ℤ)
  | float (f : F)
  | str (s : String)
  | tensor (t : T)
  | list (l : List (Result T F))
  | dict (entries : List (String × Result T F))

section Maps

variable {T U F : Type}

mutual

def Result.map (f : T → U) : Result T F → Result U F
  | .none => .none
  | .bool b => .bool b
  | .int z => .int z
  | .float x => .float x
  | .str s => .str s
  | .tensor t => .tensor (f t)
  | .list l => .list (Result.mapList f l)
  | .dict entries => .dict (Result.mapEntries f entries)

def Result.mapList (f : T → U) : List (Result T F) → List (Result U F)
  | [] => []
  | r :: l => r.map f :: Result.mapList f l

def Result.mapEntries (f : T → U) : List (String × Result T F) → List (String × Result U F)
  | [] => []
  | (k, r) :: entries => (k, r.map f) :: Result.mapEntries f entries

end

mutual

def Result.keysDistinct : Result T F → Prop
  | .list l => Result.keysDistinctList l
  | .dict entries => (entries.map Prod.fst).Nodup ∧ Result.keysDistinctEntries entries
  | _ => True

def Result.keysDistinctList : List (Result T F) → Prop
  | [] => True
  | r :: l => r.keysDistinct ∧ Result.keysDistinctList l

def Result.keysDistinctEntries : List (String × Result T F) → Prop
  | [] => True
  | (_, r) :: entries => r.keysDistinct ∧ Result.keysDistinctEntries entries

end

end Maps

section Encode

variable {F : Type} {itemsize : String → Option ℕ} (size_threshold : ℤ)

/-- `(t.__module__, t.__qualname__)`. -/
def typestr (mod_name name : String) : Msg F := .list [.str mod_name, .str name]

mutual

/-- `_encode_type_info_recursive`. -/
def encode_type_info {T : Type} : Result T F → Msg F
  | .none => .nil
  | .bool _ => typestr "builtins" "bool"
  | .int _ => typestr "builtins" "int"
  | .float _ => typestr "builtins" "float"
  | .str _ => typestr "builtins" "str"
  | .tensor _ => typestr "torch" "Tensor"
  | .list l => .list (encode_type_info_list l)
  | .dict entries => .dict (encode_type_info_entries entries)

def encode_type_info_list {T : Type} : List (Result T F) → List (Msg F)
  | [] => []
  | r :: l => encode_type_info r :: encode_type_info_list l

def encode_type_info_entries {T : Type} : List (String × Result T F) → List (String × Msg F)
  | [] => []
  | (k, r) :: entries => (k, encode_type_info r) :: encode_type_info_entries entries

end

mutual

/-- Native values as they are, tensors by `enc_hook`. -/
def encode_result : Result (StridedArray itemsize) F → Buffers → Option (Msg F × Buffers)
  | .none, aux_buffers => some (.nil, aux_buffers)
  | .bool b, aux_buffers => some (.bool b, aux_buffers)
  | .int z, aux_buffers => some (.int z, aux_buffers)
  | .float f, aux_buffers => some (.float f, aux_buffers)
  | .str s, aux_buffers => some (.str s, aux_buffers)
  | .tensor t, aux_buffers => encode_tensor size_threshold t aux_buffers
  | .list l, aux_buffers => do
    let (ms, aux_buffers) ← encode_result_list l aux_buffers
    some (.list ms, aux_buffers)
  | .dict entries, aux_buffers => do
    let (ms, aux_buffers) ← encode_result_entries entries aux_buffers
    some (.dict ms, aux_buffers)

def encode_result_list : List (Result (StridedArray itemsize) F) → Buffers →
    Option (List (Msg F) × Buffers)
  | [], aux_buffers => some ([], aux_buffers)
  | r :: l, aux_buffers => do
    let (m, aux_buffers) ← encode_result r aux_buffers
    let (ms, aux_buffers) ← encode_result_list l aux_buffers
    some (m :: ms, aux_buffers)

def encode_result_entries : List (String × Result (StridedArray itemsize) F) → Buffers →
    Option (List (String × Msg F) × Buffers)
  | [], aux_buffers => some ([], aux_buffers)
  | (k, r) :: entries, aux_buffers => do
    let (m, aux_buffers) ← encode_result r aux_buffers
    let (ms, aux_buffers) ← encode_result_entries entries aux_buffers
    some ((k, m) :: ms, aux_buffers)

end

/-- `UtilityResult` in `enc_hook`; without insecure serialization the types are not sent. -/
def encode_utility_result (allow_insecure : Bool) (result : Result (StridedArray itemsize) F)
    (aux_buffers : Buffers) : Option (Msg F × Buffers) := do
  let (m, aux_buffers) ← encode_result size_threshold result aux_buffers
  some (.list [if allow_insecure then encode_type_info result else .nil, m], aux_buffers)

end Encode

section Decode

variable {F : Type} (itemsize : String → Option ℕ) (aux_buffers : Buffers)

mutual

def nativeResult : Msg F → Option (Result ArrayValue F)
  | .nil => some .none
  | .bool b => some (.bool b)
  | .int z => some (.int z)
  | .float f => some (.float f)
  | .str s => some (.str s)
  | .ext _ => none
  | .list l => (nativeResults l).map .list
  | .dict entries => (nativeEntries entries).map .dict

def nativeResults : List (Msg F) → Option (List (Result ArrayValue F))
  | [] => some []
  | m :: ms => do
    let r ← nativeResult m
    let rs ← nativeResults ms
    some (r :: rs)

def nativeEntries : List (String × Msg F) → Option (List (String × Result ArrayValue F))
  | [] => some []
  | (k, m) :: ms => do
    let r ← nativeResult m
    let rs ← nativeEntries ms
    some ((k, r) :: rs)

end

/-- A native value is converted to the class of this name in `builtins`. -/
def convertBuiltin (name : String) : Msg F → Option (Result ArrayValue F)
  | .bool b => if name = "bool" then some (.bool b) else none
  | .int z => if name = "int" then some (.int z) else none
  | .float f => if name = "float" then some (.float f) else none
  | .str s => if name = "str" then some (.str s) else none
  | _ => none

/-- `_convert_result`; `dec_hook` makes tensors. -/
def convert_result (result_type : List (Msg F)) (result : Msg F) :
    Option (Result ArrayValue F × List ℕ) :=
  match result_type with
  | [.str mod_name, .str name] =>
    if mod_name = "builtins" then (convertBuiltin name result).map fun r => (r, [])
    else if mod_name = "torch" ∧ name = "Tensor" then
      (decode_tensor itemsize aux_buffers result).map fun p => (.tensor p.1, p.2)
    else none
  | _ => none

/-- `len(type_info) != 2 or not isinstance(type_info[0], str)`. -/
def isListInfo (type_info : List (Msg F)) : Bool :=
  type_info.length ≠ 2 || !startsWithStr type_info

mutual

/-- `_decode_type_info_recursive`. -/
def decode_type_info : Msg F → Msg F → Option (Result ArrayValue F × List ℕ)
  | .nil, data => (nativeResult data).map fun r => (r, [])
  | .dict type_info, .dict data =>
    (decode_type_info_entries type_info data).map fun p => (.dict p.1, p.2)
  | .list type_info, data =>
    if isListInfo type_info then
      match data with
      | .list data => (decode_type_info_list type_info data).map fun p => (.list p.1, p.2)
      | _ => none
    else convert_result itemsize aux_buffers type_info data
  | _, _ => none

/-- `zip(type_info, data)`. -/
def decode_type_info_list : List (Msg F) → List (Msg F) →
    Option (List (Result ArrayValue F) × List ℕ)
  | ti :: type_info, d :: data => do
    let (r, used) ← decode_type_info ti d
    let (rs, used') ← decode_type_info_list type_info data
    some (r :: rs, used ++ used')
  | _, _ => some ([], [])

/-- `for k in type_info`. -/
def decode_type_info_entries : List (String × Msg F) → List (String × Msg F) →
    Option (List (String × Result ArrayValue F) × List ℕ)
  | [], _ => some ([], [])
  | (k, ti) :: type_info, data => do
    let d ← data.lookup k
    let (r, used) ← decode_type_info ti d
    let (rs, used') ← decode_type_info_entries type_info data
    some ((k, r) :: rs, used ++ used')

end

def decode_utility_result (allow_insecure : Bool) : Msg F →
    Option (Result ArrayValue F × List ℕ)
  | .list [result_type, result] =>
    match result_type with
    | .nil => (nativeResult result).map fun r => (r, [])
    | result_type =>
      if allow_insecure then decode_type_info itemsize aux_buffers result_type result else none
  | _ => none

end Decode

end CustomAi.Vllm
