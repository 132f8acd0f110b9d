import CustomAi.Vllm.MsgpackRoundTrip

/-!
# Engine messages survive encoding

The type information of a result is decoded beside its data: the name of a class is a list of two
strings, and no list of type information starts with a string.
-/

namespace CustomAi.Vllm

open List

lemma Result.ind {T F : Type} {P : Result T F → Prop} (hnone : P .none)
    (hbool : ∀ b, P (.bool b)) (hint : ∀ z, P (.int z)) (hfloat : ∀ f, P (.float f))
    (hstr : ∀ s, P (.str s)) (htensor : ∀ t, P (.tensor t)) (hlist : ∀ l, (∀ r ∈ l, P r) → P (.list l))
    (hdict : ∀ entries, (∀ p ∈ entries, P p.2) → P (.dict entries)) : ∀ r, P r :=
  @Result.rec T F P (fun l => ∀ r ∈ l, P r) (fun entries => ∀ p ∈ entries, P p.2) (fun p => P p.2)
    hnone hbool hint hfloat hstr htensor hlist hdict nofun
    (fun _ _ hq hl => forall_mem_cons.mpr ⟨hq, hl⟩) nofun
    (fun _ _ hq hl => forall_mem_cons.mpr ⟨hq, hl⟩) fun _ _ hq => hq

section Lists

variable {T U F : Type}

variable (f : T → U) (l : List (Result T F)) (entries : List (String × Result T F))

lemma Result.mapList_eq : Result.mapList f l = l.map (Result.map f) := by
  induction l with
  | nil => rfl
  | cons r l ih => rw [Result.mapList, ih, map_cons]

lemma Result.mapEntries_eq : Result.mapEntries f entries = entries.map fun p => (p.1, p.2.map f) := by
  induction entries with
  | nil => rfl
  | cons p entries ih =>
    rw [Result.mapEntries, ih, map_cons]

lemma Result.keysDistinctList_iff : Result.keysDistinctList l ↔ ∀ r ∈ l, r.keysDistinct := by
  induction l with
  | nil => simp [Result.keysDistinctList]
  | cons r l ih => simp [Result.keysDistinctList, ih]

lemma Result.keysDistinctEntries_iff : Result.keysDistinctEntries entries ↔ ∀ p ∈ entries, p.2.keysDistinct := by
  induction entries with
  | nil => simp [Result.keysDistinctEntries]
  | cons p entries ih =>
    simp only [Result.keysDistinctEntries, ih, forall_mem_cons]

lemma encode_type_info_list_eq : encode_type_info_list l = l.map encode_type_info := by
  induction l with
  | nil => rfl
  | cons r l ih => rw [encode_type_info_list, ih, map_cons]

lemma encode_type_info_entries_eq :
    encode_type_info_entries entries = entries.map fun p => (p.1, encode_type_info p.2) := by
  induction entries with
  | nil => rfl
  | cons p entries ih =>
    rw [encode_type_info_entries, ih, map_cons]

lemma isListInfo_encode : isListInfo (l.map encode_type_info) = true := by
  cases l with
  | nil => rfl
  | cons r l => cases r <;> simp [isListInfo, encode_type_info, typestr, startsWithStr]

end Lists

variable {F : Type} {itemsize : String → Option ℕ} (size_threshold : ℤ)

lemma encode_result_list_eq (l : List (Result (StridedArray itemsize) F)) :
    encode_result_list size_threshold l = encodeAll (encode_result size_threshold) l := by
  induction l with
  | nil => rfl
  | cons r l ih =>
    simp only [encode_result_list, encodeAll, ih]

lemma encode_result_entries_eq (entries : List (String × Result (StridedArray itemsize) F)) :
    encode_result_entries size_threshold entries =
      encodeAll (encodeEntry (encode_result size_threshold)) entries := by
  induction entries with
  | nil => rfl
  | cons p entries ih =>
    simp only [encode_result_entries, encodeAll, encodeEntry, ih, Option.bind_eq_bind,
      Option.bind_assoc, Option.bind_some]

lemma decode_type_info_list_eq (aux_buffers : Buffers) (type_info data : List (Msg F)) :
    decode_type_info_list itemsize aux_buffers type_info data =
      decodeZip (decode_type_info itemsize aux_buffers) type_info data := by
  induction type_info generalizing data with
  | nil => simp only [decode_type_info_list, decodeZip]
  | cons ti type_info ih =>
    cases data with
    | nil => simp only [decode_type_info_list, decodeZip]
    | cons d data => simp only [decode_type_info_list, decodeZip, ih]

def decodeTyped (itemsize : String → Option ℕ) (aux_buffers : Buffers) (ti d : String × Msg F) :
    Option ((String × Result ArrayValue F) × List ℕ) := do
  let (r, used) ← decode_type_info itemsize aux_buffers ti.2 d.2
  some ((ti.1, r), used)

lemma decode_type_info_entries_eq (aux_buffers : Buffers) {type_info data : List (String × Msg F)}
    (hkeys : List.Forall₂ (fun ti d => d.1 = ti.1) type_info data)
    (hnodup : (type_info.map Prod.fst).Nodup) (seen : List (String × Msg F))
    (hseen : ∀ ti ∈ type_info, ∀ d ∈ seen, d.1 ≠ ti.1) :
    decode_type_info_entries itemsize aux_buffers type_info (seen ++ data) =
      decodeZip (decodeTyped itemsize aux_buffers) type_info data := by
  induction hkeys generalizing seen with
  | nil => rfl
  | @cons ti d type_info data hkey hrest ih =>
    obtain ⟨k, ti⟩ := ti
    obtain ⟨k', d⟩ := d
    obtain rfl : k' = k := hkey
    obtain ⟨hfresh, hnodup⟩ := nodup_cons.mp hnodup
    have hlookup : (seen ++ (k', d) :: data).lookup k' = some d := by
      rw [lookup_append, lookup_eq_none_iff.mpr]
      · simp
      · intro p hp
        exact bne_iff_ne.mpr (hseen _ mem_cons_self p hp).symm
    have hnext := ih hnodup (seen ++ [(k', d)]) fun ti' hti' p hp => by
      rcases mem_append.mp hp with hp | hp
      · exact hseen ti' (mem_cons_of_mem _ hti') p hp
      · rw [mem_singleton.mp hp]
        intro heq
        exact hfresh (heq ▸ mem_map_of_mem (f := Prod.fst) hti')
    rw [append_assoc, singleton_append] at hnext
    simp only [decode_type_info_entries, decodeZip, decodeTyped, hlookup, hnext,
      Option.bind_eq_bind, Option.bind_some, Option.bind_assoc]

theorem encode_result_roundTrips (r : Result (StridedArray itemsize) F) (h : r.keysDistinct) :
    RoundTrips (fun _ => True) (encode_result size_threshold r)
      (fun final m => decode_type_info itemsize final (encode_type_info r) m) (r.map StridedArray.value) := by
  induction r using Result.ind with
  | hnone => exact fun bufs => ⟨_, _, rfl, trivial, DecodesTo.inline fun _ => rfl⟩
  | hbool b => exact fun bufs => ⟨_, _, rfl, trivial, DecodesTo.inline fun _ => rfl⟩
  | hint z => exact fun bufs => ⟨_, _, rfl, trivial, DecodesTo.inline fun _ => rfl⟩
  | hfloat f => exact fun bufs => ⟨_, _, rfl, trivial, DecodesTo.inline fun _ => rfl⟩
  | hstr s => exact fun bufs => ⟨_, _, rfl, trivial, DecodesTo.inline fun _ => rfl⟩
  | htensor t =>
    intro bufs
    obtain ⟨m, bufs', henc, -, hdec⟩ := encode_tensor_roundTrips (F := F) size_threshold t bufs
    refine ⟨m, bufs', henc, trivial, hdec.congr fun final used hm => ?_⟩
    simp [encode_type_info, typestr, decode_type_info, isListInfo, startsWithStr, convert_result, hm, Result.map]
  | hlist l ih =>
    intro bufs
    have hall := (Result.keysDistinctList_iff l).mp h
    obtain ⟨ms, bufs', henc, -, hdec⟩ := DecodesTo.zip (fun a ha => ih a ha (hall a ha)) bufs
    refine ⟨.list ms, bufs', ?_, trivial, hdec.congr fun final used hms => ?_⟩
    · rw [encode_result, encode_result_list_eq, henc]
      rfl
    · simp only [encode_type_info, decode_type_info, isListInfo_encode, if_true,
        decode_type_info_list_eq, encode_type_info_list_eq, hms, Option.map_some, Result.map, Result.mapList_eq]
  | hdict entries ih =>
    intro bufs
    obtain ⟨hnodup, hentries⟩ := h
    have hall := (Result.keysDistinctEntries_iff entries).mp hentries
    have hentry : ∀ p ∈ entries, RoundTrips (fun d : String × Msg F => d.1 = p.1)
        (encodeEntry (encode_result size_threshold) p)
        (fun final => decodeTyped itemsize final (p.1, encode_type_info p.2))
        (p.1, p.2.map StridedArray.value) := fun p hp bufs => by
      obtain ⟨m, bufs', henc, -, hdec⟩ := ih p hp (hall p hp) bufs
      refine ⟨(p.1, m), bufs', by simp only [encodeEntry, henc]; rfl, rfl, hdec.congr fun final used hm => ?_⟩
      simp [decodeTyped, hm]
    obtain ⟨ms, bufs', henc, hkeys, hdec⟩ := DecodesTo.zip hentry bufs
    refine ⟨.dict ms, bufs', ?_, trivial, hdec.congr fun final used hms => ?_⟩
    · rw [encode_result, encode_result_entries_eq, henc]
      rfl
    · have hnodup' : ((entries.map fun p => (p.1, (encode_type_info p.2 : Msg F))).map
          Prod.fst).Nodup := by
        rwa [map_map]
      have hzip : decode_type_info_entries itemsize final _ ([] ++ ms) = _ :=
        decode_type_info_entries_eq final (forall₂_map_left_iff.mpr hkeys) hnodup' []
          fun _ _ p hp => absurd hp not_mem_nil
      rw [nil_append] at hzip
      simp only [encode_type_info, encode_type_info_entries_eq, decode_type_info, hzip, hms,
        Option.map_some, Result.map, Result.mapEntries_eq]

inductive Obj (T F : Type)
  | ndarray (arr : T)
  | tensor (arr : T)
  | mm_item (item : MultiModalKwargsItem T F)
  | mm_items (items : MultiModalKwargsItems T F)
  | utility_result (result : Result T F)

inductive ObjType
  | ndarray
  | tensor
  | mm_item
  | mm_items
  | utility_result

namespace Obj

open List

variable {T U : Type}

def type : Obj T F → ObjType
  | .ndarray _ => .ndarray
  | .tensor _ => .tensor
  | .mm_item _ => .mm_item
  | .mm_items _ => .mm_items
  | .utility_result _ => .utility_result

def map (f : T → U) : Obj T F → Obj U F
  | .ndarray arr => .ndarray (f arr)
  | .tensor arr => .tensor (f arr)
  | .mm_item item => .mm_item (mapItem f item)
  | .mm_items items => .mm_items (mapItems f items)
  | .utility_result result => .utility_result (result.map f)

def WellFormed : Obj T F → Prop
  | .mm_item item => ∀ p ∈ item, p.2.typed
  | .mm_items items => ∀ q ∈ items, ∀ item ∈ q.2, ∀ p ∈ item, p.2.typed
  | .utility_result result => result.keysDistinct
  | _ => True

end Obj

/-- An encoded object: the message, and the buffers, of which the first one holds the message. -/
structure Frames (F : Type) where
  message : Msg F
  bufs : Buffers

def enc_hook (allow_insecure : Bool) : Obj (StridedArray itemsize) F → Buffers →
    Option (Msg F × Buffers)
  | .ndarray obj, aux_buffers => encode_ndarray size_threshold obj aux_buffers
  | .tensor obj, aux_buffers => encode_tensor size_threshold obj aux_buffers
  | .mm_item obj, aux_buffers => encode_mm_item size_threshold obj aux_buffers
  | .mm_items obj, aux_buffers => encode_mm_items size_threshold obj aux_buffers
  | .utility_result obj, aux_buffers =>
    encode_utility_result size_threshold allow_insecure obj aux_buffers

/-- `MsgpackEncoder.encode`: the first buffer is filled after the hooks have run. -/
def encode (packed : Msg F → List UInt8) (allow_insecure : Bool)
    (obj : Obj (StridedArray itemsize) F) : Option (Frames F) := do
  let (m, bufs) ← enc_hook size_threshold allow_insecure obj [[]]
  some ⟨m, bufs.set 0 (packed m)⟩

/-- `dec_hook`, with the indices of the buffers that were used. -/
def dec_hook (itemsize : String → Option ℕ) (allow_insecure : Bool) (aux_buffers : Buffers) :
    ObjType → Msg F → Option (Obj ArrayValue F × List ℕ)
  | .ndarray, obj => (decode_ndarray itemsize aux_buffers obj).map fun p => (.ndarray p.1, p.2)
  | .tensor, obj => (decode_tensor itemsize aux_buffers obj).map fun p => (.tensor p.1, p.2)
  | .mm_item, obj => (decode_mm_item itemsize aux_buffers obj).map fun p => (.mm_item p.1, p.2)
  | .mm_items, obj => (decode_mm_items itemsize aux_buffers obj).map fun p => (.mm_items p.1, p.2)
  | .utility_result, obj =>
    (decode_utility_result itemsize aux_buffers allow_insecure obj).map fun p =>
      (.utility_result p.1, p.2)

/-- `MsgpackDecoder.decode` at a declared type. -/
def decode (itemsize : String → Option ℕ) (allow_insecure : Bool) (t : ObjType)
    (frames : Frames F) : Option (Obj ArrayValue F × List ℕ) :=
  dec_hook itemsize allow_insecure frames.bufs t frames.message

lemma encode_utility_result_roundTrips {result : Result (StridedArray itemsize) F} (h : result.keysDistinct) :
    RoundTrips (fun _ => True) (encode_utility_result size_threshold true result)
      (fun final => decode_utility_result itemsize final true) (result.map StridedArray.value) := by
  intro bufs
  obtain ⟨m, bufs', henc, -, hdec⟩ := encode_result_roundTrips size_threshold result h bufs
  refine ⟨_, bufs', by simp only [encode_utility_result, henc]; rfl, trivial, hdec.congr fun final used hm => ?_⟩
  cases result <;> exact hm

theorem enc_hook_roundTrips {obj : Obj (StridedArray itemsize) F} (h : obj.WellFormed) :
    RoundTrips (fun _ => True) (enc_hook size_threshold true obj)
      (fun final => dec_hook itemsize true final obj.type) (obj.map StridedArray.value) := by
  intro bufs
  cases obj with
  | ndarray arr =>
    obtain ⟨m, bufs', henc, -, hdec⟩ := encode_ndarray_roundTrips (F := F) size_threshold arr bufs
    exact ⟨m, bufs', henc, trivial, hdec.congr fun final used hm => by
      simp [dec_hook, Obj.type, Obj.map, hm]⟩
  | tensor arr =>
    obtain ⟨m, bufs', henc, -, hdec⟩ := encode_tensor_roundTrips (F := F) size_threshold arr bufs
    exact ⟨m, bufs', henc, trivial, hdec.congr fun final used hm => by
      simp [dec_hook, Obj.type, Obj.map, hm]⟩
  | mm_item item =>
    obtain ⟨m, bufs', henc, -, hdec⟩ := encode_mm_item_roundTrips size_threshold h bufs
    exact ⟨m, bufs', henc, trivial, hdec.congr fun final used hm => by
      simp [dec_hook, Obj.type, Obj.map, hm]⟩
  | mm_items items =>
    obtain ⟨m, bufs', henc, -, hdec⟩ := encode_mm_items_roundTrips size_threshold h bufs
    exact ⟨m, bufs', henc, trivial, hdec.congr fun final used hm => by
      simp [dec_hook, Obj.type, Obj.map, hm]⟩
  | utility_result result =>
    obtain ⟨m, bufs', henc, -, hdec⟩ := encode_utility_result_roundTrips size_threshold h bufs
    exact ⟨m, bufs', henc, trivial, hdec.congr fun final used hm => by
      simp [dec_hook, Obj.type, Obj.map, hm]⟩

/-- A message is decoded to an equal object, whatever the threshold, and every buffer is used once. -/
theorem decode_encode (packed : Msg F → List UInt8) (obj : Obj (StridedArray itemsize) F)
    (h : obj.WellFormed) : ∃ frames, encode size_threshold packed true obj = some frames ∧
      decode itemsize true obj.type frames =
        some (obj.map StridedArray.value, List.range' 1 (frames.bufs.length - 1)) := by
  obtain ⟨m, bufs, henc, -, -, hdec⟩ := enc_hook_roundTrips size_threshold h [[]]
  refine ⟨⟨m, bufs.set 0 (packed m)⟩, by simp only [encode, henc]; rfl, ?_⟩
  have hdecoded := hdec (bufs.set 0 (packed m)) fun i hi => by
    have hge : 1 ≤ i := (mem_range'_1.mp hi).1
    rw [List.getElem?_set_ne (by omega)]
  simpa [decode, appended] using hdecoded

def sampleTensor (n : ℕ) :
    StridedArray fun dtype => if dtype = "uint8" then some 1 else none where
  dtype := "uint8"
  item := 1
  plain := rfl
  item_pos := Nat.one_pos
  dims := [(n, 1)]
  base := 0
  memory := fun _ => 7

def sampleItem :
    Obj (StridedArray fun dtype => if dtype = "uint8" then some 1 else none) Unit :=
  .mm_item [("pixels", ⟨.list [.tensor (sampleTensor 2), .list [],
    .list [.tensor (sampleTensor 0), .number (.int 3)]],
    .flat false (.list [.list [.slice none (some 2) none], .list []]) 1⟩)]

theorem decode_encode_sampleItem :
    ∃ frames, encode 1 (fun _ => []) true sampleItem = some frames ∧
      decode (fun dtype => if dtype = "uint8" then some 1 else none) true sampleItem.type frames =
        some (sampleItem.map StridedArray.value, List.range' 1 (frames.bufs.length - 1)) := by
  refine decode_encode 1 _ sampleItem ?_
  simp [sampleItem, Obj.WellFormed, MultiModalFieldElem.typed, NestedTensors.noNone, NestedTensors.noNoneList]

/-- None is taken as the data of a field, but not as an item of a list. -/
theorem encode_none_in_list :
    ¬ ∃ frames, @encode Unit (fun _ => none) 0 (fun _ => []) true
        (.mm_item [("pixels", ⟨.list [.none], .batched false⟩)]) = some frames ∧
      decode (fun _ => none) true .mm_item frames =
        some (.mm_item [("pixels", ⟨.list [.none], .batched false⟩)],
          List.range' 1 (frames.bufs.length - 1)) := by
  rintro ⟨frames, henc, -⟩
  cases henc

end CustomAi.Vllm
