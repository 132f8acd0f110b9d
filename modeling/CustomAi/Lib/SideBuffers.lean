import Mathlib.Data.List.Range
import Mathlib.Data.Option.Basic

/-!
# Codecs with side buffers

An encoder yields a message and may append buffers to a list; a decoder reads the message with the
final list of buffers and reports the indices of the buffers that it used.
-/

namespace CustomAi

open List Option

universe u v w x

variable {β : Type u} {M : Type v} {α : Type w} {γ : Type x}

def encodeAll (enc : α → List β → Option (M × List β)) :
    List α → List β → Option (List M × List β)
  | [], bufs => some ([], bufs)
  | a :: l, bufs => do
    let (m, bufs) ← enc a bufs
    let (ms, bufs) ← encodeAll enc l bufs
    some (m :: ms, bufs)

def decodeAll (dec : M → Option (γ × List ℕ)) : List M → Option (List γ × List ℕ)
  | [] => some ([], [])
  | m :: ms => do
    let (c, used) ← dec m
    let (cs, used') ← decodeAll dec ms
    some (c :: cs, used ++ used')

def appended (bufs bufs' : List β) : List ℕ :=
  range' bufs.length (bufs'.length - bufs.length)

/-- Where the buffers that were appended for it stand, the message decodes to `c`, and each of them
is used once. -/
def DecodesTo (dec : List β → M → Option (γ × List ℕ)) (bufs : List β) (m : M) (bufs' : List β)
    (c : γ) : Prop :=
  bufs <+: bufs' ∧ ∀ final : List β, (∀ i ∈ appended bufs bufs', final[i]? = bufs'[i]?) →
    dec final m = some (c, appended bufs bufs')

/-- The encoder succeeds with a message of the form `P` that decodes to `c`. -/
def RoundTrips (P : M → Prop) (enc : List β → Option (M × List β))
    (dec : List β → M → Option (γ × List ℕ)) (c : γ) : Prop :=
  ∀ bufs, ∃ m bufs', enc bufs = some (m, bufs') ∧ P m ∧ DecodesTo dec bufs m bufs' c

lemma appended_trans {bufs bufs' bufs'' : List β} (h : bufs <+: bufs') (h' : bufs' <+: bufs'') :
    appended bufs bufs' ++ appended bufs' bufs'' = appended bufs bufs'' := by
  have hlen := h.length_le
  have hlen' := h'.length_le
  unfold appended
  have hstart : bufs'.length = bufs.length + (bufs'.length - bufs.length) := by omega
  have htotal : bufs''.length - bufs.length =
      (bufs'.length - bufs.length) + (bufs''.length - bufs'.length) := by omega
  rw [htotal, ← List.range'_append_1, ← hstart]

lemma DecodesTo.inline {dec : List β → M → Option (γ × List ℕ)} {bufs : List β} {m : M} {c : γ}
    (h : ∀ final, dec final m = some (c, [])) : DecodesTo dec bufs m bufs c :=
  ⟨prefix_rfl, fun final _ => by simp [h final, appended]⟩

lemma getElem?_of_appended {bufs bufs' bufs'' : List β} (h : bufs' <+: bufs'') {i : ℕ}
    (hi : i ∈ appended bufs bufs') : bufs''[i]? = bufs'[i]? := by
  obtain ⟨hge, hlt⟩ := List.mem_range'_1.mp hi
  exact List.prefix_iff_getElem?.mp h i (by omega) ▸ (List.getElem?_eq_getElem (by omega)).symm

lemma DecodesTo.append {dec : List β → M → Option (γ × List ℕ)} {bufs : List β} {m : M} {b : β}
    {c : γ} (h : ∀ final : List β, final[bufs.length]? = some b →
      dec final m = some (c, [bufs.length])) : DecodesTo dec bufs m (bufs ++ [b]) c := by
  have hused : appended bufs (bufs ++ [b]) = [bufs.length] := by simp [appended]
  refine ⟨prefix_append bufs [b], fun final hfinal => ?_⟩
  rw [hused] at hfinal ⊢
  exact h final (by simpa using hfinal)

lemma DecodesTo.congr {N δ : Type*} {dec : List β → M → Option (γ × List ℕ)}
    {dec' : List β → N → Option (δ × List ℕ)} {bufs bufs' : List β} {m : M} {n : N} {c : γ} {d : δ}
    (h : DecodesTo dec bufs m bufs' c)
    (heq : ∀ final used, dec final m = some (c, used) → dec' final n = some (d, used)) :
    DecodesTo dec' bufs n bufs' d :=
  ⟨h.1, fun final hfinal => heq final _ (h.2 final hfinal)⟩

def decodeZip {N : Type w} (dec : N → M → Option (γ × List ℕ)) :
    List N → List M → Option (List γ × List ℕ)
  | n :: ns, m :: ms => do
    let (c, used) ← dec n m
    let (cs, used') ← decodeZip dec ns ms
    some (c :: cs, used ++ used')
  | _, _ => some ([], [])

lemma DecodesTo.zip {N : Type w} {dec : List β → N → M → Option (γ × List ℕ)}
    {enc : α → List β → Option (M × List β)} {P : α → M → Prop} {info : α → N} {f : α → γ}
    {l : List α} (h : ∀ a ∈ l, RoundTrips (P a) (enc a) (fun final => dec final (info a)) (f a))
    (bufs : List β) : ∃ ms bufs', encodeAll enc l bufs = some (ms, bufs') ∧ Forall₂ P l ms ∧
      DecodesTo (fun final => decodeZip (dec final) (l.map info)) bufs ms bufs' (l.map f) := by
  induction l generalizing bufs with
  | nil => exact ⟨[], bufs, rfl, .nil, DecodesTo.inline fun _ => rfl⟩
  | cons a l ih =>
    obtain ⟨m, bufs1, henc, hP, hpre, hdec⟩ := h a mem_cons_self bufs
    obtain ⟨ms, bufs2, henc', hPs, hpre', hdec'⟩ := ih (fun b hb => h b (mem_cons_of_mem a hb)) bufs1
    have hunion := appended_trans hpre hpre'
    refine ⟨m :: ms, bufs2, ?_, .cons hP hPs, hpre.trans hpre', fun final hfinal => ?_⟩
    · simp [encodeAll, henc, henc']
    · have hfirst := hdec final fun i hi =>
        (hfinal i (hunion ▸ mem_append_left _ hi)).trans (getElem?_of_appended hpre' hi)
      have hrest := hdec' final fun i hi => hfinal i (hunion ▸ mem_append_right _ hi)
      simp only [decodeZip, bind_eq_bind, hfirst, bind_some, hrest, map_cons, hunion]

lemma decodeZip_const {dec : M → Option (γ × List ℕ)} {l : List α} {ms : List M} (h : l.length = ms.length) :
    decodeZip (fun (_ : PUnit.{w + 1}) => dec) (l.map fun _ => PUnit.unit) ms = decodeAll dec ms := by
  induction l generalizing ms with
  | nil =>
    cases ms with
    | nil => rfl
    | cons m ms => cases h
  | cons a l ih =>
    cases ms with
    | nil => cases h
    | cons m ms => simp only [map_cons, decodeZip, decodeAll, ih (Nat.succ.inj h)]

lemma forall_of_forall₂ {P : M → Prop} {l : List α} {ms : List M}
    (h : Forall₂ (fun _ m => P m) l ms) : ∀ m ∈ ms, P m := by
  induction h with
  | nil => exact nofun
  | cons hm _ ih => exact forall_mem_cons.mpr ⟨hm, ih⟩

lemma DecodesTo.all {dec : List β → M → Option (γ × List ℕ)} {enc : α → List β →
    Option (M × List β)} {P : M → Prop} {f : α → γ} {l : List α}
    (h : ∀ a ∈ l, RoundTrips P (enc a) dec (f a)) (bufs : List β) :
    ∃ ms bufs', encodeAll enc l bufs = some (ms, bufs') ∧ (∀ m ∈ ms, P m) ∧
      DecodesTo (fun final => decodeAll (dec final)) bufs ms bufs' (l.map f) := by
  obtain ⟨ms, bufs', henc, hP, hdec⟩ := @DecodesTo.zip β M α γ PUnit.{w + 1}
    (fun final _ => dec final) enc (fun _ => P) (fun _ => PUnit.unit) f l h bufs
  refine ⟨ms, bufs', henc, forall_of_forall₂ hP, hdec.congr fun final used hall => ?_⟩
  rwa [← decodeZip_const hP.length_eq]

end CustomAi
