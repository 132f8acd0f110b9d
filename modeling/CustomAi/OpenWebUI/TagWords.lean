import CustomAi.OpenWebUI.TagContent

/-!
# The words of the tags

Texts without a tag, and where the patterns of `tag_content_handler` match around a `<think>`
section.
-/

namespace CustomAi.OpenWebUI.TagContent

open Option

open List

open Matcher

def openings (start_tag : Str) : Set Str :=
  {w | (bracketed start_tag = true ∧
      ∃ c, (c = '>' ∨ isspace c = true) ∧ w = '<' :: tagName start_tag ++ [c]) ∨
    (bracketed start_tag = false ∧ w = start_tag)}

def allTags : List (Str × Str) :=
  DEFAULT_REASONING_TAGS ++ DEFAULT_SOLUTION_TAGS ++ DEFAULT_CODE_INTERPRETER_TAGS

def tagWords : Set Str := {w | ∃ tag ∈ allTags, w ∈ openings tag.1 ∨ w = tag.2}

def Plain (l : Str) : Prop := Free tagWords l

def think : Str := "<think>".toList

def endThink : Str := "</think>".toList

variable {secs : List (Str × Str)} {W : Set Str} {L end_tag r : Str} {m tag : Str × Str}
  (dotall : Bool) (start_tag : Str)

lemma openings_subset (h : tag ∈ allTags) : openings tag.1 ⊆ tagWords :=
  fun _ hw => ⟨tag, h, .inl hw⟩

lemma think_mem : (think, endThink) ∈ allTags := mem_cons_self

variable {w : Str}

lemma mem_openings_think : w ∈ openings think ↔
    ∃ c, (c = '>' ∨ isspace c = true) ∧ w = ['<', 't', 'h', 'i', 'n', 'k', c] :=
  ⟨fun h => h.elim (fun h => h.2) fun h => absurd h.1 (by decide), fun h => .inl ⟨rfl, h⟩⟩

lemma think_mem_openings : think ∈ openings think :=
  mem_openings_think.mpr ⟨'>', .inl rfl, rfl⟩

lemma think_mem_tagWords : think ∈ tagWords := openings_subset think_mem think_mem_openings

lemma not_mem_tail (hw : w ∈ tagWords) : '<' ∉ w.tail := by
  have hall : ∀ tag ∈ allTags, '<' ∉ tagName tag.1 ∧ '<' ∉ tag.1.tail ∧ '<' ∉ tag.2.tail := by
    decide
  obtain ⟨tag, htag, hw⟩ := hw
  obtain ⟨hname, hstart, hend⟩ := hall tag htag
  rcases hw with (⟨-, c, hc, rfl⟩ | ⟨-, rfl⟩) | rfl
  · have hne : '<' ≠ c := by
      rintro rfl
      revert hc
      decide
    simp [hname, hne]
  · exact hstart
  · exact hend

lemma exists_mem_not_mem (hw : w ∈ tagWords) : ∃ c ∈ w, c ∉ ['<', '/', 't', 'h', 'i', 'n', 'k'] := by
  have hall : ∀ tag ∈ allTags, (tag.1.any fun c => c ∉ ['<', '/', 't', 'h', 'i', 'n', 'k']) ∧
      tag.2.any fun c => c ∉ ['<', '/', 't', 'h', 'i', 'n', 'k'] := by
    decide
  have hplain : (['<', '/', 't', 'h', 'i', 'n', 'k'].all fun c =>
      c ≠ '>' ∧ isspace c = false) = true := by
    decide
  obtain ⟨tag, htag, hw⟩ := hw
  rcases hw with (⟨-, c, hc, rfl⟩ | ⟨-, rfl⟩) | rfl
  · refine ⟨c, by simp, fun hmem => ?_⟩
    obtain ⟨hgt, hspace⟩ := of_decide_eq_true (all_eq_true.mp hplain c hmem)
    rcases hc with hc | hc
    · exact hgt hc
    · rw [hspace] at hc
      cases hc
  · simpa using any_eq_true.mp (hall tag htag).1
  · simpa using any_eq_true.mp (hall tag htag).2

variable {l : Str}

lemma plain_of_subset (h : l ⊆ ['<', '/', 't', 'h', 'i', 'n', 'k']) : Plain l := by
  intro w hw hinf
  obtain ⟨c, hc, hnot⟩ := exists_mem_not_mem hw
  exact hnot (h (hinf.subset hc))

lemma plain_endThink_dropLast : Plain endThink.dropLast := plain_of_subset (by decide)

variable {u v : Str}

lemma Plain.append (hu : Plain u) (hv : Plain v) (h : v = [] ∨ v.head? = some '<') : Plain (u ++ v) :=
  Free.append (fun _ hw => not_mem_tail hw) hu hv h

lemma Plain.misses {β : Type} {p : Matcher Char β} (hp : p.BeginsWith W) (hW : W ⊆ tagWords)
    (hu : Plain u) (hv : v = [] ∨ v.head? = some '<') : p.Misses u v :=
  hp.misses_of_free (fun _ hw => not_mem_tail (hW hw)) (fun w hw => hu w (hW hw)) hv

lemma upToBracket_eq_some {dotall : Bool} (h : upToBracket dotall l = some m) : l = m.1 ++ '>' :: m.2 := by
  induction l generalizing m with
  | nil => cases h
  | cons c l ih =>
    unfold upToBracket at h
    split at h
    · rename_i hc
      rw [← some.inj h, hc]
      rfl
    · split at h
      · cases h
      · obtain ⟨m', hm', rfl⟩ := map_eq_some_iff.mp h
        exact congrArg (c :: ·) (ih hm')

lemma start_tag_pattern_eq_some {dotall : Bool} {start_tag : Str}
    (h : start_tag_pattern dotall start_tag l = some m) :
    ∃ w ∈ openings start_tag, ∃ v, l = w ++ v ∧ m.2 <:+ v := by
  unfold start_tag_pattern at h
  split at h
  · rename_i hbracketed
    cases hl : literal ('<' :: tagName start_tag) l with
    | none =>
      rw [hl] at h
      cases h
    | some r =>
      obtain ⟨_, rest⟩ := r
      rw [hl] at h
      obtain rfl := literal_eq_some hl
      cases rest with
      | nil => cases h
      | cons c rest =>
        dsimp only at h
        refine ⟨'<' :: tagName start_tag ++ [c], .inl ⟨hbracketed, c, ?_, rfl⟩, rest, by simp, ?_⟩
        · by_cases hgt : c = '>'
          · exact .inl hgt
          · rw [if_neg hgt] at h
            split at h
            · exact .inr ‹_›
            · cases h
        · split at h
          · rw [← some.inj h]
          · split at h
            · obtain ⟨m', hm', rfl⟩ := map_eq_some_iff.mp h
              rw [upToBracket_eq_some hm']
              exact ⟨m'.1 ++ ['>'], by simp⟩
            · cases h
  · rename_i hbracketed
    obtain ⟨r, hl, rfl⟩ := map_eq_some_iff.mp h
    exact ⟨start_tag, .inr ⟨by simpa using hbracketed, rfl⟩, r.2, literal_eq_some hl, suffix_refl _⟩

lemma start_tag_pattern_beginsWith : (start_tag_pattern dotall start_tag).BeginsWith (openings start_tag) := by
  intro l m h
  obtain ⟨w, hw, v, rfl, -⟩ := start_tag_pattern_eq_some h
  exact ⟨w, hw, prefix_append w v⟩

lemma section_pattern_beginsWith (end_tag : Str) :
    (section_pattern start_tag end_tag).BeginsWith (openings start_tag) := by
  intro l m h
  obtain ⟨m', hm', -⟩ := bind_eq_some_iff.mp h
  exact start_tag_pattern_beginsWith true start_tag l m' hm'

lemma stray_tag_pattern_beginsWith : (stray_tag_pattern start_tag).BeginsWith {'<' :: start_tag} := by
  intro l m h
  obtain ⟨m', hm', -⟩ := bind_eq_some_iff.mp h
  exact literal_beginsWith _ l m' hm'

lemma section_pattern_eq_some {start_tag : Str} {m : Unit × Str}
    (h : section_pattern start_tag end_tag l = some m) : ∃ a, l = a ++ (end_tag ++ m.2) := by
  obtain ⟨m1, hm1, h⟩ := bind_eq_some_iff.mp h
  obtain ⟨⟨before, m2⟩, hm2, rfl⟩ := map_eq_some_iff.mp h
  obtain ⟨w, -, v, rfl, a, rfl⟩ := start_tag_pattern_eq_some hm1
  obtain ⟨s, hs, hlit⟩ := exists_of_search hm2
  rw [hs, literal_eq_some hlit]
  exact ⟨w ++ (a ++ before), by simp only [append_assoc]⟩

lemma section_pattern_shrinks (hend : end_tag ≠ []) (start_tag : Str) :
    (section_pattern start_tag end_tag).Shrinks := by
  intro l b rest h
  obtain ⟨a, rfl⟩ := section_pattern_eq_some h
  have hpos := length_pos_iff.mpr hend
  simp only [length_append]
  omega

lemma upToBracket_grows : (upToBracket dotall).Grows := by
  intro l v h
  induction l with
  | nil => cases h
  | cons c l ih =>
    unfold upToBracket at h
    rw [cons_append, upToBracket]
    split at h
    · rw [if_pos ‹_›]
      rfl
    · rw [if_neg ‹_›]
      split at h
      · cases h
      · rw [if_neg ‹_›, isSome_map]
        exact ih (by rwa [isSome_map] at h)

lemma start_tag_pattern_grows : (start_tag_pattern dotall start_tag).Grows := by
  intro l v h
  unfold start_tag_pattern at h ⊢
  split at h
  · rw [if_pos ‹_›]
    cases hl : literal ('<' :: tagName start_tag) l with
    | none =>
      rw [hl] at h
      cases h
    | some r =>
      obtain ⟨_, rest⟩ := r
      rw [hl] at h
      obtain rfl := literal_eq_some hl
      rw [append_assoc, literal_append]
      cases rest with
      | nil => cases h
      | cons c rest =>
        dsimp only [cons_append] at h ⊢
        split at h
        · rw [if_pos ‹_›]
          rfl
        · rw [if_neg ‹_›]
          split at h
          · rw [if_pos ‹_›, isSome_map]
            exact upToBracket_grows dotall rest v (by rwa [isSome_map] at h)
          · cases h
  · rw [if_neg ‹_›]
    rw [isSome_map] at h
    obtain ⟨r, hr⟩ := isSome_iff_exists.mp h
    rw [literal_eq_some hr, append_assoc, literal_append]
    rfl

def Quiet (tags : List (Str × Str)) (l : Str) : Prop :=
  ∀ tag ∈ tags, (start_tag_pattern false tag.1).search l = none

instance (tags : List (Str × Str)) (l : Str) : Decidable (Quiet tags l) :=
  inferInstanceAs (Decidable (∀ tag ∈ tags, _))

variable {tags : List (Str × Str)}

lemma Quiet.mono {l' : Str} (h : Quiet tags l') (hl : l <+: l') : Quiet tags l := by
  obtain ⟨v, rfl⟩ := hl
  exact fun tag htag => (start_tag_pattern_grows false tag.1).search_eq_none (h tag htag)

lemma quiet_of_free (htags : tags ⊆ allTags) (h : ∀ tag ∈ tags, Free (openings tag.1) l) : Quiet tags l := by
  intro tag htag
  have hp := start_tag_pattern_beginsWith false tag.1
  have hsub := openings_subset (htags htag)
  refine search_eq_none (hp.misses_of_free (fun w hw => not_mem_tail (hsub hw)) (h tag htag)
    (.inl rfl)) ?_
  cases hnil : start_tag_pattern false tag.1 [] with
  | none => rfl
  | some m =>
    obtain ⟨w, hw, hpre⟩ := hp _ _ hnil
    obtain ⟨c, hc, -⟩ := exists_mem_not_mem (hsub hw)
    rw [prefix_nil.mp hpre] at hc
    cases hc

lemma Plain.quiet (htags : tags ⊆ allTags) (h : Plain l) : Quiet tags l :=
  quiet_of_free htags fun _ htag w hw => h w (openings_subset (htags htag) hw)

lemma not_prefix_of_tag {s : Str} (hw : w.head? = some '<') (hL : '<' ∉ L.tail) (hs : s ≠ [])
    (hsu : s <:+ L) (hne : s ≠ L) : ¬ w <+: s ++ v := by
  rintro ⟨rest, hrest⟩
  obtain ⟨a, rfl⟩ := hsu
  cases a with
  | nil => exact hne rfl
  | cons x a =>
    cases s with
    | nil => exact hs rfl
    | cons y s =>
      cases w with
      | nil => cases hw
      | cons z w =>
        have hz : z = '<' := some.inj hw
        have hy : z = y := (cons.inj hrest).1
        subst hy
        refine hL ?_
        rw [hz]
        simp

lemma free_tag_append (hL : '<' ∉ L.tail) (hhead : ∀ w ∈ W, w.head? = some '<')
    (hne : ∀ w ∈ W, ¬ w <+: L ++ v) (hv : Free W v) : Free W (L ++ v) := by
  refine Free.append_of_not_begins (fun w hw s hs hsu => ?_) hv
  by_cases hsL : s = L
  · rw [hsL]
    exact hne w hw
  · exact not_prefix_of_tag (hhead w hw) hL hs hsu hsL

lemma endThink_not_prefix_think (v : Str) : ¬ endThink <+: think ++ v := by
  rintro ⟨rest, h⟩
  cases (cons.inj (cons.inj h).2).1

lemma not_prefix_endThink (hw : w ∈ openings think) (v : Str) : ¬ w <+: endThink ++ v := by
  obtain ⟨c, -, rfl⟩ := mem_openings_think.mp hw
  rintro ⟨rest, h⟩
  cases (cons.inj (cons.inj h).2).1

lemma Plain.free_endThink (h : Plain l) : Free {endThink} l := by
  rintro w rfl
  exact h _ ⟨_, think_mem, .inr rfl⟩

lemma endThink_tail (hw : w ∈ ({endThink} : Set Str)) : '<' ∉ w.tail := by
  rw [hw]
  decide

variable {t : Str}

lemma free_endThink_before (ht : Plain t) (hr : Plain r) :
    Free {endThink} (t ++ (think ++ (r ++ endThink.dropLast))) := by
  refine Free.append (fun w hw => endThink_tail hw) ht.free_endThink ?_ (.inr rfl)
  refine free_tag_append (by decide) ?_ ?_
    (Plain.append hr plain_endThink_dropLast (.inr rfl)).free_endThink
  · rintro w rfl
    rfl
  · rintro w rfl
    exact endThink_not_prefix_think _

lemma search_endThink_eq_none (h : Free {endThink} l) : (literal endThink).search l = none :=
  search_eq_none ((literal_beginsWith endThink).misses_of_free (fun _ hw => endThink_tail hw) h
    (.inl rfl)) rfl

lemma search_endThink (h : Free {endThink} u) (v : Str) :
    (literal endThink).search (u ++ (endThink ++ v)) = some (u, (), v) :=
  search_append_of_match ((literal_beginsWith endThink).misses_of_free
    (fun _ hw => endThink_tail hw) h (.inr rfl)) (literal_append endThink v)

lemma search_think (ht : Plain t) (a : Str) :
    (start_tag_pattern false think).search (t ++ (think ++ a)) = some (t, [], a) :=
  search_append_of_match (ht.misses (start_tag_pattern_beginsWith false think)
    (openings_subset think_mem) (.inr rfl)) rfl

/-- `<<think>` takes nothing out unless the text ends with `<` and the tag is `<think>`. -/
lemma stray_misses_tag (hu : Plain u) (hhead : L.head? = some '<') (hL : '<' ∉ L.tail)
    (hne : ∀ v, ¬ '<' :: think <+: L ++ v) (hlast : u.getLast? = some '<' → ∀ v, ¬ think <+: L ++ v) (v : Str) :
    (stray_tag_pattern think).Misses (u ++ L) v := by
  have hstray := stray_tag_pattern_beginsWith think
  refine Misses.append (fun s hs hsu => ?_) fun s hs hsu => ?_
  · cases hm : stray_tag_pattern think (s ++ (L ++ v)) with
    | none => rfl
    | some m =>
      obtain ⟨w, rfl, hpre⟩ := hstray _ _ hm
      cases s with
      | nil => exact absurd rfl hs
      | cons c s =>
        obtain ⟨hc, hthink⟩ := cons_prefix_cons.mp hpre
        by_cases hnil : s = []
        · subst hnil hc
          obtain ⟨u, rfl⟩ := hsu
          exact absurd hthink (hlast getLast?_concat v)
        · have hLv : (L ++ v).head? = some '<' := by rw [head?_append, hhead, some_or]
          refine absurd hthink (not_prefix_of_cut (not_mem_tail think_mem_tagWords) hnil ?_ (.inr hLv))
          intro hs
          exact hu _ think_mem_tagWords (hs.isInfix.trans ((suffix_cons c s).trans hsu).isInfix)
  · cases hm : stray_tag_pattern think (s ++ v) with
    | none => rfl
    | some m =>
      obtain ⟨w, rfl, hpre⟩ := hstray _ _ hm
      by_cases hsL : s = L
      · rw [hsL] at hpre
        exact absurd hpre (hne v)
      · exact absurd hpre (not_prefix_of_tag rfl hL hs hsu hsL)

lemma stray_misses (hr : Plain r) (v : Str) : (stray_tag_pattern think).Misses (r ++ endThink) v :=
  stray_misses_tag hr rfl (by decide)
    (fun _ => by
      rintro ⟨rest, h⟩
      cases (cons.inj (cons.inj h).2).1)
    (fun _ => not_prefix_endThink think_mem_openings) v

lemma stray_misses_plain (h : Plain l) : (stray_tag_pattern think).Misses l [] := by
  intro s hs hsu
  rw [append_nil]
  cases hm : stray_tag_pattern think s with
  | none => rfl
  | some m =>
    obtain ⟨w, rfl, hpre⟩ := stray_tag_pattern_beginsWith think _ _ hm
    exact absurd (((suffix_cons '<' think).isInfix.trans hpre.isInfix).trans hsu.isInfix)
      (h _ think_mem_tagWords)

lemma section_delete_eq_self (h : Free {endThink} l) : (section_pattern think endThink).delete l = l := by
  refine delete_eq_self fun s _ hsu => ?_
  cases hm : section_pattern think endThink (s ++ []) with
  | none => rfl
  | some m =>
    obtain ⟨a, ha⟩ := section_pattern_eq_some hm
    rw [append_nil] at ha
    have hinf : endThink <:+: s := ⟨a, m.2, by rw [append_assoc, ← ha]⟩
    exact absurd (hinf.trans hsu.isInfix) (h endThink rfl)

lemma section_delete (ht : Plain t) (hr : Plain r) (v : Str) :
    (section_pattern think endThink).delete (t ++ (think ++ (r ++ (endThink ++ v)))) =
      t ++ (section_pattern think endThink).delete v := by
  rw [delete_append (ht.misses (section_pattern_beginsWith think endThink) (openings_subset think_mem) (.inr rfl))]
  refine congrArg (t ++ ·) (delete_of_match (section_pattern_shrinks (by decide) think)
    (b := ()) ?_)
  have hsearch := search_endThink hr.free_endThink v
  show ((literal endThink).search (r ++ (endThink ++ v))).map _ = _
  rw [hsearch]
  rfl

/-- `<think>r</think>t` for each section. -/
def body : List (Str × Str) → Str
  | [] => []
  | (r, t) :: secs => think ++ (r ++ (endThink ++ (t ++ body secs)))

lemma opening_solution (htag : tag ∈ DEFAULT_SOLUTION_TAGS) (hw : w ∈ openings tag.1) :
    ∃ w', w = '<' :: '|' :: w' := by
  obtain rfl := mem_singleton.mp htag
  rcases hw with ⟨-, c, -, rfl⟩ | ⟨h, -⟩
  · exact ⟨_, rfl⟩
  · exact absurd h (by decide)

lemma quiet_solution (ht : Plain t) (hsecs : ∀ sec ∈ secs, Plain sec.1 ∧ Plain sec.2) :
    Quiet DEFAULT_SOLUTION_TAGS (t ++ body secs) := by
  have hsub : DEFAULT_SOLUTION_TAGS ⊆ allTags := fun tag htag =>
    mem_append_left _ (mem_append_right _ htag)
  refine quiet_of_free hsub fun tag htag => ?_
  have hWsub := openings_subset (hsub htag)
  have htail : ∀ w ∈ openings tag.1, '<' ∉ w.tail := fun w hw => not_mem_tail (hWsub hw)
  have hhead : ∀ w ∈ openings tag.1, w.head? = some '<' := by
    intro w hw
    obtain ⟨w', rfl⟩ := opening_solution htag hw
    rfl
  have hfree : ∀ l, Plain l → Free (openings tag.1) l := fun l hl w hw => hl w (hWsub hw)
  induction secs generalizing t with
  | nil =>
    rw [body, append_nil]
    exact hfree t ht
  | cons sec secs ih =>
    obtain ⟨r, t'⟩ := sec
    obtain ⟨hr, ht'⟩ := hsecs (r, t') mem_cons_self
    have hrest := ih ht' fun sec hsec => hsecs sec (mem_cons_of_mem _ hsec)
    refine Free.append htail (hfree t ht) ?_ (.inr rfl)
    refine free_tag_append (by decide) hhead ?_ (Free.append htail (hfree r hr) ?_ (.inr rfl))
    · intro w hw
      obtain ⟨w', rfl⟩ := opening_solution htag hw
      rintro ⟨rest, h⟩
      cases (cons.inj (cons.inj h).2).1
    · refine free_tag_append (by decide) hhead ?_ hrest
      intro w hw
      obtain ⟨w', rfl⟩ := opening_solution htag hw
      rintro ⟨rest, h⟩
      cases (cons.inj (cons.inj h).2).1

/-- What is left of the arrived sections, and what still arrives. -/
lemma exists_section_delete {R : Str} (y : Str) (ht : Plain t)
    (hsecs : ∀ sec ∈ secs, Plain sec.1 ∧ Plain sec.2) (h : y ++ R = t ++ body secs) :
    ∃ P V, (section_pattern think endThink).delete y ++ R = P ++ V ∧ t <+: P ∧
      P <+: t ++ secs.flatMap Prod.snd ∧ (V = [] ∨ V.head? = some '<') := by
  induction secs generalizing t y with
  | nil =>
    rw [body, append_nil] at h
    have hy : Plain y := ht.part ⟨[], R, h⟩
    rw [section_delete_eq_self hy.free_endThink, h]
    exact ⟨t, [], (append_nil t).symm, prefix_refl t, prefix_append t _, .inl rfl⟩
  | cons sec secs ih =>
    obtain ⟨r, t'⟩ := sec
    obtain ⟨hr, ht'⟩ := hsecs (r, t') mem_cons_self
    have hfull : y ++ R = (t ++ (think ++ r)) ++ endThink ++ (t' ++ body secs) := by
      rw [h, body]
      simp only [append_assoc]
    by_cases hlen : (t ++ (think ++ r) ++ endThink).length ≤ y.length
    · -- the section has arrived
      obtain ⟨y', rfl⟩ : t ++ (think ++ r) ++ endThink <+: y :=
        prefix_of_prefix_length_le ⟨_, hfull.symm⟩ (prefix_append y R) hlen
      rw [append_assoc _ y' R, append_cancel_left_eq] at hfull
      obtain ⟨P, V, hdelete, ⟨v, rfl⟩, hP, hV⟩ := ih y' ht'
        (fun sec hsec => hsecs sec (mem_cons_of_mem _ hsec)) hfull
      refine ⟨t ++ (t' ++ v), V, ?_, prefix_append t _, ?_, hV⟩
      · have hsection := section_delete ht hr y'
        simp only [append_assoc] at hsection hdelete ⊢
        rw [hsection, append_assoc, hdelete]
      · exact (prefix_append_right_inj t).mpr hP
    · have hpre : y <+: t ++ (think ++ r) ++ endThink.dropLast := by
        rw [← dropLast_append_of_ne_nil (show endThink ≠ [] by decide)]
        refine prefix_of_prefix_length_le ⟨R, hfull⟩
          (( dropLast_prefix _).trans (prefix_append _ _)) ?_
        rw [length_dropLast]
        omega
      have hfree := free_endThink_before ht hr
      rw [← append_assoc think, ← append_assoc t] at hfree
      rw [section_delete_eq_self (hfree.part hpre.isInfix), h]
      exact ⟨t, body ((r, t') :: secs), rfl, prefix_refl t, prefix_append t _, .inr rfl⟩

lemma stray_misses_before (ht : Plain t) (hlast : t.getLast? ≠ some '<') (v : Str) :
    (stray_tag_pattern think).Misses (t ++ think) v :=
  stray_misses_tag ht rfl (by decide)
    (fun _ => by
      rintro ⟨rest, h⟩
      cases (cons.inj (cons.inj h).2).1)
    (fun h => absurd h hlast) v

end CustomAi.OpenWebUI.TagContent
