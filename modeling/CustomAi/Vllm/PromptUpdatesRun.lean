import CustomAi.Vllm.PromptUpdates

/-!
# What applying the prompt updates keeps

Every round fills a result that was `None`, so the rounds end, and every match is an occurrence of
the target of an update of its item.
-/

namespace CustomAi.Vllm.PromptUpdates

open List Splice Function

variable (tokenizer : String → List ℕ) (prompt : List ℕ) (updates : MultiModalPromptUpdates)

def Occurs : UpdateTarget → PromptTargetMatch → Prop
  | .seq seq, found => seq2tokens tokenizer seq ≠ [] ∧
      found.endIdx = found.startIdx + (seq2tokens tokenizer seq).length ∧ found.endIdx ≤ prompt.length ∧
      slice prompt found.startIdx found.endIdx = seq2tokens tokenizer seq
  | .index .start, found => found = ⟨0, 0⟩
  | .index (.prefixOf seq), found => seq2tokens tokenizer seq <+: prompt ∧
      found = ⟨(seq2tokens tokenizer seq).length, (seq2tokens tokenizer seq).length⟩
  | .index .atEnd, found => found = ⟨prompt.length, prompt.length⟩

structure Placed where
  key : ItemKey
  updateIdx : ℕ
  update : ResolvedPromptUpdate
  found : PromptTargetMatch

namespace Placed

def Valid (p : Placed) : Prop :=
  updateAt updates p.key p.updateIdx = some p.update ∧ Occurs tokenizer prompt p.update.target p.found

def edit (p : Placed) : Edit ℕ where
  start := endIdxToInsert p.found p.update.mode
  stop := p.found.endIdx
  content := seq2tokens tokenizer p.update.content

end Placed

def resultOf (result : MultiModalPromptUpdatesApplyResult) (key : ItemKey) : Option ℕ :=
  ((result.get? key.1).bind fun results => results[key.2]?).join

/-- The output is the prompt with one update of each item that has a result, at disjoint places. -/
def Kept (out : List ℕ) (result : MultiModalPromptUpdatesApplyResult) : Prop :=
  ∃ placed : List Placed, (placed.map Placed.key).Nodup ∧ (∀ key updateIdx, resultOf result key = some updateIdx ↔
      ∃ p ∈ placed, p.key = key ∧ p.updateIdx = updateIdx) ∧
    (∀ p ∈ placed, p.Valid tokenizer prompt updates) ∧ InOrder 0 (placed.map (Placed.edit tokenizer)) ∧
    out = write prompt (placed.map (Placed.edit tokenizer))

section

variable {tokenizer prompt updates}

lemma slice_length_le {l ids : List ℕ} {start stop : ℕ} (h : slice l start stop = ids)
    (hids : ids ≠ []) (hstop : stop = start + ids.length) : stop ≤ l.length := by
  have hlen := congrArg length h
  have hpos : 0 < ids.length := length_pos_of_ne_nil hids
  rw [slice, length_drop, length_take] at hlen
  omega

variable {found : PromptTargetMatch} {target : UpdateTarget}

lemma Occurs.le (h : Occurs tokenizer prompt target found) :
    found.startIdx ≤ found.endIdx ∧ found.endIdx ≤ prompt.length := by
  match target with
  | .seq seq => exact ⟨by have := h.2.1; omega, h.2.2.1⟩
  | .index .start =>
    obtain rfl : found = ⟨0, 0⟩ := h
    exact ⟨le_rfl, Nat.zero_le _⟩
  | .index (.prefixOf seq) =>
    obtain ⟨hpre, rfl⟩ := h
    exact ⟨le_rfl, hpre.length_le⟩
  | .index .atEnd =>
    obtain rfl : found = ⟨prompt.length, prompt.length⟩ := h
    exact ⟨le_rfl, le_rfl⟩

def targetLength (tokenizer : String → List ℕ) : UpdateTarget → ℕ
  | .seq seq => (seq2tokens tokenizer seq).length
  | .index _ => 0

lemma Occurs.length_eq
    (h : Occurs tokenizer prompt target found) : found.endIdx - found.startIdx = targetLength tokenizer target := by
  match target with
  | .seq seq =>
    have hend := h.2.1
    simp only [targetLength]
    omega
  | .index .start =>
    obtain rfl : found = ⟨0, 0⟩ := h
    rfl
  | .index (.prefixOf seq) =>
    obtain ⟨-, rfl⟩ := h
    exact Nat.sub_self _
  | .index .atEnd =>
    obtain rfl : found = ⟨prompt.length, prompt.length⟩ := h
    exact Nat.sub_self _

namespace Placed

lemma Valid.fits {p : Placed} (h : p.Valid tokenizer prompt updates) : (p.edit tokenizer).Fits prompt := by
  obtain ⟨hle, hlen⟩ := h.2.le
  refine ⟨?_, hlen⟩
  change endIdxToInsert p.found p.update.mode ≤ p.found.endIdx
  cases p.update.mode with
  | insert => exact le_rfl
  | replace => exact hle

def takes (tokenizer : String → List ℕ) (update : ResolvedPromptUpdate) : ℕ :=
  match update.mode with
  | .insert => 0
  | .replace => targetLength tokenizer update.target

lemma Valid.takes_eq {p : Placed} (h : p.Valid tokenizer prompt updates) :
    (p.edit tokenizer).stop - (p.edit tokenizer).start = takes tokenizer p.update := by
  change p.found.endIdx - endIdxToInsert p.found p.update.mode = takes tokenizer p.update
  unfold takes
  cases p.update.mode with
  | insert => exact Nat.sub_self _
  | replace => exact h.2.length_eq

end Placed

variable {placed : List Placed}

lemma removed_eq (h : ∀ p ∈ placed, p.Valid tokenizer prompt updates) :
    removed (placed.map (Placed.edit tokenizer)) = ((placed.map fun p => (p.key, p.updateIdx)).map fun x =>
        ((updateAt updates x.1 x.2).map (Placed.takes tokenizer)).getD 0).sum := by
  rw [removed, map_map, map_map]
  refine congrArg sum (map_congr_left fun p hp => ?_)
  simp only [comp, (h p hp).1, (h p hp).takes_eq, Option.map_some, Option.getD_some]

lemma added_eq (h : ∀ p ∈ placed, p.Valid tokenizer prompt updates) :
    added (placed.map (Placed.edit tokenizer)) = ((placed.map fun p => (p.key, p.updateIdx)).map fun x =>
        ((updateAt updates x.1 x.2).map fun u => (seq2tokens tokenizer u.content).length).getD 0).sum := by
  rw [added, map_map, map_map]
  refine congrArg sum (map_congr_left fun p hp => ?_)
  simp only [comp, (h p hp).1, Option.map_some, Option.getD_some, Placed.edit]

lemma perm_of_results {placed' : List Placed} (hnd : (placed.map Placed.key).Nodup)
    (hnd' : (placed'.map Placed.key).Nodup)
    (hsame : ∀ key updateIdx, (∃ p ∈ placed, p.key = key ∧ p.updateIdx = updateIdx) ↔
      ∃ p ∈ placed', p.key = key ∧ p.updateIdx = updateIdx) : (placed.map fun p => (p.key, p.updateIdx)).Perm
      (placed'.map fun p => (p.key, p.updateIdx)) := by
  have hpairs : ∀ l : List Placed, (l.map Placed.key).Nodup →
      (l.map fun p => (p.key, p.updateIdx)).Nodup := fun l hl =>
    List.Nodup.of_map Prod.fst (by rw [map_map]; exact hl)
  rw [perm_ext_iff_of_nodup (hpairs placed hnd) (hpairs placed' hnd')]
  rintro ⟨key, updateIdx⟩
  simpa only [mem_map, Prod.mk.injEq] using hsame key updateIdx

/-- With the applied updates in hand, the output keeps the prompt exactly when they are in order. -/
theorem kept_iff_inOrder {result : MultiModalPromptUpdatesApplyResult} (hnd : (placed.map Placed.key).Nodup)
    (hresult : ∀ key updateIdx, resultOf result key = some updateIdx ↔
      ∃ p ∈ placed, p.key = key ∧ p.updateIdx = updateIdx)
    (hvalid : ∀ p ∈ placed, p.Valid tokenizer prompt updates) :
    Kept tokenizer prompt updates (write prompt (placed.map (Placed.edit tokenizer))) result ↔
      InOrder 0 (placed.map (Placed.edit tokenizer)) := by
  have hfits : ∀ l : List Placed, (∀ p ∈ l, p.Valid tokenizer prompt updates) →
      ∀ e ∈ l.map (Placed.edit tokenizer), e.Fits prompt := fun l hl e he => by
    obtain ⟨p, hp, rfl⟩ := mem_map.mp he
    exact (hl p hp).fits
  constructor
  · rintro ⟨placed', hnd', hresult', hvalid', horder, hout⟩
    have hperm := perm_of_results hnd hnd' fun key updateIdx =>
      (hresult key updateIdx).symm.trans (hresult' key updateIdx)
    refine inOrder_of_write_eq (hfits placed hvalid) (hfits placed' hvalid') ?_ ?_ hout horder
    · rw [removed_eq hvalid, removed_eq hvalid']
      exact (hperm.map _).sum_eq
    · rw [added_eq hvalid, added_eq hvalid']
      exact (hperm.map _).sum_eq
  · exact fun horder => ⟨placed, hnd, hresult, hvalid, horder, rfl⟩

end

/-! ## The matches of a round -/

section

variable {tokenizer prompt updates}

variable {found : PromptTargetMatch}

variable {key : ItemKey} {currentResult : ItemKey → Option ℕ}
  {itemUpdates : List ResolvedPromptUpdate} {update : ResolvedPromptUpdate} {startIdx updateIdx : ℕ}

lemma iterTokenMatches_occurs {tokenIds matchIds : List ℕ}
    (h : found ∈ iterTokenMatches tokenIds matchIds startIdx) : matchIds ≠ [] ∧
      found.endIdx = found.startIdx + matchIds.length ∧ slice tokenIds found.startIdx found.endIdx = matchIds := by
  induction startIdx using iterTokenMatches.induct tokenIds matchIds with
  | case1 startIdx hzero =>
    rw [iterTokenMatches, if_pos hzero] at h
    exact absurd h not_mem_nil
  | case2 startIdx hzero hlt endIdx heq ih =>
    rw [iterTokenMatches, if_neg hzero, if_pos hlt, if_pos heq] at h
    rcases mem_cons.mp h with rfl | h
    · exact ⟨fun hnil => hzero (by rw [hnil, length_nil]), rfl, heq⟩
    · exact ih h
  | case3 startIdx hzero hlt endIdx hneq ih =>
    rw [iterTokenMatches, if_neg hzero, if_pos hlt, if_neg hneq] at h
    exact ih h
  | case4 startIdx hzero hlt =>
    rw [iterTokenMatches, if_neg hzero, if_neg hlt] at h
    exact absurd h not_mem_nil

lemma iterMatches_occurs (h : found ∈ update.iterMatches tokenizer prompt startIdx) :
    Occurs tokenizer prompt update.target found := by
  unfold ResolvedPromptUpdate.iterMatches at h
  match htarget : update.target with
  | .seq seq =>
    rw [htarget] at h
    obtain ⟨hne, hend, hslice⟩ := iterTokenMatches_occurs h
    exact ⟨hne, hend, slice_length_le hslice hne hend, hslice⟩
  | .index .start =>
    rw [htarget] at h
    exact mem_singleton.mp h
  | .index .atEnd =>
    rw [htarget] at h
    exact mem_singleton.mp h
  | .index (.prefixOf seq) =>
    rw [htarget] at h
    by_cases hstart : startIdx = 0
    · by_cases htake : prompt.take (seq2tokens tokenizer seq).length = seq2tokens tokenizer seq
      · simp only [PromptIndex.getMatchIndex, hstart, ne_eq, not_true_eq_false, if_false, htake,
          if_true, mem_singleton] at h
        exact ⟨htake ▸ take_prefix _ _, h⟩
      · simp [PromptIndex.getMatchIndex, hstart, htake] at h
    · simp [PromptIndex.getMatchIndex, hstart] at h

variable {prevEndIdx : ℕ}

lemma findItem_spec {mode : Option UpdateMode} {itemUpdates : List (ResolvedPromptUpdate × ℕ)} {mode' : UpdateMode}
    (h : findItem tokenizer prompt prevEndIdx mode itemUpdates = some (mode', found, updateIdx)) :
    (mode = none ∨ mode = some mode') ∧ ∃ update, (update, updateIdx) ∈ itemUpdates ∧
      update.mode = mode' ∧ found ∈ update.iterMatches tokenizer prompt prevEndIdx := by
  induction itemUpdates with
  | nil => exact absurd h nofun
  | cons x rest ih =>
    obtain ⟨update, i⟩ := x
    rw [findItem] at h
    cases hfind : (update.iterMatches tokenizer prompt prevEndIdx).find?
        fun _ => mode = none ∨ mode = some update.mode with
    | none =>
      rw [hfind] at h
      obtain ⟨hmode, u, hu, hrest⟩ := ih h
      exact ⟨hmode, u, mem_cons_of_mem _ hu, hrest⟩
    | some m =>
      rw [hfind] at h
      obtain ⟨rfl, rfl, rfl⟩ := h
      have hmode := find?_some hfind
      exact ⟨of_decide_eq_true hmode, update, mem_cons_self .., rfl, mem_of_find?_eq_some hfind⟩

structure Found (tokenizer : String → List ℕ) (prompt : List ℕ) (updates : MultiModalPromptUpdates)
    (prevEndIdx : ℕ) (currentResult : ItemKey → Option ℕ) (mode : UpdateMode)
    (item : MatchToApply) (update : ResolvedPromptUpdate) : Prop where
  open_item : currentResult item.1 = none
  key_mem : item.1 ∈ (items updates).map Prod.fst
  updateAt_eq : updateAt updates item.1 item.2.2 = some update
  mode_eq : update.mode = mode
  mem_matches : item.2.1 ∈ update.iterMatches tokenizer prompt prevEndIdx

lemma mem_items : (key, itemUpdates) ∈ items updates ↔
      ∃ modalityUpdates, updates.get? key.1 = some modalityUpdates ∧
        modalityUpdates[key.2]? = some itemUpdates := by
  simp only [items, mem_flatMap, mem_map, Prod.exists, Prod.mk.injEq]
  constructor
  · rintro ⟨modality, modalityUpdates, hentry, us, i, hmem, rfl, rfl⟩
    exact ⟨modalityUpdates, (updates.mem_entries_iff _ _).mp hentry, mem_zipIdx_iff_getElem?.mp hmem⟩
  · rintro ⟨modalityUpdates, hget, hitem⟩
    exact ⟨key.1, modalityUpdates, (updates.mem_entries_iff _ _).mpr hget, itemUpdates, key.2,
      mem_zipIdx_iff_getElem?.mpr hitem, rfl, rfl⟩

lemma updateAt_of_mem (h : (key, itemUpdates) ∈ items updates)
    (hu : (update, updateIdx) ∈ itemUpdates.zipIdx) : updateAt updates key updateIdx = some update := by
  obtain ⟨modalityUpdates, hget, hitem⟩ := mem_items.mp h
  simp only [updateAt, hget, hitem, Option.bind_eq_bind, Option.bind_some]
  exact mem_zipIdx_iff_getElem?.mp hu

lemma nodup_items : ((items updates).map Prod.fst).Nodup := by
  rw [items, map_flatMap, nodup_flatMap]
  constructor
  · intro e _
    have hsnd : (e.2.zipIdx.map Prod.snd).Nodup := by
      rw [zipIdx_map_snd]
      exact nodup_range'
    rw [map_map]
    have hpair := hsnd.map (f := Prod.mk e.1) fun i j h => (Prod.mk.inj h).2
    rwa [map_map] at hpair
  · have hkeys : updates.entries.Pairwise fun e e' => e.1 ≠ e'.1 := pairwise_map.mp updates.nodup_keys
    refine hkeys.imp fun {e e'} hne => ?_
    intro key hkey hkey'
    simp only [map_map, mem_map, comp] at hkey hkey'
    obtain ⟨x, -, rfl⟩ := hkey
    obtain ⟨y, -, heq⟩ := hkey'
    exact hne (Prod.mk.inj heq).1.symm

structure Scanned (tokenizer : String → List ℕ) (prompt : List ℕ)
    (updates : MultiModalPromptUpdates) (prevEndIdx : ℕ) (currentResult : ItemKey → Option ℕ)
    (mode mode' : Option UpdateMode) (keys : List ItemKey) (mmMatches : List MatchToApply) :
    Prop where
  mode_kept : ∀ m, mode = some m → mode' = some m
  ne_nil : mode = none → mode' ≠ none → mmMatches ≠ []
  sublist : (mmMatches.map Prod.fst).Sublist keys
  found : ∀ item ∈ mmMatches, ∃ m update, mode' = some m ∧
    Found tokenizer prompt updates prevEndIdx currentResult m item update

lemma findAll_scanned {l : List (ItemKey × List ResolvedPromptUpdate)}
    (hl : ∀ x ∈ l, x ∈ items updates) (mode : Option UpdateMode) :
    Scanned tokenizer prompt updates prevEndIdx currentResult mode
      (findAll tokenizer prompt prevEndIdx currentResult mode l).1 (l.map Prod.fst)
      (findAll tokenizer prompt prevEndIdx currentResult mode l).2 := by
  induction l generalizing mode with
  | nil =>
    exact {
      mode_kept := fun _ h => h
      ne_nil := fun hmode hmode' => absurd hmode hmode'
      sublist := List.Sublist.refl _
      found := nofun }
  | cons x rest ih =>
    obtain ⟨key, itemUpdates⟩ := x
    have hrest := ih fun y hy => hl y (mem_cons_of_mem _ hy)
    have hskip : Scanned tokenizer prompt updates prevEndIdx currentResult mode
        (findAll tokenizer prompt prevEndIdx currentResult mode rest).1
        (key :: rest.map Prod.fst)
        (findAll tokenizer prompt prevEndIdx currentResult mode rest).2 :=
      { hrest mode with sublist := (hrest mode).sublist.cons key }
    rw [findAll]
    by_cases hopen : currentResult key ≠ none
    · rw [if_pos hopen]
      exact hskip
    rw [if_neg hopen]
    cases hitem : findItem tokenizer prompt prevEndIdx mode itemUpdates.zipIdx with
    | none => exact hskip
    | some x =>
      obtain ⟨mode', found, updateIdx⟩ := x
      obtain ⟨hmode, update, hu, hum, hfound⟩ := findItem_spec hitem
      have hmem := hl (key, itemUpdates) (mem_cons_self ..)
      have htail := hrest (some mode')
      have hmode' := htail.mode_kept mode' rfl
      exact {
        mode_kept := fun m hm => by
          rcases hmode with hnone | hsome
          · exact absurd (hnone.symm.trans hm) nofun
          · rw [← hm, hsome]
            exact hmode'
        ne_nil := fun _ _ => cons_ne_nil _ _
        sublist := htail.sublist.cons_cons key
        found := fun item h => by
          rcases mem_cons.mp h with rfl | h
          · exact ⟨mode', update, hmode', {
              open_item := not_ne_iff.mp hopen
              key_mem := mem_map_of_mem hmem
              updateAt_eq := updateAt_of_mem hmem hu
              mode_eq := hum
              mem_matches := hfound }⟩
          · exact htail.found item h }

lemma keepOneNonEmpty_sublist (hasNonEmpty : Bool) (l : List MatchToApply) :
    (keepOneNonEmpty hasNonEmpty l).Sublist l := by
  induction l generalizing hasNonEmpty with
  | nil => exact List.Sublist.refl _
  | cons item rest ih =>
    rw [keepOneNonEmpty]
    by_cases hempty : item.2.1.isEmpty = true
    · rw [if_pos hempty]
      exact (ih hasNonEmpty).cons_cons item
    · rw [if_neg hempty]
      cases hasNonEmpty with
      | true => exact (ih true).cons item
      | false => exact (ih true).cons_cons item

lemma keepOneNonEmpty_ne_nil {l : List MatchToApply} (h : l ≠ []) : keepOneNonEmpty false l ≠ [] := by
  match l, h with
  | item :: rest, _ =>
    rw [keepOneNonEmpty]
    by_cases hempty : item.2.1.isEmpty = true
    · rw [if_pos hempty]
      exact cons_ne_nil _ _
    · rw [if_neg hempty]
      exact cons_ne_nil _ _

lemma findMatches_spec {mode : UpdateMode} {matchesToApply : List MatchToApply}
    (h : findMatches tokenizer prompt updates prevEndIdx currentResult = (some mode, matchesToApply)) :
    matchesToApply ≠ [] ∧ (matchesToApply.map Prod.fst).Nodup ∧ ∀ item ∈ matchesToApply,
      ∃ update, Found tokenizer prompt updates prevEndIdx currentResult mode item update := by
  cases hfind : findAll tokenizer prompt prevEndIdx currentResult none (items updates) with
  | mk m mmMatches =>
  have hscan : Scanned tokenizer prompt updates prevEndIdx currentResult none m
      ((items updates).map Prod.fst) mmMatches := by
    have hall : Scanned tokenizer prompt updates prevEndIdx currentResult none
        (findAll tokenizer prompt prevEndIdx currentResult none (items updates)).1 _
        (findAll tokenizer prompt prevEndIdx currentResult none (items updates)).2 :=
      findAll_scanned (fun _ hx => hx) none
    rwa [hfind] at hall
  have hperm := perm_insertionSort (fun a b : MatchToApply => a.2.1.le b.2.1) mmMatches
  have hcore : m = some mode ∧ matchesToApply.Subperm mmMatches ∧ (mmMatches ≠ [] → matchesToApply ≠ []) := by
    rw [findMatches, hfind] at h
    dsimp only at h
    by_cases hreplace : m = some .replace
    · rw [if_pos hreplace, Prod.mk.injEq] at h
      obtain ⟨hmode, rfl⟩ := h
      refine ⟨hmode, (keepOneNonEmpty_sublist _ _).subperm.trans hperm.subperm, fun hne => ?_⟩
      refine keepOneNonEmpty_ne_nil fun hnil => hne ?_
      rw [hnil] at hperm
      exact hperm.nil_eq.symm
    · rw [if_neg hreplace, Prod.mk.injEq] at h
      obtain ⟨hmode, rfl⟩ := h
      refine ⟨hmode, hperm.subperm, fun hne hnil => hne ?_⟩
      rw [hnil] at hperm
      exact hperm.nil_eq.symm
  obtain ⟨rfl, hsub, hne⟩ := hcore
  refine ⟨hne (hscan.ne_nil rfl nofun), ?_, fun item hitem => ?_⟩
  · obtain ⟨l, hl, hlsub⟩ := hsub
    have hnd := nodup_items.sublist ((hlsub.map Prod.fst).trans hscan.sublist)
    exact (hl.map Prod.fst).nodup_iff.mp hnd
  · obtain ⟨mode', update, hmode, hfound⟩ := hscan.found item (hsub.subset hitem)
    obtain rfl := Option.some.inj hmode
    exact ⟨update, hfound⟩

end

/-! ## The rounds -/

def itemKeys : List ItemKey := (items updates).map Prod.fst

structure Trace (s : State) (placed : List Placed) : Prop where
  nodup : (placed.map Placed.key).Nodup
  result : ∀ key updateIdx, s.outResult key = some updateIdx ↔ ∃ p ∈ placed, p.key = key ∧ p.updateIdx = updateIdx
  valid : ∀ p ∈ placed, p.Valid tokenizer prompt updates
  key_mem : ∀ p ∈ placed, p.key ∈ itemKeys updates
  out : s.outSeqs.flatten = written prompt 0 (placed.map (Placed.edit tokenizer))
  cursor : s.prevEndIdx = cursorAfter 0 (placed.map (Placed.edit tokenizer))

/-- No match lies, with the place of its content, before the end of the one applied before it. -/
def Clear (mode : UpdateMode) : ℕ → List MatchToApply → Prop
  | _, [] => True
  | prevEndIdx, item :: rest =>
    prevEndIdx ≤ endIdxToInsert item.2.1 mode ∧ Clear mode item.2.1.endIdx rest

inductive Rounds : State → State → Prop
  | refl (s : State) : Rounds s s
  | next {s t : State} {mode : UpdateMode} {matchesToApply : List MatchToApply} :
    findMatches tokenizer prompt updates s.prevEndIdx s.outResult = (some mode, matchesToApply) →
    allItemsFound updates (applyRound tokenizer prompt updates mode matchesToApply s).outResult = false →
    Rounds (applyRound tokenizer prompt updates mode matchesToApply s) t → Rounds s t

section

variable {tokenizer prompt updates}

lemma trace_initial : Trace tokenizer prompt updates .initial [] where
  nodup := nodup_nil
  result := fun _ _ => ⟨nofun, fun ⟨_, hp, _⟩ => absurd hp not_mem_nil⟩
  valid := nofun
  key_mem := nofun
  out := rfl
  cursor := rfl

variable {mode : UpdateMode}

lemma Found.valid {prevEndIdx : ℕ} {currentResult : ItemKey → Option ℕ}
    {item : MatchToApply} {update : ResolvedPromptUpdate}
    (h : Found tokenizer prompt updates prevEndIdx currentResult mode item update) :
    (⟨item.1, item.2.2, update, item.2.1⟩ : Placed).Valid tokenizer prompt updates :=
  ⟨h.updateAt_eq, iterMatches_occurs h.mem_matches⟩

variable {s : State} {placed : List Placed}

lemma applyMatch_trace {p : Placed} (h : Trace tokenizer prompt updates s placed) (hopen : s.outResult p.key = none)
    (hp : p.Valid tokenizer prompt updates) (hkey : p.key ∈ itemKeys updates) (hmode : p.update.mode = mode) :
    Trace tokenizer prompt updates (applyMatch tokenizer prompt updates mode s (p.key, p.found, p.updateIdx))
      (placed ++ [p]) := by
  have hnew : p.key ∉ placed.map Placed.key := fun hmem => by
    obtain ⟨q, hq, hqkey⟩ := mem_map.mp hmem
    have hsome := (h.result p.key q.updateIdx).mpr ⟨q, hq, hqkey, rfl⟩
    exact absurd (hopen.symm.trans hsome) nofun
  have hstate : applyMatch tokenizer prompt updates mode s (p.key, p.found, p.updateIdx) =
      { outSeqs := s.outSeqs ++ [slice prompt s.prevEndIdx (endIdxToInsert p.found mode),
          seq2tokens tokenizer p.update.content]
        outResult := update s.outResult p.key (some p.updateIdx)
        prevEndIdx := p.found.endIdx } := by
    rw [applyMatch, hp.1]
  rw [hstate]
  exact {
    nodup := by
      rw [map_append]
      exact h.nodup.append (nodup_singleton _) (disjoint_singleton.mpr hnew)
    result := fun key updateIdx => by
      simp only [mem_append, mem_singleton, or_and_right, exists_or, exists_eq_left]
      by_cases hk : key = p.key
      · subst hk
        rw [update_self, Option.some.injEq]
        constructor
        · exact fun hi => Or.inr ⟨rfl, hi⟩
        · rintro (⟨q, hq, hqkey, -⟩ | ⟨-, hi⟩)
          · exact absurd (mem_map.mpr ⟨q, hq, hqkey⟩) hnew
          · exact hi
      · rw [update_of_ne hk, h.result]
        exact ⟨Or.inl, fun hor => hor.elim id fun hq => absurd hq.1.symm hk⟩
    valid := fun q hq => (mem_append.mp hq).elim (h.valid q) fun hq => by
      rw [mem_singleton.mp hq]
      exact hp
    key_mem := fun q hq => (mem_append.mp hq).elim (h.key_mem q) fun hq => by
      rw [mem_singleton.mp hq]
      exact hkey
    out := by
      rw [map_append, written_append, ← h.cursor, flatten_append, h.out, ← hmode]
      simp only [map_singleton, written, Placed.edit, flatten_cons, flatten_nil, append_nil]
    cursor := by
      rw [map_append, cursorAfter_append]
      rfl }

lemma Trace.length_le
    (h : Trace tokenizer prompt updates s placed) : placed.length ≤ (itemKeys updates).length := by
  have hsub : placed.map Placed.key ⊆ itemKeys updates := fun key hkey => by
    obtain ⟨p, hp, rfl⟩ := mem_map.mp hkey
    exact h.key_mem p hp
  have hle := (h.nodup.subperm hsub).length_le
  rwa [length_map] at hle

variable {matchesToApply : List MatchToApply}

lemma applyRound_trace (h : Trace tokenizer prompt updates s placed)
    (hnd : (matchesToApply.map Prod.fst).Nodup) (hopen : ∀ item ∈ matchesToApply, s.outResult item.1 = none)
    (hvalid : ∀ item ∈ matchesToApply, item.1 ∈ itemKeys updates ∧ ∃ update, update.mode = mode ∧
      (⟨item.1, item.2.2, update, item.2.1⟩ : Placed).Valid tokenizer prompt updates) :
    ∃ more, Trace tokenizer prompt updates
        (applyRound tokenizer prompt updates mode matchesToApply s) (placed ++ more) ∧
      more.length = matchesToApply.length ∧ ∀ cursor, InOrder cursor (more.map (Placed.edit tokenizer)) ↔
        Clear mode cursor matchesToApply := by
  induction matchesToApply generalizing s placed with
  | nil => exact ⟨[], by rwa [append_nil], rfl, fun _ => Iff.rfl⟩
  | cons item rest ih =>
    obtain ⟨hkey, update, hmode, hp⟩ := hvalid item (mem_cons_self ..)
    have hstep := applyMatch_trace h (hopen item (mem_cons_self ..)) hp hkey hmode
    rw [map_cons, nodup_cons] at hnd
    have hopen' : ∀ x ∈ rest,
        (applyMatch tokenizer prompt updates mode s item).outResult x.1 = none := fun x hx => by
      rw [Option.eq_none_iff_forall_ne_some]
      intro updateIdx hsome
      obtain ⟨p, hmem, hpkey, hpidx⟩ := (hstep.result x.1 updateIdx).mp hsome
      rcases mem_append.mp hmem with hmem | hmem
      · have hold := (h.result x.1 updateIdx).mpr ⟨p, hmem, hpkey, hpidx⟩
        exact absurd ((hopen x (mem_cons_of_mem _ hx)).symm.trans hold) nofun
      · rw [mem_singleton.mp hmem] at hpkey
        exact hnd.1 (mem_map.mpr ⟨x, hx, hpkey.symm⟩)
    obtain ⟨more, htrace, hlen, horder⟩ := ih hstep hnd.2 hopen' fun x hx =>
      hvalid x (mem_cons_of_mem _ hx)
    refine ⟨⟨item.1, item.2.2, update, item.2.1⟩ :: more, ?_, ?_, fun cursor => ?_⟩
    · rw [append_cons]
      exact htrace
    · rw [length_cons, length_cons, hlen]
    · have hle := hp.fits.1
      simp only [map_cons, InOrder, Clear, horder]
      simp only [Placed.edit, hmode] at hle ⊢
      exact ⟨fun hc => ⟨hc.1, hc.2.2⟩, fun hc => ⟨hc.1, hle, hc.2⟩⟩

lemma findMatches_round (h : Trace tokenizer prompt updates s placed)
    (hfind : findMatches tokenizer prompt updates s.prevEndIdx s.outResult = (some mode, matchesToApply)) :
    ∃ more, Trace tokenizer prompt updates
        (applyRound tokenizer prompt updates mode matchesToApply s) (placed ++ more) ∧
      0 < more.length ∧ (InOrder s.prevEndIdx (more.map (Placed.edit tokenizer)) ↔
        Clear mode s.prevEndIdx matchesToApply) := by
  obtain ⟨hne, hnd, hfound⟩ := findMatches_spec hfind
  obtain ⟨more, htrace, hlen, horder⟩ := applyRound_trace h hnd
    (fun item hitem => (hfound item hitem).elim fun _ hf => hf.open_item)
    (fun item hitem => (hfound item hitem).elim fun update hf =>
      ⟨hf.key_mem, update, hf.mode_eq, hf.valid⟩)
  refine ⟨more, htrace, ?_, horder s.prevEndIdx⟩
  rw [hlen]
  exact length_pos_of_ne_nil hne

/-- Every match of every round from `s` on is clear. -/
def AllClear (tokenizer : String → List ℕ) (prompt : List ℕ) (updates : MultiModalPromptUpdates)
    (s : State) : Prop :=
  ∀ t mode matchesToApply, Rounds tokenizer prompt updates s t →
    findMatches tokenizer prompt updates t.prevEndIdx t.outResult = (some mode, matchesToApply) →
    Clear mode t.prevEndIdx matchesToApply

lemma allClear_of_none
    (h : findMatches tokenizer prompt updates s.prevEndIdx s.outResult = (none, matchesToApply)) :
    AllClear tokenizer prompt updates s := by
  intro t mode ms ht hfind
  cases ht with
  | refl => exact absurd (h.symm.trans hfind) (by simp)
  | next hround => exact absurd (h.symm.trans hround) (by simp)

lemma allClear_of_some (h : findMatches tokenizer prompt updates s.prevEndIdx s.outResult =
      (some mode, matchesToApply)) :
    AllClear tokenizer prompt updates s ↔ Clear mode s.prevEndIdx matchesToApply ∧ (allItemsFound updates
          (applyRound tokenizer prompt updates mode matchesToApply s).outResult = false →
        AllClear tokenizer prompt updates (applyRound tokenizer prompt updates mode matchesToApply s)) := by
  constructor
  · intro hall
    exact ⟨hall s mode matchesToApply (.refl s) h, fun hopen t mode' ms ht =>
      hall t mode' ms (.next h hopen ht)⟩
  · rintro ⟨hclear, hnext⟩ t mode' ms ht hfind
    cases ht with
    | refl =>
      obtain ⟨hmode, rfl⟩ := Prod.mk.inj (h.symm.trans hfind)
      obtain rfl := Option.some.inj hmode
      exact hclear
    | next hround hopen ht =>
      obtain ⟨hmode, rfl⟩ := Prod.mk.inj (h.symm.trans hround)
      obtain rfl := Option.some.inj hmode
      exact hnext hopen t mode' ms ht hfind

lemma applyRounds_stop (n : ℕ) (h : Trace tokenizer prompt updates s placed)
    (hfind : findMatches tokenizer prompt updates s.prevEndIdx s.outResult = (none, matchesToApply)) :
    ∃ t more, (∀ fuel, n < fuel → applyRounds tokenizer prompt updates fuel s = some t) ∧
      Trace tokenizer prompt updates t (placed ++ more) ∧
      (InOrder s.prevEndIdx (more.map (Placed.edit tokenizer)) ↔ AllClear tokenizer prompt updates s) := by
  refine ⟨s, [], fun fuel hfuel => ?_, by rwa [append_nil], ?_⟩
  · obtain ⟨k, rfl⟩ := Nat.exists_eq_succ_of_ne_zero (Nat.ne_zero_of_lt hfuel)
    rw [applyRounds, hfind]
  · exact ⟨fun _ => allClear_of_none hfind, fun _ => trivial⟩

theorem applyRounds_trace (n : ℕ) (h : Trace tokenizer prompt updates s placed)
    (hn : (itemKeys updates).length ≤ placed.length + n) :
    ∃ t more, (∀ fuel, n < fuel → applyRounds tokenizer prompt updates fuel s = some t) ∧
      Trace tokenizer prompt updates t (placed ++ more) ∧
      (InOrder s.prevEndIdx (more.map (Placed.edit tokenizer)) ↔ AllClear tokenizer prompt updates s) := by
  induction n generalizing s placed with
  | zero =>
    cases hfind : findMatches tokenizer prompt updates s.prevEndIdx s.outResult with
    | mk mode matchesToApply =>
    cases mode with
    | none => exact applyRounds_stop 0 h hfind
    | some mode =>
      obtain ⟨more, htrace, hpos, -⟩ := findMatches_round h hfind
      have hle := htrace.length_le
      rw [length_append] at hle
      omega
  | succ n ih =>
    cases hfind : findMatches tokenizer prompt updates s.prevEndIdx s.outResult with
    | mk mode matchesToApply =>
    cases mode with
    | none => exact applyRounds_stop (n + 1) h hfind
    | some mode =>
      obtain ⟨more, htrace, hpos, horder⟩ := findMatches_round h hfind
      cases hall : allItemsFound updates
          (applyRound tokenizer prompt updates mode matchesToApply s).outResult with
      | true =>
        refine ⟨_, more, fun fuel hfuel => ?_, htrace, ?_⟩
        · obtain ⟨k, rfl⟩ := Nat.exists_eq_succ_of_ne_zero (Nat.ne_zero_of_lt hfuel)
          simp only [applyRounds, hfind, hall, if_true]
        · rw [allClear_of_some hfind, hall, horder]
          exact ⟨fun hc => ⟨hc, nofun⟩, fun hc => hc.1⟩
      | false =>
        obtain ⟨t, later, hrun, hlater, hclear⟩ := ih htrace (by
          rw [length_append]
          omega)
        refine ⟨t, more ++ later, fun fuel hfuel => ?_, by rwa [← append_assoc], ?_⟩
        · obtain ⟨k, rfl⟩ := Nat.exists_eq_succ_of_ne_zero (Nat.ne_zero_of_lt hfuel)
          simp only [applyRounds, hfind, hall]
          exact hrun k (by omega)
        · have hcursor : cursorAfter s.prevEndIdx (more.map (Placed.edit tokenizer)) =
              (applyRound tokenizer prompt updates mode matchesToApply s).prevEndIdx := by
            rw [htrace.cursor, h.cursor, map_append, cursorAfter_append]
          rw [allClear_of_some hfind, hall, map_append, inOrder_append, hcursor, horder, hclear]
          exact and_congr_right fun _ => ⟨fun hc _ => hc, fun hc => hc rfl⟩

/-! ## The result -/

lemma mem_itemKeys {key : ItemKey} : key ∈ itemKeys updates ↔
    ∃ modalityUpdates, updates.get? key.1 = some modalityUpdates ∧ key.2 < modalityUpdates.length := by
  simp only [itemKeys, mem_map, Prod.exists, exists_and_right, exists_eq_right]
  constructor
  · rintro ⟨itemUpdates, hmem⟩
    obtain ⟨modalityUpdates, hget, hitem⟩ := mem_items.mp hmem
    exact ⟨modalityUpdates, hget, (List.getElem?_eq_some_iff.mp hitem).1⟩
  · rintro ⟨modalityUpdates, hget, hlt⟩
    exact ⟨modalityUpdates[key.2], mem_items.mpr ⟨modalityUpdates, hget, List.getElem?_eq_getElem hlt⟩⟩

lemma resultOf_resultLists {outResult : ItemKey → Option ℕ}
    (h : ∀ key, key ∉ itemKeys updates → outResult key = none) (key : ItemKey) :
    resultOf (resultLists updates outResult) key = outResult key := by
  unfold resultOf resultLists
  rw [Dict.get?_mapValues]
  by_cases hkey : key ∈ itemKeys updates
  · obtain ⟨modalityUpdates, hget, hlt⟩ := mem_itemKeys.mp hkey
    rw [hget]
    simp [hlt]
  · rw [h key hkey]
    cases hget : updates.get? key.1 with
    | none => rfl
    | some modalityUpdates =>
      have hge : modalityUpdates.length ≤ key.2 := not_lt.mp fun hlt =>
        hkey (mem_itemKeys.mpr ⟨modalityUpdates, hget, hlt⟩)
      simp [hge]

lemma Trace.resultOf_iff (h : Trace tokenizer prompt updates s placed) (key : ItemKey) (updateIdx : ℕ) :
    resultOf (resultLists updates s.outResult) key = some updateIdx ↔
      ∃ p ∈ placed, p.key = key ∧ p.updateIdx = updateIdx := by
  rw [resultOf_resultLists, h.result]
  intro key hkey
  rw [Option.eq_none_iff_forall_ne_some]
  intro i hsome
  obtain ⟨p, hp, rfl, -⟩ := (h.result key i).mp hsome
  exact hkey (h.key_mem p hp)

lemma itemKeys_eq_nil (h : allItemsFound updates State.initial.outResult = true) : itemKeys updates = [] := by
  rw [eq_nil_iff_forall_not_mem]
  intro key hkey
  obtain ⟨modalityUpdates, hget, hlt⟩ := mem_itemKeys.mp hkey
  have hall := all_eq_true.mp h (key.1, modalityUpdates)
    ((updates.mem_entries_iff _ _).mpr hget)
  have hzero : (range modalityUpdates.length).countP
      (fun i => (State.initial.outResult (key.1, i)).isSome) = 0 :=
    countP_eq_zero.mpr fun _ _ => by simp [State.initial]
  rw [decide_eq_true_eq, hzero] at hall
  exact absurd (Nat.lt_of_lt_of_le hlt hall) (Nat.not_lt_zero _)

end

/-- The rounds end. Tokens and contents are neither lost nor written twice exactly when no match of
a round lies before `prev_end_idx`. -/
theorem applyTokenMatches_kept_iff : ∃ rounds out result, (∀ fuel, rounds ≤ fuel →
      applyTokenMatches tokenizer prompt updates fuel = some (out, result)) ∧
    (Kept tokenizer prompt updates out result ↔ AllClear tokenizer prompt updates .initial) := by
  have hinit : Trace tokenizer prompt updates .initial [] := trace_initial
  cases hall : allItemsFound updates State.initial.outResult with
  | true =>
    refine ⟨0, prompt, resultLists updates State.initial.outResult, fun fuel _ => ?_, ?_⟩
    · simp [applyTokenMatches, applyMatches, hall]
    · have hkept : Kept tokenizer prompt updates prompt
          (resultLists updates State.initial.outResult) :=
        ⟨[], nodup_nil, hinit.resultOf_iff, nofun, trivial, rfl⟩
      refine iff_of_true hkept fun t mode matchesToApply _ hfind => ?_
      obtain ⟨hne, -, hfound⟩ := findMatches_spec hfind
      obtain ⟨item, hitem⟩ := exists_mem_of_ne_nil _ hne
      obtain ⟨update, hf⟩ := hfound item hitem
      exact absurd (itemKeys_eq_nil hall ▸ hf.key_mem : item.1 ∈ []) not_mem_nil
  | false =>
    obtain ⟨t, placed, hrun, htrace, hclear⟩ := applyRounds_trace (itemKeys updates).length hinit (by simp)
    rw [nil_append] at htrace
    refine ⟨(itemKeys updates).length + 1, write prompt (placed.map (Placed.edit tokenizer)),
      resultLists updates t.outResult, fun fuel hfuel => ?_, ?_⟩
    · simp [applyTokenMatches, applyMatches, hall, hrun fuel hfuel, htrace.out, htrace.cursor, write]
    · rw [kept_iff_inOrder htrace.nodup htrace.resultOf_iff htrace.valid]
      exact hclear

/-- A replacement of the token 1 and an insertion at the start, which comes a round later. -/
def replaceThenInsert : MultiModalPromptUpdates :=
  ⟨[("image", [[⟨.replace, .seq (.tokens [1]), .tokens [10]⟩]]),
    ("audio", [[⟨.insert, .index .start, .tokens [11]⟩]])], by decide⟩

/-- The insertion takes `prev_end_idx` back to 0, and the replaced token is written again. -/
theorem replaced_token_written_again : ∃ result, applyTokenMatches (fun _ => []) [1, 2] replaceThenInsert 3 =
      some ([10, 11, 1, 2], result) ∧ ¬Kept (fun _ => []) [1, 2] replaceThenInsert [10, 11, 1, 2] result := by
  let image : Placed :=
    ⟨("image", 0), 0, ⟨.replace, .seq (.tokens [1]), .tokens [10]⟩, ⟨0, 1⟩⟩
  let audio : Placed := ⟨("audio", 0), 0, ⟨.insert, .index .start, .tokens [11]⟩, ⟨0, 0⟩⟩
  have hinit : Trace (fun _ => []) [1, 2] replaceThenInsert .initial [] := trace_initial
  have himage : Trace (fun _ => []) [1, 2] replaceThenInsert
      (applyMatch (fun _ => []) [1, 2] replaceThenInsert .replace .initial
        (("image", 0), ⟨0, 1⟩, 0)) [image] :=
    applyMatch_trace (p := image) hinit rfl ⟨rfl, by decide, rfl, by decide, rfl⟩ (by decide) rfl
  have haudio : Trace (fun _ => []) [1, 2] replaceThenInsert
      (applyMatch (fun _ => []) [1, 2] replaceThenInsert .insert
        (applyMatch (fun _ => []) [1, 2] replaceThenInsert .replace .initial
          (("image", 0), ⟨0, 1⟩, 0)) (("audio", 0), ⟨0, 0⟩, 0)) [image, audio] :=
    applyMatch_trace (p := audio) himage (by decide) ⟨rfl, rfl⟩ (by decide) rfl
  refine ⟨resultLists replaceThenInsert fun key => if key.2 = 0 then some 0 else none,
    by decide +kernel, fun hkept => ?_⟩
  have horder := (kept_iff_inOrder haudio.nodup haudio.resultOf_iff haudio.valid).mp hkept
  exact absurd horder.2.2.1 (by decide)

end CustomAi.Vllm.PromptUpdates
