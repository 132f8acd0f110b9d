import CustomAi.OpenWebUI.TagStream

/-!
# Streamed reasoning sections

Texts and `<think>` sections that come in arbitrary deltas are extracted if the only section comes
with the last delta or in several ones, of which the one with its end tag does not end in the
whitespace inside the text after it.
-/

namespace CustomAi.OpenWebUI.TagContent

open List Matcher

variable (isword : Char → Bool) {t₀ r t y : Str} {secs : List (Str × Str)} {deltas : List Str}

/-- The texts are plain and none of them is blank. -/
structure Sections (t₀ : Str) (secs : List (Str × Str)) : Prop where
  plain : Plain t₀
  nonblank : ¬ Blank isspace t₀
  plain_mem : ∀ sec ∈ secs, Plain sec.1 ∧ Plain sec.2
  nonblank_mem : ∀ sec ∈ secs, ¬ Blank isspace sec.1 ∧ ¬ Blank isspace sec.2

def expected (t₀ : Str) (secs : List (Str × Str)) : List (BlockType × Str) :=
  (.text, strip isspace t₀) :: secs.flatMap fun sec =>
    [(.reasoning, strip isspace sec.1), (.text, strip isspace sec.2)]

def stripped (blocks : List Block) : List (BlockType × Str) :=
  blocks.map fun block => (block.type, strip isspace block.content)

def Extracted (t₀ : Str) (secs : List (Str × Str)) (deltas : List Str) : Prop :=
  stripped (stream_body_handler isword detectReasoning deltas) = expected t₀ secs

/-- The deltas cut the only section harmlessly, and no later tag is found. -/
def WellCut (t₀ : Str) (secs : List (Str × Str)) (deltas : List Str) : Prop :=
  match secs with
  | [] => True
  | [(r, t)] =>
    let m := closed t₀ r deltas - (t₀ ++ think ++ (r ++ endThink)).length
    opened t₀ deltas = deltas.flatten.length ∨ (opened t₀ deltas < closed t₀ r deltas ∧
        (Blank isspace (t.take m) ∨ Blank isspace (t.drop m) ∨
          ∀ c, (t.take m).getLast? = some c → isspace c = false) ∧ Quiet DEFAULT_SOLUTION_TAGS (t₀ ++ t) ∧
        (closed t₀ r deltas = deltas.flatten.length ∨ Quiet DEFAULT_REASONING_TAGS (t₀ ++ t)))
  | _ => False

lemma ne_nil_of_not_blank {l : Str} (h : ¬ Blank isspace l) : l ≠ [] := by
  rintro rfl
  exact h blank_nil

lemma flatten_eq_nil (hvs : ∀ v ∈ deltas, v ≠ []) (h : deltas.flatten = []) : deltas = [] := by
  cases deltas with
  | nil => rfl
  | cons v deltas => exact absurd (append_eq_nil_iff.mp h).1 (hvs v mem_cons_self)

lemma stripped_cleanUp_text {b : Blocks} (hlast : b.last.type = .text) (hblank : ¬ Blank isspace b.last.content) :
    stripped (cleanUp b) = stripped b.init ++ [(.text, strip isspace b.last.content)] := by
  unfold cleanUp stripped
  rw [if_pos fun h => hblank (strip_eq_nil_iff.mp h)]
  simp [hlast, strip_strip]

lemma stripped_init (b : Blocks) (h : b.init ≠ []) : stripped b.init <+: stripped (cleanUp b) := by
  unfold cleanUp stripped
  split
  · split
    · rw [map_append]
      exact prefix_append _ _
    · exact prefix_refl _
  · unfold Blocks.toList
    rw [map_append]
    exact prefix_append _ _

lemma length_stripped_cleanUp_le (b : Blocks) : (stripped (cleanUp b)).length ≤ b.init.length + 1 := by
  unfold cleanUp stripped Blocks.toList
  rw [length_map]
  split
  · split
    · rw [length_append]
      rfl
    · split
      · exact Nat.le_add_left _ _
      · omega
  · rw [length_append]
    rfl

lemma length_expected (t₀ : Str) (secs : List (Str × Str)) : (expected t₀ secs).length = 1 + 2 * secs.length := by
  unfold expected
  rw [length_cons]
  simp
  omega

lemma extracted_nil (h : Sections t₀ []) (hvs : ∀ v ∈ deltas, v ≠ [])
    (hflat : deltas.flatten = t₀) : Extracted isword t₀ [] deltas := by
  have hrun := onDeltas_of_quiet isword (s := .start) rfl hvs
    (by rw [hflat]; exact h.plain.quiet searched_subset)
  unfold Extracted stream_body_handler
  rw [hrun, hflat, stripped_cleanUp_text rfl h.nonblank]
  rfl

lemma stripped_closedAt (t₀ r y : Str) {x : Str} (hx : ¬ Blank isspace x) :
    stripped (cleanUp ⟨(closedAt [] t₀ r y).init, .text x⟩) =
      [(.text, strip isspace t₀), (.reasoning, strip isspace r), (.text, strip isspace x)] := by
  rw [stripped_cleanUp_text rfl hx]
  simp [closedAt, stripped, Block.text, reasoningBlock, strip_strip]

lemma expected_single (t₀ r t : Str) : expected t₀ [(r, t)] =
    [(.text, strip isspace t₀), (.reasoning, strip isspace r), (.text, strip isspace t)] := rfl

lemma stray_delete_eq_self {l : Str} (h : Plain l) : (stray_tag_pattern think).delete l = l :=
  delete_eq_self (stray_misses_plain h)

variable {B : List Str}

lemma extracted_whole_iff (h : Sections t₀ [(r, t)]) (hy : y ++ B.flatten = t)
    (hB : ∀ v ∈ B, v ≠ []) : stripped (cleanUp (onDeltas isword detectReasoning B
      ⟨t₀ ++ (think ++ (r ++ (endThink ++ y))), closedAt [] t₀ r y⟩).blocks) = expected t₀ [(r, t)] ↔ B = [] := by
  obtain ⟨hr, ht⟩ := h.plain_mem _ mem_cons_self
  obtain ⟨hrb, htb⟩ := h.nonblank_mem _ mem_cons_self
  constructor
  · intro heq
    have hquiet := quiet_solution h.plain h.plain_mem
    rw [body, body, append_nil, ← hy] at hquiet
    obtain ⟨init', hlen, hrun⟩ := onDeltas_again isword [] h.plain
      (ne_nil_of_not_blank h.nonblank) hr hrb hB hquiet
    rw [hrun] at heq
    have hpre := stripped_init (closedAt init' t₀ r (y ++ B.flatten)) (by simp [closedAt])
    have hle := hpre.length_le
    rw [heq, length_expected] at hle
    simp [closedAt, stripped] at hle hlen
    exact length_eq_zero_iff.mp (by omega)
  · rintro rfl
    rw [flatten_nil, append_nil] at hy
    subst hy
    have hblank : ¬ Blank isspace (strip isspace y) := fun hb => htb (by
      have h := strip_of_blank hb
      rw [strip_strip] at h
      exact strip_eq_nil_iff.mp h)
    rw [closedAt, stray_delete_eq_self ht]
    have hstripped := stripped_closedAt t₀ r y hblank
    rw [strip_strip] at hstripped
    exact hstripped

lemma extracted_apart_iff (h : Sections t₀ [(r, t)]) (hy : y ++ B.flatten = t)
    (hB : ∀ v ∈ B, v ≠ []) (hsol : Quiet DEFAULT_SOLUTION_TAGS (t₀ ++ t))
    (hreason : B = [] ∨ Quiet DEFAULT_REASONING_TAGS (t₀ ++ t)) :
    stripped (cleanUp (onDeltas isword detectReasoning B (handleSolution isword
      (t₀ ++ (section_pattern think endThink).delete y) (closedAt [] t₀ r y))).blocks) =
        expected t₀ [(r, t)] ↔ Blank isspace y ∨ Blank isspace B.flatten ∨
        ∀ c, y.getLast? = some c → isspace c = false := by
  obtain ⟨-, ht⟩ := h.plain_mem _ mem_cons_self
  obtain ⟨-, htb⟩ := h.nonblank_mem _ mem_cons_self
  have hyplain : Plain y := ht.part ⟨[], B.flatten, hy⟩
  have hpre : t₀ ++ y <+: t₀ ++ t := ⟨B.flatten, by rw [append_assoc, hy]⟩
  let s : Stream := ⟨t₀ ++ y, closedAt [] t₀ r y⟩
  have hclose : handleSolution isword (t₀ ++ (section_pattern think endThink).delete y)
      (closedAt [] t₀ r y) = s := by
    rw [section_delete_eq_self hyplain.free_endThink]
    exact handleSolution_of_quiet isword rfl (hsol.mono hpre)
  have hrun : onDeltas isword detectReasoning B s =
      ⟨t₀ ++ t, ⟨s.blocks.init, .text (strip isspace y ++ B.flatten)⟩⟩ := by
    have hstray : (closedAt [] t₀ r y).last = .text (strip isspace y) := by
      rw [closedAt, stray_delete_eq_self hyplain]
    rcases hreason with rfl | hreason
    · rw [flatten_nil, append_nil] at hy ⊢
      rw [onDeltas, ← hy, ← hstray]
    · have hquiet : Quiet searched (s.content ++ B.flatten) := by
        rw [show s.content ++ B.flatten = t₀ ++ t by rw [append_assoc, hy]]
        intro tag htag
        exact (mem_append.mp htag).elim (hreason tag) (hsol tag)
      rw [onDeltas_of_quiet isword rfl hB hquiet, append_assoc, hy]
      exact congrArg (fun x => (⟨_, ⟨_, x⟩⟩ : Stream)) (congrArg (Block.add · B.flatten) hstray)
  have hblank : ¬ Blank isspace (strip isspace y ++ B.flatten) := by
    rw [blank_strip_append_iff, hy]
    exact htb
  rw [hclose, hrun, stripped_closedAt t₀ r y hblank, expected_single, ← hy]
  simp [strip_strip_append_iff]

lemma flatten_length_eq_zero_iff (hB : ∀ v ∈ B, v ≠ []) : B.flatten.length = 0 ↔ B = [] := by
  refine ⟨fun h => flatten_eq_nil hB (length_eq_zero_iff.mp h), ?_⟩
  rintro rfl
  rfl

/-- One section is extracted where it is well cut, and conversely if the texts around it make no
tag. -/
theorem extracted_single (h : Sections t₀ [(r, t)]) (hvs : ∀ v ∈ deltas, v ≠ [])
    (hflat : deltas.flatten = t₀ ++ body [(r, t)]) :
    (WellCut t₀ [(r, t)] deltas → Extracted isword t₀ [(r, t)] deltas) ∧
      (Plain (t₀ ++ t) → Extracted isword t₀ [(r, t)] deltas → WellCut t₀ [(r, t)] deltas) := by
  obtain ⟨hr, ht⟩ : Plain r ∧ Plain t := h.plain_mem _ mem_cons_self
  obtain ⟨hrb, -⟩ := h.nonblank_mem _ mem_cons_self
  have hquiet := quiet_solution h.plain h.plain_mem
  rw [body, body, append_nil] at hquiet hflat
  obtain ⟨y, B, hy, hB, hclosed, hcases⟩ := onDeltas_first_section isword h.plain
    (ne_nil_of_not_blank h.nonblank) hr hrb hvs hquiet hflat
  have hlen : deltas.flatten.length = (t₀ ++ think ++ (r ++ endThink)).length + y.length + B.flatten.length := by
    rw [hflat, ← hy]
    simp only [length_append]
    omega
  have hnil := flatten_length_eq_zero_iff hB
  have hm : closed t₀ r deltas - (t₀ ++ think ++ (r ++ endThink)).length = y.length := by omega
  have htake : t.take y.length = y := by rw [← hy, take_left]
  have hdrop : t.drop y.length = B.flatten := by rw [← hy, drop_left]
  unfold Extracted stream_body_handler WellCut
  dsimp only
  rw [hm, htake, hdrop]
  rcases hcases with ⟨hwhole, hrun⟩ | ⟨hapart, hrun⟩
  · rw [hrun, extracted_whole_iff isword h hy hB, ← hnil]
    refine ⟨?_, fun _ hzero => .inl (by omega)⟩
    rintro (htotal | ⟨hlt, -⟩)
    · omega
    · omega
  · rw [hrun]
    constructor
    · rintro (htotal | ⟨-, hcut, hsol, hreason⟩)
      · omega
      · have hreason : B = [] ∨ Quiet DEFAULT_REASONING_TAGS (t₀ ++ t) :=
          hreason.imp_left fun htotal => hnil.mp (by omega)
        exact (extracted_apart_iff isword h hy hB hsol hreason).mpr hcut
    · intro hplain hextracted
      have hquiet := hplain.quiet searched_subset
      exact .inr ⟨hapart, (extracted_apart_iff isword h hy hB hquiet.right
        (.inr hquiet.left)).mp hextracted, hquiet.right, .inr hquiet.left⟩

def TakenAlong (P : Str) (b : Blocks) : Prop :=
  ∃ init block, init.length = 2 ∧ block.type = BlockType.text ∧ P <+: block.content ∧ init ++ [block] <+: b.init

def Following (b : Blocks) : Prop := b.init.length = 2 ∧ b.last.type = .text

variable {tags : List (Str × Str)} {content P : Str} {b : Blocks}

lemma TakenAlong.mono {b' : Blocks} (h : TakenAlong P b) (hb : b.init <+: b'.init) : TakenAlong P b' := by
  obtain ⟨init, block, hinit, htype, hpre, hb'⟩ := h
  exact ⟨init, block, hinit, htype, hpre, hb'.trans hb⟩

/-- What has arrived, with what still arrives: a text that begins with `P`, and then a tag. -/
def Ahead (P content R : Str) : Prop :=
  ∃ Q V, content ++ R = Q ++ V ∧ P <+: Q ∧ Plain Q ∧ (V = [] ∨ V.head? = some '<')

variable {R : Str}

lemma Ahead.prefix_before (h : Ahead P content R) {tag : Str × Str} (htag : tag ∈ allTags)
    {before : Str} {m : Str × Str}
    (hm : (start_tag_pattern false tag.1).search content = some (before, m)) : P <+: before := by
  obtain ⟨Q, V, heq, hPQ, hQ, hV⟩ := h
  have hsub := openings_subset htag
  exact hPQ.trans ((start_tag_pattern_beginsWith false tag.1).prefix_before
    (fun w hw => not_mem_tail (hsub hw)) (fun w hw => hQ w (hsub hw)) hV heq hm)

lemma Following.call (content_type : BlockType) (h : Following b) (hne : P ≠ [])
    (hahead : Ahead P content R) (htags : tags ⊆ allTags) :
    tag_content_handler isword content_type tags content b = (content, b, false) ∨
      TakenAlong P (tag_content_handler isword content_type tags content b).2.1 := by
  have hopen : openTag isword content_type content b tags = b ∨ _ :=
    openTag_text h.2 (fun tag htag _ _ hm => hahead.prefix_before (htags htag) hm) hne
  rw [tag_content_handler_of_text h.2]
  rcases hopen with heq | ⟨block, htype, hP, hinit⟩
  · rw [heq]
    exact .inl rfl
  · exact .inr ⟨b.init, block, h.1, htype, hP, hinit⟩

lemma Following.solution (h : Following b) (hne : P ≠ []) (hahead : Ahead P content R) :
    handleSolution isword content b = ⟨content, b⟩ ∨ TakenAlong P (handleSolution isword content b).blocks := by
  have hsub : DEFAULT_SOLUTION_TAGS ⊆ allTags := fun tag htag =>
    searched_subset (mem_append_right _ htag)
  unfold handleSolution
  rcases h.call isword .solution hne hahead hsub with heq | htaken
  · rw [heq]
    exact .inl rfl
  · exact .inr htaken

lemma Following.both (h : Following b) (hne : P ≠ []) (hahead : Ahead P content R) :
    handle isword content b = ⟨content, b⟩ ∨ TakenAlong P (handle isword content b).blocks := by
  have hsub : DEFAULT_REASONING_TAGS ⊆ allTags := fun tag htag =>
    searched_subset (mem_append_left _ htag)
  unfold handle
  rcases h.call isword .reasoning hne hahead hsub with heq | htaken
  · rw [heq]
    exact h.solution isword hne hahead
  · exact .inr (htaken.mono (tag_content_handler_init _ _))

lemma addedTo_init (b : Blocks) : b.init <+: (addedTo b).init := by
  unfold addedTo
  split
  · exact prefix_append _ _
  · exact prefix_refl _

lemma taken_or_following {s : Stream} (hvs : ∀ v ∈ deltas, v ≠ []) (hne : P ≠ [])
    (h : (Following s.blocks ∧ Ahead P s.content deltas.flatten) ∨ TakenAlong P s.blocks) :
    Following (onDeltas isword detectReasoning deltas s).blocks ∨
      TakenAlong P (onDeltas isword detectReasoning deltas s).blocks := by
  induction deltas generalizing s with
  | nil => exact h.imp_left And.left
  | cons v deltas ih =>
    rw [onDeltas_cons isword (hvs v mem_cons_self)]
    refine ih (fun v hv => hvs v (mem_cons_of_mem _ hv)) ?_
    rcases h with ⟨hfollowing, hahead⟩ | htaken
    · have hnext : Following (s.blocks.replaceLast (s.blocks.last.add v)) := hfollowing
      rw [addedTo_text hfollowing.2]
      have hahead' : Ahead P (s.content ++ v) deltas.flatten := by
        obtain ⟨Q, V, heq, hrest⟩ := hahead
        exact ⟨Q, V, by rw [← heq, flatten_cons, append_assoc], hrest⟩
      rcases hnext.both isword hne hahead' with heq | htaken
      · rw [heq]
        exact .inl ⟨hnext, hahead'⟩
      · exact .inr htaken
    · let b := (addedTo s.blocks).replaceLast ((addedTo s.blocks).last.add v)
      have hb : s.blocks.init <+: b.init := addedTo_init s.blocks
      exact .inr ((htaken.mono hb).mono ((tag_content_handler_init _ _).trans (tag_content_handler_init _ _)))

lemma not_expected_of_following (h : Following b) (first second : Str × Str) :
    stripped (cleanUp b) ≠ expected t₀ (first :: second :: secs) := by
  intro heq
  have hle := length_stripped_cleanUp_le b
  rw [heq, length_expected, h.1, length_cons, length_cons] at hle
  omega

lemma not_expected_of_taken (ht0 : ¬ Blank isspace t₀) (h : TakenAlong (t₀ ++ t) b) :
    stripped (cleanUp b) ≠ expected t₀ ((r, t) :: secs) := by
  intro heq
  obtain ⟨init, block, hinit, -, ⟨u, hu⟩, hb⟩ := h
  have hne : b.init ≠ [] := by
    intro hnil
    rw [hnil] at hb
    simpa using hb.length_le
  have hpre : stripped (init ++ [block]) <+: expected t₀ ((r, t) :: secs) := by
    rw [← heq]
    exact (List.IsPrefix.map _ hb).trans (stripped_init b hne)
  obtain ⟨rest, hrest⟩ := hpre
  match init, hinit with
  | [_, _], _ =>
    have hthird : strip isspace block.content = strip isspace t :=
      (Prod.mk.inj (List.cons.inj (List.cons.inj (List.cons.inj hrest).2).2).1).2
    have hfilter := congrArg (List.filter fun c => !isspace c) hthird
    rw [filter_strip, filter_strip, ← hu, filter_append, filter_append] at hfilter
    have hlen := congrArg List.length hfilter
    rw [length_append, length_append] at hlen
    exact ht0 (blank_iff_filter.mpr (length_eq_zero_iff.mp (by omega)))

lemma plain_of_mem_expected (h : Sections t₀ secs) {x : BlockType × Str}
    (hx : x ∈ expected t₀ secs) : Plain x.2 := by
  have hstrip : ∀ l, Plain l → Plain (strip isspace l) := by
    intro l hl
    obtain ⟨a, c, heq, -⟩ := exists_strip isspace l
    exact hl.part ⟨a, c, heq.symm⟩
  rcases mem_cons.mp hx with rfl | hx
  · exact hstrip _ h.plain
  · obtain ⟨sec, hsec, hx⟩ := mem_flatMap.mp hx
    obtain ⟨hr, ht⟩ := h.plain_mem sec hsec
    rcases mem_pair.mp hx with rfl | rfl
    · exact hstrip _ hr
    · exact hstrip _ ht

lemma not_expected_of_whole {second : Str × Str} {init : List Block} {v : Str}
    (h : Sections t₀ ((r, t) :: second :: secs)) (hlast : t.getLast? ≠ some '<') :
    stripped (cleanUp (closedAt init t₀ r (t ++ (think ++ v)))) ≠ expected t₀ ((r, t) :: second :: secs) := by
  intro heq
  have hdelete : (stray_tag_pattern think).delete (t ++ (think ++ v)) =
      t ++ think ++ (stray_tag_pattern think).delete v := by
    rw [← append_assoc, delete_append (stray_misses_before (h.plain_mem _ mem_cons_self).2 hlast v)]
  have htight : Tight isspace think := by
    constructor
    · rintro x ⟨⟩
      rfl
    · rintro x ⟨⟩
      rfl
  obtain ⟨u, l, hstrip, -⟩ := strip_around htight (by decide) t
    ((stray_tag_pattern think).delete v)
  have hinf : think <:+: strip isspace
      ((stray_tag_pattern think).delete (t ++ (think ++ v))) := by
    rw [hdelete, hstrip]
    exact ⟨u, l, rfl⟩
  have hblank : ¬ Blank isspace (strip isspace
      ((stray_tag_pattern think).delete (t ++ (think ++ v)))) := by
    intro hblank
    have h := hblank '<' (hinf.subset (by decide))
    cases h
  have hmem : (BlockType.text, strip isspace
      ((stray_tag_pattern think).delete (t ++ (think ++ v)))) ∈ expected t₀ ((r, t) :: second :: secs) := by
    rw [← heq, stripped_cleanUp_text rfl hblank]
    exact mem_append_right _ (by simp [closedAt, Block.text, strip_strip])
  exact plain_of_mem_expected h hmem think think_mem_tagWords hinf

/-- Of several sections one is not extracted, if the texts together have no tag. -/
theorem not_extracted_several {first second : Str × Str}
    (h : Sections t₀ (first :: second :: secs)) (hvs : ∀ v ∈ deltas, v ≠ [])
    (hflat : deltas.flatten = t₀ ++ body (first :: second :: secs))
    (hplain : Plain (t₀ ++ (first :: second :: secs).flatMap Prod.snd))
    (hlast : first.2.getLast? ≠ some '<') : ¬ Extracted isword t₀ (first :: second :: secs) deltas := by
  obtain ⟨hr, ht⟩ := h.plain_mem _ mem_cons_self
  obtain ⟨hrb, -⟩ := h.nonblank_mem _ mem_cons_self
  have hquiet := quiet_solution h.plain h.plain_mem
  obtain ⟨r, t⟩ := first
  rw [body] at hquiet hflat
  obtain ⟨y, B, hy, hB, -, hcases⟩ := onDeltas_first_section isword h.plain
    (ne_nil_of_not_blank h.nonblank) hr hrb hvs hquiet hflat
  unfold Extracted stream_body_handler
  rcases hcases with ⟨-, hrun⟩ | ⟨-, hrun⟩
  · rw [← hy] at hquiet
    obtain ⟨init, -, hagain⟩ := onDeltas_again isword [] h.plain
      (ne_nil_of_not_blank h.nonblank) hr hrb hB hquiet
    rw [hrun, hagain, hy]
    exact not_expected_of_whole h hlast
  · obtain ⟨P, V, hdelete, htP, hP, hV⟩ := exists_section_delete y ht
      (fun sec hsec => h.plain_mem sec (mem_cons_of_mem _ hsec)) hy
    have hpre : t₀ ++ t <+: t₀ ++ P := (prefix_append_right_inj t₀).mpr htP
    have hPplain : Plain (t₀ ++ P) := hplain.part ((prefix_append_right_inj t₀).mpr hP).isInfix
    have hahead : Ahead (t₀ ++ t) (t₀ ++ (section_pattern think endThink).delete y) B.flatten :=
      ⟨t₀ ++ P, V, by rw [append_assoc, hdelete, append_assoc], hpre, hPplain, hV⟩
    have hfollowing : Following (closedAt [] t₀ r y) := ⟨rfl, rfl⟩
    have hne : t₀ ++ t ≠ [] := fun h' => ne_nil_of_not_blank h.nonblank
      (append_eq_nil_iff.mp h').1
    rw [hrun]
    have hfinal := taken_or_following isword (s := handleSolution isword
      (t₀ ++ (section_pattern think endThink).delete y) (closedAt [] t₀ r y)) hB hne (by
        rcases hfollowing.solution isword hne hahead with heq | htaken
        · rw [heq]
          exact .inl ⟨hfollowing, hahead⟩
        · exact .inr htaken)
    rcases hfinal with hfollowing | htaken
    · exact not_expected_of_following hfollowing _ _
    · exact not_expected_of_taken h.nonblank htaken

/-- The texts together make no tag, and no `<` stands before the second section. -/
def Separate (t₀ : Str) (secs : List (Str × Str)) : Prop :=
  Plain (t₀ ++ secs.flatMap Prod.snd) ∧
    ∀ first second rest, secs = first :: second :: rest → first.2.getLast? ≠ some '<'

/-- The output is extracted where it is well cut, and of separate texts only there. -/
theorem stream_body_handler_extracts (h : Sections t₀ secs) (hvs : ∀ v ∈ deltas, v ≠ [])
    (hflat : deltas.flatten = t₀ ++ body secs) : (WellCut t₀ secs deltas → Extracted isword t₀ secs deltas) ∧
      (Separate t₀ secs → Extracted isword t₀ secs deltas → WellCut t₀ secs deltas) := by
  match secs with
  | [] =>
    rw [body, append_nil] at hflat
    exact ⟨fun _ => extracted_nil isword h hvs hflat, fun _ _ => trivial⟩
  | [(r, t)] =>
    obtain ⟨henough, hneeded⟩ := extracted_single isword h hvs hflat
    refine ⟨henough, fun hseparate => hneeded ?_⟩
    simpa using hseparate.1
  | first :: second :: secs =>
    refine ⟨fun hcut => hcut.elim, fun hseparate hextracted => ?_⟩
    exact not_extracted_several isword h hvs hflat hseparate.1 (hseparate.2 first second secs rfl) hextracted

lemma plain_of_not_mem {l : Str} (h : '<' ∉ l) (h' : '◁' ∉ l) : Plain l := by
  have hall : ∀ tag ∈ allTags, (bracketed tag.1 = true ∨ '◁' ∈ tag.1) ∧ ('<' ∈ tag.2 ∨ '◁' ∈ tag.2) := by
    decide
  rintro w ⟨tag, htag, hw⟩ hinf
  obtain ⟨hstart, hend⟩ := hall tag htag
  rcases hw with (⟨-, c, -, rfl⟩ | ⟨hnot, rfl⟩) | rfl
  · exact h (hinf.subset mem_cons_self)
  · rcases hstart with hyes | hmem
    · rw [hnot] at hyes
      cases hyes
    · exact h' (hinf.subset hmem)
  · rcases hend with hmem | hmem
    · exact h (hinf.subset hmem)
    · exact h' (hinf.subset hmem)

lemma sections_answer : Sections "So ".toList [("why".toList, " then".toList)] := by
  refine ⟨plain_of_not_mem (by decide) (by decide), by decide, ?_, by decide⟩
  intro sec hsec
  obtain rfl := mem_singleton.mp hsec
  exact ⟨plain_of_not_mem (by decide) (by decide), plain_of_not_mem (by decide) (by decide)⟩

theorem stream_body_handler_extracts_answer :
    Extracted Char.isAlphanum "So ".toList [("why".toList, " then".toList)]
      ["So <thi".toList, "nk>w".toList, "hy</think> th".toList, "en".toList] := by
  refine (stream_body_handler_extracts Char.isAlphanum sections_answer (by decide)
    (by decide)).1 ?_
  refine .inr ⟨by decide, .inr (.inr ?_), by decide, .inr (by decide)⟩
  rintro c ⟨⟩
  rfl

/-- The text before a section and its reasoning are repeated. -/
theorem stream_body_handler_repeats : ¬ ∀ (isword : Char → Bool) (t₀ : Str)
    (secs : List (Str × Str)) (deltas : List Str), Sections t₀ secs → (∀ v ∈ deltas, v ≠ []) →
      deltas.flatten = t₀ ++ body secs → Extracted isword t₀ secs deltas := by
  intro hall
  have h := hall Char.isAlphanum _ _ ["So <think>why</think>".toList, " then".toList]
    sections_answer (by decide) (by decide)
  have hrun : (stripped (stream_body_handler Char.isAlphanum detectReasoning
      ["So <think>why</think>".toList, " then".toList])).length = 5 := by
    decide +kernel
  have hlen := congrArg List.length h
  rw [hrun] at hlen
  cases hlen

end CustomAi.OpenWebUI.TagContent
