import CustomAi.OpenWebUI.TagWords
import CustomAi.Lib.Chunks

/-!
# The handler around a section

What one call of `tag_content_handler` does before, inside and at the end of a `<think>` section,
and what it never undoes.
-/

namespace CustomAi.OpenWebUI.TagContent

open List Matcher

variable {isword : Char → Bool} {content_type : BlockType} {tags : List (Str × Str)}
  {content t r y : Str} {b : Blocks}

def reasoningBlock (content : Str) : Block :=
  { type := .reasoning, content, start_tag := think, end_tag := endThink }

lemma openTag_of_quiet (h : Quiet tags content) : openTag isword content_type content b tags = b := by
  induction tags with
  | nil => rfl
  | cons tag tags ih =>
    obtain ⟨start_tag, end_tag⟩ := tag
    have hnone : (start_tag_pattern false start_tag).search content = none := h (start_tag, end_tag) mem_cons_self
    rw [openTag, hnone]
    exact ih fun tag htag => h tag (mem_cons_of_mem _ htag)

lemma tag_content_handler_of_text (h : b.last.type = .text) :
    tag_content_handler isword content_type tags content b =
      (content, openTag isword content_type content b tags, false) := by
  unfold tag_content_handler
  rw [if_pos h]

lemma tag_content_handler_of_quiet (hlast : b.last.type = .text) (h : Quiet tags content) :
    tag_content_handler isword content_type tags content b = (content, b, false) := by
  rw [tag_content_handler_of_text hlast, openTag_of_quiet h]

lemma tag_content_handler_of_type (htext : b.last.type ≠ .text) (h : b.last.type ≠ content_type) :
    tag_content_handler isword content_type tags content b = (content, b, false) := by
  unfold tag_content_handler
  rw [if_neg htext, if_neg h]

lemma tag_content_handler_of_last (h : b.last.type = .reasoning) :
    tag_content_handler isword .reasoning tags content b = closeTag .reasoning content b := by
  unfold tag_content_handler
  rw [if_neg (by rw [h]; nofun), if_pos h]

lemma closeTag_of_none (h : (literal b.last.end_tag).search content = none) :
    closeTag content_type content b = (content, b, false) := by
  unfold closeTag
  dsimp only
  rw [h]

lemma closeTag_section (hr : Plain r) (hblank : ¬ Blank isspace r)
    (hlast : b.last = reasoningBlock (r ++ (endThink ++ y)))
    (hcontent : ((literal endThink).search content).isSome) :
    closeTag .reasoning content b = ((section_pattern think endThink).delete content,
      ⟨b.init ++ [reasoningBlock (strip isspace r)],
        .text (strip isspace ((stray_tag_pattern think).delete y))⟩, true) := by
  obtain ⟨m, hm⟩ := Option.isSome_iff_exists.mp hcontent
  have hdelete : (stray_tag_pattern think).delete (r ++ (endThink ++ y)) =
      r ++ endThink ++ (stray_tag_pattern think).delete y := by
    rw [← append_assoc, delete_append (stray_misses hr y)]
  have htight : Tight isspace endThink := by
    constructor
    · rintro x ⟨⟩
      rfl
    · rintro x ⟨⟩
      rfl
  obtain ⟨u, l, hstrip, hu, -, hur, hl⟩ := strip_around htight (by decide) r
    ((stray_tag_pattern think).delete y)
  have hfree : Free {endThink} u := hr.free_endThink.part hu.isInfix
  have hsearch := search_endThink hfree l
  rw [← append_assoc, ← hstrip] at hsearch
  have hne : strip isspace r ≠ [] := fun h => hblank (strip_eq_nil_iff.mp h)
  unfold closeTag
  rw [hlast]
  dsimp only [reasoningBlock]
  rw [hm]
  rw [hdelete, hsearch]
  rw [hur, hl, if_pos hne]
  rfl

lemma openTag_section (ht : Plain t) (hne : t ≠ []) (a : Str) :
    openTag isword .reasoning (t ++ (think ++ a)) b DEFAULT_REASONING_TAGS = (closeTag .reasoning a
        ⟨b.init ++ [{ b.last with content := t }], reasoningBlock a⟩).2.1 := by
  have hsearch := search_think ht a
  unfold DEFAULT_REASONING_TAGS
  rw [openTag]
  rw [show "<think>".toList = think from rfl, hsearch]
  dsimp only
  rw [if_pos hne]
  split
  · rfl
  · rename_i hnil
    rw [not_not] at hnil
    subst hnil
    rfl

lemma init_prefix_append (b : Blocks) (x y : Block) : b.init <+: ((b.replaceLast x).append y).init :=
  prefix_append b.init [x]

lemma closeTag_init (content_type : BlockType) (content : Str) (b : Blocks) :
    b.init <+: (closeTag content_type content b).2.1.init := by
  have hite : ∀ (p q : Prop) [Decidable p] [Decidable q] (x y z : Block), b.init <+:
      (if p then if q then (b.replaceLast x).append y else b.replaceLast x
        else b.replaceLast z).init := by
    intro p q _ _ x y z
    split
    · split
      · exact init_prefix_append b x y
      · exact prefix_refl _
    · exact prefix_refl _
  unfold closeTag
  dsimp only
  split
  · exact prefix_refl _
  · exact hite _ _ _ _ _

lemma openTag_init (content : Str) (b : Blocks) : b.init <+: (openTag isword content_type content b tags).init := by
  have hite : ∀ (p : Prop) [Decidable p] (x y : Block), b.init <+:
      (if p then (b.replaceLast x).append y else b.replaceLast y).init := by
    intro p _ x y
    split
    · exact init_prefix_append b x y
    · exact prefix_refl _
  induction tags with
  | nil => exact prefix_refl _
  | cons tag tags ih =>
    rw [openTag]
    split
    · exact ih
    · rename_i before attr after _
      by_cases hafter : after ≠ []
      · rw [if_pos hafter]
        exact (hite _ _ _).trans (closeTag_init _ _ _)
      · rw [if_neg hafter]
        exact hite _ _ _

lemma tag_content_handler_init (content : Str) (b : Blocks) :
    b.init <+: (tag_content_handler isword content_type tags content b).2.1.init := by
  unfold tag_content_handler
  split
  · exact openTag_init content b
  · split
    · exact closeTag_init content_type content b
    · exact prefix_refl _

lemma openTag_text (hlast : b.last.type = .text) (hpre : ∀ tag ∈ tags, ∀ before m,
      (start_tag_pattern false tag.1).search content = some (before, m) → t <+: before) (hne : t ≠ []) :
    openTag isword content_type content b tags = b ∨ ∃ block : Block, block.type = .text ∧ t <+: block.content ∧
        b.init ++ [block] <+: (openTag isword content_type content b tags).init := by
  induction tags with
  | nil => exact .inl rfl
  | cons tag tags ih =>
    rw [openTag]
    split
    · exact ih fun tag htag => hpre tag (mem_cons_of_mem _ htag)
    · rename_i before attr after hsearch
      have htb : t <+: before := hpre _ mem_cons_self _ _ hsearch
      have hbefore : before ≠ [] := by
        rintro rfl
        exact hne (prefix_nil.mp htb)
      refine .inr ⟨{ b.last with content := before }, hlast, htb, ?_⟩
      dsimp only
      rw [if_pos hbefore]
      split
      · refine List.IsPrefix.trans ?_ (closeTag_init content_type after _)
        exact prefix_refl _
      · exact prefix_refl _

end CustomAi.OpenWebUI.TagContent

/-!
## The deltas of a stream

The content deltas with the reasoning tags and without the code interpreter: what the deltas before
a section, inside of it and after it do, and how the first section is taken in.
-/

namespace CustomAi.OpenWebUI.TagContent

open List Matcher

variable (isword : Char → Bool) {s : Stream} {t r y value : Str} {deltas : List Str}

def detectReasoning : Detection := ⟨some DEFAULT_REASONING_TAGS, false⟩

def searched : List (Str × Str) := DEFAULT_REASONING_TAGS ++ DEFAULT_SOLUTION_TAGS

lemma searched_subset : searched ⊆ allTags := fun _ h => mem_append_left _ h

def handleSolution (isword : Char → Bool) (content : Str) (b : Blocks) : Stream :=
  let m := tag_content_handler isword .solution DEFAULT_SOLUTION_TAGS content b
  ⟨m.1, m.2.1⟩

def handle (isword : Char → Bool) (content : Str) (b : Blocks) : Stream :=
  let m := tag_content_handler isword .reasoning DEFAULT_REASONING_TAGS content b
  handleSolution isword m.1 m.2.1

def addedTo (b : Blocks) : Blocks :=
  if b.last.type = .reasoning ∧
      b.last.attributes.get? "type".toList = some "reasoning_content".toList then
    b.append (.text []) else b

def Block.add (block : Block) (value : Str) : Block :=
  { block with content := block.content ++ value }

lemma onDelta_eq (hv : value ≠ []) : onDelta isword detectReasoning value s = (handle isword (s.content ++ value)
      ((addedTo s.blocks).replaceLast ((addedTo s.blocks).last.add value)), false) := by
  unfold onDelta
  rw [if_neg hv]
  rfl

lemma onDeltas_cons (hv : value ≠ []) : onDeltas isword detectReasoning (value :: deltas) s =
    onDeltas isword detectReasoning deltas (handle isword (s.content ++ value)
      ((addedTo s.blocks).replaceLast ((addedTo s.blocks).last.add value))) := by
  rw [onDeltas, onDelta_eq isword hv]
  rfl

lemma onDeltas_append {deltas' : List Str} (hne : ∀ v ∈ deltas, v ≠ []) :
    onDeltas isword detectReasoning (deltas ++ deltas') s =
      onDeltas isword detectReasoning deltas' (onDeltas isword detectReasoning deltas s) := by
  induction deltas generalizing s with
  | nil => rfl
  | cons v deltas ih =>
    have hv := hne v mem_cons_self
    rw [cons_append, onDeltas_cons isword hv, onDeltas_cons isword hv]
    exact ih fun v hv => hne v (mem_cons_of_mem _ hv)

lemma addedTo_text (h : s.blocks.last.type = .text) : addedTo s.blocks = s.blocks := by
  unfold addedTo
  rw [h, if_neg (fun h => nomatch h.1)]

variable {init : List Block} {a : Str}

variable {content : Str} {b : Blocks} {tags tags' : List (Str × Str)}

lemma handleSolution_of_quiet (hlast : b.last.type = .text)
    (h : Quiet DEFAULT_SOLUTION_TAGS content) : handleSolution isword content b = ⟨content, b⟩ := by
  unfold handleSolution
  rw [tag_content_handler_of_quiet hlast h]

lemma handleSolution_of_reasoning (hlast : b.last.type = .reasoning) :
    handleSolution isword content b = ⟨content, b⟩ := by
  unfold handleSolution
  rw [tag_content_handler_of_type (by rw [hlast]; nofun) (by rw [hlast]; nofun)]

variable {l x : Str}

lemma Quiet.left (h : Quiet (tags ++ tags') l) : Quiet tags l := fun tag htag => h tag (mem_append_left _ htag)

lemma Quiet.right (h : Quiet (tags ++ tags') l) :
    Quiet tags' l := fun tag htag => h tag (mem_append_right _ htag)

lemma handle_of_quiet (hlast : b.last.type = .text)
    (h : Quiet searched content) : handle isword content b = ⟨content, b⟩ := by
  unfold handle
  rw [tag_content_handler_of_quiet hlast h.left]
  exact handleSolution_of_quiet isword hlast h.right

lemma onDeltas_of_quiet (hlast : s.blocks.last.type = .text) (hne : ∀ v ∈ deltas, v ≠ [])
    (h : Quiet searched (s.content ++ deltas.flatten)) :
    onDeltas isword detectReasoning deltas s = ⟨s.content ++ deltas.flatten,
      s.blocks.replaceLast (s.blocks.last.add deltas.flatten)⟩ := by
  induction deltas generalizing s with
  | nil =>
    simp [onDeltas, Blocks.replaceLast, Block.add]
  | cons v deltas ih =>
    have hv := hne v mem_cons_self
    rw [flatten_cons, ← append_assoc] at h
    let s' : Stream := ⟨s.content ++ v, s.blocks.replaceLast (s.blocks.last.add v)⟩
    have hquiet : handle isword (s.content ++ v) s'.blocks = s' :=
      handle_of_quiet isword hlast (h.mono (prefix_append _ _))
    have hrest := ih (s := s') hlast (fun v hv => hne v (mem_cons_of_mem _ hv)) h
    rw [onDeltas_cons isword hv, addedTo_text hlast, hquiet, hrest]
    simp [s', Blocks.replaceLast, Block.add]

lemma onDeltas_reasoning (init : List Block) (hne : ∀ v ∈ deltas, v ≠ [])
    (h : Free {endThink} (content ++ deltas.flatten)) :
    onDeltas isword detectReasoning deltas ⟨content, ⟨init, reasoningBlock a⟩⟩ =
      ⟨content ++ deltas.flatten, ⟨init, reasoningBlock (a ++ deltas.flatten)⟩⟩ := by
  induction deltas generalizing content a with
  | nil => simp [onDeltas]
  | cons v deltas ih =>
    have hv := hne v mem_cons_self
    rw [flatten_cons, ← append_assoc] at h
    have hfree : Free {endThink} (content ++ v) := h.part (prefix_append _ _).isInfix
    let b : Blocks := ⟨init, reasoningBlock (a ++ v)⟩
    have hnone : closeTag .reasoning (content ++ v) b = (content ++ v, b, false) :=
      closeTag_of_none (search_endThink_eq_none hfree)
    have hhandle : handle isword (content ++ v) b = ⟨content ++ v, b⟩ := by
      unfold handle
      rw [tag_content_handler_of_last rfl, hnone]
      exact handleSolution_of_reasoning isword rfl
    rw [onDeltas_cons isword hv]
    show onDeltas isword detectReasoning deltas (handle isword (content ++ v) b) = _
    rw [hhandle, ih (fun v hv => hne v (mem_cons_of_mem _ hv)) h]
    simp

def closedAt (init : List Block) (t r y : Str) : Blocks :=
  ⟨init ++ [.text t, reasoningBlock (strip isspace r)], .text (strip isspace ((stray_tag_pattern think).delete y))⟩

lemma handle_text (ht : Plain t) (hne : t ≠ []) (a : Str) :
    handle isword (t ++ (think ++ a)) ⟨init, .text x⟩ = handleSolution isword (t ++ (think ++ a))
        (closeTag .reasoning a ⟨init ++ [.text t], reasoningBlock a⟩).2.1 := by
  have hopen : openTag isword .reasoning (t ++ (think ++ a)) ⟨init, .text x⟩
      DEFAULT_REASONING_TAGS = (closeTag .reasoning a ⟨init ++ [.text t], reasoningBlock a⟩).2.1 :=
    openTag_section ht hne a
  unfold handle
  rw [tag_content_handler_of_text rfl, hopen]

lemma handle_open (ht : Plain t) (hne : t ≠ []) (ha : Free {endThink} a) :
    handle isword (t ++ (think ++ a)) ⟨init, .text x⟩ =
      ⟨t ++ (think ++ a), ⟨init ++ [.text t], reasoningBlock a⟩⟩ := by
  let b : Blocks := ⟨init ++ [.text t], reasoningBlock a⟩
  have hnone : closeTag .reasoning a b = (a, b, false) := closeTag_of_none (search_endThink_eq_none ha)
  rw [handle_text isword ht hne, hnone]
  exact handleSolution_of_reasoning isword rfl

lemma closeTag_closedAt (hr : Plain r)
    (hblank : ¬ Blank isspace r) (hcontent : ((literal endThink).search content).isSome) :
    closeTag .reasoning content ⟨init ++ [.text t], reasoningBlock (r ++ (endThink ++ y))⟩ =
      ((section_pattern think endThink).delete content, closedAt init t r y, true) := by
  rw [closeTag_section hr hblank rfl hcontent]
  rw [append_assoc]
  rfl

lemma handle_whole (ht : Plain t) (hne : t ≠ []) (hr : Plain r) (hblank : ¬ Blank isspace r)
    (hquiet : Quiet DEFAULT_SOLUTION_TAGS (t ++ (think ++ (r ++ (endThink ++ y))))) :
    handle isword (t ++ (think ++ (r ++ (endThink ++ y)))) ⟨init, .text x⟩ =
      ⟨t ++ (think ++ (r ++ (endThink ++ y))), closedAt init t r y⟩ := by
  have hsome : ((literal endThink).search (r ++ (endThink ++ y))).isSome := by
    rw [search_endThink hr.free_endThink]
    rfl
  rw [handle_text isword ht hne, closeTag_closedAt hr hblank hsome]
  exact handleSolution_of_quiet isword rfl hquiet

lemma handle_close (init : List Block) (ht : Plain t) (hr : Plain r) (hblank : ¬ Blank isspace r) :
    handle isword (t ++ (think ++ (r ++ (endThink ++ y))))
        ⟨init ++ [.text t], reasoningBlock (r ++ (endThink ++ y))⟩ =
      handleSolution isword (t ++ (section_pattern think endThink).delete y) (closedAt init t r y) := by
  have hsome : ((literal endThink).search (t ++ (think ++ (r ++ (endThink ++ y))))).isSome := by
    have h := isSome_search (t ++ (think ++ r))
      (Option.isSome_iff_exists.mpr ⟨_, literal_append endThink y⟩)
    simpa only [append_assoc] using h
  unfold handle
  rw [tag_content_handler_of_last rfl, closeTag_closedAt hr hblank hsome, section_delete ht hr]

lemma dropLast_append_tag {u L : Str} (hL : L ≠ []) : (u ++ L).dropLast = u ++ L.dropLast :=
  dropLast_append_of_ne_nil hL

lemma onDeltas_before {A B : List Str} {d : Str} (ht : Plain t) (hvs : ∀ v ∈ A ++ d :: B, v ≠ [])
    (hA : A.flatten <+: (t ++ think).dropLast) (hd : A.flatten ++ d = t ++ think ++ a) :
    onDeltas isword detectReasoning (A ++ d :: B) .start = onDeltas isword detectReasoning B
      (handle isword (t ++ (think ++ a)) ⟨[], .text (t ++ (think ++ a))⟩) := by
  rw [dropLast_append_tag (by decide)] at hA
  have hplain : Plain (t ++ think.dropLast) := ht.append (plain_of_subset (by decide)) (.inr rfl)
  have hrun := onDeltas_of_quiet isword (s := .start) rfl
    (fun v hv => hvs v (mem_append_left _ hv)) ((hplain.quiet searched_subset).mono hA)
  rw [onDeltas_append isword fun v hv => hvs v (mem_append_left _ hv), hrun,
    onDeltas_cons isword (hvs d (mem_append_right _ mem_cons_self)), ← append_assoc, ← hd]
  rfl

lemma onDeltas_inside {B E : List Str} {e : Str} (ht : Plain t) (hr : Plain r)
    (hblank : ¬ Blank isspace r) (hvs : ∀ v ∈ B ++ e :: E, v ≠ [])
    (hB : (a :: B).flatten <+: (r ++ endThink).dropLast) (he : (a :: B).flatten ++ e = r ++ endThink ++ y) :
    onDeltas isword detectReasoning (B ++ e :: E) ⟨t ++ (think ++ a), ⟨[.text t], reasoningBlock a⟩⟩ =
      onDeltas isword detectReasoning E (handleSolution isword
        (t ++ (section_pattern think endThink).delete y) (closedAt [] t r y)) := by
  rw [dropLast_append_tag (by decide)] at hB
  have hpre : t ++ (think ++ a) ++ B.flatten <+: t ++ (think ++ (r ++ endThink.dropLast)) := by
    rw [append_assoc]
    exact (prefix_append_right_inj t).mpr ((prefix_append_right_inj think).mpr hB)
  have hrun := onDeltas_reasoning isword (a := a) [.text t]
    (fun v hv => hvs v (mem_append_left _ hv))
    ((free_endThink_before ht hr).part hpre.isInfix)
  have hcontent : t ++ (think ++ a) ++ B.flatten ++ e = t ++ (think ++ (r ++ (endThink ++ y))) := by
    rw [append_assoc, append_assoc, append_assoc, ← append_assoc a,
      show a ++ B.flatten = (a :: B).flatten from rfl, he, append_assoc]
  have hblock : a ++ B.flatten ++ e = r ++ (endThink ++ y) := by
    rw [show a ++ B.flatten = (a :: B).flatten from rfl, he, append_assoc]
  rw [onDeltas_append isword fun v hv => hvs v (mem_append_left _ hv), hrun,
    onDeltas_cons isword (hvs e (mem_append_right _ mem_cons_self))]
  have hclose := handle_close isword (y := y) [] ht hr hblank
  exact congrArg (onDeltas isword detectReasoning E)
    ((congrArg₂ (fun c a => handle isword c ⟨[.text t], reasoningBlock a⟩) hcontent hblock).trans
      hclose)

def opened (t : Str) (deltas : List Str) : ℕ := Chunks.reach (t ++ think).length deltas

def closed (t r : Str) (deltas : List Str) : ℕ :=
  Chunks.reach (t ++ think ++ (r ++ endThink)).length deltas

lemma onDeltas_first_section {z : Str} (ht : Plain t) (hne : t ≠ []) (hr : Plain r)
    (hblank : ¬ Blank isspace r) (hvs : ∀ v ∈ deltas, v ≠ [])
    (hquiet : Quiet DEFAULT_SOLUTION_TAGS (t ++ (think ++ (r ++ (endThink ++ z)))))
    (hflat : deltas.flatten = t ++ (think ++ (r ++ (endThink ++ z)))) :
    ∃ y B, y ++ B.flatten = z ∧ (∀ v ∈ B, v ≠ []) ∧
      closed t r deltas = (t ++ think ++ (r ++ endThink)).length + y.length ∧
      ((opened t deltas = closed t r deltas ∧ onDeltas isword detectReasoning deltas .start =
          onDeltas isword detectReasoning B ⟨t ++ (think ++ (r ++ (endThink ++ y))), closedAt [] t r y⟩) ∨
        (opened t deltas < closed t r deltas ∧ onDeltas isword detectReasoning deltas .start =
          onDeltas isword detectReasoning B (handleSolution isword
            (t ++ (section_pattern think endThink).delete y) (closedAt [] t r y)))) := by
  have hpos : 0 < (t ++ think).length := by
    rw [length_append]
    exact Nat.lt_add_left t.length (by decide)
  have hflat1 : deltas.flatten = (t ++ think) ++ (r ++ endThink ++ z) := by
    simpa only [append_assoc] using hflat
  obtain ⟨A, d, B, rfl, hA, hd⟩ := Chunks.exists_split (n := (t ++ think).length) hpos
    (by rw [hflat1]; exact (prefix_append _ _).length_le)
  have hopened : opened t (A ++ d :: B) = A.flatten.length + d.length := Chunks.reach_of_split hA hd
  obtain ⟨a, had, haB⟩ := Chunks.exists_rest hflat1 hd
  have hlen : A.flatten.length + d.length = (t ++ think).length + a.length := by
    rw [← length_append, had, ← length_append]
  have hrun := onDeltas_before isword ht hvs (Chunks.prefix_before hflat1 hA) had
  have hvsB : ∀ v ∈ B, v ≠ [] := fun v hv => hvs v (by simp [hv])
  have hsection : (t ++ think ++ (r ++ endThink)).length =
      (t ++ think).length + (r ++ endThink).length := length_append
  by_cases hwhole : (r ++ endThink).length ≤ a.length
  · -- the end tag comes with the start tag
    have hpre : r ++ endThink <+: a := prefix_of_prefix_length_le
      ⟨z, rfl⟩ ⟨B.flatten, haB⟩ hwhole
    obtain ⟨y, rfl⟩ := hpre
    have hy : (r ++ endThink ++ y).length = (r ++ endThink).length + y.length := length_append
    have hclosed : closed t r (A ++ d :: B) = A.flatten.length + d.length :=
      Chunks.reach_of_split (by omega) (by omega)
    rw [append_assoc, append_cancel_left_eq] at haB
    have hpre : t ++ (think ++ (r ++ (endThink ++ y))) <+:
        t ++ (think ++ (r ++ (endThink ++ z))) := ⟨B.flatten, by simp only [append_assoc, haB]⟩
    refine ⟨y, B, haB, hvsB, by omega, .inl ⟨hopened.trans hclosed.symm, ?_⟩⟩
    rw [hrun, append_assoc r, handle_whole isword ht hne hr hblank (hquiet.mono hpre)]
  · -- the end tag comes with a later delta
    have hflat2 : (a :: B).flatten = (r ++ endThink) ++ z := haB
    have hclosed : closed t r (A ++ d :: B) =
        A.flatten.length + d.length + Chunks.reach ((r ++ endThink).length - a.length) B := by
      have hAd : (A ++ [d]).flatten.length = A.flatten.length + d.length := by
        rw [flatten_append, flatten_singleton, length_append]
      have hsplit : A ++ d :: B = (A ++ [d]) ++ B := by simp
      unfold closed
      rw [hsplit, Chunks.reach_append (by omega), hAd, hsection, hlen, Nat.add_sub_add_left]
    have hBlen : (r ++ endThink).length - a.length ≤ B.flatten.length := by
      have h := congrArg List.length haB
      rw [length_append, length_append] at h
      omega
    obtain ⟨B, e, E, rfl, hB, he⟩ := Chunks.exists_split (by omega) hBlen
    have hreach : Chunks.reach ((r ++ endThink).length - a.length) (B ++ e :: E) =
        B.flatten.length + e.length := Chunks.reach_of_split hB he
    have haB' : (a :: B).flatten.length = a.length + B.flatten.length := length_append
    have hpre : (a :: B).flatten <+: (r ++ endThink).dropLast :=
      Chunks.prefix_before (A := a :: B) (B := e :: E) hflat2 (by omega)
    obtain ⟨y, hy, hyE⟩ := Chunks.exists_rest (A := a :: B) hflat2 (by omega)
    have hylen : (a :: B).flatten.length + e.length = (r ++ endThink).length + y.length := by
      rw [← length_append, hy, ← length_append]
    have hapre : a <+: r ++ endThink.dropLast := by
      rw [← dropLast_append_tag (by decide)]
      exact (prefix_append a B.flatten |>.trans (by simp)).trans hpre
    have ha : Free {endThink} a := (hr.append plain_endThink_dropLast (.inr rfl)).free_endThink.part hapre.isInfix
    refine ⟨y, E, hyE, fun v hv => hvsB v (by simp [hv]), by omega, .inr ⟨by omega, ?_⟩⟩
    rw [hrun, handle_open isword ht hne ha]
    exact onDeltas_inside isword ht hr hblank hvsB hpre hy

lemma onDeltas_again (init : List Block) (ht : Plain t) (hne : t ≠ []) (hr : Plain r)
    (hblank : ¬ Blank isspace r) (hvs : ∀ v ∈ deltas, v ≠ []) (hquiet : Quiet DEFAULT_SOLUTION_TAGS
      (t ++ (think ++ (r ++ (endThink ++ (y ++ deltas.flatten)))))) :
    ∃ init', init'.length = init.length + 2 * deltas.length ∧ onDeltas isword detectReasoning deltas
          ⟨t ++ (think ++ (r ++ (endThink ++ y))), closedAt init t r y⟩ =
        ⟨t ++ (think ++ (r ++ (endThink ++ (y ++ deltas.flatten)))), closedAt init' t r (y ++ deltas.flatten)⟩ := by
  induction deltas generalizing init y with
  | nil => exact ⟨init, rfl, by simp [onDeltas]⟩
  | cons v deltas ih =>
    rw [flatten_cons, ← append_assoc y] at hquiet ⊢
    have hpre : t ++ (think ++ (r ++ (endThink ++ (y ++ v)))) <+:
        t ++ (think ++ (r ++ (endThink ++ (y ++ v ++ deltas.flatten)))) :=
      ⟨deltas.flatten, by simp only [append_assoc]⟩
    let init' := init ++ [.text t, reasoningBlock (strip isspace r)]
    obtain ⟨init'', hlen, hrun⟩ := ih (y := y ++ v) init'
      (fun v hv => hvs v (mem_cons_of_mem _ hv)) hquiet
    refine ⟨init'', ?_, ?_⟩
    · rw [hlen, length_append]
      simp only [length_cons, length_nil]
      omega
    · have hcontent : t ++ (think ++ (r ++ (endThink ++ y))) ++ v =
          t ++ (think ++ (r ++ (endThink ++ (y ++ v)))) := by simp only [append_assoc]
      rw [onDeltas_cons isword (hvs v mem_cons_self), hcontent]
      exact (congrArg _ (handle_whole isword ht hne hr hblank (hquiet.mono hpre))).trans hrun

end CustomAi.OpenWebUI.TagContent
