import CustomAi.Lib.Dict
import Mathlib.Data.Char
import Mathlib.Data.List.Lex

/-!
# The metadata filter

`meta_filter` selects documents by conditions on their metadata. It folds the conditions whose keys
are known into one set, in which the empty set stands for the beginning as well as for no document,
and it converts the comparison value of a condition in place while it goes over the values.
-/

namespace CustomAi.Ragflow.MetaFilter

open List

inductive Operator
  | contains
  | notContains
  | isIn
  | notIn
  | startWith
  | endWith
  | empty
  | notEmpty
  | eq
  | ne
  | gt
  | lt
  | ge
  | le
deriving DecidableEq

/-- What the comparisons use of Python; `none` where Python raises an exception. -/
structure Python (P : Type) where
  literalEval : P → Option P
  /-- `lower()` of a text, any other value itself. -/
  lower : P → P
  /-- The items of a list, `none` for any other value. -/
  items : P → Option (List P)
  isIn : P → P → Option Bool
  /-- `str(x).lower()` -/
  lowerText : P → List Char
  truthy : P → Bool
  eq : P → P → Option Bool
  lt : P → P → Option Bool
  le : P → P → Option Bool

inductive Logic
  | and
  | or
deriving DecidableEq

structure Filter (K P : Type) where
  op : Operator
  key : K
  value : P

section

variable {P : Type} (py : Python P)

def Operator.evaluates (op : Operator) : Bool :=
  op ∈ [Operator.eq, .ne, .gt, .lt, .ge, .le]

/-- The `try` block: input and value are evaluated, up to the first exception. -/
def evaluate (input value : P) : P × P :=
  match py.items input with
  | some [] => (input, value)
  | some (first :: _) =>
    match py.literalEval first with
    | none => (first, value)
    | some input' => (input', (py.literalEval value).getD value)
  | none =>
    match py.literalEval input with
    | none => (input, value)
    | some input' => (input', (py.literalEval value).getD value)

def convert (op : Operator) (input value : P) : P × P :=
  let (input, value) := if op.evaluates then evaluate py input value else (input, value)
  (py.lower input, py.lower value)

/-- `all(test(i) for i in items)`, which ends at the first failure or exception. -/
def allItems (test : P → Option Bool) : List P → Option Bool
  | [] => some true
  | i :: rest =>
    match test i with
    | some true => allItems test rest
    | result => result

def notIn (input value : P) : Option Bool := (py.isIn input value).map not

def inputText (input : P) : List Char :=
  match py.items input with
  | some items => items.flatMap py.lowerText
  | none => py.lowerText input

/-- `matched` stays `False` when the comparison raises an exception. -/
def matched (op : Operator) (input value : P) : Bool :=
  let each := fun test : P → Option Bool =>
    match py.items input with
    | some items => allItems test items
    | none => test input
  (match op with
    | .contains | .isIn => each fun i => py.isIn i value
    | .notContains | .notIn => each fun i => notIn py i value
    | .startWith => some ((py.lowerText value).isPrefixOf (inputText py input))
    | .endWith => some ((py.lowerText value).isSuffixOf (inputText py input))
    | .empty => some (!py.truthy input)
    | .notEmpty => some (py.truthy input)
    | .eq => py.eq input value
    | .ne => (py.eq input value).map not
    | .gt => py.lt value input
    | .lt => py.lt input value
    | .ge => py.le value input
    | .le => py.le input value).getD false

variable {D : Type}

/-- The loop over the values of a key. The value of the condition is converted on the way. -/
def filterOut (op : Operator) : P → List (P × List D) → List D
  | _, [] => []
  | value, (input, docids) :: rest =>
    let (input', value') := convert py op input value
    (if matched py op input' value' then docids else []) ++ filterOut op value' rest

variable {K : Type}

/-- `set(ids)` of a condition. -/
def idsOf [DecidableEq D] (e : Filter K P × Dict P (List D)) : Finset D :=
  (filterOut py e.1.op e.1.value e.2.entries).toFinset

def metaLoop [DecidableEq D] (logic : Logic) :
    Finset D → List (Filter K P × Dict P (List D)) → Finset D
  | docIds, [] => docIds
  | docIds, e :: rest =>
    let ids := idsOf py e
    let docIds :=
      if docIds = ∅ then ids else if logic = .and then docIds ∩ ids else docIds ∪ ids
    if docIds = ∅ then ∅ else metaLoop logic docIds rest

section

variable {py} [DecidableEq D]

lemma mem_metaLoop_and {acc : Finset D} (hacc : acc ≠ ∅) (l : List (Filter K P × Dict P (List D)))
    (d : D) : d ∈ metaLoop py .and acc l ↔ d ∈ acc ∧ ∀ e ∈ l, d ∈ idsOf py e := by
  induction l generalizing acc with
  | nil => simp only [metaLoop, not_mem_nil, false_implies, implies_true, and_true]
  | cons e rest ih =>
    have hstep : d ∈ acc ∧ (∀ x ∈ e :: rest, d ∈ idsOf py x) ↔
        d ∈ acc ∩ idsOf py e ∧ ∀ x ∈ rest, d ∈ idsOf py x := by
      rw [forall_mem_cons, Finset.mem_inter, and_assoc]
    simp only [metaLoop, if_neg hacc, if_true]
    rw [hstep]
    by_cases hempty : acc ∩ idsOf py e = ∅
    · rw [hempty]
      exact iff_of_false (Finset.notMem_empty d) fun h => Finset.notMem_empty d h.1
    · rw [if_neg hempty]
      exact ih hempty

lemma mem_metaLoop_or {acc : Finset D} (hacc : acc ≠ ∅) (l : List (Filter K P × Dict P (List D)))
    (d : D) : d ∈ metaLoop py .or acc l ↔ d ∈ acc ∨ ∃ e ∈ l, d ∈ idsOf py e := by
  induction l generalizing acc with
  | nil => simp only [metaLoop, not_mem_nil, false_and, exists_false, or_false]
  | cons e rest ih =>
    have hne : acc ∪ idsOf py e ≠ ∅ := fun h => hacc (Finset.union_eq_empty.mp h).1
    simp only [metaLoop, if_neg hacc, reduceCtorEq, if_false, hne]
    rw [ih hne, Finset.mem_union, exists_mem_cons_iff, or_assoc]

lemma metaLoop_start (logic : Logic) (l : List (Filter K P × Dict P (List D))) : metaLoop py logic ∅ l =
      match l with
      | [] => ∅
      | e :: rest => if idsOf py e = ∅ then ∅ else metaLoop py logic (idsOf py e) rest := by
  cases l with
  | nil => rfl
  | cons e rest => simp only [metaLoop, if_true]

end

variable [DecidableEq K]

/-- The conditions in the order in which they are evaluated, each with the values of its key. -/
def evaluated (metas : Dict K (Dict P (List D))) (filters : List (Filter K P)) :
    List (Filter K P × Dict P (List D)) :=
  metas.entries.flatMap fun e => (filters.filter fun f => e.1 = f.key).map fun f => (f, e.2)

def metaFilter [DecidableEq D] (metas : Dict K (Dict P (List D))) (filters : List (Filter K P))
    (logic : Logic) : Finset D :=
  metaLoop py logic ∅ (evaluated metas filters)

/-! ## What the filter is for -/

/-- The document has a value under the key that satisfies the operator, compared on its own. -/
def Satisfies (metas : Dict K (Dict P (List D))) (f : Filter K P) (d : D) : Prop :=
  ∃ v2docs, metas.get? f.key = some v2docs ∧ ∃ input docids, (input, docids) ∈ v2docs.entries ∧
    d ∈ docids ∧ matched py f.op (convert py f.op input f.value).1 (convert py f.op input f.value).2 = true

/-- The Boolean combination of all conditions. -/
def Selected (metas : Dict K (Dict P (List D))) (filters : List (Filter K P)) (logic : Logic)
    (d : D) : Prop :=
  match logic with
  | .and => filters ≠ [] ∧ ∀ f ∈ filters, Satisfies py metas f d
  | .or => ∃ f ∈ filters, Satisfies py metas f d

/-- Each value is compared with the same outcome as with the value the condition was given. -/
def CarriesNothing (op : Operator) (given : P) : P → List (P × List D) → Prop
  | _, [] => True
  | value, (input, _) :: rest =>
    matched py op (convert py op input value).1 (convert py op input value).2 =
      matched py op (convert py op input given).1 (convert py op input given).2 ∧
    CarriesNothing op given (convert py op input value).2 rest

/-- No condition drops out that matters: unknown keys in a conjunction, an empty first condition in
a disjunction. -/
def Uncut (metas : Dict K (Dict P (List D))) (filters : List (Filter K P)) (logic : Logic) : Prop :=
  match logic with
  | .and => (∀ f ∈ filters, metas.contains f.key = true) ∨
      ¬∃ d, filters.any (fun f => metas.contains f.key) = true ∧
        ∀ f ∈ filters, metas.contains f.key = true → Satisfies py metas f d
  | .or => (∀ e ∈ (evaluated metas filters).head?, ∃ d, Satisfies py metas e.1 d) ∨
      ¬∃ d, ∃ f ∈ filters, Satisfies py metas f d

section

variable {py} {metas : Dict K (Dict P (List D))} {filters : List (Filter K P)}

lemma mem_filterOut {op : Operator} {given value : P} {l : List (P × List D)}
    (h : CarriesNothing py op given value l) (d : D) : d ∈ filterOut py op value l ↔
      ∃ input docids, (input, docids) ∈ l ∧ d ∈ docids ∧
        matched py op (convert py op input given).1 (convert py op input given).2 = true := by
  induction l generalizing value with
  | nil =>
    simp only [filterOut, not_mem_nil, false_and, exists_false]
  | cons e rest ih =>
    obtain ⟨input, docids⟩ := e
    obtain ⟨hsame, hrest⟩ := h
    rw [filterOut, mem_append, ih hrest, hsame]
    constructor
    · rintro (hd | ⟨i, ds, hmem, hd, hm⟩)
      · by_cases hm : matched py op (convert py op input given).1 (convert py op input given).2 = true
        · rw [if_pos hm] at hd
          exact ⟨input, docids, mem_cons_self .., hd, hm⟩
        · rw [if_neg hm] at hd
          exact absurd hd not_mem_nil
      · exact ⟨i, ds, mem_cons_of_mem _ hmem, hd, hm⟩
    · rintro ⟨i, ds, hmem, hd, hm⟩
      rcases mem_cons.mp hmem with heq | hmem
      · obtain ⟨rfl, rfl⟩ := Prod.mk.inj heq
        rw [if_pos hm]
        exact Or.inl hd
      · exact Or.inr ⟨i, ds, hmem, hd, hm⟩

variable {f : Filter K P} {e : Filter K P × Dict P (List D)} (d : D)

lemma mem_evaluated {v2docs : Dict P (List D)} :
    (f, v2docs) ∈ evaluated metas filters ↔ f ∈ filters ∧ metas.get? f.key = some v2docs := by
  simp only [evaluated, mem_flatMap, mem_map, mem_filter, Prod.mk.injEq, Prod.exists]
  constructor
  · rintro ⟨key, docs, hentry, g, ⟨hg, hkey⟩, rfl, rfl⟩
    rw [decide_eq_true_eq] at hkey
    exact ⟨hg, (metas.mem_entries_iff _ _).mp (hkey ▸ hentry)⟩
  · rintro ⟨hf, hget⟩
    exact ⟨f.key, v2docs, (metas.mem_entries_iff _ _).mpr hget, f, ⟨hf, decide_eq_true rfl⟩, rfl, rfl⟩

lemma exists_evaluated (hf : f ∈ filters) (hknown : metas.contains f.key = true) :
    ∃ v2docs, (f, v2docs) ∈ evaluated metas filters := by
  obtain ⟨v2docs, hget⟩ := Option.isSome_iff_exists.mp hknown
  exact ⟨v2docs, mem_evaluated.mpr ⟨hf, hget⟩⟩

lemma contains_of_mem (he : e ∈ evaluated metas filters) : metas.contains e.1.key = true := by
  rw [Dict.contains, (mem_evaluated.mp he).2]
  rfl

lemma Satisfies.contains {d : D} (h : Satisfies py metas f d) : metas.contains f.key = true := by
  obtain ⟨v2docs, hget, -⟩ := h
  rw [Dict.contains, hget]
  rfl

variable [DecidableEq D]

lemma mem_metaFilter_and : d ∈ metaFilter py metas filters .and ↔
    evaluated metas filters ≠ [] ∧ ∀ e ∈ evaluated metas filters, d ∈ idsOf py e := by
  rw [metaFilter, metaLoop_start]
  cases evaluated metas filters with
  | nil => simp
  | cons e rest =>
    simp only [ne_eq, cons_ne_nil, not_false_eq_true, true_and, forall_mem_cons]
    by_cases hempty : idsOf py e = ∅
    · rw [hempty]
      exact iff_of_false (Finset.notMem_empty d) fun h => Finset.notMem_empty d h.1
    · rw [if_neg hempty, mem_metaLoop_and hempty]

lemma mem_metaFilter_or : d ∈ metaFilter py metas filters .or ↔
    (∀ e ∈ (evaluated metas filters).head?, idsOf py e ≠ ∅) ∧ ∃ e ∈ evaluated metas filters, d ∈ idsOf py e := by
  rw [metaFilter, metaLoop_start]
  cases evaluated metas filters with
  | nil => simp
  | cons e rest =>
    simp only [List.head?_cons, Option.mem_def, Option.some.injEq, forall_eq', exists_mem_cons_iff]
    by_cases hempty : idsOf py e = ∅
    · rw [if_pos hempty]
      exact iff_of_false (Finset.notMem_empty d) fun h => h.1 hempty
    · rw [if_neg hempty, mem_metaLoop_or hempty]
      exact ⟨fun h => ⟨hempty, h⟩, fun h => h.2⟩

variable (py) in
omit [DecidableEq D] in
/-- The loop goes on after these conditions: some document satisfies all of them, or the first. -/
def GoesOn (metas : Dict K (Dict P (List D))) (logic : Logic) (es : List (Filter K P × Dict P (List D))) : Prop :=
  match logic with
  | .and => ∃ d, ∀ e ∈ es, Satisfies py metas e.1 d
  | .or => ∀ e ∈ es.head?, ∃ d, Satisfies py metas e.1 d

variable (py) in
/-- No condition that the loop comes to depends on the conversions of its value. -/
def CarryHarmless (metas : Dict K (Dict P (List D))) (filters : List (Filter K P)) (logic : Logic) : Prop :=
  ∀ pre e post, evaluated metas filters = pre ++ e :: post → (pre ≠ [] → GoesOn py metas logic pre) →
    CarriesNothing py e.1.op e.1.value e.1.value e.2.entries

lemma mem_idsOf (he : e ∈ evaluated metas filters)
    (h : CarriesNothing py e.1.op e.1.value e.1.value e.2.entries) (d : D) :
    d ∈ idsOf py e ↔ Satisfies py metas e.1 d := by
  obtain ⟨-, hget⟩ := mem_evaluated.mp he
  rw [idsOf, mem_toFinset, mem_filterOut h]
  constructor
  · exact fun hex => ⟨e.2, hget, hex⟩
  · rintro ⟨v2docs, hget', hex⟩
    obtain rfl := Option.some.inj (hget.symm.trans hget')
    exact hex

/-- The loop comes to every condition for a document that satisfies those before. -/
lemma forall_mem_idsOf_iff (h : CarryHarmless py metas filters .and) (d : D) :
    (∀ e ∈ evaluated metas filters, d ∈ idsOf py e) ↔ ∀ e ∈ evaluated metas filters, Satisfies py metas e.1 d := by
  suffices hpre : ∀ pre post, evaluated metas filters = pre ++ post →
      ((∀ e ∈ pre, d ∈ idsOf py e) ↔ ∀ e ∈ pre, Satisfies py metas e.1 d) from hpre _ [] (append_nil _).symm
  intro pre
  induction pre using reverseRecOn with
  | nil => simp
  | append_singleton pre e ih =>
    intro post heq
    rw [append_assoc, singleton_append] at heq
    rw [forall_mem_append, forall_mem_append, forall_mem_singleton, forall_mem_singleton, ih _ heq]
    have he : e ∈ evaluated metas filters := by simp [heq]
    refine and_congr_right fun hsat => ?_
    exact mem_idsOf he (h pre e post heq fun _ => ⟨d, hsat⟩) d

lemma mem_and_iff (h : CarryHarmless py metas filters .and) (d : D) : d ∈ metaFilter py metas filters .and ↔
      filters.any (fun f => metas.contains f.key) = true ∧
        ∀ f ∈ filters, metas.contains f.key = true → Satisfies py metas f d := by
  rw [mem_metaFilter_and, forall_mem_idsOf_iff h, any_eq_true]
  constructor
  · rintro ⟨hne, hall⟩
    obtain ⟨e, he⟩ := exists_mem_of_ne_nil _ hne
    refine ⟨⟨e.1, (mem_evaluated.mp he).1, contains_of_mem he⟩, fun f hf hknown => ?_⟩
    obtain ⟨v2docs, hmem⟩ := exists_evaluated hf hknown
    exact hall _ hmem
  · rintro ⟨⟨f, hf, hknown⟩, hall⟩
    obtain ⟨v2docs, hmem⟩ := exists_evaluated hf hknown
    exact ⟨ne_nil_of_mem hmem, fun e he => hall e.1 (mem_evaluated.mp he).1 (contains_of_mem he)⟩

lemma mem_or_iff (h : CarryHarmless py metas filters .or) (d : D) : d ∈ metaFilter py metas filters .or ↔
      (∀ e ∈ (evaluated metas filters).head?, ∃ x, Satisfies py metas e.1 x) ∧
        ∃ f ∈ filters, Satisfies py metas f d := by
  have hfirst : (∀ e ∈ (evaluated metas filters).head?, idsOf py e ≠ ∅) ↔
      ∀ e ∈ (evaluated metas filters).head?, ∃ x, Satisfies py metas e.1 x := by
    refine forall₂_congr fun e he => ?_
    obtain ⟨post, heq⟩ := head?_eq_some_iff.mp he
    rw [← Finset.nonempty_iff_ne_empty]
    exact exists_congr fun x => mem_idsOf (mem_of_mem_head? he) (h [] e post heq fun hne => absurd rfl hne) x
  rw [mem_metaFilter_or, hfirst]
  refine and_congr_right fun hhead => ?_
  have hids : ∀ e ∈ evaluated metas filters, (d ∈ idsOf py e ↔ Satisfies py metas e.1 d) := by
    intro e he
    obtain ⟨pre, post, heq⟩ := append_of_mem he
    refine mem_idsOf he (h pre e post heq fun hne => ?_) d
    rwa [heq, head?_append_of_ne_nil _ hne] at hhead
  constructor
  · rintro ⟨e, he, hd⟩
    exact ⟨e.1, (mem_evaluated.mp he).1, (hids e he).mp hd⟩
  · rintro ⟨f, hf, hsat⟩
    obtain ⟨v2docs, hmem⟩ := exists_evaluated hf hsat.contains
    exact ⟨(f, v2docs), hmem, (hids _ hmem).mpr hsat⟩

end

/-- Where no comparison that is made depends on the values before, the filter is the Boolean
combination of its conditions exactly when none drops out. -/
theorem metaFilter_eq_iff [DecidableEq D] {metas : Dict K (Dict P (List D))}
    {filters : List (Filter K P)} {logic : Logic} (h : CarryHarmless py metas filters logic) :
    (∀ d, d ∈ metaFilter py metas filters logic ↔ Selected py metas filters logic d) ↔
      Uncut py metas filters logic := by
  cases logic with
  | and =>
    simp only [mem_and_iff h, Selected, Uncut]
    constructor
    · intro hiff
      by_cases hknown : ∀ f ∈ filters, metas.contains f.key = true
      · exact Or.inl hknown
      · push Not at hknown
        obtain ⟨f, hf, hunknown⟩ := hknown
        refine Or.inr ?_
        rintro ⟨d, hd⟩
        refine hunknown ?_
        exact (((hiff d).mp hd).2 f hf).contains
    · rintro (hknown | hnone) d
      · refine and_congr ?_ (forall₂_congr fun f hf => ?_)
        · rw [any_eq_true]
          constructor
          · rintro ⟨f, hf, -⟩
            exact ne_nil_of_mem hf
          · intro hne
            obtain ⟨f, hf⟩ := exists_mem_of_ne_nil _ hne
            exact ⟨f, hf, hknown f hf⟩
        · exact ⟨fun hs => hs (hknown f hf), fun hs _ => hs⟩
      · refine iff_of_false (fun hd => hnone ⟨d, hd⟩) ?_
        rintro ⟨hne, hall⟩
        refine hnone ⟨d, ?_, ?_⟩
        · obtain ⟨f, hf⟩ := exists_mem_of_ne_nil _ hne
          exact any_eq_true.mpr ⟨f, hf, (hall f hf).contains⟩
        · exact fun f hf _ => hall f hf
  | or =>
    simp only [mem_or_iff h, Selected, Uncut]
    constructor
    · intro hiff
      by_cases hsome : ∃ d, ∃ f ∈ filters, Satisfies py metas f d
      · obtain ⟨d, hd⟩ := hsome
        exact Or.inl ((hiff d).mpr hd).1
      · exact Or.inr hsome
    · rintro (hhead | hnone) d
      · exact ⟨fun hd => hd.2, fun hd => ⟨hhead, hd⟩⟩
      · exact iff_of_false (fun hd => hnone ⟨d, hd.2⟩) fun hd => hnone ⟨d, hd⟩

end

inductive Literal
  | text (text : List Char)
  | int (int : ℕ)
deriving DecidableEq

def literals : Python Literal where
  literalEval
    | .text t =>
      if t ≠ [] ∧ t.all Char.isDigit then some (.int (t.foldl (fun n c => 10 * n + c.toNat - 48) 0))
      else none
    | .int _ => none
  lower
    | .text t => .text (t.map Char.toLower)
    | .int n => .int n
  items _ := none
  isIn
    | .text s, .text t => some (t.tails.any s.isPrefixOf)
    | _, _ => none
  lowerText
    | .text t => t.map Char.toLower
    | .int n => (toString n).toList
  truthy
    | .text t => !t.isEmpty
    | .int n => n ≠ 0
  eq x y := some (x = y)
  lt
    | .text s, .text t => some (s < t)
    | .int m, .int n => some (m < n)
    | _, _ => none
  le
    | .text s, .text t => some (s ≤ t)
    | .int m, .int n => some (m ≤ n)
    | _, _ => none

def sizes : Dict String (Dict Literal (List ℕ)) :=
  ⟨[("size", ⟨[(.text ['2'], [0]), (.text ['a', 'b', 'c'], [1])], by decide⟩)], by decide⟩

def size (op : Operator) (value : List Char) : Filter String Literal := ⟨op, "size", .text value⟩

def letters : Dict String (Dict Literal (List ℕ)) :=
  ⟨("a", ⟨[(.text ['x'], [0])], by decide⟩) :: sizes.entries, by decide⟩

def isY : Filter String Literal := ⟨.eq, "a", .text ['y']⟩

/-- The comparisons with the size are not made. -/
theorem metaFilter_eq_iff_stopped : metaFilter literals letters [isY, size .gt ['1']] .and = ∅ ∧
    ∀ d, d ∈ metaFilter literals letters [isY, size .gt ['1']] .and ↔
      Selected literals letters [isY, size .gt ['1']] .and d := by
  have hnone : ¬∃ d, Satisfies literals letters isY d := by
    rintro ⟨d, v2docs, hget, input, docids, hmem, -, hmatched⟩
    obtain rfl := Option.some.inj hget
    obtain ⟨rfl, rfl⟩ := Prod.mk.inj (mem_singleton.mp hmem)
    exact absurd hmatched (by decide)
  have hcarry : CarryHarmless literals letters [isY, size .gt ['1']] .and := by
    intro pre e post heq hgoes
    cases pre with
    | nil =>
      obtain ⟨rfl, -⟩ := cons.inj heq
      exact ⟨rfl, trivial⟩
    | cons e' pre =>
      obtain ⟨rfl, -⟩ := cons.inj heq
      obtain ⟨d, hd⟩ := hgoes (by simp)
      exact absurd ⟨d, hd _ (mem_cons_self ..)⟩ hnone
  exact ⟨by decide, (metaFilter_eq_iff literals hcarry).mpr (.inl (by decide))⟩

/-- An empty first condition, an unknown key, and a value that was converted for the value before. -/
theorem filter_is_not_combination :
    (metaFilter literals sizes [size .eq ['7'], size .eq ['2']] .or = ∅ ∧
      Selected literals sizes [size .eq ['7'], size .eq ['2']] .or 0) ∧
    (0 ∈ metaFilter literals sizes [size .eq ['2'], ⟨.eq, "colour", .text ['2']⟩] .and ∧
      ¬Selected literals sizes [size .eq ['2'], ⟨.eq, "colour", .text ['2']⟩] .and 0) ∧
    (1 ∉ metaFilter literals sizes [size .gt ['1']] .and ∧
      Selected literals sizes [size .gt ['1']] .and 1) := by
  refine ⟨⟨by decide, ?_⟩, ⟨by decide, ?_⟩, ⟨by decide, ?_⟩⟩
  · exact ⟨_, mem_cons_of_mem _ (mem_cons_self ..), _, rfl, _, _, mem_cons_self .., mem_cons_self .., by decide⟩
  · rintro ⟨-, hall⟩
    have hcolour := (hall _ (mem_cons_of_mem _ (mem_cons_self ..))).contains
    exact absurd hcolour (by decide)
  · refine ⟨cons_ne_nil _ _, fun f hf => ?_⟩
    obtain rfl := mem_singleton.mp hf
    exact ⟨_, rfl, _, _, mem_cons_of_mem _ (mem_cons_self ..), mem_cons_self .., by decide⟩

end CustomAi.Ragflow.MetaFilter
