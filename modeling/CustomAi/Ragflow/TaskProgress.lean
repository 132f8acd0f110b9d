import CustomAi.Lib.Run
import Mathlib.Data.Int.Order.Basic
import Mathlib.Data.List.Nodup
import Mathlib.Order.Lattice

/-!
# Progress reports of a task

`TaskService.update_progress` called by any number of workers for one task: what each database
statement of a call does to the row, and every interleaving of the statements of several calls.
-/

namespace CustomAi.Ragflow

open List Function

variable {ι P : Type}

/-- The loop of `trim_header_by_lines` from position `i` on. -/
def trimLoop (max_length : ℕ) : List Char → Option (List Char)
  | [] => none
  | c :: rest =>
    if c = '\n' ∧ rest.length + 1 ≤ max_length then some rest else trimLoop max_length rest

def trim_header_by_lines (text : List Char) (max_length : ℕ) : List Char :=
  if text.length ≤ max_length then text else (trimLoop max_length text).getD text

/-- Nothing is cut off: the text is short, or no line break is among its last characters. -/
def Untrimmed (text : List Char) (max_length : ℕ) : Prop :=
  text.length ≤ max_length ∨ '\n' ∉ text.drop (text.length - max_length)

instance (text : List Char) (max_length : ℕ) : Decidable (Untrimmed text max_length) :=
  inferInstanceAs (Decidable (_ ∨ _))

lemma trimLoop_length {max_length : ℕ} {text rest : List Char}
    (h : trimLoop max_length text = some rest) : rest.length < text.length := by
  induction text with
  | nil => cases h
  | cons c tail ih =>
    rw [trimLoop] at h
    split at h
    · cases h
      exact Nat.lt_succ_self _
    · have hlt := ih h
      exact Nat.lt_succ_of_lt hlt

lemma trimLoop_eq_none_iff (max_length : ℕ) (text : List Char) :
    trimLoop max_length text = none ↔ '\n' ∉ text.drop (text.length - max_length) := by
  induction text with
  | nil => simp [trimLoop]
  | cons c rest ih =>
    rw [trimLoop]
    by_cases hlen : rest.length + 1 ≤ max_length
    · have hdrop : (c :: rest).length - max_length = 0 := by
        simp only [length_cons]
        omega
      have hrest : rest.length - max_length = 0 := by omega
      rw [hrest] at ih
      rw [hdrop, drop_zero, mem_cons, not_or]
      by_cases hc : c = '\n'
      · simp [hc, hlen]
      · rw [if_neg (fun h => hc h.1), ih]
        exact ⟨fun h => ⟨fun e => hc e.symm, h⟩, fun h => h.2⟩
    · have hdrop : (c :: rest).length - max_length = (rest.length - max_length) + 1 := by
        simp only [length_cons]
        omega
      rw [if_neg (fun h => hlen h.2), ih, hdrop, drop_succ_cons]

theorem trim_header_by_lines_eq_self_iff (text : List Char) (max_length : ℕ) :
    trim_header_by_lines text max_length = text ↔ Untrimmed text max_length := by
  unfold trim_header_by_lines Untrimmed
  by_cases hlen : text.length ≤ max_length
  · simp [hlen]
  · rw [if_neg hlen, ← trimLoop_eq_none_iff]
    cases hloop : trimLoop max_length text with
    | none => simp
    | some rest =>
      have hlt := trimLoop_length hloop
      simp only [Option.getD_some, reduceCtorEq, hlen, or_self, iff_false]
      intro h
      rw [h] at hlt
      exact Nat.lt_irrefl _ hlt

/-- The columns of a task that `update_progress` reads and writes; the text may be NULL. -/
structure Task (P : Type) where
  progress_msg : Option (List Char)
  progress : P
deriving DecidableEq

/-- The `info` of a call: its message may be None or empty, its progress may be absent. -/
structure Info (P : Type) where
  progress_msg : Option (List Char)
  progress : Option P
deriving DecidableEq

def Info.message (info : Info P) : Option (List Char) :=
  info.progress_msg.filter (fun msg => !msg.isEmpty)

/-- How far a call has come; `task` is the row as the call has read it. -/
inductive Phase (P : Type)
  | waiting
  | fetched (task : Task P)
  | locked (task : Task P)
  | appended
  | reported
  | finished
  | raised
deriving DecidableEq

structure State (ι P : Type) where
  row : Task P
  holder : Option ι
  phase : ι → Phase P

inductive Stalled
  | lockHeld
  | ended
deriving DecidableEq

/-- The guarded `UPDATE` of the progress column. -/
def updateProgress [LinearOrder P] (failed : P) (progress : Option P) (row : Task P) : Task P :=
  match progress with
  | none => row
  | some prog =>
    if row.progress ≠ failed ∧ (prog = failed ∨ row.progress < prog) then
      { row with progress := prog }
    else row

/-- The next database statement of call `i`. The row is read before the lock is taken. -/
def update_progress [DecidableEq ι] [LinearOrder P] (calls : ι → Info P) (failed : P)
    (s : State ι P) (i : ι) : Except Stalled (State ι P) :=
  match s.phase i with
  | .waiting => .ok { s with phase := Function.update s.phase i (.fetched s.row) }
  | .fetched task =>
    if s.holder.isSome then .error .lockHeld
    else .ok { s with holder := some i, phase := Function.update s.phase i (.locked task) }
  | .locked task =>
    match (calls i).message with
    | none => .ok { s with phase := Function.update s.phase i .appended }
    | some msg =>
      match task.progress_msg with
      -- None + "\n" raises, and leaving the block releases the lock
      | none => .ok { s with holder := none, phase := Function.update s.phase i .raised }
      | some text => .ok
          { s with
            row := { s.row with
              progress_msg := some (trim_header_by_lines (text ++ '\n' :: msg) 3000) }
            phase := Function.update s.phase i .appended }
  | .appended => .ok
      { s with
        row := updateProgress failed (calls i).progress s.row
        phase := Function.update s.phase i .reported }
  | .reported => .ok { s with holder := none, phase := Function.update s.phase i .finished }
  | .finished => .error .ended
  | .raised => .error .ended

def State.initial (row : Task P) : State ι P := ⟨row, none, fun _ => .waiting⟩

/-- A call that appends its message appends it to the text that is stored, and nothing of the
result is cut off. -/
def UpToDate (calls : ι → Info P) (s : State ι P) (i : ι) : Prop :=
  ∀ task msg, s.phase i = .locked task → (calls i).message = some msg →
    ∃ text, task.progress_msg = some text ∧ s.row.progress_msg = some text ∧ Untrimmed (text ++ '\n' :: msg) 3000

instance (calls : ι → Info P) (s : State ι P) (i : ι) : Decidable (UpToDate calls s i) :=
  decidable_of_iff
    ((match s.phase i, (calls i).message with
      | .locked task, some msg =>
        match task.progress_msg with
        | some text =>
          decide (s.row.progress_msg = some text ∧ Untrimmed (text ++ '\n' :: msg) 3000)
        | none => false
      | _, _ => true) = true) (by
    unfold UpToDate
    cases s.phase i with
    | locked task =>
      cases (calls i).message with
      | none => simp
      | some msg => cases hm : task.progress_msg <;> simp [hm]
    | _ => simp)

def messages (calls : ι → Info P) (order : List ι) : List Char :=
  order.flatMap fun i => '\n' :: ((calls i).message.getD [])

/-- The stored text is the first one followed by the message of every call of `done`, each
exactly once. -/
def HasMessages (calls : ι → Info P) (row : Task P) (done : ι → Prop) (s : State ι P) : Prop :=
  ∃ order : List ι, order.Nodup ∧ (∀ i, i ∈ order ↔ done i ∧ (calls i).message.isSome) ∧
    s.row.progress_msg = row.progress_msg.map (· ++ messages calls order)

def Phase.hasAppended : Phase P → Prop
  | .appended | .reported | .finished => True
  | _ => False

/-- The progress goes up or fails, and a failure stays. -/
def Advances [LinearOrder P] (failed p q : P) : Prop :=
  (p ≤ q ∨ q = failed) ∧ (p = failed → q = failed)

def Phase.ended : Phase P → Prop
  | .finished | .raised => True
  | _ => False

/-- The messages of the calls that are past their message statement are stored, and no call
has raised. -/
structure Appended (calls : ι → Info P) (row : Task P) (s : State ι P) : Prop where
  has_messages : HasMessages calls row (fun i => (s.phase i).hasAppended) s
  not_raised : ∀ i, s.phase i ≠ .raised

lemma Appended.initial (calls : ι → Info P) (row : Task P) : Appended calls row (State.initial row) where
  has_messages := by
    refine ⟨[], nodup_nil, fun i => ?_, ?_⟩
    · simp [State.initial, Phase.hasAppended]
    · simp [State.initial, messages]
  not_raised := fun _ e => nomatch e

lemma HasMessages.congr {calls : ι → Info P} {row : Task P} {s s' : State ι P}
    {done done' : ι → Prop} (h : HasMessages calls row done s) (htext : s'.row.progress_msg = s.row.progress_msg)
    (hdone : ∀ j, (calls j).message.isSome → (done' j ↔ done j)) : HasMessages calls row done' s' := by
  obtain ⟨order, hnodup, hmem, hrow⟩ := h
  refine ⟨order, hnodup, fun j => ?_, htext.trans hrow⟩
  rw [hmem j]
  exact and_congr_left fun hj => (hdone j hj).symm

section Steps

variable [DecidableEq ι] [LinearOrder P] {calls : ι → Info P} {failed : P} {row : Task P}
  {s s' : State ι P} {i : ι}

lemma update_progress_cases (h : update_progress calls failed s i = .ok s') :
    (∃ p, s'.row = s.row ∧ s'.phase = update s.phase i p ∧ (p.hasAppended ↔ (s.phase i).hasAppended) ∧
      (p = .raised → ∃ task msg, s.phase i = .locked task ∧ (calls i).message = some msg ∧
        task.progress_msg = none)) ∨ (∃ task, s.phase i = .locked task ∧ (calls i).message = none ∧ s'.row = s.row ∧
      s'.phase = update s.phase i .appended) ∨
    (∃ task msg text, s.phase i = .locked task ∧ (calls i).message = some msg ∧ task.progress_msg = some text ∧
      s'.row = { s.row with
        progress_msg := some (trim_header_by_lines (text ++ '\n' :: msg) 3000) } ∧
      s'.phase = update s.phase i .appended) ∨
    (s.phase i = .appended ∧ s'.row = updateProgress failed (calls i).progress s.row ∧
      s'.phase = update s.phase i .reported) := by
  unfold update_progress at h
  cases hp : s.phase i with
  | waiting =>
    rw [hp] at h
    cases h
    exact .inl ⟨_, rfl, rfl, Iff.rfl, fun e => nomatch e⟩
  | fetched task =>
    simp only [hp] at h
    split at h
    · cases h
    · cases h
      exact .inl ⟨_, rfl, rfl, Iff.rfl, fun e => nomatch e⟩
  | locked task =>
    simp only [hp] at h
    cases hm : (calls i).message with
    | none =>
      simp only [hm] at h
      cases h
      exact .inr (.inl ⟨task, rfl, rfl, rfl, rfl⟩)
    | some msg =>
      simp only [hm] at h
      cases ht : task.progress_msg with
      | none =>
        simp only [ht] at h
        cases h
        exact .inl ⟨_, rfl, rfl, Iff.rfl, fun _ => ⟨task, msg, rfl, rfl, ht⟩⟩
      | some text =>
        simp only [ht] at h
        cases h
        exact .inr (.inr (.inl ⟨task, msg, text, rfl, rfl, ht, rfl, rfl⟩))
  | appended =>
    rw [hp] at h
    cases h
    exact .inr (.inr (.inr ⟨rfl, rfl, rfl⟩))
  | reported =>
    rw [hp] at h
    cases h
    exact .inl ⟨_, rfl, rfl, Iff.rfl, fun e => nomatch e⟩
  | finished => simp [hp] at h
  | raised => simp [hp] at h

variable {p : Phase P} (progress : Option P) (task : Task P)

lemma updateProgress_progress_msg : (updateProgress failed progress task).progress_msg = task.progress_msg := by
  unfold updateProgress
  split
  · rfl
  · split <;> rfl

lemma updateProgress_advances : Advances failed task.progress (updateProgress failed progress task).progress := by
  unfold updateProgress Advances
  split
  · exact ⟨.inl le_rfl, id⟩
  · split
    · rename_i hguard
      exact ⟨hguard.2.symm.imp le_of_lt id, fun e => absurd e hguard.1⟩
    · exact ⟨.inl le_rfl, id⟩

lemma Advances.trans {p q r : P} (h1 : Advances failed p q) (h2 : Advances failed q r) : Advances failed p r := by
  refine ⟨?_, fun e => h2.2 (h1.2 e)⟩
  rcases h1.1 with hpq | hq
  · exact h2.1.imp (hpq.trans ·) id
  · exact .inr (h2.2 hq)

lemma update_progress_advances (h : update_progress calls failed s i = .ok s') :
    Advances failed s.row.progress s'.row.progress := by
  rcases update_progress_cases h with ⟨_, hrow, _⟩ | ⟨_, _, _, hrow, _⟩ |
    ⟨_, _, _, _, _, _, hrow, _⟩ | ⟨_, hrow, _⟩
  · rw [hrow]
    exact ⟨.inl le_rfl, id⟩
  · rw [hrow]
    exact ⟨.inl le_rfl, id⟩
  · rw [hrow]
    exact ⟨.inl le_rfl, id⟩
  · rw [hrow]
    exact updateProgress_advances _ _

theorem progress_advances (h : Reaches (update_progress calls failed) (fun _ _ => True) s s') :
    Advances failed s.row.progress s'.row.progress := by
  induction h with
  | start => exact ⟨.inl le_rfl, id⟩
  | step i _ _ hs ih => exact ih.trans (update_progress_advances hs)

omit [LinearOrder P] in
lemma hasAppended_update (hp : p.hasAppended ↔ (s.phase i).hasAppended) (j : ι) :
    (update s.phase i p j).hasAppended ↔ (s.phase j).hasAppended := by
  by_cases hj : j = i
  · subst hj
    rw [update_self]
    exact hp
  · rw [update_of_ne hj]

omit [LinearOrder P] in
lemma not_raised_update (h : ∀ j, s.phase j ≠ .raised) (hp : p ≠ .raised) (j : ι) :
    update s.phase i p j ≠ .raised := by
  by_cases hj : j = i
  · subst hj
    rw [update_self]
    exact hp
  · rw [update_of_ne hj]
    exact h j

omit [LinearOrder P] in
lemma HasMessages.append {msg text : List Char} (h : HasMessages calls row (fun j => (s.phase j).hasAppended) s)
    (hi : ¬ (s.phase i).hasAppended) (hmsg : (calls i).message = some msg)
    (hphase : s'.phase = update s.phase i .appended) (htext : s.row.progress_msg = some text)
    (hnew : s'.row.progress_msg = some (text ++ '\n' :: msg)) :
    HasMessages calls row (fun j => (s'.phase j).hasAppended) s' := by
  obtain ⟨order, hnodup, hmem, hrow⟩ := h
  have hnot : i ∉ order := fun hin => hi ((hmem i).1 hin).1
  refine ⟨order ++ [i], ?_, fun j => ?_, ?_⟩
  · exact List.nodup_append.2 ⟨hnodup, nodup_singleton i, fun a ha b hb e =>
      hnot (mem_singleton.1 hb ▸ e ▸ ha)⟩
  · rw [mem_append, mem_singleton, hmem j, hphase]
    by_cases hj : j = i
    · subst hj
      simp [Phase.hasAppended, hmsg]
    · simp [hj]
  · rw [htext] at hrow
    cases hfirst : row.progress_msg with
    | none => simp [hfirst] at hrow
    | some first =>
      have htext' : text = first ++ messages calls order := by simpa [hfirst] using hrow
      have hlast : messages calls [i] = '\n' :: msg := by simp [messages, hmsg]
      have happend : messages calls (order ++ [i]) = messages calls order ++ messages calls [i] := flatMap_append
      rw [hnew, Option.map_some, htext', happend, hlast, append_assoc]

lemma Appended.step (h : Appended calls row s) (hup : UpToDate calls s i)
    (hs : update_progress calls failed s i = .ok s') : Appended calls row s' := by
  rcases update_progress_cases hs with ⟨p, hrow, hphase, hp, hraised⟩ |
    ⟨task, hi, hmsg, hrow, hphase⟩ | ⟨task, msg, text, hi, hmsg, htask, hrow, hphase⟩ |
    ⟨hi, hrow, hphase⟩
  · refine ⟨h.has_messages.congr (congrArg _ hrow) fun j _ => ?_, fun j => ?_⟩
    · rw [hphase]
      exact hasAppended_update hp j
    · rw [hphase]
      refine not_raised_update h.not_raised (fun e => ?_) j
      obtain ⟨task, msg, hl, hm, ht⟩ := hraised e
      obtain ⟨text, ht', _⟩ := hup task msg hl hm
      rw [ht] at ht'
      cases ht'
  · refine ⟨h.has_messages.congr (congrArg _ hrow) fun j hj => ?_, fun j => ?_⟩
    · have hji : j ≠ i := by
        rintro rfl
        rw [hmsg] at hj
        cases hj
      rw [hphase, update_of_ne hji]
    · rw [hphase]
      exact not_raised_update h.not_raised (by rintro ⟨⟩) j
  · obtain ⟨text', htask', hstored, hkeep⟩ := hup task msg hi hmsg
    rw [htask] at htask'
    cases htask'
    refine ⟨h.has_messages.append (by rw [hi]; exact id) hmsg hphase hstored ?_, fun j => ?_⟩
    · rw [hrow, (trim_header_by_lines_eq_self_iff _ _).2 hkeep]
    · rw [hphase]
      exact not_raised_update h.not_raised (by rintro ⟨⟩) j
  · have hsame : (Phase.reported : Phase P).hasAppended ↔ (s.phase i).hasAppended := by
      rw [hi]
      exact Iff.rfl
    have htext : s'.row.progress_msg = s.row.progress_msg := by
      rw [hrow]
      exact updateProgress_progress_msg _ _
    refine ⟨h.has_messages.congr htext fun j _ => ?_, fun j => ?_⟩
    · rw [hphase]
      exact hasAppended_update hsame j
    · rw [hphase]
      exact not_raised_update h.not_raised (by rintro ⟨⟩) j

/-- If every call has read what is stored and nothing is cut off, every message is stored once. The
progress only goes up, or fails. -/
theorem update_progress_spec (h : Reaches (update_progress calls failed) (UpToDate calls) (.initial row) s) :
    ((∀ i, (s.phase i).ended) → HasMessages calls row (fun _ => True) s) ∧
      ∀ s', Reaches (update_progress calls failed) (fun _ _ => True) s s' →
        Advances failed s.row.progress s'.row.progress := by
  refine ⟨fun hended => ?_, fun s' hs => progress_advances hs⟩
  have happ : Appended calls row s :=
    h.invariant (Appended.initial calls row) fun _ _ _ hinv hup hs => hinv.step hup hs
  refine happ.has_messages.congr rfl fun i _ => iff_of_true trivial ?_
  have hi := hended i
  have hnr := happ.not_raised i
  cases hp : s.phase i with
  | finished => trivial
  | raised => exact absurd hp hnr
  | waiting | fetched | locked | appended | reported =>
    rw [hp] at hi
    exact hi.elim

end Steps

/-- Two workers that report `a` and `b`. -/
def twoReports : Bool → Info ℤ :=
  fun second => ⟨some (if second then ['b'] else ['a']), some (if second then 2 else 1)⟩

/-- They report one after the other. -/
theorem update_progress_one_after_other : ∃ s, Reaches (update_progress twoReports (-1)) (UpToDate twoReports)
        (.initial ⟨some [], 0⟩) s ∧ s.row = ⟨some ['\n', 'a', '\n', 'b'], 2⟩ ∧
      HasMessages twoReports ⟨some [], 0⟩ (fun _ => True) s := by
  have hrun : ∃ s, runAllowed (update_progress twoReports (-1)) (UpToDate twoReports)
      (.initial ⟨some [], 0⟩)
      [false, false, false, false, false, true, true, true, true, true] = some s ∧
      s.row = ⟨some ['\n', 'a', '\n', 'b'], 2⟩ ∧
      s.phase false = .finished ∧ s.phase true = .finished := ⟨_, rfl, rfl, rfl, rfl⟩
  obtain ⟨s, hs, hrow, hfalse, htrue⟩ := hrun
  have hreach := Reaches.append_runAllowed .start hs
  refine ⟨s, hreach, hrow, (update_progress_spec hreach).1 fun i => ?_⟩
  cases i with
  | false => simp [hfalse, Phase.ended]
  | true => simp [htrue, Phase.ended]

/-- Both read the row before either writes: the message of the first is lost. -/
theorem update_progress_loses_message : ∃ s, Reaches (update_progress twoReports (-1)) (fun _ _ => True)
        (.initial ⟨some [], 0⟩) s ∧ (∀ i, s.phase i = .finished) ∧ s.row.progress_msg = some ['\n', 'b'] := by
  have hrun : ∃ s, runSteps (update_progress twoReports (-1)) (.initial ⟨some [], 0⟩)
      [false, true, false, false, false, false, true, true, true, true] = .ok s ∧
      s.row.progress_msg = some ['\n', 'b'] ∧
      s.phase false = .finished ∧ s.phase true = .finished := ⟨_, rfl, rfl, rfl, rfl⟩
  obtain ⟨s, hs, hrow, hfalse, htrue⟩ := hrun
  refine ⟨s, Reaches.append_runSteps .start hs, fun i => ?_, hrow⟩
  cases i with
  | false => exact hfalse
  | true => exact htrue

end CustomAi.Ragflow
