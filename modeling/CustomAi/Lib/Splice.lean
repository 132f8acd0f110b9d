import Mathlib.Algebra.BigOperators.Group.List.Basic
import Mathlib.Algebra.GroupWithZero.Nat

/-!
# Writing out a text with edits

A writer copies a text from a cursor up to the start of an edit, writes the content of the edit and
goes on behind its end. When the edits are in order and disjoint, every token outside of them is
written once; an edit that starts before the cursor makes the writer copy tokens again, which the
length of the output shows.
-/

namespace CustomAi.Splice

open List

variable {α : Type*}

/-- The tokens from `start` to `stop` are replaced by `content`. -/
structure Edit (α : Type*) where
  start : ℕ
  stop : ℕ
  content : List α

/-- `l[start:stop]`. -/
def slice (l : List α) (start stop : ℕ) : List α := (l.take stop).drop start

def written (source : List α) : ℕ → List (Edit α) → List α
  | _, [] => []
  | cursor, e :: rest => slice source cursor e.start ++ e.content ++ written source e.stop rest

def cursorAfter : ℕ → List (Edit α) → ℕ
  | cursor, [] => cursor
  | _, e :: rest => cursorAfter e.stop rest

def write (source : List α) (edits : List (Edit α)) : List α :=
  written source 0 edits ++ source.drop (cursorAfter 0 edits)

def InOrder : ℕ → List (Edit α) → Prop
  | _, [] => True
  | cursor, e :: rest => cursor ≤ e.start ∧ e.start ≤ e.stop ∧ InOrder e.stop rest

def Edit.Fits (source : List α) (e : Edit α) : Prop :=
  e.start ≤ e.stop ∧ e.stop ≤ source.length

lemma written_append (source : List α) (cursor : ℕ) (es more : List (Edit α)) : written source cursor (es ++ more) =
      written source cursor es ++ written source (cursorAfter cursor es) more := by
  induction es generalizing cursor with
  | nil => rfl
  | cons e rest ih => simp only [cons_append, written, cursorAfter, ih, append_assoc]

lemma cursorAfter_append (cursor : ℕ) (es more : List (Edit α)) :
    cursorAfter cursor (es ++ more) = cursorAfter (cursorAfter cursor es) more := by
  induction es generalizing cursor with
  | nil => rfl
  | cons e rest ih => exact ih e.stop

lemma inOrder_append (cursor : ℕ) (es more : List (Edit α)) :
    InOrder cursor (es ++ more) ↔ InOrder cursor es ∧ InOrder (cursorAfter cursor es) more := by
  induction es generalizing cursor with
  | nil => simp only [nil_append, InOrder, cursorAfter, true_and]
  | cons e rest ih => simp only [cons_append, InOrder, cursorAfter, ih, and_assoc]

def removed (es : List (Edit α)) : ℕ := (es.map fun e => e.stop - e.start).sum

def added (es : List (Edit α)) : ℕ := (es.map fun e => e.content.length).sum

def back : ℕ → List (Edit α) → ℕ
  | _, [] => 0
  | cursor, e :: rest => (cursor - e.start) + back e.stop rest

section

variable {source : List α} {es : List (Edit α)} (hfits : ∀ e ∈ es, e.Fits source)

include hfits

lemma inOrder_iff_back {cursor : ℕ} : InOrder cursor es ↔ back cursor es = 0 := by
  induction es generalizing cursor with
  | nil => simp only [InOrder, back]
  | cons e rest ih =>
    have hle : e.start ≤ e.stop := (hfits e (mem_cons_self ..)).1
    rw [InOrder, back, Nat.add_eq_zero_iff, Nat.sub_eq_zero_iff_le, ih fun x hx => hfits x (mem_cons_of_mem e hx)]
    exact ⟨fun h => ⟨h.1, h.2.2⟩, fun h => ⟨h.1, hle, h.2⟩⟩

lemma cursorAfter_le {cursor : ℕ} (hcursor : cursor ≤ source.length) : cursorAfter cursor es ≤ source.length := by
  induction es generalizing cursor with
  | nil => exact hcursor
  | cons e rest ih =>
    exact ih (fun x hx => hfits x (mem_cons_of_mem e hx)) (hfits e (mem_cons_self ..)).2

lemma length_written (cursor : ℕ) : (written source cursor es).length + cursor + removed es =
      cursorAfter cursor es + added es + back cursor es := by
  induction es generalizing cursor with
  | nil => simp [written, cursorAfter, removed, added, back]
  | cons e rest ih =>
    obtain ⟨hle, hlen⟩ := hfits e (mem_cons_self ..)
    have hrest := ih (fun x hx => hfits x (mem_cons_of_mem e hx)) e.stop
    have hslice : (slice source cursor e.start).length = e.start - cursor := by
      rw [slice, length_drop, length_take, Nat.min_eq_left (Nat.le_trans hle hlen)]
    simp only [removed, added] at hrest
    simp only [written, cursorAfter, removed, added, back, map_cons, sum_cons, length_append, hslice]
    omega

lemma length_write : (write source es).length + removed es = source.length + added es + back 0 es := by
  have hw := length_written hfits 0
  have hle := cursorAfter_le hfits (Nat.zero_le source.length)
  rw [write, length_append, length_drop]
  omega

/-- Edits that take away and bring as much as edits in order, with the same output, are in order. -/
theorem inOrder_of_write_eq {es' : List (Edit α)} (hfits' : ∀ e ∈ es', e.Fits source)
    (hremoved : removed es = removed es') (hadded : added es = added es')
    (hwrite : write source es = write source es') (horder : InOrder 0 es') : InOrder 0 es := by
  have hlen := length_write hfits
  have hlen' := length_write hfits'
  rw [(inOrder_iff_back hfits').mp horder, ← hwrite, ← hremoved] at hlen'
  exact (inOrder_iff_back hfits).mpr (by omega)

end

end CustomAi.Splice
