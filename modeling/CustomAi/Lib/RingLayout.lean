import Mathlib.Tactic.Linarith

/-!
# Pieces in a ring

Pieces of a ring buffer lie one after the other on the unrolled line of positions; where a piece
lies in the buffer is its position modulo the size of the buffer.
-/

namespace CustomAi.RingLayout

structure Piece where
  position : ℤ
  size : ℤ

/-- The pieces lie between `lo` and `hi` in their order, none of them across a multiple of `B`. -/
def Laid (B : ℤ) : ℤ → List Piece → ℤ → Prop
  | lo, [], hi => lo ≤ hi
  | lo, p :: rest, hi => lo ≤ p.position ∧ 0 < p.size ∧ p.position % B + p.size ≤ B ∧
      Laid B (p.position + p.size) rest hi

variable {B lo hi hi' : ℤ} {p : Piece} {pieces : List Piece}

section

variable (h : Laid B lo pieces hi)
include h

lemma Laid.le : lo ≤ hi := by
  induction pieces generalizing lo with
  | nil => exact h
  | cons p rest ih =>
    obtain ⟨hlo, hpos, -, hrest⟩ := h
    have := ih hrest
    omega

lemma Laid.mono (hle : hi ≤ hi') : Laid B lo pieces hi' := by
  induction pieces generalizing lo with
  | nil => exact h.trans hle
  | cons p rest ih => exact ⟨h.1, h.2.1, h.2.2.1, ih h.2.2.2⟩

lemma Laid.append (hle : hi ≤ p.position) (hpos : 0 < p.size)
    (hfit : p.position % B + p.size ≤ B) (hend : p.position + p.size ≤ hi') : Laid B lo (pieces ++ [p]) hi' := by
  induction pieces generalizing lo with
  | nil => exact ⟨le_trans h hle, hpos, hfit, hend⟩
  | cons q rest ih => exact ⟨h.1, h.2.1, h.2.2.1, ih h.2.2.2⟩

lemma Laid.shift : Laid B (lo - B) (pieces.map fun p => { p with position := p.position - B }) (hi - B) := by
  induction pieces generalizing lo with
  | nil => exact Int.sub_le_sub_right h B
  | cons p rest ih =>
    obtain ⟨hlo, hpos, hfit, hrest⟩ := h
    refine ⟨Int.sub_le_sub_right hlo B, hpos, ?_, ?_⟩
    · rw [Int.sub_emod_right]
      exact hfit
    · have hmoved : (p.position - B) + p.size = p.position + p.size - B := by omega
      rw [hmoved]
      exact ih hrest

lemma Laid.mem (hp : p ∈ pieces) : lo ≤ p.position ∧ 0 < p.size ∧
    p.position + p.size ≤ hi ∧ p.position % B + p.size ≤ B := by
  induction pieces generalizing lo with
  | nil => cases hp
  | cons q rest ih =>
    obtain ⟨hlo, hpos, hfit, hrest⟩ := h
    rcases List.mem_cons.mp hp with rfl | hp
    · exact ⟨hlo, hpos, hrest.le, hfit⟩
    · obtain ⟨hlow, hsize, hhigh, hin⟩ := ih hrest hp
      exact ⟨by omega, hsize, hhigh, hin⟩

end

def Apart (B : ℤ) (p q : Piece) : Prop :=
  p.position % B + p.size ≤ q.position % B ∨ q.position % B + q.size ≤ p.position % B

lemma apart_of_le {q : Piece} (hB : 0 < B) (hpq : p.position + p.size ≤ q.position)
    (hwindow : q.position + q.size ≤ p.position + B) (hq : 0 < q.size) (hp : 0 < p.size) : Apart B p q := by
  have hdivp := Int.mul_ediv_add_emod p.position B
  have hdivq := Int.mul_ediv_add_emod q.position B
  -- the second piece lies in the same turn of the line or in the next one
  have hturn : q.position / B = p.position / B ∨ q.position / B = p.position / B + 1 := by
    have hlow : p.position / B ≤ q.position / B := Int.ediv_le_ediv hB (by omega)
    have hhigh : q.position / B ≤ (p.position + 1 * B) / B := Int.ediv_le_ediv hB (by omega)
    rw [Int.add_mul_ediv_right _ _ hB.ne'] at hhigh
    omega
  rcases hturn with hsame | hnext
  · rw [hsame] at hdivq
    exact .inl (by omega)
  · rw [hnext, Int.mul_add] at hdivq
    exact .inr (by omega)

lemma Laid.pairwise (hB : 0 < B) (h : Laid B lo pieces hi) (hwindow : hi ≤ lo + B) :
    pieces.Pairwise (Apart B) := by
  induction pieces generalizing lo with
  | nil => exact List.Pairwise.nil
  | cons p rest ih =>
    obtain ⟨hlo, hpos, -, hrest⟩ := h
    refine List.Pairwise.cons (fun q hq => ?_) (ih hrest (by omega))
    obtain ⟨hlow, hsize, hhigh, -⟩ := hrest.mem hq
    exact apart_of_le hB hlow (by omega) hsize hpos

end CustomAi.RingLayout
