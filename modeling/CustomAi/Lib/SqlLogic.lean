import Mathlib.Data.Option.Basic

/-!
# Conditions of a query

The three truth values of SQL. A comparison with NULL is unknown, and a query keeps the rows for
which its condition is true.
-/

namespace CustomAi.Lib

/-- `none` is the value unknown. -/
abbrev Sql := Option Bool

namespace Sql

variable {x y : Sql} {xs : List Sql}

def isTrue (x : Sql) : Bool :=
  x == some true

def not (x : Sql) : Sql :=
  x.map Bool.not

def or : Sql → Sql → Sql
  | some true, _ => some true
  | some false, y => y
  | none, some true => some true
  | none, _ => none

def and : Sql → Sql → Sql
  | some false, _ => some false
  | some true, y => y
  | none, some false => some false
  | none, _ => none

/-- `or_(*xs)` -/
def any (xs : List Sql) : Sql :=
  xs.foldr or (some false)

/-- `and_(*xs)` -/
def all (xs : List Sql) : Sql :=
  xs.foldr and (some true)

@[simp]
lemma isTrue_some (b : Bool) : isTrue (some b) = b := by
  cases b <;> rfl

@[simp]
lemma isTrue_none : isTrue none = false := rfl

@[simp]
lemma isTrue_or : (or x y).isTrue = (x.isTrue || y.isTrue) := by
  rcases x with _ | _ | _ <;> rcases y with _ | _ | _ <;> rfl

lemma isTrue_any : (any xs).isTrue = true ↔ ∃ x ∈ xs, x.isTrue = true := by
  induction xs with
  | nil => simp [any]
  | cons x xs ih =>
    have hcons : any (x :: xs) = or x (any xs) := rfl
    rw [hcons, isTrue_or, Bool.or_eq_true, ih]
    simp

end Sql

end CustomAi.Lib
