import Mathlib.Data.List.Basic

/-!
# Texts without null bytes

JSON values as the code stores them, and `sanitize_data_for_db`, which removes from every text the
characters that a database cannot hold.
-/

namespace CustomAi.OpenWebUI

abbrev Text := List ℕ

/-- What `sanitize_text_for_db` leaves: no null and no surrogate. -/
def storable (c : ℕ) : Bool :=
  c != 0 && !(0xD800 ≤ c && c ≤ 0xDFFF)

def sanitize_text_for_db (text : Text) : Text :=
  text.filter storable

/-- `A` is the type of the values that are not texts, lists or dictionaries. -/
inductive Json (A : Type)
  | text (text : Text)
  | atom (value : A)
  | list (items : List (Json A))
  | dict (entries : List (String × Json A))

namespace Json

variable {A : Type}

mutual

def sanitize : Json A → Json A
  | .text t => .text (sanitize_text_for_db t)
  | .atom value => .atom value
  | .list items => .list (sanitizeItems items)
  | .dict entries => .dict (sanitizeEntries entries)

def sanitizeItems : List (Json A) → List (Json A)
  | [] => []
  | value :: rest => sanitize value :: sanitizeItems rest

def sanitizeEntries : List (String × Json A) → List (String × Json A)
  | [] => []
  | (key, value) :: rest => (key, sanitize value) :: sanitizeEntries rest

end

mutual

def isClean : Json A → Bool
  | .text t => t.all storable
  | .atom _ => true
  | .list items => isCleanItems items
  | .dict entries => isCleanEntries entries

def isCleanItems : List (Json A) → Bool
  | [] => true
  | value :: rest => isClean value && isCleanItems rest

def isCleanEntries : List (String × Json A) → Bool
  | [] => true
  | (_, value) :: rest => isClean value && isCleanEntries rest

end

end Json

lemma sanitize_text_idem (t : Text) : sanitize_text_for_db (sanitize_text_for_db t) = sanitize_text_for_db t := by
  simp [sanitize_text_for_db]

namespace Json

variable {A : Type}

mutual

@[simp]
theorem sanitize_sanitize : (j : Json A) → sanitize (sanitize j) = sanitize j
  | .text t => by rw [sanitize, sanitize, sanitize_text_idem]
  | .atom a => by rw [sanitize, sanitize]
  | .list items => by rw [sanitize, sanitize, sanitizeItems_idem items]
  | .dict entries => by rw [sanitize, sanitize, sanitizeEntries_idem entries]

lemma sanitizeItems_idem : (l : List (Json A)) → sanitizeItems (sanitizeItems l) = sanitizeItems l
  | [] => by rw [sanitizeItems, sanitizeItems]
  | value :: rest => by
    rw [sanitizeItems, sanitizeItems, sanitize_sanitize value, sanitizeItems_idem rest]

lemma sanitizeEntries_idem : (l : List (String × Json A)) →
    sanitizeEntries (sanitizeEntries l) = sanitizeEntries l
  | [] => by rw [sanitizeEntries, sanitizeEntries]
  | (key, value) :: rest => by
    rw [sanitizeEntries, sanitizeEntries, sanitize_sanitize value, sanitizeEntries_idem rest]

end

lemma sanitizeItems_eq_map (l : List (Json A)) : sanitizeItems l = l.map sanitize := by
  induction l with
  | nil => rw [sanitizeItems, List.map_nil]
  | cons value rest ih => rw [sanitizeItems, ih, List.map_cons]

end Json

end CustomAi.OpenWebUI
