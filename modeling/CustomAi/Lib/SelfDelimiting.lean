import Mathlib.Tactic.Linarith

/-!
# Self-delimiting codes

A `Code` writes values as lists of bytes from which they can be read off without knowing where
they end, as a binary serialization does. Codes compose over products, sums and lists.
-/

namespace CustomAi

universe u v

structure Code (α : Type u) where
  write : α → List UInt8
  delimited : ∀ {x y s t}, write x ++ s = write y ++ t → x = y ∧ s = t

namespace Code

variable {α : Type u} {β : Type v}

lemma write_injective (c : Code α) : Function.Injective c.write := by
  intro x y h
  exact (c.delimited (s := []) (t := []) (by rw [h])).1

def comap (c : Code β) (f : α → β) (hf : Function.Injective f) : Code α where
  write x := c.write (f x)
  delimited h := by
    obtain ⟨hxy, hst⟩ := c.delimited h
    exact ⟨hf hxy, hst⟩

def prod (c : Code α) (d : Code β) : Code (α × β) where
  write x := c.write x.1 ++ d.write x.2
  delimited {x y s t} h := by
    rw [List.append_assoc, List.append_assoc] at h
    obtain ⟨h1, hrest⟩ := c.delimited h
    obtain ⟨h2, hst⟩ := d.delimited hrest
    exact ⟨Prod.ext h1 h2, hst⟩

def sum (c : Code α) (d : Code β) : Code (α ⊕ β) where
  write
    | .inl x => 0 :: c.write x
    | .inr y => 1 :: d.write y
  delimited {x y s t} h := by
    cases x with
    | inl x =>
      cases y with
      | inl y =>
        obtain ⟨rfl, hst⟩ := c.delimited (List.cons.inj h).2
        exact ⟨rfl, hst⟩
      | inr y => exact absurd (List.cons.inj h).1 (by decide)
    | inr x =>
      cases y with
      | inl y => exact absurd (List.cons.inj h).1 (by decide)
      | inr y =>
        obtain ⟨rfl, hst⟩ := d.delimited (List.cons.inj h).2
        exact ⟨rfl, hst⟩

def unit : Code Unit where
  write _ := []
  delimited h := ⟨rfl, h⟩

def option (c : Code α) : Code (Option α) :=
  (sum unit c).comap (fun x => x.elim (.inl ()) .inr) (by
    intro x y h
    cases x <;> cases y <;> simp_all)

def writeList (c : Code α) : List α → List UInt8
  | [] => [0]
  | x :: rest => 1 :: (c.write x ++ writeList c rest)

def list (c : Code α) : Code (List α) where
  write := writeList c
  delimited {x y s t} h := by
    induction x generalizing y with
    | nil =>
      cases y with
      | nil => exact ⟨rfl, (List.cons.inj h).2⟩
      | cons b y => exact absurd (List.cons.inj h).1 (by decide)
    | cons a x ih =>
      cases y with
      | nil => exact absurd (List.cons.inj h).1 (by decide)
      | cons b y =>
        have htail : (c.write a ++ writeList c x) ++ s = (c.write b ++ writeList c y) ++ t := (List.cons.inj h).2
        rw [List.append_assoc, List.append_assoc] at htail
        obtain ⟨rfl, hrest⟩ := c.delimited htail
        obtain ⟨rfl, hst⟩ := ih hrest
        exact ⟨rfl, hst⟩

def nat : Code ℕ :=
  unit.list.comap (fun n => List.replicate n ()) (by
    intro m n h
    simpa using congrArg List.length h)

def int : Code ℤ :=
  (sum nat nat).comap (fun z => match z with | .ofNat n => .inl n | .negSucc n => .inr n) (by
    intro x y h
    cases x <;> cases y <;> simp_all)

def byte : Code UInt8 :=
  nat.comap UInt8.toNat (fun _ _ h => UInt8.toNat_inj.mp h)

def char : Code Char :=
  nat.comap Char.toNat (fun _ _ h => Char.toNat_inj.mp h)

def string : Code String :=
  char.list.comap String.toList (fun _ _ h => String.toList_inj.mp h)

end Code

end CustomAi
