import Mathlib.Algebra.BigOperators.Group.List.Basic

/-!
# Computations that may raise

Inversion of a successful `Except` computation, and the loop that threads a store through a
list of components, each of which owns a share of it.
-/

namespace CustomAi

open List Option Except

inductive PyError
  | assertionError (message : String)
  | valueError (message : String)
  | runtimeError (message : String)
  | notImplementedError (message : String)
  | keyError
  | indexError
  | overflowError
  deriving DecidableEq, Repr

universe u

variable {ε : Type u} {α β : Type}

variable {c : Prop} {γ : Type} {a a' : α} {b b' : β} (e : ε)

lemma bind_eq_ok {x : Except ε α} {f : α → Except ε β} : (x >>= f) = .ok b ↔ ∃ a, x = .ok a ∧ f a = .ok b := by
  cases x <;> simp [Bind.bind, Except.bind]

@[simp] lemma ok_bind (a : α) (f : α → Except ε β) : ((Except.ok a : Except ε α) >>= f) = f a := rfl

@[simp] lemma error_bind (f : α → Except ε β) : (error e >>= f) = error e := rfl

@[simp] lemma pure_eq_ok (a : α) : (pure a : Except ε α) = .ok a := rfl

lemma ok_pair_inj (h : (Except.ok (a, b) : Except ε (α × β)) = .ok (a', b')) :
    a = a' ∧ b = b' := Prod.mk.inj (ok.inj h)

lemma ok_triple_inj {c c' : γ} (h : (Except.ok (a, b, c) : Except ε (α × β × γ)) = .ok (a', b', c')) :
    a = a' ∧ b = b' ∧ c = c' := by
  obtain ⟨ha, hbc⟩ := ok_pair_inj h
  exact ⟨ha, Prod.mk.inj hbc⟩

lemma ok_quad_inj {δ : Type} {c c' : γ} {d d' : δ}
    (h : (Except.ok (a, b, c, d) : Except ε (α × β × γ × δ)) = .ok (a', b', c', d')) :
    a = a' ∧ b = b' ∧ c = c' ∧ d = d' := by
  obtain ⟨ha, hb, hcd⟩ := ok_triple_inj h
  exact ⟨ha, hb, Prod.mk.inj hcd⟩

lemma mapM_eq_ok {f : α → Except ε β} {g : α → β} {l : List α} (h : ∀ x ∈ l, f x = .ok (g x)) :
    l.mapM f = .ok (l.map g) := by
  induction l with
  | nil => rfl
  | cons x l ih =>
    rw [mapM_cons, h x mem_cons_self, ih fun y hy => h y (mem_cons_of_mem x hy)]
    rfl

/-- Raise `e` unless `c` holds. -/
def ensure (c : Prop) [Decidable c] (e : ε) : Except ε Unit := if c then .ok () else .error e

@[simp] lemma ensure_eq_ok [Decidable c] {e : ε} {x : Unit} : ensure c e = .ok x ↔ c := by
  unfold ensure
  split <;> simp_all

lemma ensure_of [Decidable c] (h : c) (e : ε) : ensure c e = .ok () := by
  simp [h]

@[simp] lemma ensure_true [Decidable True] : ensure True e = .ok () := ensure_of trivial e

section Components

variable {M P : Type}

/-- Run `f` on every component in turn, threading the store. -/
def forEnum (f : ℕ → M → P → Except ε (β × M × P)) :
    ℕ → List M → P → Except ε (List β × List M × P)
  | _, [], p => .ok ([], [], p)
  | i, m :: ms, p => do
    let (b, m', p') ← f i m p
    let (bs, ms', p'') ← forEnum f (i + 1) ms p'
    return (b :: bs, m' :: ms', p'')

variable {f : ℕ → M → P → Except ε (β × M × P)} {i : ℕ} {m : M} {ms : List M} {p : P}

lemma forEnum_cons_eq_ok {r : List β × List M × P} : forEnum f i (m :: ms) p = .ok r ↔
      ∃ b m' p' bs ms' p'', f i m p = .ok (b, m', p') ∧
        forEnum f (i + 1) ms p' = .ok (bs, ms', p'') ∧ r = (b :: bs, m' :: ms', p'') := by
  simp only [forEnum, bind_eq_ok, pure_eq_ok, ok.injEq, Prod.exists]
  constructor
  · rintro ⟨b, m', p', h1, bs, ms', p'', h2, h3⟩
    exact ⟨b, m', p', bs, ms', p'', h1, h2, h3.symm⟩
  · rintro ⟨b, m', p', bs, ms', p'', h1, h2, h3⟩
    exact ⟨b, m', p', h1, bs, ms', p'', h2, h3.symm⟩

variable {ms' : List M} {bs : List β} {p' : P}

lemma forEnum_store_eq (hf : ∀ i m p b m' p', m ∈ ms → f i m p = .ok (b, m', p') → p' = p)
    (hok : forEnum f i ms p = .ok (bs, ms', p')) : p' = p := by
  induction ms generalizing i p bs ms' p' with
  | nil =>
    simp only [forEnum, ok.injEq, Prod.mk.injEq] at hok
    exact hok.2.2.symm
  | cons m ms ih =>
    obtain ⟨b, m1, p1, bs1, ms1, p2, h1, h2, h3⟩ := forEnum_cons_eq_ok.mp hok
    obtain ⟨-, h3⟩ := Prod.mk.inj h3
    obtain ⟨-, rfl⟩ := Prod.mk.inj h3
    rw [ih (fun i m p b m' p' hm => hf i m p b m' p' (mem_cons_of_mem _ hm)) h2]
    exact hf i m p b m1 p1 mem_cons_self h1

lemma forEnum_get (hok : forEnum f i ms p = .ok (bs, ms', p')) {j : ℕ} {m' : M}
    (hj : ms'[j]? = some m') : ∃ m q b q', ms[j]? = some m ∧ f (i + j) m q = .ok (b, m', q') := by
  induction ms generalizing i p bs ms' p' j with
  | nil =>
    obtain ⟨-, rfl, -⟩ := hok
    cases hj
  | cons m ms ih =>
    obtain ⟨b, m1, p1, bs1, ms1, p2, h1, h2, h3⟩ := forEnum_cons_eq_ok.mp hok
    obtain ⟨-, h3⟩ := Prod.mk.inj h3
    obtain ⟨rfl, -⟩ := Prod.mk.inj h3
    cases j with
    | zero =>
      obtain rfl := some.inj hj
      exact ⟨m, p, b, p1, rfl, h1⟩
    | succ j =>
      obtain ⟨m0, q, b', q', hm, hf⟩ := ih h2 (by simpa using hj)
      refine ⟨m0, q, b', q', by simpa using hm, ?_⟩
      rwa [show i + (j + 1) = i + 1 + j by omega]

/-- The frame rule of the loop: a step that keeps its own share and any frame keeps all shares. -/
theorem forEnum_frame {H : Type} [AddCommMonoid H] (Inv : P → H → Prop) (share : M → H)
    (Pre : ℕ → M → Prop) (Post : ℕ → M → M → Prop)
    (hf : ∀ i m p b m' p' F, Pre i m → Inv p (share m + F) → f i m p = .ok (b, m', p') →
      Post i m m' ∧ Inv p' (share m' + F)) : ∀ {ms i p bs ms' p' F}, (∀ j m, ms[j]? = some m → Pre (i + j) m) →
      Inv p ((ms.map share).sum + F) → forEnum f i ms p = .ok (bs, ms', p') → (ms'.length = ms.length ∧
        ∀ j m m', ms[j]? = some m → ms'[j]? = some m' → Post (i + j) m m') ∧ Inv p' ((ms'.map share).sum + F) := by
  intro ms
  induction ms with
  | nil =>
    intro i p bs ms' p' F _ hinv h
    obtain ⟨rfl, rfl, rfl⟩ := h
    exact ⟨⟨rfl, by simp⟩, hinv⟩
  | cons m ms ih =>
    intro i p bs ms' p' F hpre hinv h
    obtain ⟨b, m1, p1, bs1, ms1, p2, h1, h2, h3⟩ := forEnum_cons_eq_ok.mp h
    obtain ⟨rfl, rfl, rfl⟩ := h3
    have hm : Inv p (share m + ((ms.map share).sum + F)) := by
      simpa only [map_cons, sum_cons, add_assoc] using hinv
    obtain ⟨hpost, hm1⟩ := hf i m p b m1 p1 _ (hpre 0 m rfl) hm h1
    have hms : Inv p1 ((ms.map share).sum + (share m1 + F)) := by
      rwa [add_left_comm] at hm1
    have hpre' : ∀ j m', ms[j]? = some m' → Pre (i + 1 + j) m' := by
      intro j m' hj
      have h := hpre (j + 1) m' (by simpa using hj)
      rwa [show i + (j + 1) = i + 1 + j by omega] at h
    obtain ⟨⟨hlen, hposts⟩, hfin⟩ := ih hpre' hms h2
    refine ⟨⟨by simp [hlen], ?_⟩, ?_⟩
    · intro j a a' ha ha'
      cases j with
      | zero =>
        simp only [List.getElem?_cons_zero, some.injEq] at ha ha'
        subst ha ha'
        exact hpost
      | succ j =>
        have hp := hposts j a a' ha ha'
        rwa [show i + 1 + j = i + (j + 1) by omega] at hp
    · simpa only [map_cons, sum_cons, add_assoc, add_left_comm] using hfin

end Components

end CustomAi
