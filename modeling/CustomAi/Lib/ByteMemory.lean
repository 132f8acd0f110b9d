import Mathlib.Tactic.Ring
import Mathlib.Tactic.Linarith

/-!
# Bytes and integers in memory

Integers as little-endian bytes in two's complement, and a memory that is written and read by
stretches of bytes.
-/

namespace CustomAi.ByteMemory

open List

def natBytes : ℕ → ℕ → List UInt8
  | 0, _ => []
  | n + 1, x => UInt8.ofNat x :: natBytes n (x / 256)

def natOfBytes : List UInt8 → ℕ
  | [] => 0
  | b :: bs => b.toNat + 256 * natOfBytes bs

@[simp] lemma length_natBytes (n x : ℕ) : (natBytes n x).length = n := by
  induction n generalizing x with
  | zero => rfl
  | succ n ih => rw [natBytes, length_cons, ih]

lemma natOfBytes_natBytes (n x : ℕ) : natOfBytes (natBytes n x) = x % 256 ^ n := by
  induction n generalizing x with
  | zero => rw [natBytes, natOfBytes, pow_zero, Nat.mod_one]
  | succ n ih =>
    have hmod : x % (256 * 256 ^ n) = x % 256 + 256 * (x / 256 % 256 ^ n) := Nat.mod_mul
    have hpow : 256 ^ (n + 1) = 256 * 256 ^ n := pow_succ' 256 n
    rw [natBytes, natOfBytes, ih, UInt8.toNat_ofNat', hpow, hmod]

/-- `n` bytes of an integer in two's complement, the lowest one first. -/
def intBytes (n : ℕ) (x : ℤ) : List UInt8 := natBytes n (x % 256 ^ n).toNat

def intOfBytes (bytes : List UInt8) : ℤ :=
  if 2 * natOfBytes bytes < 256 ^ bytes.length then natOfBytes bytes
  else natOfBytes bytes - 256 ^ bytes.length

@[simp] lemma length_intBytes (n : ℕ) (x : ℤ) : (intBytes n x).length = n := length_natBytes n _

lemma intOfBytes_intBytes {n : ℕ} {x : ℤ} (hlow : -256 ^ n ≤ 2 * x) (hhigh : 2 * x < 256 ^ n) :
    intOfBytes (intBytes n x) = x := by
  have hpos : (0 : ℤ) < 256 ^ n := by positivity
  have hcast : ((256 ^ n : ℕ) : ℤ) = 256 ^ n := by rfl
  have hnonneg : 0 ≤ x % 256 ^ n := Int.emod_nonneg x hpos.ne'
  have hnat : ((natOfBytes (intBytes n x) : ℕ) : ℤ) = x % 256 ^ n := by
    rw [intBytes, natOfBytes_natBytes, Nat.mod_eq_of_lt (by omega), Int.toNat_of_nonneg hnonneg]
  rw [intOfBytes, length_intBytes, hnat]
  rcases le_or_gt 0 x with hx | hx
  · rw [Int.emod_eq_of_lt hx (by omega)] at hnat ⊢
    rw [if_pos (by omega)]
  · have hadd : x % 256 ^ n = x + 256 ^ n := by
      rw [← Int.add_emod_right, Int.emod_eq_of_lt (by omega) (by omega)]
    rw [hadd] at hnat ⊢
    rw [if_neg (by omega)]
    ring

abbrev Memory := ℤ → UInt8

def write (m : Memory) (i : ℤ) (bytes : List UInt8) : Memory := fun j =>
  if i ≤ j ∧ j < i + bytes.length then bytes.getD (j - i).toNat 0 else m j

def read (m : Memory) (i : ℤ) (n : ℕ) : List UInt8 := (List.range n).map fun k => m (i + (k : ℕ))

lemma read_write (m : Memory) (i : ℤ) (bytes : List UInt8) {n : ℕ} (hn : bytes.length = n) :
    read (write m i bytes) i n = bytes := by
  subst hn
  refine ext_getElem (by simp [read]) fun k hk hk' => ?_
  simp only [read, getElem_map, getElem_range]
  rw [write]
  simp [hk']

lemma read_write_of_disjoint (m : Memory) {i j : ℤ} {n : ℕ} {bytes : List UInt8}
    (h : i + n ≤ j ∨ j + bytes.length ≤ i) : read (write m j bytes) i n = read m i n := by
  refine map_congr_left fun k hk => ?_
  have hk : k < n := mem_range.mp hk
  exact if_neg (by omega)

end CustomAi.ByteMemory
