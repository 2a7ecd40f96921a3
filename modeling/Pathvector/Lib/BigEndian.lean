/-
# Big-endian numbers

Octets on the wire are read and written most significant first. `be_bytes` writes a number with a
given number of octets, `be_value` reads it back: what is read is what was written, up to the
width of the field, and what is written again is what was read.
-/
import Mathlib.Data.Nat.Basic
import Mathlib.Tactic.Ring

set_option autoImplicit false

namespace Pathvector

/-- The `n` low octets of `x`, most significant first. -/
def be_bytes : ℕ → ℕ → List UInt8
  | 0, _ => []
  | n + 1, x => UInt8.ofNat (x / 256 ^ n) :: be_bytes n x

/-- The number that octets stand for, most significant first. -/
def be_value : List UInt8 → ℕ
  | [] => 0
  | b :: bs => b.toNat * 256 ^ bs.length + be_value bs

@[simp]
theorem length_be_bytes (n x : ℕ) : (be_bytes n x).length = n := by
  induction n with
  | zero => rfl
  | succ n ih => rw [be_bytes, List.length_cons, ih]

theorem be_value_lt (bs : List UInt8) : be_value bs < 256 ^ bs.length := by
  induction bs with
  | nil => simp [be_value]
  | cons b bs ih =>
    have hb : b.toNat + 1 ≤ 256 := b.toNat_lt
    calc be_value (b :: bs) < b.toNat * 256 ^ bs.length + 256 ^ bs.length := by
          rw [be_value]
          omega
      _ = (b.toNat + 1) * 256 ^ bs.length := by ring
      _ ≤ 256 * 256 ^ bs.length := Nat.mul_le_mul_right _ hb
      _ = 256 ^ (b :: bs).length := by
          rw [List.length_cons]
          ring

theorem be_value_be_bytes (n x : ℕ) : be_value (be_bytes n x) = x % 256 ^ n := by
  induction n with
  | zero => simp [be_bytes, be_value, Nat.mod_one]
  | succ n ih =>
    have hb : (UInt8.ofNat (x / 256 ^ n)).toNat = x / 256 ^ n % 256 := by simp
    rw [be_bytes, be_value, length_be_bytes, ih, hb, Nat.mod_pow_succ]
    ring

theorem be_value_be_bytes_of_lt {n x : ℕ} (h : x < 256 ^ n) : be_value (be_bytes n x) = x := by
  rw [be_value_be_bytes, Nat.mod_eq_of_lt h]

theorem be_bytes_add_mul (n x y k : ℕ) : be_bytes n (x * 256 ^ (n + k) + y) = be_bytes n y := by
  induction n generalizing k with
  | zero => rfl
  | succ n ih =>
    have hsplit : x * 256 ^ (n + 1 + k) + y = y + 256 ^ n * (256 * (x * 256 ^ k)) := by ring
    have hhead : (x * 256 ^ (n + 1 + k) + y) / 256 ^ n = y / 256 ^ n + 256 * (x * 256 ^ k) := by
      rw [hsplit, Nat.add_mul_div_left _ _ (Nat.pow_pos (by decide))]
    have htail : be_bytes n (x * 256 ^ (n + 1 + k) + y) = be_bytes n y := by
      have h := ih (k + 1)
      rwa [← Nat.add_assoc, Nat.add_right_comm] at h
    rw [be_bytes, be_bytes, htail, hhead]
    congr 1
    apply UInt8.toNat_inj.mp
    simp

theorem be_bytes_be_value (bs : List UInt8) : be_bytes bs.length (be_value bs) = bs := by
  induction bs with
  | nil => rfl
  | cons b bs ih =>
    have hlt := be_value_lt bs
    have hhead : (b.toNat * 256 ^ bs.length + be_value bs) / 256 ^ bs.length = b.toNat := by
      rw [Nat.mul_comm, Nat.mul_add_div (Nat.pow_pos (by decide)), Nat.div_eq_of_lt hlt,
        Nat.add_zero]
    have htail := be_bytes_add_mul bs.length b.toNat (be_value bs) 0
    rw [Nat.add_zero, ih] at htail
    rw [List.length_cons, be_bytes, be_value, hhead, htail, UInt8.ofNat_toNat]

theorem be_bytes_be_value_of_length {n : ℕ} {bs : List UInt8} (h : bs.length = n) :
    be_bytes n (be_value bs) = bs := by
  rw [← h, be_bytes_be_value]

/-- The number in a field that is as wide as the octets. -/
theorem be_bytes_value_mod {n w : ℕ} {bs : List UInt8} (h : bs.length = n) (hw : 2 ^ w = 256 ^ n) :
    be_bytes n (be_value bs % 2 ^ w) = bs := by
  have hlt : be_value bs < 2 ^ w := by
    rw [hw, ← h]
    exact be_value_lt bs
  rw [Nat.mod_eq_of_lt hlt, be_bytes_be_value_of_length h]

theorem be_value_append (as bs : List UInt8) :
    be_value (as ++ bs) = be_value as * 256 ^ bs.length + be_value bs := by
  induction as with
  | nil => simp [be_value]
  | cons a as ih =>
    rw [List.cons_append, be_value, be_value, ih, List.length_append]
    ring

theorem be_value_append_zeros (bs : List UInt8) (j : ℕ) :
    be_value (bs ++ List.replicate j 0) = be_value bs * 256 ^ j := by
  have hzero : ∀ j, be_value (List.replicate j 0) = 0 := by
    intro j
    induction j with
    | zero => rfl
    | succ j ih => rw [List.replicate_succ, be_value, ih]; simp
  rw [be_value_append, hzero, List.length_replicate, Nat.add_zero]

theorem take_be_bytes {k n : ℕ} (h : k ≤ n) (x : ℕ) :
    (be_bytes n x).take k = be_bytes k (x / 256 ^ (n - k)) := by
  induction n generalizing k with
  | zero =>
    obtain rfl : k = 0 := by omega
    rfl
  | succ n ih =>
    cases k with
    | zero => rfl
    | succ k =>
      have hexp : n - k + k = n := by omega
      have hdiv : x / 256 ^ n = x / 256 ^ (n - k) / 256 ^ k := by
        rw [Nat.div_div_eq_div_mul, ← Nat.pow_add, hexp]
      have hsub : n + 1 - (k + 1) = n - k := by omega
      rw [be_bytes, List.take_succ_cons, ih (by omega), be_bytes, hsub, ← hdiv]

end Pathvector
