import Mathlib.Data.List.Basic
import Mathlib.Tactic.Ring

/-!
# Little-endian integers

A natural number written in a fixed number of bytes, least significant byte
first, and read back.  Writing keeps the number modulo `256 ^ n`, which is what a
fixed-width integer type keeps, so the round trip is stated with the remainder and
needs no bound.
-/

namespace LittleEndian

/-- The `n` low bytes of a number, least significant first. -/
def leBytes : ℕ → ℕ → List UInt8
  | 0, _ => []
  | n + 1, v => UInt8.ofNat v :: leBytes n (v / 256)

/-- The number a little-endian byte string stands for. -/
def leNat : List UInt8 → ℕ
  | [] => 0
  | b :: bs => b.toNat + 256 * leNat bs

@[simp] theorem length_leBytes (n v : ℕ) : (leBytes n v).length = n := by
  induction n generalizing v with
  | zero => rfl
  | succ n ih => rw [leBytes, List.length_cons, ih]

theorem leNat_leBytes (n v : ℕ) : leNat (leBytes n v) = v % 256 ^ n := by
  induction n generalizing v with
  | zero => rw [leBytes, leNat, pow_zero, Nat.mod_one]
  | succ n ih =>
    have hhead : (UInt8.ofNat v).toNat = v % 256 := by
      simp [UInt8.toNat_ofNat']
    rw [leBytes, leNat, ih, hhead, pow_succ', Nat.mod_mul]

theorem leNat_leBytes_of_lt {n v : ℕ} (h : v < 256 ^ n) : leNat (leBytes n v) = v := by
  rw [leNat_leBytes, Nat.mod_eq_of_lt h]

/-- Numbers that fit are told apart. -/
theorem leBytes_inj {n v w : ℕ} (hv : v < 256 ^ n) (hw : w < 256 ^ n)
    (h : leBytes n v = leBytes n w) : v = w := by
  rw [← leNat_leBytes_of_lt hv, h, leNat_leBytes_of_lt hw]

theorem leNat_lt (b : List UInt8) : leNat b < 256 ^ b.length := by
  induction b with
  | nil => exact Nat.one_pos
  | cons x b ih =>
    have hx : x.toNat < 256 := x.toNat_lt
    rw [leNat, List.length_cons, pow_succ']
    omega

/-- What was read is what is written. -/
theorem leBytes_leNat (b : List UInt8) : leBytes b.length (leNat b) = b := by
  induction b with
  | nil => rfl
  | cons x b ih =>
    have hx : x.toNat < 256 := x.toNat_lt
    have hdiv : (x.toNat + 256 * leNat b) / 256 = leNat b := by omega
    have hhead : UInt8.ofNat (x.toNat + 256 * leNat b) = x := by
      apply UInt8.toNat_inj.mp
      rw [UInt8.toNat_ofNat']
      omega
    rw [List.length_cons, leNat, leBytes, hdiv, ih, hhead]

end LittleEndian
