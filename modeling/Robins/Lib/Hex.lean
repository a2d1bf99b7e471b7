import Mathlib.Data.List.Basic

/-!
# Hexadecimal text

Bytes as pairs of digits, in ASCII.  The writer uses lower-case digits, the reader takes
both cases; it refuses an odd number of digits and anything that is not a digit.
-/

namespace Hex

/-- The digit of a number below sixteen. -/
def digit (n : ℕ) : UInt8 := if n < 10 then UInt8.ofNat (48 + n) else UInt8.ofNat (87 + n)

/-- The number a digit stands for. -/
def value (c : UInt8) : Option ℕ :=
  if 48 ≤ c ∧ c ≤ 57 then some (c.toNat - 48)
  else if 97 ≤ c ∧ c ≤ 102 then some (c.toNat - 87)
  else if 65 ≤ c ∧ c ≤ 70 then some (c.toNat - 55)
  else none

/-- Two digits for each byte, the upper half first. -/
def encode (b : List UInt8) : List UInt8 :=
  b.flatMap fun x => [digit (x.toNat / 16), digit (x.toNat % 16)]

/-- Read pairs of digits. -/
def decode : List UInt8 → Option (List UInt8)
  | [] => some []
  | [_] => none
  | high :: low :: rest =>
    match value high, value low, decode rest with
    | some h, some l, some b => some (UInt8.ofNat (16 * h + l) :: b)
    | _, _, _ => none

@[simp] theorem value_digit {n : ℕ} (h : n < 16) : value (digit n) = some n := by
  revert h
  revert n
  decide

theorem encode_cons (x : UInt8) (b : List UInt8) :
    encode (x :: b) = digit (x.toNat / 16) :: digit (x.toNat % 16) :: encode b := by
  rw [encode, List.flatMap_cons]
  rfl

@[simp] theorem length_encode (b : List UInt8) : (encode b).length = 2 * b.length := by
  induction b with
  | nil => rfl
  | cons x b ih =>
    rw [encode_cons, List.length_cons, List.length_cons, List.length_cons, ih]
    omega

/-- **What is written is read.** -/
theorem decode_encode (b : List UInt8) : decode (encode b) = some b := by
  induction b with
  | nil => rfl
  | cons x b ih =>
    have hhigh : x.toNat / 16 < 16 := by have := x.toNat_lt; omega
    have hlow : x.toNat % 16 < 16 := by omega
    have hx : UInt8.ofNat (16 * (x.toNat / 16) + x.toNat % 16) = x := by
      rw [Nat.div_add_mod, UInt8.ofNat_toNat]
    rw [encode_cons, decode, value_digit hhigh, value_digit hlow, ih]
    exact congrArg (fun y => some (y :: b)) hx

theorem exists_digit_of_mem_encode {c : UInt8} {b : List UInt8} (h : c ∈ encode b) :
    ∃ n < 16, c = digit n := by
  obtain ⟨x, -, hc⟩ := List.mem_flatMap.mp h
  have hx := x.toNat_lt
  simp only [List.mem_cons, List.not_mem_nil, or_false] at hc
  obtain rfl | rfl := hc
  · exact ⟨_, by omega, rfl⟩
  · exact ⟨_, by omega, rfl⟩

end Hex
