import Mathlib.Algebra.Ring.Nat
import Mathlib.Data.List.Basic
import Robins.Lib.Hex
import Robins.Lib.Utf8

/-!
# Byte strings and clocks

Owned and borrowed buffers (`Vec<u8>`, `Bytes`, `&[u8]`) are lists of bytes.  A
fixed-width array `[u8; n]` is a list that carries the proof of its length, so a
digest or a key of the wrong width cannot be built.  Points of the monotonic clock
and spans of time are milliseconds.
-/

namespace Robins

/-- A byte buffer of any length. -/
abbrev Bytes := List UInt8

/-- A fixed-width byte array `[u8; n]`. -/
abbrev FixedBytes (n : ℕ) := {b : Bytes // b.length = n}

/-- `<[u8; n]>::try_from`: the slice itself when it has the right length. -/
def FixedBytes.ofSlice (n : ℕ) (b : Bytes) : Option (FixedBytes n) :=
  if h : b.length = n then some ⟨b, h⟩ else none

/-- The same byte throughout. -/
def FixedBytes.replicate (n : ℕ) (b : UInt8) : FixedBytes n :=
  ⟨List.replicate n b, List.length_replicate⟩

theorem FixedBytes.ofSlice_eq_some_iff {n : ℕ} {b : Bytes} {a : FixedBytes n} :
    FixedBytes.ofSlice n b = some a ↔ a.1 = b := by
  unfold FixedBytes.ofSlice
  split
  · next h => simp [Subtype.ext_iff, eq_comm]
  · next h =>
    simp only [reduceCtorEq, false_iff]
    rintro rfl
    exact h a.2

theorem FixedBytes.ofSlice_eq_none_iff {n : ℕ} {b : Bytes} :
    FixedBytes.ofSlice n b = none ↔ b.length ≠ n := by
  unfold FixedBytes.ofSlice
  split <;> simp_all

/-- `hex::encode`: two lowercase digits for each byte. -/
def hexEncode (b : Bytes) : String :=
  String.ofList (b.flatMap fun x => [Nat.digitChar (x.toNat / 16), Nat.digitChar (x.toNat % 16)])

theorem encode_hexEncode (b : Bytes) : Utf8.encode (hexEncode b) = Hex.encode b := by
  have hdigit : ∀ n < 16, Nat.digitChar n = Char.ofNat (Hex.digit n).toNat := by decide
  have hascii : ∀ n < 16, (Hex.digit n).toNat < 128 := by decide
  have htext : hexEncode b = Utf8.ascii (Hex.encode b) := by
    rw [hexEncode, Utf8.ascii, Hex.encode, List.map_flatMap]
    refine congrArg String.ofList (List.flatMap_congr fun x _ => ?_)
    have hx := x.toNat_lt
    rw [hdigit _ (by omega), hdigit _ (by omega)]
    rfl
  rw [htext, Utf8.encode_ascii]
  intro c hc
  obtain ⟨n, hn, rfl⟩ := Hex.exists_digit_of_mem_encode hc
  exact hascii n hn

/-- SHA-256: some function from buffers to digests. -/
abbrev Sha256 := Bytes → FixedBytes 32

/-- The most bytes a `Vec<u8>` can hold on a 64-bit target, `isize::MAX`. -/
def isizeMax : ℕ := 2 ^ 63 - 1

/-- A point of the monotonic clock. -/
abbrev Instant := ℕ

/-- A span of time in milliseconds. -/
abbrev Duration := ℕ

/-- `Duration::from_secs`. -/
def Duration.ofSecs (secs : ℕ) : Duration := secs * 1000

end Robins
