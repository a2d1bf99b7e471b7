import Mathlib.Tactic.SplitIfs
import Robins.Lib.LittleEndian

/-!
# SCALE

The part of the SCALE encoding that byte strings need: a compact 32-bit integer, whose two lowest
bits say how many bytes it takes, and a byte string, which is its length as a compact integer
followed by the bytes.

A reader takes what it needs from the front and returns the rest.  Each number has exactly one
encoding, since a longer form than necessary is refused; so a reader succeeds exactly on what its
writer produces, whatever follows (`decodeCompact_eq_some_iff`, `decodeBytes_eq_some_iff`).  A
format made of such parts is read exactly from what is written for it as well, by rewriting with
these equivalences from the front.
-/

namespace Scale

open LittleEndian

/-! ## Fixed widths -/

/-- The next `n` bytes. -/
def takeBytes (n : ℕ) (b : List UInt8) : Option (List UInt8 × List UInt8) :=
  if n ≤ b.length then some (b.take n, b.drop n) else none

theorem takeBytes_eq_some_iff {n : ℕ} {b a rest : List UInt8} :
    takeBytes n b = some (a, rest) ↔ a.length = n ∧ b = a ++ rest := by
  unfold takeBytes
  constructor
  · intro h
    split_ifs at h with hlen
    obtain ⟨rfl, rfl⟩ := Prod.mk.inj (Option.some.inj h)
    exact ⟨List.length_take_of_le hlen, (List.take_append_drop n b).symm⟩
  · rintro ⟨rfl, rfl⟩
    rw [if_pos (by simp), List.take_left, List.drop_left]

/-- The next `n` bytes as a little-endian number. -/
def decodeFixed (n : ℕ) (b : List UInt8) : Option (ℕ × List UInt8) :=
  (takeBytes n b).map fun p => (leNat p.1, p.2)

theorem decodeFixed_eq_some_iff {n x : ℕ} {b rest : List UInt8} :
    decodeFixed n b = some (x, rest) ↔ x < 256 ^ n ∧ b = leBytes n x ++ rest := by
  rw [decodeFixed, Option.map_eq_some_iff]
  constructor
  · rintro ⟨⟨a, rest'⟩, htake, heq⟩
    obtain ⟨rfl, rfl⟩ := Prod.mk.inj heq
    obtain ⟨rfl, rfl⟩ := takeBytes_eq_some_iff.mp htake
    exact ⟨leNat_lt a, by rw [leBytes_leNat]⟩
  · rintro ⟨hlt, rfl⟩
    refine ⟨(leBytes n x, rest), takeBytes_eq_some_iff.mpr ⟨length_leBytes n x, rfl⟩, ?_⟩
    rw [leNat_leBytes_of_lt hlt]

/-- The first byte has the two lowest bits of the number. -/
theorem head_leBytes {n x : ℕ} {b : UInt8} {rest rest' : List UInt8}
    (h : b :: rest = leBytes (n + 1) x ++ rest') : b.toNat % 4 = x % 4 := by
  rw [leBytes, List.cons_append] at h
  obtain ⟨rfl, -⟩ := List.cons.inj h
  rw [UInt8.toNat_ofNat']
  omega

/-! ## Compact integers -/

/-- A number below `2 ^ 32` in its shortest form. -/
def compact (n : ℕ) : List UInt8 :=
  if n < 2 ^ 6 then leBytes 1 (4 * n)
  else if n < 2 ^ 14 then leBytes 2 (4 * n + 1)
  else if n < 2 ^ 30 then leBytes 4 (4 * n + 2)
  else leBytes 1 3 ++ leBytes 4 n

/-- A number that a shorter form would not hold. -/
def atLeast (least : ℕ) (p : ℕ × List UInt8) : Option (ℕ × List UInt8) :=
  if least ≤ p.1 then some p else none

/-- Read a compact integer of at most 32 bits. -/
def decodeCompact (b : List UInt8) : Option (ℕ × List UInt8) :=
  match b with
  | [] => none
  | first :: rest =>
    match first.toNat % 4 with
    | 0 => (decodeFixed 1 b).map fun p => (p.1 / 4, p.2)
    | 1 => (decodeFixed 2 b).bind fun p => atLeast (2 ^ 6) (p.1 / 4, p.2)
    | 2 => (decodeFixed 4 b).bind fun p => atLeast (2 ^ 14) (p.1 / 4, p.2)
    | _ =>
      if first.toNat / 4 = 0 then (decodeFixed 4 rest).bind fun p => atLeast (2 ^ 30) p
      else none

theorem atLeast_eq_some_iff {least : ℕ} {p q : ℕ × List UInt8} :
    atLeast least p = some q ↔ least ≤ p.1 ∧ p = q := by
  unfold atLeast
  split_ifs with h <;> simp [h]

/-- The form a number is written in. -/
theorem compact_cases {n : ℕ} (hn : n < 2 ^ 32) :
    (n < 2 ^ 6 ∧ compact n = leBytes 1 (4 * n)) ∨
      (2 ^ 6 ≤ n ∧ n < 2 ^ 14 ∧ compact n = leBytes 2 (4 * n + 1)) ∨
      (2 ^ 14 ≤ n ∧ n < 2 ^ 30 ∧ compact n = leBytes 4 (4 * n + 2)) ∨
      (2 ^ 30 ≤ n ∧ n < 256 ^ 4 ∧ compact n = leBytes 1 3 ++ leBytes 4 n) := by
  unfold compact
  split_ifs with h6 h14 h30
  · exact .inl ⟨h6, rfl⟩
  · exact .inr (.inl ⟨by omega, h14, rfl⟩)
  · exact .inr (.inr (.inl ⟨by omega, h30, rfl⟩))
  · exact .inr (.inr (.inr ⟨by omega, by omega, rfl⟩))

/-- A number whose two lowest bits are the mode of its form. -/
theorem eq_of_decodeFixed {k x mode : ℕ} {first : UInt8} {tail rest : List UInt8}
    (hx : decodeFixed (k + 1) (first :: tail) = some (x, rest)) (hmode : first.toNat % 4 = mode) :
    4 * (x / 4) + mode < 256 ^ (k + 1) ∧
      first :: tail = leBytes (k + 1) (4 * (x / 4) + mode) ++ rest := by
  obtain ⟨hlt, hb⟩ := decodeFixed_eq_some_iff.mp hx
  have hlow := head_leBytes hb
  have hsplit : 4 * (x / 4) + mode = x := by omega
  rw [hsplit]
  exact ⟨hlt, hb⟩

/-- A form that is read holds no number of a shorter one. -/
theorem eq_of_decodeForm {k least n mode : ℕ} {first : UInt8} {tail rest : List UInt8}
    (h : ((decodeFixed (k + 1) (first :: tail)).bind fun p => atLeast least (p.1 / 4, p.2)) =
      some (n, rest)) (hmode : first.toNat % 4 = mode) :
    least ≤ n ∧ 4 * n + mode < 256 ^ (k + 1) ∧
      first :: tail = leBytes (k + 1) (4 * n + mode) ++ rest := by
  obtain ⟨⟨x, rest'⟩, hx, h⟩ := Option.bind_eq_some_iff.mp h
  obtain ⟨hleast, heq⟩ := atLeast_eq_some_iff.mp h
  obtain ⟨rfl, rfl⟩ := Prod.mk.inj heq
  exact ⟨hleast, eq_of_decodeFixed hx hmode⟩

theorem compact_of_decodeCompact {b rest : List UInt8} {n : ℕ}
    (h : decodeCompact b = some (n, rest)) : n < 2 ^ 32 ∧ b = compact n ++ rest := by
  cases b with
  | nil => exact absurd h (by simp [decodeCompact])
  | cons first tail =>
    obtain hmode | hmode | hmode | hmode : first.toNat % 4 = 0 ∨ first.toNat % 4 = 1 ∨
        first.toNat % 4 = 2 ∨ first.toNat % 4 = 3 := by omega
    · simp only [decodeCompact, hmode] at h
      obtain ⟨⟨x, rest'⟩, hx, heq⟩ := Option.map_eq_some_iff.mp h
      obtain ⟨rfl, rfl⟩ := Prod.mk.inj heq
      obtain ⟨hlt, hb⟩ := eq_of_decodeFixed hx hmode
      have hsmall : x / 4 < 2 ^ 6 := by omega
      exact ⟨by omega, by rw [hb, compact, if_pos hsmall, add_zero]⟩
    · simp only [decodeCompact, hmode] at h
      obtain ⟨hleast, hlt, hb⟩ := eq_of_decodeForm h hmode
      have hsmall : n < 2 ^ 14 := by omega
      exact ⟨by omega, by rw [hb, compact, if_neg (not_lt.mpr hleast), if_pos hsmall]⟩
    · simp only [decodeCompact, hmode] at h
      obtain ⟨hleast, hlt, hb⟩ := eq_of_decodeForm h hmode
      have hsmall : n < 2 ^ 30 := by omega
      refine ⟨by omega, ?_⟩
      rw [hb, compact, if_neg (by omega), if_neg (not_lt.mpr hleast), if_pos hsmall]
    · simp only [decodeCompact, hmode] at h
      split_ifs at h with hfirst
      obtain ⟨⟨x, rest'⟩, hx, h⟩ := Option.bind_eq_some_iff.mp h
      obtain ⟨hleast, heq⟩ := atLeast_eq_some_iff.mp h
      obtain ⟨rfl, rfl⟩ := Prod.mk.inj heq
      obtain ⟨hlt, hb⟩ := decodeFixed_eq_some_iff.mp hx
      have hthree : first.toNat = 3 := by omega
      obtain rfl : first = 3 := UInt8.toNat_inj.mp hthree
      refine ⟨by omega, ?_⟩
      rw [hb, compact, if_neg (by omega), if_neg (by omega), if_neg (not_lt.mpr hleast)]
      rfl

/-- The reader sees the mode of the form in the first byte. -/
theorem exists_cons_of_leBytes {k x : ℕ} (rest : List UInt8) :
    ∃ first tail, leBytes (k + 1) x ++ rest = first :: tail ∧ first.toNat % 4 = x % 4 := by
  have hcons : leBytes (k + 1) x ++ rest =
      UInt8.ofNat x :: (leBytes k (x / 256) ++ rest) := rfl
  exact ⟨_, _, hcons, head_leBytes hcons.symm⟩

theorem decodeCompact_compact {n : ℕ} (hn : n < 2 ^ 32) (rest : List UInt8) :
    decodeCompact (compact n ++ rest) = some (n, rest) := by
  rcases compact_cases hn with ⟨hlt, hform⟩ | ⟨hleast, hlt, hform⟩ | ⟨hleast, hlt, hform⟩ |
    ⟨hleast, hlt, hform⟩
  · obtain ⟨first, tail, hb, hmode⟩ := exists_cons_of_leBytes (k := 0) (x := 4 * n) rest
    have hzero : first.toNat % 4 = 0 := by omega
    have hfixed : decodeFixed 1 (first :: tail) = some (4 * n, rest) :=
      decodeFixed_eq_some_iff.mpr ⟨by omega, hb.symm⟩
    rw [hform, hb]
    simp only [decodeCompact, hzero, hfixed, Option.map_some]
    rw [Nat.mul_div_cancel_left n (by decide)]
  · obtain ⟨first, tail, hb, hmode⟩ := exists_cons_of_leBytes (k := 1) (x := 4 * n + 1) rest
    have hone : first.toNat % 4 = 1 := by omega
    have hfixed : decodeFixed 2 (first :: tail) = some (4 * n + 1, rest) :=
      decodeFixed_eq_some_iff.mpr ⟨by omega, hb.symm⟩
    have hdiv : (4 * n + 1) / 4 = n := by omega
    rw [hform, hb]
    simp only [decodeCompact, hone, hfixed, Option.bind_some, hdiv]
    exact atLeast_eq_some_iff.mpr ⟨hleast, rfl⟩
  · obtain ⟨first, tail, hb, hmode⟩ := exists_cons_of_leBytes (k := 3) (x := 4 * n + 2) rest
    have htwo : first.toNat % 4 = 2 := by omega
    have hfixed : decodeFixed 4 (first :: tail) = some (4 * n + 2, rest) :=
      decodeFixed_eq_some_iff.mpr ⟨by omega, hb.symm⟩
    have hdiv : (4 * n + 2) / 4 = n := by omega
    rw [hform, hb]
    simp only [decodeCompact, htwo, hfixed, Option.bind_some, hdiv]
    exact atLeast_eq_some_iff.mpr ⟨hleast, rfl⟩
  · have hfixed : decodeFixed 4 (leBytes 4 n ++ rest) = some (n, rest) :=
      decodeFixed_eq_some_iff.mpr ⟨hlt, rfl⟩
    rw [hform, List.append_assoc]
    show (decodeFixed 4 (leBytes 4 n ++ rest)).bind (atLeast (2 ^ 30)) = some (n, rest)
    rw [hfixed]
    exact atLeast_eq_some_iff.mpr ⟨hleast, rfl⟩

/-- **A compact integer is read exactly from its shortest form.** -/
theorem decodeCompact_eq_some_iff {b rest : List UInt8} {n : ℕ} :
    decodeCompact b = some (n, rest) ↔ n < 2 ^ 32 ∧ b = compact n ++ rest := by
  constructor
  · exact compact_of_decodeCompact
  · rintro ⟨hn, rfl⟩
    exact decodeCompact_compact hn rest

/-! ## Byte strings -/

/-- A byte string after its length. -/
def encodeBytes (b : List UInt8) : List UInt8 := compact b.length ++ b

def decodeBytes (b : List UInt8) : Option (List UInt8 × List UInt8) :=
  (decodeCompact b).bind fun p => takeBytes p.1 p.2

/-- **A byte string is read exactly from what is written for it.** -/
theorem decodeBytes_eq_some_iff {b a rest : List UInt8} :
    decodeBytes b = some (a, rest) ↔ a.length < 2 ^ 32 ∧ b = encodeBytes a ++ rest := by
  rw [decodeBytes, Option.bind_eq_some_iff]
  constructor
  · rintro ⟨⟨n, tail⟩, hcompact, htake⟩
    obtain ⟨hn, rfl⟩ := decodeCompact_eq_some_iff.mp hcompact
    obtain ⟨rfl, rfl⟩ := takeBytes_eq_some_iff.mp htake
    exact ⟨hn, (List.append_assoc _ _ _).symm⟩
  · rintro ⟨hn, rfl⟩
    refine ⟨(a.length, a ++ rest), decodeCompact_eq_some_iff.mpr ⟨hn, ?_⟩, ?_⟩
    · exact List.append_assoc _ _ _
    · exact takeBytes_eq_some_iff.mpr ⟨rfl, rfl⟩

end Scale
