import Mathlib.Algebra.Order.Ring.Nat

/-!
# Growth up to a cap

A wait between attempts grows with the number of failures, up to a cap.  `capped f cap` is the law
of such a growth: what `f` gives for the number, or the cap.

Programs compute it in three ways.

* They take `f` of the number directly, with an intermediate result that is bounded by more than
  the cap (`capped_bounded`).
* They keep the last wait and let it grow once more (`capped_succ`).
* They stop counting at some number (`capped_stopped_eq_iff`), and then the law is kept exactly as
  long as the cap is within reach of that number.

The first two are right for any growth that does not shrink and, in the second case, for which
what was capped grows as what was not; the third is right or wrong depending on the numbers, and
the lemma says on which.  The last section is the growth that is most used, doubling.
-/

universe u

namespace CappedGrowth

/-- What has grown `n` times, or the cap. -/
def capped {α : Type u} [LinearOrder α] (f : ℕ → α) (cap : α) (n : ℕ) : α := min (f n) cap

section

variable {α : Type u} [LinearOrder α] {f : ℕ → α} {cap top : α} {n k : ℕ}

/-! ## Bounds -/

theorem capped_le_cap : capped f cap n ≤ cap := min_le_right _ _

theorem capped_le : capped f cap n ≤ f n := min_le_left _ _

theorem capped_eq_cap_iff : capped f cap n = cap ↔ cap ≤ f n := min_eq_right_iff

theorem monotone_capped (hf : Monotone f) : Monotone (capped f cap) :=
  fun _ _ h => min_le_min_right cap (hf h)

/-- Nothing is below the start, unless the cap is. -/
theorem le_capped (hf : Monotone f) (hfirst : f 0 ≤ cap) : f 0 ≤ capped f cap n :=
  le_min (hf (Nat.zero_le n)) hfirst

/-- From where the cap is reached on, it is kept. -/
theorem capped_eq_cap_of_le (hf : Monotone f) (hk : cap ≤ f k) (h : k ≤ n) :
    capped f cap n = cap :=
  capped_eq_cap_iff.mpr (hk.trans (hf h))

/-! ## Three ways to compute it -/

/-- A bound above the cap makes no difference. -/
theorem capped_bounded (htop : cap ≤ top) :
    min (min (f n) top) cap = capped f cap n := by
  rw [capped, min_assoc, min_eq_right htop]

/-- The cap may be applied after each step: what was capped grows once more as what was not. -/
theorem capped_succ (g : α → α) (hg : Monotone g) (hcap : cap ≤ g cap)
    (hf : f (n + 1) = g (f n)) :
    min (g (capped f cap n)) cap = capped f cap (n + 1) := by
  rw [capped, capped, hf, hg.map_min, min_assoc, min_eq_right hcap]

/-- Growth that stops after `k` steps follows the law as long as it goes on, and where the
cap is reached before it stops. -/
theorem capped_stopped_eq_iff (hf : StrictMono f) :
    capped f cap (min n k) = capped f cap n ↔ n ≤ k ∨ cap ≤ f k := by
  constructor
  · intro heq
    by_contra! hnot
    obtain ⟨hkn, hcap⟩ := hnot
    rw [min_eq_right hkn.le] at heq
    have hlt : capped f cap k < capped f cap n :=
      lt_min (capped_le.trans_lt (hf hkn)) (capped_le.trans_lt hcap)
    exact hlt.ne heq
  · rintro (hn | hcap)
    · rw [min_eq_left hn]
    · rcases le_total n k with hn | hn
      · rw [min_eq_left hn]
      · rw [min_eq_right hn, capped_eq_cap_iff.mpr hcap,
          capped_eq_cap_of_le hf.monotone hcap hn]

end

/-! ## Doubling -/

/-- `first`, doubled `n` times. -/
def doubling (first n : ℕ) : ℕ := first * 2 ^ n

variable {first : ℕ}

@[simp] theorem doubling_zero : doubling first 0 = first := by rw [doubling, pow_zero, mul_one]

theorem strictMono_doubling (hfirst : 0 < first) : StrictMono (doubling first) :=
  fun _ _ h => Nat.mul_lt_mul_of_pos_left (Nat.pow_lt_pow_right Nat.one_lt_two h) hfirst

theorem monotone_doubling : Monotone (doubling first) :=
  fun _ _ h => Nat.mul_le_mul_left first (Nat.pow_le_pow_right Nat.two_pos h)

theorem le_capped_doubling {cap : ℕ} (hcap : first ≤ cap) (n : ℕ) :
    first ≤ capped (doubling first) cap n := by
  have h : doubling first 0 ≤ capped (doubling first) cap n :=
    le_capped monotone_doubling (doubling_zero.trans_le hcap)
  rwa [doubling_zero] at h

theorem doubling_succ (n : ℕ) : doubling first (n + 1) = doubling first n * 2 := by
  rw [doubling, doubling, pow_succ, Nat.mul_assoc]

/-- Doubling may be capped as it goes. -/
theorem capped_doubling_succ (cap n : ℕ) :
    min (capped (doubling first) cap n * 2) cap = capped (doubling first) cap (n + 1) := by
  have hmono : Monotone fun x : ℕ => x * 2 := fun _ _ h => Nat.mul_le_mul_right 2 h
  have hcap : cap ≤ cap * 2 := Nat.le_mul_of_pos_right cap Nat.two_pos
  exact capped_succ (· * 2) hmono hcap (doubling_succ n)

end CappedGrowth
