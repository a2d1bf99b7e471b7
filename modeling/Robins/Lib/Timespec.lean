import Mathlib.Algebra.Order.Ring.Int

/-!
# Points of a monotonic clock

A point of the clock is a number of seconds, signed and of 64 bits, and the nanoseconds since.
Adding a span of time may leave the range; then there is no such point.

Spans are whole milliseconds.  `tick` is the position of a point on a line of milliseconds that
begins with the range: a span moves a point by as many ticks, and fits if the sum does.  Carries
from the nanoseconds to the seconds disappear on that line, so that questions about several
additions are questions about sums of natural numbers.
-/

/-- A point of the clock. -/
structure Timespec where
  secs : ℤ
  nanos : ℕ
  secs_ge : -2 ^ 63 ≤ secs
  secs_lt : secs < 2 ^ 63
  nanos_lt : nanos < 1000000000
  deriving DecidableEq

namespace Timespec

/-- Seconds first. -/
def Le (t t' : Timespec) : Prop := t.secs < t'.secs ∨ t.secs = t'.secs ∧ t.nanos ≤ t'.nanos

/-- Add milliseconds; none if the point is beyond the range. -/
def checkedAdd (t : Timespec) (ms : ℕ) : Option Timespec :=
  let secs := t.secs + (ms / 1000 : ℕ)
  let nanos := t.nanos + ms % 1000 * 1000000
  if hsecs : secs < 2 ^ 63 then
    if hnanos : nanos < 1000000000 then
      some ⟨secs, nanos, by have := t.secs_ge; omega, hsecs, hnanos⟩
    else if hcarry : secs + 1 < 2 ^ 63 then
      some ⟨secs + 1, nanos - 1000000000, by have := t.secs_ge; omega, hcarry,
        by have := t.nanos_lt; omega⟩
    else none
  else none

/-- The milliseconds from the beginning of the range. -/
def tick (t : Timespec) : ℕ := (t.secs + 2 ^ 63).toNat * 1000 + t.nanos / 1000000

/-- The milliseconds of the range. -/
def ticks : ℕ := 2 ^ 64 * 1000

variable {t t' : Timespec} {ms ms' : ℕ}

theorem le_refl (t : Timespec) : t.Le t := .inr ⟨rfl, Nat.le_refl _⟩

theorem tick_mono (h : t.Le t') : t.tick ≤ t'.tick := by
  have hge := t.secs_ge
  have hnanos := t.nanos_lt
  unfold tick
  rcases h with h | ⟨hsecs, h⟩
  · omega
  · rw [hsecs]
    omega

/-- A span moves a point by as many ticks. -/
theorem tick_of_checkedAdd (h : t.checkedAdd ms = some t') : t'.tick = t.tick + ms := by
  have hge := t.secs_ge
  have hlt := t.nanos_lt
  unfold checkedAdd at h
  dsimp only at h
  split at h
  · split at h
    · obtain rfl := Option.some.inj h
      simp only [tick]
      omega
    · split at h
      · obtain rfl := Option.some.inj h
        simp only [tick]
        omega
      · cases h
  · cases h

/-- **When a span fits.** -/
theorem isSome_checkedAdd_iff : (t.checkedAdd ms).isSome = true ↔ t.tick + ms < ticks := by
  have hge := t.secs_ge
  have hlt := t.secs_lt
  have hnanos := t.nanos_lt
  unfold checkedAdd tick ticks
  dsimp only
  split
  · split
    · exact iff_of_true rfl (by omega)
    · split
      · exact iff_of_true rfl (by omega)
      · exact iff_of_false (by simp) (by omega)
  · exact iff_of_false (by simp) (by omega)

/-- Whole seconds fit if they can be added to those of the point. -/
theorem tick_add_lt_ticks_iff {secs : ℕ} :
    t.tick + secs * 1000 < ticks ↔ t.secs + secs < 2 ^ 63 := by
  have hge := t.secs_ge
  have hnanos := t.nanos_lt
  unfold tick ticks
  omega

/-- What fits at a point fits before it, and so does less. -/
theorem fits_of_le (h : t.Le t') (hms : ms ≤ ms') (hfits : t'.tick + ms' < ticks) :
    ∃ later, t.checkedAdd ms = some later ∧ later.tick = t.tick + ms := by
  have hmono := tick_mono h
  obtain ⟨later, hlater⟩ := Option.isSome_iff_exists.mp
    (isSome_checkedAdd_iff.mpr (show t.tick + ms < ticks by omega))
  exact ⟨later, hlater, tick_of_checkedAdd hlater⟩

end Timespec
