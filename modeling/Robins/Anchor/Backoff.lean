import Robins.Lib.CappedGrowth
import Robins.Anchor.Worker

/-!
# How long the anchor waits

The delay after a transient failure is meant to be `min`, doubled once for each failure before
it, or `max` if that is less (`RetryPolicy.Lawful`).  `RetryPolicy.delay` takes the power of two
from a shift of a 32-bit number, and stops the shift at 16, lest it overflow.

## The law

Up to attempt 16 the shift is the power of two, and the delay is what the law says
(`delay_eq_iff` says so of each single attempt).  From there on the delay stays where it is.  So
the law holds of all attempts exactly if nothing is left to double by then, that is, if 16
doublings of `min` reach `max` (`lawful_iff`).  The policy used where none is given is such a
one; from one second up to more than a day is not, and there the delay grows to `min * 2^16` and
never to `max`.

The comparison with the law goes through `CappedGrowth`, which knows nothing of durations: a
bound that growth reaches at all is reached by the step at which it would be passed.

## The waits of a run

A run waits in one place only: after a transient failure of an attempt in flight
(`backoff_of_anchorStep`).  The counter of failures goes up with each and starts anew with the
next operation, so every wait is one of the delays of the policy (`retryAfter_of_exec`), and none
is longer than what the shift gives (`delay_of_exec`).  `exec_failures` reads this forwards: a
store that stays away for any number of attempts costs exactly the delays of the policy, one
after another, and the anchor never gives up on it.
-/

namespace Robins
namespace Anchor

open BatchStore CappedGrowth

/-! ## The law -/

/-- The law of a back-off: `min * 2^attempt`, capped at `max`, and what follows from it. -/
structure RetryPolicy.Lawful (retry : RetryPolicy) : Prop where
  delay_eq : ∀ attempt : UInt32,
    retry.delay attempt = Min.min retry.max (retry.min * 2 ^ attempt.toNat)
  monotone : ∀ attempt attempt' : UInt32, attempt ≤ attempt' →
    retry.delay attempt ≤ retry.delay attempt'
  min_le : ∀ attempt, retry.min ≤ retry.delay attempt
  le_max : ∀ attempt, retry.delay attempt ≤ retry.max
  /-- After finitely many attempts the delay is `max`, and stays there. -/
  reaches : ∃ attempt : UInt32, ∀ attempt', attempt ≤ attempt' →
    retry.delay attempt' = retry.max

/-- The shift never leaves its 32 bits. -/
theorem toNat_shift (attempt : UInt32) :
    ((1 : UInt32) <<< Min.min attempt 16).toNat = 2 ^ min attempt.toNat 16 := by
  have hmin : (Min.min attempt 16).toNat = min attempt.toNat 16 := by
    show (if attempt ≤ 16 then attempt else 16).toNat = min attempt.toNat 16
    split_ifs with h
    · exact (min_eq_left (UInt32.le_iff_toNat_le.mp h)).symm
    · have h16 : 16 ≤ attempt.toNat := Nat.le_of_not_le (UInt32.le_iff_toNat_le.not.mp h)
      exact (min_eq_right h16).symm
  have hle : min attempt.toNat 16 ≤ 16 := min_le_right _ _
  have hpow : 2 ^ min attempt.toNat 16 < 2 ^ 32 :=
    Nat.pow_lt_pow_right Nat.one_lt_two (by omega)
  rw [UInt32.toNat_shiftLeft, hmin, Nat.mod_eq_of_lt (by omega : min attempt.toNat 16 < 32),
    Nat.shiftLeft_eq, UInt32.toNat_one, one_mul, Nat.mod_eq_of_lt hpow]

section

variable {retry : RetryPolicy} {attempt attempt' : UInt32}

/-- The delay follows the law for as many attempts as the shift does. -/
theorem RetryPolicy.delay_eq_capped (hmax : retry.max ≤ durationMax) (attempt : UInt32) :
    retry.delay attempt = capped (doubling retry.min) retry.max (Min.min attempt.toNat 16) := by
  rw [RetryPolicy.delay, toNat_shift]
  exact capped_bounded hmax

theorem RetryPolicy.law_eq_capped (n : ℕ) :
    Min.min retry.max (retry.min * 2 ^ n) = capped (doubling retry.min) retry.max n :=
  min_comm _ _

/-- One delay, compared with the law. -/
theorem RetryPolicy.delay_eq_iff (hmin : 0 < retry.min) (hmax : retry.max ≤ durationMax)
    (attempt : UInt32) :
    retry.delay attempt = Min.min retry.max (retry.min * 2 ^ attempt.toNat) ↔
      attempt ≤ 16 ∨ retry.max ≤ retry.min * 2 ^ 16 := by
  rw [delay_eq_capped hmax, law_eq_capped, capped_stopped_eq_iff (strictMono_doubling hmin),
    UInt32.le_iff_toNat_le]
  rfl

theorem RetryPolicy.delay_le_max (attempt : UInt32) : retry.delay attempt ≤ retry.max :=
  min_le_right _ _

theorem RetryPolicy.min_le_delay (hle : retry.min ≤ retry.max) (hmax : retry.max ≤ durationMax)
    (attempt : UInt32) : retry.min ≤ retry.delay attempt := by
  rw [delay_eq_capped hmax]
  exact le_capped_doubling hle _

theorem RetryPolicy.delay_mono (hmax : retry.max ≤ durationMax) (h : attempt ≤ attempt') :
    retry.delay attempt ≤ retry.delay attempt' := by
  rw [delay_eq_capped hmax, delay_eq_capped hmax]
  exact monotone_capped monotone_doubling
    (min_le_min_right 16 (UInt32.le_iff_toNat_le.mp h))

/-- The delay never grows beyond what the shift gives. -/
theorem RetryPolicy.delay_le_shift (hmax : retry.max ≤ durationMax) (attempt : UInt32) :
    retry.delay attempt ≤ retry.min * 2 ^ 16 := by
  rw [delay_eq_capped hmax]
  exact capped_le.trans (monotone_doubling (min_le_right _ _))

/-- Where 16 doublings reach the bound, the law holds. -/
theorem RetryPolicy.lawful_of_le (hmin : 0 < retry.min) (hle : retry.min ≤ retry.max)
    (hmax : retry.max ≤ durationMax) (hreach : retry.max ≤ retry.min * 2 ^ 16) :
    retry.Lawful where
  delay_eq attempt := (delay_eq_iff hmin hmax attempt).mpr (.inr hreach)
  monotone _ _ h := delay_mono hmax h
  min_le := min_le_delay hle hmax
  le_max := delay_le_max
  reaches := by
    refine ⟨16, fun attempt h => ?_⟩
    have h16 : (16 : ℕ) ≤ attempt.toNat := UInt32.le_iff_toNat_le.mp h
    rw [delay_eq_capped hmax, min_eq_right h16]
    exact capped_eq_cap_iff.mpr hreach

/-- A bound that is reached at all is reached by 16 doublings. -/
theorem RetryPolicy.Lawful.max_le (h : retry.Lawful) (hmax : retry.max ≤ durationMax) :
    retry.max ≤ retry.min * 2 ^ 16 := by
  obtain ⟨attempt, hreaches⟩ := h.reaches
  calc retry.max = retry.delay attempt := (hreaches attempt (UInt32.le_refl attempt)).symm
    _ ≤ retry.min * 2 ^ 16 := delay_le_shift hmax attempt

end

/-- **Which policies keep the law.**  A single delay is what the law says up to attempt 16; all
delays are, and with it all the rest of the law holds, exactly when the bound is within 16
doublings. -/
theorem RetryPolicy.lawful_iff (retry : RetryPolicy) (hmin : 0 < retry.min)
    (hle : retry.min ≤ retry.max) (hmax : retry.max ≤ durationMax) :
    (∀ attempt : UInt32,
      retry.delay attempt = Min.min retry.max (retry.min * 2 ^ attempt.toNat) ↔
        attempt ≤ 16 ∨ retry.max ≤ retry.min * 2 ^ 16) ∧
    (retry.Lawful ↔ retry.max ≤ retry.min * 2 ^ 16) :=
  ⟨delay_eq_iff hmin hmax, fun h => h.max_le hmax, lawful_of_le hmin hle hmax⟩

/-- The back-off used where none is given. -/
theorem RetryPolicy.default_lawful :
    (∀ attempt : UInt32, RetryPolicy.default.delay attempt =
      Min.min RetryPolicy.default.max (RetryPolicy.default.min * 2 ^ attempt.toNat)) ∧
    RetryPolicy.default.Lawful := by
  have hlaw := (RetryPolicy.lawful_iff .default (by decide) (by decide) (by decide)).2.mpr
    (by decide)
  exact ⟨hlaw.delay_eq, hlaw⟩

/-- From one second up to more than a day: at attempt 17 the delay is where it was at 16, below
what the law says, and it does not grow any more. -/
theorem RetryPolicy.not_lawful :
    RetryPolicy.delay ⟨.ofSecs 1, .ofSecs 100000⟩ 17 = .ofSecs 65536 ∧
      Min.min (Duration.ofSecs 100000) (Duration.ofSecs 1 * 2 ^ 17) = .ofSecs 100000 ∧
      ¬ RetryPolicy.Lawful ⟨.ofSecs 1, .ofSecs 100000⟩ := by
  refine ⟨by decide, by decide, fun h => ?_⟩
  exact absurd (h.max_le (by decide)) (by decide)

/-! ## The waits of a run -/

section

variable {anchor : Anchor} {s s' : State} {e : Event} {o : List Observation}

theorem anchorPage_ne_backoff (page : List StoredBatch) {task : Task} {attempt : UInt32}
    {delay : Duration} : anchorPage page ≠ .backoff task attempt delay := by
  cases page <;> simp [anchorPage]

/-- A submission that failed waits only after a transient error. -/
theorem backoff_of_submissionFailed {batch : StoredBatch} {rest : List StoredBatch}
    {failures : UInt32} {error : AnchorError} {task : Task} {attempt : UInt32} {delay : Duration}
    (h : (anchor.submissionFailed batch rest failures error).1 = .backoff task attempt delay) :
    error.isTransient = true ∧
      anchor.retryAfter (.submit batch rest) failures = .backoff task attempt delay := by
  unfold Anchor.submissionFailed at h
  split_ifs at h with htransient
  exact ⟨htransient, h⟩

/-- No wait begins before an attempt is in flight: a batch that is refused is refused for good. -/
theorem attempt_ne_backoff {task task' : Task} {failures attempt : UInt32} {delay : Duration} :
    (anchor.attempt s task failures).1.control ≠ .backoff task' attempt delay := by
  unfold Anchor.attempt
  split_ifs
  · simp
  · cases task with
    | load => simp
    | confirm batch rest => simp
    | submit batch rest =>
      dsimp only
      split
      · next error hrefuse =>
        intro h
        have htransient := (backoff_of_submissionFailed h).1
        rw [anchor.refuse_permanent hrefuse] at htransient
        exact absurd htransient (by decide)
      · simp

/-- **How a wait begins**: an attempt in flight has failed. -/
theorem backoff_of_anchorStep (hstep : anchorStep anchor s e = some (s', o)) {task : Task}
    {attempt : UInt32} {delay : Duration} (h : s'.control = .backoff task attempt delay) :
    s.control = .backoff task attempt delay ∨
      ∃ failures, s.control = .running task failures ∧
        anchor.retryAfter task failures = .backoff task attempt delay := by
  -- the operation that waits is the one that has failed
  have hfailed : ∀ task' failures, s.control = .running task' failures →
      anchor.retryAfter task' failures = .backoff task attempt delay →
        ∃ failures, s.control = .running task failures ∧
          anchor.retryAfter task failures = .backoff task attempt delay := by
    intro task' failures hrunning hretry
    obtain ⟨rfl, -, -⟩ := Control.backoff.inj hretry
    exact ⟨failures, hrunning, hretry⟩
  unfold anchorStep at hstep
  split at hstep
  · split at hstep
    · obtain ⟨rfl, rfl⟩ := Prod.mk.inj (Option.some.inj hstep)
      exact .inl h
    · obtain ⟨rfl, rfl⟩ := Prod.mk.inj (Option.some.inj hstep)
      exact .inl h
  · split_ifs at hstep
    obtain ⟨rfl, rfl⟩ := Prod.mk.inj (Option.some.inj hstep)
    exact .inl h
  · obtain ⟨rfl, rfl⟩ := Prod.mk.inj (Option.some.inj hstep)
    exact .inl h
  · split_ifs at hstep
    obtain ⟨rfl, rfl⟩ := Prod.mk.inj (Option.some.inj hstep)
    exact .inl h
  · obtain ⟨rfl, rfl⟩ := Prod.mk.inj (Option.some.inj hstep)
    exact absurd h (by simp [State.start])
  · obtain ⟨rfl, rfl⟩ := Prod.mk.inj (Option.some.inj hstep)
    exact absurd h attempt_ne_backoff
  · next failures hcontrol =>
    split at hstep
    · obtain ⟨rfl, rfl⟩ := Prod.mk.inj (Option.some.inj hstep)
      exact .inr (hfailed _ _ hcontrol h)
    · obtain ⟨rfl, rfl⟩ := Prod.mk.inj (Option.some.inj hstep)
      exact absurd h (by simp)
    · next batch rest hload =>
      obtain ⟨rfl, rfl⟩ := Prod.mk.inj (Option.some.inj hstep)
      exact absurd h (anchorPage_ne_backoff (batch :: rest))
  · obtain ⟨rfl, rfl⟩ := Prod.mk.inj (Option.some.inj hstep)
    exact absurd h (by simp)
  · next hcontrol =>
    obtain ⟨rfl, rfl⟩ := Prod.mk.inj (Option.some.inj hstep)
    exact .inr (hfailed _ _ hcontrol (backoff_of_submissionFailed h).2)
  · obtain ⟨rfl, rfl⟩ := Prod.mk.inj (Option.some.inj hstep)
    exact absurd h (anchorPage_ne_backoff _)
  · next hcontrol =>
    obtain ⟨rfl, rfl⟩ := Prod.mk.inj (Option.some.inj hstep)
    exact .inr (hfailed _ _ hcontrol h)
  · next hcontrol =>
    obtain ⟨rfl, rfl⟩ := Prod.mk.inj (Option.some.inj hstep)
    exact .inr (hfailed _ _ hcontrol h)
  · split_ifs at hstep
    obtain ⟨rfl, rfl⟩ := Prod.mk.inj (Option.some.inj hstep)
    exact absurd h (by simp)
  · obtain ⟨rfl, rfl⟩ := Prod.mk.inj (Option.some.inj hstep)
    exact absurd h (by simp)
  · obtain ⟨rfl, rfl⟩ := Prod.mk.inj (Option.some.inj hstep)
    exact absurd h (by simp)
  · split_ifs at hstep
    obtain ⟨rfl, rfl⟩ := Prod.mk.inj (Option.some.inj hstep)
    exact absurd h (by simp)
  · split_ifs at hstep
    obtain ⟨rfl, rfl⟩ := Prod.mk.inj (Option.some.inj hstep)
    exact absurd h (by simp)
  · exact absurd hstep (by simp)

/-- Every wait of a run is one of the delays of the policy. -/
theorem retryAfter_of_exec {t₀ : Tables} {es : List Event} {h : List Observation}
    (hrun : (anchorMachine anchor).exec (.start t₀) es = some (s, h)) :
    ∀ task attempt delay, s.control = .backoff task attempt delay →
      ∃ failures, anchor.retryAfter task failures = .backoff task attempt delay := by
  refine EventMachine.exec_induction (P := fun _ _ s => ∀ task attempt delay,
    s.control = .backoff task attempt delay →
      ∃ failures, anchor.retryAfter task failures = .backoff task attempt delay) ?_ ?_ hrun
  · intro task attempt delay hcontrol
    exact absurd hcontrol (by simp [State.start])
  · intro es h s e s' o hrun ih hstep task attempt delay hcontrol
    rcases backoff_of_anchorStep hstep hcontrol with hbefore | ⟨failures, -, hretry⟩
    · exact ih task attempt delay hbefore
    · exact ⟨failures, hretry⟩

/-- **The waits of a run.**  None is shorter than the policy says, and none longer than its bound
or than what the shift gives, whatever fails and how often. -/
theorem delay_of_exec {t₀ : Tables} {es : List Event} {h : List Observation} {task : Task}
    {attempt : UInt32} {delay : Duration} (hle : anchor.retry.min ≤ anchor.retry.max)
    (hmax : anchor.retry.max ≤ durationMax)
    (hrun : (anchorMachine anchor).exec (.start t₀) es = some (s, h))
    (hcontrol : s.control = .backoff task attempt delay) :
    anchor.retry.min ≤ delay ∧ delay ≤ anchor.retry.max ∧ delay ≤ anchor.retry.min * 2 ^ 16 := by
  obtain ⟨failures, hretry⟩ := retryAfter_of_exec hrun task attempt delay hcontrol
  obtain ⟨-, -, rfl⟩ := Control.backoff.inj hretry
  exact ⟨RetryPolicy.min_le_delay hle hmax failures, RetryPolicy.delay_le_max failures,
    RetryPolicy.delay_le_shift hmax failures⟩

/-! ### Failures in a row -/

/-- `attempt`, after so many failures. -/
def attemptAfter (failures : ℕ) : UInt32 := UInt32.ofNat (min failures (2 ^ 32 - 1))

theorem toNat_attemptAfter (failures : ℕ) :
    (attemptAfter failures).toNat = min failures (2 ^ 32 - 1) := by
  have hsize : UInt32.size = 2 ^ 32 := rfl
  exact UInt32.toNat_ofNat_of_lt (by omega)

/-- The counter goes up until it is at its end. -/
theorem retryAfter_attemptAfter (task : Task) (failures : ℕ) :
    anchor.retryAfter task (attemptAfter failures) =
      .backoff task (attemptAfter (failures + 1)) (anchor.retry.delay (attemptAfter failures)) := by
  have hcount := toNat_attemptAfter failures
  have hcount' := toNat_attemptAfter (failures + 1)
  rw [Anchor.retryAfter]
  congr 1
  rcases Nat.lt_or_ge failures (2 ^ 32 - 1) with hlt | hge
  · have hne : attemptAfter failures ≠ UInt32.ofNat (2 ^ 32 - 1) := by
      intro hend
      rw [hend] at hcount
      have : (UInt32.ofNat (2 ^ 32 - 1)).toNat = 2 ^ 32 - 1 := rfl
      omega
    rw [if_neg hne]
    refine UInt32.toNat_inj.mp ?_
    rw [UInt32.toNat_add, hcount, hcount', UInt32.toNat_one]
    omega
  · have hend : ∀ n, 2 ^ 32 - 1 ≤ n → attemptAfter n = UInt32.ofNat (2 ^ 32 - 1) := by
      intro n hn
      rw [attemptAfter, min_eq_right hn]
    rw [hend failures hge, hend (failures + 1) (Nat.le_succ_of_le hge), if_pos rfl]

/-- A read of the page that fails: the attempt, its failure, and the wait after it. -/
def failedLoad (error : StoreError) : List Event := [.attempt, .storeFailed error, .slept]

/-- A failed attempt at the page is followed by the wait of the policy. -/
theorem exec_failedAttempt {failures : ℕ} (hrunning : s.shutdown.isTriggered = false)
    (hcontrol : s.control = .check .load (attemptAfter failures)) (error : StoreError) :
    (anchorMachine anchor).exec s [.attempt, .storeFailed error] = some
      ({ s with
          control := .backoff .load (attemptAfter (failures + 1))
            (anchor.retry.delay (attemptAfter failures)) }, []) := by
  have hattempt : anchorStep anchor s .attempt =
      some ({ s with control := .running .load (attemptAfter failures) }, []) := by
    simp [anchorStep, hcontrol, Anchor.attempt, hrunning]
  refine EventMachine.exec_cons_eq_some_iff.mpr ⟨_, _, [], hattempt, ?_, rfl⟩
  refine EventMachine.exec_cons_eq_some_iff.mpr ⟨_, _, [], rfl, ?_, rfl⟩
  rw [EventMachine.exec_nil, retryAfter_attemptAfter]

/-- However often the page cannot be read, it is tried again. -/
theorem exec_failedLoads (hrunning : s.shutdown.isTriggered = false)
    (hcontrol : s.control = .check .load 0) (errors : List StoreError) :
    (anchorMachine anchor).exec s (errors.flatMap failedLoad) =
      some ({ s with control := .check .load (attemptAfter errors.length) }, []) := by
  induction errors using List.reverseRecOn with
  | nil =>
    show some (s, []) = some ({ s with control := .check .load 0 }, [])
    rw [← hcontrol]
  | append_singleton errors error ih =>
    have hround : failedLoad error = [.attempt, .storeFailed error] ++ [.slept] := rfl
    rw [List.flatMap_append, List.flatMap_singleton, List.length_append, hround]
    refine EventMachine.exec_append_eq_some_iff.mpr ⟨_, [], [], ih, ?_, rfl⟩
    exact EventMachine.exec_snoc_eq_some_iff.mpr ⟨_, [], [],
      exec_failedAttempt (s := { s with control := .check .load (attemptAfter errors.length) })
        hrunning rfl error, rfl, rfl⟩

/-- **What a store that stays away costs.**  After so many failures in a row, the next is
followed by `min` doubled as often, but no more than 16 times, or by `max`. -/
theorem exec_failures (hmax : anchor.retry.max ≤ durationMax) (t₀ : Tables)
    (errors : List StoreError) (error : StoreError) :
    (anchorMachine anchor).exec (.start t₀)
        (errors.flatMap failedLoad ++ [.attempt, .storeFailed error]) = some
      ({ State.start t₀ with
          control := .backoff .load (attemptAfter (errors.length + 1))
            (capped (doubling anchor.retry.min) anchor.retry.max (min errors.length 16)) },
        []) := by
  have hcount : min (attemptAfter errors.length).toNat 16 = min errors.length 16 := by
    rw [toNat_attemptAfter]
    omega
  rw [← hcount, ← RetryPolicy.delay_eq_capped hmax]
  exact EventMachine.exec_append_eq_some_iff.mpr
    ⟨_, [], [], exec_failedLoads rfl rfl errors, exec_failedAttempt rfl rfl error, rfl⟩

end

end Anchor
end Robins
