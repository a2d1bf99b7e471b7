import Robins.Anchor.Backoff
import Robins.Chain.Registry
import Robins.Gateway.Config
import Robins.Pipeline.Tracking

/-!
# The three back-offs of the gateway

Three tasks of the gateway repeat what failed after a wait that doubles up to a bound: the anchor,
the supervisor of a connection, and the pipeline in front of a required sink.  They compute it in
three ways, and all three are compared with the same law, the one of `CappedGrowth`: so many
doublings of the first delay, or the bound.

* The supervisor takes a power of two that saturates far above its bound, so it follows the law
  however long a failure lasts (`retryDelay_eq_capped`).
* The pipeline keeps its last delay and doubles that; each is the law's next (`delay_of_exec`).
* The anchor shifts by at most 16, and follows the law only if its configuration keeps the two
  bounds within a factor of 65536.  The configuration has other checks on the two, but not this
  one (`Config.Valid.retryPolicy_lawful`).

The first two are said of runs, since the delay is part of the state there; the third is read off
what is known of the anchor's runs.
-/

namespace Robins

open CappedGrowth

namespace Gateway

/-! ## The delays a configuration asks for -/

/-- The back-off of the anchor, as `app` makes it from the `[blockchain]` section. -/
def BlockchainConfig.retryPolicy (blockchain : BlockchainConfig) : Anchor.RetryPolicy :=
  ⟨.ofSecs blockchain.retryMinSecs, .ofSecs blockchain.retryMaxSecs⟩

variable {crates : TextCrates} {config : Config}

/-- What the checks promise of the two bounds. -/
theorem BlockchainConfig.retry_bounds {blockchain : BlockchainConfig}
    {storagePath : Option String} (h : blockchain.validate storagePath = .ok ())
    (henabled : blockchain.enabled = true) :
    0 < blockchain.retryMinSecs ∧ blockchain.retryMinSecs ≤ blockchain.retryMaxSecs := by
  rw [BlockchainConfig.validate, if_pos henabled] at h
  simp only [bind_eq_ok_iff, refuseIf_eq_ok_iff, not_or] at h
  obtain ⟨-, -, -, hmin, hmax⟩ := h
  exact ⟨Nat.pos_of_ne_zero hmin, Nat.le_of_not_lt hmax⟩

/-- No number of seconds is beyond the range of a duration. -/
theorem ofSecs_le_durationMax {secs : ℕ} (h : secs < 2 ^ 64) :
    Duration.ofSecs secs ≤ Anchor.durationMax := by
  show secs * 1000 ≤ (2 ^ 64 - 1) * 1000 + 999
  omega

/-- **The anchor of a checked configuration** keeps the law exactly when the longest delay is
at most 65536 times the shortest. -/
theorem Config.Valid.retryPolicy_lawful (h : config.Valid crates)
    (henabled : config.blockchain.enabled = true)
    (hbits : config.blockchain.retryMaxSecs < 2 ^ 64) :
    config.blockchain.retryPolicy.Lawful ↔
      config.blockchain.retryMaxSecs ≤ config.blockchain.retryMinSecs * 65536 := by
  obtain ⟨-, -, -, -, -, hblockchain⟩ := Config.valid_iff.mp h
  obtain ⟨hpos, hle⟩ := BlockchainConfig.retry_bounds hblockchain henabled
  have hmax : config.blockchain.retryPolicy.max ≤ Anchor.durationMax := ofSecs_le_durationMax hbits
  have hreach : config.blockchain.retryPolicy.max ≤ config.blockchain.retryPolicy.min * 2 ^ 16 ↔
      config.blockchain.retryMaxSecs ≤ config.blockchain.retryMinSecs * 65536 := by
    show config.blockchain.retryMaxSecs * 1000 ≤ config.blockchain.retryMinSecs * 1000 * 2 ^ 16 ↔ _
    omega
  rw [← hreach]
  exact ⟨fun hlaw => hlaw.max_le hmax, Anchor.RetryPolicy.lawful_of_le
    (Nat.mul_pos hpos (by decide)) (Nat.mul_le_mul_right 1000 hle) hmax⟩

/-- A bound of more than a day passes the checks. -/
example : (BlockchainConfig.mk true none (some "anchor.key") (some 1) 1 100000).validate
    (some "gateway.redb") = .ok () := rfl

end Gateway

namespace Chain

/-! ## The supervisor of a connection -/

/-- The delay follows the law: the power of two saturates above the bound. -/
theorem retryDelay_eq_capped (failures : UInt32) :
    retryDelay failures = capped (doubling retryMin) retryMax failures.toNat := by
  rw [retryDelay, ← Nat.mul_min_mul_left]
  exact capped_bounded (by decide)

/-- **The waits of a supervisor** follow the law: it waits only after a failure, as long as the
number of failures before it says. -/
theorem delay_of_supervise {C : Type} {slot slot' : Slot C} {e : Supervision C} {failures : UInt32}
    {delay : Duration} (h : slot.supervise e = some slot')
    (hwaits : slot'.supervisor = .backoff failures delay) :
    ∃ before, slot.supervisor = .connecting before ∧
      delay = capped (doubling retryMin) retryMax before.toNat := by
  cases e with
  | connected result =>
    simp only [Slot.supervise] at h
    split at h
    · rw [← Option.some.inj h] at hwaits
      exact absurd hwaits (by simp)
    · rw [← Option.some.inj h] at hwaits
      exact absurd hwaits (by simp)
    · next before message hsupervisor =>
      rw [← Option.some.inj h] at hwaits
      obtain ⟨-, rfl⟩ := Supervisor.backoff.inj hwaits
      exact ⟨before, hsupervisor, retryDelay_eq_capped before⟩
    · exact absurd h (by simp)
  | lost =>
    simp only [Slot.supervise] at h
    split at h
    · rw [← Option.some.inj h] at hwaits
      exact absurd hwaits (by simp [Slot.start])
    · exact absurd h (by simp)
  | slept =>
    simp only [Slot.supervise] at h
    split at h
    · rw [← Option.some.inj h] at hwaits
      exact absurd hwaits (by simp)
    · exact absurd h (by simp)

end Chain

namespace Pipeline

open Protocol

/-! ## The pipeline before a required sink -/

/-- The bounds of the back-off are `retry`, and a delivery under way waits as long as the law
says for some number of failures. -/
structure State.Waits (retry : Duration × Duration) (s : State) : Prop where
  requiredRetry_eq : s.pipeline.requiredRetry = retry
  delay_eq : ∀ d, s.control.delivery? = some d →
    ∃ n, d.delay = capped (doubling retry.1) retry.2 n

section

variable {verify : Ed25519Verify} {sha256 : Sha256} {retry : Duration × Duration} {s s' : State}
  {d : Delivery} {e : Event} {o : List Observation}

theorem State.Waits.of_idle (hretry : s.pipeline.requiredRetry = retry)
    (hidle : s.control.delivery? = none) : s.Waits retry :=
  ⟨hretry, fun d hd => absurd (hidle.symm.trans hd) (by simp)⟩

theorem State.waits_proceed (hretry : s.pipeline.requiredRetry = retry) (rest : Remaining) :
    (s.proceed rest).Waits retry :=
  .of_idle (by rw [pipeline_proceed, hretry]) (delivery?_proceed s rest)

/-- A delivery comes to its next sink with the first delay. -/
theorem State.waits_fanOut (hle : retry.1 ≤ retry.2) (hretry : s.pipeline.requiredRetry = retry)
    (hd : d.delay = retry.1) : (s.fanOut sha256 d).1.Waits retry := by
  unfold State.fanOut
  dsimp only
  split_ifs
  · refine ⟨hretry, fun d' hd' => ⟨0, ?_⟩⟩
    obtain rfl := Option.some.inj hd'
    rw [hd, capped, doubling_zero, min_eq_left hle]
  · exact waits_proceed hretry _
  · refine waits_proceed ?_ _
    exact hretry

theorem State.waits_decide (hle : retry.1 ≤ retry.2) (hretry : s.pipeline.requiredRetry = retry)
    (now : Instant) (v : Verified) (rest : Remaining) :
    (s.decide sha256 now v rest).1.Waits retry := by
  unfold State.decide State.accept
  dsimp only
  split
  · split_ifs
    · exact waits_fanOut hle hretry (congrArg Prod.fst hretry)
    · refine waits_proceed ?_ _
      exact hretry
  · exact waits_proceed hretry _
  · exact waits_proceed hretry _

theorem State.Waits.step (hle : retry.1 ≤ retry.2) (hs : s.Waits retry)
    (hmove : Move verify sha256 s e s' o) : s'.Waits retry := by
  have hretry := hs.requiredRetry_eq
  have hfirst : s.pipeline.requiredRetry.1 = retry.1 := congrArg Prod.fst hretry
  cases hmove with
  | requestShutdown => exact ⟨hretry, hs.delay_eq⟩
  | stop hcontrol hshutdown => exact .of_idle hretry rfl
  | resolve hcontrol hresolve =>
    obtain ⟨⟨sensorId, _⟩, -, hresolve⟩ := Option.bind_eq_some_iff.mp hresolve
    obtain ⟨⟨resolution, stage⟩, -, hresolve⟩ := Option.bind_eq_some_iff.mp hresolve
    obtain ⟨rfl, -⟩ := Prod.mk.inj (Option.some.inj hresolve)
    refine waits_proceed ?_ _
    exact hretry
  | reject hcontrol herror => exact .of_idle hretry (delivery?_loop s)
  | take hcontrol hverified => exact .of_idle hretry rfl
  | close hcontrol => exact .of_idle hretry (delivery?_loop _)
  | @admission v ids known admission stage hcontrol hadmission =>
    cases admission with
    | decided allowed message =>
      show (State.proceed { s with stage } ⟨.ok allowed, [message], none⟩).Waits retry
      exact waits_proceed (s := { s with stage }) hretry _
    | parked => exact .of_idle hretry (delivery?_loop _)
    | overflow message => exact .of_idle hretry rfl
  | abandon hcontrol hshutdown => exact .of_idle hretry (delivery?_loop s)
  | handle hcontrol => exact waits_decide hle hretry _ _ _
  | failed hcontrol hsink hrequired =>
    refine ⟨hretry, fun d' hd' => hs.delay_eq d' ?_⟩
    rw [hcontrol]
    exact hd'
  | passed hcontrol hsink hdone => exact waits_fanOut hle hretry hfirst
  | @slept d hcontrol =>
    refine ⟨hretry, fun d' hd' => ?_⟩
    obtain rfl := Option.some.inj hd'
    obtain ⟨n, hn⟩ := hs.delay_eq d (by rw [hcontrol]; rfl)
    refine ⟨n + 1, ?_⟩
    rw [← capped_doubling_succ, ← hn, ← hretry]
    rfl
  | giveUp hcontrol hshutdown => exact waits_fanOut hle hretry hfirst

end

/-- **The waits of the pipeline** follow the law, in every run: none is shorter than the first,
none longer than the bound, and each is the first doubled some number of times, or the bound. -/
theorem delay_of_exec (verify : Ed25519Verify) (sha256 : Sha256) (p : Pipeline)
    (hle : p.requiredRetry.1 ≤ p.requiredRetry.2) {es : List Event} {s : State}
    {h : List Observation} {d : Delivery}
    (hrun : (pipelineMachine verify sha256).exec (.start p) es = some (s, h))
    (hcontrol : s.control = .backoff d) :
    ∃ n, d.delay = capped (doubling p.requiredRetry.1) p.requiredRetry.2 n ∧
      p.requiredRetry.1 ≤ d.delay ∧ d.delay ≤ p.requiredRetry.2 := by
  have hwaits : s.Waits p.requiredRetry :=
    EventMachine.exec_induction (P := fun _ _ s => s.Waits p.requiredRetry) (.of_idle rfl rfl)
      (fun _ _ _ _ _ _ _ hs hstep => hs.step hle (move_of_pipelineStep hstep)) hrun
  obtain ⟨n, hn⟩ := hwaits.delay_eq d (by rw [hcontrol]; rfl)
  refine ⟨n, hn, ?_, ?_⟩
  · rw [hn]
    exact le_capped_doubling hle n
  · rw [hn]
    exact capped_le_cap

end Pipeline
end Robins
