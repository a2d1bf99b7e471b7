import Robins.Lib.Timespec
import Robins.Batcher.Draining
import Robins.Gateway.Config
import Robins.Pipeline.Dedup

/-!
# Times the gateway adds up

The duplicate cache and the policy remember when an entry expires, and the batcher when it wakes
up: each adds a span of the configuration to a point of the clock.  The sum may be beyond the range
of the clock, and then the addition panics.  How long the spans are is not checked.

## The condition

`neverOverflows_iff` says up to which point of the clock no run of the tasks overflows: as long as
the spans that are in use fit after it.  Which are in use depends on the configuration.  Without an
authorization by CPS no denial is kept; without anchoring no deadline is set; and a batcher that
closes a batch at its first message never waits for one to grow old.

## The two directions

That fitting spans are enough is an induction over a run of the tasks: a step adds one of these
spans to a time that is not later (`Configured.exec`).  For the batcher this needs what is known of
a pass, that the time it answers is at most the greatest age (`wait_of_flushDue`).  That they are
necessary is shown by a run for each: the first envelope, the first denial, and the first message
that is waited for.
-/

namespace Robins
namespace Gateway

open Protocol BatchStore Pipeline

/-! ## The additions -/

/-- The additions to a point of the clock. -/
inductive Addition where
  | dedupExpiry
  | denialExpiry
  | batchDeadline
  | storeRetry
  deriving DecidableEq, Repr

/-- Add a span to a point of the clock, or panic. -/
def add (what : Addition) (now : Timespec) (d : Duration) : Except Addition Timespec :=
  match now.checkedAdd d with
  | some later => .ok later
  | none => .error what

/-- `DedupCache::insert_if_new_at` -/
def insertIfNewAt (cache : DedupCache) (id : EnvelopeId) (now : Timespec) :
    Except Addition (Bool × DedupCache) :=
  let cache := cache.pruneExpired now.tick
  if id ∈ cache.seen then .ok (false, cache)
  else
    match add .dedupExpiry now cache.ttl with
    | .error what => .error what
    | .ok expiry =>
      .ok (true, DedupCache.enforceCapacity { cache with
        seen := insert id cache.seen
        order := cache.order ++ [(id, expiry.tick)] })

/-- What is remembered of a decision made now. -/
def entry (auth : Auth.CpsAuth) (allowed : Bool) (now : Timespec) : Except Addition Auth.Entry :=
  if allowed then .ok ⟨true, none⟩
  else
    match add .denialExpiry now auth.negativeTtl with
    | .error what => .error what
    | .ok expires => .ok ⟨false, some expires.tick⟩

/-- Back-off before retrying after a store failure. -/
def storeRetryDelay : Duration := Duration.ofSecs 1

/-- When the batcher wakes up by itself, after a pass that began at `started`, and if it has
failed, did so at `failed`. -/
def deadlineAt (started failed : Timespec) :
    Except Batcher.BatchError (Option Duration) → Except Addition (Option Timespec)
  | .ok none => .ok none
  | .ok (some delay) => (add .batchDeadline started delay).map some
  | .error _ => (add .storeRetry failed storeRetryDelay).map some

/-! ## The tasks -/

/-- The state of the tasks: the duplicate cache of the pipeline, the policy with its cache if it
is by CPS, and the store and the deadline of the batcher if there is anchoring. -/
structure Tasks (caches : Auth.Caches) where
  dedup : DedupCache
  auth : Option (Auth.CpsAuth × caches.Cache)
  store : Option Tables
  deadline : Option Timespec

/-- What the tasks do. -/
inductive Event where
  /-- The pipeline sees an envelope. -/
  | sighted (id : EnvelopeId) (now : Timespec)
  /-- It could not hand an envelope over. -/
  | forgotten (id : EnvelopeId)
  /-- A lookup returned. -/
  | decided (sensor : SensorId) (allowed : Bool) (now : Timespec)
  | received (receivedAt : Timestamp) (envelope : Bytes)
  | confirmed (batch : BatchId)
  /-- The batcher flushes what is due. -/
  | passed (now : Timestamp) (clock : List Timestamp) (started failed : Timespec)

/-- Nothing of it happens after a point of the clock. -/
def Event.Until (latest : Timespec) : Event → Prop
  | .sighted _ now | .decided _ _ now => now.Le latest
  | .passed _ _ started failed => started.Le latest ∧ failed.Le latest
  | _ => True

section

variable (codecs : Batcher.Codecs) (config : Batcher.BatcherConfig) {caches : Auth.Caches}

def exec (g : Tasks caches) : Event → Except Addition (Tasks caches)
  | .sighted id now => (insertIfNewAt g.dedup id now).map fun r => { g with dedup := r.2 }
  | .forgotten id => .ok { g with dedup := g.dedup.forget id }
  | .decided sensor allowed now =>
    match g.auth with
    | none => .ok g
    | some (auth, cache) =>
      (entry auth allowed now).map fun entry =>
        { g with auth := some (auth, caches.put cache sensor entry) }
  | .received receivedAt envelope =>
    match g.store with
    | none => .ok g
    | some t =>
      match pushMessage t receivedAt envelope with
      -- the sink reports the error, and nothing is stored
      | .error _ => .ok g
      | .ok (_, t) => .ok { g with store := some t }
  | .confirmed batch => .ok { g with store := g.store.map fun t => confirmBatch t batch }
  | .passed now clock started failed =>
    match g.store with
    | none => .ok g
    | some t =>
      match Batcher.flushDue codecs config now clock t with
      -- there are more steps than times: the pass is not over
      | none => .ok g
      | some (result, t) =>
        (deadlineAt started failed result).map fun deadline =>
          { g with store := some t, deadline }

/-- A run of the tasks, until the first panic. -/
def run (g : Tasks caches) : List Event → Except Addition (Tasks caches)
  | [] => .ok g
  | e :: events =>
    match exec codecs config g e with
    | .error what => .error what
    | .ok g => run g events

end

/-- The tasks of a configuration, over a store that may have been used before. -/
def Config.start (crates : TextCrates) (config : Config) (caches : Auth.Caches) (t : Tables) :
    Except String (Tasks caches) :=
  let dedup := DedupCache.new config.pipeline.dedupCapacity
    (Duration.ofSecs config.pipeline.dedupTtlSecs)
  let store := if config.blockchain.enabled then some t else none
  if config.auth.mode = .cps then
    match config.auth.cpsAuth crates with
    | .error reason => .error reason
    | .ok auth => .ok ⟨dedup, some (auth, caches.new auth.capacity), store, none⟩
  else .ok ⟨dedup, none, store, none⟩

/-! ## Which spans fit -/

section

variable (crates : TextCrates) (codecs : Batcher.Codecs) (caches : Auth.Caches) (config : Config)

/-- No run up to a point of the clock overflows, be it when an identifier or a denial is given
its expiry, or when the deadline of a batch is set. -/
def NeverOverflows (latest : Timespec) : Prop :=
  ∀ t g events what, config.start crates caches t = .ok g → (∀ e ∈ events, e.Until latest) →
    run codecs config.batcher g events = .error what → what = .storeRetry

/-- The spans in use fit after a point of the clock.  A batch of one message is not waited
for. -/
structure Fits (latest : Timespec) : Prop where
  dedup : latest.secs + config.pipeline.dedupTtlSecs < 2 ^ 63
  denial : config.auth.mode = .cps → latest.secs + config.auth.cpsNegativeTtlSecs < 2 ^ 63
  batch : config.blockchain.enabled = true → 1 < config.batcher.maxMessages →
    latest.secs + config.batcher.maxBatchAgeSecs < 2 ^ 63

end

/-! ## What the batcher waits for -/

section

variable {codecs : Batcher.Codecs} {config : Batcher.BatcherConfig} {t t' : Tables}
  {now createdAt : Timestamp} {clock : List Timestamp} {d : Duration}

/-- Nothing is due while the batch is not full. -/
theorem length_lt_of_select {pending : List StoredMessage}
    (hlength : pending.length ≤ config.maxMessages)
    (h : (Batcher.select codecs config pending now).reason = none) :
    pending.length < config.maxMessages := by
  unfold Batcher.select at h
  dsimp only at h
  split at h
  · next hsome => exact absurd h (by rw [hsome]; simp)
  · next hnone =>
    split at h
    · cases h
    · next hcount =>
      have hlen := Batcher.selectLoop_len_of_reason codecs config pending 0 0 hnone
      omega

/-- A step waits only while a batch is not full, and not longer than a batch may be old. -/
theorem wait_of_step (h : Batcher.step codecs config t now createdAt false = .ok (.wait d, t')) :
    d ≤ config.maxBatchAge ∧ 1 < config.maxMessages := by
  unfold Batcher.step at h
  split at h
  · cases h
  next page hread =>
  have hkeys := congrArg List.length (Batcher.sequences_of_pendingMessages hread)
  rw [List.length_map, List.length_take] at hkeys
  split at h
  · cases h
  · cases h
  · next remaining hplan =>
    obtain ⟨hd, -⟩ := Prod.mk.inj (Except.ok.inj h)
    obtain rfl := Batcher.Step.wait.inj hd
    obtain ⟨-, hidle⟩ | ⟨flush, hflush⟩ | ⟨oldest, rest, rfl, -, hreason, hwait⟩ :=
      Batcher.plan_cases hplan
    · cases hidle
    · cases hflush
    · have hlt := length_lt_of_select (by omega) hreason
      rw [List.length_cons] at hlt
      obtain rfl := Batcher.Plan.wait.inj hwait
      exact ⟨Nat.sub_le _ _, by omega⟩
  · split at h <;> cases h

/-- A pass over everything due waits for the age of a batch at most. -/
theorem wait_of_flushDue
    (h : Batcher.flushDue codecs config now clock t = some (.ok (some d), t')) :
    d ≤ config.maxBatchAge ∧ 1 < config.maxMessages := by
  induction clock generalizing t with
  | nil => cases h
  | cons createdAt clock ih =>
    rw [Batcher.flushDue] at h
    split at h
    · cases h
    · exact ih h
    · next remaining tables hstep =>
      simp only [Option.some.injEq, Prod.mk.injEq, Except.ok.injEq] at h
      obtain ⟨rfl, -⟩ := h
      exact wait_of_step hstep
    · cases h

end

/-- A young message that does not fill a batch is waited for. -/
theorem flushDue_of_young {m : StoredMessage}
    (hpending : t.pendingMessages.entries = [m].map StoredMessage.entry)
    (hmany : 1 < config.maxMessages)
    (hyoung : m.receivedAt.elapsedUntil now < config.maxBatchAge) :
    Batcher.flushDue codecs config now [createdAt] t =
      some (.ok (some (config.maxBatchAge - m.receivedAt.elapsedUntil now)), t) := by
  have hpage : pendingMessages t config.maxMessages = .ok [m] := by
    rw [Batcher.pendingMessages_take hpending, List.take_of_length_le (by simp; omega)]
  have hloop : Batcher.selectLoop codecs config [m] 0 0 = ⟨1, none⟩ := by
    rw [Batcher.selectLoop, if_neg (by omega)]
    split
    · rw [if_neg (by simp), Batcher.selectLoop]
    · rw [Batcher.selectLoop]
  have hselect : Batcher.select codecs config [m] now = ⟨1, none⟩ := by
    rw [Batcher.select, hloop]
    dsimp only
    rw [if_neg (by omega)]
    show (if config.maxBatchAge ≤ m.receivedAt.elapsedUntil now then _ else _) = _
    rw [if_neg (Nat.not_le.mpr hyoung)]
  rw [Batcher.flushDue, Batcher.step, hpage]
  simp only [Batcher.plan, hselect]

/-! ## Steps -/

section

variable {crates : TextCrates} {codecs : Batcher.Codecs} {caches : Auth.Caches} {config : Config}
  {latest now : Timespec}

theorem add_ok (what : Addition) {secs : ℕ} {d : Duration} (hle : now.Le latest)
    (hfits : latest.secs + secs < 2 ^ 63) (hd : d ≤ Duration.ofSecs secs) :
    ∃ later, add what now d = .ok later ∧ later.tick = now.tick + d := by
  obtain ⟨later, hlater, htick⟩ := Timespec.fits_of_le hle hd
    (Timespec.tick_add_lt_ticks_iff.mpr hfits)
  exact ⟨later, by rw [add, hlater], htick⟩

theorem what_of_add {what what' : Addition} {d : Duration} (h : add what now d = .error what') :
    what' = what := by
  unfold add at h
  split at h
  · cases h
  · exact (Except.error.inj h).symm

theorem add_overflows {what : Addition} {secs : ℕ} (hover : ¬ latest.secs + secs < 2 ^ 63) :
    add what latest (Duration.ofSecs secs) = .error what := by
  have hnone : latest.checkedAdd (Duration.ofSecs secs) = none := by
    rw [← Option.not_isSome_iff_eq_none, Timespec.isSome_checkedAdd_iff]
    exact fun h => hover (Timespec.tick_add_lt_ticks_iff.mp h)
  rw [add, hnone]

/-- As long as its lifetime fits, an identifier is recorded as elsewhere. -/
theorem insertIfNewAt_ok {cache : DedupCache} {id : EnvelopeId} {later : Timespec}
    (h : add .dedupExpiry now cache.ttl = .ok later) (htick : later.tick = now.tick + cache.ttl) :
    insertIfNewAt cache id now = .ok (cache.insertIfNewAt id now.tick) := by
  have httl : (cache.pruneExpired now.tick).ttl = cache.ttl := rfl
  unfold insertIfNewAt
  dsimp only
  split
  · next hmem => rw [DedupCache.insertIfNewAt_of_mem hmem]
  · next hmem =>
    rw [DedupCache.insertIfNewAt_of_notMem hmem, httl, h, ← htick]
    rfl

/-- As long as the time that denials are kept fits, a decision is remembered as elsewhere. -/
theorem entry_ok {auth : Auth.CpsAuth} {allowed : Bool} {later : Timespec}
    (h : add .denialExpiry now auth.negativeTtl = .ok later)
    (htick : later.tick = now.tick + auth.negativeTtl) :
    entry auth allowed now = .ok (auth.entry allowed now.tick) := by
  cases allowed with
  | true => rfl
  | false =>
    rw [entry, if_neg Bool.false_ne_true, h, Auth.CpsAuth.entry, ← htick]
    rfl

/-- What tasks have of their configuration. -/
structure Configured (config : Config) (g : Tasks caches) : Prop where
  dedup : g.dedup.ttl = Duration.ofSecs config.pipeline.dedupTtlSecs
  auth : ∀ auth cache, g.auth = some (auth, cache) → config.auth.mode = .cps ∧
    auth.negativeTtl = Duration.ofSecs config.auth.cpsNegativeTtlSecs
  store : g.store ≠ none → config.blockchain.enabled = true

theorem configured_start (h : config.Valid crates) {t : Tables} {g : Tasks caches}
    (hstart : config.start crates caches t = .ok g) : Configured config g := by
  have hstore : (if config.blockchain.enabled = true then some t else none) ≠ none →
      config.blockchain.enabled = true := fun hne => by
    by_contra hdisabled
    exact hne (if_neg hdisabled)
  unfold Config.start at hstart
  dsimp only at hstart
  split at hstart
  · next hmode =>
    obtain ⟨auth, hauth, httl⟩ := h.exists_cpsAuth hmode
    rw [hauth] at hstart
    obtain rfl := Except.ok.inj hstart
    refine ⟨rfl, ?_, hstore⟩
    intro auth' cache heq
    obtain ⟨rfl, -⟩ := Prod.mk.inj (Option.some.inj heq)
    exact ⟨hmode, httl⟩
  · obtain rfl := Except.ok.inj hstart
    exact ⟨rfl, fun _ _ heq => absurd heq (by simp), hstore⟩

variable (codecs) in
theorem Configured.sighted {g : Tasks caches} (hg : Configured config g)
    (hfits : Fits config latest) (hle : now.Le latest) (id : EnvelopeId) :
    ∃ g', exec codecs config.batcher g (.sighted id now) = .ok g' ∧ Configured config g' := by
  obtain ⟨later, hadd, htick⟩ := add_ok .dedupExpiry hle hfits.dedup (le_of_eq hg.dedup)
  refine ⟨{ g with dedup := (g.dedup.insertIfNewAt id now.tick).2 }, ?_, ?_, hg.auth, hg.store⟩
  · rw [Gateway.exec, insertIfNewAt_ok hadd htick]
    rfl
  · rw [DedupCache.ttl_insertIfNewAt, hg.dedup]

variable (codecs) in
/-- A decision is remembered, if there is a cache. -/
theorem Configured.decided {g : Tasks caches} (hg : Configured config g)
    (hfits : Fits config latest) (hle : now.Le latest) (sensor : SensorId) (allowed : Bool) :
    ∃ g', exec codecs config.batcher g (.decided sensor allowed now) = .ok g' ∧
      Configured config g' := by
  cases hauth : g.auth with
  | none => exact ⟨g, by rw [Gateway.exec, hauth], hg⟩
  | some p =>
    obtain ⟨auth, cache⟩ := p
    obtain ⟨hmode, httl⟩ := hg.auth auth cache hauth
    obtain ⟨later, hadd, htick⟩ := add_ok .denialExpiry hle (hfits.denial hmode) (le_of_eq httl)
    refine ⟨{ g with auth := some (auth, caches.put cache sensor
      (auth.entry allowed now.tick)) }, ?_, hg.dedup, ?_, hg.store⟩
    · simp only [Gateway.exec, hauth, entry_ok hadd htick]
      rfl
    · intro auth' cache' heq
      obtain ⟨rfl, -⟩ := Prod.mk.inj (Option.some.inj heq)
      exact ⟨hmode, httl⟩

variable (codecs) in
/-- A pass sets the deadline, unless it fails and cannot be retried. -/
theorem Configured.passed {g : Tasks caches} (hg : Configured config g) (hfits : Fits config latest)
    {started failed : Timespec} (hle : started.Le latest) (wall : Timestamp)
    (clock : List Timestamp) :
    (∃ g', exec codecs config.batcher g (.passed wall clock started failed) = .ok g' ∧
        Configured config g') ∨
      exec codecs config.batcher g (.passed wall clock started failed) = .error .storeRetry := by
  cases hstore : g.store with
  | none => exact .inl ⟨g, by rw [Gateway.exec, hstore], hg⟩
  | some t =>
    have henabled := hg.store (by rw [hstore]; simp)
    cases hflush : Batcher.flushDue codecs config.batcher wall clock t with
    | none => exact .inl ⟨g, by simp only [Gateway.exec, hstore, hflush], hg⟩
    | some r =>
      obtain ⟨result, t'⟩ := r
      have hexec : exec codecs config.batcher g (.passed wall clock started failed) =
          (deadlineAt started failed result).map fun deadline =>
            { g with store := some t', deadline } := by
        simp only [Gateway.exec, hstore, hflush]
      have hkeeps : ∀ deadline, Configured config { g with store := some t', deadline } :=
        fun deadline => ⟨hg.dedup, hg.auth, fun _ => henabled⟩
      rw [hexec]
      cases result with
      | ok delay =>
        cases delay with
        | none => exact .inl ⟨_, rfl, hkeeps none⟩
        | some d =>
          obtain ⟨hd, hmany⟩ := wait_of_flushDue hflush
          obtain ⟨later, hadd, -⟩ := add_ok .batchDeadline hle (hfits.batch henabled hmany) hd
          exact .inl ⟨_, by rw [deadlineAt, hadd]; rfl, hkeeps (some later)⟩
      | error err =>
        rw [deadlineAt]
        cases hretry : add .storeRetry failed storeRetryDelay with
        | ok later => exact .inl ⟨_, rfl, hkeeps (some later)⟩
        | error what => exact .inr (by rw [what_of_add hretry]; rfl)

variable (codecs) in
/-- **One step**, at a point of the clock after which the spans fit: the tasks keep what they have
of their configuration, unless a failed pass cannot be retried. -/
theorem Configured.exec {g : Tasks caches} {e : Event} (hg : Configured config g)
    (hfits : Fits config latest) (he : e.Until latest) :
    (∃ g', exec codecs config.batcher g e = .ok g' ∧ Configured config g') ∨
      Gateway.exec codecs config.batcher g e = .error .storeRetry := by
  cases e with
  | sighted id now => exact .inl (hg.sighted codecs hfits he id)
  | forgotten id =>
    exact .inl ⟨_, rfl, by rw [DedupCache.ttl_forget, hg.dedup], hg.auth, hg.store⟩
  | decided sensor allowed now => exact .inl (hg.decided codecs hfits he sensor allowed)
  | received receivedAt envelope =>
    cases hstore : g.store with
    | none => exact .inl ⟨g, by rw [Gateway.exec, hstore], hg⟩
    | some t =>
      have henabled := hg.store (by rw [hstore]; simp)
      cases hpush : pushMessage t receivedAt envelope with
      | error err => exact .inl ⟨g, by simp only [Gateway.exec, hstore, hpush], hg⟩
      | ok r =>
        exact .inl ⟨{ g with store := some r.2 }, by simp only [Gateway.exec, hstore, hpush],
          hg.dedup, hg.auth, fun _ => henabled⟩
  | confirmed batch =>
    refine .inl ⟨_, rfl, hg.dedup, hg.auth, fun hne => hg.store fun hnone => hne ?_⟩
    show g.store.map _ = none
    rw [hnone]
    rfl
  | passed wall clock started failed => exact hg.passed codecs hfits he.1 wall clock

/-- **A run**, up to a point of the clock after which the spans fit. -/
theorem Configured.run {g : Tasks caches} {events : List Event} {what : Addition}
    (hg : Configured config g) (hfits : Fits config latest)
    (hevents : ∀ e ∈ events, e.Until latest)
    (h : run codecs config.batcher g events = .error what) : what = .storeRetry := by
  induction events generalizing g with
  | nil => cases h
  | cons e events ih =>
    rw [Gateway.run] at h
    rcases hg.exec codecs hfits (hevents e List.mem_cons_self) with
      ⟨g', hexec, hg'⟩ | hretry
    · rw [hexec] at h
      exact ih hg' (fun e' he' => hevents e' (List.mem_cons_of_mem _ he')) h
    · rw [hretry] at h
      exact (Except.error.inj h).symm

variable (caches) in
theorem exists_start (h : config.Valid crates) (t : Tables) :
    ∃ g : Tasks caches, config.start crates caches t = .ok g ∧
      g.dedup = DedupCache.new config.pipeline.dedupCapacity
        (Duration.ofSecs config.pipeline.dedupTtlSecs) ∧
      (config.auth.mode = .cps → ∃ auth cache, g.auth = some (auth, cache) ∧
        auth.negativeTtl = Duration.ofSecs config.auth.cpsNegativeTtlSecs) ∧
      (config.blockchain.enabled = true → g.store = some t) := by
  unfold Config.start
  dsimp only
  split
  · next hmode =>
    obtain ⟨auth, hauth, httl⟩ := h.exists_cpsAuth hmode
    rw [hauth]
    exact ⟨_, rfl, rfl, fun _ => ⟨auth, _, rfl, httl⟩, fun henabled => if_pos henabled⟩
  · next hmode =>
    exact ⟨_, rfl, rfl, fun hcps => absurd hcps hmode, fun henabled => if_pos henabled⟩

theorem run_of_exec {bconfig : Batcher.BatcherConfig} {g : Tasks caches} {e : Event}
    {what : Addition} {events : List Event} (h : exec codecs bconfig g e = .error what) :
    run codecs bconfig g (e :: events) = .error what := by
  rw [run, h]

theorem sighted_overflows {g : Tasks caches} {capacity secs : ℕ} (id : EnvelopeId)
    (hdedup : g.dedup = DedupCache.new capacity (Duration.ofSecs secs))
    (hover : ¬ latest.secs + secs < 2 ^ 63) :
    exec codecs config.batcher g (.sighted id latest) = .error .dedupExpiry := by
  have hnew : id ∉ ((DedupCache.new capacity (Duration.ofSecs secs)).pruneExpired
      latest.tick).seen := Finset.notMem_empty id
  have hadd : add .dedupExpiry latest (Duration.ofSecs secs) = .error .dedupExpiry :=
    add_overflows hover
  have hinsert : insertIfNewAt (DedupCache.new capacity (Duration.ofSecs secs)) id latest =
      .error .dedupExpiry := by
    unfold insertIfNewAt
    dsimp only
    rw [if_neg hnew]
    show (match add .dedupExpiry latest (Duration.ofSecs secs) with
      | .error what => _ | .ok expiry => _) = _
    rw [hadd]
  rw [exec, hdedup, hinsert]
  rfl

theorem decided_overflows {g : Tasks caches} {auth : Auth.CpsAuth} {cache : caches.Cache}
    {secs : ℕ} (sensor : SensorId) (hauth : g.auth = some (auth, cache))
    (httl : auth.negativeTtl = Duration.ofSecs secs) (hover : ¬ latest.secs + secs < 2 ^ 63) :
    exec codecs config.batcher g (.decided sensor false latest) = .error .denialExpiry := by
  have hadd : add .denialExpiry latest auth.negativeTtl = .error .denialExpiry := by
    rw [httl]
    exact add_overflows hover
  have hentry : entry auth false latest = .error .denialExpiry := by
    rw [entry, if_neg Bool.false_ne_true, hadd]
  simp only [exec, hauth, hentry]
  rfl

variable (codecs) in
/-- The first message is to be waited for as long as a batch may be old. -/
theorem passed_overflows {g : Tasks caches} (hstore : g.store = some Tables.create)
    (hvalid : config.batcher.Valid) (hmany : 1 < config.batcher.maxMessages)
    (hover : ¬ latest.secs + config.batcher.maxBatchAgeSecs < 2 ^ 63) :
    run codecs config.batcher g [.received ⟨0⟩ [], .passed ⟨0⟩ [⟨0⟩] latest latest] =
      .error .batchDeadline := by
  obtain ⟨t, hpush, hholds⟩ := pushMessage_eq holds_create (by decide) ⟨0⟩ []
  have hage : 0 < config.batcher.maxBatchAge :=
    Nat.mul_pos (Nat.pos_of_ne_zero hvalid.maxBatchAgeSecs_ne_zero) (by decide)
  have hflush : Batcher.flushDue codecs config.batcher ⟨0⟩ [⟨0⟩] t =
      some (.ok (some config.batcher.maxBatchAge), t) :=
    flushDue_of_young (m := ⟨0, ⟨0⟩, []⟩) hholds.pending hmany hage
  have hreceived : exec codecs config.batcher g (.received ⟨0⟩ []) =
      .ok { g with store := some t } := by
    simp only [exec, hstore, hpush]
  rw [run, hreceived]
  refine run_of_exec ?_
  have hadd : add .batchDeadline latest config.batcher.maxBatchAge = .error .batchDeadline :=
    add_overflows hover
  simp only [exec, hflush, deadlineAt, hadd]
  rfl

/-- An identifier can be given its expiry where no run overflows. -/
theorem dedup_fits (h : config.Valid crates)
    (hnever : NeverOverflows crates codecs caches config latest) :
    latest.secs + config.pipeline.dedupTtlSecs < 2 ^ 63 := by
  by_contra hover
  obtain ⟨g, hstart, hdedup, -⟩ := exists_start caches h Tables.create
  have herror : run codecs config.batcher g
      [.sighted ⟨FixedBytes.replicate 32 0⟩ latest] = .error .dedupExpiry :=
    run_of_exec (sighted_overflows _ hdedup hover)
  have hnow : ∀ e ∈ [Event.sighted ⟨FixedBytes.replicate 32 0⟩ latest], e.Until latest := by
    simpa [Event.Until] using Timespec.le_refl latest
  exact absurd (hnever _ g _ _ hstart hnow herror) (by simp)

/-- So can a denial. -/
theorem denial_fits (h : config.Valid crates)
    (hnever : NeverOverflows crates codecs caches config latest)
    (hmode : config.auth.mode = .cps) :
    latest.secs + config.auth.cpsNegativeTtlSecs < 2 ^ 63 := by
  by_contra hover
  obtain ⟨g, hstart, -, hauth, -⟩ := exists_start caches h Tables.create
  obtain ⟨auth, cache, hauth, httl⟩ := hauth hmode
  have herror : run codecs config.batcher g
      [.decided ⟨FixedBytes.replicate 32 0⟩ false latest] = .error .denialExpiry :=
    run_of_exec (decided_overflows _ hauth httl hover)
  have hnow : ∀ e ∈ [Event.decided ⟨FixedBytes.replicate 32 0⟩ false latest], e.Until latest := by
    simpa [Event.Until] using Timespec.le_refl latest
  exact absurd (hnever _ g _ _ hstart hnow herror) (by simp)

/-- And the deadline of a batch can be set. -/
theorem batch_fits (h : config.Valid crates)
    (hnever : NeverOverflows crates codecs caches config latest)
    (henabled : config.blockchain.enabled = true) (hmany : 1 < config.batcher.maxMessages) :
    latest.secs + config.batcher.maxBatchAgeSecs < 2 ^ 63 := by
  by_contra hover
  obtain ⟨g, hstart, -, -, hstore⟩ := exists_start caches h Tables.create
  have herror := passed_overflows codecs (hstore henabled) h.batcher hmany hover
  have hnow : ∀ e ∈ [Event.received ⟨0⟩ [], .passed ⟨0⟩ [⟨0⟩] latest latest], e.Until latest := by
    simpa [Event.Until] using Timespec.le_refl latest
  exact absurd (hnever _ g _ _ hstart hnow herror) (by simp)

/-- **Up to which point of the clock no run overflows**: as long as the spans in use fit.  These
are the lifetime of a duplicate entry, with authorization by CPS that of a denial, and with
batching the age of a batch, unless a batch is a single message. -/
theorem neverOverflows_iff (h : config.Valid crates) :
    NeverOverflows crates codecs caches config latest ↔ Fits config latest := by
  constructor
  · intro hnever
    exact ⟨dedup_fits h hnever, denial_fits h hnever, batch_fits h hnever⟩
  · intro hfits t g events what hstart hevents herror
    exact (configured_start h hstart).run hfits hevents herror

end

/-- Texts in hex, shown in quotes. -/
def plainText : TextCrates where
  hexDecode s :=
    match Hex.decode (Utf8.encode s) with
    | some bytes => .ok bytes
    | none => .error "Invalid character"
  debugText text := "\"" ++ text ++ "\""

/-- Sensors are authorized by CPS, and envelopes are anchored. -/
def anchoringConfig : Config :=
  { Config.default with
    auth := { AuthConfig.default with
      mode := .cps
      cpsRootNodeId := some 1
      cpsExpectedGenesisHash :=
        some "0x2dc68bdb46bd6b6dd3b6e7bd64f3b3b7ae4ee5a4a8a0a4d9a76f2a8dd6a4f2f6" }
    blockchain := { BlockchainConfig.default with
      enabled := true
      keyFile := some "/etc/edge/anchor.key"
      nodeId := some 2 }
    storagePath := some "/var/lib/edge/edge.redb" }

def thirtyYears : Timespec := ⟨946080000, 0, by decide, by decide, by decide⟩

theorem neverOverflows_thirtyYears :
    NeverOverflows plainText Batcher.plainCodecs (recencyCache SensorId Auth.Entry)
      anchoringConfig thirtyYears :=
  (neverOverflows_iff (by decide +kernel)).mpr ⟨by decide, fun _ => by decide, fun _ _ => by decide⟩

/-- Identifiers are to be remembered for as many seconds as the clock has. -/
def foreverConfig : Config := { Config.default with pipeline := ⟨8192, 2 ^ 63 - 1⟩ }

def oneSecond : Timespec := ⟨1, 0, by decide, by decide, by decide⟩

/-- The first envelope that is received panics the pipeline. -/
theorem foreverConfig_overflows : foreverConfig.Valid plainText ∧
    ¬ NeverOverflows plainText Batcher.plainCodecs (recencyCache SensorId Auth.Entry)
      foreverConfig oneSecond := by
  have hvalid : foreverConfig.Valid plainText := rfl
  refine ⟨hvalid, fun hnever => ?_⟩
  exact absurd (dedup_fits hvalid hnever) (by decide)

end Gateway
end Robins
