import Robins.Batcher.Deadline
import Robins.Batcher.Budget
import Robins.BatchStore.Transaction

/-!
# Draining the store

Both loops of the batcher run steps until one does not flush.  They end because a flush always
takes something: a candidate has at least one message, and all of the candidate is consumed, the
messages that are rejected as well as those that are batched.  So the pending messages themselves
are the measure, whatever triggers a flush (`Takes.length_lt`).

## A database that may fail

A step that fails has changed nothing.  It writes in one transaction, and nothing can fail after
the commit; `stepOn` says this with every call of the database free to fail, in the words of
`BatchStore.Transaction`.  With no failures it is the step of `Batcher.Step`.

## What a loop leaves

Without an error `flush_all` ends with no messages left, because a forced step is idle only on an
empty table.  Whether there are errors is another matter: `Readable` are the stores whose contents
give none, and a step keeps a store readable (`exists_step`).  On such a store, with a compressor
that does not fail, both loops end well; on every other, within as many steps.
`draining_terminates` has all of this.
-/

namespace Robins
namespace Batcher

open BatchStore Protocol FaultyTransaction

variable {codecs : Codecs} {config : BatcherConfig}

/-! ## A step with a database that may fail

Every call of the database may fail, and whatever was written before is undone with the
transaction.  The step is the one of `Batcher.Step` as long as it goes on, so nothing about
batches is proved again here: `step_of_stepOn` leads back to it. -/

variable (codecs config) in
/-- One step: its result, and the database after it. -/
def stepOn (faults : StoreFaults) (db : Tables) (now createdAt : Timestamp) (force : Bool) :
    Except BatchError Step × Tables :=
  match pendingMessagesOn faults db config.maxMessages with
  | .error err => (.error (.store err), db)
  | .ok (pending, faults) =>
    match plan codecs config pending now force with
    | .error err => (.error err, db)
    | .ok .idle => (.ok .idle, db)
    | .ok (.wait remaining) => (.ok (.wait remaining), db)
    | .ok (.flush flush) =>
      match write (commitBatchesOn createdAt flush.consumed flush.prepared) faults db with
      | (.error err, db) => (.error (.store err), db)
      | (.ok _, db) => (.ok .flushed, db)

/-- **A step that fails changes nothing.**  It reads, plans in memory and writes in one
transaction, so an error comes before anything was written or drops what was. -/
theorem eq_of_stepOn_error {faults : StoreFaults} {db db' : Tables} {now createdAt : Timestamp}
    {force : Bool} {err : BatchError}
    (h : stepOn codecs config faults db now createdAt force = (.error err, db')) : db' = db := by
  unfold stepOn at h
  split at h
  · exact (Prod.mk.inj h).2.symm
  · split at h
    · exact (Prod.mk.inj h).2.symm
    · exact (Prod.mk.inj h).2.symm
    · exact (Prod.mk.inj h).2.symm
    · split at h
      · next hwrite =>
        obtain ⟨-, rfl⟩ := Prod.mk.inj h
        exact write_of_error hwrite
      · exact absurd (Prod.mk.inj h).1 (by simp)

/-- A step that ends well has met no failure. -/
theorem step_of_stepOn {faults : StoreFaults} {db db' : Tables} {now createdAt : Timestamp}
    {force : Bool} {outcome : Step}
    (h : stepOn codecs config faults db now createdAt force = (.ok outcome, db')) :
    step codecs config db now createdAt force = .ok (outcome, db') := by
  rw [stepOn] at h
  cases hread : pendingMessagesOn faults db config.maxMessages with
  | error err =>
    rw [hread] at h
    exact absurd (Prod.mk.inj h).1 (by simp)
  | ok p =>
    obtain ⟨pending, faults'⟩ := p
    rw [step, pendingMessagesOn_ok hread]
    rw [hread] at h
    dsimp only at h ⊢
    cases hplan : plan codecs config pending now force with
    | error err =>
      rw [hplan] at h
      exact absurd (Prod.mk.inj h).1 (by simp)
    | ok planned =>
      rw [hplan] at h
      cases planned with
      | idle =>
        obtain ⟨ho, rfl⟩ := Prod.mk.inj h
        rw [Except.ok.inj ho]
      | wait remaining =>
        obtain ⟨ho, rfl⟩ := Prod.mk.inj h
        rw [← Except.ok.inj ho]
      | flush flush =>
        dsimp only at h ⊢
        cases hwrite : write (commitBatchesOn createdAt flush.consumed flush.prepared) faults' db
          with
        | mk result db₁ =>
          rw [hwrite] at h
          cases result with
          | error err => exact absurd (Prod.mk.inj h).1 (by simp)
          | ok ids =>
            obtain ⟨ho, rfl⟩ := Prod.mk.inj h
            rw [(commitBatchesOn_refines createdAt _ _).run_of_write hwrite,
              ← Except.ok.inj ho]

variable (codecs config) in
/-- **Without failures of the database it is `step`.** -/
theorem stepOn_nil (db : Tables) (now createdAt : Timestamp) (force : Bool) :
    stepOn codecs config [] db now createdAt force =
      match step codecs config db now createdAt force with
      | .error err => (.error err, db)
      | .ok (outcome, db') => (.ok outcome, db') := by
  rw [stepOn, step, pendingMessagesOn_nil]
  cases pendingMessages db config.maxMessages with
  | error err => rfl
  | ok pending =>
    dsimp only [Except.map]
    cases plan codecs config pending now force with
    | error err => rfl
    | ok p =>
      cases p with
      | idle => rfl
      | wait remaining => rfl
      | flush flush =>
        dsimp only
        rw [(commitBatchesOn_refines createdAt flush.consumed flush.prepared).write_faultless]
        cases commitBatches db createdAt flush.consumed flush.prepared with
        | error err => rfl
        | ok p => rfl

/-! ## What a flush takes

`Takes` says of a step what it leaves of the pending messages, by its outcome: a flush leaves the
messages after some first ones, and the two outcomes that end a loop leave all of them. -/

theorem sequence_of_decodeMessage {key : ℕ} {value : Bytes} {m : StoredMessage}
    (h : decodeMessage key value = .ok m) : m.sequence = key := by
  unfold decodeMessage at h
  split at h
  · exact absurd h (by simp)
  · rw [← Except.ok.inj h]

theorem sequences_of_mapM {entries : List (ℕ × Bytes)} {page : List StoredMessage}
    (h : entries.mapM (fun entry => decodeMessage entry.1 entry.2) = .ok page) :
    page.map StoredMessage.sequence = entries.map Prod.fst := by
  induction entries generalizing page with
  | nil =>
    obtain rfl := Except.ok.inj h
    rfl
  | cons entry entries ih =>
    rw [List.mapM_cons] at h
    cases hm : decodeMessage entry.1 entry.2 with
    | error err =>
      rw [hm] at h
      exact absurd h (by simp [bind, Except.bind])
    | ok m =>
      rw [hm] at h
      cases hms : entries.mapM fun entry => decodeMessage entry.1 entry.2 with
      | error err =>
        rw [hms] at h
        exact absurd h (by simp [bind, Except.bind])
      | ok ms =>
        rw [hms] at h
        obtain rfl := Except.ok.inj h
        rw [List.map_cons, List.map_cons, sequence_of_decodeMessage hm, ih hms]

theorem sequences_of_pendingMessages {t : Tables} {limit : ℕ} {page : List StoredMessage}
    (h : pendingMessages t limit = .ok page) :
    page.map StoredMessage.sequence = (t.pendingMessages.entries.map Prod.fst).take limit := by
  rw [sequences_of_mapM h, List.map_take]

/-- What a step does to the pending messages: nothing if there are none or none is due, and
otherwise it takes at least one off the front. -/
inductive Takes (force : Bool) (t : Tables) : Step → Tables → Prop where
  | idle (hnone : t.pendingMessages.entries = []) : Takes force t .idle t
  | wait (remaining : Duration) (hforce : force = false) : Takes force t (.wait remaining) t
  | flushed {t' : Tables} (n : ℕ) (hpos : 0 < n) (hle : n ≤ t.pendingMessages.entries.length)
      (hentries : t'.pendingMessages.entries = t.pendingMessages.entries.drop n) :
      Takes force t .flushed t'

theorem entries_of_commitBatches {t t' : Tables} {createdAt : Timestamp} {n : ℕ}
    {prepared : List PreparedBatch} {ids : List BatchId}
    (h : commitBatches t createdAt ((t.pendingMessages.entries.take n).map Prod.fst) prepared =
      .ok (ids, t')) :
    t'.pendingMessages.entries = t.pendingMessages.entries.drop n := by
  obtain ⟨pending', hremove, hentries⟩ := exists_removeConsumed_take t.pendingMessages n
  rw [commitBatches, hremove] at h
  dsimp only at h
  split at h
  · exact absurd h (by simp)
  · obtain ⟨-, rfl⟩ := Prod.mk.inj (Except.ok.inj h)
    exact hentries

/-- The messages a flush consumes are the first of the table, and it consumes some. -/
theorem consumed_of_plan (hvalid : config.maxMessages ≠ 0) {t : Tables}
    {page : List StoredMessage} (hread : pendingMessages t config.maxMessages = .ok page)
    {now : Timestamp} {force : Bool} {flush : Flush}
    (h : plan codecs config page now force = .ok (.flush flush)) :
    ∃ n, 0 < n ∧ n ≤ t.pendingMessages.entries.length ∧
      flush.consumed = (t.pendingMessages.entries.take n).map Prod.fst := by
  obtain ⟨hne, reason, hplan⟩ := planFlush_of_plan h
  obtain ⟨flush', runs, heq, hcovers⟩ := planFlush_spec hplan
  obtain rfl := Plan.flush.inj heq
  have hpos : 0 < (select codecs config page now).len := by
    rw [select_len_eq]
    exact selectLoop_len_pos hvalid hne
  have hle := select_len_le codecs config page now
  have hkeys := sequences_of_pendingMessages hread
  have hlen : page.length = min config.maxMessages t.pendingMessages.entries.length := by
    rw [← List.length_map (f := StoredMessage.sequence), hkeys, List.length_take,
      List.length_map]
  refine ⟨(select codecs config page now).len, hpos, by omega, ?_⟩
  rw [hcovers.consumed_eq, List.map_take, hkeys, List.take_take, min_eq_left (by omega),
    List.map_take]

theorem eq_nil_of_plan_idle {page : List StoredMessage} {now : Timestamp} {force : Bool}
    (h : plan codecs config page now force = .ok .idle) : page = [] := by
  obtain ⟨hnil, -⟩ | ⟨flush, hflush⟩ | ⟨oldest, rest, -, -, -, hwait⟩ := plan_cases h
  · exact hnil
  · cases hflush
  · cases hwait

theorem eq_false_of_plan_wait {page : List StoredMessage} {now : Timestamp} {force : Bool}
    {remaining : Duration} (h : plan codecs config page now force = .ok (.wait remaining)) :
    force = false := by
  obtain ⟨-, hidle⟩ | ⟨flush, hflush⟩ | ⟨oldest, rest, -, hforce, -, -⟩ := plan_cases h
  · cases hidle
  · cases hflush
  · exact hforce

/-- **What one step takes.**  A flush consumes its candidate, which is the first messages of the
queue and at least one of them. -/
theorem takes_of_step (hvalid : config.maxMessages ≠ 0) {t t' : Tables}
    {now createdAt : Timestamp} {force : Bool} {outcome : Step}
    (h : step codecs config t now createdAt force = .ok (outcome, t')) :
    Takes force t outcome t' := by
  unfold step at h
  split at h
  · exact absurd h (by simp)
  · next page hread =>
    split at h
    · exact absurd h (by simp)
    · next hplan =>
      obtain ⟨rfl, rfl⟩ := Prod.mk.inj (Except.ok.inj h)
      refine .idle ?_
      have hkeys := sequences_of_pendingMessages hread
      have hnil : page = [] := eq_nil_of_plan_idle hplan
      rw [hnil, List.map_nil, eq_comm, List.take_eq_nil_iff, List.map_eq_nil_iff] at hkeys
      exact hkeys.resolve_left hvalid
    · next remaining hplan =>
      obtain ⟨rfl, rfl⟩ := Prod.mk.inj (Except.ok.inj h)
      exact .wait remaining (eq_false_of_plan_wait hplan)
    · next flush hplan =>
      split at h
      · exact absurd h (by simp)
      · next ids tables hcommit =>
        obtain ⟨rfl, rfl⟩ := Prod.mk.inj (Except.ok.inj h)
        obtain ⟨n, hpos, hle, hconsumed⟩ := consumed_of_plan hvalid hread hplan
        rw [hconsumed] at hcommit
        exact .flushed n hpos hle (entries_of_commitBatches hcommit)

/-! ## Stores that can be read

What can be wrong with a store is in its bytes: a message too short to have its time, or a counter
that is not eight bytes long.  A step adds nothing of the kind, so a store that can be read stays
one. -/

/-- A counter that is absent or eight bytes long. -/
def CounterReadable (metadata : Metadata) (key : MetaKey) : Prop :=
  ∀ value, metadata key = some value → value.length = 8

/-- A store whose contents give no errors: no pending message is truncated, and the counter
of the batches can be read. -/
structure Readable (t : Tables) : Prop where
  pending : ∀ entry ∈ t.pendingMessages.entries, timestampLen ≤ entry.2.length
  nextBatchId : CounterReadable t.storeMetadata .nextBatchId

theorem exists_nextCounter {metadata : Metadata} {key : MetaKey}
    (h : CounterReadable metadata key) :
    ∃ n metadata', nextCounter metadata key = .ok (n, metadata') ∧
      CounterReadable metadata' key := by
  have hupdate : ∀ n, CounterReadable
      (Function.update metadata key (some (LittleEndian.leBytes 8 n))) key := by
    intro n value hvalue
    rw [Function.update_self] at hvalue
    rw [← Option.some.inj hvalue, LittleEndian.length_leBytes]
  unfold nextCounter
  cases hkey : metadata key with
  | none => exact ⟨_, _, rfl, hupdate _⟩
  | some value =>
    dsimp only
    rw [if_pos (h value hkey)]
    exact ⟨_, _, rfl, hupdate _⟩

theorem exists_insertBatches (createdAt : Timestamp) {metadata : Metadata}
    (h : CounterReadable metadata .nextBatchId) (ready : OrderedTable ℕ Bytes)
    (prepared : List PreparedBatch) :
    ∃ ids metadata' ready', insertBatches createdAt metadata ready prepared =
      .ok (ids, metadata', ready') ∧ CounterReadable metadata' .nextBatchId := by
  induction prepared generalizing metadata ready with
  | nil => exact ⟨[], metadata, ready, rfl, h⟩
  | cons batch prepared ih =>
    obtain ⟨id, metadata₁, hnext, h₁⟩ := exists_nextCounter h
    obtain ⟨ids, metadata', ready', hrest, h'⟩ :=
      ih h₁ (ready.insert id (encodeBatch createdAt batch))
    refine ⟨id :: ids, metadata', ready', ?_, h'⟩
    rw [insertBatches, hnext]
    dsimp only
    rw [hrest]

theorem exists_decodeMessages {entries : List (ℕ × Bytes)}
    (h : ∀ entry ∈ entries, timestampLen ≤ entry.2.length) :
    ∃ page, entries.mapM (fun entry => decodeMessage entry.1 entry.2) = .ok page := by
  induction entries with
  | nil => exact ⟨[], rfl⟩
  | cons entry entries ih =>
    obtain ⟨hentry, hrest⟩ := List.forall_mem_cons.mp h
    obtain ⟨page, hpage⟩ := ih hrest
    have hm : decodeMessage entry.1 entry.2 = .ok ⟨entry.1,
        ⟨UInt64.ofNat (LittleEndian.leNat (entry.2.take timestampLen))⟩,
        entry.2.drop timestampLen⟩ := if_neg (not_lt.mpr hentry)
    rw [List.mapM_cons, hm, hpage]
    exact ⟨_, rfl⟩

variable (config) in
/-- A plan is made when the compressor does not fail. -/
theorem exists_plan (htotal : codecs.zstd.Total) (page : List StoredMessage) (now : Timestamp)
    (force : Bool) : ∃ p, plan codecs config page now force = .ok p := by
  have hflush : ∀ candidate reason, ∃ p, planFlush codecs config candidate reason = .ok p := by
    intro candidate reason
    obtain ⟨packed, hpack⟩ :=
      exists_pack codecs config htotal (decodeCandidate codecs candidate).1
    unfold planFlush
    dsimp only
    rw [hpack]
    exact ⟨_, rfl⟩
  unfold plan
  split
  · exact ⟨_, rfl⟩
  · dsimp only
    split
    · exact hflush _ _
    · exact hflush _ _
    · exact ⟨_, rfl⟩

/-- **A step on a store that can be read ends well**, and leaves such a store. -/
theorem exists_step (hvalid : config.maxMessages ≠ 0) (htotal : codecs.zstd.Total) {t : Tables}
    (ht : Readable t) (now createdAt : Timestamp) (force : Bool) :
    ∃ outcome t', step codecs config t now createdAt force = .ok (outcome, t') ∧
      Readable t' := by
  obtain ⟨page, hread⟩ : ∃ page, pendingMessages t config.maxMessages = .ok page :=
    exists_decodeMessages fun entry hentry => ht.pending entry (List.mem_of_mem_take hentry)
  obtain ⟨p, hplan⟩ := exists_plan config htotal page now force
  rw [step, hread]
  simp only [hplan]
  cases p with
  | idle => exact ⟨_, _, rfl, ht⟩
  | wait remaining => exact ⟨_, _, rfl, ht⟩
  | flush flush =>
    obtain ⟨n, -, -, hconsumed⟩ := consumed_of_plan hvalid hread hplan
    obtain ⟨pending', hremove, hentries⟩ := exists_removeConsumed_take t.pendingMessages n
    obtain ⟨ids, metadata', ready', hinsert, hcounter⟩ :=
      exists_insertBatches createdAt ht.nextBatchId t.readyBatches flush.prepared
    refine ⟨.flushed, ⟨pending', ready', metadata'⟩, ?_, ?_, hcounter⟩
    · simp only [commitBatches, hconsumed, hremove, hinsert]
    · intro entry hentry
      dsimp only at hentry
      rw [hentries] at hentry
      exact ht.pending entry (List.mem_of_mem_drop hentry)

/-! ## The loops -/

/-- A flush leaves fewer messages. -/
theorem Takes.length_lt {force : Bool} {t t' : Tables} (h : Takes force t .flushed t') :
    t'.pendingMessages.entries.length < t.pendingMessages.entries.length := by
  cases h with
  | flushed n hpos hle hentries =>
    rw [hentries, List.length_drop]
    omega

/-- `flush_due` ends before it has run out of messages. -/
theorem flushDue_ends (hvalid : config.maxMessages ≠ 0) (now : Timestamp)
    {clock : List Timestamp} {t : Tables}
    (hclock : t.pendingMessages.entries.length < clock.length) :
    ∃ r t', flushDue codecs config now clock t = some (r, t') ∧
      (codecs.zstd.Total → Readable t → ∃ d, r = .ok d) := by
  induction clock generalizing t with
  | nil => exact absurd hclock (by simp)
  | cons createdAt clock ih =>
    rw [flushDue]
    cases hstep : step codecs config t now createdAt false with
    | error err =>
      refine ⟨_, _, rfl, fun htotal ht => ?_⟩
      obtain ⟨outcome, t', hok, -⟩ := exists_step hvalid htotal ht now createdAt false
      exact absurd (hstep.symm.trans hok) (by simp)
    | ok p =>
      obtain ⟨outcome, t₁⟩ := p
      have htakes := takes_of_step hvalid hstep
      cases outcome with
      | idle => exact ⟨_, _, rfl, fun _ _ => ⟨_, rfl⟩⟩
      | wait remaining => exact ⟨_, _, rfl, fun _ _ => ⟨_, rfl⟩⟩
      | flushed =>
        have hless := htakes.length_lt
        rw [List.length_cons] at hclock
        obtain ⟨r, t', hrun, hok⟩ := ih (t := t₁) (by omega)
        refine ⟨r, t', hrun, fun htotal ht => hok htotal ?_⟩
        obtain ⟨outcome', t₁', hok', ht₁⟩ := exists_step hvalid htotal ht now createdAt false
        obtain ⟨-, rfl⟩ := Prod.mk.inj (Except.ok.inj (hstep.symm.trans hok'))
        exact ht₁

/-- `flush_all` ends, and with no messages left when nothing fails. -/
theorem flushAll_ends (hvalid : config.maxMessages ≠ 0) {clock : List (Timestamp × Timestamp)}
    {t : Tables} (hclock : t.pendingMessages.entries.length < clock.length) :
    ∃ r t', flushAll codecs config clock t = some (r, t') ∧
      (codecs.zstd.Total → Readable t → r = .ok () ∧ t'.pendingMessages.entries = []) := by
  induction clock generalizing t with
  | nil => exact absurd hclock (by simp)
  | cons times clock ih =>
    obtain ⟨now, createdAt⟩ := times
    rw [flushAll]
    cases hstep : step codecs config t now createdAt true with
    | error err =>
      refine ⟨_, _, rfl, fun htotal ht => ?_⟩
      obtain ⟨outcome, t', hok, -⟩ := exists_step hvalid htotal ht now createdAt true
      exact absurd (hstep.symm.trans hok) (by simp)
    | ok p =>
      obtain ⟨outcome, t₁⟩ := p
      have htakes := takes_of_step hvalid hstep
      cases htakes with
      | idle hnone => exact ⟨_, _, rfl, fun _ _ => ⟨rfl, hnone⟩⟩
      | wait remaining hforce => exact absurd hforce (by simp)
      | flushed n hpos hle hentries =>
        have htake : Takes true t .flushed t₁ := .flushed n hpos hle hentries
        have hless := htake.length_lt
        rw [List.length_cons] at hclock
        obtain ⟨r, t', hrun, hok⟩ := ih (t := t₁) (by omega)
        refine ⟨r, t', hrun, fun htotal ht => hok htotal ?_⟩
        obtain ⟨outcome', t₁', hok', ht₁⟩ := exists_step hvalid htotal ht now createdAt true
        obtain ⟨-, rfl⟩ := Prod.mk.inj (Except.ok.inj (hstep.symm.trans hok'))
        exact ht₁

/-- **Draining terminates.**  On every store both loops end within one step more than there
are messages; if neither the store nor the compressor fails they end well, and `flush_all`
leaves no message.  A flush takes messages off the front of the queue, at least one, and a
step that fails, at whatever call of the database, leaves the store as it was. -/
theorem draining_terminates (codecs : Codecs) (config : BatcherConfig) (hvalid : config.Valid) :
    (∀ (t : Tables) (now : Timestamp) (clock : List Timestamp),
      t.pendingMessages.entries.length < clock.length →
        ∃ r t', flushDue codecs config now clock t = some (r, t') ∧
          (codecs.zstd.Total → Readable t → ∃ d, r = .ok d)) ∧
    (∀ (t : Tables) (clock : List (Timestamp × Timestamp)),
      t.pendingMessages.entries.length < clock.length →
        ∃ r t', flushAll codecs config clock t = some (r, t') ∧
          (codecs.zstd.Total → Readable t → r = .ok () ∧ t'.pendingMessages.entries = [])) ∧
    (∀ (faults : StoreFaults) (t t' : Tables) (now createdAt : Timestamp) (force : Bool),
      stepOn codecs config faults t now createdAt force = (.ok .flushed, t') →
        t'.pendingMessages.entries <:+ t.pendingMessages.entries ∧
          t'.pendingMessages.entries.length < t.pendingMessages.entries.length) ∧
    (∀ (faults : StoreFaults) (t t' : Tables) (now createdAt : Timestamp) (force : Bool)
      (err : BatchError),
      stepOn codecs config faults t now createdAt force = (.error err, t') → t' = t) := by
  have hmax := hvalid.maxMessages_ne_zero
  refine ⟨fun t now clock hclock => flushDue_ends hmax now hclock,
    fun t clock hclock => flushAll_ends hmax hclock, ?_,
    fun faults t t' now createdAt force err h => eq_of_stepOn_error h⟩
  intro faults t t' now createdAt force h
  have htakes := takes_of_step hmax (step_of_stepOn h)
  refine ⟨?_, htakes.length_lt⟩
  cases htakes with
  | flushed n hpos hle hentries =>
    rw [hentries]
    exact List.drop_suffix n _

/-- A store with a message that fits, one that does not decode, and one too large for any
batch of the configuration. -/
def mixedTables : Tables where
  pendingMessages := ((OrderedTable.empty.insert 0 (encodeMessage ⟨1⟩ [10, 1, 7])).insert 1
    (encodeMessage ⟨2⟩ [255])).insert 2 (encodeMessage ⟨3⟩ [10, 8, 1, 2, 3, 4, 5, 6, 7, 8])
  readyBatches := OrderedTable.empty
  storeMetadata := fun _ => none

theorem mixedTables_readable : Readable mixedTables where
  pending := by decide +kernel
  nextBatchId := by
    intro value hvalue
    exact absurd hvalue (by simp [mixedTables])

/-- A clock for four steps. -/
def drainClock : List (Timestamp × Timestamp) := List.replicate 4 (⟨5⟩, ⟨6⟩)

theorem draining_terminates_mixedTables :
    ∃ t', flushAll plainCodecs tightConfig drainClock mixedTables = some (.ok (), t') ∧
      t'.pendingMessages.entries = [] := by
  obtain ⟨-, hall, -⟩ := draining_terminates plainCodecs tightConfig rfl
  obtain ⟨r, t', hrun, hok⟩ := hall mixedTables drainClock (by decide +kernel)
  obtain ⟨rfl, hempty⟩ := hok (fun b => ⟨b, rfl⟩) mixedTables_readable
  exact ⟨t', hrun, hempty⟩

end Batcher
end Robins
