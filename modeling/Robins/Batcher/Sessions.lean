import Robins.Batcher.Conservation
import Robins.BatchStore.Format

/-!
# Sessions of the daemon

A store outlives the daemon that writes it, and the next daemon may batch under another
configuration.  A session reconciles the payload format before it does anything else, and ends at
once if that fails; from then on it is the store in use, with a batcher of that one configuration,
until the process ends.

## The invariant

The bytes of a ready batch never change, and the recorded format does.  What keeps the two together
is an invariant of the tables alone (`Labelled`): every batch in the table was encoded under the
format that is recorded now.  Reconciling keeps it, since it writes the format only where none is
recorded, and then no batch is stored, or where no batch is stored (`Labelled.reconcile`).

For the work of a session more is needed: it batches under the recorded format, and a flush that
was planned and is not committed yet was planned under it too (`Guarded`).  A crash drops such a
flush, so none can be committed by a session of another format.

`format_guard` reads the invariant as a statement about runs: in every state every batch that can
be read was encoded, in some session before, under the format that is recorded now; and
reconciling that is refused or fails changes nothing.
-/

namespace Robins
namespace Batcher

open BatchStore Protocol

/-! ## The machine -/

/-- The store, the step the batcher is in the middle of, and the session, if one runs. -/
structure Daemon where
  gateway : Gateway
  session : Option BatcherConfig

/-- A new store, and no session. -/
def Daemon.fresh : Daemon := ⟨Gateway.fresh, none⟩

inductive DaemonEvent where
  /-- A process opens the store and reconciles the format. -/
  | start (config : BatcherConfig) (faults : StoreCall → Option StoreError)
  | work (event : Event)

inductive DaemonObservation where
  | started (config : BatcherConfig) (outcome : FormatOutcome)
  | refused (config : BatcherConfig) (error : FormatError)
  | worked (observation : Observation)
  deriving DecidableEq

/-- In a session the batcher has the configuration of that session. -/
def Event.isUnder (config : BatcherConfig) : Event → Bool
  | .plan config' _ _ => decide (config' = config)
  | _ => true

/-- The session after an event: a crash ends it. -/
def Event.session (config : BatcherConfig) : Event → Option BatcherConfig
  | .crash => none
  | _ => some config

/-- One event.  The configuration of a session has passed its checks. -/
def daemonStep (codecs : Codecs) (s : Daemon) (e : DaemonEvent) :
    Option (Daemon × List DaemonObservation) :=
  match s.session, e with
  | none, .start config faults =>
    if config.Valid then
      match reconcileFormat faults s.gateway.tables config.formatDescriptor with
      | (.error error, tables) => some (⟨⟨tables, none⟩, none⟩, [.refused config error])
      | (.ok outcome, tables) => some (⟨⟨tables, none⟩, some config⟩, [.started config outcome])
    else none
  | some config, .work event =>
    if event.isUnder config then
      (gatewayStep codecs s.gateway event).map fun p =>
        (⟨p.1, event.session config⟩, p.2.map .worked)
    else none
  | _, _ => none

/-- Sessions on one store, as a machine. -/
def daemon (codecs : Codecs) : EventMachine Daemon DaemonEvent DaemonObservation :=
  ⟨daemonStep codecs⟩

/-! ## Labelled tables -/

/-- The stored bytes are a batch that was encoded under this format and created so. -/
def PreparedUnder (codecs : Codecs) (h : List DaemonObservation) (d : FormatDescriptor)
    (id : BatchId) (value : Bytes) : Prop :=
  ∃ createdAt config run batch, config.formatDescriptor = d ∧ Encodes codecs config run batch ∧
    value = encodeBatch createdAt batch.1 ∧
    .worked (.created ⟨id, config.compression, batch.1⟩) ∈ h

/-- Every ready batch was encoded under the recorded format. -/
def Labelled (codecs : Codecs) (h : List DaemonObservation) (t : Tables) : Prop :=
  ∀ entry ∈ t.readyBatches.entries, ∃ d, formatDescriptor t = .ok (some d) ∧
    PreparedUnder codecs h d entry.1 entry.2

/-- What holds in every state: the tables are labelled, a session batches under the recorded
format, and a flush that is not committed yet is one of that session. -/
structure Guarded (codecs : Codecs) (h : List DaemonObservation) (s : Daemon) : Prop where
  labelled : Labelled codecs h s.gateway.tables
  session : ∀ config, s.session = some config →
    formatDescriptor s.gateway.tables = .ok (some config.formatDescriptor)
  batcher : ∀ config flush, s.gateway.batcher = some (config, flush) →
    s.session = some config ∧
      ∀ batch ∈ flush.packed.batches, ∃ run, Encodes codecs config run batch

section

variable {codecs : Codecs} {h o : List DaemonObservation}

theorem PreparedUnder.append {d : FormatDescriptor} {id : BatchId} {value : Bytes}
    (hp : PreparedUnder codecs h d id value) : PreparedUnder codecs (h ++ o) d id value := by
  obtain ⟨createdAt, config, run, batch, hd, hencodes, hvalue, hmem⟩ := hp
  exact ⟨createdAt, config, run, batch, hd, hencodes, hvalue, List.mem_append_left o hmem⟩

/-- Tables with the same format, and no batch that was not there, stay labelled. -/
theorem Labelled.keep {t t' : Tables} (hl : Labelled codecs h t)
    (hformat : formatDescriptor t' = formatDescriptor t)
    (hready : ∀ entry ∈ t'.readyBatches.entries, entry ∈ t.readyBatches.entries) :
    Labelled codecs (h ++ o) t' := by
  intro entry hentry
  obtain ⟨d, hd, hp⟩ := hl entry (hready entry hentry)
  exact ⟨d, hformat.trans hd, hp.append⟩

theorem guarded_fresh (codecs : Codecs) : Guarded codecs [] Daemon.fresh where
  labelled := by
    intro entry hentry
    exact absurd hentry (by simp [Daemon.fresh, Gateway.fresh, Tables.create])
  session := by simp [Daemon.fresh]
  batcher := by simp [Daemon.fresh, Gateway.fresh]

/-- **Reconciling keeps the tables labelled.**  It writes the format only where none is
recorded, and then no batch is stored, or where no batch is stored. -/
theorem Labelled.reconcile {t t' : Tables} {config : BatcherConfig}
    {result : Except FormatError FormatOutcome} (hl : Labelled codecs h t)
    (hr : Reconciled t config.formatDescriptor result t') :
    Labelled codecs (h ++ o) t' ∧
      ∀ outcome, result = .ok outcome →
        formatDescriptor t' = .ok (some config.formatDescriptor) := by
  cases hr with
  | failed error => exact ⟨hl.keep rfl fun _ hentry => hentry, by simp⟩
  | unchanged hsame => exact ⟨hl.keep rfl fun _ hentry => hentry, fun _ _ => hsame⟩
  | recorded hnone =>
    refine ⟨fun entry hentry => ?_, fun _ _ => formatDescriptor_setFormatDescriptor t _⟩
    obtain ⟨d, hd, -⟩ := hl entry hentry
    rw [hnone] at hd
    exact absurd hd (by simp)
  | updated hempty =>
    refine ⟨fun entry hentry => ?_, fun _ _ => formatDescriptor_setFormatDescriptor t _⟩
    have hnil : entry ∈ t.readyBatches.entries := hentry
    rw [hempty] at hnil
    exact absurd hnil (by simp)

/-- Work in a session leaves it guarded if the format stays and the tables stay labelled. -/
theorem Guarded.next {s : Daemon} {g : Gateway} {config : BatcherConfig}
    (hg : Guarded codecs h s) (hsession : s.session = some config)
    (hformat : formatDescriptor g.tables = formatDescriptor s.gateway.tables)
    (hlabelled : Labelled codecs (h ++ o) g.tables)
    (hbatcher : ∀ config' flush, g.batcher = some (config', flush) → config' = config ∧
      ∀ batch ∈ flush.packed.batches, ∃ run, Encodes codecs config run batch) :
    Guarded codecs (h ++ o) ⟨g, some config⟩ where
  labelled := hlabelled
  session := by
    intro config' heq
    obtain rfl := Option.some.inj heq
    exact hformat.trans (hg.session _ hsession)
  batcher := by
    intro config' flush heq
    obtain ⟨rfl, hencodes⟩ := hbatcher config' flush heq
    exact ⟨rfl, hencodes⟩

/-- The step in progress is one of the session. -/
theorem Guarded.batcher_of_session {s : Daemon} {config : BatcherConfig}
    (hg : Guarded codecs h s) (hsession : s.session = some config) {config' : BatcherConfig}
    {flush : Flush} (hbatcher : s.gateway.batcher = some (config', flush)) :
    config' = config ∧
      ∀ batch ∈ flush.packed.batches, ∃ run, Encodes codecs config run batch := by
  obtain ⟨heq, hencodes⟩ := hg.batcher config' flush hbatcher
  obtain rfl : config' = config := Option.some.inj (heq.symm.trans hsession)
  exact ⟨rfl, hencodes⟩

/-- A commit stores batches encoded under the format of the session. -/
theorem Guarded.commit {s : Daemon} {config : BatcherConfig} {flush : Flush}
    {createdAt : Timestamp} {ids : List BatchId} {t : Tables} (hg : Guarded codecs h s)
    (hsession : s.session = some config)
    (hencodes : ∀ batch ∈ flush.packed.batches, ∃ run, Encodes codecs config run batch)
    (hcommit : commitBatches s.gateway.tables createdAt flush.consumed flush.prepared =
      .ok (ids, t))
    (hshown : ∀ b ∈ newBatches config ids flush.prepared, .worked (.created b) ∈ o) :
    Labelled codecs (h ++ o) t := by
  obtain ⟨hformat, hentries⟩ := formatDescriptor_commitBatches hcommit
  intro entry hentry
  rcases hentries entry hentry with hold | ⟨p, hp, rfl⟩
  · obtain ⟨d, hd, hprepared⟩ := hg.labelled entry hold
    exact ⟨d, hformat.trans hd, hprepared.append⟩
  · -- a batch of this flush
    have hbatch : p.2 ∈ flush.packed.batches.map Prod.fst := (List.of_mem_zip hp).2
    obtain ⟨batch, hmem, hfst⟩ := List.mem_map.mp hbatch
    obtain ⟨run, hrun⟩ := hencodes batch hmem
    have hcreated : (⟨p.1, config.compression, p.2⟩ : Created) ∈
        newBatches config ids flush.prepared := by
      rw [newBatches, ← List.map_uncurry_zip_eq_zipWith]
      exact List.mem_map.mpr ⟨p, hp, rfl⟩
    refine ⟨config.formatDescriptor, hformat.trans (hg.session config hsession), createdAt,
      config, run, batch, rfl, hrun, by rw [hfst], ?_⟩
    rw [hfst]
    exact List.mem_append_right h (hshown _ hcreated)

/-- **Work in a session keeps the store guarded.** -/
theorem Guarded.work {s : Daemon} {g : Gateway} {config : BatcherConfig} {event : Event}
    {k : List Observation} (hg : Guarded codecs h s) (hsession : s.session = some config)
    (hunder : event.isUnder config = true)
    (hstep : gatewayStep codecs s.gateway event = some (g, k)) :
    Guarded codecs (h ++ k.map .worked) ⟨g, event.session config⟩ := by
  have hstay : ∀ {o : List DaemonObservation}, Guarded codecs (h ++ o) ⟨s.gateway, some config⟩ :=
    hg.next hsession rfl (hg.labelled.keep rfl fun _ hentry => hentry)
      fun config' flush heq => hg.batcher_of_session hsession heq
  cases event with
  | push receivedAt envelope =>
    simp only [gatewayStep] at hstep
    split_ifs at hstep
    split at hstep
    · obtain ⟨rfl, rfl⟩ := Prod.mk.inj (Option.some.inj hstep)
      exact hstay
    · next sequence tables hpush =>
      obtain ⟨rfl, rfl⟩ := Prod.mk.inj (Option.some.inj hstep)
      obtain ⟨hformat, hready⟩ := formatDescriptor_pushMessage hpush
      exact hg.next hsession hformat (hg.labelled.keep hformat fun entry hentry => hready ▸ hentry)
        fun config' flush heq => hg.batcher_of_session hsession heq
  | plan config' now force =>
    obtain rfl : config' = config := of_decide_eq_true hunder
    simp only [gatewayStep] at hstep
    split_ifs at hstep
    split at hstep
    · obtain ⟨rfl, rfl⟩ := Prod.mk.inj (Option.some.inj hstep)
      exact hstay
    · next pending hpending =>
      split at hstep
      · next flush hplan =>
        obtain ⟨rfl, rfl⟩ := Prod.mk.inj (Option.some.inj hstep)
        obtain ⟨n, runs, -, hcovers⟩ := plan_eq_flush hplan
        refine hg.next hsession rfl (hg.labelled.keep rfl fun _ hentry => hentry) ?_
        intro config'' flush' heq
        obtain ⟨rfl, rfl⟩ := Prod.mk.inj (Option.some.inj heq)
        refine ⟨rfl, fun batch hbatch => ?_⟩
        obtain ⟨run, -, hencodes⟩ := exists_encodes_of_mem hcovers.encodes batch hbatch
        exact ⟨run, hencodes⟩
      · obtain ⟨rfl, rfl⟩ := Prod.mk.inj (Option.some.inj hstep)
        exact hstay
  | commit createdAt =>
    simp only [gatewayStep] at hstep
    split at hstep
    · exact absurd hstep (by simp)
    · next config' flush hbatcher =>
      obtain ⟨rfl, hencodes⟩ := hg.batcher_of_session hsession hbatcher
      split at hstep
      · obtain ⟨rfl, rfl⟩ := Prod.mk.inj (Option.some.inj hstep)
        exact hg.next hsession rfl (hg.labelled.keep rfl fun _ hentry => hentry) (by simp)
      · next ids tables hcommit =>
        obtain ⟨rfl, rfl⟩ := Prod.mk.inj (Option.some.inj hstep)
        obtain ⟨hformat, -⟩ := formatDescriptor_commitBatches hcommit
        refine hg.next hsession hformat (hg.commit hsession hencodes hcommit ?_) (by simp)
        intro b hb
        rw [List.map_append]
        exact List.mem_append_left _ (List.mem_map_of_mem (List.mem_map_of_mem hb))
  | confirm id =>
    obtain ⟨rfl, rfl⟩ := Prod.mk.inj (Option.some.inj hstep)
    refine hg.next hsession rfl (hg.labelled.keep rfl fun entry hentry => ?_)
      fun config' flush heq => hg.batcher_of_session hsession heq
    exact (OrderedTable.mem_entries_remove.mp hentry).1
  | crash =>
    obtain ⟨rfl, rfl⟩ := Prod.mk.inj (Option.some.inj hstep)
    exact ⟨hg.labelled.keep rfl fun _ hentry => hentry, by simp [Event.session], by simp⟩

/-- **Every event keeps the store guarded.**  A session begins by reconciling, works under one
configuration, and may end anywhere; only the first could change the recorded format. -/
theorem Guarded.step {s s' : Daemon} {e : DaemonEvent} (hg : Guarded codecs h s)
    (hstep : daemonStep codecs s e = some (s', o)) : Guarded codecs (h ++ o) s' := by
  unfold daemonStep at hstep
  split at hstep
  · next config faults hsession =>
    split_ifs at hstep
    split at hstep
    · next error tables hreconcile =>
      obtain ⟨rfl, rfl⟩ := Prod.mk.inj (Option.some.inj hstep)
      obtain ⟨hlabelled, -⟩ := hg.labelled.reconcile (reconciled_of_reconcileFormat hreconcile)
      exact ⟨hlabelled, by simp, by simp⟩
    · next outcome tables hreconcile =>
      obtain ⟨rfl, rfl⟩ := Prod.mk.inj (Option.some.inj hstep)
      obtain ⟨hlabelled, hformat⟩ :=
        hg.labelled.reconcile (reconciled_of_reconcileFormat hreconcile)
      refine ⟨hlabelled, ?_, by simp⟩
      intro config' heq
      obtain rfl := Option.some.inj heq
      exact hformat outcome rfl
  · next config event hsession =>
    split_ifs at hstep with hunder
    obtain ⟨⟨g, k⟩, hgateway, heq⟩ := Option.map_eq_some_iff.mp hstep
    obtain ⟨rfl, rfl⟩ := Prod.mk.inj heq
    exact hg.work hsession hunder hgateway
  · exact absurd hstep (by simp)

theorem guarded_of_exec {es : List DaemonEvent} {s : Daemon}
    (hrun : (daemon codecs).exec Daemon.fresh es = some (s, h)) : Guarded codecs h s := by
  refine EventMachine.exec_induction (P := fun _ h s => Guarded codecs h s) ?_ ?_ hrun
  · exact guarded_fresh codecs
  · intro es h s e t o _ hg hstep
    exact hg.step hstep

end

/-! ## The guarantee -/

/-- The batch was encoded under this format: in a session of a configuration with that
format, from a run of messages, and it was created with these bytes. -/
def EncodedUnder (codecs : Codecs) (h : List DaemonObservation) (d : FormatDescriptor)
    (b : StoredBatch) : Prop :=
  ∃ config run serialized, config.formatDescriptor = d ∧
    encode codecs config run = .ok (serialized, b.payload) ∧
    b.messageCount = UInt32.ofNat run.length ∧
    .worked (.created ⟨b.id, config.compression, b.prepared⟩) ∈ h

/-- Every batch that can be read was encoded under the format recorded now. -/
def ReadyUnderFormat (codecs : Codecs) (h : List DaemonObservation) (t : Tables) : Prop :=
  ∀ limit, ∃ batches, readyBatches t limit = .ok batches ∧
    ∀ b ∈ batches, ∃ d, formatDescriptor t = .ok (some d) ∧ EncodedUnder codecs h d b

/-- Labelled entries are read back as batches under the recorded format. -/
theorem Labelled.readyUnderFormat {codecs : Codecs} {h : List DaemonObservation} {t : Tables}
    (hl : Labelled codecs h t) : ReadyUnderFormat codecs h t := by
  intro limit
  have hread : ∀ entries : List (ℕ × Bytes), (∀ entry ∈ entries, ∃ d,
      formatDescriptor t = .ok (some d) ∧ PreparedUnder codecs h d entry.1 entry.2) →
      ∃ batches, (entries.mapM fun entry => decodeBatch entry.1 entry.2) = .ok batches ∧
        ∀ b ∈ batches, ∃ d, formatDescriptor t = .ok (some d) ∧ EncodedUnder codecs h d b := by
    intro entries
    induction entries with
    | nil => exact fun _ => ⟨[], rfl, by simp⟩
    | cons entry entries ih =>
      intro hentries
      obtain ⟨hhead, htail⟩ := List.forall_mem_cons.mp hentries
      obtain ⟨batches, hbatches, hall⟩ := ih htail
      obtain ⟨d, hd, createdAt, config, run, batch, hconfig, hencodes, hvalue, hmem⟩ := hhead
      refine ⟨⟨entry.1, createdAt, batch.1.messageCount, batch.1.payload⟩ :: batches, ?_, ?_⟩
      · rw [List.mapM_cons, hvalue, decodeBatch_encodeBatch, hbatches]
        rfl
      · refine List.forall_mem_cons.mpr ⟨⟨d, hd, config, run, batch.2, hconfig, ?_, ?_, hmem⟩, hall⟩
        · exact hencodes.encode_eq
        · exact hencodes.messageCount_eq
  exact hread _ fun entry hentry => hl entry (List.mem_of_mem_take hentry)

/-- **The payload format guard.**  In every state of every run of sessions, each under its
own configuration and with crashes anywhere, every ready batch was encoded under the format
recorded in the metadata; and reconciling that is refused or fails changes nothing. -/
theorem format_guard (codecs : Codecs) :
    (∀ es s h, (daemon codecs).exec Daemon.fresh es = some (s, h) →
      ReadyUnderFormat codecs h s.gateway.tables) ∧
    ∀ faults t configured error t',
      reconcileFormat faults t configured = (.error error, t') → t' = t := by
  refine ⟨fun es s h hrun => (guarded_of_exec hrun).labelled.readyUnderFormat, ?_⟩
  intro faults t configured error t' hreconcile
  cases reconciled_of_reconcileFormat hreconcile with
  | failed => rfl

/-- The configuration of the run above, with compression. -/
def zstdConfig : BatcherConfig := { plainConfig with compression := .zstd }

/-- A batch is left over without compression, so a session with compression is refused; a
session without drains it, and the next one may change the format. -/
def changingRun : List DaemonEvent :=
  [.start plainConfig fun _ => none, .work (.push ⟨1⟩ [10, 1, 7]),
    .work (.plan plainConfig ⟨2⟩ true), .work (.commit ⟨3⟩), .work .crash,
    .start zstdConfig fun _ => none, .start plainConfig fun _ => none, .work (.confirm 0),
    .work .crash, .start zstdConfig fun _ => none, .work (.push ⟨4⟩ [10, 1, 9]),
    .work (.plan zstdConfig ⟨5⟩ true), .work (.commit ⟨6⟩)]

def changingOutcomes (h : List DaemonObservation) :
    List (Except FormatError FormatOutcome) :=
  h.filterMap fun
    | .started _ outcome => some (.ok outcome)
    | .refused _ error => some (.error error)
    | .worked _ => none

theorem format_guard_changingRun :
    (∃ s h, (daemon plainCodecs).exec Daemon.fresh changingRun = some (s, h) ∧
      changingOutcomes h = [.ok .recorded,
        .error (.incompatible plainConfig.formatDescriptor zstdConfig.formatDescriptor 1),
        .ok .unchanged, .ok (.updated plainConfig.formatDescriptor)] ∧
      ReadyUnderFormat plainCodecs h s.gateway.tables) ∧
    (reconcileFormat (fun _ => some (.database "disk full")) Tables.create
      plainConfig.formatDescriptor).2 = Tables.create := by
  obtain ⟨hruns, hfailed⟩ := format_guard plainCodecs
  have hshown : ((daemon plainCodecs).exec Daemon.fresh changingRun).map (fun p =>
      changingOutcomes p.2) = some [.ok .recorded,
        .error (.incompatible plainConfig.formatDescriptor zstdConfig.formatDescriptor 1),
        .ok .unchanged, .ok (.updated plainConfig.formatDescriptor)] := by
    decide +kernel
  obtain ⟨⟨s, h⟩, hrun, houtcomes⟩ := Option.map_eq_some_iff.mp hshown
  refine ⟨⟨s, h, hrun, houtcomes, hruns _ s h hrun⟩, ?_⟩
  exact hfailed (fun _ => some (.database "disk full")) Tables.create
    plainConfig.formatDescriptor (.store (.database "disk full")) _ rfl

end Batcher
end Robins
