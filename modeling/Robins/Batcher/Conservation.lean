import Robins.Batcher.Gateway
import Robins.Protocol.WireCodec

/-!
# Nothing is lost between ingress and anchor

Every run of the gateway on an empty store is followed by the account of a `Conveyor`: pushes
arrive at its back, and a commit takes messages from its front into the groups of its batches or
drops them.  Where a message is then follows from the account, in which each arrival has exactly
one place.

## The relation

`Represents` relates the gateway and the account, together with the contents of the tables and the
envelopes of every batch ever made.  A position on the conveyor is a sequence number; a group is
the batch with the identifier of its place.  Each operation of the store moves the account by one
of its own operations: `Represents.push`, `Represents.commit` and `Represents.confirm`.  A crash
moves nothing, since a step that was not committed has left no trace, and this is where durability
enters: a plan is made in memory, and whatever was planned before the crash is planned again.

## What follows

`Conserved` is read off the account: every pushed envelope is pending, or in exactly one batch, or
rejected; the batches hold the envelopes in push order, count them, and open to what was pushed;
and no number is used twice.  That the opened batches have the very envelopes that arrived, and
not others which happen to decode alike, is why `Carries` goes through `Origin`.

Identifiers are 64 bits wide and message counts 32.  A run of fewer than `2 ^ 32` events reaches
neither bound, and this is the only use of its length.
-/

namespace Robins
namespace Batcher

open BatchStore Protocol

/-! ## The relation -/

/-- The decoded message is one of those pushed. -/
def Origin (codecs : Codecs) (pushed : List StoredMessage) (d : Decoded) : Prop :=
  ∃ m ∈ pushed, m.sequence = d.id ∧ decodeEnvelope codecs.prost m.envelope = .ok d.envelope

/-- The batch carries exactly the envelopes of the run. -/
structure Carries (codecs : Codecs) (run : List Decoded) (b : Created) : Prop where
  run_ne_nil : run ≠ []
  messageCount_eq : b.batch.messageCount = UInt32.ofNat run.length
  open_eq : openPayload codecs b.compression b.batch.payload =
    some (run.map Decoded.envelope)

/-- The gateway `s`, reached by `n` events that showed `h`, stores the contents
`c` and is accounted for by `k`, where `runs` are the messages of the batches ever
made. -/
structure Represents (codecs : Codecs) (n : ℕ) (h : List Observation) (s : Gateway)
    (c : Contents) (k : Conveyor) (runs : List (List Decoded)) : Prop where
  holds : s.tables.Holds c
  arrived_le : k.arrived ≤ n
  fits : ∀ m ∈ pushes h, m.envelope.length ≤ isizeMax
  sequences : (pushes h).map StoredMessage.sequence = List.range k.arrived
  nextSequence : c.nextSequence = k.arrived
  pending : c.pending = (pushes h).drop k.taken
  groups : k.groups = runs.map (List.map Decoded.id)
  origin : ∀ run ∈ runs, ∀ d ∈ run, Origin codecs (pushes h) d
  carries : List.Forall₂ (Carries codecs) runs (created h)
  ids : (created h).map Created.id = List.range c.nextBatchId
  confirmed_lt : ∀ id ∈ confirmations h, id < c.nextBatchId
  ready : c.ready.map (fun b => (b.id, b.prepared)) =
    ((created h).filter fun b => decide (b.id ∉ confirmations h)).map fun b => (b.id, b.batch)
  dropped : rejectedIds (rejections h) = k.dropped
  isRejection : ∀ err ∈ rejections h, err.IsRejection
  batcher : ∀ {config flush}, s.batcher = some (config, flush) →
    ∃ m runs, m ≤ k.arrived - k.taken ∧
      flush.Covers codecs config (((pushes h).drop k.taken).take m) runs

theorem represents_fresh (codecs : Codecs) :
    Represents codecs 0 [] Gateway.fresh .fresh .empty [] where
  holds := holds_create
  arrived_le := le_rfl
  fits := by simp [pushes]
  sequences := rfl
  nextSequence := rfl
  pending := rfl
  groups := rfl
  origin := by simp
  carries := .nil
  ids := rfl
  confirmed_lt := by simp [confirmations]
  ready := rfl
  dropped := rfl
  isRejection := by simp [rejections]
  batcher := by simp [Gateway.fresh]

section Facts

variable {codecs : Codecs} {n : ℕ} {h : List Observation} {s : Gateway} {c : Contents}
  {k : Conveyor} {runs : List (List Decoded)}

/-- The relation outlasts events that change nothing, and forgetting a step. -/
theorem Represents.forget (hr : Represents codecs n h s c k runs) :
    Represents codecs (n + 1) h { s with batcher := none } c k runs :=
  { hr with
    arrived_le := hr.arrived_le.trans (Nat.le_succ n)
    batcher := by simp }

theorem Represents.stay (hr : Represents codecs n h s c k runs) :
    Represents codecs (n + 1) h s c k runs :=
  { hr with arrived_le := hr.arrived_le.trans (Nat.le_succ n) }

theorem Represents.length_pushes (hr : Represents codecs n h s c k runs) :
    (pushes h).length = k.arrived := by
  rw [← List.length_map (f := StoredMessage.sequence), hr.sequences, List.length_range]

/-- The waiting positions are the sequence numbers of the pending messages. -/
theorem Represents.map_sequence_pending (hr : Represents codecs n h s c k runs) :
    c.pending.map StoredMessage.sequence = k.waiting := by
  rw [hr.pending, List.map_drop, hr.sequences, List.range_eq_range', List.drop_range',
    Conveyor.waiting]
  simp

/-- The messages a prefix of the pending ones consumes. -/
theorem Represents.map_sequence_take (hr : Represents codecs n h s c k runs) {m : ℕ}
    (hm : m ≤ k.arrived - k.taken) :
    (((pushes h).drop k.taken).take m).map StoredMessage.sequence = List.range' k.taken m := by
  rw [← hr.pending, List.map_take, hr.map_sequence_pending, Conveyor.waiting,
    List.take_range'_of_length_ge hm]

/-- No run is empty, so there are at most as many as messages in them. -/
theorem length_le_length_runs {β : Type} {R : List Decoded → β → Prop} {runs : List (List Decoded)}
    {batches : List β} (hne : ∀ run batch, R run batch → run ≠ [])
    (h : List.Forall₂ R runs batches) :
    batches.length ≤ (runs.map (List.map Decoded.id)).flatten.length := by
  induction h with
  | nil => exact Nat.zero_le _
  | @cons run batch _ _ hrun _ ih =>
    have hpos := List.length_pos_of_ne_nil (hne run batch hrun)
    rw [List.length_cons, List.map_cons, List.flatten_cons, List.length_append, List.length_map]
    omega

/-- No batch is empty, so there are at most as many as messages taken. -/
theorem Represents.nextBatchId_le (hr : Represents codecs n h s c k runs) :
    c.nextBatchId ≤ k.taken := by
  have hlen : (created h).length = c.nextBatchId := by
    rw [← List.length_map (f := Created.id), hr.ids, List.length_range]
  have hflat := length_le_length_runs (fun _ _ hcarry => hcarry.run_ne_nil) hr.carries
  rw [hlen, ← hr.groups] at hflat
  have htaken := k.partition.length_eq
  rw [List.length_append, List.length_range] at htaken
  omega

end Facts

/-! ## The operations

One lemma for each transaction of the store.  A push puts the message at the back, under the next
sequence number.  A commit is the long one: what it consumed is what the plan was made of, so the
groups of the account are the batches of the store, under the identifiers that come next.  A
confirmation takes a group away that is there, or nothing. -/

section Steps

variable {codecs : Codecs} {n : ℕ} {h : List Observation} {s : Gateway} {c : Contents}
  {k : Conveyor} {runs : List (List Decoded)}

theorem Origin.mono {pushed pushed' : List StoredMessage} (hsub : pushed ⊆ pushed')
    {d : Decoded} (hd : Origin codecs pushed d) : Origin codecs pushed' d := by
  obtain ⟨m, hm, heq⟩ := hd
  exact ⟨m, hsub hm, heq⟩

/-- A push arrives at the back of the queue. -/
theorem Represents.push (hr : Represents codecs n h s c k runs) (hn : n < 2 ^ 32)
    {receivedAt : Timestamp} {envelope : Bytes} {sequence : MessageId} {tables : Tables}
    (hlen : envelope.length ≤ isizeMax)
    (hpush : pushMessage s.tables receivedAt envelope = .ok (sequence, tables)) :
    Represents codecs (n + 1) (h ++ [.pushed ⟨sequence, receivedAt, envelope⟩])
      { s with tables := tables } (c.push receivedAt envelope) k.push runs := by
  have harrived := hr.arrived_le
  have htaken := k.taken_le
  have hnext : c.nextSequence < 2 ^ 64 := by
    rw [hr.nextSequence]
    omega
  obtain ⟨tables', heq, hholds⟩ := pushMessage_eq hr.holds hnext receivedAt envelope
  rw [hpush] at heq
  obtain ⟨rfl, rfl⟩ := Prod.mk.inj (Except.ok.inj heq)
  have hpushes : pushes (h ++ [.pushed ⟨c.nextSequence, receivedAt, envelope⟩]) =
      pushes h ++ [⟨c.nextSequence, receivedAt, envelope⟩] := pushes_append _ _
  have hlength := hr.length_pushes
  have hsub : pushes h ⊆ pushes (h ++ [.pushed ⟨c.nextSequence, receivedAt, envelope⟩]) := by
    rw [hpushes]
    exact List.subset_append_left _ _
  have hdrop (m : StoredMessage) :
      (pushes h ++ [m]).drop k.taken = (pushes h).drop k.taken ++ [m] :=
    List.drop_append_of_le_length (by omega)
  refine { hr with
    holds := hholds
    arrived_le := Nat.succ_le_succ harrived
    fits := ?_
    sequences := ?_
    nextSequence := congrArg Nat.succ hr.nextSequence
    pending := ?_
    origin := fun run hrun d hd => (hr.origin run hrun d hd).mono hsub
    carries := ?_
    ids := ?_
    confirmed_lt := ?_
    ready := ?_
    dropped := ?_
    isRejection := ?_
    batcher := ?_ }
  · intro m hm
    rw [hpushes] at hm
    rcases List.mem_append.mp hm with hm | hm
    · exact hr.fits m hm
    · obtain rfl := List.mem_singleton.mp hm
      exact hlen
  · rw [hpushes, List.map_append, hr.sequences, Conveyor.push_arrived, List.range_succ,
      hr.nextSequence]
    rfl
  · rw [hpushes, Contents.push_pending, Conveyor.push_taken, hdrop, hr.pending]
  · simpa using hr.carries
  · simpa using hr.ids
  · simpa using hr.confirmed_lt
  · simpa using hr.ready
  · simpa using hr.dropped
  · simpa using hr.isRejection
  · intro config flush hb
    obtain ⟨m, runs', hm, hcovers⟩ := hr.batcher hb
    have htake (msg : StoredMessage) :
        ((pushes h ++ [msg]).drop k.taken).take m = ((pushes h).drop k.taken).take m := by
      rw [hdrop, List.take_append_of_le_length (by rw [List.length_drop]; omega)]
    refine ⟨m, runs', ?_, ?_⟩
    · rw [Conveyor.push_arrived, Conveyor.push_taken]
      omega
    · rw [hpushes, Conveyor.push_taken, htake]
      exact hcovers

/-- A plan is about messages at the front of the queue. -/
theorem Represents.plan (hr : Represents codecs n h s c k runs) {config : BatcherConfig}
    {now : Timestamp} {force : Bool} {pending : List StoredMessage} {flush : Flush}
    (hpending : pendingMessages s.tables config.maxMessages = .ok pending)
    (hplan : Batcher.plan codecs config pending now force = .ok (.flush flush)) :
    Represents codecs (n + 1) h { s with batcher := some (config, flush) } c k runs := by
  refine { hr.stay with batcher := ?_ }
  intro config' flush' hb
  obtain ⟨rfl, rfl⟩ := Prod.mk.inj (Option.some.inj hb)
  rw [pendingMessages_eq hr.holds] at hpending
  obtain rfl := Except.ok.inj hpending
  obtain ⟨m, runs', hm, hcovers⟩ := plan_eq_flush hplan
  rw [hr.pending, List.length_take, List.length_drop, hr.length_pushes] at hm
  rw [hr.pending, List.take_take, min_eq_left (hm.trans (min_le_left _ _))] at hcovers
  exact ⟨m, runs', hm.trans (min_le_right _ _), hcovers⟩

/-- Removing the messages of a prefix leaves the rest. -/
theorem filter_notMem_take {α : Type} {f : α → ℕ} {l : List α} (hnodup : (l.map f).Nodup)
    (m : ℕ) : l.filter (fun a => decide (f a ∉ (l.take m).map f)) = l.drop m := by
  have hsplit : (l.take m).map f ++ (l.drop m).map f = l.map f := by
    rw [← List.map_append, List.take_append_drop]
  rw [← hsplit] at hnodup
  obtain ⟨-, -, hdisjoint⟩ := List.nodup_append.mp hnodup
  have htake : (l.take m).filter (fun a => decide (f a ∉ (l.take m).map f)) = [] :=
    List.filter_eq_nil_iff.mpr fun a ha => by
      have hmem := List.mem_map_of_mem (f := f) ha
      simpa using hmem
  have hdrop : (l.drop m).filter (fun a => decide (f a ∉ (l.take m).map f)) = l.drop m :=
    List.filter_eq_self.mpr fun a ha => decide_eq_true fun hmem =>
      hdisjoint _ hmem _ (List.mem_map_of_mem ha) rfl
  calc l.filter (fun a => decide (f a ∉ (l.take m).map f))
      = (l.take m ++ l.drop m).filter (fun a => decide (f a ∉ (l.take m).map f)) := by
        rw [List.take_append_drop]
    _ = l.drop m := by rw [List.filter_append, htake, hdrop, List.nil_append]

theorem map_id_newBatches (config : BatcherConfig) (id : ℕ) (prepared : List PreparedBatch) :
    (newBatches config (List.range' id prepared.length) prepared).map Created.id =
      List.range' id prepared.length := by
  induction prepared generalizing id with
  | nil => rfl
  | cons batch prepared ih =>
    rw [List.length_cons, List.range'_succ, newBatches, List.zipWith_cons_cons, List.map_cons]
    exact congrArg _ (ih (id + 1))

theorem le_id_of_mem_newBatches {config : BatcherConfig} {id : ℕ} {prepared : List PreparedBatch}
    {b : Created} (hb : b ∈ newBatches config (List.range' id prepared.length) prepared) :
    id ≤ b.id := by
  have hmem : b.id ∈ List.range' id prepared.length := by
    rw [← map_id_newBatches config]
    exact List.mem_map_of_mem hb
  exact (List.mem_range'_1.mp hmem).1

theorem map_stamp_eq_map_newBatches (config : BatcherConfig) (createdAt : Timestamp) (id : ℕ)
    (prepared : List PreparedBatch) :
    (Contents.stamp createdAt id prepared).map (fun b => (b.id, b.prepared)) =
      (newBatches config (List.range' id prepared.length) prepared).map
        fun b => (b.id, b.batch) := by
  induction prepared generalizing id with
  | nil => rfl
  | cons batch prepared ih =>
    rw [List.length_cons, List.range'_succ, newBatches, List.zipWith_cons_cons, List.map_cons,
      Contents.stamp, List.map_cons]
    exact congrArg _ (ih (id + 1))

theorem carries_newBatches (hc : codecs.Lawful) {config : BatcherConfig}
    {runs : List (List Decoded)} {batches : List (PreparedBatch × ℕ)}
    (hencodes : List.Forall₂ (Encodes codecs config) runs batches)
    (hsize : ∀ run ∈ runs, ∀ d ∈ run, d.envelope.size ≤ isizeMax) (id : ℕ) :
    List.Forall₂ (Carries codecs) runs (newBatches config
      (List.range' id (batches.map Prod.fst).length) (batches.map Prod.fst)) := by
  induction hencodes generalizing id with
  | nil => exact .nil
  | cons hencode _ ih =>
    obtain ⟨hhead, htail⟩ := List.forall_mem_cons.mp hsize
    rw [List.map_cons, List.length_cons, List.range'_succ, newBatches, List.zipWith_cons_cons]
    refine .cons ⟨hencode.run_ne_nil, hencode.messageCount_eq, ?_⟩ (ih htail (id + 1))
    exact openPayload_of_encode hc hhead hencode.encode_eq

/-- A flush makes no more batches than it was shown messages. -/
theorem Flush.Covers.length_prepared_le {config : BatcherConfig} {candidate : List StoredMessage}
    {flush : Flush} (hcovers : flush.Covers codecs config candidate runs) :
    flush.prepared.length ≤ candidate.length := by
  have hruns := length_le_length_runs (fun _ _ hencode => hencode.run_ne_nil) hcovers.encodes
  have hle := hcovers.sublist.length_le
  rw [hcovers.consumed_eq, List.length_map] at hle
  rw [Flush.prepared, List.length_map]
  exact hruns.trans hle

/-- What a message decodes to is no longer than the message. -/
theorem Flush.Covers.size_le (hc : codecs.Lawful) {config : BatcherConfig}
    {candidate : List StoredMessage} {flush : Flush}
    (hcovers : flush.Covers codecs config candidate runs)
    (hfits : ∀ msg ∈ candidate, msg.envelope.length ≤ isizeMax) :
    ∀ run ∈ runs, ∀ d ∈ run, d.envelope.size ≤ isizeMax := by
  intro run hrun d hd
  obtain ⟨msg, hmsg, -, hdecode⟩ := hcovers.decodes run hrun d hd
  exact (hc.prost.size_le hdecode).trans (hfits msg hmsg)

/-- A commit takes its messages off the front of the queue. -/
theorem Represents.commit (hc : codecs.Lawful) (hr : Represents codecs n h s c k runs)
    (hn : n < 2 ^ 32) {createdAt : Timestamp} {config : BatcherConfig} {flush : Flush}
    {ids : List BatchId} {tables : Tables} (hbatcher : s.batcher = some (config, flush))
    (hcommit : commitBatches s.tables createdAt flush.consumed flush.prepared =
      .ok (ids, tables)) :
    ∃ c' k' runs', Represents codecs (n + 1)
      (h ++ ((newBatches config ids flush.prepared).map .created ++
        flush.packed.rejected.map .rejected)) ⟨tables, none⟩ c' k' runs' := by
  obtain ⟨m, new, hm, hcovers⟩ := hr.batcher hbatcher
  have harrived := hr.arrived_le
  have htaken := k.taken_le
  have hconsumed : flush.consumed = List.range' k.taken m := by
    rw [hcovers.consumed_eq, hr.map_sequence_take hm]
  have hsub := hcovers.sublist
  have hperm := hcovers.perm
  rw [hconsumed] at hsub hperm
  -- the identifiers the store gives
  have hcount : flush.prepared.length ≤ m :=
    hcovers.length_prepared_le.trans (List.length_take_le _ _)
  have hnext := hr.nextBatchId_le
  have hmem : flush.consumed ⊆ c.pending.map StoredMessage.sequence := by
    rw [hcovers.consumed_eq, ← hr.pending]
    exact List.map_subset _ (List.take_subset _ _)
  have hnodup : flush.consumed.Nodup := by
    rw [hconsumed]
    exact List.nodup_range'
  have hfits : c.nextBatchId + flush.prepared.length ≤ 2 ^ 64 := by omega
  obtain ⟨tables', heq, hholds⟩ := commitBatches_eq hr.holds createdAt hmem hnodup hfits
  rw [hcommit] at heq
  obtain ⟨rfl, rfl⟩ := Prod.mk.inj (Except.ok.inj heq)
  have hsize := hcovers.size_le hc fun msg hmsg =>
    hr.fits msg (List.mem_of_mem_drop (List.mem_of_mem_take hmsg))
  have hpushes : pushes (h ++ ((newBatches config (List.range' c.nextBatchId
      flush.prepared.length) flush.prepared).map .created ++
        flush.packed.rejected.map .rejected)) = pushes h := by simp
  refine ⟨c.commit createdAt flush.consumed flush.prepared,
    k.take m (new.map (List.map Decoded.id)) (rejectedIds flush.packed.rejected) hm hsub hperm,
    runs ++ new, ?_⟩
  refine {
    holds := hholds
    arrived_le := harrived.trans (Nat.le_succ n)
    fits := by rw [hpushes]; exact hr.fits
    sequences := by rw [hpushes]; exact hr.sequences
    nextSequence := hr.nextSequence
    pending := ?_
    groups := ?_
    origin := ?_
    carries := ?_
    ids := ?_
    confirmed_lt := ?_
    ready := ?_
    dropped := ?_
    isRejection := ?_
    batcher := by simp }
  · have hascending : (c.pending.map StoredMessage.sequence).Nodup := by
      rw [hr.map_sequence_pending]
      exact List.nodup_range'
    rw [hpushes, Contents.commit_pending, Conveyor.take_taken, hcovers.consumed_eq, ← hr.pending,
      filter_notMem_take hascending, hr.pending, List.drop_drop]
  · rw [Conveyor.take_groups, hr.groups, List.map_append]
  · intro run hrun d hd
    rw [hpushes]
    rcases List.mem_append.mp hrun with hrun | hrun
    · exact hr.origin run hrun d hd
    · obtain ⟨msg, hmsg, hmsgd⟩ := hcovers.decodes run hrun d hd
      exact ⟨msg, List.mem_of_mem_drop (List.mem_of_mem_take hmsg), hmsgd⟩
  · have hnew := carries_newBatches hc hcovers.encodes hsize c.nextBatchId
    simp only [created_append, created_map_created, created_map_rejected, List.append_nil]
    exact List.rel_append hr.carries hnew
  · simp only [created_append, created_map_created, created_map_rejected, List.append_nil,
      List.map_append, hr.ids, map_id_newBatches, Contents.commit_nextBatchId]
    exact Conveyor.range_append_range' _ _
  · intro id hid
    simp only [confirmations_append, confirmations_map_created, confirmations_map_rejected,
      List.append_nil] at hid
    exact (hr.confirmed_lt id hid).trans_le (Nat.le_add_right _ _)
  · have hfresh : ∀ b ∈ newBatches config (List.range' c.nextBatchId flush.prepared.length)
        flush.prepared, b.id ∉ confirmations h := fun b hb hid =>
      absurd (hr.confirmed_lt b.id hid) (Nat.not_lt.mpr (le_id_of_mem_newBatches hb))
    simp only [created_append, created_map_created, created_map_rejected, List.append_nil,
      confirmations_append, confirmations_map_created, confirmations_map_rejected,
      List.filter_append, List.map_append, Contents.commit_ready, hr.ready,
      map_stamp_eq_map_newBatches config]
    rw [List.filter_eq_self.mpr fun b hb => decide_eq_true (hfresh b hb)]
  · simp only [rejections_append, rejections_map_created, rejections_map_rejected,
      List.nil_append, rejectedIds_append, hr.dropped, Conveyor.take_dropped]
  · intro err herr
    simp only [rejections_append, rejections_map_created, rejections_map_rejected,
      List.nil_append, List.mem_append] at herr
    exact herr.elim (hr.isRejection err) (hcovers.isRejection err)

/-- A confirmation takes a batch out of the ready ones. -/
theorem Represents.confirm (hr : Represents codecs n h s c k runs) (id : BatchId) :
    Represents codecs (n + 1)
      (h ++ if (s.tables.readyBatches.get? id).isSome then [.confirmed id] else [])
      { s with tables := confirmBatch s.tables id } (c.confirm id) k runs := by
  have hholds := confirmBatch_holds hr.holds id
  have hlisted : (s.tables.readyBatches.get? id).isSome ↔ id ∈ c.ready.map StoredBatch.id := by
    rw [Option.isSome_iff_exists]
    simp only [OrderedTable.get?_eq_some_iff, hr.holds.ready, List.mem_map, StoredBatch.entry,
      Prod.mk.injEq]
    constructor
    · rintro ⟨value, b, hb, rfl, -⟩
      exact ⟨b, hb, rfl⟩
    · rintro ⟨b, hb, rfl⟩
      exact ⟨_, b, hb, rfl, rfl⟩
  by_cases hid : id ∈ c.ready.map StoredBatch.id
  · rw [if_pos (hlisted.mpr hid)]
    refine { hr.stay with
      holds := hholds
      fits := by simpa using hr.fits
      sequences := by simpa using hr.sequences
      pending := by simpa using hr.pending
      origin := by simpa using hr.origin
      carries := by simpa using hr.carries
      ids := by simpa using hr.ids
      confirmed_lt := ?_
      ready := ?_
      dropped := by simpa using hr.dropped
      isRejection := by simpa using hr.isRejection
      batcher := ?_ }
    · intro id' hid'
      have hcases : id' ∈ confirmations h ∨ id' = id := by
        simpa using hid'
      rcases hcases with hid' | rfl
      · exact hr.confirmed_lt id' hid'
      · obtain ⟨b, hb, rfl⟩ := List.mem_map.mp hid
        exact c.id_lt b hb
    · have hold : (created h).filter (fun b => decide (b.id ∉ confirmations (h ++ [.confirmed id])))
          = ((created h).filter fun b => decide (b.id ∉ confirmations h)).filter
            fun b => decide (b.id ≠ id) := by
        rw [List.filter_filter]
        refine List.filter_congr fun b _ => ?_
        simp [not_or, Bool.and_comm]
      have hcreated : created (h ++ [.confirmed id]) = created h := by simp
      have hfilter : ∀ {α : Type} (l : List α) (f : α → ℕ × PreparedBatch),
          (l.filter fun a => decide ((f a).1 ≠ id)).map f =
            (l.map f).filter fun p => decide (p.1 ≠ id) := by
        intro α l f
        rw [List.filter_map]
        rfl
      rw [hcreated, hold, hfilter _ fun b : Created => (b.id, b.batch), ← hr.ready, ← hfilter]
      rfl
    · intro config flush hb
      simpa using hr.batcher hb
  · rw [if_neg (mt hlisted.mp hid), List.append_nil]
    have hsame : c.confirm id = c := by
      refine Contents.ext rfl ?_ rfl rfl
      refine List.filter_eq_self.mpr fun b hb => decide_eq_true ?_
      rintro rfl
      exact hid (List.mem_map_of_mem hb)
    rw [hsame] at hholds ⊢
    exact { hr.stay with holds := hholds, batcher := hr.batcher }

/-- **Every event moves the account.**  A push, a commit and a confirmation move it by the
operation of the same name; planning, failing and crashing leave it where it is. -/
theorem Represents.step (hc : codecs.Lawful) (hr : Represents codecs n h s c k runs)
    (hn : n < 2 ^ 32) {e : Event} {s' : Gateway} {o : List Observation}
    (hstep : gatewayStep codecs s e = some (s', o)) :
    ∃ c' k' runs', Represents codecs (n + 1) (h ++ o) s' c' k' runs' := by
  cases move_of_gatewayStep hstep with
  | stay => exact ⟨c, k, runs, by rw [List.append_nil]; exact hr.stay⟩
  | push hlen hpush => exact ⟨_, _, _, hr.push hn hlen hpush⟩
  | plan hpending hplan =>
    exact ⟨c, k, runs, by rw [List.append_nil]; exact hr.plan hpending hplan⟩
  | commit hbatcher hcommit => exact hr.commit hc hn hbatcher hcommit
  | confirm id => exact ⟨_, _, _, hr.confirm id⟩
  | forget => exact ⟨c, k, runs, by rw [List.append_nil]; exact hr.forget⟩

end Steps

/-- **Every run is accounted for.**  The number that goes up with each event bounds the sequence
numbers and identifiers that may have been given out. -/
theorem represents_of_exec {codecs : Codecs} (hc : codecs.Lawful) {es : List Event} {s : Gateway}
    {h : List Observation} (hrun : (gateway codecs).exec Gateway.fresh es = some (s, h))
    (hlen : es.length < 2 ^ 32) : ∃ c k runs, Represents codecs es.length h s c k runs := by
  revert hlen
  refine EventMachine.exec_induction (P := fun es h s => es.length < 2 ^ 32 →
    ∃ c k runs, Represents codecs es.length h s c k runs) ?_ ?_ hrun
  · intro _
    exact ⟨_, _, _, represents_fresh codecs⟩
  · intro es h s e t o _ ih hstep hlen
    rw [List.length_append, List.length_singleton] at hlen ⊢
    obtain ⟨c, k, runs, hr⟩ := ih (by omega)
    exact hr.step hc (by omega) hstep

/-! ## Conservation -/

/-- The sequence numbers in the pending table. -/
def pendingIds (s : Gateway) : List MessageId := s.tables.pendingMessages.entries.map Prod.fst

/-- The messages that were consumed and not rejected, in push order. -/
def batched (s : Gateway) (h : List Observation) : List StoredMessage :=
  (pushes h).filter fun m =>
    decide (m.sequence ∉ pendingIds s ∧ m.sequence ∉ rejectedIds (rejections h))

/-- Where every pushed message is, given which messages and which envelopes each
batch ever created holds. -/
structure Account (codecs : Codecs) (s : Gateway) (h : List Observation)
    (manifest : List (List MessageId)) (contents : List (List SignedEnvelope)) : Prop where
  /-- Pending, in one batch, or rejected. -/
  accounted : (pendingIds s ++ (manifest.flatten ++ rejectedIds (rejections h))).Perm
    ((pushes h).map StoredMessage.sequence)
  opened : (created h).map (fun b => openPayload codecs b.compression b.batch.payload) =
    contents.map some
  /-- `message_count` is the number of envelopes. -/
  counted : (created h).map (fun b => b.batch.messageCount.toNat) = contents.map List.length
  /-- Each batch holds the envelopes of its own messages. -/
  sized : manifest.map List.length = contents.map List.length
  /-- The batches, in identifier order, hold the batched messages in push order. -/
  ordered : manifest.flatten = (batched s h).map StoredMessage.sequence
  /-- What they hold of each is what its stored bytes decode to. -/
  decoded : (batched s h).map (fun m => decodeEnvelope codecs.prost m.envelope) =
    contents.flatten.map .ok

/-- Durable conservation in a state `s` reached with history `h`. -/
structure Conserved (codecs : Codecs) (s : Gateway) (h : List Observation) : Prop where
  /-- Sequence numbers ascend strictly, so none is reused. -/
  sequences : ((pushes h).map StoredMessage.sequence).Pairwise (· < ·)
  /-- Batch identifiers ascend strictly, so none is reused. -/
  batchIds : ((created h).map Created.id).Pairwise (· < ·)
  /-- Messages are rejected as undecodable or too large only. -/
  isRejection : ∀ err ∈ rejections h, err.IsRejection
  /-- The pending table lists the messages pushed last, as they were pushed. -/
  pending : ∃ taken, ∀ limit,
    pendingMessages s.tables limit = .ok (((pushes h).drop taken).take limit)
  /-- Only batches that were created are confirmed. -/
  confirmed : confirmations h ⊆ (created h).map Created.id
  /-- The ready table lists the batches that were not confirmed, as they were created. -/
  ready : ∃ ready : List StoredBatch,
    (∀ limit, readyBatches s.tables limit = .ok (ready.take limit)) ∧
    ready.map (fun b => (b.id, b.prepared)) =
      ((created h).filter fun b => decide (b.id ∉ confirmations h)).map fun b => (b.id, b.batch)
  /-- Every pushed message is in exactly one place. -/
  account : ∃ manifest contents, Account codecs s h manifest contents

/-- Two lists with the same keys agree on what the keys determine. -/
theorem map_eq_map_of_map_eq {α β γ : Type} {f : α → ℕ} {g : β → ℕ} {F : α → γ} {G : β → γ}
    {l : List α} {l' : List β} (hkeys : l.map f = l'.map g)
    (h : ∀ a ∈ l, ∀ b ∈ l', f a = g b → F a = G b) : l.map F = l'.map G := by
  induction l generalizing l' with
  | nil =>
    obtain rfl := List.map_eq_nil_iff.mp hkeys.symm
    rfl
  | cons a l ih =>
    cases l' with
    | nil => exact absurd hkeys (by simp)
    | cons b l' =>
      obtain ⟨hhead, htail⟩ := List.cons.inj hkeys
      have hrest := ih htail fun a ha b hb =>
        h a (List.mem_cons_of_mem _ ha) b (List.mem_cons_of_mem _ hb)
      have hfirst := h a List.mem_cons_self b List.mem_cons_self hhead
      rw [List.map_cons, List.map_cons, hfirst, hrest]

section Reading

variable {codecs : Codecs} {n : ℕ} {h : List Observation} {s : Gateway} {c : Contents}
  {k : Conveyor} {runs : List (List Decoded)}

theorem Represents.pendingIds_eq (hr : Represents codecs n h s c k runs) :
    pendingIds s = k.waiting := by
  rw [pendingIds, hr.holds.pending, List.map_map, ← hr.map_sequence_pending]
  rfl

/-- The batched messages are the positions in a group. -/
theorem Represents.map_sequence_batched (hr : Represents codecs n h s c k runs) :
    (batched s h).map StoredMessage.sequence = k.groups.flatten := by
  rw [k.flatten_groups_eq_filter, ← hr.sequences, List.filter_map, batched, hr.pendingIds_eq,
    hr.dropped]
  rfl

theorem Represents.counted (hr : Represents codecs n h s c k runs) (hn : n < 2 ^ 32) :
    (created h).map (fun b => b.batch.messageCount.toNat) = runs.map List.length := by
  have hsmall : ∀ run ∈ runs, run.length < 2 ^ 32 := by
    intro run hrun
    have hsub : (run.map Decoded.id).length ≤ k.groups.flatten.length := by
      rw [hr.groups]
      exact (List.sublist_flatten_of_mem (List.mem_map_of_mem hrun)).length_le
    have htaken := k.partition.length_eq
    have harrived := hr.arrived_le
    have hle := k.taken_le
    rw [List.length_append, List.length_range] at htaken
    rw [List.length_map] at hsub
    omega
  have hcarries := hr.carries
  clear hr
  generalize created h = bs at hcarries ⊢
  induction hcarries with
  | nil => rfl
  | cons hcarry _ ih =>
    obtain ⟨hhead, htail⟩ := List.forall_mem_cons.mp hsmall
    rw [List.map_cons, List.map_cons, ih htail, hcarry.messageCount_eq,
      UInt32.toNat_ofNat_of_lt' hhead]

theorem Represents.opened (hr : Represents codecs n h s c k runs) :
    (created h).map (fun b => openPayload codecs b.compression b.batch.payload) =
      (runs.map (List.map Decoded.envelope)).map some := by
  have hcarries := hr.carries
  clear hr
  generalize created h = bs at hcarries ⊢
  induction hcarries with
  | nil => rfl
  | cons hcarry _ ih => rw [List.map_cons, ih, hcarry.open_eq]; rfl

theorem Represents.decoded (hr : Represents codecs n h s c k runs) :
    (batched s h).map (fun m => decodeEnvelope codecs.prost m.envelope) =
      (runs.map (List.map Decoded.envelope)).flatten.map .ok := by
  have hkeys : (batched s h).map StoredMessage.sequence = runs.flatten.map Decoded.id := by
    rw [hr.map_sequence_batched, hr.groups, List.map_flatten]
  have hnodup : ((pushes h).map StoredMessage.sequence).Nodup := by
    rw [hr.sequences]
    exact List.nodup_range
  have hagree : ∀ m ∈ batched s h, ∀ d ∈ runs.flatten, m.sequence = d.id →
      decodeEnvelope codecs.prost m.envelope = .ok d.envelope := by
    intro m hm d hd heq
    obtain ⟨run, hrun, hd⟩ := List.mem_flatten.mp hd
    obtain ⟨m', hm', hid, hdecode⟩ := hr.origin run hrun d hd
    -- a sequence number belongs to one message only
    have hsame : m = m' := List.inj_on_of_nodup_map hnodup (List.mem_of_mem_filter hm) hm'
      (heq.trans hid.symm)
    rw [hsame]
    exact hdecode
  have hmap := map_eq_map_of_map_eq (G := fun d => Except.ok d.envelope) hkeys hagree
  rw [hmap, ← List.map_flatten, List.map_map]
  rfl

theorem Represents.conserved (hr : Represents codecs n h s c k runs) (hn : n < 2 ^ 32) :
    Conserved codecs s h where
  sequences := by
    rw [hr.sequences]
    exact List.pairwise_lt_range
  batchIds := by
    rw [hr.ids]
    exact List.pairwise_lt_range
  isRejection := hr.isRejection
  pending := ⟨k.taken, fun limit => by rw [pendingMessages_eq hr.holds, hr.pending]⟩
  confirmed := by
    intro id hid
    rw [hr.ids]
    exact List.mem_range.mpr (hr.confirmed_lt id hid)
  ready := ⟨c.ready, fun limit => readyBatches_eq hr.holds limit, hr.ready⟩
  account := by
    refine ⟨k.groups, runs.map (List.map Decoded.envelope), ?_, hr.opened, ?_, ?_,
      hr.map_sequence_batched.symm, hr.decoded⟩
    · rw [hr.pendingIds_eq, hr.dropped, hr.sequences]
      exact k.accounted
    · rw [hr.counted hn, List.map_map]
      simp [Function.comp_def]
    · rw [hr.groups, List.map_map, List.map_map]
      simp [Function.comp_def]

end Reading

/-- **Durable conservation.**  In every state of every run of fewer than `2 ^ 32`
events, every pushed envelope is pending, in exactly one batch, or rejected; the
batches hold the batched envelopes in push order and count them; and no sequence
number or batch identifier is used twice. -/
theorem durable_conservation (codecs : Codecs) (hc : codecs.Lawful) (es : List Event)
    (s : Gateway) (h : List Observation)
    (hrun : (gateway codecs).exec Gateway.fresh es = some (s, h)) (hlen : es.length < 2 ^ 32) :
    Conserved codecs s h := by
  obtain ⟨c, k, runs, hr⟩ := represents_of_exec hc hrun hlen
  exact hr.conserved hlen

/-- Codecs for a run without compression: the compressor is not called. -/
def plainCodecs : Codecs := ⟨Wire.wire, ⟨.ok, .ok⟩⟩

theorem plainCodecs_lawful : plainCodecs.Lawful where
  prost := Wire.wire_lawful
  zstd := by
    intro b c h
    obtain rfl := Except.ok.inj h
    rfl

/-- Uncompressed batches of at most two messages. -/
def plainConfig : BatcherConfig := ⟨30, 8192, 2, .none⟩

/-- Two decodable messages and one that is not, one batch that is confirmed, a
crash between planning and commit, and a second batch. -/
def plainRun : List Event :=
  [.push ⟨1⟩ [10, 1, 7], .push ⟨2⟩ [255], .plan plainConfig ⟨3⟩ false, .push ⟨4⟩ [10, 1, 9],
    .commit ⟨5⟩, .confirm 0, .plan plainConfig ⟨6⟩ true, .crash, .plan plainConfig ⟨7⟩ true,
    .commit ⟨8⟩]

theorem durable_conservation_plainRun :
    ∃ s h, (gateway plainCodecs).exec Gateway.fresh plainRun = some (s, h) ∧
      (created h).map Created.id = [0, 1] ∧ confirmations h = [0] ∧
      rejectedIds (rejections h) = [1] ∧ Conserved plainCodecs s h := by
  have hshown : ((gateway plainCodecs).exec Gateway.fresh plainRun).map (fun p =>
      ((created p.2).map Created.id, confirmations p.2, rejectedIds (rejections p.2))) =
      some ([0, 1], [0], [1]) := by
    decide +kernel
  obtain ⟨⟨s, h⟩, hrun, hh⟩ := Option.map_eq_some_iff.mp hshown
  obtain ⟨hids, hrest⟩ := Prod.mk.inj hh
  obtain ⟨hconfirmed, hrejected⟩ := Prod.mk.inj hrest
  exact ⟨s, h, hrun, hids, hconfirmed, hrejected,
    durable_conservation plainCodecs plainCodecs_lawful plainRun s h hrun (by decide)⟩

end Batcher
end Robins
